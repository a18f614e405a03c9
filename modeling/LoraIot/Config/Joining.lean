import LoraIot.Config.Refinement
import LoraIot.Lora.Configure

/-!
# What the LoRaWAN stack is asked for

The LoRa thread calls `lora_configure` and, when that succeeds, announces and
calls `lorawan_join`; in between, clients go on changing and saving settings.
The join configuration holds pointers to the credentials, so `lorawan_join`
reads them as they are when it is called, while class, authentication and
device address are those of `lora_configure`.

`Station` says this of settings and nothing else: what a station with these
settings asks its stack for.  Every run of the device with a careful client is
a run of a station that asks for the same, but for one credential: in ABP mode
the device puts its device EUI where the station has the application EUI.
-/

namespace LoraIot.Config

open LoraIot.CStrings LoraIot.Lora LoraIot.Numerals LoraIot.Vars
open LoraIot.Runs LoraIot.Persistence LoraIot.Simulations

/-! ## The device -/

/-- What `lorawan_join` is asked to do. -/
inductive JoinRequest where
  | abp (devEui appSkey nwkSkey appEui : List UInt8) (devAddr : Nat)
  | otaa (devEui joinEui appKey : List UInt8)
  deriving DecidableEq, Repr

def pointedTo (store : Store) : Pointer → Option (List UInt8)
  | .data var => some (store.data var)
  | _ => none

/-- What `lorawan_join` finds in the join configuration. -/
def joinRequest (store : Store) (joinCfg : JoinConfig) :
    Option JoinRequest := do
  let devEui ← pointedTo store joinCfg.devEui
  match joinCfg.mode with
  | .abp =>
      let appSkey ← pointedTo store joinCfg.abp.appSkey
      let nwkSkey ← pointedTo store joinCfg.abp.nwkSkey
      let appEui ← pointedTo store joinCfg.abp.appEui
      return .abp devEui appSkey nwkSkey appEui joinCfg.abp.devAddr
  | .otaa =>
      let joinEui ← pointedTo store joinCfg.otaa.joinEui
      let appKey ← pointedTo store joinCfg.otaa.appKey
      return .otaa devEui joinEui appKey

inductive Asked where
  | call (call : StackCall)
  /-- Without a request the join follows a wild pointer. -/
  | join (request : Option JoinRequest)
  deriving DecidableEq, Repr

/-- The device and its LoRa thread between `lora_configure` and
`lorawan_join`. -/
structure Joining where
  device : Device
  lwConfig : JoinConfig
  /-- The last `lora_configure` succeeded and `lorawan_join` comes next. -/
  configured : Bool
  asked : List Asked

/-- The device before its first start.  `lora_thread` does not initialise its
join configuration. -/
def Joining.start (garbage : JoinConfig) : Joining :=
  ⟨factory, garbage, false, []⟩

inductive Doing where
  | happening (happening : Happening)
  | configure (env : Env)
  | join

/-- All threads start again. -/
def Happening.restarts : Happening → Bool
  | .call made =>
      match made.effect with
      | .restart => true
      | _ => false
  | .interruptedSave _ _ => true

def joiningStep (joining : Joining) : Doing → Option Joining
  | .happening happening =>
      (happen joining.device happening).map fun device =>
        { joining with
          device := device
          configured := joining.configured && !happening.restarts }
  | .configure env =>
      if joining.configured then
        none
      else
        let result :=
          loraConfigure env joining.device.store joining.lwConfig
        some
          { device := { joining.device with store := result.store }
            lwConfig := result.joinCfg
            configured := decide (result.ret = 0)
            asked := joining.asked ++ result.calls.map .call }
  | .join =>
      if joining.configured then
        some
          { joining with
            configured := false
            asked := joining.asked ++
              [.join (joinRequest joining.device.store joining.lwConfig)] }
      else
        none

def DisciplinedDoing (joining : Joining) : Doing → Prop
  | .happening happening => Disciplined joining.device happening
  | _ => True

/-! ## The station -/

def Setting.asFlag : Setting → Bool
  | .flag isSet => isSet
  | _ => false

def Setting.asNumber : Setting → Nat
  | .number value => value
  | _ => 0

def Setting.asBytes : Setting → List UInt8
  | .bytes value => value
  | _ => []

/-- In capitals, as `strupr` leaves a text. -/
def Setting.upper : Setting → Setting
  | .text characters => .text (characters.map toUpper)
  | other => other

def Setting.Spells (word : String) (setting : Setting) : Prop :=
  setting.upper = .text ((ascii word).map toUpper)

instance (word : String) (setting : Setting) :
    Decidable (setting.Spells word) :=
  inferInstanceAs (Decidable (_ = _))

/-- What has been settled about the next join. -/
inductive Agreement where
  | abp (devAddr : Nat)
  | otaa
  deriving DecidableEq, Repr

section Asks

variable (current : Var → Setting)

def chosenClass : Option LorawanClass :=
  if (current .loraClass).Spells "A" then some .a
  else if (current .loraClass).Spells "C" then some .c
  else none

def chosenAuth : Option Agreement :=
  if (current .loraAuth).Spells "ABP" then
    some (.abp (leValue (current .loraDevAddr).asBytes))
  else if (current .loraAuth).Spells "OTAA" then
    some .otaa
  else
    none

/-- What is agreed on when class and authentication are valid. -/
def agreement : Option Agreement :=
  (chosenClass current).bind fun _ => chosenAuth current

def setup : List StackCall :=
  ((chosenClass current).map StackCall.setClass).toList ++
    [.enableAdr (current .loraAdr).asFlag,
      .setDatarate (current .loraDatarate).asNumber,
      .setChannelmask (current .loraChanMask).asBytes,
      .setRxdelay (current .loraRxdelay1).asNumber
        (current .loraRxdelay2).asNumber,
      .setDatarate (current .loraDatarate).asNumber]

/-- The join itself, with every credential from the setting of its name. -/
def Agreement.request : Agreement → JoinRequest
  | .abp devAddr =>
      .abp (current .loraDevEui).asBytes (current .loraAppSkey).asBytes
        (current .loraNwkSkey).asBytes (current .loraAppEui).asBytes devAddr
  | .otaa =>
      .otaa (current .loraDevEui).asBytes (current .loraAppEui).asBytes
        (current .loraAppKey).asBytes

end Asks

/-- A memory of settings and what it has asked for. -/
structure Station where
  memory : Memory Var Setting
  agreed : Option Agreement
  asked : List Asked

def Station.start : Station := ⟨fresh defaults, none, []⟩

inductive Order where
  | settings (request : Request Var Setting)
  /-- What has been agreed on is forgotten. -/
  | forget
  | configure
  | join

def stationStep (station : Station) : Order → Option Station
  | .settings request =>
      some { station with memory := perform defaults station.memory request }
  | .forget => some { station with agreed := none }
  | .configure =>
      if station.agreed.isSome then
        none
      else
        some
          { memory :=
              [.update .loraClass Setting.upper,
                .update .loraAuth Setting.upper].foldl (perform defaults)
                station.memory
            agreed := agreement station.memory.current
            asked := station.asked ++
              (setup station.memory.current).map .call }
  | .join =>
      station.agreed.map fun agreed =>
        { station with
          agreed := none
          asked := station.asked ++
            [.join (some (agreed.request station.memory.current))] }

def orders (joining : Joining) : Doing → List Order
  | .happening happening =>
      (requests joining.device happening).map .settings ++
        if happening.restarts then [.forget] else []
  | .configure _ => [.configure]
  | .join => [.join]

/-- In ABP mode `lora_configure` wires the device EUI to the application
EUI. -/
def JoinRequest.wired : JoinRequest → JoinRequest
  | .abp devEui appSkey nwkSkey _ devAddr =>
      .abp devEui appSkey nwkSkey devEui devAddr
  | .otaa devEui joinEui appKey => .otaa devEui joinEui appKey

def Asked.wired : Asked → Asked
  | .call made => .call made
  | .join request => .join (request.map JoinRequest.wired)

/-- The wiring makes no difference. -/
def Asked.EuisAgree : Asked → Prop
  | .join (some (.abp devEui _ _ appEui _)) => devEui = appEui
  | _ => True

instance (asked : Asked) : Decidable asked.EuisAgree :=
  match asked with
  | .call _ => isTrue trivial
  | .join none => isTrue trivial
  | .join (some (.otaa _ _ _)) => isTrue trivial
  | .join (some (.abp devEui _ _ appEui _)) =>
      inferInstanceAs (Decidable (devEui = appEui))

theorem Asked.wired_eq_iff (asked : Asked) :
    asked.wired = asked ↔ asked.EuisAgree := by
  cases asked with
  | call made => exact iff_of_true rfl trivial
  | join request =>
      cases request with
      | none => exact iff_of_true rfl trivial
      | some request =>
          cases request with
          | abp devEui appSkey nwkSkey appEui devAddr =>
              simp [Asked.wired, JoinRequest.wired, Asked.EuisAgree]
          | otaa devEui joinEui appKey => exact iff_of_true rfl trivial

theorem map_wired_eq_iff (asked : List Asked) :
    asked.map Asked.wired = asked ↔ ∀ one ∈ asked, one.EuisAgree := by
  induction asked with
  | nil => simp
  | cons first rest inductionHypothesis =>
      rw [List.map_cons, List.cons.injEq, Asked.wired_eq_iff,
        inductionHypothesis, List.forall_mem_cons]

/-- The join configuration holds what has been agreed on, but for the
application EUI of ABP. -/
def Holds (lwConfig : JoinConfig) : Agreement → Prop
  | .abp devAddr =>
      lwConfig.mode = .abp ∧ lwConfig.devEui = .data .loraDevEui ∧
        lwConfig.abp =
          { devAddr := devAddr
            appSkey := .data .loraAppSkey
            nwkSkey := .data .loraNwkSkey
            appEui := .data .loraDevEui }
  | .otaa =>
      lwConfig.mode = .otaa ∧ lwConfig.devEui = .data .loraDevEui ∧
        lwConfig.otaa =
          { joinEui := .data .loraAppEui
            appKey := .data .loraAppKey }

structure Stands (joining : Joining) (station : Station) : Prop where
  denotes : Denotes joining.device station.memory
  configured : joining.configured = station.agreed.isSome
  holds : ∀ agreed ∈ station.agreed, Holds joining.lwConfig agreed
  asked : joining.asked = station.asked.map Asked.wired

theorem start_stands (garbage : JoinConfig) :
    Stands (Joining.start garbage) Station.start where
  denotes := factory_denotes
  configured := rfl
  holds _ impossible := by cases impossible
  asked := rfl

section Settings

variable {device : Device} {memory : Memory Var Setting}

theorem Denotes.asBytes (denotes : Denotes device memory) (var : Var)
    (isBinary : var.declaration.vtype = .binary) :
    (memory.current var).asBytes = device.store.data var := by
  rw [← denotes.current var]
  simp only [setting, isBinary, Store.cell, Setting.asBytes,
    denotes.kept.binaries var isBinary]
  exact List.take_of_length_le (Nat.le_of_eq (device.store.sized var))

theorem Denotes.asFlag (denotes : Denotes device memory) (var : Var)
    (isBoolean : var.declaration.vtype = .boolean) :
    (memory.current var).asFlag = device.store.truth var := by
  rw [← denotes.current var]
  simp only [setting, isBoolean, Store.cell, Setting.asFlag, Store.truth]
  rfl

theorem Denotes.asNumber (denotes : Denotes device memory) (var : Var)
    (isNumber : var.declaration.vtype = .uint8 ∨
      var.declaration.vtype = .uint16) :
    (memory.current var).asNumber = device.store.number var := by
  rw [← denotes.current var]
  rcases isNumber with kind | kind <;>
    simp only [setting, kind, Store.cell, Setting.asNumber, Store.number]

theorem Denotes.spells (denotes : Denotes device memory) (var : Var)
    (isStr : var.declaration.vtype = .str) (word : String) :
    (memory.current var).Spells word ↔
      Lora.Spells device.store var word := by
  rw [← denotes.current var]
  simp only [setting, isStr, Store.cell, Setting.Spells, Setting.upper,
    Lora.Spells, Setting.text.injEq]

/-- Converting a string to capitals is an update of its setting. -/
theorem Denotes.uppercased (denotes : Denotes device memory) (var : Var)
    (isStr : var.declaration.vtype = .str) {after : Store}
    (upper : Uppercased var device.store after) :
    Denotes { device with store := after }
      (perform defaults memory (.update var Setting.upper)) := by
  have text : setting var (after.cell var) =
      (setting var (device.store.cell var)).upper := by
    simp only [setting, isStr, Store.cell, Setting.upper, upper.text]
  refine denotes.change Setting.upper ⟨?_, ?_, denotes.kept.entries⟩ ?_ text
  · intro other otherStr
    obtain ⟨terminated, short⟩ := denotes.kept.strings other otherStr
    dsimp only
    rw [upper.length]
    by_cases same : other = var
    · subst same
      refine ⟨upper.terminated, ?_⟩
      rw [strlen, upper.text, List.length_map]
      exact short
    · rw [upper.others other same]
      exact ⟨terminated, short⟩
  · intro other isBinary
    dsimp only
    rw [upper.length]
    exact denotes.kept.binaries other isBinary
  · intro other different
    rw [Store.cell, Store.cell, upper.others other different, upper.length]

theorem configureClass_calls (env : Env) {store : Store}
    (terminated : 0 ∈ store.data .loraClass) :
    (configureClass env store).2.2 =
      if Lora.Spells store .loraClass "A" then [.setClass .a]
      else if Lora.Spells store .loraClass "C" then [.setClass .c]
      else [] := by
  have isFirst := struprVar_spells env terminated
    (show (ascii "A").map toUpper = ascii "A" by decide)
  have isSecond := struprVar_twice_spells env terminated
    (show (ascii "C").map toUpper = ascii "C" by decide)
  rw [configureClass]
  dsimp only
  by_cases isA : Lora.Spells store .loraClass "A"
  · rw [if_pos (isFirst.mpr isA), if_pos isA]
  · rw [if_neg (mt isFirst.mp isA), if_neg isA]
    by_cases isC : Lora.Spells store .loraClass "C"
    · rw [if_pos (isSecond.mpr isC), if_pos isC]
    · rw [if_neg (mt isSecond.mp isC), if_neg isC]

theorem Denotes.terminated (denotes : Denotes device memory) (var : Var)
    (isStr : var.declaration.vtype = .str) : 0 ∈ device.store.data var :=
  (denotes.kept.strings var isStr).1

/-- The calls of `lora_configure` follow from the settings. -/
theorem Denotes.setup (denotes : Denotes device memory) (env : Env)
    (previous : JoinConfig) :
    (loraConfigure env device.store previous).calls =
      Config.setup memory.current := by
  have terminated : 0 ∈ device.store.data .loraClass :=
    denotes.terminated .loraClass rfl
  have upper := configureClass_uppercased env terminated
  have flag := denotes.asFlag .loraAdr rfl
  have mask := denotes.asBytes .loraChanMask rfl
  have datarate := denotes.asNumber .loraDatarate (Or.inl rfl)
  have first := denotes.asNumber .loraRxdelay1 (Or.inr rfl)
  have second := denotes.asNumber .loraRxdelay2 (Or.inr rfl)
  have calls : (configureClass env device.store).2.2 =
      ((chosenClass memory.current).map StackCall.setClass).toList := by
    rw [configureClass_calls env terminated, chosenClass]
    simp only [denotes.spells .loraClass rfl]
    split
    · rfl
    · split
      · rfl
      · rfl
  simp only [loraConfigure, configureRadio, Config.setup, calls, flag, mask,
    datarate, first, second, Store.truth, Store.number,
    upper.others .loraAdr (by decide),
    upper.others .loraDatarate (by decide),
    upper.others .loraChanMask (by decide),
    upper.others .loraRxdelay1 (by decide),
    upper.others .loraRxdelay2 (by decide)]

theorem agreement_eq (current : Var → Setting) :
    Config.agreement current =
      if (current .loraClass).Spells "A" ∨ (current .loraClass).Spells "C" then
        chosenAuth current
      else
        none := by
  rw [Config.agreement, chosenClass]
  by_cases isA : (current .loraClass).Spells "A"
  · rw [if_pos isA, if_pos (Or.inl isA), Option.bind_some]
  · rw [if_neg isA]
    by_cases isC : (current .loraClass).Spells "C"
    · rw [if_pos isC, if_pos (Or.inr isC), Option.bind_some]
    · rw [if_neg isC, if_neg (not_or.mpr ⟨isA, isC⟩), Option.bind_none]

theorem Denotes.configured (denotes : Denotes device memory) (env : Env)
    (previous : JoinConfig) :
    decide ((loraConfigure env device.store previous).ret = 0) =
      (Config.agreement memory.current).isSome := by
  have ret := loraConfigure_ret (denotes.terminated .loraClass rfl)
    (denotes.terminated .loraAuth rfl) env previous
  simp only [← denotes.spells .loraAuth rfl,
    ← denotes.spells .loraClass rfl] at ret
  rw [agreement_eq, chosenAuth, ret]
  by_cases isValid : (memory.current .loraClass).Spells "A" ∨
      (memory.current .loraClass).Spells "C"
  · simp only [isValid, true_and, if_true]
    by_cases isAbp : (memory.current .loraAuth).Spells "ABP"
    · simp only [isAbp, true_or, if_true, decide_true, Option.isSome_some]
    · by_cases isOtaa : (memory.current .loraAuth).Spells "OTAA"
      · simp only [isAbp, isOtaa, or_true, if_true, if_false, decide_true,
          Option.isSome_some]
      · simp [isAbp, isOtaa]
  · simp [isValid]

/-- What has been agreed on is in the join configuration. -/
theorem Denotes.holds (denotes : Denotes device memory) (env : Env)
    (previous : JoinConfig) {agreed : Agreement}
    (isAgreed : Config.agreement memory.current = some agreed) :
    Holds (loraConfigure env device.store previous).joinCfg agreed := by
  have classEnds := denotes.terminated .loraClass rfl
  have authEnds := denotes.terminated .loraAuth rfl
  have spells := denotes.spells .loraAuth rfl
  have chosen : chosenAuth memory.current = some agreed := by
    rw [agreement_eq] at isAgreed
    split at isAgreed
    · exact isAgreed
    · cases isAgreed
  rw [chosenAuth] at chosen
  by_cases isAbp : (memory.current .loraAuth).Spells "ABP"
  · rw [if_pos isAbp] at chosen
    obtain rfl := Option.some.inj chosen
    rw [loraConfigure_joinCfg_of_abp classEnds authEnds env previous
      ((spells "ABP").mp isAbp),
      denotes.asBytes .loraDevAddr rfl]
    exact ⟨rfl, rfl, rfl⟩
  · rw [if_neg isAbp] at chosen
    split at chosen
    · rename_i isOtaa
      obtain rfl := Option.some.inj chosen
      rw [loraConfigure_joinCfg_of_not_abp classEnds authEnds env previous
        (mt (spells "ABP").mpr isAbp), if_pos ((spells "OTAA").mp isOtaa)]
      exact ⟨rfl, rfl, rfl⟩
    · cases chosen

theorem Denotes.capitals (denotes : Denotes device memory) (env : Env)
    (previous : JoinConfig) :
    Denotes { device with
        store := (loraConfigure env device.store previous).store }
      ([.update .loraClass Setting.upper,
        .update .loraAuth Setting.upper].foldl (perform defaults) memory) := by
  have classEnds := denotes.terminated .loraClass rfl
  have authEnds := denotes.terminated .loraAuth rfl
  have first := denotes.uppercased .loraClass rfl
    (configureClass_uppercased env classEnds)
  have second := first.uppercased .loraAuth rfl
    (configureAuth_uppercased env
      (configureClass_terminated classEnds authEnds env) previous)
  rw [List.foldl_cons, List.foldl_cons, List.foldl_nil]
  simp only [loraConfigure]
  exact second

/-- `lorawan_join` finds the credentials as they are now. -/
theorem Denotes.request (denotes : Denotes device memory)
    {lwConfig : JoinConfig} {agreed : Agreement}
    (holds : Holds lwConfig agreed) :
    joinRequest device.store lwConfig =
      some (agreed.request memory.current).wired := by
  have devEui := denotes.asBytes .loraDevEui rfl
  cases agreed with
  | abp devAddr =>
      obtain ⟨mode, own, credentials⟩ := holds
      simp only [joinRequest, mode, own, credentials, pointedTo,
        Agreement.request, JoinRequest.wired, devEui,
        denotes.asBytes .loraAppSkey rfl,
        denotes.asBytes .loraNwkSkey rfl]
      rfl
  | otaa =>
      obtain ⟨mode, own, credentials⟩ := holds
      simp only [joinRequest, mode, own, credentials, pointedTo,
        Agreement.request, JoinRequest.wired, devEui,
        denotes.asBytes .loraAppEui rfl,
        denotes.asBytes .loraAppKey rfl]
      rfl

end Settings

/-! ## Runs -/

theorem execute_settings (station : Station)
    (requests : List (Request Var Setting)) :
    execute stationStep station (requests.map .settings) =
      some { station with
        memory := requests.foldl (perform defaults) station.memory } := by
  induction requests generalizing station with
  | nil => rfl
  | cons request rest inductionHypothesis =>
      rw [List.map_cons, execute_cons, stationStep, Option.bind_some,
        inductionHypothesis, List.foldl_cons]

theorem joining_simulates :
    Simulates joiningStep DisciplinedDoing stationStep orders Stands := by
  intro joining doing next station stands disciplined taken
  cases doing with
  | happening happening =>
      obtain ⟨device, happened, rfl⟩ := Option.map_eq_some_iff.mp taken
      have denotes := stands.denotes.happen disciplined happened
      rw [orders, execute_append, execute_settings, Option.bind_some]
      cases again : happening.restarts with
      | true =>
          refine ⟨_, rfl, denotes, ?_, fun _ impossible => ?_, stands.asked⟩
          · simp
          · cases impossible
      | false =>
          refine ⟨_, rfl, denotes, ?_, stands.holds, stands.asked⟩
          simpa using stands.configured
  | configure env =>
      simp only [joiningStep] at taken
      split at taken
      · cases taken
      · rename_i free
        obtain rfl := Option.some.inj taken
        rw [stands.configured] at free
        refine ⟨_, by rw [orders, execute_cons, stationStep, if_neg free,
          Option.bind_some, execute_nil], ?_⟩
        constructor
        · exact stands.denotes.capitals env joining.lwConfig
        · dsimp only
          rw [stands.denotes.configured env joining.lwConfig]
        · intro agreed isAgreed
          dsimp only at isAgreed ⊢
          exact stands.denotes.holds env joining.lwConfig
            (Option.mem_def.mp isAgreed)
        · dsimp only
          rw [stands.denotes.setup env joining.lwConfig, stands.asked,
            List.map_append, List.map_map]
          rfl
  | join =>
      simp only [joiningStep] at taken
      split at taken
      · rename_i isConfigured
        cases taken
        rw [stands.configured] at isConfigured
        obtain ⟨agreed, isAgreed⟩ := Option.isSome_iff_exists.mp isConfigured
        have holds := stands.holds agreed isAgreed
        refine ⟨_, by rw [orders, execute_cons, stationStep, isAgreed,
          Option.map_some, Option.bind_some, execute_nil], ?_⟩
        refine ⟨stands.denotes, rfl, fun _ impossible => ?_, ?_⟩
        · cases impossible
        · dsimp only
          rw [stands.asked, stands.denotes.request holds, List.map_append]
          rfl
      · cases taken

/-- Whatever a careful client sets, saves and restores between the calls of
the LoRa thread, and whatever its join configuration held before, the LoRaWAN
stack is asked for what a station with these settings asks for, with the device
EUI for the application EUI in ABP mode: for exactly the same if and only if
the two are equal in every ABP request of the station. -/
theorem stack_asked_for_settings (garbage : JoinConfig) (doings : List Doing)
    (joining : Joining)
    (disciplined : Meets joiningStep DisciplinedDoing
      (Joining.start garbage) doings)
    (reached : execute joiningStep (Joining.start garbage) doings =
      some joining) :
    ∃ station,
      execute stationStep Station.start
          (answers joiningStep orders (Joining.start garbage) doings) =
        some station ∧
      joining.asked = station.asked.map Asked.wired ∧
      (joining.asked = station.asked ↔
        ∀ asked ∈ station.asked, asked.EuisAgree) ∧
      ActsAs joining.device station.memory := by
  obtain ⟨station, answered, stands⟩ :=
    joining_simulates.execute (start_stands garbage) disciplined reached
  refine ⟨station, answered, stands.asked, ?_, stands.denotes.actsAs⟩
  rw [stands.asked]
  exact map_wired_eq_iff station.asked

/-- The device is switched to OTAA, configured, given another key, and joins
with that. -/
def joinsWithLateKey : List Doing :=
  [.happening (.call (.varsSet Env.quiet (ascii "auth")
      (some (ascii "otaa")))),
    .configure Env.quiet,
    .happening (.call (.write Env.quiet .loraAppKey
      (List.replicate 16 0x11) 0)),
    .join]

/-- The OTAA join is the one of the settings. -/
theorem joinsWithLateKey_asked :
    ∃ (joining : Joining) (station : Station),
      execute joiningStep (Joining.start .cleared) joinsWithLateKey =
        some joining ∧
      joining.asked.getLast? =
        some (.join (some (.otaa (Store.initial.data .loraDevEui)
          (Store.initial.data .loraAppEui) (List.replicate 16 0x11)))) ∧
      joining.asked = station.asked ∧
      ActsAs joining.device station.memory := by
  have runs : (execute joiningStep (Joining.start .cleared)
      joinsWithLateKey).any (fun joining => decide (joining.asked.getLast? =
        some (.join (some (.otaa (Store.initial.data .loraDevEui)
          (Store.initial.data .loraAppEui)
          (List.replicate 16 0x11)))))) = true := by
    decide
  have agree : (execute stationStep Station.start
      (answers joiningStep orders (Joining.start .cleared)
        joinsWithLateKey)).all (fun station =>
          station.asked.all fun asked => decide asked.EuisAgree) = true := by
    decide
  obtain ⟨joining, reached, last⟩ := (Option.any_eq_true _ _).mp runs
  obtain ⟨station, answered, _, same, acts⟩ :=
    stack_asked_for_settings .cleared joinsWithLateKey joining
      ⟨fun _ => by decide, fun _ _ => ⟨trivial, fun _ _ =>
        ⟨⟨by decide, fun overruns => by cases overruns.1⟩, fun _ _ =>
          ⟨trivial, fun _ _ => trivial⟩⟩⟩⟩
      reached
  rw [answered, Option.all_some, List.all_eq_true] at agree
  exact ⟨joining, station, reached, of_decide_eq_true last,
    same.mpr fun asked member => of_decide_eq_true (agree asked member), acts⟩

/-- The factory settings join by ABP, and their two EUIs differ. -/
example :
    (execute stationStep Station.start [.configure, .join]).all
      (fun station =>
        station.asked.all fun asked => decide asked.EuisAgree) = false := by
  decide

end LoraIot.Config
