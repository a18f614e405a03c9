import LoraIot.Vars.FlashLoad
import LoraIot.Vars.SetGet
import LoraIot.Vars.Strings

/-!
# Configuring the LoRaWAN stack (`LoRa_task.c`)

`lora_configure` selects the class, passes the radio settings on and fills the
join configuration with pointers to the credentials.  It converts the strings
`class` and `auth` to upper case in place, by a `strupr` that knows nothing of
the arrays, and compares them afterwards.
-/

namespace LoraIot.Lora

open LoraIot.CStrings LoraIot.Numerals LoraIot.Vars

inductive LorawanClass where
  | a | c
  deriving DecidableEq, Repr

inductive StackCall where
  | setClass (devClass : LorawanClass)
  | enableAdr (enable : Bool)
  | setDatarate (datarate : Nat)
  | setChannelmask (mask : List UInt8)
  | setRxdelay (first second : Nat)
  deriving DecidableEq, Repr

/-- `enum lorawan_act_type`, of which `LORAWAN_ACT_OTAA` is zero. -/
inductive ActType where
  | otaa | abp
  deriving DecidableEq, Repr

inductive Pointer where
  | null
  /-- The storage of a variable. -/
  | data (var : Var)
  | other (address : Nat)
  deriving DecidableEq, Repr

structure AbpConfig where
  devAddr : Nat
  appSkey : Pointer
  nwkSkey : Pointer
  appEui : Pointer
  deriving DecidableEq, Repr

structure OtaaConfig where
  joinEui : Pointer
  appKey : Pointer
  deriving DecidableEq, Repr

/-- The fields of `struct lorawan_join_config` that `lora_configure` names. -/
structure JoinConfig where
  mode : ActType
  devEui : Pointer
  abp : AbpConfig
  otaa : OtaaConfig
  deriving DecidableEq, Repr

def JoinConfig.cleared : JoinConfig where
  mode := .otaa
  devEui := .null
  abp := ⟨0, .null, .null, .null⟩
  otaa := ⟨.null, .null⟩

/-- `strupr` of a string variable.  The characters behind the array are stored
where they stand. -/
def struprVar (env : Env) (var : Var) (store : Store) : Store :=
  let upper := strupr (env.memory store var)
  let behind := (upper.take (strlen upper)).drop var.size
  (behind.zipIdx var.size).foldl
    (fun store character => env.stray var character.2 character.1 store)
    (store.write var 0 (upper.take var.size))

/-- The selection of the class: the result so far, the variables and the call
it makes. -/
def configureClass (env : Env) (store : Store) :
    Int × Store × List StackCall :=
  let first := struprVar env .loraClass store
  if cstr (env.memory first .loraClass) = ascii "A" then
    (0, first, [.setClass .a])
  else
    let second := struprVar env .loraClass first
    if cstr (env.memory second .loraClass) = ascii "C" then
      (0, second, [.setClass .c])
    else
      (-1, second, [])

def configureRadio (store : Store) : List StackCall :=
  [.enableAdr (store.truth .loraAdr),
    .setDatarate (store.number .loraDatarate),
    .setChannelmask (store.data .loraChanMask),
    .setRxdelay (store.number .loraRxdelay1) (store.number .loraRxdelay2),
    .setDatarate (store.number .loraDatarate)]

/-- The selection of the authentication: whether it is valid, the variables
and the join configuration. -/
def configureAuth (env : Env) (store : Store) (joinCfg : JoinConfig) :
    Bool × Store × JoinConfig :=
  let first := struprVar env .loraAuth store
  if cstr (env.memory first .loraAuth) = ascii "ABP" then
    (true, first,
      { joinCfg with
        mode := .abp
        devEui := .data .loraDevEui
        abp :=
          { devAddr := leValue (first.data .loraDevAddr)
            appSkey := .data .loraAppSkey
            nwkSkey := .data .loraNwkSkey
            appEui := .data .loraDevEui } })
  else
    let second := struprVar env .loraAuth first
    if cstr (env.memory second .loraAuth) = ascii "OTAA" then
      (true, second,
        { joinCfg with
          mode := .otaa
          devEui := .data .loraDevEui
          otaa :=
            { joinEui := .data .loraAppEui
              appKey := .data .loraAppKey } })
    else
      -- `memset(&join_cfg, …)` clears the parameter and not the structure it
      -- points to.
      (false, second, joinCfg)

structure Configured where
  ret : Int
  store : Store
  joinCfg : JoinConfig
  calls : List StackCall

def loraConfigure (env : Env) (store : Store) (joinCfg : JoinConfig) :
    Configured :=
  let devClass := configureClass env store
  let auth := configureAuth env devClass.2.1 joinCfg
  { ret := if auth.1 then devClass.1 else -1
    store := auth.2.1
    joinCfg := auth.2.2
    calls := devClass.2.2 ++ configureRadio devClass.2.1 }

/-- The string has been converted, and nothing else has changed. -/
structure Uppercased (var : Var) (store after : Store) : Prop where
  text : cstr (after.data var) = (cstr (store.data var)).map toUpper
  terminated : 0 ∈ after.data var
  others : ∀ other ≠ var, after.data other = store.data other
  length : after.length = store.length

section Uppercased

variable (env : Env) {var : Var} {store after : Store}

/-- In a terminated array `strupr` stays inside the array. -/
theorem struprVar_of_terminated (terminated : 0 ∈ store.data var) :
    struprVar env var store =
      store.write var 0 (strupr (store.data var)) := by
  have upper : strupr (env.memory store var) =
      strupr (store.data var) ++ env.beyond var :=
    strupr_append_of_mem terminated _
  have size : (strupr (store.data var)).length = var.size := by
    rw [strupr_length, store.sized]
  have length : strlen (strupr (env.memory store var)) < var.size := by
    rw [strlen_strupr, env.strlen_memory terminated, ← store.sized var]
    exact (strlen_lt_length_iff _).mpr terminated
  have behind :
      ((strupr (env.memory store var)).take
        (strlen (strupr (env.memory store var)))).drop var.size = [] := by
    rw [List.drop_eq_nil_iff, List.length_take]
    omega
  simp only [struprVar, behind, List.zipIdx_nil, List.foldl_nil]
  rw [upper, List.take_left' size]

theorem struprVar_uppercased (terminated : 0 ∈ store.data var) :
    Uppercased var store (struprVar env var store) := by
  rw [struprVar_of_terminated env terminated]
  have data := store.write_full var (strupr (store.data var))
    (by rw [strupr_length, store.sized])
  refine ⟨?_, ?_, ?_, rfl⟩
  · rw [data, cstr_strupr]
  · rw [data, zero_mem_strupr_iff]
    exact terminated
  · intro other different
    exact Store.write_data_of_ne _ _ _ _ _ different

theorem Uppercased.again (upper : Uppercased var store after) :
    Uppercased var store (struprVar env var after) := by
  have second : Uppercased var after (struprVar env var after) :=
    struprVar_uppercased env upper.terminated
  refine ⟨?_, second.terminated, ?_, second.length.trans upper.length⟩
  · rw [second.text, upper.text, List.map_map]
    apply List.map_congr_left
    intro byte _
    exact toUpper_toUpper byte
  · intro other different
    rw [second.others other different, upper.others other different]

theorem Uppercased.memory (upper : Uppercased var store after) :
    cstr (env.memory after var) = (cstr (store.data var)).map toUpper := by
  rw [Env.memory, cstr_append_of_mem upper.terminated, upper.text]

end Uppercased

def Spells (store : Store) (var : Var) (word : String) : Prop :=
  (cstr (store.data var)).map toUpper = (ascii word).map toUpper

instance (store : Store) (var : Var) (word : String) :
    Decidable (Spells store var word) :=
  inferInstanceAs (Decidable (_ = _))

section Branches

variable (env : Env) {store : Store}

theorem Uppercased.compare {var : Var} {after : Store}
    (upper : Uppercased var store after) {word : String}
    (capitals : (ascii word).map toUpper = ascii word) :
    cstr (env.memory after var) = ascii word ↔ Spells store var word := by
  rw [upper.memory env, Spells, capitals]

section Converted

variable {var : Var} {word : String}

theorem struprVar_spells (terminated : 0 ∈ store.data var)
    (capitals : (ascii word).map toUpper = ascii word) :
    cstr (env.memory (struprVar env var store) var) = ascii word ↔
      Spells store var word :=
  (struprVar_uppercased env terminated).compare env capitals

theorem struprVar_twice_spells (terminated : 0 ∈ store.data var)
    (capitals : (ascii word).map toUpper = ascii word) :
    cstr (env.memory (struprVar env var (struprVar env var store)) var) =
        ascii word ↔
      Spells store var word :=
  ((struprVar_uppercased env terminated).again env).compare env capitals

/-- Each selection converts its string once or twice. -/
theorem uppercased_of_either (terminated : 0 ∈ store.data var)
    {after : Store}
    (either : after = struprVar env var store ∨
      after = struprVar env var (struprVar env var store)) :
    Uppercased var store after := by
  have first := struprVar_uppercased env terminated
  rcases either with once | twice
  · rw [once]
    exact first
  · rw [twice]
    exact first.again env

end Converted

theorem configureClass_uppercased (terminated : 0 ∈ store.data .loraClass) :
    Uppercased .loraClass store (configureClass env store).2.1 := by
  apply uppercased_of_either env terminated
  rw [configureClass]
  dsimp only
  split
  · dsimp only
    exact Or.inl rfl
  · split
    · dsimp only
      exact Or.inr rfl
    · dsimp only
      exact Or.inr rfl

theorem configureClass_fst (terminated : 0 ∈ store.data .loraClass) :
    (configureClass env store).1 =
      if Spells store .loraClass "A" ∨ Spells store .loraClass "C" then
        0
      else
        -1 := by
  have isFirst := struprVar_spells env terminated
    (show (ascii "A").map toUpper = ascii "A" by decide)
  have isSecond := struprVar_twice_spells env terminated
    (show (ascii "C").map toUpper = ascii "C" by decide)
  rw [configureClass]
  dsimp only
  by_cases isA : Spells store .loraClass "A"
  · rw [if_pos (isFirst.mpr isA), if_pos (Or.inl isA)]
  · rw [if_neg (mt isFirst.mp isA)]
    by_cases isC : Spells store .loraClass "C"
    · rw [if_pos (isSecond.mpr isC), if_pos (Or.inr isC)]
    · rw [if_neg (mt isSecond.mp isC), if_neg (not_or.mpr ⟨isA, isC⟩)]

theorem configureAuth_uppercased (terminated : 0 ∈ store.data .loraAuth)
    (joinCfg : JoinConfig) :
    Uppercased .loraAuth store (configureAuth env store joinCfg).2.1 := by
  apply uppercased_of_either env terminated
  rw [configureAuth]
  dsimp only
  split
  · dsimp only
    exact Or.inl rfl
  · split
    · dsimp only
      exact Or.inr rfl
    · dsimp only
      exact Or.inr rfl

theorem configureAuth_of_abp (terminated : 0 ∈ store.data .loraAuth)
    (isAbp : Spells store .loraAuth "ABP") (joinCfg : JoinConfig) :
    (configureAuth env store joinCfg).1 = true ∧
      (configureAuth env store joinCfg).2.2 =
        { joinCfg with
          mode := .abp
          devEui := .data .loraDevEui
          abp :=
            { devAddr := leValue (store.data .loraDevAddr)
              appSkey := .data .loraAppSkey
              nwkSkey := .data .loraNwkSkey
              appEui := .data .loraDevEui } } := by
  have isFirst := struprVar_spells env terminated
    (show (ascii "ABP").map toUpper = ascii "ABP" by decide)
  have upper := struprVar_uppercased env terminated
  rw [configureAuth, if_pos (isFirst.mpr isAbp),
    upper.others .loraDevAddr (by decide)]
  exact ⟨rfl, rfl⟩

theorem configureAuth_of_not_abp (terminated : 0 ∈ store.data .loraAuth)
    (notAbp : ¬ Spells store .loraAuth "ABP") (joinCfg : JoinConfig) :
    (configureAuth env store joinCfg).1 =
        decide (Spells store .loraAuth "OTAA") ∧
      (configureAuth env store joinCfg).2.2 =
        if Spells store .loraAuth "OTAA" then
          { joinCfg with
            mode := .otaa
            devEui := .data .loraDevEui
            otaa :=
              { joinEui := .data .loraAppEui
                appKey := .data .loraAppKey } }
        else
          joinCfg := by
  have isFirst := struprVar_spells env terminated
    (show (ascii "ABP").map toUpper = ascii "ABP" by decide)
  have isSecond := struprVar_twice_spells env terminated
    (show (ascii "OTAA").map toUpper = ascii "OTAA" by decide)
  rw [configureAuth]
  dsimp only
  rw [if_neg (mt isFirst.mp notAbp)]
  by_cases isOtaa : Spells store .loraAuth "OTAA"
  · rw [if_pos (isSecond.mpr isOtaa), if_pos isOtaa]
    exact ⟨(decide_eq_true isOtaa).symm, rfl⟩
  · rw [if_neg (mt isSecond.mp isOtaa), if_neg isOtaa]
    exact ⟨(decide_eq_false isOtaa).symm, rfl⟩

end Branches

/-! ## The join configuration -/

/-- The result says whether class and authentication are valid; a valid
authentication wires every credential to its namesake; and an invalid one
leaves nothing in the structure. -/
structure JoinExact (env : Env) (store : Store) (previous : JoinConfig) :
    Prop where
  zero_iff : (loraConfigure env store previous).ret = 0 ↔
    (Spells store .loraClass "A" ∨ Spells store .loraClass "C") ∧
      (Spells store .loraAuth "ABP" ∨ Spells store .loraAuth "OTAA")
  abp : (loraConfigure env store previous).ret = 0 →
    Spells store .loraAuth "ABP" →
      (loraConfigure env store previous).joinCfg.mode = .abp ∧
        (loraConfigure env store previous).joinCfg.devEui =
          .data .loraDevEui ∧
        (loraConfigure env store previous).joinCfg.abp =
          { devAddr := leValue (store.data .loraDevAddr)
            appSkey := .data .loraAppSkey
            nwkSkey := .data .loraNwkSkey
            appEui := .data .loraAppEui }
  otaa : (loraConfigure env store previous).ret = 0 →
    Spells store .loraAuth "OTAA" →
      (loraConfigure env store previous).joinCfg.mode = .otaa ∧
        (loraConfigure env store previous).joinCfg.devEui =
          .data .loraDevEui ∧
        (loraConfigure env store previous).joinCfg.otaa =
          { joinEui := .data .loraAppEui
            appKey := .data .loraAppKey }
  neither : ¬ Spells store .loraAuth "ABP" →
    ¬ Spells store .loraAuth "OTAA" →
      (loraConfigure env store previous).ret = -1 ∧
        (loraConfigure env store previous).joinCfg = .cleared

/-- No ABP configuration is accepted, and without a valid authentication the
structure has been cleared before. -/
def JoinCondition (store : Store) (previous : JoinConfig) : Prop :=
  (Spells store .loraAuth "ABP" →
    ¬ (Spells store .loraClass "A" ∨ Spells store .loraClass "C")) ∧
  (¬ Spells store .loraAuth "ABP" → ¬ Spells store .loraAuth "OTAA" →
    previous = .cleared)

section Join

variable {store : Store}

/-- A string that spells one of the two methods does not spell the other. -/
theorem not_abp_of_otaa (isOtaa : Spells store .loraAuth "OTAA") :
    ¬ Spells store .loraAuth "ABP" := by
  intro isAbp
  exact absurd (isAbp.symm.trans isOtaa) (by decide)

variable (classTerminated : 0 ∈ store.data .loraClass)
  (authTerminated : 0 ∈ store.data .loraAuth) (env : Env)
  (previous : JoinConfig)

include classTerminated in
/-- Selecting the class changes neither `auth` nor the credentials. -/
theorem configureClass_others {var : Var} (different : var ≠ .loraClass) :
    (configureClass env store).2.1.data var = store.data var :=
  (configureClass_uppercased env classTerminated).others var different

include classTerminated in
theorem configureClass_spells (word : String) :
    Spells (configureClass env store).2.1 .loraAuth word ↔
      Spells store .loraAuth word := by
  rw [Spells, Spells,
    configureClass_others classTerminated env (by decide)]

include classTerminated authTerminated in
theorem configureClass_terminated :
    0 ∈ (configureClass env store).2.1.data .loraAuth := by
  rw [configureClass_others classTerminated env (by decide)]
  exact authTerminated

include classTerminated authTerminated in
/-- `lora_configure` converts the two strings, and leaves them terminated. -/
theorem loraConfigure_store :
    0 ∈ (loraConfigure env store previous).store.data .loraClass ∧
      0 ∈ (loraConfigure env store previous).store.data .loraAuth ∧
      (∀ var, var ≠ .loraClass → var ≠ .loraAuth →
        (loraConfigure env store previous).store.data var =
          store.data var) ∧
      (loraConfigure env store previous).store.length = store.length := by
  have devClass := configureClass_uppercased env classTerminated
  have auth := configureAuth_uppercased env
    (configureClass_terminated classTerminated authTerminated env) previous
  simp only [loraConfigure]
  refine ⟨?_, auth.terminated, ?_, auth.length.trans devClass.length⟩
  · rw [auth.others .loraClass (by decide)]
    exact devClass.terminated
  · intro var notClass notAuth
    rw [auth.others var notAuth, devClass.others var notClass]

include classTerminated authTerminated in
theorem loraConfigure_ret :
    (loraConfigure env store previous).ret =
      if (Spells store .loraClass "A" ∨ Spells store .loraClass "C") ∧
          (Spells store .loraAuth "ABP" ∨ Spells store .loraAuth "OTAA") then
        0
      else
        -1 := by
  have terminated :=
    configureClass_terminated classTerminated authTerminated env
  have ret := configureClass_fst env classTerminated
  by_cases isAbp : Spells store .loraAuth "ABP"
  · have valid := (configureAuth_of_abp env terminated
      ((configureClass_spells classTerminated env "ABP").mpr isAbp)
      previous).1
    simp only [loraConfigure, valid, if_true, ret, isAbp, true_or, and_true]
  · have valid := (configureAuth_of_not_abp env terminated
      (mt (configureClass_spells classTerminated env "ABP").mp isAbp)
      previous).1
    by_cases isOtaa : Spells store .loraAuth "OTAA"
    · rw [decide_eq_true ((configureClass_spells classTerminated env
        "OTAA").mpr isOtaa)] at valid
      simp only [loraConfigure, valid, if_true, ret, isOtaa, or_true,
        and_true]
    · rw [decide_eq_false (mt (configureClass_spells classTerminated env
        "OTAA").mp isOtaa)] at valid
      simp only [loraConfigure, valid, Bool.false_eq_true, if_false, isAbp,
        isOtaa, or_self, and_false]

include classTerminated authTerminated in
theorem loraConfigure_joinCfg_of_abp
    (isAbp : Spells store .loraAuth "ABP") :
    (loraConfigure env store previous).joinCfg =
      { previous with
        mode := .abp
        devEui := .data .loraDevEui
        abp :=
          { devAddr := leValue (store.data .loraDevAddr)
            appSkey := .data .loraAppSkey
            nwkSkey := .data .loraNwkSkey
            appEui := .data .loraDevEui } } := by
  have wired := (configureAuth_of_abp env
    (configureClass_terminated classTerminated authTerminated env)
    ((configureClass_spells classTerminated env "ABP").mpr isAbp)
    previous).2
  rw [configureClass_others classTerminated env (by decide)] at wired
  simp only [loraConfigure]
  exact wired

include classTerminated authTerminated in
theorem loraConfigure_joinCfg_of_not_abp
    (notAbp : ¬ Spells store .loraAuth "ABP") :
    (loraConfigure env store previous).joinCfg =
      if Spells store .loraAuth "OTAA" then
        { previous with
          mode := .otaa
          devEui := .data .loraDevEui
          otaa :=
            { joinEui := .data .loraAppEui
              appKey := .data .loraAppKey } }
      else
        previous := by
  have wired := (configureAuth_of_not_abp env
    (configureClass_terminated classTerminated authTerminated env)
    (mt (configureClass_spells classTerminated env "ABP").mp notAbp)
    previous).2
  simp only [configureClass_spells classTerminated env "OTAA"] at wired
  simp only [loraConfigure]
  exact wired

end Join

/-- With both strings terminated, the join configuration comes from the
namesake variables exactly when ABP is not accepted and an invalid
authentication finds the structure cleared. -/
theorem joinExact_iff (env : Env) (store : Store) (previous : JoinConfig)
    (classTerminated : 0 ∈ store.data .loraClass)
    (authTerminated : 0 ∈ store.data .loraAuth) :
    JoinExact env store previous ↔ JoinCondition store previous := by
  have ret := loraConfigure_ret classTerminated authTerminated env previous
  constructor
  · intro isExact
    refine ⟨?_, ?_⟩
    · intro isAbp validClass
      have accepted : (loraConfigure env store previous).ret = 0 :=
        isExact.zero_iff.mpr ⟨validClass, Or.inl isAbp⟩
      have wired := (isExact.abp accepted isAbp).2.2
      rw [loraConfigure_joinCfg_of_abp classTerminated authTerminated env
        previous isAbp] at wired
      simp at wired
    · intro notAbp notOtaa
      have cleared := (isExact.neither notAbp notOtaa).2
      rwa [loraConfigure_joinCfg_of_not_abp classTerminated authTerminated env
        previous notAbp, if_neg notOtaa] at cleared
  · intro condition
    obtain ⟨noAbp, cleared⟩ := condition
    have zero_iff : (loraConfigure env store previous).ret = 0 ↔
        (Spells store .loraClass "A" ∨ Spells store .loraClass "C") ∧
          (Spells store .loraAuth "ABP" ∨ Spells store .loraAuth "OTAA") := by
      rw [ret]
      split
      · rename_i valid
        exact iff_of_true rfl valid
      · rename_i invalid
        exact iff_of_false (by decide) invalid
    refine ⟨zero_iff, ?_, ?_, ?_⟩
    · intro accepted isAbp
      exact absurd (zero_iff.mp accepted).1 (noAbp isAbp)
    · intro _ isOtaa
      rw [loraConfigure_joinCfg_of_not_abp classTerminated authTerminated env
        previous (not_abp_of_otaa isOtaa), if_pos isOtaa]
      exact ⟨rfl, rfl, rfl⟩
    · intro notAbp notOtaa
      refine ⟨?_, ?_⟩
      · rw [ret, if_neg fun both => both.2.elim notAbp notOtaa]
      · rw [loraConfigure_joinCfg_of_not_abp classTerminated authTerminated
          env previous notAbp, if_neg notOtaa]
        exact cleared notAbp notOtaa

/-- With `auth` set to `otaa`, in small letters, the join configuration is the
right one. -/
theorem otaa_joinExact :
    JoinExact Env.quiet
      (Store.initial.write .loraAuth 0 (ascii "otaa")) .cleared :=
  (joinExact_iff Env.quiet _ .cleared (by decide) (by decide)).mpr
    ⟨by decide, by decide⟩

/-- The initial variables select ABP, and the application EUI refers to the
device EUI. -/
theorem abp_not_joinExact :
    ¬ ∀ (env : Env) (store : Store) (previous : JoinConfig),
      0 ∈ store.data .loraClass → 0 ∈ store.data .loraAuth →
        JoinExact env store previous := by
  intro always
  have wired := ((always Env.quiet Store.initial .cleared (by decide)
    (by decide)).abp (by decide) (by decide)).2.2
  revert wired
  decide

end LoraIot.Lora
