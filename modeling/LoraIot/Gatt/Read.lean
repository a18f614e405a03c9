import LoraIot.Config.Refinement

/-!
# Reading over Bluetooth (`gatt_config_service.c`)

Every read callback hands the storage of its variable to `bt_gatt_attr_read`,
which copies what fits into the buffer.  A client reads a value longer than a
packet blob by blob, each at the offset of what it has already, until one is
shorter than its buffer.  Between two blobs the device goes on, and as long as
nobody changes the variable the client ends up with the setting that
`vars_get` prints.
-/

namespace LoraIot.Gatt

open LoraIot.CStrings LoraIot.Config LoraIot.Vars
open LoraIot.Runs LoraIot.Persistence LoraIot.Simulations

/-- From a value, the length of the buffer and an offset, what
`bt_gatt_attr_read` returns and what it has copied. -/
abbrev AttrRead := List UInt8 → Nat → Nat → Int × List UInt8

/-- The documented behaviour: an offset behind the value is refused, otherwise
as much as fits is copied and counted. -/
structure ReadsValue (btGattAttrRead : AttrRead) : Prop where
  refused : ∀ value len offset, value.length < offset →
    btGattAttrRead value len offset = (invalidOffset, [])
  copied : ∀ value len offset, offset ≤ value.length →
    btGattAttrRead value len offset =
      ((((value.drop offset).take len).length : Int),
        (value.drop offset).take len)

section Callbacks

variable (btGattAttrRead : AttrRead)

def readVariable (value : Var) (store : Store) (len offset : Nat) :
    Int × List UInt8 :=
  btGattAttrRead (store.data value) len offset

def readLoraAppSkey := readVariable btGattAttrRead .loraAppSkey

def readLoraNwkSkey := readVariable btGattAttrRead .loraNwkSkey

def readLoraAppEui := readVariable btGattAttrRead .loraAppEui

def readLoraAppKey := readVariable btGattAttrRead .loraAppKey

def readLoraDevEui := readVariable btGattAttrRead .loraDevEui

def readLoraChanMask := readVariable btGattAttrRead .loraChanMask

def readLoraAuth := readVariable btGattAttrRead .loraAuth

def readLoraClass := readVariable btGattAttrRead .loraClass

def readLoraDatarate := readVariable btGattAttrRead .loraDatarate

def readLoraAdr := readVariable btGattAttrRead .loraAdr

def Characteristic.read :
    Characteristic → Store → Nat → Nat → Int × List UInt8
  | .loraAppSkey => readLoraAppSkey btGattAttrRead
  | .loraNwkSkey => readLoraNwkSkey btGattAttrRead
  | .loraAppEui => readLoraAppEui btGattAttrRead
  | .loraAppKey => readLoraAppKey btGattAttrRead
  | .loraDevEui => readLoraDevEui btGattAttrRead
  | .loraAuth => readLoraAuth btGattAttrRead
  | .loraClass => readLoraClass btGattAttrRead
  | .loraChanMask => readLoraChanMask btGattAttrRead
  | .loraDatarate => readLoraDatarate btGattAttrRead
  | .loraAdr => readLoraAdr btGattAttrRead

theorem Characteristic.read_eq (item : Characteristic) :
    item.read btGattAttrRead =
      readVariable btGattAttrRead item.userData := by
  cases item <;> rfl

end Callbacks

/-- The device, and a client that reads a characteristic. -/
structure Session where
  device : Device
  item : Characteristic
  collected : List UInt8
  done : Bool
  /-- The sum of the lengths of all buffers so far. -/
  requested : Nat

def Session.reading (device : Device) (item : Characteristic) : Session :=
  ⟨device, item, [], false, 0⟩

inductive Visit where
  | happening (happening : Happening)
  /-- The client begins to read. -/
  | begin (item : Characteristic)
  /-- The client reads on, into a buffer of this length. -/
  | blob (len : Nat)

def sessionStep (btGattAttrRead : AttrRead) (session : Session) :
    Visit → Option Session
  | .happening happening =>
      (happen session.device happening).map fun device =>
        { session with device := device }
  | .begin item => some (Session.reading session.device item)
  | .blob len =>
      if session.done then
        none
      else
        let answer := session.item.read btGattAttrRead session.device.store
          len session.collected.length
        some
          { session with
            collected := session.collected ++ answer.2
            done := decide (answer.1 < len)
            requested := session.requested + len }

/-- The client is careful, its buffers have room, and nothing changes the
variable between the first blob and the next beginning. -/
def Undisturbed (session : Session) : Visit → Prop
  | .happening happening =>
      Disciplined session.device happening ∧
        (0 < session.requested →
          ∀ next ∈ happen session.device happening,
            next.store.data session.item.userData =
              session.device.store.data session.item.userData)
  | .begin _ => True
  | .blob len => 0 < len

def sessionRequests (session : Session) :
    Visit → List (Request Var Setting)
  | .happening happening => requests session.device happening
  | _ => []

/-- The client has the front of the variable, and has it all when it is
done. -/
structure Reads (session : Session) (memory : Memory Var Setting) : Prop where
  denotes : Denotes session.device memory
  begun : session.requested = 0 →
    session.collected = [] ∧ session.done = false
  front : session.collected <+:
    session.device.store.data session.item.userData
  whole : session.done = true →
    session.collected = session.device.store.data session.item.userData
  full : session.done = false →
    session.collected.length = session.requested

/-- The bytes of a variable are the setting that it stands for. -/
theorem entrySetting_data {device : Device} (kept : Kept device)
    (var : Var) :
    entrySetting var (device.store.data var) =
      setting var (device.store.cell var) := by
  cases kind : var.declaration.vtype with
  | binary =>
      simp only [entrySetting, setting, kind, Store.cell,
        kept.binaries var kind, device.store.sized var]
  | boolean =>
      simp only [entrySetting, setting, kind, Store.cell]
      rfl
  | _ => simp only [entrySetting, setting, kind, Store.cell]

theorem Denotes.reading {device : Device} {memory : Memory Var Setting}
    (denotes : Denotes device memory) (item : Characteristic) :
    Reads (Session.reading device item) memory where
  denotes := denotes
  begun _ := ⟨rfl, rfl⟩
  front := List.nil_prefix
  whole impossible := by cases impossible
  full _ := rfl

section Reads

variable {btGattAttrRead : AttrRead} {session next : Session}
  {memory : Memory Var Setting}

theorem Reads.blob (reads : Reads session memory)
    (documented : ReadsValue btGattAttrRead) {len : Nat} (room : 0 < len)
    (taken : sessionStep btGattAttrRead session (.blob len) = some next) :
    Reads next memory := by
  simp only [sessionStep] at taken
  split at taken
  · cases taken
  · rename_i notDone
    rw [Bool.not_eq_true] at notDone
    obtain rfl := Option.some.inj taken
    obtain ⟨rest, whole⟩ := reads.front
    have behind : (session.device.store.data
        session.item.userData).drop session.collected.length = rest := by
      rw [← whole, List.drop_left]
    have answer := documented.copied
      (session.device.store.data session.item.userData) len
      session.collected.length (by rw [← whole]; simp)
    rw [behind] at answer
    rw [Characteristic.read_eq, readVariable, answer]
    refine ⟨reads.denotes, fun impossible => ?_, ?_, fun isDone => ?_,
      fun goesOn => ?_⟩
    · dsimp only at impossible
      omega
    · dsimp only
      rw [← whole]
      exact (List.prefix_append_right_inj _).mpr (List.take_prefix len rest)
    · dsimp only at isDone ⊢
      rw [decide_eq_true_eq, Nat.cast_lt, List.length_take] at isDone
      rw [List.take_of_length_le (by omega), whole]
    · dsimp only at goesOn ⊢
      rw [decide_eq_false_iff_not, Nat.cast_lt, List.length_take] at goesOn
      have soFar := reads.full notDone
      rw [List.length_append, List.length_take]
      omega

theorem Reads.step (reads : Reads session memory)
    (documented : ReadsValue btGattAttrRead) {visit : Visit}
    (undisturbed : Undisturbed session visit)
    (taken : sessionStep btGattAttrRead session visit = some next) :
    Reads next
      ((sessionRequests session visit).foldl (perform defaults) memory) := by
  cases visit with
  | happening happening =>
      obtain ⟨device, happened, rfl⟩ := Option.map_eq_some_iff.mp taken
      have denotes := reads.denotes.happen undisturbed.1 happened
      by_cases started : 0 < session.requested
      · have same := undisturbed.2 started device happened
        exact ⟨denotes, reads.begun, same ▸ reads.front,
          same ▸ reads.whole, reads.full⟩
      · obtain ⟨nothing, notDone⟩ :=
          reads.begun (Nat.eq_zero_of_not_pos started)
        refine ⟨denotes, reads.begun, ?_, fun isDone => ?_, reads.full⟩
        · dsimp only
          rw [nothing]
          exact List.nil_prefix
        · rw [notDone] at isDone
          cases isDone
  | begin item =>
      obtain rfl := Option.some.inj taken
      exact Denotes.reading reads.denotes item
  | blob len => exact reads.blob documented undisturbed taken

theorem session_simulates (documented : ReadsValue btGattAttrRead) :
    Simulates (sessionStep btGattAttrRead) Undisturbed
      (Persistence.step defaults) sessionRequests Reads := by
  intro session visit next memory reads undisturbed taken
  exact ⟨_, execute_step defaults memory (sessionRequests session visit),
    reads.step documented undisturbed taken⟩

end Reads

/-- In every run of a careful client, with whatever happens between the blobs
and leaves the variable alone, a Bluetooth client that has read to the end
holds the setting that `vars_get` prints, and it has read to the end as soon
as its buffers have room for more than the variable. -/
theorem bluetooth_reads_setting (btGattAttrRead : AttrRead)
    (documented : ReadsValue btGattAttrRead) (item : Characteristic)
    (visits : List Visit) (session : Session)
    (undisturbed : Meets (sessionStep btGattAttrRead) Undisturbed
      (Session.reading factory item) visits)
    (reached : execute (sessionStep btGattAttrRead)
      (Session.reading factory item) visits = some session) :
    ∃ memory,
      execute (Persistence.step defaults) (fresh defaults)
          (answers (sessionStep btGattAttrRead) sessionRequests
            (Session.reading factory item) visits) = some memory ∧
        ActsAs session.device memory ∧
        (session.done = true →
          entrySetting session.item.userData session.collected =
            memory.current session.item.userData) ∧
        (session.item.userData.size < session.requested →
          session.done = true) := by
  obtain ⟨memory, answered, reads⟩ :=
    (session_simulates documented).execute
      (Denotes.reading factory_denotes item) undisturbed reached
  refine ⟨memory, answered, reads.denotes.actsAs, fun isDone => ?_,
    fun enough => ?_⟩
  · rw [reads.whole isDone, entrySetting_data reads.denotes.kept,
      reads.denotes.current]
  · by_contra goesOn
    rw [Bool.not_eq_true] at goesOn
    have length := reads.front.length_le
    rw [session.device.store.sized, reads.full goesOn] at length
    omega

def copyBlob : AttrRead := fun value len offset =>
  if value.length < offset then
    (invalidOffset, [])
  else
    (((value.drop offset).take len).length, (value.drop offset).take len)

theorem copyBlob_readsValue : ReadsValue copyBlob where
  refused value len offset behind := by rw [copyBlob, if_pos behind]
  copied value len offset inside := by
    rw [copyBlob, if_neg (Nat.not_lt.mpr inside)]

/-- The application key is set over the UART and then read in two blobs, while
the channel mask is written over Bluetooth. -/
def readsNewKey : List Visit :=
  [.happening (.call (.varsSet Env.quiet (ascii "appkey")
      (some (ascii "0x000102030405060708090a0b0c0d0e0f")))),
    .begin .loraAppKey, .blob 10,
    .happening (.call (.write Env.quiet .loraChanMask [0xff] 0)),
    .blob 10]

theorem readsNewKey_undisturbed :
    Meets (sessionStep copyBlob) Undisturbed
      (Session.reading factory .loraAppKey) readsNewKey := by
  have ten : 0 < 10 := by decide
  refine ⟨⟨fun isStr => ?_, fun begun => ?_⟩, fun first _ =>
    ⟨trivial, fun second began => ⟨ten, fun third read => ?_⟩⟩⟩
  · cases isStr
  · cases begun
  · obtain rfl := Option.some.inj began
    obtain rfl := Option.some.inj read
    refine ⟨⟨⟨by decide, fun overruns => ?_⟩, fun _ next happened => ?_⟩,
      fun _ _ => ⟨ten, fun _ _ => trivial⟩⟩
    · cases overruns.1
    · obtain rfl := Option.some.inj happened
      have elsewhere : Var.loraAppKey ≠ .loraChanMask := by decide
      refine Characteristic.write_data_of_ne Env.quiet (fun strays => ?_) _
        elsewhere
      cases strays.1

theorem readsNewKey_reads :
    ∃ session memory,
      execute (sessionStep copyBlob) (Session.reading factory .loraAppKey)
          readsNewKey = some session ∧
        ActsAs session.device memory ∧
        entrySetting .loraAppKey (List.range 16 |>.map UInt8.ofNat) =
          memory.current .loraAppKey := by
  have runs : (execute (sessionStep copyBlob)
      (Session.reading factory .loraAppKey) readsNewKey).any
        (fun session => session.done &&
          decide (session.item = .loraAppKey ∧
            session.collected = (List.range 16).map UInt8.ofNat)) = true := by
    decide
  obtain ⟨session, reached, ends⟩ := (Option.any_eq_true _ _).mp runs
  rw [Bool.and_eq_true, decide_eq_true_eq] at ends
  obtain ⟨isDone, item, collected⟩ := ends
  obtain ⟨memory, _, acts, setting, _⟩ :=
    bluetooth_reads_setting copyBlob copyBlob_readsValue .loraAppKey
      readsNewKey session readsNewKey_undisturbed reached
  have same := setting isDone
  rw [item, collected] at same
  exact ⟨session, memory, reached, acts, same⟩

end LoraIot.Gatt
