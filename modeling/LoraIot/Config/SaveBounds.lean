import LoraIot.Config.Calls
import LoraIot.Foundations.History
import LoraIot.Vars.FlashLoad

/-!
# How many bytes `flash_save` reads

For a string `flash_save` passes one byte more than the recorded length.  The
lengths that `vars_set` and `flash_load` record do not count the terminator;
those of the static initialisers do.  Every array but that of `class` has room
for the extra byte, so the only reads outside a variable are those made before
the length of `class` has been measured for the first time after a start.
-/

namespace LoraIot.Config

open LoraIot.CStrings LoraIot.Vars LoraIot.Runs LoraIot.History

/-- The byte counts that `flash_save` passes are at most the sizes of the
variables. -/
def SavesInside (store : Store) : Prop :=
  ∀ row ∈ setget, ∀ var ∈ row.savedVar,
    saveCount row.vtype store var ≤ var.size

/-- A client that sets strings shorter than their arrays and does not write
over Bluetooth. -/
def SetsShortStrings (_device : Device) (call : Call) : Prop :=
  match call.effect with
  | .assign _ var text =>
      var.declaration.vtype = .str → strlen text < var.size
  | .write _ _ _ _ => False
  | _ => True

def MeasuresClass (call : Call) : Prop :=
  match call.effect with
  | .load _ => True
  | .assign _ var _ => var = .loraClass
  | _ => False

def Restarts (call : Call) : Prop :=
  match call.effect with
  | .restart => True
  | _ => False

/-- The length of `class` has been measured since the last start. -/
def ClassMeasured (calls : List Call) : Prop :=
  Since (fun _ call => MeasuresClass call) Restarts calls

/-- An entry that `flash_save` may have left. -/
def EntrySound (var : Var) (entry : List UInt8) : Prop :=
  match var.declaration.vtype with
  | .str => 0 ∈ entry.take var.size
  | .binary => entry.length = var.size
  | _ => True

/-- What every run keeps: strings end inside their arrays and inside their
recorded lengths, binaries have their full length, and so do the strings and
binaries in the NVS. -/
structure Kept (device : Device) : Prop where
  strings : ∀ var, var.declaration.vtype = .str →
    0 ∈ device.store.data var ∧
      strlen (device.store.data var) ≤ device.store.length var
  binaries : ∀ var, var.declaration.vtype = .binary →
    device.store.length var = var.size
  entries : ∀ row ∈ setget, ∀ var ∈ row.savedVar,
    ∀ entry ∈ device.nvs row.saveId.code, EntrySound var entry

def RoomForNul (store : Store) (var : Var) : Prop :=
  store.length var + 1 ≤ var.size

/-- The recorded lengths in a run: only that of `class` may still be the
initial one. -/
structure Lengths (measured : Prop) (store : Store) : Prop where
  others : ∀ var, var.declaration.vtype = .str → var ≠ .loraClass →
    RoomForNul store var
  measuredClass : measured → RoomForNul store .loraClass
  initialClass : ¬ measured →
    store.length .loraClass = Store.initial.length .loraClass

theorem factory_kept : Kept factory where
  strings var isStr := by
    cases var <;> first | exact ⟨by decide, by decide⟩ | cases isStr
  binaries var isBinary := by
    cases var <;> first | rfl | cases isBinary
  entries row _ var _ entry found := by cases found

theorem initial_lengths {measured : Prop} (unmeasured : ¬ measured) :
    Lengths measured Store.initial where
  others var isStr notClass := by
    cases var <;>
      first
      | exact absurd rfl notClass
      | (show _ ≤ _; decide)
      | cases isStr
  measuredClass now := absurd now unmeasured
  initialClass _ := rfl

/-- A measured string leaves room for its terminator. -/
theorem roomForNul_of_measured {store : Store} {var : Var}
    (terminated : (0 : UInt8) ∈ store.data var)
    (measured : store.length var = strlen (store.data var)) :
    RoomForNul store var := by
  have shorter := (strlen_lt_length_iff _).mpr terminated
  rw [store.sized var] at shorter
  rw [RoomForNul]
  omega

theorem EntrySound.acceptable {var : Var} {entry : List UInt8}
    (sound : EntrySound var entry) (data : List UInt8)
    (isStr : var.declaration.vtype = .str) :
    EntryAcceptable var data entry := by
  rw [EntrySound] at sound
  rw [EntryAcceptable]
  rw [isStr] at sound ⊢
  exact Or.inl sound

theorem mem_nvs_of_entry {env : Env} {nvs : Nvs} {id : Nat}
    {entry : List UInt8} (found : env.entry nvs id = some entry) :
    nvs id = some entry := by
  rw [Env.entry] at found
  split at found
  · cases found
  · exact found

theorem Kept.load_str {device : Device} (kept : Kept device) (env : Env)
    {row : Row} (listed : row ∈ setget) {var : Var}
    (targets : row.savedVar = some var)
    (isStr : var.declaration.vtype = .str) :
    0 ∈ (flashLoad env device).2.data var ∧
      (flashLoad env device).2.length var =
        strlen ((flashLoad env device).2.data var) := by
  have loaded := flashLoad_cell env device listed targets
  rw [savedVar_vtype listed targets] at loaded
  have sane : CellSane var ((flashLoad env device).2.cell var) := by
    rw [loaded]
    cases found : env.entry device.nvs row.saveId.code with
    | some entry =>
        apply (cellSane_loaded_some_iff env device.store var entry).mpr
        exact (kept.entries row listed var targets entry
          (mem_nvs_of_entry found)).acceptable _ isStr
    | none =>
        have terminated := (kept.strings var isStr).1
        simp only [CellSane, isStr, loadedData, loadedLength]
        exact ⟨terminated, by rw [strlen, strlen,
          cstr_append_of_mem terminated]⟩
  simp only [CellSane, isStr] at sane
  exact sane

theorem Kept.load_binary {device : Device} (kept : Kept device) (env : Env)
    {row : Row} (listed : row ∈ setget) {var : Var}
    (targets : row.savedVar = some var)
    (isBinary : var.declaration.vtype = .binary) :
    (flashLoad env device).2.length var = var.size := by
  have loaded := congrArg Prod.snd (flashLoad_cell env device listed targets)
  rw [savedVar_vtype listed targets, isBinary] at loaded
  change (flashLoad env device).2.length var = _ at loaded
  rw [loaded, loadedLength]
  cases found : env.entry device.nvs row.saveId.code with
  | none => exact kept.binaries var isBinary
  | some entry =>
      have sound := kept.entries row listed var targets entry
        (mem_nvs_of_entry found)
      simp only [EntrySound, isBinary] at sound
      exact sound

/-- What `flash_save` writes for a string or a binary is a sound entry. -/
theorem Kept.saved_sound {device : Device} (kept : Kept device) (env : Env)
    {row : Row} (listed : row ∈ setget) {var : Var}
    (targets : row.savedVar = some var) :
    EntrySound var
      (env.bytes device.store var
        (saveCount row.vtype device.store var)) := by
  rw [savedVar_vtype listed targets]
  rw [EntrySound]
  split
  · rename_i isStr
    obtain ⟨terminated, short⟩ := kept.strings var isStr
    rw [isStr, saveCount, Env.bytes_take, zero_mem_take_iff]
    exact ⟨terminated, by omega⟩
  · rename_i isBinary
    rw [isBinary, saveCount, Env.bytes_length]
    exact kept.binaries var isBinary
  · trivial

theorem Kept.save_entries {device : Device} (kept : Kept device) (env : Env)
    {row : Row} (listed : row ∈ setget) {var : Var}
    (targets : row.savedVar = some var) {entry : List UInt8}
    (found : (flashSave env device).2 row.saveId.code = some entry) :
    EntrySound var entry := by
  rcases flashSave_entry env device row.saveId.code with
    unchanged | ⟨other, otherListed, otherVar, otherTargets, sameId, written⟩
  · rw [unchanged] at found
    exact kept.entries row listed var targets entry found
  · rw [written] at found
    obtain rfl := Option.some.inj found
    -- The ids of the saved rows are distinct, so it is the same row.
    have same : other = row := savedId_injective otherListed listed
      otherTargets targets sameId
    subst same
    obtain rfl := Option.some.inj (otherTargets.symm.trans targets)
    exact kept.saved_sound env listed targets

theorem Kept.load {device : Device} (kept : Kept device) (env : Env) :
    Kept ((Effect.load env).apply device) := by
  refine ⟨fun var isStr => ?_, fun var isBinary => ?_, kept.entries⟩
  · rcases flashLoad_saved_or_kept env device var with
      ⟨row, listed, targets⟩ | same
    · obtain ⟨terminated, measured⟩ := kept.load_str env listed targets isStr
      exact ⟨terminated, Nat.le_of_eq measured.symm⟩
    · obtain ⟨data, length⟩ := Prod.mk.inj same
      simp only [Effect.apply, data, length]
      exact kept.strings var isStr
  · rcases flashLoad_saved_or_kept env device var with
      ⟨row, listed, targets⟩ | same
    · exact kept.load_binary env listed targets isBinary
    · obtain ⟨_, length⟩ := Prod.mk.inj same
      simp only [Effect.apply, length]
      exact kept.binaries var isBinary

theorem Kept.assign {device : Device} (kept : Kept device) (env : Env)
    {target : Var} {text : List UInt8}
    (short : target.declaration.vtype = .str → strlen text < target.size) :
    Kept ((Effect.assign env target text).apply device) := by
  refine ⟨fun var isStr => ?_, fun var isBinary => ?_, ?_⟩
  · by_cases same : var = target
    · subst same
      obtain ⟨data, length⟩ :=
        Prod.mk.inj (assign_cell_str env isStr text device)
      rw [data, length]
      have terminated := zero_mem_strncpyBytes (short isStr)
      refine ⟨terminated, Nat.le_of_eq ?_⟩
      rw [strlen, strlen, cstr_append_of_mem terminated]
    · obtain ⟨data, length⟩ := assign_of_ne env same text device
      rw [data, length]
      exact kept.strings var isStr
  · by_cases same : var = target
    · subst same
      exact assign_length_binary env isBinary text device
        (kept.binaries var isBinary)
    · rw [(assign_of_ne env same text device).2]
      exact kept.binaries var isBinary
  · simp only [Effect.apply]
    split
    · exact kept.entries
    · exact kept.entries

theorem Kept.step {device next : Device} {call : Call} (kept : Kept device)
    (short : SetsShortStrings device call)
    (taken : Config.step device call = some next) : Kept next := by
  obtain rfl := Option.some.inj taken
  rw [perform_eq]
  rw [SetsShortStrings] at short
  cases acts : call.effect with
  | nothing => exact kept
  | restart =>
      exact ⟨factory_kept.strings, factory_kept.binaries, kept.entries⟩
  | save env =>
      exact ⟨kept.strings, kept.binaries,
        fun row listed var targets entry found =>
          kept.save_entries env listed targets found⟩
  | clear =>
      exact ⟨kept.strings, kept.binaries,
        fun row listed var targets entry found => by cases found⟩
  | load env => exact kept.load env
  | assign env target text =>
      rw [acts] at short
      exact kept.assign env short
  | write env item buf offset =>
      rw [acts] at short
      exact short.elim

theorem Kept.assign_measured {device : Device} {env : Env} {var : Var}
    {text : List UInt8} (isStr : var.declaration.vtype = .str)
    (short : strlen text < var.size) :
    RoomForNul ((Effect.assign env var text).apply device).store var := by
  obtain ⟨data, length⟩ :=
    Prod.mk.inj (assign_cell_str env isStr text device)
  have terminated := zero_mem_strncpyBytes short
  apply roomForNul_of_measured
  · rw [data]
    exact terminated
  · rw [data, length, strlen, strlen, cstr_append_of_mem terminated]

theorem Lengths.load {measured now : Prop} {device : Device}
    (kept : Kept device) (lengths : Lengths measured device.store) (env : Env)
    (always : now) : Lengths now ((Effect.load env).apply device).store := by
  have loaded : ∀ var, var.declaration.vtype = .str →
      (∃ row ∈ setget, row.savedVar = some var) →
        RoomForNul ((Effect.load env).apply device).store var := by
    intro var isStr saved
    obtain ⟨row, listed, targets⟩ := saved
    obtain ⟨terminated, measured⟩ := kept.load_str env listed targets isStr
    exact roomForNul_of_measured terminated measured
  refine ⟨fun var isStr notClass => ?_, fun _ => ?_,
    fun not => absurd always not⟩
  · rcases flashLoad_saved_or_kept env device var with saved | same
    · exact loaded var isStr saved
    · obtain ⟨_, length⟩ := Prod.mk.inj same
      rw [RoomForNul]
      simp only [Effect.apply, length]
      exact lengths.others var isStr notClass
  · exact loaded .loraClass rfl (by decide)

theorem Lengths.assign {measured now : Prop} {device : Device}
    (lengths : Lengths measured device.store) (env : Env) {target : Var}
    {text : List UInt8}
    (short : target.declaration.vtype = .str → strlen text < target.size)
    (now_iff : now ↔ target = .loraClass ∨ measured) :
    Lengths now ((Effect.assign env target text).apply device).store := by
  have elsewhere : ∀ var, var ≠ target →
      ((Effect.assign env target text).apply device).store.length var =
        device.store.length var :=
    fun var different => (assign_of_ne env different text device).2
  refine ⟨fun var isStr notClass => ?_, fun isNow => ?_, fun notNow => ?_⟩
  · by_cases same : var = target
    · subst same
      exact Kept.assign_measured isStr (short isStr)
    · simp only [RoomForNul, elsewhere var same]
      exact lengths.others var isStr notClass
  · by_cases same : target = .loraClass
    · subst same
      exact Kept.assign_measured rfl (short rfl)
    · simp only [RoomForNul, elsewhere _ (Ne.symm same)]
      exact lengths.measuredClass ((now_iff.mp isNow).resolve_left same)
  · rw [now_iff, not_or] at notNow
    rw [elsewhere _ (Ne.symm notNow.1)]
    exact lengths.initialClass notNow.2

theorem Lengths.step {measured : Prop} {device next : Device} {call : Call}
    (kept : Kept device) (lengths : Lengths measured device.store)
    (short : SetsShortStrings device call)
    (taken : Config.step device call = some next) :
    Lengths (MeasuresClass call ∨ measured ∧ ¬ Restarts call)
      next.store := by
  obtain rfl := Option.some.inj taken
  rw [perform_eq]
  rw [SetsShortStrings] at short
  rw [MeasuresClass, Restarts]
  cases acts : call.effect with
  | restart => exact initial_lengths (by simp)
  | load env => exact lengths.load kept env (Or.inl trivial)
  | assign env target text =>
      rw [acts] at short
      exact lengths.assign env short (by simp)
  | write env item buf offset =>
      rw [acts] at short
      exact short.elim
  | _ => simpa [Effect.apply] using lengths

theorem kept_and_lengths {calls : List Call} {device : Device}
    (short : Meets Config.step SetsShortStrings factory calls)
    (reached : execute Config.step factory calls = some device) :
    Kept device ∧ Lengths (ClassMeasured calls) device.store := by
  apply execute_induction
    (motive := fun calls device =>
      Kept device ∧ Lengths (ClassMeasured calls) device.store)
    _ _ short reached
  · exact ⟨factory_kept, initial_lengths not_since_nil⟩
  · intro calls device call next both here taken
    obtain ⟨kept, lengths⟩ := both
    refine ⟨kept.step here taken, ?_⟩
    have after := lengths.step kept here taken
    rw [ClassMeasured]
    rwa [since_concat]

/-- Given the invariants, saving stays inside the variables exactly when
`class` leaves room for its terminator. -/
theorem savesInside_iff {device : Device} {measured : Prop}
    (kept : Kept device) (lengths : Lengths measured device.store) :
    SavesInside device.store ↔ measured := by
  constructor
  · intro inside
    by_contra unmeasured
    have count := inside
      (plainRow "class" .str .readwrite (some .loraClass) .loraClass)
      (by decide) .loraClass rfl
    change device.store.length .loraClass + 1 ≤ 2 at count
    rw [lengths.initialClass unmeasured] at count
    revert count
    decide
  · intro now row listed var targets
    rw [savedVar_vtype listed targets]
    have size := size_of_vtype var
    cases kind : var.declaration.vtype with
    | str =>
        by_cases isClass : var = .loraClass
        · subst isClass
          exact lengths.measuredClass now
        · exact lengths.others var kind isClass
    | binary => exact Nat.le_of_eq (kept.binaries var kind)
    | custom => exact Nat.zero_le _
    | _ =>
        rw [kind] at size
        exact Nat.le_of_eq size.symm

/-- In every run, `flash_save` would read only inside the variables exactly
when the length of `class` has been measured since the last start. -/
theorem saves_inside_iff_classMeasured (calls : List Call) (device : Device)
    (short : Meets Config.step SetsShortStrings factory calls)
    (reached : execute Config.step factory calls = some device) :
    SavesInside device.store ↔ ClassMeasured calls := by
  obtain ⟨kept, lengths⟩ := kept_and_lengths short reached
  exact savesInside_iff kept lengths

def savesClass : List Call :=
  [.varsSet Env.quiet (ascii "devid") (some (ascii "A1")),
    .varsSet Env.quiet (ascii "class") (some (ascii "A")),
    .flashSave Env.quiet,
    .powerCycle,
    .varsInit Env.quiet 0]

theorem saves_inside_savesClass :
    ∃ device, execute Config.step factory savesClass = some device ∧
      device.store.cell .loraClass = (ascii "A" ++ [0], 1) ∧
      SavesInside device.store := by
  refine ⟨_, rfl, by decide, ?_⟩
  refine (saves_inside_iff_classMeasured savesClass _ ?_ rfl).mpr ?_
  · exact ⟨fun _ => by decide, fun _ _ => ⟨fun _ => by decide, fun _ _ =>
      ⟨trivial, fun _ _ => ⟨trivial, fun _ _ =>
        ⟨trivial, fun _ _ => trivial⟩⟩⟩⟩⟩
  · exact ⟨savesClass.take 4, .varsInit Env.quiet 0, [], rfl, trivial,
      by simp⟩

/-- Before that, saving `class` reads three bytes of an array of two. -/
theorem saves_outside_at_start :
    ¬ ∀ (calls : List Call) (device : Device),
      Meets Config.step SetsShortStrings factory calls →
        execute Config.step factory calls = some device →
          SavesInside device.store := by
  intro always
  have inside := always [] factory trivial rfl
    (plainRow "class" .str .readwrite (some .loraClass) .loraClass)
    (by decide) .loraClass rfl
  revert inside
  decide

end LoraIot.Config
