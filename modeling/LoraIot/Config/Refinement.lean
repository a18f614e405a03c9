import LoraIot.Config.Settings
import LoraIot.Foundations.Simulations
import LoraIot.Gatt.Bounds
import LoraIot.Vars.Interrupted

/-!
# The device is a memory of settings

`Happening` adds to the calls of `Config.Calls` a loss of power in the middle
of `flash_save`.  Every happening is answered by requests to the memory of
`Foundations.Persistence`: a text that `vars_set` accepts is an update, a save
that fails half way is a save of the rows it got to, and so on.  As long as
clients set strings shorter than their arrays and do not write strings over
Bluetooth, the device and the memory agree after every run, on what is current
and on what is in the NVS.
-/

namespace LoraIot.Config

open LoraIot.CStrings LoraIot.Numerals LoraIot.Vars LoraIot.Gatt
open LoraIot.Runs LoraIot.Persistence LoraIot.Simulations LoraIot.Tables

inductive Happening where
  | call (call : Call)
  /-- The power is lost when `flash_save` has handled this many rows of the
  table, and the device starts again. -/
  | interruptedSave (env : Env) (rows : Nat)

def happen (device : Device) : Happening → Option Device
  | .call call => some (call.perform device)
  | .interruptedSave env rows =>
      some ⟨Store.initial, flashSaveInterrupted env device rows⟩

/-- The effect sets a string shorter than its array, or over Bluetooth writes
an item that is no string, and the data rate only with bytes at its start. -/
def Effect.Disciplined : Effect → Prop
  | .assign _ var text =>
      var.declaration.vtype = .str → strlen text < var.size
  | .write _ item buf offset =>
      item.userData.declaration.vtype ≠ .str ∧ ¬ item.Overruns buf offset
  | _ => True

/-- What a careful client makes happen. -/
def Disciplined (_device : Device) : Happening → Prop
  | .call call => call.effect.Disciplined
  | .interruptedSave _ _ => True

/-! ## The requests -/

/-- The variables that the first rows of the table save. -/
def savedWithin (rows : Nat) (var : Var) : Bool :=
  (setget.take rows).any fun row => decide (row.savedVar = some var)

/-- The variables that are saved when `flash_save` gets as far as this row:
all that these rows save, when nothing fails. -/
def savedBy (env : Env) (device : Device) (rows : Nat) : Var → Bool :=
  savedWithin (rowsStored env device (setget.take rows))

def readableBy (env : Env) (var : Var) : Bool :=
  setget.all fun row =>
    decide (row.savedVar = some var →
      env.readFails row.saveId.code = false)

def effectRequests (device : Device) : Effect → List (Request Var Setting)
  | .nothing => []
  | .restart => [.restart]
  | .save env => [.save (savedBy env device setget.length)]
  | .clear => [.clear]
  | .load env => [.load (readableBy env)]
  | .assign env var text =>
      (readSetting env.atoiOverflow var text).toList.map fun value =>
        .update var fun _ => value
  | .write _ item buf offset =>
      if offset + buf.length > wireSize item then
        []
      else
        [.update item.userData (patchSetting offset buf)]

def requests (device : Device) : Happening → List (Request Var Setting)
  | .call call => effectRequests device call.effect
  | .interruptedSave env rows => [.save (savedBy env device rows), .restart]

/-- An entry that a load turns into the setting it stands for. -/
def EntryStands (var : Var) (entry : List UInt8) : Prop :=
  match var.declaration.vtype with
  | .str => 0 ∈ entry.take var.size
  | _ => entry.length = var.size

/-- The variables and the NVS hold what the memory holds. -/
structure Denotes (device : Device) (memory : Memory Var Setting) : Prop where
  kept : Kept device
  current : ∀ var, setting var (device.store.cell var) = memory.current var
  stands : ∀ row ∈ setget, ∀ var, row.savedVar = some var →
    ∀ entry ∈ device.nvs row.saveId.code, EntryStands var entry
  saved : ∀ row ∈ setget, ∀ var, row.savedVar = some var →
    (device.nvs row.saveId.code).map (entrySetting var) = memory.saved var
  unsaved : ∀ var, (∀ row ∈ setget, row.savedVar ≠ some var) →
    memory.saved var = none

theorem factory_denotes : Denotes factory (fresh defaults) where
  kept := factory_kept
  current _ := rfl
  stands _ _ _ _ _ impossible := by cases impossible
  saved _ _ _ _ := rfl
  unsaved _ _ := rfl

theorem size_eq_loadCount (var : Var) :
    loadCount var.declaration.vtype var = var.size := by
  have size := size_of_vtype var
  cases kind : var.declaration.vtype with
  | custom => exact absurd kind var.declaration.vtype_ne_custom
  | str => rfl
  | binary => rfl
  | _ =>
      rw [kind] at size
      exact size.symm

/-- Loading an entry makes the variable stand for what the entry stands
for. -/
theorem setting_loaded (env : Env) (store : Store) {var : Var}
    {entry : List UInt8} (stands : EntryStands var entry) :
    setting var
        (loadedData var.declaration.vtype var (some entry) (store.data var),
          loadedLength env var.declaration.vtype var (some entry)
            (store.data var) (store.length var)) =
      entrySetting var entry := by
  have whole := store.sized var
  rw [EntryStands] at stands
  have data :
      loadedData var.declaration.vtype var (some entry) (store.data var) =
        overlay (store.data var) 0 (entry.take var.size) := by
    rw [loadedData, size_eq_loadCount]
  rw [data, entrySetting]
  cases kind : var.declaration.vtype with
  | str =>
      rw [kind] at stands
      have fits : (entry.take var.size).length ≤ (store.data var).length := by
        rw [whole, List.length_take]
        exact Nat.min_le_left _ _
      have entryText : cstr entry = cstr (entry.take var.size) := by
        rw [← cstr_append_of_mem stands (entry.drop var.size),
          List.take_append_drop]
      simp only [setting, kind]
      rw [overlay_zero_of_le fits, cstr_append_of_mem stands, entryText]
  | custom => exact absurd kind var.declaration.vtype_ne_custom
  | _ =>
      rw [kind] at stands
      have full : overlay (store.data var) 0 (entry.take var.size) = entry := by
        rw [List.take_of_length_le (Nat.le_of_eq stands)]
        exact overlay_full (stands.trans whole.symm)
      simp only [setting, kind, full, loadedLength, Option.map_some,
        Option.getD_some]

theorem setting_load_none (env : Env) (store : Store) (var : Var) :
    setting var
        (loadedData var.declaration.vtype var none (store.data var),
          loadedLength env var.declaration.vtype var none (store.data var)
            (store.length var)) =
      setting var (store.cell var) := by
  cases kind : var.declaration.vtype with
  | boolean =>
      simp only [setting, kind, loadedData, Store.cell]
      rfl
  | _ =>
      simp only [setting, kind, loadedData, loadedLength, Store.cell,
        Option.map_none, Option.getD_none]

theorem savedBytes_of_not_str {device : Device} (kept : Kept device)
    (env : Env) {row : Row} (listed : row ∈ setget) {var : Var}
    (targets : row.savedVar = some var)
    (notStr : var.declaration.vtype ≠ .str) :
    savedBytes env device.store row var = device.store.data var := by
  have size := size_of_vtype var
  have whole := device.store.sized var
  have count :
      saveCount var.declaration.vtype device.store var = var.size := by
    cases kind : var.declaration.vtype with
    | str => exact absurd kind notStr
    | binary => exact kept.binaries var kind
    | custom => exact absurd kind var.declaration.vtype_ne_custom
    | _ =>
        rw [kind] at size
        exact size.symm
  have cut := env.bytes_take device.store var var.size
  rw [savedBytes, savedVar_vtype listed targets, count]
  rwa [List.take_of_length_le (by rw [Env.bytes_length]),
    List.take_of_length_le (Nat.le_of_eq whole)] at cut

/-- What a save writes stands for the setting. -/
theorem entrySetting_savedBytes {device : Device} (kept : Kept device)
    (env : Env) {row : Row} (listed : row ∈ setget) {var : Var}
    (targets : row.savedVar = some var) :
    EntryStands var (savedBytes env device.store row var) ∧
      entrySetting var (savedBytes env device.store row var) =
        setting var (device.store.cell var) := by
  by_cases isStr : var.declaration.vtype = .str
  · have cut := env.bytes_take device.store var
      (saveCount .str device.store var)
    obtain ⟨terminated, short⟩ := kept.strings var isStr
    have front :
        (0 : UInt8) ∈ (device.store.data var).take
          (saveCount .str device.store var) := by
      rw [zero_mem_take_iff, saveCount]
      exact ⟨terminated, by omega⟩
    have inside :
        (0 : UInt8) ∈ (env.bytes device.store var
          (saveCount .str device.store var)).take var.size := by
      rw [cut]
      exact front
    have text :
        cstr (env.bytes device.store var
          (saveCount .str device.store var)) =
            cstr (device.store.data var) := by
      have savedText := cstr_append_of_mem inside
        ((env.bytes device.store var
          (saveCount .str device.store var)).drop var.size)
      have ownText := cstr_append_of_mem front
        ((device.store.data var).drop (saveCount .str device.store var))
      rw [List.take_append_drop] at savedText ownText
      rw [savedText, ownText, cut]
    rw [savedBytes, savedVar_vtype listed targets]
    simp only [EntryStands, entrySetting, setting, isStr]
    exact ⟨inside, congrArg Setting.text text⟩
  · have sameBytes := savedBytes_of_not_str kept env listed targets isStr
    have whole := device.store.sized var
    rw [sameBytes]
    cases kind : var.declaration.vtype with
    | str => exact absurd kind isStr
    | custom => exact absurd kind var.declaration.vtype_ne_custom
    | binary =>
        simp only [EntryStands, entrySetting, setting, kind, Store.cell,
          kept.binaries var kind, whole, and_self]
    | boolean =>
        simp only [EntryStands, entrySetting, setting, kind, Store.cell]
        exact ⟨whole, rfl⟩
    | _ =>
        simp only [EntryStands, entrySetting, setting, kind, Store.cell,
          whole, and_self]

/-! ## The steps -/

section Steps

variable {device : Device} {memory : Memory Var Setting}

/-- The row that saves a variable. -/
theorem eq_of_savedVar_eq {row other : Row} (listed : row ∈ setget)
    (otherListed : other ∈ setget) {var : Var}
    (targets : row.savedVar = some var)
    (otherTargets : other.savedVar = some var) : other = row :=
  eq_of_target_eq setget_savedVars_nodup otherListed listed otherTargets
    targets

theorem savedWithin_of_front {row : Row} {rows : Nat}
    (front : row ∈ setget.take rows) {var : Var}
    (targets : row.savedVar = some var) : savedWithin rows var = true := by
  rw [savedWithin, List.any_eq_true]
  exact ⟨row, front, decide_eq_true targets⟩

theorem savedWithin_of_back {row : Row} {rows : Nat}
    (back : row ∈ setget.drop rows) {var : Var}
    (targets : row.savedVar = some var) : savedWithin rows var = false := by
  have distinct := setget_savedVars_nodup
  rw [← List.take_append_drop rows setget, List.filterMap_append,
    List.nodup_append] at distinct
  rw [← Bool.not_eq_true, savedWithin, List.any_eq_true]
  rintro ⟨other, front, found⟩
  exact distinct.2.2 var
    (List.mem_filterMap.mpr ⟨other, front, of_decide_eq_true found⟩) var
    (List.mem_filterMap.mpr ⟨row, back, targets⟩) rfl

theorem savedWithin_of_unsaved {rows : Nat} {var : Var}
    (unsaved : ∀ row ∈ setget, row.savedVar ≠ some var) :
    savedWithin rows var = false := by
  rw [← Bool.not_eq_true, savedWithin, List.any_eq_true]
  rintro ⟨row, front, found⟩
  exact unsaved row (List.mem_of_mem_take front) (of_decide_eq_true found)

theorem savedBy_of_success {env : Env} (device : Device)
    (succeeds : ∀ row ∈ setget, row.Saved →
      env.writeFails row.saveId.code 0 = false) {row : Row}
    (listed : row ∈ setget) {var : Var} (targets : row.savedVar = some var) :
    savedBy env device setget.length var = true := by
  rw [savedBy, List.take_length, rowsStored_of_success device succeeds]
  apply savedWithin_of_front _ targets
  rwa [List.take_length]

theorem readableBy_iff {env : Env} {row : Row} (listed : row ∈ setget)
    {var : Var} (targets : row.savedVar = some var) :
    readableBy env var = true ↔ env.readFails row.saveId.code = false := by
  rw [readableBy, List.all_eq_true]
  constructor
  · exact fun all => of_decide_eq_true (all row listed) targets
  · intro reads other otherListed
    apply decide_eq_true
    intro otherTargets
    rw [eq_of_savedVar_eq listed otherListed targets otherTargets]
    exact reads

theorem EntryStands.sound {var : Var} {entry : List UInt8}
    (stands : EntryStands var entry) : EntrySound var entry := by
  rw [EntryStands] at stands
  rw [EntrySound]
  cases kind : var.declaration.vtype <;> rw [kind] at stands <;>
    first | exact stands | trivial

/-- A save that has written the rows in front of some place. -/
theorem Denotes.save (denotes : Denotes device memory) {env : Env} {new : Nvs}
    {rows : Nat}
    (saved : SavedUpTo env device.store (setget.take rows) (setget.drop rows)
      device.nvs new) :
    Denotes { device with nvs := new }
      (perform defaults memory (.save (savedWithin rows))) := by
  have side : ∀ row ∈ setget,
      row ∈ setget.take rows ∨ row ∈ setget.drop rows := by
    intro row listed
    rw [← List.take_append_drop rows setget] at listed
    exact List.mem_append.mp listed
  have stands : ∀ row ∈ setget, ∀ var, row.savedVar = some var →
      ∀ entry ∈ new row.saveId.code, EntryStands var entry := by
    intro row listed var targets entry found
    rcases side row listed with front | back
    · rw [saved.written row front var targets] at found
      obtain rfl := Option.some.inj found
      exact (entrySetting_savedBytes denotes.kept env listed targets).1
    · rw [saved.kept row back var targets] at found
      exact denotes.stands row listed var targets entry found
  refine ⟨⟨denotes.kept.strings, denotes.kept.binaries, ?_⟩, denotes.current,
    stands, ?_, ?_⟩
  · intro row listed var targets entry found
    exact (stands row listed var targets entry found).sound
  · intro row listed var targets
    simp only [perform]
    rcases side row listed with front | back
    · rw [if_pos (savedWithin_of_front front targets),
        saved.written row front var targets, Option.map_some,
        (entrySetting_savedBytes denotes.kept env listed targets).2,
        denotes.current]
    · rw [if_neg (Bool.not_eq_true _ ▸ savedWithin_of_back back targets),
        saved.kept row back var targets]
      exact denotes.saved row listed var targets
  · intro var unsaved
    simp only [perform, savedWithin_of_unsaved unsaved]
    exact denotes.unsaved var unsaved

theorem Denotes.interrupted (denotes : Denotes device memory) (env : Env)
    (rows : Nat) :
    Denotes { device with nvs := flashSaveInterrupted env device rows }
      (perform defaults memory (.save (savedBy env device rows))) :=
  denotes.save (flashSaveInterrupted_savedUpTo env device rows)

theorem Denotes.restart (denotes : Denotes device memory) :
    Denotes { device with store := Store.initial }
      (perform defaults memory .restart) where
  kept := ⟨factory_kept.strings, factory_kept.binaries, denotes.kept.entries⟩
  current _ := rfl
  stands := denotes.stands
  saved := denotes.saved
  unsaved := denotes.unsaved

theorem Denotes.clear (denotes : Denotes device memory) :
    Denotes { device with nvs := fun _ => none }
      (perform defaults memory .clear) where
  kept := ⟨denotes.kept.strings, denotes.kept.binaries,
    fun _ _ _ _ _ impossible => by cases impossible⟩
  current := denotes.current
  stands _ _ _ _ _ impossible := by cases impossible
  saved _ _ _ _ := rfl
  unsaved _ _ := rfl

theorem Denotes.load (denotes : Denotes device memory) (env : Env) :
    Denotes { device with store := (flashLoad env device).2 }
      (perform defaults memory (.load (readableBy env))) := by
  refine ⟨denotes.kept.load env, fun var => ?_, denotes.stands, denotes.saved,
    denotes.unsaved⟩
  simp only [perform]
  rcases saved_or_unsaved var with ⟨row, listed, targets⟩ | unsaved
  · have inNvs := denotes.saved row listed var targets
    rw [flashLoad_cell env device listed targets,
      savedVar_vtype listed targets]
    cases fails : env.readFails row.saveId.code with
    | true =>
        have unreadable : ¬ readableBy env var = true := by
          rw [readableBy_iff listed targets, fails]
          exact Bool.noConfusion
        have nothing : env.entry device.nvs row.saveId.code = none := by
          rw [Env.entry, fails]
          rfl
        rw [nothing, setting_load_none, if_neg unreadable]
        exact denotes.current var
    | false =>
        have same : env.entry device.nvs row.saveId.code =
            device.nvs row.saveId.code := by
          rw [Env.entry, fails]
          rfl
        rw [same, if_pos ((readableBy_iff listed targets).mpr fails), ← inNvs]
        cases found : device.nvs row.saveId.code with
        | none =>
            rw [setting_load_none]
            exact denotes.current var
        | some entry =>
            rw [setting_loaded env device.store
              (denotes.stands row listed var targets entry found)]
            rfl
  · rw [flashLoad_cell_of_unsaved env device unsaved,
      denotes.unsaved var unsaved, denotes.current var]
    split <;> rfl

/-- A change of one variable that the memory makes too. -/
theorem Denotes.change (denotes : Denotes device memory) {after : Store}
    {var : Var} (change : Setting → Setting)
    (kept : Kept { device with store := after })
    (elsewhere : ∀ other ≠ var, after.cell other = device.store.cell other)
    (changed : setting var (after.cell var) =
      change (setting var (device.store.cell var))) :
    Denotes { device with store := after }
      (perform defaults memory (.update var change)) := by
  refine ⟨kept, fun other => ?_, denotes.stands, denotes.saved,
    denotes.unsaved⟩
  simp only [perform]
  by_cases same : other = var
  · subst same
    rw [Function.update_self, changed, denotes.current]
  · rw [Function.update_of_ne same, elsewhere other same, denotes.current]

theorem Denotes.assign (denotes : Denotes device memory) (env : Env)
    {var : Var} {text : List UInt8}
    (short : var.declaration.vtype = .str → strlen text < var.size) :
    Denotes ((Effect.assign env var text).apply device)
      ((effectRequests device (.assign env var text)).foldl
        (perform defaults) memory) := by
  have kept := denotes.kept.assign env short
  have elsewhere : ∀ other ≠ var,
      ((Effect.assign env var text).apply device).store.cell other =
        device.store.cell other := by
    intro other different
    obtain ⟨data, length⟩ := assign_of_ne env different text device
    exact Prod.ext data length
  cases read : readSetting env.atoiOverflow var text with
  | none =>
      have refused := varsSetVar_of_refused env device.store read
      simp only [Effect.apply, refused, effectRequests, read]
      exact denotes
  | some value =>
      obtain ⟨after, accepted, stands⟩ :=
        varsSetVar_of_accepted env device.store short read
      simp only [Effect.apply, accepted] at kept elsewhere
      simp only [Effect.apply, accepted, effectRequests, read]
      exact denotes.change (fun _ => value) kept elsewhere stands

/-- A write that `Overruns` excludes nothing else strays. -/
theorem not_strays {item : Characteristic} {buf : List UInt8} {offset : Nat}
    (inside : ¬ item.Overruns buf offset) : ¬ item.Strays buf offset :=
  fun strays => inside ⟨strays.1, strays.2.2, Or.inl strays.2.1⟩

theorem Kept.write {env : Env} {item : Characteristic} {buf : List UInt8}
    {offset : Nat} (kept : Kept device)
    (notStr : item.userData.declaration.vtype ≠ .str)
    (inside : ¬ item.Strays buf offset) :
    Kept { device with
      store := (item.write env buf offset device.store).2 } := by
  have lengths := item.write_length env inside device.store
  refine ⟨fun var isStr => ?_, fun var isBinary => ?_, kept.entries⟩
  · have different : var ≠ item.userData := by
      intro same
      rw [same] at isStr
      exact notStr isStr
    simp only [lengths, item.write_data_of_ne env inside device.store
      different]
    exact kept.strings var isStr
  · simp only [lengths]
    exact kept.binaries var isBinary

theorem wireSize_of_ne_datarate {item : Characteristic}
    (notDatarate : item ≠ .loraDatarate) :
    wireSize item = item.userData.size := by
  cases item with
  | loraDatarate => exact absurd rfl notDatarate
  | _ => rfl

/-- The callbacks of the binaries and of the flag copy what they are given. -/
theorem setting_write (kept : Kept device) {var : Var}
    (kind : var.declaration.vtype = .binary ∨
      var.declaration.vtype = .boolean)
    {buf : List UInt8} {offset : Nat} (fits : offset + buf.length ≤ var.size) :
    setting var ((device.store.write var offset buf).cell var) =
      patchSetting offset buf (setting var (device.store.cell var)) := by
  have whole := device.store.sized var
  rcases kind with kind | kind
  · have full := kept.binaries var kind
    have size : (overlay (device.store.data var) offset buf).length =
        var.size := by rw [overlay_length, whole]
    simp only [setting, kind, Store.cell, Store.write_data_self,
      Store.write_length, full, patchSetting]
    rw [List.take_of_length_le (Nat.le_of_eq size),
      List.take_of_length_le (Nat.le_of_eq whole)]
  · have one := size_of_vtype var
    rw [kind] at one
    rw [one] at fits
    rw [one] at whole
    obtain ⟨old, only⟩ := List.length_eq_one_iff.mp whole
    simp only [setting, kind, Store.cell, Store.write_data_self, only,
      patchSetting]
    cases buf with
    | nil =>
        rw [overlay_nil]
        rfl
    | cons byte excess =>
        obtain ⟨rfl, rfl⟩ : offset = 0 ∧ excess = [] := by
          rw [List.length_cons] at fits
          exact ⟨by omega, List.eq_nil_of_length_eq_zero (by omega)⟩
        simp [overlay]

theorem setting_written (kept : Kept device) (env : Env)
    {item : Characteristic} {buf : List UInt8} {offset : Nat}
    (notStr : item.userData.declaration.vtype ≠ .str)
    (inside : ¬ item.Overruns buf offset)
    (fits : offset + buf.length ≤ wireSize item) :
    setting item.userData
        ((item.write env buf offset device.store).2.cell item.userData) =
      patchSetting offset buf
        (setting item.userData (device.store.cell item.userData)) := by
  by_cases isDatarate : item = .loraDatarate
  · subst isDatarate
    have atStart : offset = 0 := by
      by_contra elsewhere
      exact inside ⟨rfl, fits, Or.inl elsewhere⟩
    subst atStart
    cases buf with
    | nil => exact absurd ⟨rfl, fits, Or.inr rfl⟩ inside
    | cons byte excess =>
        have written := writeLoraDatarate_of_fits env fits device.store
        have full := device.store.write_full .loraDatarate [byte] rfl
        simp only [Characteristic.write, written, if_true, List.headD_cons,
          Characteristic.userData, Store.cell, full]
        simp [setting, Var.declaration, Declaration.vtype, patchSetting,
          leValue]
  · rw [wireSize_of_ne_datarate isDatarate] at fits
    rw [Characteristic.write_of_ne_datarate env isDatarate, writeVariable,
      if_neg (Nat.not_lt.mpr fits)]
    have kind : item.userData.declaration.vtype = .binary ∨
        item.userData.declaration.vtype = .boolean := by
      cases item <;>
        first
        | exact Or.inl rfl
        | exact Or.inr rfl
        | exact absurd rfl notStr
        | exact absurd rfl isDatarate
    exact setting_write kept kind fits

theorem write_refused (env : Env) {item : Characteristic} {buf : List UInt8}
    {offset : Nat} (tooLong : offset + buf.length > wireSize item)
    (store : Store) : (item.write env buf offset store).2 = store := by
  by_cases isDatarate : item = .loraDatarate
  · subst isDatarate
    simp only [Characteristic.write, writeLoraDatarate]
    split
    · rfl
    · rename_i fits
      exact absurd tooLong fits
  · rw [wireSize_of_ne_datarate isDatarate] at tooLong
    rw [Characteristic.write_of_ne_datarate env isDatarate, writeVariable,
      if_pos tooLong]

theorem Denotes.write (denotes : Denotes device memory) (env : Env)
    {item : Characteristic} {buf : List UInt8} {offset : Nat}
    (notStr : item.userData.declaration.vtype ≠ .str)
    (inside : ¬ item.Overruns buf offset) :
    Denotes ((Effect.write env item buf offset).apply device)
      ((effectRequests device (.write env item buf offset)).foldl
        (perform defaults) memory) := by
  by_cases tooLong : offset + buf.length > wireSize item
  · simp only [Effect.apply, effectRequests, if_pos tooLong,
      write_refused env tooLong]
    exact denotes
  · simp only [Effect.apply, effectRequests, if_neg tooLong]
    refine denotes.change (patchSetting offset buf)
      (denotes.kept.write notStr (not_strays inside))
      (fun other different => ?_)
      (setting_written denotes.kept env notStr inside
        (Nat.le_of_not_lt tooLong))
    exact Prod.ext
      (item.write_data_of_ne env (not_strays inside) device.store different)
      (congrFun (item.write_length env (not_strays inside) device.store) other)

/-- Each way in which a call acts on the device is a way in which a memory of
settings acts. -/
theorem Denotes.effect (denotes : Denotes device memory) {effect : Effect}
    (disciplined : effect.Disciplined) :
    Denotes (effect.apply device)
      ((effectRequests device effect).foldl (perform defaults) memory) := by
  cases effect with
  | nothing => exact denotes
  | restart => exact denotes.restart
  | save env =>
      have saved := denotes.interrupted env setget.length
      rw [flashSaveInterrupted_all env device (Nat.le_refl _)] at saved
      exact saved
  | clear => exact denotes.clear
  | load env => exact denotes.load env
  | assign env var text => exact denotes.assign env disciplined
  | write env item buf offset =>
      exact denotes.write env disciplined.1 disciplined.2

theorem Denotes.happen {happening : Happening}
    (denotes : Denotes device memory)
    (disciplined : Disciplined device happening) {next : Device}
    (taken : Config.happen device happening = some next) :
    Denotes next
      ((requests device happening).foldl (perform defaults) memory) := by
  cases happening with
  | call call =>
      obtain rfl := Option.some.inj taken
      rw [perform_eq]
      exact denotes.effect disciplined
  | interruptedSave env rows =>
      obtain rfl := Option.some.inj taken
      exact (denotes.interrupted env rows).restart

end Steps

theorem happen_simulates :
    Simulates happen Disciplined (Persistence.step defaults) requests
      Denotes := by
  intro device happening next memory denotes disciplined taken
  exact ⟨_, execute_step defaults memory (requests device happening),
    denotes.happen disciplined taken⟩

/-! ## The device from outside -/

theorem varsGet_row {row : Row} (listed : row ∈ setget) {var : Var}
    (points : row.var = some var) (env : Env) (device : Device) :
    varsGet env row.key none device =
      (.success, some (varText env var.declaration.vtype var device.store),
        device) := by
  have present : row.var.isSome = true := by rw [points, Option.isSome]
  obtain ⟨_, noGetter⟩ := setget_functions row listed present
  have readable : row.vdir ≠ .write := by
    intro isWrite
    have writable := setget_writable row listed present (by simp [isWrite])
    rw [isWrite] at writable
    cases writable
  have kind : row.vtype = var.declaration.vtype :=
    (setget_vtype row listed var points).symm
  simp only [varsGet, setgetFindKey_of_mem listed, Option.getD_none,
    List.headD_nil, ne_eq, not_true, if_false, readable, kind,
    var.declaration.vtype_ne_custom, points, noGetter]

/-- The variables that clients see are those of the memory: they are printed,
read from texts, refused and saved as its settings are. -/
structure ActsAs (device : Device) (memory : Memory Var Setting) : Prop where
  gets : ∀ env, ∀ row ∈ setget, ∀ var, row.var = some var →
    varsGet env row.key none device =
      (.success, some (printSetting var (memory.current var)), device)
  refuses : ∀ env (row : Row) var text, row.Plain var → text.headD 0 ≠ 0 →
    readSetting env.atoiOverflow var text = none →
      varsSet env row.key (some text) device = .returned .invValue none device
  accepts : ∀ env (row : Row) var text value, row.Plain var →
    text.headD 0 ≠ 0 →
    (var.declaration.vtype = .str → strlen text < var.size) →
      readSetting env.atoiOverflow var text = some value →
        ∃ after,
          varsSet env row.key (some text) device =
              .returned .success (some (echoSetting var text value))
                { device with store := after } ∧
            ∀ other, setting other (after.cell other) =
              Function.update memory.current var value other
  saved : ∀ row ∈ setget, ∀ var, row.savedVar = some var →
    (device.nvs row.saveId.code).map (entrySetting var) = memory.saved var

theorem Denotes.actsAs {device : Device} {memory : Memory Var Setting}
    (denotes : Denotes device memory) : ActsAs device memory := by
  refine ⟨?_, ?_, ?_, denotes.saved⟩
  · intro env row listed var points
    rw [varsGet_row listed points, ← denotes.current,
      varText_eq_printSetting env device.store
        (fun isStr => (denotes.kept.strings var isStr).1)
        (denotes.kept.binaries var)]
  · intro env row var text plain nonempty refused
    rw [varsSet_plain plain env nonempty device,
      varsSetVar_of_refused env device.store refused]
  · intro env row var text value plain nonempty short read
    obtain ⟨after, accepted, stands⟩ :=
      varsSetVar_of_accepted env device.store short read
    refine ⟨after, ?_, fun other => ?_⟩
    · rw [varsSet_plain plain env nonempty device, accepted]
    · by_cases same : other = var
      · subst same
        rw [stands, Function.update_self]
      · rw [varsSetVar_cell_of_ne env same accepted,
          Function.update_of_ne same, denotes.current]

/-- A run with a save that is cut short after the first three rows of the
table, among them `devid`. -/
def cutShort : List Happening :=
  [.call (.varsSet Env.quiet (ascii "devid") (some (ascii "A1"))),
    .interruptedSave Env.quiet 3,
    .call (.varsInit Env.quiet 0)]

def reply (device : Device) (row : Row) : Option (List UInt8) :=
  (varsGet Env.quiet row.key none device).2.1

def started (loadEnv : Env) (nvs : Nvs) : Device :=
  (varsInit loadEnv 0 ⟨Store.initial, nvs⟩).2

theorem Denotes.started {device : Device} {memory : Memory Var Setting}
    (denotes : Denotes device memory) {loadEnv : Env}
    (reads : ∀ id, loadEnv.readFails id = false) (var : Var) :
    ∃ after, Denotes (Config.started loadEnv device.nvs) after ∧
      after.current var = (memory.saved var).getD (defaults var) := by
  refine ⟨_, denotes.restart.load loadEnv, ?_⟩
  apply current_after_restart defaults memory
  rw [readableBy, List.all_eq_true]
  exact fun row _ => decide_eq_true fun _ => reads row.saveId.code

theorem Denotes.reply {device : Device} {memory : Memory Var Setting}
    (denotes : Denotes device memory) {row : Row} (listed : row ∈ setget)
    {var : Var} (points : row.var = some var) :
    Config.reply device row =
      some (printSetting var (memory.current var)) := by
  rw [Config.reply, denotes.actsAs.gets Env.quiet row listed var points]

theorem var_of_savedVar {row : Row} {var : Var}
    (targets : row.savedVar = some var) : row.var = some var := by
  rw [Row.savedVar] at targets
  split at targets
  · exact targets
  · cases targets

/-- A save that is cut short, whatever fails and wherever the power is lost,
comes back as a prefix of the table: after the next start, the rows that
`rowsStored` counts read as they did when the save began, and those behind them
read as if no save had begun. -/
theorem interrupted_save_restores (happenings : List Happening)
    (device : Device)
    (disciplined : Meets happen Disciplined factory happenings)
    (reached : execute happen factory happenings = some device)
    (env : Env) (rows : Nat) (loadEnv : Env)
    (reads : ∀ id, loadEnv.readFails id = false) :
    (∀ row ∈ setget.take (rowsStored env device (setget.take rows)),
        row.Saved →
          reply (started loadEnv (flashSaveInterrupted env device rows)) row =
            reply device row) ∧
      (∀ row ∈ setget.drop (rowsStored env device (setget.take rows)),
        row.Saved →
          reply (started loadEnv (flashSaveInterrupted env device rows)) row =
            reply (started loadEnv device.nvs) row) ∧
      ((∀ row ∈ setget.take rows, row.Saved →
          env.writeFails row.saveId.code 0 = false) →
        rowsStored env device (setget.take rows) =
          (setget.take rows).length) := by
  obtain ⟨memory, _, denotes⟩ :=
    happen_simulates.execute factory_denotes disciplined reached
  have saved := flashSaveInterrupted_savedUpTo env device rows
  have cut := denotes.interrupted env rows
  refine ⟨fun row front isSaved => ?_, fun row back isSaved => ?_,
    rowsStored_of_success device⟩
  · have listed := List.mem_of_mem_take front
    obtain ⟨var, targets⟩ := savedVar_of_saved listed isSaved
    have points := var_of_savedVar targets
    obtain ⟨_, restarted, current⟩ := cut.started reads var
    have stored := cut.saved row listed var targets
    simp only [saved.written row front var targets, Option.map_some,
      (entrySetting_savedBytes denotes.kept env listed targets).2,
      denotes.current] at stored
    rw [restarted.reply listed points, denotes.reply listed points, current,
      ← stored, Option.getD_some]
  · have listed := List.mem_of_mem_drop back
    obtain ⟨var, targets⟩ := savedVar_of_saved listed isSaved
    have points := var_of_savedVar targets
    obtain ⟨_, restarted, current⟩ := cut.started reads var
    obtain ⟨_, untouched, old⟩ := denotes.started reads var
    have kept := cut.saved row listed var targets
    simp only [saved.kept row back var targets,
      denotes.saved row listed var targets] at kept
    rw [restarted.reply listed points, untouched.reply listed points, current,
      old, kept]

/-- The save of `cutShort` writes three rows and no more. -/
theorem cutShort_restores :
    ∃ device, execute happen factory (cutShort.take 1) = some device ∧
      (∀ row ∈ setget.take 3, row.Saved →
        reply (started Env.quiet
            (flashSaveInterrupted Env.quiet device 3)) row =
          reply device row) ∧
      ∀ row ∈ setget.drop 3, row.Saved →
        reply (started Env.quiet
            (flashSaveInterrupted Env.quiet device 3)) row =
          reply (started Env.quiet device.nvs) row := by
  refine ⟨_, rfl, ?_⟩
  obtain ⟨front, back, stored⟩ :=
    interrupted_save_restores (cutShort.take 1) _
      ⟨fun _ => by decide, fun _ _ => trivial⟩ rfl Env.quiet 3 Env.quiet
      fun _ => rfl
  rw [stored fun _ _ _ => rfl] at front back
  exact ⟨front, back⟩

end LoraIot.Config
