import LoraIot.Vars.Flash

/-!
# Loading whatever the flash holds

A store is sane when every string is terminated inside its array and has its
recorded length, and every binary has a length within its declared bounds.
`flash_load` checks neither: it measures whatever string an entry leaves in the
array, and takes the size of an entry as the length of a binary.  A store stays
sane exactly when every entry found is acceptable for its row.
-/

namespace LoraIot.Vars

open LoraIot.CStrings

def CellSane (var : Var) (cell : List UInt8 × Nat) : Prop :=
  match var.declaration.vtype with
  | .str => 0 ∈ cell.1 ∧ cell.2 = strlen cell.1
  | .binary => var.minsize ≤ cell.2 ∧ cell.2 ≤ var.size
  | _ => True

/-- Every string is terminated inside its array and has its recorded length,
and every binary has a length within its bounds. -/
def Store.Sane (store : Store) : Prop :=
  ∀ var, CellSane var (store.cell var)

/-- An entry that can be loaded over a variable: a string that ends inside the
array, possibly at a terminator that is already there behind the entry, or a
binary of an admissible length. -/
def EntryAcceptable (var : Var) (data entry : List UInt8) : Prop :=
  match var.declaration.vtype with
  | .str => 0 ∈ entry.take var.size ∨ 0 ∈ data.drop entry.length
  | .binary => var.minsize ≤ entry.length ∧ entry.length ≤ var.size
  | _ => True

def EntriesAcceptable (env : Env) (device : Device) : Prop :=
  ∀ row ∈ setget, ∀ var ∈ row.savedVar,
    ∀ entry ∈ env.entry device.nvs row.saveId.code,
      EntryAcceptable var (device.store.data var) entry

def MissingRowsKept (env : Env) (device : Device) : Prop :=
  ∀ row ∈ setget, ∀ var ∈ row.savedVar,
    env.entry device.nvs row.saveId.code = none →
      (flashLoad env device).2.cell var = device.store.cell var

/-- Loading bytes over an array leaves a terminator exactly when the bytes
bring one or one stands behind them. -/
theorem zero_mem_overlay_take_iff (data entry : List UInt8) :
    (0 : UInt8) ∈ overlay data 0 (entry.take data.length) ↔
      (0 : UInt8) ∈ entry.take data.length ∨
        (0 : UInt8) ∈ data.drop entry.length := by
  have rest :
      data.drop (entry.take data.length).length = data.drop entry.length := by
    rw [List.length_take]
    rcases Nat.le_total data.length entry.length with longer | shorter
    · rw [Nat.min_eq_left longer, List.drop_length,
        List.drop_eq_nil_of_le longer]
    · rw [Nat.min_eq_right shorter]
  rw [overlay_zero, List.take_take, Nat.min_self, rest, List.mem_append]

/-- A loaded variable is sane exactly when the entry is acceptable. -/
theorem cellSane_loaded_some_iff (env : Env) (store : Store) (var : Var)
    (entry : List UInt8) :
    CellSane var
        (loadedData var.declaration.vtype var (some entry) (store.data var),
          loadedLength env var.declaration.vtype var (some entry)
            (store.data var) (store.length var)) ↔
      EntryAcceptable var (store.data var) entry := by
  rw [CellSane, EntryAcceptable]
  split
  · -- A string: its length is measured afterwards, so only the terminator
    -- is at stake.
    rename_i isStr
    simp only [isStr, loadedData, loadedLength, loadCount]
    rw [← store.sized var, zero_mem_overlay_take_iff]
    constructor
    · exact fun sane => sane.1
    · intro acceptable
      have terminated := (zero_mem_overlay_take_iff _ _).mpr acceptable
      exact ⟨acceptable, by
        rw [strlen, strlen, cstr_append_of_mem terminated]⟩
  · rename_i isBinary
    simp [isBinary, loadedLength]
  · exact Iff.rfl

theorem loaded_none_of_cellSane (env : Env) (store : Store) (var : Var)
    (sane : CellSane var (store.cell var)) :
    (loadedData var.declaration.vtype var none (store.data var),
        loadedLength env var.declaration.vtype var none
          (store.data var) (store.length var)) =
      store.cell var := by
  rw [CellSane] at sane
  cases kind : var.declaration.vtype with
  | str =>
      rw [kind] at sane
      obtain ⟨terminated, measured⟩ := sane
      simp only [Store.cell, loadedData, loadedLength] at terminated measured ⊢
      rw [measured, strlen, cstr_append_of_mem terminated, strlen]
  | _ => rfl

/-- `flash_load` keeps a sane store sane, and rows without an entry as they
are, exactly when every entry it finds is acceptable for its row. -/
theorem flashLoad_sane_iff (env : Env) (device : Device)
    (sane : device.store.Sane) :
    (flashLoad env device).2.Sane ∧ MissingRowsKept env device ↔
      EntriesAcceptable env device := by
  constructor
  · intro both row listed var targets entry found
    have here := both.1 var
    rw [flashLoad_cell env device listed targets,
      savedVar_vtype listed targets, found] at here
    exact (cellSane_loaded_some_iff env device.store var entry).mp here
  · intro acceptable
    refine ⟨fun var => ?_, fun row listed var targets missing => ?_⟩
    · rcases flashLoad_saved_or_kept env device var with
        ⟨row, listed, targets⟩ | same
      · rw [flashLoad_cell env device listed targets,
          savedVar_vtype listed targets]
        cases found : env.entry device.nvs row.saveId.code with
        | none =>
            rw [loaded_none_of_cellSane env device.store var (sane var)]
            exact sane var
        | some entry =>
            exact (cellSane_loaded_some_iff env device.store var entry).mpr
              (acceptable row listed var targets entry found)
      · rw [same]
        exact sane var
    · rw [flashLoad_cell env device listed targets,
        savedVar_vtype listed targets, missing]
      exact loaded_none_of_cellSane env device.store var (sane var)

/-- A platform on which nothing fails, with zeros behind every variable. -/
def Env.quiet : Env where
  readFails _ := false
  writeFails _ _ := false
  beyond _ := []
  stray _ _ _ store := store
  pastBuffer := 0
  atoiOverflow _ := 0
  address _ := 0

/-- The static initialisers with every recorded string length measured. -/
def Store.measured : Store where
  data := Store.initial.data
  length var :=
    match var.declaration with
    | .str _ default => (ascii default).length
    | other => other.initialLength
  sized := Store.initial.sized

theorem Store.measured_sane : Store.measured.Sane := by
  intro var
  cases var <;> simp [CellSane, Var.declaration, Declaration.vtype] <;> decide

/-- An NVS with a terminated `devid` and an `appskey` of 16 bytes. -/
def twoEntries : Nvs := fun id =>
  if id = SaveId.devid.code then some [0x41, 0x42, 0]
  else if id = SaveId.appskey.code then some (List.replicate 16 0x2b)
  else none

theorem twoEntries_acceptable :
    EntriesAcceptable Env.quiet ⟨Store.measured, twoEntries⟩ := by
  have devid : ∀ row ∈ setget, ∀ var ∈ row.savedVar,
      row.saveId.code = SaveId.devid.code → var = .devid := by decide
  have appskey : ∀ row ∈ setget, ∀ var ∈ row.savedVar,
      row.saveId.code = SaveId.appskey.code → var = .loraAppSkey := by decide
  intro row listed var targets entry found
  have entered : twoEntries row.saveId.code = some entry := found
  rw [twoEntries] at entered
  split at entered
  · rename_i isDevid
    obtain rfl := devid row listed var targets isDevid
    obtain rfl := Option.some.inj entered
    exact Or.inl (by decide)
  · split at entered
    · rename_i isAppskey
      obtain rfl := appskey row listed var targets isAppskey
      obtain rfl := Option.some.inj entered
      exact ⟨by decide, by decide⟩
    · cases entered

/-- Both variables come from their entries, and the store is sane. -/
theorem flashLoad_sane_twoEntries :
    (flashLoad Env.quiet ⟨Store.measured, twoEntries⟩).2.cell .devid =
        (ascii "AB" ++ List.replicate 15 0, 2) ∧
      (flashLoad Env.quiet ⟨Store.measured, twoEntries⟩).2.cell .loraAppSkey =
        (List.replicate 16 0x2b, 16) ∧
      (flashLoad Env.quiet ⟨Store.measured, twoEntries⟩).2.Sane ∧
      MissingRowsKept Env.quiet ⟨Store.measured, twoEntries⟩ :=
  ⟨by decide, by decide,
    (flashLoad_sane_iff Env.quiet ⟨Store.measured, twoEntries⟩
      Store.measured_sane).mpr twoEntries_acceptable⟩

/-- An entry of 17 characters without a NUL under the id of `devid` leaves the
array of 17 bytes without a terminator. -/
theorem flashLoad_not_sane :
    ¬ ∀ env device, device.store.Sane →
      (flashLoad env device).2.Sane ∧ MissingRowsKept env device := by
  intro always
  let device : Device :=
    ⟨Store.measured,
      fun id => if id = 1 then some (List.replicate 17 65) else none⟩
  have after := (always Env.quiet device Store.measured_sane).1 .devid
  have listed :
      plainRow "devid" .str .readwrite (some .devid) .devid ∈ setget := by
    decide
  have loaded := flashLoad_cell Env.quiet device listed rfl
  rw [loaded] at after
  have acceptable :=
    (cellSane_loaded_some_iff Env.quiet Store.measured .devid
      (List.replicate 17 65)).mp after
  have unterminated :
      ¬ ((0 : UInt8) ∈ (List.replicate 17 65 : List UInt8).take 17 ∨
        (0 : UInt8) ∈ (Store.measured.data .devid).drop 17) := by
    decide
  exact unterminated acceptable

end LoraIot.Vars
