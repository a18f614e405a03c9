import LoraIot.Vars.FlashLoad
import LoraIot.Vars.SetGet

/-!
# What the answer of `flash_load` says

`flash_save` ends at the first row that cannot be written.  `flash_load` goes
on, and every row overwrites the result code of the rows before it, so that its
answer is the one of the last saved row.  `vars_get` then asks whether the
answer is a null pointer, which it never is.
-/

namespace LoraIot.Vars

open LoraIot.CStrings LoraIot.Tables

/-- The result code of the `nvs_read` that `flash_load` makes for a row. -/
def readCode (env : Env) (nvs : Nvs) (row : Row) : Option Int :=
  row.savedVar.map fun var =>
    (varsFlashRead env nvs row.saveId.code (loadCount row.vtype var)).1

def EveryReadSucceeds (env : Env) (device : Device) : Prop :=
  ∀ row ∈ setget, ∀ code ∈ readCode env device.nvs row, 0 ≤ code

/-- `flash_load` answers `1` when every read succeeded and `-1` otherwise, and
a query of the row `save` replies `1` exactly when `flash_load` answers `1`. -/
structure LoadReported (env : Env) (device : Device) : Prop where
  one_iff : (flashLoad env device).1 = ascii "1" ↔
    EveryReadSucceeds env device
  otherwise : ¬ EveryReadSucceeds env device →
    (flashLoad env device).1 = ascii "-1"
  reply_iff : ∀ value : Option (List UInt8), (value.getD []).headD 0 = 0 →
    ((varsGet env (ascii "save") value device).2.1 = some (ascii "1") ↔
      (flashLoad env device).1 = ascii "1")

section Loop

variable {env : Env} {nvs : Nvs} {row : Row}

theorem flashLoadRow_fst_of_read (listed : row ∈ setget) {code : Int}
    (read : readCode env nvs row = some code) (state : Int × Store) :
    (flashLoadRow env nvs state row).1 = code := by
  obtain ⟨var, targets, isCode⟩ := Option.map_eq_some_iff.mp read
  have notCustom : row.vtype ≠ .custom := by
    rw [savedVar_vtype listed targets]
    exact var.declaration.vtype_ne_custom
  rw [← isCode]
  simp only [flashLoadRow, targets]
  cases kind : row.vtype with
  | custom => exact absurd kind notCustom
  | _ => rfl

theorem flashLoadRow_fst_of_not_read (unread : readCode env nvs row = none)
    (state : Int × Store) :
    (flashLoadRow env nvs state row).1 = state.1 := by
  have unsaved : row.savedVar = none := Option.map_eq_none_iff.mp unread
  simp only [flashLoadRow, unsaved]

end Loop

section Verdict

variable (env : Env) (device : Device)

/-- The code that decides the answer is the one of the last read. -/
def lastReadCode : Int :=
  (setget.filterMap (readCode env device.nvs)).getLastD 0

theorem flashLoad_fst :
    (flashLoad env device).1 =
      if lastReadCode env device < 0 then ascii "-1" else ascii "1" := by
  have overwritten :
      (setget.foldl (flashLoadRow env device.nvs) (0, device.store)).1 =
        lastReadCode env device :=
    foldl_overwritten
      (fun _ listed _ read state =>
        flashLoadRow_fst_of_read listed read state)
      (fun _ _ unread state => flashLoadRow_fst_of_not_read unread state)
      (0, device.store)
  rw [flashLoad, overwritten]

theorem flashLoad_eq_one_iff :
    (flashLoad env device).1 = ascii "1" ↔ 0 ≤ lastReadCode env device := by
  rw [flashLoad_fst]
  split
  · rename_i negative
    exact iff_of_false (by decide) (not_le.mpr negative)
  · rename_i nonnegative
    exact iff_of_true rfl (not_lt.mp nonnegative)

/-- The last saved row is `devaddr`. -/
theorem lastReadCode_eq :
    lastReadCode env device =
      (varsFlashRead env device.nvs SaveId.devaddr.code
        Var.loraDevAddr.size).1 :=
  rfl

/-- The answer of `flash_load` alone is right when nothing fails, and when the
last read does. -/
theorem flashLoad_answer_right_iff :
    ((flashLoad env device).1 = ascii "1" ↔ EveryReadSucceeds env device) ↔
      EveryReadSucceeds env device ∨ lastReadCode env device < 0 := by
  rw [flashLoad_eq_one_iff]
  by_cases succeed : EveryReadSucceeds env device
  · refine iff_of_true (iff_of_true ?_ succeed) (Or.inl succeed)
    rcases List.mem_cons.mp (List.getLastD_mem_cons (a := 0)
        (l := setget.filterMap (readCode env device.nvs))) with
      noRead | isRead
    · exact le_of_eq noRead.symm
    · obtain ⟨row, listed, read⟩ := List.mem_filterMap.mp isRead
      exact succeed row listed _ read
  · simp only [succeed, iff_false, false_or, not_le]

/-- A query of `save` replies `1` whatever `flash_load` answers. -/
theorem varsGet_save {value : Option (List UInt8)}
    (noValue : (value.getD []).headD 0 = 0) :
    varsGet env (ascii "save") value device =
      (.success, some (ascii "1"),
        { device with store := (flashLoad env device).2 }) := by
  let row : Row :=
    ⟨ascii "save", .boolean, .readwrite, none, some .flashSave,
      some .flashLoad, .none⟩
  have found : setgetFindKey (ascii "save") = some row :=
    setgetFindKey_of_mem (show row ∈ setget by decide)
  rw [varsGet, found]
  dsimp only
  rw [if_neg (not_not.mpr noValue), if_neg (by decide), if_neg (by decide)]
  rfl

end Verdict

/-- The outcome of loading is reported exactly when there is no failure to
report. -/
theorem loadReported_iff (env : Env) (device : Device) :
    LoadReported env device ↔ EveryReadSucceeds env device := by
  have noValue : ((none : Option (List UInt8)).getD []).headD 0 = 0 := rfl
  constructor
  · intro reported
    by_contra failed
    have negative := reported.otherwise failed
    have one := (reported.reply_iff none noValue).mp
      (by rw [varsGet_save env device noValue])
    rw [negative] at one
    exact absurd one (by decide)
  · intro succeed
    have one : (flashLoad env device).1 = ascii "1" :=
      ((flashLoad_answer_right_iff env device).mpr (Or.inl succeed)).mpr
        succeed
    refine ⟨iff_of_true one succeed, fun failed => absurd succeed failed, ?_⟩
    intro value empty
    rw [varsGet_save env device empty]
    exact iff_of_true rfl one

/-- An NVS with an entry for `devaddr` alone: every other read fails and
`flash_load` answers `1`. -/
theorem flashLoad_not_reported :
    ¬ ∀ (env : Env) (device : Device), LoadReported env device := by
  intro always
  let device : Device :=
    ⟨Store.initial, fun id =>
      if id = SaveId.devaddr.code then some [1, 2, 3, 4] else none⟩
  have answer : (flashLoad Env.quiet device).1 = ascii "1" := by
    rw [flashLoad_eq_one_iff, lastReadCode_eq]
    decide
  have succeed := (always Env.quiet device).one_iff.mp answer
  have negative := succeed
    (plainRow "devid" .str .readwrite (some .devid) .devid) (by decide)
    enoent rfl
  exact absurd negative (by decide)

end LoraIot.Vars
