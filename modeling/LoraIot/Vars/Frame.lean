import LoraIot.Vars.Codec

/-!
# What a call of `vars_set` leaves alone

A call of `vars_set` that fails leaves the device as it was, at whichever exit
it fails, and a call that succeeds stays within the row of its key.  This
rests on the table: the keys tell the rows apart, no variable belongs to two
rows, and the setters that reach the NVS stand in two rows only.
-/

namespace LoraIot.Vars

open LoraIot.CStrings LoraIot.Tables

theorem setget_vars_nodup : (setget.filterMap Row.var).Nodup := by
  decide

/-- The rows whose setters reach beyond the variables. -/
theorem setget_setter_keys :
    ∀ row ∈ setget,
      (row.set = some .reboot → row.key = ascii "reboot") ∧
        (row.set = some .flashSave → row.key = ascii "save") ∧
          (row.set = some .flashClear → row.key = ascii "flashclear") := by
  decide

theorem filter_of_setgetFindKey {key : List UInt8} {row : Row}
    (found : setgetFindKey key = some row) :
    setget.filter (fun other => other.key = cstr key) = [row] := by
  obtain ⟨listed, sameKey⟩ := setgetFindKey_eq_some found
  obtain ⟨before, after, split⟩ := List.append_of_mem listed
  have distinct := setget_keys_nodup
  rw [split, List.map_append, List.map_cons, List.nodup_middle,
    List.nodup_cons, ← List.map_append] at distinct
  have elsewhere : ∀ other ∈ before ++ after, ¬ other.key = cstr key := by
    intro other member same
    apply distinct.1
    rw [sameKey, ← same]
    exact List.mem_map_of_mem member
  have noneBefore :
      before.filter (fun other => other.key = cstr key) = [] := by
    rw [List.filter_eq_nil_iff]
    intro other member
    simpa using elsewhere other (List.mem_append_left after member)
  have noneAfter :
      after.filter (fun other => other.key = cstr key) = [] := by
    rw [List.filter_eq_nil_iff]
    intro other member
    simpa using elsewhere other (List.mem_append_right before member)
  rw [split, List.filter_append, noneBefore,
    List.filter_cons_of_pos (by simpa using sameKey), noneAfter]
  rfl

/-- What a call on a row may change: the row's own variable, and the NVS if
the row is `save` or `flashclear`. -/
structure Row.Frame (row : Row) (before after : Device) : Prop where
  cells : ∀ var, row.var ≠ some var →
    after.store.cell var = before.store.cell var
  others : ∀ other ∈ setget, other ≠ row → ∀ var ∈ other.var,
    after.store.cell var = before.store.cell var
  nvs : row.key ≠ ascii "save" → row.key ≠ ascii "flashclear" →
    after.nvs = before.nvs

/-- A key is the key of exactly one row, and `vars_set` may write it. -/
def Row.Answers (row : Row) (key : List UInt8) : Prop :=
  setget.filter (fun other => other.key = cstr key) = [row] ∧
    row.vdir ≠ .read

/-- A call that fails changes nothing, and a call that succeeds changes at most
what belongs to the row of its key.  Only the row `reboot` does not return: the
device restarts, with its NVS as it was. -/
def AllOrNothing (key : List UInt8) (before : Device) : SetOutcome → Prop
  | .returned code _ after =>
      (code ≠ .success → after = before) ∧
        (code = .success →
          ∃ row, Row.Answers row key ∧ row.Frame before after)
  | .rebooted after =>
      ∃ row, Row.Answers row key ∧ row.key = ascii "reboot" ∧
        after = { before with store := Store.initial }

theorem Row.Frame.of_cells {row : Row} (listed : row ∈ setget)
    {before after : Device}
    (cells : ∀ var, row.var ≠ some var →
      after.store.cell var = before.store.cell var)
    (nvs : row.key ≠ ascii "save" → row.key ≠ ascii "flashclear" →
      after.nvs = before.nvs) : row.Frame before after where
  cells := cells
  others other otherListed different var points := by
    apply cells var
    intro alsoPoints
    exact different
      (eq_of_target_eq setget_vars_nodup otherListed listed points alsoPoints)
  nvs := nvs

/-- How a call of `vars_set` proceeds: it fails, it stores a value in the
variable of its row, or it runs the setter of a row without variable. -/
theorem varsSet_cases (env : Env) (key : List UInt8)
    (value : Option (List UInt8)) (device : Device) :
    (∃ code, code ≠ .success ∧
      varsSet env key value device = .returned code none device) ∨
    ∃ row, setgetFindKey key = some row ∧ row.vdir ≠ .read ∧
      (row.var = none ∧
        varsSet env key value device =
          varsSetFinish env row.set none device ∨
      ∃ var text reply after, row.var = some var ∧
        varsSetVar env var.declaration.vtype var text device.store =
          .ok (reply, after) ∧
        varsSet env key value device =
          .returned .success (some reply) { device with store := after }) := by
  rw [varsSet]
  cases found : setgetFindKey key with
  | none => exact Or.inl ⟨.invKey, by decide, rfl⟩
  | some row =>
      obtain ⟨listed, _⟩ := setgetFindKey_eq_some found
      cases value with
      | none => exact Or.inl ⟨.invValue, by decide, rfl⟩
      | some text =>
          dsimp only
          by_cases isEmpty : text.headD 0 = 0
          · rw [if_pos isEmpty]
            exact Or.inl ⟨.invValue, by decide, rfl⟩
          · rw [if_neg isEmpty]
            by_cases isRead : row.vdir = .read
            · rw [if_pos isRead]
              exact Or.inl ⟨.invAccess, by decide, rfl⟩
            · rw [if_neg isRead]
              cases points : row.var with
              | none => exact Or.inr ⟨row, rfl, isRead, Or.inl ⟨points, rfl⟩⟩
              | some var =>
                  have plain := Row.plain_of_writable listed points isRead
                  rw [plain.vtype, plain.set]
                  dsimp only
                  cases outcome : varsSetVar env var.declaration.vtype var
                      text device.store with
                  | error code =>
                      exact Or.inl ⟨code, varsSetVar_error outcome, rfl⟩
                  | ok result =>
                      exact Or.inr ⟨row, rfl, isRead, Or.inr
                        ⟨var, text, result.1, result.2, points, outcome, rfl⟩⟩

/-- The setter of a row without variable keeps within its row. -/
theorem varsSetFinish_allOrNothing (env : Env) {key : List UInt8} {row : Row}
    (listed : row ∈ setget) (answers : row.Answers key) (device : Device) :
    AllOrNothing key device (varsSetFinish env row.set none device) := by
  obtain ⟨reboots, saves, clears⟩ := setget_setter_keys row listed
  cases setter : row.set with
  | none =>
      refine ⟨fun failed => absurd rfl failed, fun _ => ⟨row, answers, ?_⟩⟩
      exact .of_cells listed (fun _ _ => rfl) (fun _ _ => rfl)
  | some setter' =>
      cases setter' with
      | reboot => exact ⟨row, answers, reboots setter, rfl⟩
      | flashSave =>
          refine ⟨fun failed => absurd rfl failed, fun _ => ⟨row, answers, ?_⟩⟩
          exact .of_cells listed (fun _ _ => rfl)
            (fun notSave _ => absurd (saves setter) notSave)
      | flashClear =>
          refine ⟨fun failed => absurd rfl failed, fun _ => ⟨row, answers, ?_⟩⟩
          exact .of_cells listed (fun _ _ => rfl)
            (fun _ notClear => absurd (clears setter) notClear)

/-- `vars_set` is all or nothing and keeps within the row of its key. -/
theorem varsSet_allOrNothing (env : Env) (key : List UInt8)
    (value : Option (List UInt8)) (device : Device) :
    AllOrNothing key device (varsSet env key value device) := by
  rcases varsSet_cases env key value device with
    ⟨code, failed, outcome⟩ | ⟨row, found, writable, proceeds⟩
  · rw [outcome]
    exact ⟨fun _ => rfl, fun succeeded => absurd succeeded failed⟩
  · obtain ⟨listed, _⟩ := setgetFindKey_eq_some found
    have answers : row.Answers key :=
      ⟨filter_of_setgetFindKey found, writable⟩
    rcases proceeds with
      ⟨_, outcome⟩ | ⟨var, text, reply, after, points, accepted, outcome⟩
    · rw [outcome]
      exact varsSetFinish_allOrNothing env listed answers device
    · rw [outcome]
      refine ⟨fun failed => absurd rfl failed, fun _ => ⟨row, answers, ?_⟩⟩
      refine .of_cells listed (fun other elsewhere => ?_) (fun _ _ => rfl)
      have different : other ≠ var := by
        intro same
        rw [same] at elsewhere
        exact elsewhere points
      exact varsSetVar_cell_of_ne env different accepted

end LoraIot.Vars
