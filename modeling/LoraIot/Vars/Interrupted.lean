import LoraIot.Vars.SaveVerdict

/-!
# Losing power while saving

`flash_save` writes the saved rows one after the other, in the order of the
table, and ends at the first failure.  `rowsStored` says, from the attempts
that fail and what the NVS holds when the save begins, how many rows have been
written when the power is lost: the NVS never holds the new bytes of a row and
the old bytes of an earlier one.
-/

namespace LoraIot.Vars

open LoraIot.Tables

/-- The NVS when the power is lost after `rows` rows of the table. -/
def flashSaveInterrupted (env : Env) (device : Device) (rows : Nat) : Nvs :=
  (flashSaveLoop env device.store (setget.take rows) (0, device.nvs)).2

theorem flashSaveInterrupted_all (env : Env) (device : Device) {rows : Nat}
    (all : setget.length ≤ rows) :
    flashSaveInterrupted env device rows = (flashSave env device).2 := by
  rw [flashSaveInterrupted, List.take_of_length_le all]
  rfl

instance (env : Env) (row : Row) : Decidable (BothFail env row) :=
  inferInstanceAs (Decidable (_ ∧ _))

instance (env : Env) (device : Device) (row : Row) (var : Var) :
    Decidable (LateSuccess env device row var) :=
  inferInstanceAs (Decidable (_ ∧ _ ∧ _ ∧ _))

/-- How many rows a save leaves written: those in front of the first one whose
attempts both fail, and none behind one that the second attempt has stored. -/
def rowsStored (env : Env) (device : Device) : List Row → Nat
  | [] => 0
  | row :: rest =>
      match row.savedVar with
      | none => rowsStored env device rest + 1
      | some var =>
          if BothFail env row then
            0
          else if LateSuccess env device row var then
            1
          else
            rowsStored env device rest + 1

theorem rowsStored_le (env : Env) (device : Device) (rows : List Row) :
    rowsStored env device rows ≤ rows.length := by
  induction rows with
  | nil => exact Nat.le_refl 0
  | cons row rest inductionHypothesis =>
      rw [rowsStored, List.length_cons]
      split
      · omega
      · split_ifs <;> omega

theorem rowsStored_congr {env : Env} {store : Store} {nvs other : Nvs}
    {rows : List Row}
    (same : ∀ row ∈ rows, row.Saved →
      other row.saveId.code = nvs row.saveId.code) :
    rowsStored env ⟨store, other⟩ rows = rowsStored env ⟨store, nvs⟩ rows := by
  induction rows with
  | nil => rfl
  | cons row rest inductionHypothesis =>
      have later := inductionHypothesis fun next member =>
        same next (List.mem_cons_of_mem row member)
      cases targets : row.savedVar with
      | none => simp only [rowsStored, targets, later]
      | some var =>
          have entry := same row List.mem_cons_self (saved_of_savedVar targets)
          have sameLate : LateSuccess env ⟨store, other⟩ row var ↔
              LateSuccess env ⟨store, nvs⟩ row var := by
            simp only [LateSuccess, entry]
          simp only [rowsStored, targets, sameLate, later]

theorem rowsStored_of_success {env : Env} (device : Device) {rows : List Row}
    (succeeds : ∀ row ∈ rows, row.Saved →
      env.writeFails row.saveId.code 0 = false) :
    rowsStored env device rows = rows.length := by
  induction rows with
  | nil => rfl
  | cons row rest inductionHypothesis =>
      have later := inductionHypothesis fun next member =>
        succeeds next (List.mem_cons_of_mem row member)
      cases targets : row.savedVar with
      | none => simp only [rowsStored, targets, later, List.length_cons]
      | some var =>
          have first := succeeds row List.mem_cons_self
            (saved_of_savedVar targets)
          simp [rowsStored, targets, BothFail, LateSuccess, first, later]

/-- The bytes of the rows in front are in the NVS, those of the rows behind
are what they were, and so are all other entries. -/
structure SavedUpTo (env : Env) (store : Store) (before after : List Row)
    (old new : Nvs) : Prop where
  written : ∀ row ∈ before, ∀ var, row.savedVar = some var →
    new row.saveId.code = some (savedBytes env store row var)
  kept : ∀ row ∈ after, ∀ var, row.savedVar = some var →
    new row.saveId.code = old row.saveId.code
  others : ∀ id, (∀ row ∈ before ++ after, row.savedId ≠ some id) →
    new id = old id

section Loop

variable {env : Env} {store : Store} {row : Row}

theorem savedUpTo_nil (rows : List Row) (nvs : Nvs) :
    SavedUpTo env store [] rows nvs nvs where
  written _ impossible := absurd impossible List.not_mem_nil
  kept _ _ _ _ := rfl
  others _ _ := rfl

theorem SavedUpTo.cons {head : Row} {before after : List Row}
    {old middle new : Nvs}
    (distinct : ((head :: (before ++ after)).filterMap Row.savedId).Nodup)
    (written : ∀ var, head.savedVar = some var →
      middle head.saveId.code = some (savedBytes env store head var))
    (elsewhere : ∀ id, head.savedId ≠ some id → middle id = old id)
    (rest : SavedUpTo env store before after middle new) :
    SavedUpTo env store (head :: before) after old new := by
  refine ⟨fun row member var targets => ?_, fun row member var targets => ?_,
    fun id untargeted => ?_⟩
  · rcases List.mem_cons.mp member with rfl | later
    · rw [rest.others, written var targets]
      intro other member same
      exact head_savedId_ne distinct member same (savedId_of_savedVar targets)
    · exact rest.written row later var targets
  · rw [rest.kept row member var targets]
    apply elsewhere
    exact head_savedId_ne distinct (List.mem_append_right before member)
      (savedId_of_savedVar targets)
  · rw [rest.others id fun row member =>
      untargeted row (List.mem_cons_of_mem head member)]
    exact elsewhere id (untargeted head List.mem_cons_self)

theorem flashSaveRow_of_bothFail (listed : row ∈ setget) {var : Var}
    (targets : row.savedVar = some var) (fails : BothFail env row)
    (state : Int × Nvs) :
    (flashSaveRow env store state row).2 = state.2 := by
  rw [flashSaveRow_of_saved listed targets, varsFlashWrite]
  simp [nvsWrite, fails.1, fails.2, eio]

/-- What saving the head does: nothing when both of its attempts fail, and
otherwise it is written. -/
theorem flashSaveRow_written (listed : row ∈ setget) {var : Var}
    (targets : row.savedVar = some var) (written : ¬ BothFail env row)
    (state : Int × Nvs) :
    (flashSaveRow env store state row).2 row.saveId.code =
      some (savedBytes env store row var) := by
  have succeeds : true ∈ attempts env row.saveId.code := by
    cases first : env.writeFails row.saveId.code 0 with
    | false => simp [attempts, first]
    | true =>
        cases second : env.writeFails row.saveId.code 1 with
        | false => simp [attempts, first, second]
        | true => exact absurd ⟨first, second⟩ written
  rw [flashSaveRow_of_saved listed targets, varsFlashWrite_of_written succeeds]
  exact Function.update_self ..

theorem flashSaveLoop_of_stops (listed : row ∈ setget) {nvs : Nvs}
    (stops : Stops env store nvs row) (rest : List Row) :
    flashSaveLoop env store (row :: rest) (0, nvs) =
      flashSaveRow env store (0, nvs) row := by
  have refused := flashSaveRow_of_stops listed stops
  rw [flashSaveLoop, if_pos (Int.le_refl 0)]
  cases rest with
  | nil => rfl
  | cons next more =>
      rw [flashSaveLoop, if_neg]
      rw [refused]
      decide

/-- Wherever the loop ends, it has written the rows that `rowsStored` counts
and left the others alone. -/
theorem flashSaveLoop_savedUpTo (env : Env) (store : Store) {rows : List Row}
    (listed : ∀ row ∈ rows, row ∈ setget)
    (distinct : (rows.filterMap Row.savedId).Nodup) (nvs : Nvs) :
    SavedUpTo env store (rows.take (rowsStored env ⟨store, nvs⟩ rows))
      (rows.drop (rowsStored env ⟨store, nvs⟩ rows)) nvs
      (flashSaveLoop env store rows (0, nvs)).2 := by
  induction rows generalizing nvs with
  | nil => exact savedUpTo_nil [] nvs
  | cons head rest inductionHypothesis =>
      have headListed := listed head List.mem_cons_self
      have listedRest : ∀ row ∈ rest, row ∈ setget :=
        fun row later => listed row (List.mem_cons_of_mem head later)
      have distinctRest : (rest.filterMap Row.savedId).Nodup :=
        distinct.sublist
          ((List.sublist_cons_self head rest).filterMap Row.savedId)
      have elsewhere : ∀ id, head.savedId ≠ some id →
          (flashSaveRow env store (0, nvs) head).2 id = nvs id :=
        fun id different =>
          flashSaveRow_entry_of_ne headListed different (0, nvs)
      have goesOn (proceeds : ¬ Stops env store nvs head) :
          SavedUpTo env store
            ((head :: rest).take (rowsStored env ⟨store, nvs⟩ rest + 1))
            ((head :: rest).drop (rowsStored env ⟨store, nvs⟩ rest + 1)) nvs
            (flashSaveLoop env store (head :: rest) (0, nvs)).2 := by
        obtain ⟨code, written⟩ := flashSaveRow_of_not_stops headListed proceeds
        have next : flashSaveRow env store (0, nvs) head =
            (0, (flashSaveRow env store (0, nvs) head).2) :=
          Prod.ext code rfl
        have saved := inductionHypothesis listedRest distinctRest
          (flashSaveRow env store (0, nvs) head).2
        have sameCount :
            rowsStored env ⟨store, (flashSaveRow env store (0, nvs) head).2⟩
                rest =
              rowsStored env ⟨store, nvs⟩ rest := by
          apply rowsStored_congr
          intro row later isSaved
          obtain ⟨var, targets⟩ :=
            savedVar_of_saved (listedRest row later) isSaved
          exact elsewhere _ (head_savedId_ne distinct later
            (savedId_of_savedVar targets))
        rw [sameCount] at saved
        rw [flashSaveLoop, if_pos (Int.le_refl 0), next, List.take_succ_cons,
          List.drop_succ_cons]
        refine SavedUpTo.cons ?_ written elsewhere saved
        rwa [List.take_append_drop]
      cases targets : head.savedVar with
      | none =>
          simp only [rowsStored, targets]
          refine goesOn ?_
          rintro ⟨var, impossible, _⟩
          rw [targets] at impossible
          cases impossible
      | some var =>
          by_cases fails : BothFail env head
          · have kept : (flashSaveRow env store (0, nvs) head).2 = nvs :=
              flashSaveRow_of_bothFail headListed targets fails (0, nvs)
            have stops : Stops env store nvs head :=
              ⟨var, targets, fails.1, Or.inl fails.2⟩
            rw [flashSaveLoop_of_stops headListed stops, kept]
            simp only [rowsStored, targets, if_pos fails]
            exact savedUpTo_nil _ nvs
          · by_cases late : LateSuccess env ⟨store, nvs⟩ head var
            · have written :
                  (flashSaveRow env store (0, nvs) head).2 head.saveId.code =
                    some (savedBytes env store head var) :=
                flashSaveRow_written headListed targets fails (0, nvs)
              have stops : Stops env store nvs head :=
                ⟨var, targets, late.1, Or.inr late.2.2⟩
              rw [flashSaveLoop_of_stops headListed stops]
              simp only [rowsStored, targets, if_neg fails, if_pos late]
              refine SavedUpTo.cons distinct ?_ elsewhere (savedUpTo_nil rest _)
              intro other same
              obtain rfl := Option.some.inj (targets.symm.trans same)
              exact written
            · simp only [rowsStored, targets, if_neg fails, if_neg late]
              refine goesOn ?_
              rintro ⟨other, same, first, second | stored⟩
              · exact fails ⟨first, second⟩
              · obtain rfl := Option.some.inj (targets.symm.trans same)
                refine late ⟨first, ?_, stored⟩
                rw [← Bool.not_eq_true]
                exact fun second => fails ⟨first, second⟩

end Loop

/-- Whatever fails, and whenever the power is lost, the NVS holds the new bytes
of the rows that `rowsStored` counts and the old entries of all others. -/
theorem flashSaveInterrupted_savedUpTo (env : Env) (device : Device)
    (rows : Nat) :
    SavedUpTo env device.store
      (setget.take (rowsStored env device (setget.take rows)))
      (setget.drop (rowsStored env device (setget.take rows))) device.nvs
      (flashSaveInterrupted env device rows) := by
  have listed : ∀ row ∈ setget.take rows, row ∈ setget :=
    fun row member => List.mem_of_mem_take member
  have distinct : ((setget.take rows).filterMap Row.savedId).Nodup :=
    setget_savedIds_nodup.sublist ((List.take_sublist rows setget).filterMap _)
  have saved :=
    flashSaveLoop_savedUpTo env device.store listed distinct device.nvs
  have few := rowsStored_le env device (setget.take rows)
  generalize rowsStored env device (setget.take rows) = stored at saved few ⊢
  have front : (setget.take rows).take stored = setget.take stored := by
    rw [List.take_take, Nat.min_eq_left]
    exact few.trans (List.length_take_le rows setget)
  have back : setget.drop stored =
      (setget.take rows).drop stored ++ setget.drop rows := by
    conv_lhs => rw [← List.take_append_drop rows setget]
    exact List.drop_append_of_le_length few
  -- No row behind the end has the id of a row in front of it.
  have untargeted : ∀ row ∈ setget.drop rows, ∀ id, row.savedId = some id →
      ∀ other ∈ setget.take rows, other.savedId ≠ some id := by
    intro row behind id rowId other inFront otherId
    have distinctAll := setget_savedIds_nodup
    rw [← List.take_append_drop rows setget, List.filterMap_append,
      List.nodup_append] at distinctAll
    exact distinctAll.2.2 id (List.mem_filterMap.mpr ⟨other, inFront, otherId⟩)
      id (List.mem_filterMap.mpr ⟨row, behind, rowId⟩) rfl
  rw [← front, back]
  refine ⟨saved.written, ?_, ?_⟩
  · intro row member var targets
    rcases List.mem_append.mp member with here | behind
    · exact saved.kept row here var targets
    · apply saved.others
      rw [List.take_append_drop]
      exact untargeted row behind _ (savedId_of_savedVar targets)
  · intro id nowhere
    apply saved.others id
    intro row member
    apply nowhere row
    rw [← List.append_assoc]
    exact List.mem_append_left _ member

end LoraIot.Vars
