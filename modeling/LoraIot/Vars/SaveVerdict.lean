import LoraIot.Vars.FlashLoad

/-!
# What the answer of `flash_save` says

`vars_flash_write` makes a second attempt when the first one fails, and tests
its result with `if (rc)`.  A second attempt that stores changed data answers
the number of bytes, and so it counts as a failure and ends the loop of
`flash_save`.  The answer `1` still is right whenever it is given; the answer
`-1` also comes when every attempt that was needed has succeeded.
-/

namespace LoraIot.Vars

open LoraIot.CStrings LoraIot.Tables

/-- The outcomes of the attempts that `vars_flash_write` makes. -/
def attempts (env : Env) (id : Nat) : List Bool :=
  if env.writeFails id 0 then [false, !env.writeFails id 1] else [true]

/-- The rows that the loop of `flash_save` gets to. -/
def flashSaveReached (env : Env) (store : Store) :
    List Row → Int × Nvs → List Row
  | [], _ => []
  | row :: rest, state =>
      if state.1 ≥ 0 then
        row :: flashSaveReached env store rest
          (flashSaveRow env store state row)
      else
        []

def savedBytes (env : Env) (store : Store) (row : Row) (var : Var) :
    List UInt8 :=
  env.bytes store var (saveCount row.vtype store var)

/-- An attempt to write this row was made and succeeded. -/
def RowWritten (env : Env) (device : Device) (row : Row) : Prop :=
  row ∈ flashSaveReached env device.store setget (0, device.nvs) ∧
    true ∈ attempts env row.saveId.code

/-- The answer `1` means that every saved row was written, and then the NVS
holds the bytes of all of them; the answer `-1` means that both attempts
failed for some row. -/
structure VerdictExact (env : Env) (device : Device) : Prop where
  one_iff : (flashSave env device).1 = ascii "1" ↔
    ∀ row ∈ setget, row.Saved → RowWritten env device row
  stored : (flashSave env device).1 = ascii "1" →
    ∀ row ∈ setget, ∀ var, row.savedVar = some var →
      (flashSave env device).2 row.saveId.code =
        some (savedBytes env device.store row var)
  failed : (flashSave env device).1 = ascii "-1" →
    ∃ row ∈ flashSaveReached env device.store setget (0, device.nvs),
      row.Saved ∧ attempts env row.saveId.code = [false, false]

def BothFail (env : Env) (row : Row) : Prop :=
  env.writeFails row.saveId.code 0 = true ∧
    env.writeFails row.saveId.code 1 = true

/-- The second attempt is the one that stores the bytes of the row, which are
not in the NVS yet. -/
def LateSuccess (env : Env) (device : Device) (row : Row) (var : Var) :
    Prop :=
  env.writeFails row.saveId.code 0 = true ∧
    env.writeFails row.saveId.code 1 = false ∧
    savedBytes env device.store row var ≠ [] ∧
    device.nvs row.saveId.code ≠ some (savedBytes env device.store row var)

/-- In the order of the table, no saved row has a late success before both
attempts have failed for another one. -/
def NoLateSuccess (env : Env) (device : Device) : Prop :=
  ∀ before row after, setget = before ++ row :: after →
    ∀ var, row.savedVar = some var → LateSuccess env device row var →
      ∃ earlier ∈ before, earlier.Saved ∧ BothFail env earlier

section Write

variable {env : Env} {nvs : Nvs} {id : Nat} {bytes : List UInt8}

theorem varsFlashWrite_of_written (written : true ∈ attempts env id) :
    (varsFlashWrite env nvs id bytes).2 =
      Function.update nvs id (some bytes) := by
  cases first : env.writeFails id 0 with
  | false => rw [varsFlashWrite_of_success first]
  | true =>
      have second : env.writeFails id 1 = false := by
        simpa [attempts, first] using written
      have unchanged : nvsWrite true nvs id bytes = (eio, nvs) := rfl
      rw [varsFlashWrite]
      simp only [first, second, unchanged, nvsWrite_snd_self, ite_self,
        apply_ite Prod.snd]
      rw [if_neg (by decide)]

/-- `vars_flash_write` refuses when both attempts fail, and when the second
one stores something. -/
theorem varsFlashWrite_fst :
    (varsFlashWrite env nvs id bytes).1 =
      if env.writeFails id 0 = true ∧
          (env.writeFails id 1 = true ∨ bytes ≠ [] ∧ nvs id ≠ some bytes) then
        -1
      else
        0 := by
  cases first : env.writeFails id 0 with
  | false =>
      rw [varsFlashWrite_of_success first]
      simp
  | true =>
      cases second : env.writeFails id 1 with
      | true => simp [varsFlashWrite, nvsWrite, first, second, eio]
      | false =>
          by_cases stored : nvs id = some bytes
          · simp [varsFlashWrite, nvsWrite, first, second, stored, eio]
          · by_cases empty : bytes = []
            · subst empty
              simp [varsFlashWrite, nvsWrite, first, second, stored, eio]
            · simp [varsFlashWrite, nvsWrite, first, second, stored, empty,
                eio]

end Write

/-- Saving the row ends the loop. -/
def Stops (env : Env) (store : Store) (nvs : Nvs) (row : Row) : Prop :=
  ∃ var, row.savedVar = some var ∧
    env.writeFails row.saveId.code 0 = true ∧
    (env.writeFails row.saveId.code 1 = true ∨
      savedBytes env store row var ≠ [] ∧
        nvs row.saveId.code ≠ some (savedBytes env store row var))

section Row

variable {env : Env} {store : Store} {row : Row}

theorem flashSaveRow_of_saved (listed : row ∈ setget) {var : Var}
    (targets : row.savedVar = some var) (state : Int × Nvs) :
    flashSaveRow env store state row =
      varsFlashWrite env state.2 row.saveId.code
        (savedBytes env store row var) := by
  have notCustom : row.vtype ≠ .custom := by
    rw [savedVar_vtype listed targets]
    exact var.declaration.vtype_ne_custom
  simp only [flashSaveRow, targets, flashSaveVar, if_neg notCustom,
    savedBytes]

theorem flashSaveRow_of_unsaved (unsaved : row.savedVar = none)
    (state : Int × Nvs) : flashSaveRow env store state row = state := by
  simp only [flashSaveRow, unsaved]

theorem flashSaveRow_of_stops (listed : row ∈ setget) {nvs : Nvs}
    (stops : Stops env store nvs row) :
    (flashSaveRow env store (0, nvs) row).1 = -1 := by
  obtain ⟨var, targets, refused⟩ := stops
  rw [flashSaveRow_of_saved listed targets, varsFlashWrite_fst,
    if_pos refused]

theorem written_of_not_stops {nvs : Nvs} {var : Var}
    (goesOn : ¬ Stops env store nvs row)
    (targets : row.savedVar = some var) :
    true ∈ attempts env row.saveId.code := by
  cases first : env.writeFails row.saveId.code 0 with
  | false => simp [attempts, first]
  | true =>
      cases second : env.writeFails row.saveId.code 1 with
      | false => simp [attempts, first, second]
      | true => exact absurd ⟨var, targets, first, Or.inl second⟩ goesOn

/-- A row that does not end the loop keeps the result code at zero, and is in
the NVS afterwards. -/
theorem flashSaveRow_of_not_stops (listed : row ∈ setget) {nvs : Nvs}
    (goesOn : ¬ Stops env store nvs row) :
    (flashSaveRow env store (0, nvs) row).1 = 0 ∧
      ∀ var, row.savedVar = some var →
        (flashSaveRow env store (0, nvs) row).2 row.saveId.code =
          some (savedBytes env store row var) := by
  cases targets : row.savedVar with
  | none =>
      rw [flashSaveRow_of_unsaved targets]
      exact ⟨rfl, by simp⟩
  | some var =>
      have accepted : ¬ (env.writeFails row.saveId.code 0 = true ∧
          (env.writeFails row.saveId.code 1 = true ∨
            savedBytes env store row var ≠ [] ∧
              nvs row.saveId.code ≠
                some (savedBytes env store row var))) :=
        fun refused => goesOn ⟨var, targets, refused⟩
      have written := written_of_not_stops goesOn targets
      rw [flashSaveRow_of_saved listed targets]
      refine ⟨by rw [varsFlashWrite_fst, if_neg accepted], ?_⟩
      intro other same
      cases same
      rw [varsFlashWrite_of_written written]
      exact Function.update_self ..

theorem flashSaveRow_entry_of_ne (listed : row ∈ setget) {id : Nat}
    (elsewhere : row.savedId ≠ some id) (state : Int × Nvs) :
    (flashSaveRow env store state row).2 id = state.2 id := by
  cases targets : row.savedVar with
  | none => rw [flashSaveRow_of_unsaved targets]
  | some var =>
      have different : id ≠ row.saveId.code := by
        intro same
        exact elsewhere (same ▸ savedId_of_savedVar targets)
      rw [flashSaveRow_of_saved listed targets]
      rcases varsFlashWrite_snd env state.2 row.saveId.code
          (savedBytes env store row var) with kept | stored
      · rw [kept]
      · rw [stored]
        exact Function.update_of_ne different ..

theorem stops_congr {nvs other : Nvs}
    (same : row.Saved → other row.saveId.code = nvs row.saveId.code) :
    Stops env store other row ↔ Stops env store nvs row := by
  apply exists_congr
  intro var
  apply and_congr_right
  intro targets
  rw [same (saved_of_savedVar targets)]

end Row

theorem head_savedId_ne {head : Row} {rest : List Row}
    (distinct : ((head :: rest).filterMap Row.savedId).Nodup)
    {row : Row} (later : row ∈ rest) {id : Nat}
    (saved : row.savedId = some id) : head.savedId ≠ some id := by
  intro same
  rw [List.filterMap_cons_some same, List.nodup_cons] at distinct
  exact distinct.1 (List.mem_filterMap.mpr ⟨row, later, saved⟩)

section Loop

variable {env : Env} {store : Store} {rows : List Row}

theorem flashSaveLoop_entry_of_untargeted (listed : ∀ row ∈ rows, row ∈ setget)
    {id : Nat} (untargeted : ∀ row ∈ rows, row.savedId ≠ some id)
    (state : Int × Nvs) :
    (flashSaveLoop env store rows state).2 id = state.2 id := by
  induction rows generalizing state with
  | nil => rfl
  | cons head rest inductionHypothesis =>
      rw [flashSaveLoop]
      split
      · rw [inductionHypothesis
            (fun row later => listed row (List.mem_cons_of_mem head later))
            fun row later => untargeted row (List.mem_cons_of_mem head later)]
        exact flashSaveRow_entry_of_ne (listed head List.mem_cons_self)
          (untargeted head List.mem_cons_self) state
      · rfl

/-- Whether a later row ends the loop does not depend on the head. -/
theorem stops_after_head {head : Row} {rest : List Row}
    (listed : ∀ row ∈ head :: rest, row ∈ setget)
    (distinct : ((head :: rest).filterMap Row.savedId).Nodup)
    {row : Row} (later : row ∈ rest) (state : Int × Nvs) :
    Stops env store (flashSaveRow env store state head).2 row ↔
      Stops env store state.2 row := by
  apply stops_congr
  intro saved
  obtain ⟨var, targets⟩ := savedVar_of_saved
    (listed row (List.mem_cons_of_mem head later)) saved
  have rowId := savedId_of_savedVar targets
  exact flashSaveRow_entry_of_ne (listed head List.mem_cons_self)
    (head_savedId_ne distinct later rowId) state

/-- When no row ends the loop, it gets to all of them and saves them. -/
theorem flashSaveLoop_of_none_stops (listed : ∀ row ∈ rows, row ∈ setget)
    (distinct : (rows.filterMap Row.savedId).Nodup) {nvs : Nvs}
    (goesOn : ∀ row ∈ rows, ¬ Stops env store nvs row) :
    (flashSaveLoop env store rows (0, nvs)).1 = 0 ∧
      flashSaveReached env store rows (0, nvs) = rows ∧
      ∀ row ∈ rows, ∀ var, row.savedVar = some var →
        (flashSaveLoop env store rows (0, nvs)).2 row.saveId.code =
          some (savedBytes env store row var) := by
  induction rows generalizing nvs with
  | nil => exact ⟨rfl, rfl, by simp⟩
  | cons head rest inductionHypothesis =>
      have listedRest : ∀ row ∈ rest, row ∈ setget :=
        fun row later => listed row (List.mem_cons_of_mem head later)
      have distinctRest : (rest.filterMap Row.savedId).Nodup :=
        distinct.sublist
          ((List.sublist_cons_self head rest).filterMap Row.savedId)
      obtain ⟨code, headStored⟩ := flashSaveRow_of_not_stops
        (listed head List.mem_cons_self) (goesOn head List.mem_cons_self)
      have next : flashSaveRow env store (0, nvs) head =
          (0, (flashSaveRow env store (0, nvs) head).2) :=
        Prod.ext code rfl
      have goesOnRest : ∀ row ∈ rest, ¬ Stops env store
          (flashSaveRow env store (0, nvs) head).2 row := by
        intro row later
        rw [stops_after_head listed distinct later]
        exact goesOn row (List.mem_cons_of_mem head later)
      obtain ⟨result, reached, stored⟩ :=
        inductionHypothesis listedRest distinctRest goesOnRest
      rw [flashSaveLoop, flashSaveReached, if_pos (Int.le_refl 0),
        if_pos (Int.le_refl 0), next]
      refine ⟨result, by rw [reached], ?_⟩
      intro row member var targets
      rcases List.mem_cons.mp member with rfl | later
      · have untargeted : ∀ other ∈ rest,
            other.savedId ≠ some row.saveId.code := by
          intro other later same
          exact head_savedId_ne distinct later same
            (savedId_of_savedVar targets)
        rw [flashSaveLoop_entry_of_untargeted listedRest untargeted]
        exact headStored var targets
      · exact stored row later var targets

theorem flashSaveLoop_of_stop {before after : List Row} {row : Row}
    (listed : ∀ other ∈ before ++ row :: after, other ∈ setget)
    (distinct : ((before ++ row :: after).filterMap Row.savedId).Nodup)
    {nvs : Nvs} (goesOn : ∀ earlier ∈ before, ¬ Stops env store nvs earlier)
    (stops : Stops env store nvs row) :
    (flashSaveLoop env store (before ++ row :: after) (0, nvs)).1 = -1 ∧
      flashSaveReached env store (before ++ row :: after) (0, nvs) =
        before ++ [row] := by
  induction before generalizing nvs with
  | nil =>
      have refused := flashSaveRow_of_stops
        (listed row List.mem_cons_self) stops
      have ended : ¬ (flashSaveRow env store (0, nvs) row).1 ≥ 0 := by
        rw [refused]
        decide
      simp only [List.nil_append, flashSaveLoop, flashSaveReached,
        if_pos (Int.le_refl 0)]
      cases after with
      | nil => exact ⟨refused, rfl⟩
      | cons second others =>
          simp only [flashSaveLoop, flashSaveReached, if_neg ended]
          exact ⟨refused, trivial⟩
  | cons head rest inductionHypothesis =>
      have inTail : ∀ other ∈ rest ++ row :: after,
          other ∈ head :: (rest ++ row :: after) :=
        fun other later => List.mem_cons_of_mem head later
      have distinctRest :
          ((rest ++ row :: after).filterMap Row.savedId).Nodup :=
        distinct.sublist
          ((List.sublist_cons_self head _).filterMap Row.savedId)
      obtain ⟨code, _⟩ := flashSaveRow_of_not_stops
        (listed head List.mem_cons_self) (goesOn head List.mem_cons_self)
      have next : flashSaveRow env store (0, nvs) head =
          (0, (flashSaveRow env store (0, nvs) head).2) :=
        Prod.ext code rfl
      have goesOnRest : ∀ earlier ∈ rest, ¬ Stops env store
          (flashSaveRow env store (0, nvs) head).2 earlier := by
        intro earlier later
        rw [stops_after_head listed distinct
          (List.mem_append_left (row :: after) later)]
        exact goesOn earlier (List.mem_cons_of_mem head later)
      have stopsThen : Stops env store
          (flashSaveRow env store (0, nvs) head).2 row := by
        rw [stops_after_head listed distinct
          (List.mem_append_right rest List.mem_cons_self)]
        exact stops
      obtain ⟨result, reached⟩ := inductionHypothesis
        (fun other later => listed other (inTail other later))
        distinctRest goesOnRest stopsThen
      rw [List.cons_append, flashSaveLoop, flashSaveReached,
        if_pos (Int.le_refl 0), if_pos (Int.le_refl 0), next, reached]
      exact ⟨result, rfl⟩

end Loop

/-! ## The verdict -/

section Verdict

variable {env : Env} {device : Device}

theorem one_ne_minusOne : ascii "1" ≠ ascii "-1" := by decide

theorem LateSuccess.stops {row : Row} {var : Var}
    (late : LateSuccess env device row var)
    (targets : row.savedVar = some var) :
    Stops env device.store device.nvs row :=
  ⟨var, targets, late.1, Or.inr late.2.2⟩

theorem BothFail.stops {row : Row} (listed : row ∈ setget)
    (fails : BothFail env row) (saved : row.Saved) :
    Stops env device.store device.nvs row := by
  obtain ⟨var, targets⟩ := savedVar_of_saved listed saved
  exact ⟨var, targets, fails.1, Or.inl fails.2⟩

theorem BothFail.attempts {row : Row} (fails : BothFail env row) :
    attempts env row.saveId.code = [false, false] := by
  simp [Vars.attempts, fails.1, fails.2]

theorem flashSave_of_none_stops
    (goesOn : ∀ row ∈ setget, ¬ Stops env device.store device.nvs row) :
    (flashSave env device).1 = ascii "1" ∧
      flashSaveReached env device.store setget (0, device.nvs) = setget ∧
      ∀ row ∈ setget, ∀ var, row.savedVar = some var →
        (flashSave env device).2 row.saveId.code =
          some (savedBytes env device.store row var) := by
  obtain ⟨code, reached, stored⟩ := flashSaveLoop_of_none_stops
    (fun _ member => member) setget_savedIds_nodup goesOn
  refine ⟨?_, reached, stored⟩
  simp only [flashSave, code]
  rfl

theorem verdictExact_of_none_stops
    (goesOn : ∀ row ∈ setget, ¬ Stops env device.store device.nvs row) :
    VerdictExact env device := by
  obtain ⟨answer, reached, stored⟩ := flashSave_of_none_stops goesOn
  refine ⟨?_, fun _ => stored, ?_⟩
  · refine iff_of_true answer ?_
    intro row listed saved
    obtain ⟨var, targets⟩ := savedVar_of_saved listed saved
    refine ⟨?_, written_of_not_stops (goesOn row listed) targets⟩
    rw [reached]
    exact listed
  · intro negative
    exact absurd (answer.symm.trans negative) one_ne_minusOne

section Stopped

variable {before after : List Row} {row : Row}
  (split : setget = before ++ row :: after)
  (goesOn : ∀ earlier ∈ before, ¬ Stops env device.store device.nvs earlier)
  (stops : Stops env device.store device.nvs row)

include split goesOn stops

theorem flashSave_of_stop :
    (flashSave env device).1 = ascii "-1" ∧
      flashSaveReached env device.store setget (0, device.nvs) =
        before ++ [row] := by
  obtain ⟨code, reached⟩ := flashSaveLoop_of_stop
    (fun other member => split ▸ member) (split ▸ setget_savedIds_nodup)
    goesOn stops
  rw [← split] at code reached
  refine ⟨?_, reached⟩
  simp only [flashSave, code]
  rfl

theorem verdictExact_of_bothFail (fails : BothFail env row) :
    VerdictExact env device := by
  obtain ⟨answer, reached⟩ := flashSave_of_stop split goesOn stops
  have listed : row ∈ setget := by simp [split]
  obtain ⟨var, targets, _⟩ := stops
  have saved := saved_of_savedVar targets
  have notOne : (flashSave env device).1 ≠ ascii "1" := by
    rw [answer]
    exact one_ne_minusOne.symm
  refine ⟨?_, fun one => absurd one notOne, fun _ => ?_⟩
  · refine iff_of_false notOne ?_
    intro all
    have written := (all row listed saved).2
    simp [fails.attempts] at written
  · exact ⟨row, by simp [reached], saved, fails.attempts⟩

theorem not_verdictExact_of_late
    (succeeds : env.writeFails row.saveId.code 1 = false) :
    ¬ VerdictExact env device := by
  intro isExact
  obtain ⟨answer, reached⟩ := flashSave_of_stop split goesOn stops
  obtain ⟨failing, among, saved, outcomes⟩ := isExact.failed answer
  have bothFail : BothFail env failing := by
    cases first : env.writeFails failing.saveId.code 0 with
    | false => simp [attempts, first] at outcomes
    | true => exact ⟨first, by simpa [attempts, first] using outcomes⟩
  rw [reached, List.mem_append, List.mem_singleton] at among
  rcases among with earlier | last
  · have listed : failing ∈ setget := by simp [split, earlier]
    exact goesOn failing earlier (bothFail.stops listed saved)
  · have second := bothFail.2
    rw [last, succeeds] at second
    cases second

end Stopped

theorem flashSave_eq_one_iff (env : Env) (device : Device) :
    (flashSave env device).1 = ascii "1" ↔
      ∀ row ∈ setget, ¬ Stops env device.store device.nvs row := by
  rcases eq_none_or_first (Stops env device.store device.nvs) setget with
    goesOn | found
  · exact iff_of_true (flashSave_of_none_stops goesOn).1 goesOn
  · obtain ⟨before, row, after, split, stops, notEarlier⟩ := found
    obtain ⟨answer, _⟩ := flashSave_of_stop split notEarlier stops
    refine iff_of_false ?_ ?_
    · rw [answer]
      exact one_ne_minusOne.symm
    · intro goesOn
      exact goesOn row (by simp [split]) stops

/-- The verdict of `flash_save` is exact unless it gets to a row whose second
attempt stores changed data. -/
theorem verdictExact_iff (env : Env) (device : Device) :
    VerdictExact env device ↔ NoLateSuccess env device := by
  rcases eq_none_or_first (Stops env device.store device.nvs) setget with
    goesOn | found
  · refine iff_of_true (verdictExact_of_none_stops goesOn) ?_
    intro before row after split var targets late
    have listed : row ∈ setget := by simp [split]
    exact absurd (late.stops targets) (goesOn row listed)
  · obtain ⟨before, row, after, split, stops, goesOn⟩ := found
    obtain ⟨var, targets, first, cause⟩ := stops
    cases second : env.writeFails row.saveId.code 1 with
    | true =>
        have fails : BothFail env row := ⟨first, second⟩
        refine iff_of_true
          (verdictExact_of_bothFail split goesOn
            ⟨var, targets, first, cause⟩ fails) ?_
        intro before' other after' otherSplit otherVar otherTargets late
        have different : other ≠ row := by
          intro same
          have succeeds := late.2.1
          rw [same, second] at succeeds
          cases succeeds
        refine ⟨row, ?_, saved_of_savedVar targets, fails⟩
        exact mem_of_first (split.symm.trans otherSplit) goesOn
          (late.stops otherTargets) different
    | false =>
        refine iff_of_false
          (not_verdictExact_of_late split goesOn
            ⟨var, targets, first, cause⟩ second) ?_
        intro noLate
        have changed := cause.resolve_left (by simp [second])
        obtain ⟨earlier, isEarlier, saved, fails⟩ := noLate before row after
          split var targets ⟨first, second, changed⟩
        have listed : earlier ∈ setget := by simp [split, isEarlier]
        exact goesOn earlier isEarlier (fails.stops listed saved)

/-- Nothing is stored yet and the first attempt to write `devid` fails.  Every
row that `flash_save` gets to is written, and it answers `-1`. -/
theorem flashSave_verdict_not_exact :
    ¬ ∀ (env : Env) (device : Device), VerdictExact env device := by
  intro always
  let env : Env :=
    { Env.quiet with
      writeFails := fun id attempt => id == 1 && attempt == 0 }
  obtain ⟨row, _, _, outcomes⟩ :=
    (always env ⟨Store.initial, fun _ => none⟩).failed (by decide)
  cases first : env.writeFails row.saveId.code 0 with
  | false => simp [attempts, first] at outcomes
  | true =>
      have second : env.writeFails row.saveId.code 1 = false := by
        simp [env]
      simp [attempts, first, second] at outcomes

end Verdict

end LoraIot.Vars
