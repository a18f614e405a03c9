import Mathlib.Data.List.Nodup

/-!
# Loops over a table whose rows own their cells

A loop runs over the rows of a table and changes a state.  `Local` says that
handling a row changes at most the cell the row targets, and that cell as a
function of its old contents.  When no two rows target one cell, the whole
loop changes each targeted cell once, whatever the order of the rows.  What
every row may overwrite, in contrast, is in the end as the last row left it.
-/

namespace LoraIot.Tables

universe u v w x

variable {State : Type u} {Row : Type v} {Index : Type w} {Cell : Type x}

/-- Handling a row changes the cell it targets by `change`, and no other. -/
structure Local (look : State → Index → Cell) (step : State → Row → State)
    (target : Row → Option Index) (change : Row → Cell → Cell) : Prop where
  hit : ∀ state row index, target row = some index →
    look (step state row) index = change row (look state index)
  miss : ∀ state row index, target row ≠ some index →
    look (step state row) index = look state index

variable {look : State → Index → Cell} {step : State → Row → State}
  {target : Row → Option Index} {change : Row → Cell → Cell}

theorem eq_of_target_eq {rows : List Row}
    (distinct : (rows.filterMap target).Nodup) {row other : Row}
    (listed : row ∈ rows) (otherListed : other ∈ rows) {index : Index}
    (targets : target row = some index)
    (otherTargets : target other = some index) : row = other := by
  induction rows with
  | nil => simp at listed
  | cons head rest inductionHypothesis =>
      have restDistinct : (rest.filterMap target).Nodup :=
        distinct.sublist ((List.sublist_cons_self head rest).filterMap target)
      -- No later row targets the cell of the head.
      have headOnly : ∀ later ∈ rest, target head = some index →
          target later ≠ some index := by
        intro later member headTargets same
        rw [List.filterMap_cons_some headTargets, List.nodup_cons] at distinct
        exact distinct.1 (List.mem_filterMap.mpr ⟨later, member, same⟩)
      rcases List.mem_cons.mp listed with rfl | later
      · rcases List.mem_cons.mp otherListed with rfl | otherLater
        · rfl
        · exact absurd otherTargets (headOnly other otherLater targets)
      · rcases List.mem_cons.mp otherListed with rfl | otherLater
        · exact absurd targets (headOnly row later otherTargets)
        · exact inductionHypothesis restDistinct later otherLater

theorem eq_none_or_first (property : Row → Prop) (rows : List Row) :
    (∀ row ∈ rows, ¬ property row) ∨
      ∃ before row after, rows = before ++ row :: after ∧ property row ∧
        ∀ earlier ∈ before, ¬ property earlier := by
  induction rows with
  | nil => exact Or.inl (by simp)
  | cons head rest inductionHypothesis =>
      by_cases here : property head
      · exact Or.inr ⟨[], head, rest, rfl, here, by simp⟩
      · rcases inductionHypothesis with absent | found
        · exact Or.inl (by simpa [here] using absent)
        · obtain ⟨before, row, after, rfl, holds, notEarlier⟩ := found
          exact Or.inr
            ⟨head :: before, row, after, rfl, holds, by simpa [here]⟩

theorem mem_of_first {property : Row → Prop}
    {before after before' after' : List Row} {row other : Row}
    (same : before ++ row :: after = before' ++ other :: after')
    (notEarlier : ∀ earlier ∈ before, ¬ property earlier)
    (holds : property other) (different : other ≠ row) : row ∈ before' := by
  rcases List.append_eq_append_iff.mp same with
    ⟨between, rfl, tail⟩ | ⟨between, rfl, tail⟩
  · cases between with
    | nil =>
        rw [List.nil_append, List.cons.injEq] at tail
        exact absurd tail.1.symm different
    | cons first more =>
        rw [List.cons_append, List.cons.injEq] at tail
        rw [tail.1]
        exact List.mem_append_right before List.mem_cons_self
  · cases between with
    | nil =>
        rw [List.nil_append, List.cons.injEq] at tail
        exact absurd tail.1 different
    | cons first more =>
        rw [List.cons_append, List.cons.injEq] at tail
        refine absurd holds (notEarlier other ?_)
        rw [tail.1]
        exact List.mem_append_right before' List.mem_cons_self

/-- A cell that no row targets survives the loop. -/
theorem Local.foldl_miss (isLocal : Local look step target change)
    {rows : List Row} {index : Index}
    (untargeted : ∀ row ∈ rows, target row ≠ some index) (state : State) :
    look (rows.foldl step state) index = look state index := by
  induction rows generalizing state with
  | nil => rfl
  | cons row rest inductionHypothesis =>
      rw [List.foldl_cons, inductionHypothesis fun other member =>
        untargeted other (List.mem_cons_of_mem row member)]
      exact isLocal.miss state row index (untargeted row List.mem_cons_self)

/-- A cell that one row targets is changed once. -/
theorem Local.foldl_hit (isLocal : Local look step target change)
    {rows : List Row} (distinct : (rows.filterMap target).Nodup)
    {row : Row} {index : Index} (listed : row ∈ rows)
    (targets : target row = some index) (state : State) :
    look (rows.foldl step state) index = change row (look state index) := by
  induction rows generalizing state with
  | nil => simp at listed
  | cons head rest inductionHypothesis =>
      rw [List.foldl_cons]
      rcases List.mem_cons.mp listed with rfl | later
      · -- The row itself comes first: no later row targets its cell.
        rw [List.filterMap_cons_some targets, List.nodup_cons] at distinct
        rw [isLocal.foldl_miss, isLocal.hit state row index targets]
        intro other member same
        exact distinct.1 (List.mem_filterMap.mpr ⟨other, member, same⟩)
      · have headElsewhere : target head ≠ some index := by
          intro same
          rw [List.filterMap_cons_some same, List.nodup_cons] at distinct
          exact distinct.1 (List.mem_filterMap.mpr ⟨row, later, targets⟩)
        have restDistinct : (rest.filterMap target).Nodup :=
          distinct.sublist ((List.sublist_cons_self head rest).filterMap target)
        rw [inductionHypothesis restDistinct later,
          isLocal.miss state head index headElsewhere]

/-- A register that some rows overwrite holds, after the loop, what the last
of these rows left in it. -/
theorem foldl_overwritten {Value : Type x} {register : State → Value}
    {overwrite : Row → Option Value} {rows : List Row}
    (hit : ∀ row ∈ rows, ∀ value, overwrite row = some value →
      ∀ state, register (step state row) = value)
    (miss : ∀ row ∈ rows, overwrite row = none →
      ∀ state, register (step state row) = register state)
    (state : State) :
    register (rows.foldl step state) =
      (rows.filterMap overwrite).getLastD (register state) := by
  induction rows generalizing state with
  | nil => rfl
  | cons row rest inductionHypothesis =>
      rw [List.foldl_cons, inductionHypothesis
        (fun other later => hit other (List.mem_cons_of_mem row later))
        fun other later => miss other (List.mem_cons_of_mem row later)]
      cases written : overwrite row with
      | none =>
          rw [List.filterMap_cons_none written,
            miss row List.mem_cons_self written]
      | some value =>
          rw [List.filterMap_cons_some written, List.getLastD_cons,
            hit row List.mem_cons_self value written]

end LoraIot.Tables
