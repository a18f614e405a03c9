import Mathlib.Data.List.Basic

/-!
# Past-time statements about a log

A log grows at its end.  `Since holds broken log` says that some entry of the
log made `holds` true, given what had been logged before it, and that no later
entry was `broken`.  Its one recursion equation is about appending an entry,
which is how every step of a logged system changes its log.
-/

namespace LoraIot.History

universe u

variable {Entry : Type u}

/-- Some entry started `holds` and no later entry was `broken`. -/
def Since (holds : List Entry → Entry → Prop) (broken : Entry → Prop)
    (log : List Entry) : Prop :=
  ∃ before entry after,
    log = before ++ entry :: after ∧ holds before entry ∧
      ∀ later ∈ after, ¬ broken later

variable {holds : List Entry → Entry → Prop} {broken : Entry → Prop}

@[simp]
theorem not_since_nil : ¬ Since holds broken [] := by
  intro since
  obtain ⟨before, entry, after, equality, _⟩ := since
  simp at equality

@[simp]
theorem since_concat (log : List Entry) (last : Entry) :
    Since holds broken (log ++ [last]) ↔
      holds log last ∨ (Since holds broken log ∧ ¬ broken last) := by
  constructor
  · intro since
    obtain ⟨before, entry, after, equality, started, unbroken⟩ := since
    rcases List.eq_nil_or_concat after with rfl | ⟨middle, final, rfl⟩
    · obtain ⟨rfl, same⟩ := List.append_inj' equality rfl
      cases same
      exact Or.inl started
    · have split :
          log ++ [last] = (before ++ entry :: middle) ++ [final] := by
        simpa using equality
      obtain ⟨rfl, same⟩ := List.append_inj' split rfl
      cases same
      refine Or.inr ⟨⟨before, entry, middle, rfl, started, ?_⟩, ?_⟩
      · intro later member
        exact unbroken later (by simp [member])
      · exact unbroken last (by simp)
  · rintro (started | ⟨⟨before, entry, after, rfl, started, unbroken⟩, kept⟩)
    · exact ⟨log, last, [], rfl, started, by simp⟩
    · refine ⟨before, entry, after ++ [last], by simp, started, ?_⟩
      intro later member
      rcases List.mem_append.mp member with inside | atEnd
      · exact unbroken later inside
      · rw [List.mem_singleton.mp atEnd]
        exact kept

end LoraIot.History
