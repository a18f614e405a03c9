import LoraIot.Foundations.Runs

/-!
# Simulations between two systems

A simulation relates the states of a detailed system to those of an abstract
one, and answers every step of the detailed system by a list of events of the
abstract one: none for a step that the abstract system does not see, several
for a step that does several things at once.  Step by step, a run of the
detailed system becomes a run of the abstract one.
-/

namespace LoraIot.Simulations

open LoraIot.Runs

universe u v w x

variable {State : Type u} {Event : Type v}
  {Abstract : Type w} {Request : Type x}

/-- Every step that meets the condition is answered by a run of the abstract
system that leads to a related state. -/
def Simulates (step : State → Event → Option State)
    (condition : State → Event → Prop)
    (abstractStep : Abstract → Request → Option Abstract)
    (answer : State → Event → List Request)
    (related : State → Abstract → Prop) : Prop :=
  ∀ state event next abstract,
    related state abstract → condition state event →
      step state event = some next →
        ∃ abstractNext,
          execute abstractStep abstract (answer state event) =
            some abstractNext ∧
          related next abstractNext

def answers (step : State → Event → Option State)
    (answer : State → Event → List Request) (start : State)
    (events : List Event) : List Request :=
  (trace step start events).flatMap fun taken => answer taken.1 taken.2

variable {step : State → Event → Option State}
  {condition : State → Event → Prop}
  {abstractStep : Abstract → Request → Option Abstract}
  {answer : State → Event → List Request}
  {related : State → Abstract → Prop}

theorem answers_concat {start middle : State} {events : List Event}
    {event : Event} (reached : execute step start events = some middle) :
    answers step answer start (events ++ [event]) =
      answers step answer start events ++ answer middle event := by
  rw [answers, trace_concat reached, List.flatMap_append]
  simp [answers]

/-- What every step under the condition guarantees of its requests holds of all
requests of a run. -/
theorem forall_mem_answers {property : Request → Prop}
    (guarantees : ∀ state event, condition state event →
      ∀ request ∈ answer state event, property request)
    {start : State} {events : List Event}
    (meets : Meets step condition start events) :
    ∀ request ∈ answers step answer start events, property request := by
  induction events generalizing start with
  | nil => exact fun _ impossible => absurd impossible List.not_mem_nil
  | cons event rest inductionHypothesis =>
      intro request member
      rw [answers, trace, List.flatMap_cons, List.mem_append] at member
      rcases member with here | later
      · exact guarantees start event meets.1 request here
      · cases taken : step start event with
        | none =>
            rw [taken] at later
            cases later
        | some next =>
            rw [taken] at later
            exact inductionHypothesis (meets.2 next taken) request later

/-- A run of the detailed system is a run of the abstract one. -/
theorem Simulates.execute
    (simulates :
      Simulates step condition abstractStep answer related)
    {start : State} {abstractStart : Abstract}
    (initially : related start abstractStart)
    {events : List Event} {final : State}
    (meets : Meets step condition start events)
    (reached : Runs.execute step start events = some final) :
    ∃ abstractFinal,
      Runs.execute abstractStep abstractStart
          (answers step answer start events) = some abstractFinal ∧
        related final abstractFinal := by
  have both :
      Runs.execute step start events = some final ∧
        ∃ abstractFinal,
          Runs.execute abstractStep abstractStart
              (answers step answer start events) = some abstractFinal ∧
            related final abstractFinal := by
    refine execute_induction
      (motive := fun events state =>
        Runs.execute step start events = some state ∧
          ∃ abstractState,
            Runs.execute abstractStep abstractStart
                (answers step answer start events) = some abstractState ∧
              related state abstractState)
      ⟨rfl, abstractStart, rfl, initially⟩ ?_ meets reached
    intro earlier state event next soFar here taken
    obtain ⟨reachedState, abstractState, abstractReached, holds⟩ := soFar
    obtain ⟨abstractNext, answered, holdsNext⟩ :=
      simulates state event next abstractState holds here taken
    refine ⟨execute_concat_eq_some.mpr ⟨state, reachedState, taken⟩,
      abstractNext, ?_, holdsNext⟩
    rw [answers_concat reachedState, execute_append, abstractReached]
    exact answered
  exact both.2

theorem Simulates.meets
    (simulates :
      Simulates step condition abstractStep answer related)
    {abstractCondition : Abstract → Request → Prop}
    (obeys : ∀ state event abstract,
      related state abstract → condition state event →
        Meets abstractStep abstractCondition abstract (answer state event))
    {start : State} {abstractStart : Abstract}
    (initially : related start abstractStart)
    {events : List Event} {final : State}
    (meets : Meets step condition start events)
    (reached : Runs.execute step start events = some final) :
    Meets abstractStep abstractCondition abstractStart
      (answers step answer start events) := by
  have all :
      Runs.execute step start events = some final ∧
        Meets step condition start events ∧
          Meets abstractStep abstractCondition abstractStart
            (answers step answer start events) := by
    refine execute_induction
      (motive := fun events state =>
        Runs.execute step start events = some state ∧
          Meets step condition start events ∧
            Meets abstractStep abstractCondition abstractStart
              (answers step answer start events))
      ⟨rfl, trivial, trivial⟩ ?_ meets reached
    intro earlier state event next soFar here taken
    obtain ⟨reachedState, meetsEarlier, obeysEarlier⟩ := soFar
    obtain ⟨abstractState, abstractReached, holds⟩ :=
      simulates.execute initially meetsEarlier reachedState
    refine ⟨execute_concat_eq_some.mpr ⟨state, reachedState, taken⟩,
      (meets_concat reachedState).mpr ⟨meetsEarlier, here⟩, ?_⟩
    rw [answers_concat reachedState, meets_append]
    refine ⟨obeysEarlier, fun other reachedOther => ?_⟩
    rw [abstractReached] at reachedOther
    obtain rfl := Option.some.inj reachedOther
    exact obeys state event abstractState holds here
  exact all.2.2

end LoraIot.Simulations
