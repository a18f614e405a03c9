import Mathlib.Data.Option.Basic
import Mathlib.Data.List.Induction

/-!
# Finite runs of a partial step function

A component is a state type, an event type and a step function that answers
`none` when the event is not enabled.  A run is the list of its events.  Side
conditions on a run are conditions on each event in the state in which it is
taken, so that an invariant which only survives well-behaved events still has
one induction rule.
-/

namespace LoraIot.Runs

universe u v

variable {State : Type u} {Event : Type v}

/-- The state a list of events leads to, when every event is enabled. -/
def execute (step : State → Event → Option State) :
    State → List Event → Option State
  | state, [] => some state
  | state, event :: rest =>
      (step state event).bind fun next => execute step next rest

/-- Every event of the run satisfies `condition` in the state in which it is
taken. -/
def Meets (step : State → Event → Option State)
    (condition : State → Event → Prop) : State → List Event → Prop
  | _, [] => True
  | state, event :: rest =>
      condition state event ∧
        ∀ next, step state event = some next →
          Meets step condition next rest

/-- Every state that the run visits has the property. -/
def Visits (step : State → Event → Option State) (property : State → Prop) :
    State → List Event → Prop
  | state, [] => property state
  | state, event :: rest =>
      property state ∧
        ∀ next, step state event = some next → Visits step property next rest

/-- The events of a run, each with the state in which it is taken. -/
def trace (step : State → Event → Option State) :
    State → List Event → List (State × Event)
  | _, [] => []
  | state, event :: rest =>
      (state, event) ::
        match step state event with
        | none => []
        | some next => trace step next rest

variable {step : State → Event → Option State}

instance decidableMeets {condition : State → Event → Prop}
    [∀ state event, Decidable (condition state event)] :
    ∀ state events, Decidable (Meets step condition state events)
  | _, [] => isTrue trivial
  | state, event :: rest =>
      match taken : step state event with
      | none =>
          decidable_of_iff (condition state event)
            ⟨fun here => ⟨here, by simp [taken]⟩, fun both => both.1⟩
      | some next =>
          have : Decidable (Meets step condition next rest) :=
            decidableMeets next rest
          decidable_of_iff
            (condition state event ∧ Meets step condition next rest)
            ⟨fun both => ⟨both.1, by simpa [taken] using both.2⟩,
              fun both => ⟨both.1, both.2 next taken⟩⟩

@[simp]
theorem execute_nil (state : State) :
    execute step state [] = some state := rfl

@[simp]
theorem execute_cons (state : State) (event : Event) (rest : List Event) :
    execute step state (event :: rest) =
      (step state event).bind fun next => execute step next rest := rfl

theorem execute_append (state : State) (first second : List Event) :
    execute step state (first ++ second) =
      (execute step state first).bind fun middle =>
        execute step middle second := by
  induction first generalizing state with
  | nil => rfl
  | cons event rest inductionHypothesis =>
      cases taken : step state event with
      | none => simp [taken]
      | some next => simp [taken, inductionHypothesis next]

theorem execute_concat (state : State) (events : List Event) (event : Event) :
    execute step state (events ++ [event]) =
      (execute step state events).bind fun middle => step middle event := by
  rw [execute_append]
  congr 1
  funext middle
  simp

theorem execute_concat_eq_some
    {state final : State} {events : List Event} {event : Event} :
    execute step state (events ++ [event]) = some final ↔
      ∃ middle, execute step state events = some middle ∧
        step middle event = some final := by
  rw [execute_concat, Option.bind_eq_some_iff]

theorem meets_append
    {condition : State → Event → Prop}
    (state : State) (first second : List Event) :
    Meets step condition state (first ++ second) ↔
      Meets step condition state first ∧
        ∀ middle, execute step state first = some middle →
          Meets step condition middle second := by
  induction first generalizing state with
  | nil => simp [Meets]
  | cons event rest inductionHypothesis =>
      cases taken : step state event with
      | none => simp [Meets, taken]
      | some next =>
          simp [Meets, taken, inductionHypothesis next, and_assoc]

theorem meets_concat
    {condition : State → Event → Prop}
    {state middle : State} {events : List Event} {event : Event}
    (reached : execute step state events = some middle) :
    Meets step condition state (events ++ [event]) ↔
      Meets step condition state events ∧ condition middle event := by
  rw [meets_append]
  simp [reached, Meets]

theorem meets_mono
    {weak strong : State → Event → Prop}
    (implies : ∀ state event, strong state event → weak state event)
    {state : State} {events : List Event}
    (meets : Meets step strong state events) :
    Meets step weak state events := by
  induction events generalizing state with
  | nil => trivial
  | cons event rest inductionHypothesis =>
      exact ⟨implies state event meets.1,
        fun next taken => inductionHypothesis (meets.2 next taken)⟩

theorem meets_and
    {first second : State → Event → Prop}
    {state : State} {events : List Event}
    (meetsFirst : Meets step first state events)
    (meetsSecond : Meets step second state events) :
    Meets step (fun state event => first state event ∧ second state event)
      state events := by
  induction events generalizing state with
  | nil => trivial
  | cons event rest inductionHypothesis =>
      exact ⟨⟨meetsFirst.1, meetsSecond.1⟩, fun next taken =>
        inductionHypothesis (meetsFirst.2 next taken)
          (meetsSecond.2 next taken)⟩

/-- Induction over a run from its start: what holds of the empty run and
survives one more event holds of every run. -/
theorem execute_induction
    {condition : State → Event → Prop}
    {motive : List Event → State → Prop} {start : State}
    (empty : motive [] start)
    (extend : ∀ events state event next,
      motive events state → condition state event →
        step state event = some next → motive (events ++ [event]) next)
    {events : List Event} {final : State}
    (meets : Meets step condition start events)
    (reached : execute step start events = some final) :
    motive events final := by
  induction events using List.reverseRecOn generalizing final with
  | nil =>
      simp only [execute_nil, Option.some.injEq] at reached
      exact reached ▸ empty
  | append_singleton earlier event inductionHypothesis =>
      obtain ⟨middle, reachedMiddle, taken⟩ :=
        execute_concat_eq_some.mp reached
      obtain ⟨meetsEarlier, here⟩ := (meets_concat reachedMiddle).mp meets
      exact extend earlier middle event final
        (inductionHypothesis meetsEarlier reachedMiddle) here taken

theorem trace_concat
    {state middle : State} {events : List Event} {event : Event}
    (reached : execute step state events = some middle) :
    trace step state (events ++ [event]) =
      trace step state events ++ [(middle, event)] := by
  induction events generalizing state with
  | nil =>
      cases reached
      cases taken : step middle event with
      | none => simp [trace, taken]
      | some next => simp [trace, taken]
  | cons first rest inductionHypothesis =>
      obtain ⟨next, taken, reachedRest⟩ :=
        Option.bind_eq_some_iff.mp reached
      simp only [List.cons_append, trace, taken,
        inductionHypothesis reachedRest]

/-- Induction over a run that remembers its trace. -/
theorem trace_induction
    {condition : State → Event → Prop}
    {motive : List (State × Event) → State → Prop} {start : State}
    (empty : motive [] start)
    (extend : ∀ past state event next,
      motive past state → condition state event →
        step state event = some next →
          motive (past ++ [(state, event)]) next)
    {events : List Event} {final : State}
    (meets : Meets step condition start events)
    (reached : execute step start events = some final) :
    motive (trace step start events) final := by
  have both :
      execute step start events = some final ∧
        motive (trace step start events) final := by
    refine execute_induction
      (motive := fun events state =>
        execute step start events = some state ∧
          motive (trace step start events) state)
      ⟨rfl, empty⟩ ?_ meets reached
    intro earlier state event next holds here taken
    obtain ⟨reachedState, soFar⟩ := holds
    refine ⟨execute_concat_eq_some.mpr ⟨state, reachedState, taken⟩, ?_⟩
    rw [trace_concat reachedState]
    exact extend _ state event next soFar here taken
  exact both.2

/-- A predicate that every admissible step preserves holds at the end of
every admissible run. -/
theorem execute_invariant
    {condition : State → Event → Prop} (invariant : State → Prop)
    {start : State}
    (initially : invariant start)
    (preserved : ∀ state event next,
      invariant state → condition state event →
        step state event = some next → invariant next)
    {events : List Event} {final : State}
    (meets : Meets step condition start events)
    (reached : execute step start events = some final) :
    invariant final :=
  execute_induction (motive := fun _ state => invariant state) initially
    (fun _ state event next holds here taken =>
      preserved state event next holds here taken)
    meets reached

/-- What an invariant implies of each event holds of the events of every
admissible run. -/
theorem meets_of_invariant
    {condition outcome : State → Event → Prop} {invariant : State → Prop}
    {start : State}
    (initially : invariant start)
    (preserved : ∀ state event next,
      invariant state → condition state event →
        step state event = some next → invariant next)
    (implies : ∀ state event,
      invariant state → condition state event → outcome state event)
    {events : List Event} (meets : Meets step condition start events) :
    Meets step outcome start events := by
  induction events generalizing start with
  | nil => trivial
  | cons event rest inductionHypothesis =>
      refine ⟨implies start event initially meets.1, fun next taken => ?_⟩
      exact inductionHypothesis
        (preserved start event next initially meets.1 taken)
        (meets.2 next taken)

/-- Two conditions that agree while an invariant holds, which the second of
them keeps, are met by the same runs. -/
theorem meets_iff_meets
    {assumption first second : State → Event → Prop}
    (invariant : State → Prop) {start : State}
    (initially : invariant start)
    (preserved : ∀ state event next,
      invariant state → assumption state event → second state event →
        step state event = some next → invariant next)
    (same : ∀ state event,
      invariant state → (first state event ↔ second state event))
    {events : List Event} (assumed : Meets step assumption start events) :
    Meets step first start events ↔ Meets step second start events := by
  induction events generalizing start with
  | nil => exact Iff.rfl
  | cons event rest inductionHypothesis =>
      simp only [Meets, same start event initially]
      apply and_congr_right
      intro here
      apply forall_congr'
      intro next
      apply forall_congr'
      intro taken
      exact inductionHypothesis
        (preserved start event next initially assumed.1 here taken)
        (assumed.2 next taken)

theorem Visits.start {property : State → Prop} {state : State}
    {events : List Event} (visits : Visits step property state events) :
    property state := by
  cases events with
  | nil => exact visits
  | cons event rest => exact visits.1

/-- What an invariant implies holds of every state that an admissible run
visits. -/
theorem visits_of_invariant
    {condition : State → Event → Prop} {invariant property : State → Prop}
    {start : State}
    (initially : invariant start)
    (preserved : ∀ state event next,
      invariant state → condition state event →
        step state event = some next → invariant next)
    (implies : ∀ state, invariant state → property state)
    {events : List Event} (meets : Meets step condition start events) :
    Visits step property start events := by
  induction events generalizing start with
  | nil => exact implies start initially
  | cons event rest inductionHypothesis =>
      refine ⟨implies start initially, fun next taken => ?_⟩
      exact inductionHypothesis
        (preserved start event next initially meets.1 taken)
        (meets.2 next taken)

/-- When an enabled event keeps a property exactly under a condition, every
state visited has the property exactly when every event meets the
condition. -/
theorem visits_iff_meets
    {property : State → Prop} {condition : State → Event → Prop}
    (enabled : ∀ state event, ∃ next, step state event = some next)
    (kept_iff : ∀ state event next, property state →
      step state event = some next → (property next ↔ condition state event))
    {start : State} (initially : property start) (events : List Event) :
    Visits step property start events ↔ Meets step condition start events := by
  induction events generalizing start with
  | nil => exact iff_of_true initially trivial
  | cons event rest inductionHypothesis =>
      obtain ⟨next, taken⟩ := enabled start event
      have kept := kept_iff start event next initially taken
      simp only [Visits, Meets, initially, true_and, taken,
        Option.some.injEq, forall_eq']
      by_cases holds : condition start event
      · rw [inductionHypothesis (kept.mpr holds)]
        exact ⟨fun meets => ⟨holds, meets⟩, fun both => both.2⟩
      · refine iff_of_false ?_ fun both => holds both.1
        intro visits
        exact holds (kept.mp visits.start)

theorem meets_true (state : State) (events : List Event) :
    Meets step (fun _ _ => True) state events := by
  induction events generalizing state with
  | nil => trivial
  | cons event rest inductionHypothesis =>
      exact ⟨trivial, fun next _ => inductionHypothesis next⟩

theorem meets_of_forall {property : Event → Prop} {events : List Event}
    (all : ∀ event ∈ events, property event) (state : State) :
    Meets step (fun _ event => property event) state events := by
  induction events generalizing state with
  | nil => trivial
  | cons event rest inductionHypothesis =>
      exact ⟨all event List.mem_cons_self, fun next _ =>
        inductionHypothesis
          (fun later member => all later (List.mem_cons_of_mem event member))
          next⟩

end LoraIot.Runs
