import Mathlib.Algebra.BigOperators.Ring.List
import Mathlib.Algebra.Ring.Nat
import LoraIot.Foundations.Runs

/-!
# Costs that a potential pays

Every event of a run has a price, and some events bring an income.  When each
step is paid by its income and by what the potential of the state loses, a
whole run costs at most the potential that it started with and the income on
its way.
-/

namespace LoraIot.Potentials

open LoraIot.Runs

universe u v

variable {State : Type u} {Event : Type v}
  {step : State → Event → Option State}

/-- What the events of a run cost together. -/
def total (step : State → Event → Option State)
    (price : State → Event → Nat) (start : State) (events : List Event) :
    Nat :=
  ((trace step start events).map fun taken => price taken.1 taken.2).sum

theorem total_concat (price : State → Event → Nat) {start middle : State}
    {events : List Event} {event : Event}
    (reached : execute step start events = some middle) :
    total step price start (events ++ [event]) =
      total step price start events + price middle event := by
  rw [total, trace_concat reached, List.map_append, List.sum_append,
    List.map_singleton, List.sum_singleton, total]

/-- A price that the event alone decides is paid once for each event. -/
theorem total_of_event (price : Event → Nat) {start final : State}
    {events : List Event} (reached : execute step start events = some final) :
    total step (fun _ event => price event) start events =
      (events.map price).sum := by
  induction events generalizing start with
  | nil => rfl
  | cons event rest inductionHypothesis =>
      obtain ⟨next, taken, reachedRest⟩ :=
        Option.bind_eq_some_iff.mp reached
      have later := inductionHypothesis reachedRest
      rw [total] at later ⊢
      rw [trace, taken, List.map_cons, List.sum_cons, later, List.map_cons,
        List.sum_cons]

/-- Paying in a smaller unit. -/
theorem total_mul (unit : Nat) (price : State → Event → Nat) (start : State)
    (events : List Event) :
    total step (fun state event => unit * price state event) start events =
      unit * total step price start events := by
  rw [total, total, List.sum_map_mul_left]

/-- A measure that every event raises by its income. -/
theorem add_total {measure : State → Nat} {income : State → Event → Nat}
    (grows : ∀ state event next, step state event = some next →
      measure next = measure state + income state event)
    {start final : State} {events : List Event}
    (reached : execute step start events = some final) :
    measure final = measure start + total step income start events := by
  induction events generalizing start with
  | nil =>
      obtain rfl := Option.some.inj reached
      rfl
  | cons event rest inductionHypothesis =>
      obtain ⟨next, taken, reachedRest⟩ :=
        Option.bind_eq_some_iff.mp reached
      have later := inductionHypothesis reachedRest
      have first := grows start event next taken
      rw [total] at later ⊢
      rw [trace, taken, List.map_cons, List.sum_cons, later, first,
        Nat.add_assoc]

section Covers

variable {condition : State → Event → Prop} {invariant : State → Prop}
  {price income : State → Event → Nat} {potential : State → Nat}

/-- A run costs no more than its potential and its income. -/
theorem total_le {start : State} (initially : invariant start)
    (preserved : ∀ state event next,
      invariant state → condition state event →
        step state event = some next → invariant next)
    (covers : ∀ state event next,
      invariant state → condition state event →
        step state event = some next →
          price state event + potential next ≤
            potential state + income state event)
    {events : List Event} {final : State}
    (meets : Meets step condition start events)
    (reached : execute step start events = some final) :
    total step price start events + potential final ≤
      potential start + total step income start events := by
  have all : execute step start events = some final ∧ invariant final ∧
      total step price start events + potential final ≤
        potential start + total step income start events := by
    refine execute_induction
      (motive := fun events state =>
        execute step start events = some state ∧ invariant state ∧
          total step price start events + potential state ≤
            potential start + total step income start events)
      ⟨rfl, initially, Nat.le_of_eq (Nat.add_comm _ _)⟩ ?_ meets reached
    intro earlier state event next soFar here taken
    obtain ⟨reachedState, holds, paid⟩ := soFar
    refine ⟨execute_concat_eq_some.mpr ⟨state, reachedState, taken⟩,
      preserved state event next holds here taken, ?_⟩
    have pays := covers state event next holds here taken
    rw [total_concat price reachedState, total_concat income reachedState]
    omega
  exact all.2.2

end Covers

/-- What never falls stays below its final value during the whole run. -/
theorem meets_le_final {measure : State → Nat}
    (grows : ∀ state event next,
      step state event = some next → measure state ≤ measure next)
    {start final : State} {events : List Event}
    (reached : execute step start events = some final) :
    measure start ≤ measure final ∧
      Meets step (fun state _ => measure state ≤ measure final) start
        events := by
  induction events generalizing start with
  | nil =>
      obtain rfl := Option.some.inj reached
      exact ⟨Nat.le_refl _, trivial⟩
  | cons event rest inductionHypothesis =>
      obtain ⟨next, taken, reachedRest⟩ :=
        Option.bind_eq_some_iff.mp reached
      obtain ⟨below, later⟩ := inductionHypothesis reachedRest
      have here := Nat.le_trans (grows start event next taken) below
      refine ⟨here, here, fun other takenOther => ?_⟩
      rw [taken] at takenOther
      obtain rfl := Option.some.inj takenOther
      exact later

end LoraIot.Potentials
