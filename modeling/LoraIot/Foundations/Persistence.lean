import LoraIot.Foundations.Runs
import Mathlib.Logic.Function.Basic

/-!
# Values that are saved and loaded

A memory holds a current value under every key, and under some keys a copy
that survives a restart.  Saving copies some of the current values, loading
copies some of the saved values back, and a restart brings the current values
back to the defaults.  Which keys a save or a load gets to is part of the
request, so that an operation which fails half way is a request like any other.
-/

namespace LoraIot.Persistence

open LoraIot.Runs

universe u v

@[ext]
structure Memory (Key : Type u) (Value : Type v) where
  current : Key → Value
  saved : Key → Option Value

inductive Request (Key : Type u) (Value : Type v) where
  | update (key : Key) (change : Value → Value)
  | save (written : Key → Bool)
  | clear
  | load (readable : Key → Bool)
  | restart

variable {Key : Type u} {Value : Type v} [DecidableEq Key]

def fresh (defaults : Key → Value) : Memory Key Value :=
  ⟨defaults, fun _ => none⟩

def perform (defaults : Key → Value) (memory : Memory Key Value) :
    Request Key Value → Memory Key Value
  | .update key change =>
      { memory with
        current :=
          Function.update memory.current key (change (memory.current key)) }
  | .save written =>
      { memory with
        saved := fun key =>
          if written key then some (memory.current key) else memory.saved key }
  | .clear => { memory with saved := fun _ => none }
  | .load readable =>
      { memory with
        current := fun key =>
          if readable key then
            (memory.saved key).getD (memory.current key)
          else
            memory.current key }
  | .restart => { memory with current := defaults }

def step (defaults : Key → Value) (memory : Memory Key Value)
    (request : Request Key Value) : Option (Memory Key Value) :=
  some (perform defaults memory request)

theorem execute_step (defaults : Key → Value) (memory : Memory Key Value)
    (requests : List (Request Key Value)) :
    execute (step defaults) memory requests =
      some (requests.foldl (perform defaults) memory) := by
  induction requests generalizing memory with
  | nil => rfl
  | cons request rest inductionHypothesis =>
      rw [execute_cons, step, Option.bind_some, inductionHypothesis,
        List.foldl_cons]

/-- After a restart and a load that reaches a key, the key has the value that
has been saved, or else the default. -/
theorem current_after_restart (defaults : Key → Value)
    (memory : Memory Key Value) {readable : Key → Bool} {key : Key}
    (reads : readable key = true) :
    ([.restart, .load readable].foldl (perform defaults) memory).current key =
      (memory.saved key).getD (defaults key) := by
  simp only [List.foldl_cons, List.foldl_nil, perform, reads, if_true]

end LoraIot.Persistence
