import Mathlib.Data.List.Basic
import Mathlib.Data.List.Infix

/-!
# Lines of a stream

A stream of symbols is read line by line, where every line ends with a
terminator.  Lines without the terminator in them are read back as they were
written, and what has been read of a stream stays when more of it arrives.
-/

namespace LoraIot.Records

universe u

variable {Symbol : Type u} [DecidableEq Symbol]

/-- The lines of a stream that have ended, without their terminators. -/
def lines (terminator : Symbol) : List Symbol → List (List Symbol)
  | [] => []
  | symbol :: rest =>
      if symbol = terminator then
        [] :: lines terminator rest
      else
        (lines terminator rest).modifyHead (symbol :: ·)

variable {terminator : Symbol}

theorem lines_append {line : List Symbol} (whole : terminator ∉ line)
    (rest : List Symbol) :
    lines terminator (line ++ terminator :: rest) =
      line :: lines terminator rest := by
  induction line with
  | nil => simp [lines]
  | cons symbol more inductionHypothesis =>
      rw [List.mem_cons, not_or] at whole
      obtain ⟨different, wholeRest⟩ := whole
      rw [List.cons_append, lines, if_neg (Ne.symm different),
        inductionHypothesis wholeRest]
      rfl

theorem lines_flatMap {written : List (List Symbol)}
    (whole : ∀ line ∈ written, terminator ∉ line) (rest : List Symbol) :
    lines terminator
        ((written.flatMap fun line => line ++ [terminator]) ++ rest) =
      written ++ lines terminator rest := by
  induction written with
  | nil => rfl
  | cons line more inductionHypothesis =>
      have later := inductionHypothesis fun other member =>
        whole other (List.mem_cons_of_mem line member)
      rw [List.flatMap_cons, List.append_assoc, List.append_assoc,
        List.singleton_append, lines_append (whole line List.mem_cons_self),
        later, List.cons_append]

/-- What has been read stays when more arrives. -/
theorem lines_mono {stream longer : List Symbol}
    (starts : stream <+: longer) :
    lines terminator stream <+: lines terminator longer := by
  induction stream generalizing longer with
  | nil => exact List.nil_prefix
  | cons symbol rest inductionHypothesis =>
      obtain ⟨more, rfl⟩ := starts
      have later :
          lines terminator rest <+: lines terminator (rest ++ more) :=
        inductionHypothesis (List.prefix_append rest more)
      rw [List.cons_append, lines, lines]
      split
      · exact (List.prefix_cons_inj []).mpr later
      · obtain ⟨further, longer⟩ := later
        rw [← longer]
        cases lines terminator rest with
        | nil => exact List.nil_prefix
        | cons line others => exact List.prefix_append _ _

end LoraIot.Records
