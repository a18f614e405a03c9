import Mathlib.Data.List.Basic
import Mathlib.Data.List.Induction

/-!
# Messages sent in pieces over a shared line

Several writers send messages over one line, each message as one or more
pieces.  A line is framed when it is a concatenation of whole messages, with at
most one unfinished message at its end.  `parse` decides this from left to
right and remembers whose message is open.
-/

namespace LoraIot.Framing

universe u v

/-- A piece of a message: who sent it, and whether it opens or closes a
message. -/
structure Piece (Writer : Type u) (Content : Type v) where
  writer : Writer
  content : Content
  opens : Bool
  closes : Bool
  deriving DecidableEq, Repr

variable {Writer : Type u} {Content : Type v}

def Middle (writer : Writer) (pieces : List (Piece Writer Content)) : Prop :=
  ∀ piece ∈ pieces,
    piece.writer = writer ∧ piece.opens = false ∧ piece.closes = false

def Unfinished (writer : Writer) (pieces : List (Piece Writer Content)) :
    Prop :=
  ∃ head middle, pieces = head :: middle ∧ head.writer = writer ∧
    head.opens = true ∧ head.closes = false ∧ Middle writer middle

/-- What is left of the message that is open. -/
def Remainder (rest : List (Piece Writer Content)) : Option Writer → Prop
  | none => rest = []
  | some writer => Unfinished writer rest

/-- A message of one piece, or a started message and its last piece. -/
def Whole (pieces : List (Piece Writer Content)) : Prop :=
  (∃ piece, pieces = [piece] ∧ piece.opens = true ∧ piece.closes = true) ∨
    ∃ start last, pieces = start ++ [last] ∧ Unfinished last.writer start ∧
      last.opens = false ∧ last.closes = true

/-- The line consists of whole messages and at most one unfinished message at
its end. -/
def Framed (line : List (Piece Writer Content)) : Prop :=
  ∃ messages : List (List (Piece Writer Content)), ∃ rest,
    line = messages.flatten ++ rest ∧
    (∀ message ∈ messages, Whole message) ∧
    (rest = [] ∨ ∃ writer, Unfinished writer rest)

variable [DecidableEq Writer]

/-- Whose message is open after one more piece, if the piece fits. -/
def advance (current : Option Writer) (piece : Piece Writer Content) :
    Option (Option Writer) :=
  let following := if piece.closes then none else some piece.writer
  match current with
  | none => if piece.opens then some following else none
  | some writer =>
      if piece.writer = writer ∧ piece.opens = false then
        some following
      else
        none

/-- Whose message is open at the end of a framed line. -/
def parseFrom (current : Option Writer) :
    List (Piece Writer Content) → Option (Option Writer)
  | [] => some current
  | piece :: rest =>
      (advance current piece).bind fun following => parseFrom following rest

def parse (line : List (Piece Writer Content)) : Option (Option Writer) :=
  parseFrom none line

theorem parseFrom_append (current : Option Writer)
    (first second : List (Piece Writer Content)) :
    parseFrom current (first ++ second) =
      (parseFrom current first).bind fun middle =>
        parseFrom middle second := by
  induction first generalizing current with
  | nil => rfl
  | cons piece rest inductionHypothesis =>
      cases fits : advance current piece with
      | none => simp [parseFrom, fits]
      | some following =>
          simp [parseFrom, fits, inductionHypothesis following]

@[simp]
theorem parse_nil : parse ([] : List (Piece Writer Content)) = some none :=
  rfl

theorem parse_concat (line : List (Piece Writer Content))
    (piece : Piece Writer Content) :
    parse (line ++ [piece]) =
      (parse line).bind fun current => advance current piece := by
  rw [parse, parseFrom_append]
  congr 1
  funext current
  simp [parseFrom]

theorem parseFrom_middle {writer : Writer}
    {pieces : List (Piece Writer Content)} (middle : Middle writer pieces) :
    parseFrom (some writer) pieces = some (some writer) := by
  induction pieces with
  | nil => rfl
  | cons piece rest inductionHypothesis =>
      obtain ⟨sameWriter, continues, stays⟩ :=
        middle piece List.mem_cons_self
      have later := inductionHypothesis fun other member =>
        middle other (List.mem_cons_of_mem piece member)
      simpa [parseFrom, advance, sameWriter, continues, stays] using later

theorem Unfinished.parseFrom {writer : Writer}
    {pieces : List (Piece Writer Content)}
    (unfinished : Unfinished writer pieces) :
    Framing.parseFrom none pieces = some (some writer) := by
  obtain ⟨head, rest, rfl, rfl, isOpen, notClosed, middle⟩ := unfinished
  simpa [Framing.parseFrom, advance, isOpen, notClosed] using
    parseFrom_middle middle

theorem Whole.parseFrom {pieces : List (Piece Writer Content)}
    (whole : Whole pieces) :
    Framing.parseFrom none pieces = some none := by
  rcases whole with ⟨piece, rfl, isOpen, isClosed⟩ |
    ⟨start, last, rfl, unfinished, continues, isClosed⟩
  · simp [Framing.parseFrom, advance, isOpen, isClosed]
  · rw [parseFrom_append, unfinished.parseFrom]
    simp [Framing.parseFrom, advance, continues, isClosed]

theorem parseFrom_flatten {messages : List (List (Piece Writer Content))}
    (whole : ∀ message ∈ messages, Whole message) :
    parseFrom (none : Option Writer) messages.flatten = some none := by
  induction messages with
  | nil => rfl
  | cons message rest inductionHypothesis =>
      have here := (whole message List.mem_cons_self).parseFrom
      have later := inductionHypothesis fun other member =>
        whole other (List.mem_cons_of_mem message member)
      rw [List.flatten_cons, parseFrom_append, here]
      exact later

theorem exists_messages {line : List (Piece Writer Content)}
    {current : Option Writer} (parsed : parse line = some current) :
    ∃ messages : List (List (Piece Writer Content)), ∃ rest,
      line = messages.flatten ++ rest ∧
      (∀ message ∈ messages, Whole message) ∧ Remainder rest current := by
  induction line using List.reverseRecOn generalizing current with
  | nil =>
      cases parsed
      exact ⟨[], [], rfl, fun _ member => absurd member List.not_mem_nil, rfl⟩
  | append_singleton line piece inductionHypothesis =>
      rw [parse_concat, Option.bind_eq_some_iff] at parsed
      obtain ⟨before, parsedBefore, fits⟩ := parsed
      obtain ⟨messages, rest, rfl, whole, atEnd⟩ :=
        inductionHypothesis parsedBefore
      cases before with
      | none =>
          -- No message was open, so the piece opens one.
          obtain rfl : rest = [] := atEnd
          simp only [advance] at fits
          split at fits
          · rename_i isOpen
            obtain rfl := Option.some.inj fits
            by_cases isClosed : piece.closes = true
            · rw [if_pos isClosed]
              refine ⟨messages ++ [[piece]], [], by simp, ?_, rfl⟩
              intro message member
              rcases List.mem_append.mp member with earlier | here
              · exact whole message earlier
              · obtain rfl := List.mem_singleton.mp here
                exact Or.inl ⟨piece, rfl, isOpen, isClosed⟩
            · rw [if_neg isClosed]
              refine ⟨messages, [piece], by simp, whole, ?_⟩
              exact ⟨piece, [], rfl, rfl, isOpen, by simpa using isClosed,
                by simp [Middle]⟩
          · cases fits
      | some writer =>
          -- The piece belongs to the message that was open.
          simp only [advance] at fits
          split at fits
          · rename_i belongs
            obtain ⟨rfl, continues⟩ := belongs
            obtain rfl := Option.some.inj fits
            by_cases isClosed : piece.closes = true
            · rw [if_pos isClosed]
              refine ⟨messages ++ [rest ++ [piece]], [], by simp, ?_, rfl⟩
              intro message member
              rcases List.mem_append.mp member with earlier | here
              · exact whole message earlier
              · obtain rfl := List.mem_singleton.mp here
                exact Or.inr ⟨rest, piece, rfl, atEnd, continues, isClosed⟩
            · rw [if_neg isClosed]
              refine ⟨messages, rest ++ [piece], by simp, whole, ?_⟩
              obtain ⟨head, middle, rfl, sameWriter, isOpen, notClosed,
                inMiddle⟩ := atEnd
              refine ⟨head, middle ++ [piece], rfl, sameWriter, isOpen,
                notClosed, ?_⟩
              intro other member
              rcases List.mem_append.mp member with earlier | here
              · exact inMiddle other earlier
              · obtain rfl := List.mem_singleton.mp here
                exact ⟨rfl, continues, by simpa using isClosed⟩
          · cases fits

/-- A line is framed exactly when it parses. -/
theorem framed_iff (line : List (Piece Writer Content)) :
    Framed line ↔ ∃ current, parse line = some current := by
  constructor
  · intro framed
    obtain ⟨messages, rest, rfl, whole, atEnd⟩ := framed
    rcases atEnd with nothing | ⟨writer, unfinished⟩
    · subst nothing
      exact ⟨none, by rw [List.append_nil, parse, parseFrom_flatten whole]⟩
    · refine ⟨some writer, ?_⟩
      rw [parse, parseFrom_append, parseFrom_flatten whole]
      exact unfinished.parseFrom
  · intro parses
    obtain ⟨current, parsed⟩ := parses
    obtain ⟨messages, rest, split, whole, atEnd⟩ := exists_messages parsed
    cases current with
    | none => exact ⟨messages, rest, split, whole, Or.inl atEnd⟩
    | some writer =>
        exact ⟨messages, rest, split, whole, Or.inr ⟨writer, atEnd⟩⟩

end LoraIot.Framing
