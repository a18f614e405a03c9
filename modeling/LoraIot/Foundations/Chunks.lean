import Mathlib.Data.List.Basic
import Mathlib.Data.List.Induction

/-!
# Streams that arrive in chunks

A reader feeds the bytes of a chunk to its state and refreshes the state after
each chunk.  A state is settled when refreshing does not change it.  Reading
byte by byte refreshes after every byte, and is what the reader would do if the
stream were not cut into chunks at all.

A run over chunks is prompt when every byte is fed in a settled state.  Prompt
runs do not depend on the chunks, and a run is prompt exactly when every byte
that leaves the state unsettled ends its chunk.  A log that tells feeding from
refreshing shows whether a run was prompt.
-/

namespace LoraIot.Chunks

universe u v

variable {State : Type u} {Byte : Type v}

section Definitions

variable (feed : State → Byte → State) (refresh : State → State)

def Settled (state : State) : Prop := refresh state = state

def readByte (state : State) (byte : Byte) : State :=
  refresh (feed state byte)

def readChunk (state : State) (chunk : List Byte) : State :=
  refresh (chunk.foldl feed state)

/-- Every byte of the chunk is fed in a settled state. -/
def FedSettled : State → List Byte → Prop
  | _, [] => True
  | state, byte :: rest =>
      Settled refresh state ∧ FedSettled (feed state byte) rest

def Prompt : State → List (List Byte) → Prop
  | _, [] => True
  | state, chunk :: rest =>
      FedSettled feed refresh state chunk ∧
        Prompt (readChunk feed refresh state chunk) rest

/-- Every byte that leaves the state unsettled when the stream is read byte by
byte is the last of its chunk or of the stream. -/
def UnsettlingBytesEndChunks (state : State) (chunks : List (List Byte)) :
    Prop :=
  ∀ before byte after, chunks.flatten = before ++ byte :: after →
    after ≠ [] →
      ¬ Settled refresh
          (feed (before.foldl (readByte feed refresh) state) byte) →
        ∃ early late, chunks = early ++ late ∧
          early.flatten = before ++ [byte]

end Definitions

variable {feed : State → Byte → State} {refresh : State → State}

theorem fedSettled_append (state : State) (first second : List Byte) :
    FedSettled feed refresh state (first ++ second) ↔
      FedSettled feed refresh state first ∧
        FedSettled feed refresh (first.foldl feed state) second := by
  induction first generalizing state with
  | nil => simp [FedSettled]
  | cons byte rest inductionHypothesis =>
      simp only [List.cons_append, FedSettled, List.foldl_cons,
        inductionHypothesis, and_assoc]

/-- A chunk whose bytes are fed in settled states is read as its bytes. -/
theorem refresh_foldl_feed {state : State} {chunk : List Byte}
    (fed : FedSettled feed refresh state chunk) :
    refresh (chunk.foldl feed state) =
      chunk.foldl (readByte feed refresh) (refresh state) := by
  induction chunk generalizing state with
  | nil => rfl
  | cons byte rest inductionHypothesis =>
      obtain ⟨settled, fedRest⟩ := fed
      rw [List.foldl_cons, inductionHypothesis fedRest, List.foldl_cons,
        readByte, settled]

section Settled

variable {state : State} (settled : Settled refresh state)
  {chunk : List Byte} (fed : FedSettled feed refresh state chunk)

include settled

include fed in
theorem readChunk_eq :
    readChunk feed refresh state chunk =
      chunk.foldl (readByte feed refresh) state := by
  rw [readChunk, refresh_foldl_feed fed, settled]

include fed in
/-- In front of a byte that is fed in a settled state, feeding has not differed
from reading byte by byte. -/
theorem foldl_feed_of_fedSettled {before after : List Byte} {byte : Byte}
    (split : chunk = before ++ byte :: after) :
    before.foldl feed state =
        before.foldl (readByte feed refresh) state ∧
      Settled refresh (before.foldl feed state) := by
  rw [split, fedSettled_append, FedSettled] at fed
  obtain ⟨fedBefore, here, _⟩ := fed
  have read := refresh_foldl_feed fedBefore
  rw [here, settled] at read
  exact ⟨read, here⟩

/-- Bytes that do not unsettle the state are fed in settled states. -/
theorem fedSettled_of_settled_after
    (keeps : ∀ before byte after, chunk = before ++ byte :: after →
      after ≠ [] →
        Settled refresh
          (feed (before.foldl (readByte feed refresh) state) byte)) :
    FedSettled feed refresh state chunk := by
  induction chunk generalizing state with
  | nil => trivial
  | cons byte rest inductionHypothesis =>
      refine ⟨settled, ?_⟩
      cases rest with
      | nil => trivial
      | cons second more =>
          have next : Settled refresh (feed state byte) :=
            keeps [] byte (second :: more) rfl (List.cons_ne_nil _ _)
          refine inductionHypothesis next ?_
          intro before later after split remains
          have whole := keeps (byte :: before) later after
            (by rw [split]; rfl) remains
          rw [List.foldl_cons, readByte, next] at whole
          exact whole

end Settled

/-! ## A run over chunks -/

theorem flatten_singletons (stream : List Byte) :
    (stream.map fun byte => [byte]).flatten = stream := by
  rw [← List.flatMap_def, List.flatMap_singleton']

theorem foldl_readChunk_singletons (state : State) (stream : List Byte) :
    (stream.map fun byte => [byte]).foldl (readChunk feed refresh) state =
      stream.foldl (readByte feed refresh) state := by
  rw [List.foldl_map]
  rfl

theorem prompt_append (state : State) (first second : List (List Byte)) :
    Prompt feed refresh state (first ++ second) ↔
      Prompt feed refresh state first ∧
        Prompt feed refresh (first.foldl (readChunk feed refresh) state)
          second := by
  induction first generalizing state with
  | nil => simp [Prompt]
  | cons chunk rest inductionHypothesis =>
      simp only [List.cons_append, Prompt, List.foldl_cons,
        inductionHypothesis, and_assoc]

section Run

variable (idempotent : ∀ state, Settled refresh (refresh state))

include idempotent

/-- A prompt run over chunks is the run over their bytes. -/
theorem Prompt.foldl_readChunk {state : State}
    (settled : Settled refresh state) {chunks : List (List Byte)}
    (prompt : Prompt feed refresh state chunks) :
    chunks.foldl (readChunk feed refresh) state =
      chunks.flatten.foldl (readByte feed refresh) state := by
  induction chunks generalizing state with
  | nil => rfl
  | cons chunk rest inductionHypothesis =>
      obtain ⟨fed, promptRest⟩ := prompt
      have next : Settled refresh (readChunk feed refresh state chunk) :=
        idempotent _
      rw [List.foldl_cons, inductionHypothesis next promptRest,
        List.flatten_cons, List.foldl_append, readChunk_eq settled fed]

theorem Prompt.unsettlingBytesEndChunks {state : State}
    (settled : Settled refresh state) {chunks : List (List Byte)}
    (prompt : Prompt feed refresh state chunks) :
    UnsettlingBytesEndChunks feed refresh state chunks := by
  induction chunks generalizing state with
  | nil =>
      intro before byte after split
      simp at split
  | cons chunk rest inductionHypothesis =>
      obtain ⟨fed, promptRest⟩ := prompt
      have later := inductionHypothesis (idempotent _) promptRest
      intro before byte after split remains unsettles
      rw [List.flatten_cons] at split
      -- The byte lies in a later chunk, or it lies in this one.
      have inside : ∀ between, before = chunk ++ between →
          rest.flatten = between ++ byte :: after →
            ∃ early late, chunk :: rest = early ++ late ∧
              early.flatten = before ++ [byte] := by
        intro between isBefore splitRest
        rw [isBefore, List.foldl_append, ← readChunk_eq settled fed]
          at unsettles
        obtain ⟨early, late, splitChunks, flat⟩ :=
          later between byte after splitRest remains unsettles
        refine ⟨chunk :: early, late, by rw [splitChunks]; rfl, ?_⟩
        rw [List.flatten_cons, flat, isBefore, List.append_assoc]
      rcases List.append_eq_append_iff.mp split with
        ⟨between, isBefore, splitRest⟩ | ⟨between, splitChunk, tail⟩
      · exact inside between isBefore splitRest
      · cases between with
        | nil =>
            rw [List.append_nil] at splitChunk
            exact inside [] (by rw [splitChunk, List.append_nil]) tail.symm
        | cons first more =>
            rw [List.cons_append, List.cons.injEq] at tail
            obtain ⟨rfl, isAfter⟩ := tail
            cases more with
            | nil =>
                exact ⟨[chunk], rest, rfl, by
                  rw [List.flatten_singleton, splitChunk]⟩
            | cons second others =>
                -- The next byte of the chunk was fed in a settled state.
                obtain ⟨same, _⟩ := foldl_feed_of_fedSettled settled fed
                  splitChunk
                have next : chunk = (before ++ [byte]) ++ second :: others :=
                  by rw [splitChunk, List.append_assoc]; rfl
                obtain ⟨_, here⟩ := foldl_feed_of_fedSettled settled fed next
                rw [List.foldl_append, same] at here
                exact absurd here unsettles

theorem prompt_of_unsettlingBytesEndChunks {state : State}
    (settled : Settled refresh state) {chunks : List (List Byte)}
    (nonempty : ∀ chunk ∈ chunks, chunk ≠ [])
    (ends : UnsettlingBytesEndChunks feed refresh state chunks) :
    Prompt feed refresh state chunks := by
  induction chunks generalizing state with
  | nil => trivial
  | cons chunk rest inductionHypothesis =>
      have fed : FedSettled feed refresh state chunk := by
        apply fedSettled_of_settled_after settled
        intro before byte after split remains
        by_contra unsettles
        have whole : (chunk :: rest).flatten =
            before ++ byte :: (after ++ rest.flatten) := by
          rw [List.flatten_cons, split, List.append_assoc, List.cons_append]
        obtain ⟨early, late, splitChunks, flat⟩ := ends before byte
          (after ++ rest.flatten) whole (List.append_ne_nil_of_left_ne_nil
            remains _) unsettles
        cases early with
        | nil => simp at flat
        | cons first others =>
            -- The first chunk is longer than what should end at its boundary.
            rw [List.cons_append, List.cons.injEq] at splitChunks
            have lengths := congrArg List.length flat
            rw [← splitChunks.1, split] at lengths
            have positive := List.length_pos_iff.mpr remains
            simp only [List.flatten_cons, List.length_append,
              List.length_cons, List.length_nil] at lengths
            omega
      refine ⟨fed, ?_⟩
      refine inductionHypothesis (idempotent _)
        (fun later member => nonempty later (List.mem_cons_of_mem chunk member))
        ?_
      intro before byte after split remains unsettles
      rw [readChunk_eq settled fed, ← List.foldl_append] at unsettles
      have whole : (chunk :: rest).flatten =
          (chunk ++ before) ++ byte :: after := by
        rw [List.flatten_cons, split, List.append_assoc]
      obtain ⟨early, late, splitChunks, flat⟩ :=
        ends (chunk ++ before) byte after whole remains unsettles
      cases early with
      | nil => simp at flat
      | cons first others =>
          rw [List.cons_append, List.cons.injEq] at splitChunks
          obtain ⟨rfl, splitRest⟩ := splitChunks
          refine ⟨others, late, splitRest, ?_⟩
          rw [List.flatten_cons, List.append_assoc] at flat
          exact List.append_cancel_left flat

theorem prompt_iff {state : State} (settled : Settled refresh state)
    {chunks : List (List Byte)} (nonempty : ∀ chunk ∈ chunks, chunk ≠ []) :
    Prompt feed refresh state chunks ↔
      UnsettlingBytesEndChunks feed refresh state chunks :=
  ⟨fun prompt => prompt.unsettlingBytesEndChunks idempotent settled,
    prompt_of_unsettlingBytesEndChunks idempotent settled nonempty⟩

end Run

section Log

variable {Entry : Type*} {log : State → List Entry} {fromFeed : Entry → Prop}

/-- Feeding a byte and refreshing an unsettled state each append one entry to
the log, and the entry tells which of the two it was. -/
structure Logged (feed : State → Byte → State) (refresh : State → State)
    (log : State → List Entry) (fromFeed : Entry → Prop) : Prop where
  feed : ∀ state byte, ∃ entry,
    log (feed state byte) = log state ++ [entry] ∧ fromFeed entry
  refresh : ∀ state, ¬ Settled refresh state → ∃ entry,
    log (refresh state) = log state ++ [entry] ∧ ¬ fromFeed entry

theorem log_prefix_foldl {Item : Type*} {act : State → Item → State}
    (grows : ∀ state item, log state <+: log (act state item))
    (items : List Item) (state : State) :
    log state <+: log (items.foldl act state) := by
  induction items generalizing state with
  | nil => exact List.prefix_refl _
  | cons item rest inductionHypothesis =>
      exact (grows state item).trans (inductionHypothesis (act state item))

section Grows

variable (logged : Logged feed refresh log fromFeed)

include logged

theorem Logged.prefix_feed (state : State) (byte : Byte) :
    log state <+: log (feed state byte) := by
  obtain ⟨entry, appended, _⟩ := logged.feed state byte
  exact ⟨[entry], appended.symm⟩

theorem Logged.prefix_refresh (state : State) :
    log state <+: log (refresh state) := by
  by_cases settled : Settled refresh state
  · have same : log (refresh state) = log state := congrArg log settled
    exact ⟨[], by rw [same, List.append_nil]⟩
  · obtain ⟨entry, appended, _⟩ := logged.refresh state settled
    exact ⟨[entry], appended.symm⟩

theorem Logged.prefix_readByte (state : State) (byte : Byte) :
    log state <+: log (readByte feed refresh state byte) :=
  (logged.prefix_feed state byte).trans (logged.prefix_refresh _)

theorem Logged.prefix_readChunk (state : State) (chunk : List Byte) :
    log state <+: log (readChunk feed refresh state chunk) :=
  (log_prefix_foldl logged.prefix_feed chunk state).trans
    (logged.prefix_refresh _)

end Grows

/-- The first byte that is not fed in a settled state. -/
theorem exists_first_unsettled {state : State} {chunk : List Byte}
    (notFed : ¬ FedSettled feed refresh state chunk) :
    ∃ before byte after, chunk = before ++ byte :: after ∧
      FedSettled feed refresh state before ∧
        ¬ Settled refresh (before.foldl feed state) := by
  induction chunk generalizing state with
  | nil => exact absurd trivial notFed
  | cons byte rest inductionHypothesis =>
      by_cases settled : Settled refresh state
      · have later : ¬ FedSettled feed refresh (feed state byte) rest :=
          fun fed => notFed ⟨settled, fed⟩
        obtain ⟨before, other, after, split, fed, unsettled⟩ :=
          inductionHypothesis later
        exact ⟨byte :: before, other, after, by rw [split]; rfl,
          ⟨settled, fed⟩, unsettled⟩
      · exact ⟨[], byte, rest, rfl, trivial, settled⟩

/-- A run over chunks leaves the log of the run over their bytes only when it
is prompt. -/
theorem prompt_iff_log_eq
    (idempotent : ∀ state, Settled refresh (refresh state))
    (logged : Logged feed refresh log fromFeed) {state : State}
    (settled : Settled refresh state) (chunks : List (List Byte)) :
    Prompt feed refresh state chunks ↔
      log (chunks.foldl (readChunk feed refresh) state) =
        log (chunks.flatten.foldl (readByte feed refresh) state) := by
  constructor
  · intro prompt
    rw [prompt.foldl_readChunk idempotent settled]
  · intro sameLog
    induction chunks generalizing state with
    | nil => trivial
    | cons chunk rest inductionHypothesis =>
        by_cases fed : FedSettled feed refresh state chunk
        · refine ⟨fed, inductionHypothesis (idempotent _) ?_⟩
          rw [List.foldl_cons, List.flatten_cons, List.foldl_append,
            ← readChunk_eq settled fed] at sameLog
          exact sameLog
        · obtain ⟨before, byte, after, split, fedBefore, unsettled⟩ :=
            exists_first_unsettled fed
          -- One run feeds the byte here, the other one refreshes first.
          have refreshed := refresh_foldl_feed fedBefore
          rw [settled] at refreshed
          obtain ⟨fedEntry, fedLog, isFeed⟩ :=
            logged.feed (before.foldl feed state) byte
          obtain ⟨refreshEntry, refreshLog, notFeed⟩ :=
            logged.refresh _ unsettled
          have inChunks :
              log (before.foldl feed state) ++ [fedEntry] <+:
                log ((chunk :: rest).foldl (readChunk feed refresh) state) := by
            rw [← fedLog, List.foldl_cons, readChunk, split,
              List.foldl_append, List.foldl_cons]
            refine (log_prefix_foldl logged.prefix_feed after _).trans ?_
            refine (logged.prefix_refresh _).trans ?_
            exact log_prefix_foldl logged.prefix_readChunk rest _
          have inBytes :
              log (before.foldl feed state) ++ [refreshEntry] <+:
                log ((chunk :: rest).flatten.foldl (readByte feed refresh)
                  state) := by
            rw [← refreshLog, refreshed, List.flatten_cons, split,
              List.append_assoc, List.foldl_append]
            exact log_prefix_foldl logged.prefix_readByte _ _
          rw [sameLog] at inChunks
          have sameLength :
              (log (before.foldl feed state) ++ [fedEntry]).length =
                (log (before.foldl feed state) ++ [refreshEntry]).length := by
            simp
          have same := (List.prefix_of_prefix_length_le inChunks inBytes
            (Nat.le_of_eq sameLength)).eq_of_length sameLength
          have sameEntry : fedEntry = refreshEntry := by
            simpa using List.append_cancel_left same
          rw [sameEntry] at isFeed
          exact absurd isFeed notFeed

end Log

end LoraIot.Chunks
