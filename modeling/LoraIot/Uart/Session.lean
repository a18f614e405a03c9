import LoraIot.Uart.Thread
import LoraIot.Vars.FlashLoad

/-!
# Handling input as it was meant

A session is what the UART thread is for, without chunks and without the
pointer `api`: each byte is handled by the interface that `var_binary` selects,
and a byte that makes it select the other interface is followed by the
initialisation of that interface.

The thread selects the interface in front of each `tty_read` only.  It carries
out a session when every byte that switches the interface is the last of its
chunk; a byte behind it in the same chunk still goes to the old interface.
-/

namespace LoraIot.Uart

open LoraIot.CStrings LoraIot.Vars LoraIot.Chunks

universe u

structure Session (Modem : Type u) where
  modem : Modem
  device : Device

variable {Modem : Type u}

namespace Session

variable (env : Env) (interfaces : Interfaces Modem)

def start (modem : Modem) (device : Device) : Session Modem :=
  ⟨interfaces.init (selected device) modem, device⟩

def handle (session : Session Modem) (byte : UInt8) : Session Modem :=
  let result :=
    interfaces.processByte (selected session.device) session.modem byte
  ⟨result.1, result.2.foldl (setBinary env) session.device⟩

/-- The byte makes `var_binary` select the other interface. -/
def Switches (session : Session Modem) (byte : UInt8) : Prop :=
  selected (session.handle env interfaces byte).device ≠
    selected session.device

instance (session : Session Modem) (byte : UInt8) :
    Decidable (session.Switches env interfaces byte) :=
  inferInstanceAs (Decidable (_ ≠ _))

def next (session : Session Modem) (byte : UInt8) : Session Modem :=
  let handled := session.handle env interfaces byte
  if session.Switches env interfaces byte then
    start interfaces handled.modem handled.device
  else
    handled

def callsOf (session : Session Modem) (byte : UInt8) : List Call :=
  .processByte (some (selected session.device)) byte ::
    if session.Switches env interfaces byte then
      [.init (selected (session.handle env interfaces byte).device)]
    else
      []

def calls : Session Modem → List UInt8 → List Call
  | _, [] => []
  | session, byte :: rest =>
      session.callsOf env interfaces byte ++
        calls (session.next env interfaces byte) rest

/-- Every byte of the stream that switches the interface is the last of its
chunk or of the stream. -/
def SwitchesEndChunks (session : Session Modem)
    (chunks : List (List UInt8)) : Prop :=
  ∀ before byte after, chunks.flatten = before ++ byte :: after →
    after ≠ [] →
      (before.foldl (next env interfaces) session).Switches env interfaces
          byte →
        ∃ early late, chunks = early ++ late ∧
          early.flatten = before ++ [byte]

/-- No byte of the stream but the last one switches the interface. -/
def OnlyLastSwitches (session : Session Modem) (stream : List UInt8) :
    Prop :=
  ∀ before byte after, stream = before ++ byte :: after → after ≠ [] →
    ¬ (before.foldl (next env interfaces) session).Switches env interfaces
        byte

end Session

/-- The thread in front of `tty_read` is in the state of the session. -/
structure Represents (thread : Thread Modem) (session : Session Modem) :
    Prop where
  api : thread.api = some (selected session.device)
  modem : thread.modem = session.modem
  device : thread.device = session.device

section Represents

variable (env : Env) (interfaces : Interfaces Modem)

theorem represents_boot (modem : Modem) (device : Device) :
    Represents (selectInterface env interfaces (.boot modem device))
      (.start interfaces modem device) where
  api := rfl
  modem := rfl
  device := rfl

theorem calls_boot (modem : Modem) (device : Device) :
    (selectInterface env interfaces (.boot modem device)).calls =
      [.init (selected device)] :=
  rfl

variable {thread : Thread Modem} {session : Session Modem}
  (represents : Represents thread session)

include represents

theorem Represents.settled :
    Settled (selectInterface env interfaces) thread := by
  rw [settled_iff, represents.device]
  exact represents.api

theorem Represents.after_processByte (byte : UInt8) :
    (processByte env interfaces thread byte).api =
        some (selected session.device) ∧
      (processByte env interfaces thread byte).modem =
          (session.handle env interfaces byte).modem ∧
        (processByte env interfaces thread byte).device =
          (session.handle env interfaces byte).device := by
  simp only [processByte, Session.handle, represents.api,
    represents.modem, represents.device]
  exact ⟨trivial, trivial, trivial⟩

theorem Represents.settled_processByte_iff (byte : UInt8) :
    Settled (selectInterface env interfaces)
        (processByte env interfaces thread byte) ↔
      ¬ session.Switches env interfaces byte := by
  obtain ⟨api, _, device⟩ :=
    represents.after_processByte env interfaces byte
  rw [settled_iff, api, device, Option.some.injEq, Session.Switches,
    not_not, eq_comm]

theorem Represents.readByte (byte : UInt8) :
    Represents
        (readByte (processByte env interfaces)
          (selectInterface env interfaces) thread byte)
        (session.next env interfaces byte) ∧
      (readByte (processByte env interfaces)
          (selectInterface env interfaces) thread byte).calls =
        thread.calls ++ session.callsOf env interfaces byte := by
  obtain ⟨api, modem, device⟩ :=
    represents.after_processByte env interfaces byte
  have processed :
      (processByte env interfaces thread byte).calls =
        thread.calls ++
          [.processByte (some (selected session.device)) byte] := by
    rw [← represents.api, Thread.calls, processByte, List.map_append]
    rfl
  by_cases switches : session.Switches env interfaces byte
  · have different :
        some (selected (processByte env interfaces thread byte).device) ≠
          (processByte env interfaces thread byte).api := by
      rw [api, device, ne_eq, Option.some.injEq]
      exact switches
    rw [Chunks.readByte, selectInterface, if_pos different, Session.next,
      if_pos switches]
    refine ⟨⟨?_, ?_, device⟩, ?_⟩
    · dsimp only
      rw [device]
      rfl
    · dsimp only
      rw [device, modem]
      rfl
    · rw [Session.callsOf, if_pos switches, Thread.calls, List.map_append,
        ← Thread.calls, processed, device, List.append_assoc]
      rfl
  · have settled :=
      (represents.settled_processByte_iff env interfaces byte).mpr switches
    rw [Chunks.readByte, settled, Session.next, if_neg switches]
    refine ⟨⟨?_, modem, device⟩, ?_⟩
    · rw [api, ← not_not.mp switches]
    · rw [Session.callsOf, if_neg switches, processed]

theorem Represents.foldl_readByte (stream : List UInt8) :
    Represents
        (stream.foldl
          (Chunks.readByte (processByte env interfaces)
            (selectInterface env interfaces)) thread)
        (stream.foldl (Session.next env interfaces) session) ∧
      (stream.foldl
          (Chunks.readByte (processByte env interfaces)
            (selectInterface env interfaces)) thread).calls =
        thread.calls ++ session.calls env interfaces stream := by
  induction stream generalizing thread session with
  | nil => exact ⟨represents, (List.append_nil _).symm⟩
  | cons byte rest inductionHypothesis =>
      obtain ⟨next, byteCalls⟩ := represents.readByte env interfaces byte
      obtain ⟨final, restCalls⟩ := inductionHypothesis next
      refine ⟨final, ?_⟩
      rw [List.foldl_cons, restCalls, byteCalls, Session.calls,
        List.append_assoc]

/-- The bytes that leave the thread unsettled are the ones that switch the
interface. -/
theorem Represents.unsettlingBytesEndChunks_iff
    (chunks : List (List UInt8)) :
    UnsettlingBytesEndChunks (processByte env interfaces)
        (selectInterface env interfaces) thread chunks ↔
      session.SwitchesEndChunks env interfaces chunks := by
  have same (before : List UInt8) (byte : UInt8) :=
    (represents.foldl_readByte env interfaces
      before).1.settled_processByte_iff env interfaces byte
  simp only [UnsettlingBytesEndChunks, Session.SwitchesEndChunks, same,
    not_not]

end Represents

/-! ## Chunks -/

section Splits

variable {stream : List UInt8} {chunks first second : List (List UInt8)}

theorem Splits.ne_nil (splits : Splits stream chunks) :
    ∀ chunk ∈ chunks, chunk ≠ [] := by
  intro chunk member isEmpty
  have size := (splits.size chunk member).1
  rw [isEmpty] at size
  exact absurd size (by decide)

variable (env : Env) (interfaces : Interfaces Modem) (modem : Modem)
  (device : Device)

/-- When no byte but the last one switches the interface, it does not matter
where the chunks end. -/
theorem Splits.switchesEndChunks {env : Env} {interfaces : Interfaces Modem}
    {session : Session Modem} (splits : Splits stream chunks)
    (onlyLast : session.OnlyLastSwitches env interfaces stream) :
    session.SwitchesEndChunks env interfaces chunks := by
  intro before byte after split remains switches
  rw [splits.flatten] at split
  exact absurd switches (onlyLast before byte after split remains)

/-- The selected interface handles every byte exactly when every byte that
switches the interface ends its chunk. -/
theorem uartThread_handledBySelected_iff (splits : Splits stream chunks) :
    (uartThread env interfaces (.boot modem device)
        chunks).HandledBySelected ↔
      (Session.start interfaces modem device).SwitchesEndChunks env
        interfaces chunks := by
  have represents := represents_boot env interfaces modem device
  have atStart :
      (selectInterface env interfaces
        (.boot modem device)).HandledBySelected := by
    rw [selectInterface_handledBySelected]
    exact fun entry absent => absurd absent List.not_mem_nil
  rw [uartThread_eq, foldl_handledBySelected, and_iff_right atStart,
    prompt_iff selectInterface_settled
      (represents.settled env interfaces) splits.ne_nil,
    represents.unsettlingBytesEndChunks_iff]

/-- When every byte that switches the interface ends its chunk, the thread
makes the calls of a session. -/
theorem uartThread_calls (splits : Splits stream chunks)
    (ends : (Session.start interfaces modem device).SwitchesEndChunks env
      interfaces chunks) :
    (uartThread env interfaces (.boot modem device) chunks).calls =
      .init (selected device) ::
        (Session.start interfaces modem device).calls env interfaces
          stream := by
  have represents := represents_boot env interfaces modem device
  have settled := represents.settled env interfaces
  rw [← represents.unsettlingBytesEndChunks_iff env interfaces,
    ← prompt_iff selectInterface_settled settled splits.ne_nil] at ends
  rw [uartThread_eq,
    ends.foldl_readChunk selectInterface_settled settled, splits.flatten,
    (represents.foldl_readByte env interfaces stream).2, calls_boot]
  rfl

/-- Two ways to split a stream are handled alike, and every byte by the
selected interface, exactly when in both of them every byte that switches the
interface is the last of its chunk or of the stream. -/
theorem uartThread_sameHandling_iff (firstSplits : Splits stream first)
    (secondSplits : Splits stream second) :
    SameHandling (uartThread env interfaces (.boot modem device) first)
        (uartThread env interfaces (.boot modem device) second) ↔
      (Session.start interfaces modem device).SwitchesEndChunks env interfaces
          first ∧
        (Session.start interfaces modem device).SwitchesEndChunks env
          interfaces second := by
  rw [← uartThread_handledBySelected_iff env interfaces modem device
      firstSplits,
    ← uartThread_handledBySelected_iff env interfaces modem device
      secondSplits]
  constructor
  · exact fun same => ⟨same.firstSelected, same.secondSelected⟩
  · intro both
    refine ⟨?_, both.1, both.2⟩
    rw [uartThread_handledBySelected_iff env interfaces modem device
        firstSplits,
      uartThread_handledBySelected_iff env interfaces modem device
        secondSplits] at both
    rw [uartThread_calls env interfaces modem device firstSplits both.1,
      uartThread_calls env interfaces modem device secondSplits both.2]

theorem splits_singletons (stream : List UInt8) :
    Splits stream (stream.map fun byte => [byte]) where
  flatten := flatten_singletons stream
  size chunk member := by
    obtain ⟨byte, _, rfl⟩ := List.mem_map.mp member
    rw [List.length_singleton]
    decide

/-- All ways to split a stream lead to the same calls exactly when no byte but
the last one switches the interface. -/
theorem uartThread_calls_agree_iff (stream : List UInt8) :
    (∀ first second, Splits stream first → Splits stream second →
        (uartThread env interfaces (.boot modem device) first).calls =
          (uartThread env interfaces (.boot modem device) second).calls) ↔
      (Session.start interfaces modem device).OnlyLastSwitches env interfaces
        stream := by
  have represents := represents_boot env interfaces modem device
  constructor
  · intro agree before byte after split remains switches
    cases after with
    | nil => exact remains rfl
    | cons later rest =>
        -- Only the switching byte and the byte behind it share a chunk.
        let joined : List (List UInt8) :=
          (before.map fun single => [single]) ++
            [byte, later] :: rest.map fun single => [single]
        have flat : joined.flatten = stream := by
          simp [joined, split, flatten_singletons]
        have joinedSplits : Splits stream joined := by
          refine ⟨flat, ?_⟩
          intro chunk member
          have sizes : chunk.length = 1 ∨ chunk.length = 2 := by
            simp only [joined, List.mem_append, List.mem_cons,
              List.mem_map] at member
            rcases member with ⟨_, _, rfl⟩ | rfl | ⟨_, _, rfl⟩
            · exact Or.inl rfl
            · exact Or.inr rfl
            · exact Or.inl rfl
          omega
        have sameCalls := agree joined _ joinedSplits
          (splits_singletons stream)
        rw [uartThread_eq, uartThread_eq, foldl_readChunk_singletons, ← flat,
          ← prompt_iff_log_eq selectInterface_settled calls_logged
            (represents.settled env interfaces), prompt_append,
          foldl_readChunk_singletons] at sameCalls
        have here := sameCalls.2.1.2.1
        rw [(represents.foldl_readByte env interfaces
          before).1.settled_processByte_iff] at here
        exact here switches
  · intro onlyLast first second firstSplits secondSplits
    rw [uartThread_calls env interfaces modem device firstSplits
        (firstSplits.switchesEndChunks onlyLast),
      uartThread_calls env interfaces modem device secondSplits
        (secondSplits.switchesEndChunks onlyLast)]

end Splits

/-- Interfaces on which a line feed is the command that sets `binary`. -/
def lineFeedSetsBinary : Interfaces Unit where
  init _ modem := modem
  processByte _ modem byte :=
    (modem, if byte = 10 then [some (ascii "1")] else [])

/-- A command at the end of the stream is handled alike however it arrives. -/
theorem uartThread_sameHandling_command :
    SameHandling
      (uartThread Env.quiet lineFeedSetsBinary
        (.boot () ⟨Store.initial, fun _ => none⟩) [[65, 10]])
      (uartThread Env.quiet lineFeedSetsBinary
        (.boot () ⟨Store.initial, fun _ => none⟩) [[65], [10]]) := by
  have together : Splits [65, 10] [[65, 10]] := ⟨rfl, by decide⟩
  have apart : Splits [65, 10] [[65], [10]] := ⟨rfl, by decide⟩
  have onlyLast :
      (Session.start lineFeedSetsBinary ()
        ⟨Store.initial, fun _ => none⟩).OnlyLastSwitches Env.quiet
          lineFeedSetsBinary [65, 10] := by
    intro before byte after split remains
    cases before with
    | nil =>
        cases split
        decide
    | cons first rest =>
        have positive := List.length_pos_iff.mpr remains
        have lengths := congrArg List.length split
        simp only [List.length_cons, List.length_append,
          List.length_nil] at lengths
        omega
  exact (uartThread_sameHandling_iff Env.quiet lineFeedSetsBinary ()
    ⟨Store.initial, fun _ => none⟩ together apart).mpr
      ⟨together.switchesEndChunks onlyLast, apart.switchesEndChunks onlyLast⟩

/-- A byte that arrives together with the command goes to the old interface, a
byte that arrives after it to the new one. -/
theorem uartThread_not_sameHandling :
    ¬ ∀ (Modem : Type) (env : Env) (interfaces : Interfaces Modem)
      (modem : Modem) (device : Device) (stream : List UInt8)
      (first second : List (List UInt8)),
      Splits stream first → Splits stream second →
        SameHandling (uartThread env interfaces (.boot modem device) first)
          (uartThread env interfaces (.boot modem device) second) := by
  intro always
  have same := (always Unit Env.quiet lineFeedSetsBinary ()
    ⟨Store.initial, fun _ => none⟩ [10, 65] [[10, 65]] [[10], [65]]
    ⟨rfl, by decide⟩ ⟨rfl, by decide⟩).calls
  revert same
  decide

end LoraIot.Uart
