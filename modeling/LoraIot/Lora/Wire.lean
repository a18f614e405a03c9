import LoraIot.Foundations.Simulations
import LoraIot.Lora.Lines
import LoraIot.Uart.Send

/-!
# Notifications on the wire

In `Lora.Task` a call of `uart_send` is one step that appends a piece to the
UART.  Here the same threads run over the tty of `Uart.Send`: such a step only
calls `uart_send`, the bytes of the piece go out one by one while other threads
run, and the writer goes on when its call returns.  The two systems agree: the
detailed one simulates the one of `Lora.Task`, in which the piece appears when
its writer passes `k_sem_take`.
-/

namespace LoraIot.Lora

open LoraIot.Framing LoraIot.Runs LoraIot.Simulations LoraIot.Uart

def actor : Event → Option Writer
  | .lora _ _ => some .loraThread
  | .txData _ => some .txData
  | .rxData _ _ => some .rxData
  | .setEnabled _ => none
  | .push _ => none

/-- The piece that a step hands to `uart_send`. -/
def lineOf (system : System) : Event → Option Line
  | .lora _ stack =>
      match system.pc with
      | .joinLine status => some (wholeLine status.text)
      | .sendHead _ => some sendHead
      | .sendPayload msg =>
          some (middle .loraThread (displayBase64Data stack msg.message).1)
      | .sendClose _ => some (closing .loraThread)
      | .failHead _ => some failHead
      | .failStatus ret => some (failStatus ret)
      | .failClose => some (closing .loraThread)
      | _ => none
  | .txData _ =>
      match system.txData with
      | .head result => some (txHead result.success)
      | .status result => some (middle .txData (uartSend result.status 0))
      | .close => some (closing .txData)
      | _ => none
  | .rxData _ stack =>
      match system.rxData with
      | .head _ => some rxHead
      | .payload packet =>
          some (middle .rxData (displayBase64Data stack packet.buffer).1)
      | .status packet => some (middle .rxData (uartSend packet.status 0))
      | .close => some (closing .rxData)
      | _ => none
  | _ => none

structure Wired where
  system : System
  tty : Tty Writer
  /-- The step of a writer that waits for `sem_tty` or sends. -/
  due : Writer → Option Event

def Wired.boot : Wired := ⟨Lora.boot, Tty.boot, fun _ => none⟩

inductive WireEvent where
  /-- `uart_thread` gives the first permit of `sem_tty`. -/
  | initialise
  /-- A step outside `uart_send`, or the call of `uart_send`. -/
  | run (event : Event)
  /-- A step of a writer in `uart_send`. -/
  | send (writer : Writer)
  deriving DecidableEq, Repr

/-- The writer that takes this step is not in `uart_send`. -/
def Wired.Idle (wired : Wired) (event : Event) : Prop :=
  ∀ writer, actor event = some writer → wired.tty.pc writer = .outside

instance (wired : Wired) (event : Event) : Decidable (wired.Idle event) :=
  match taker : actor event with
  | none => isTrue fun writer isActor => by
      rw [taker] at isActor
      cases isActor
  | some writer =>
      decidable_of_iff (wired.tty.pc writer = .outside)
        ⟨fun outside other isActor => by
            rw [taker] at isActor
            rw [← Option.some.inj isActor]
            exact outside,
          fun idle => idle writer taker⟩

def wireStep (wired : Wired) : WireEvent → Option Wired
  | .initialise =>
      (ttyStep wired.tty .initialise).map fun tty => { wired with tty := tty }
  | .run event =>
      match lineOf wired.system event with
      | none =>
          if wired.Idle event then
            (step wired.system event).map fun next =>
              { wired with system := next }
          else
            none
      | some line =>
          (ttyStep wired.tty
              (.call line.writer line.content line.content.length)).map
            fun tty =>
              { wired with
                tty := tty
                due := Function.update wired.due line.writer (some event) }
  | .send writer =>
      match wired.tty.pc writer with
      | .take _ =>
          (sendStep wired.tty writer).bind fun tty =>
            (wired.due writer).bind fun event =>
              (step wired.system event).map fun next =>
                { wired with system := next, tty := tty }
      | _ =>
          (sendStep wired.tty writer).map fun tty => { wired with tty := tty }

/-- The step of the system in `Lora.Task` that answers a step over the tty. -/
def committed (wired : Wired) : WireEvent → List Event
  | .initialise => []
  | .run event =>
      match lineOf wired.system event with
      | none => [event]
      | some _ => []
  | .send writer =>
      match wired.tty.pc writer with
      | .take _ => (wired.due writer).toList
      | _ => []

theorem lineOf_writer {system : System} {event : Event} {line : Line}
    (writes : lineOf system event = some line) :
    actor event = some line.writer := by
  cases event with
  | lora ret stack =>
      simp only [lineOf] at writes
      split at writes <;> cases writes <;> rfl
  | txData result =>
      simp only [lineOf] at writes
      split at writes <;> cases writes <;> rfl
  | rxData packet stack =>
      simp only [lineOf] at writes
      split at writes <;> cases writes <;> rfl
  | setEnabled enabled => cases writes
  | push msg => cases writes

theorem step_of_lineOf {system : System} {event : Event} {line : Line}
    (writes : lineOf system event = some line) :
    ∃ next, step system event = some next ∧
      next.uart = system.uart ++ [line] := by
  cases event with
  | lora ret stack =>
      refine ⟨loraThread system ret stack, rfl, ?_⟩
      simp only [lineOf] at writes
      split at writes <;> cases writes <;> simp only [loraThread, *] <;> rfl
  | txData result =>
      simp only [lineOf] at writes
      split at writes <;> cases writes <;>
        simp only [step, lorawanTxData, *] <;> exact ⟨_, rfl, rfl⟩
  | rxData packet stack =>
      simp only [lineOf] at writes
      split at writes <;> cases writes <;>
        simp only [step, lorawanRxData, *] <;> exact ⟨_, rfl, rfl⟩
  | setEnabled enabled => cases writes
  | push msg => cases writes

theorem uart_of_lineOf_none {system next : System} {event : Event}
    (silent : lineOf system event = none)
    (taken : step system event = some next) : next.uart = system.uart := by
  cases event with
  | lora ret stack =>
      cases taken
      cases stands : system.pc with
      | joinLine _ | sendHead _ | sendPayload _ | sendClose _ | failHead _
      | failStatus _ | failClose =>
          simp only [lineOf, stands] at silent
          cases silent
      | dequeue =>
          simp only [loraThread, stands]
          split <;> rfl
      | _ => simp only [loraThread, stands] <;> rfl
  | txData result =>
      cases stands : system.txData with
      | head _ | status _ | close =>
          simp only [lineOf, stands] at silent
          cases silent
      | takeRxCb pending =>
          simp only [step, lorawanTxData, stands] at taken
          split at taken
          · cases taken
          · cases taken
            rfl
      | _ =>
          simp only [step, lorawanTxData, stands] at taken
          cases taken
          rfl
  | rxData packet stack =>
      cases stands : system.rxData with
      | head _ | payload _ | status _ | close =>
          simp only [lineOf, stands] at silent
          cases silent
      | idle | takeRxCb pending =>
          simp only [step, lorawanRxData, stands] at taken
          split at taken
          · cases taken <;> rfl
          · cases taken
            rfl
      | _ =>
          simp only [step, lorawanRxData, stands] at taken
          cases taken
          rfl
  | setEnabled enabled =>
      cases taken
      rfl
  | push msg =>
      cases taken
      rw [Lora.push]
      split <;> rfl

theorem loraThread_callbacks (system : System) (ret : Int)
    (stack : List UInt8) :
    (loraThread system ret stack).txData = system.txData ∧
      (loraThread system ret stack).rxData = system.rxData := by
  cases stands : system.pc with
  | dequeue =>
      rw [loraThread, stands]
      dsimp only
      split <;> exact ⟨rfl, rfl⟩
  | _ =>
      rw [loraThread, stands]
      exact ⟨rfl, rfl⟩

theorem lorawanTxData_rxData {system next : System} {result : TxResult}
    (taken : lorawanTxData system result = some next) :
    next.rxData = system.rxData := by
  cases stands : system.txData with
  | takeRxCb pending =>
      simp only [lorawanTxData, stands] at taken
      split at taken
      · cases taken
      · cases taken
        rfl
  | _ =>
      simp only [lorawanTxData, stands] at taken
      cases taken
      rfl

theorem lorawanRxData_txData {system next : System} {packet : RxPacket}
    {stack : List UInt8}
    (taken : lorawanRxData system packet stack = some next) :
    next.txData = system.txData := by
  cases stands : system.rxData with
  | idle | takeRxCb pending =>
      simp only [lorawanRxData, stands] at taken
      split at taken
      · cases taken <;> rfl
      · cases taken
        rfl
  | _ =>
      simp only [lorawanRxData, stands] at taken
      cases taken
      rfl

theorem step_places {system next : System} {event : Event}
    (taken : step system event = some next) :
    (actor event ≠ some .loraThread → next.pc = system.pc) ∧
      (actor event ≠ some .txData → next.txData = system.txData) ∧
        (actor event ≠ some .rxData → next.rxData = system.rxData) := by
  cases event with
  | lora ret stack =>
      cases taken
      obtain ⟨txData, rxData⟩ := loraThread_callbacks system ret stack
      exact ⟨fun impossible => absurd rfl impossible, fun _ => txData,
        fun _ => rxData⟩
  | txData result =>
      exact ⟨fun _ => (lorawanTxData_beside taken).1.pc,
        fun impossible => absurd rfl impossible,
        fun _ => lorawanTxData_rxData taken⟩
  | rxData packet stack =>
      exact ⟨fun _ => (lorawanRxData_beside taken).1.pc,
        fun _ => lorawanRxData_txData taken,
        fun impossible => absurd rfl impossible⟩
  | setEnabled enabled =>
      cases taken
      exact ⟨fun _ => rfl, fun _ => rfl, fun _ => rfl⟩
  | push msg =>
      cases taken
      rw [Lora.push]
      split <;> exact ⟨fun _ => rfl, fun _ => rfl, fun _ => rfl⟩

/-- What a writer is about to write does not depend on the others. -/
theorem lineOf_of_other {system next : System} {event other : Event}
    (different : actor other ≠ actor event)
    (taken : step system other = some next) :
    lineOf next event = lineOf system event := by
  obtain ⟨pc, txData, rxData⟩ := step_places taken
  cases event with
  | lora ret stack => simp only [lineOf, pc different]
  | txData result => simp only [lineOf, txData different]
  | rxData packet stack => simp only [lineOf, rxData different]
  | setEnabled enabled => rfl
  | push msg => rfl

/-! ## The simulation -/

theorem uartSend_self (bytes : List UInt8) :
    uartSend bytes bytes.length = bytes := by
  rw [uartSend]
  split
  · rename_i isEmpty
    rw [List.eq_nil_of_length_eq_zero isEmpty]
    rfl
  · rw [List.takeD_eq_take _ (Nat.le_refl _), List.take_length]

/-- The messages that have entered the tty are the pieces on the UART, and
every writer that waits is about to write the piece it has called with. -/
structure Wired.Carries (wired : Wired) : Prop where
  serial : wired.tty.Serial
  pieces : wired.tty.entered.map Prod.snd =
    wired.system.uart.map Piece.content
  due : ∀ writer message, wired.tty.pc writer = .take message →
    ∃ event line, wired.due writer = some event ∧
      lineOf wired.system event = some line ∧ line.writer = writer ∧
        line.content = message

def Refines (wired : Wired) (system : System) : Prop :=
  wired.system = system ∧ wired.Carries

theorem boot_refines : Refines Wired.boot Lora.boot := by
  refine ⟨rfl, boot_serial, rfl, fun writer message waits => ?_⟩
  cases waits

/-- A writer that waits is about to write the same after a step that leaves it
alone. -/
theorem Wired.Carries.due_of_other {wired : Wired} {event : Event}
    {next : System} (carries : wired.Carries) {writer : Writer}
    (notActor : actor event ≠ some writer)
    (taken : step wired.system event = some next) {message : List UInt8}
    (waits : wired.tty.pc writer = .take message) :
    ∃ event line, wired.due writer = some event ∧
      lineOf next event = some line ∧ line.writer = writer ∧
        line.content = message := by
  obtain ⟨pending, line, isDue, writes, isWriter, content⟩ :=
    carries.due writer message waits
  have different : actor event ≠ actor pending := by
    rw [lineOf_writer writes, isWriter]
    exact notActor
  refine ⟨pending, line, isDue, ?_, isWriter, content⟩
  rw [lineOf_of_other different taken]
  exact writes

theorem Wired.Carries.run {wired : Wired} {event : Event} {next : System}
    (carries : wired.Carries) (silent : lineOf wired.system event = none)
    (idle : wired.Idle event) (taken : step wired.system event = some next) :
    Wired.Carries { wired with system := next } := by
  refine ⟨carries.serial, ?_, fun writer message waits => ?_⟩
  · rw [carries.pieces]
    exact congrArg _ (uart_of_lineOf_none silent taken).symm
  · refine carries.due_of_other (fun isActor => ?_) taken waits
    rw [idle writer isActor] at waits
    cases waits

theorem Wired.Carries.call {wired : Wired} {event : Event} {line : Line}
    {tty : Tty Writer} (carries : wired.Carries)
    (writes : lineOf wired.system event = some line)
    (called : ttyStep wired.tty
      (.call line.writer line.content line.content.length) = some tty) :
    Wired.Carries
      { wired with
        tty := tty
        due := Function.update wired.due line.writer (some event) } := by
  have serial := carries.serial.step called
  simp only [ttyStep, uartSend_self] at called
  split at called
  · cases called
    refine ⟨serial, carries.pieces, fun writer message waits => ?_⟩
    change (wired.tty.goto line.writer _).pc writer = _ at waits
    by_cases same : writer = line.writer
    · subst same
      rw [goto_pc_self] at waits
      refine ⟨event, line, Function.update_self .., writes, rfl, ?_⟩
      cases waits
      rfl
    · rw [goto_pc_of_ne _ same] at waits
      dsimp only
      rw [Function.update_of_ne same]
      exact carries.due writer message waits
  · cases called

theorem Wired.Carries.send {wired : Wired} {writer : Writer}
    {tty : Tty Writer} (carries : wired.Carries)
    (notTake : (wired.tty.pc writer).pending = [])
    (sends : sendStep wired.tty writer = some tty) :
    Wired.Carries { wired with tty := tty } := by
  obtain ⟨others, notWaiting, entered⟩ := sendStep_entered sends
  refine ⟨carries.serial.sendStep sends, ?_, fun other message waits => ?_⟩
  · rw [notTake, List.map_nil, List.append_nil] at entered
    dsimp only
    rw [entered]
    exact carries.pieces
  · by_cases same : other = writer
    · subst same
      exact absurd waits (notWaiting message)
    · dsimp only at waits
      rw [others other same] at waits
      exact carries.due other message waits

/-- When a writer passes `k_sem_take`, its piece appears. -/
theorem Wired.Carries.commit {wired : Wired} {writer : Writer}
    {tty : Tty Writer} {message : List UInt8} (carries : wired.Carries)
    (waits : wired.tty.pc writer = .take message)
    (sends : sendStep wired.tty writer = some tty) :
    ∃ event next, wired.due writer = some event ∧
      step wired.system event = some next ∧
        Wired.Carries { wired with system := next, tty := tty } := by
  obtain ⟨event, line, isDue, writes, isWriter, content⟩ :=
    carries.due writer message waits
  obtain ⟨next, taken, uart⟩ := step_of_lineOf writes
  obtain ⟨others, notWaiting, entered⟩ := sendStep_entered sends
  refine ⟨event, next, isDue, taken, carries.serial.sendStep sends, ?_,
    fun other message stillWaits => ?_⟩
  · dsimp only
    rw [entered, waits, uart, List.map_append, List.map_append,
      carries.pieces]
    simp [SendPc.pending, content]
  · by_cases same : other = writer
    · subst same
      exact absurd stillWaits (notWaiting message)
    · dsimp only at stillWaits
      rw [others other same] at stillWaits
      refine carries.due_of_other ?_ taken stillWaits
      rw [lineOf_writer writes, isWriter]
      exact fun impossible => same (Option.some.inj impossible).symm

theorem wire_simulates :
    Simulates wireStep (fun _ _ => True) Lora.step committed Refines := by
  intro wired event next system refines _ taken
  obtain ⟨rfl, carries⟩ := refines
  cases event with
  | initialise =>
      simp only [wireStep, Option.map_eq_some_iff] at taken
      obtain ⟨tty, started, rfl⟩ := taken
      have serial := carries.serial.step started
      simp only [ttyStep] at started
      split at started
      · cases started
      · cases started
        exact ⟨wired.system, rfl, rfl, serial, carries.pieces, carries.due⟩
  | run event =>
      cases writes : lineOf wired.system event with
      | none =>
          simp only [wireStep, writes] at taken
          split at taken
          · rename_i idle
            obtain ⟨after, stepped, rfl⟩ := Option.map_eq_some_iff.mp taken
            refine ⟨after, ?_, rfl, carries.run writes idle stepped⟩
            simp only [committed, writes, execute_cons, stepped,
              Option.bind_some, execute_nil]
          · cases taken
      | some line =>
          simp only [wireStep, writes] at taken
          obtain ⟨tty, called, rfl⟩ := Option.map_eq_some_iff.mp taken
          refine ⟨wired.system, ?_, rfl, carries.call writes called⟩
          simp only [committed, writes, execute_nil]
  | send writer =>
      cases stands : wired.tty.pc writer with
      | take message =>
          simp only [wireStep, stands] at taken
          obtain ⟨tty, sends, more⟩ := Option.bind_eq_some_iff.mp taken
          obtain ⟨event, after, isDue, stepped, holds⟩ :=
            carries.commit stands sends
          rw [isDue, Option.bind_some, stepped, Option.map_some] at more
          obtain rfl := Option.some.inj more
          refine ⟨after, ?_, rfl, holds⟩
          simp only [committed, stands, isDue, Option.toList_some,
            execute_cons, stepped, Option.bind_some, execute_nil]
      | outside | write _ _ | give _ =>
          simp only [wireStep, stands] at taken
          obtain ⟨tty, sends, rfl⟩ := Option.map_eq_some_iff.mp taken
          refine ⟨wired.system, ?_, rfl, carries.send ?_ sends⟩
          · simp only [committed, stands, execute_nil]
          · rw [stands]
            rfl

/-- What a receiver finds on the wire: the pieces on the UART, in order and
whole, but for the end of the last one while somebody is still sending it. -/
structure Wired.Delivers (wired : Wired) : Prop where
  wire : ∃ missing,
    wired.tty.wire ++ missing =
      (wired.system.uart.map Piece.content).flatten ∧
    ((∀ writer, (wired.tty.pc writer).inside = false) → missing = [])

theorem Wired.Carries.delivers {wired : Wired} (carries : wired.Carries) :
    wired.Delivers := by
  rcases carries.serial.permit with ⟨_, free⟩ | ⟨_, _, holder, held⟩
  · exact ⟨[], by rw [List.append_nil, free.wire, carries.pieces],
      fun _ => rfl⟩
  · refine ⟨(wired.tty.pc holder).rest, ?_, fun nobody => ?_⟩
    · rw [held.wire, carries.pieces]
    · have inside := held.inside
      rw [nobody holder] at inside
      cases inside

/-- Byte by byte, every run of the threads over the tty is a run of the system
in which `uart_send` is atomic: the wire delivers its pieces in their order,
and they are whole notifications when that run begins every notification
outside the others. -/
theorem wire_delivers (events : List WireEvent) (wired : Wired)
    (reached : execute wireStep Wired.boot events = some wired) :
    execute Lora.step Lora.boot (answers wireStep committed Wired.boot events) =
        some wired.system ∧
      wired.Delivers ∧
      (Meets Lora.step BeginsOutside Lora.boot
          (answers wireStep committed Wired.boot events) →
        Framed wired.system.uart) := by
  obtain ⟨system, abstractReached, same, carries⟩ :=
    wire_simulates.execute boot_refines (meets_true _ events) reached
  subst same
  refine ⟨abstractReached, carries.delivers, fun outside => ?_⟩
  rcases (tracked_of_reached abstractReached).uart with
    ⟨_, current, parsed, _⟩ | ⟨notOutside, _⟩
  · exact (framed_iff _).mpr ⟨current, parsed⟩
  · exact absurd outside notOutside

def joinAnnounced : List WireEvent :=
  [.initialise, .run (.setEnabled true)] ++
    List.replicate 5 (.run (.lora 0 [])) ++
      List.replicate 35 (.send .loraThread)

theorem joinAnnounced_delivers :
    ∃ wired, execute wireStep Wired.boot joinAnnounced = some wired ∧
      wired.Delivers ∧ Framed wired.system.uart := by
  have runs : (execute wireStep Wired.boot joinAnnounced).isSome := by decide
  obtain ⟨wired, reached⟩ := Option.isSome_iff_exists.mp runs
  obtain ⟨_, delivers, framed⟩ := wire_delivers joinAnnounced wired reached
  exact ⟨wired, reached, delivers, framed (by decide)⟩

end LoraIot.Lora
