import LoraIot.Lora.Display
import LoraIot.Lora.Wire

/-!
# The callbacks return

The two callbacks take `sem_rx_cb` and, piece by piece, `sem_tty`, which the
LoRa thread takes as well.  Nobody waits for `sem_rx_cb` with `sem_tty` in
hand, so that the two semaphores do not deadlock: once both have been given
for the first time, callbacks and calls of `uart_send` that are under way
return after a number of steps that does not depend on the schedule.
-/

namespace LoraIot.Lora

open LoraIot.Base64 LoraIot.Runs LoraIot.Simulations LoraIot.Uart

/-- The step continues a callback or a call of `uart_send`. -/
def Continues (wired : Wired) : WireEvent → Prop
  | .send _ => True
  | .run (.txData _) => wired.system.txData ≠ .idle
  | .run (.rxData _ _) => wired.system.rxData ≠ .idle
  | _ => False

instance (wired : Wired) : DecidablePred (Continues wired)
  | .send _ => isTrue trivial
  | .initialise => isFalse id
  | .run (.txData _) => inferInstanceAs (Decidable (_ ≠ _))
  | .run (.rxData _ _) => inferInstanceAs (Decidable (_ ≠ _))
  | .run (.lora _ _) => isFalse id
  | .run (.setEnabled _) => isFalse id
  | .run (.push _) => isFalse id

instance : Fintype Writer where
  elems := {.loraThread, .txData, .rxData}
  complete writer := by cases writer <;> decide

/-- Both callbacks have returned, and so has every call of `uart_send`. -/
structure Wired.AtRest (wired : Wired) : Prop where
  txData : wired.system.txData = .idle
  rxData : wired.system.rxData = .idle
  outside : ∀ writer, wired.tty.pc writer = .outside

def TxPc.pieces : TxPc → List (List UInt8)
  | .takeRxCb result =>
      [(txHead result.success).content, uartSend result.status 0,
        (closing .txData).content]
  | .head result =>
      [(txHead result.success).content, uartSend result.status 0,
        (closing .txData).content]
  | .status result =>
      [uartSend result.status 0, (closing .txData).content]
  | .close => [(closing .txData).content]
  | _ => []

def RxPc.pieces : RxPc → List (List UInt8)
  | .takeRxCb packet =>
      [rxHead.content, (displayBase64Data [] packet.buffer).1,
        uartSend packet.status 0, (closing .rxData).content]
  | .head packet =>
      [rxHead.content, (displayBase64Data [] packet.buffer).1,
        uartSend packet.status 0, (closing .rxData).content]
  | .payload packet =>
      [(displayBase64Data [] packet.buffer).1, uartSend packet.status 0,
        (closing .rxData).content]
  | .status packet =>
      [uartSend packet.status 0, (closing .rxData).content]
  | .close => [(closing .rxData).content]
  | _ => []

/-- A piece is called for, takes `sem_tty`, is written byte by byte, found to
be at its end, and gives `sem_tty`. -/
def pieceSteps (piece : List UInt8) : Nat := piece.length + 4

def TxPc.left (pc : TxPc) : Nat :=
  (pc.pieces.map pieceSteps).sum +
    match pc with
    | .idle => 0
    | .takeRxCb _ => 2
    | _ => 1

def RxPc.left (pc : RxPc) : Nat :=
  (pc.pieces.map pieceSteps).sum +
    match pc with
    | .idle => 0
    | .takeRxCb _ => 2
    | _ => 1

/-- The steps of a callback in `uart_send`, beside those of the pieces it has
not begun. -/
def callbackCost : SendPc → Nat
  | .outside => 1
  | .take _ => 0
  | .write _ rest => rest.length + 3
  | .give _ => 2

/-- The steps that are left until everything has returned, and two more. -/
def Wired.work (wired : Wired) : Nat :=
  (wired.tty.pc .loraThread).cost +
    (callbackCost (wired.tty.pc .txData) + wired.system.txData.left) +
    (callbackCost (wired.tty.pc .rxData) + wired.system.rxData.left)

/-- What a step of the callbacks takes off. -/
def lineSteps : Option Line → Nat
  | none => 1
  | some line => pieceSteps line.content

def RxPc.packet : RxPc → Option RxPacket
  | .takeRxCb packet => some packet
  | .head packet => some packet
  | .payload packet => some packet
  | .status packet => some packet
  | _ => none

def Filled (system : System) : Prop :=
  ∀ packet ∈ system.rxData.packet, packet.buffer ≠ []

section Callbacks

variable {system next : System}

theorem displayBase64Data_length (stack : List UInt8) {payload : List UInt8}
    (nonempty : payload ≠ []) :
    (displayBase64Data stack payload).1.length =
      (displayBase64Data [] payload).1.length := by
  have positive : 0 < payload.length := List.length_pos_iff.mpr nonempty
  have same : displayLength stack payload = displayLength [] payload := by
    simp only [displayLength, base64Encode]
    split <;> rfl
  have some : displayLength [] payload ≠ 0 := by
    simp only [displayLength, base64Encode]
    split
    · exact Nat.succ_ne_zero _
    · dsimp only
      omega
  rw [displayBase64Data_eq, displayBase64Data_eq, same]
  simp only [uartSend, if_neg some, List.takeD_length]

theorem txData_left {result : TxResult} (running : system.txData ≠ .idle)
    (taken : lorawanTxData system result = some next) :
    next.txData.left + lineSteps (lineOf system (.txData result)) =
      system.txData.left := by
  simp only [lorawanTxData] at taken
  cases stands : system.txData with
  | idle => exact absurd stands running
  | takeRxCb pending =>
      simp only [stands] at taken
      split at taken
      · cases taken
      · cases taken
        simp only [lineOf, stands, lineSteps, TxPc.left, TxPc.pieces]
  | giveRxCb =>
      simp only [stands] at taken
      cases taken
      simp only [lineOf, stands, lineSteps, TxPc.left, TxPc.pieces]
  | _ =>
      simp only [stands] at taken
      cases taken
      simp only [lineOf, stands, lineSteps, TxPc.left, TxPc.pieces, middle,
        List.map_cons, List.map_nil, List.sum_cons, List.sum_nil]
      omega

theorem rxData_left {packet : RxPacket} {stack : List UInt8}
    (filled : Filled system) (running : system.rxData ≠ .idle)
    (taken : lorawanRxData system packet stack = some next) :
    next.rxData.left + lineSteps (lineOf system (.rxData packet stack)) =
      system.rxData.left := by
  simp only [lorawanRxData] at taken
  cases stands : system.rxData with
  | idle => exact absurd stands running
  | takeRxCb pending =>
      simp only [stands] at taken
      split at taken
      · cases taken
      · cases taken
        simp only [lineOf, stands, lineSteps, RxPc.left, RxPc.pieces]
  | giveRxCb =>
      simp only [stands] at taken
      cases taken
      simp only [lineOf, stands, lineSteps, RxPc.left, RxPc.pieces]
  | payload pending =>
      have nonempty := filled pending (by rw [stands]; rfl)
      simp only [stands] at taken
      cases taken
      simp only [lineOf, stands, lineSteps, RxPc.left, RxPc.pieces, middle,
        List.map_cons, List.map_nil, List.sum_cons, List.sum_nil, pieceSteps,
        displayBase64Data_length stack nonempty]
      omega
  | _ =>
      simp only [stands] at taken
      cases taken
      simp only [lineOf, stands, lineSteps, RxPc.left, RxPc.pieces, middle,
        List.map_cons, List.map_nil, List.sum_cons, List.sum_nil]
      omega

/-- A callback that is under way writes nothing before it has `sem_rx_cb`. -/
theorem Filled.step {event : Event} (filled : Filled system)
    (taken : Lora.step system event = some next) : Filled next := by
  obtain ⟨_, _, rxData⟩ := step_places taken
  cases event with
  | rxData packet stack =>
      simp only [Lora.step, lorawanRxData] at taken
      cases stands : system.rxData with
      | idle =>
          simp only [stands] at taken
          split at taken
          · cases taken
            exact filled
          · rename_i nonempty
            cases taken
            intro reporting isReporting
            cases isReporting
            exact nonempty
      | takeRxCb pending =>
          simp only [stands] at taken
          have nonempty := filled pending (by rw [stands]; rfl)
          split at taken
          · cases taken
          · cases taken
            intro reporting isReporting
            cases isReporting
            exact nonempty
      | head pending | payload pending =>
          simp only [stands] at taken
          have nonempty := filled pending (by rw [stands]; rfl)
          cases taken
          intro reporting isReporting
          cases isReporting
          exact nonempty
      | _ =>
          simp only [stands] at taken
          cases taken
          intro reporting isReporting
          cases isReporting
  | _ =>
      rw [Filled, rxData (by simp [actor])]
      exact filled

/-- Once the LoRa thread has given it, the permit of `sem_rx_cb` is free or
held. -/
def Permitted (system : System) : Prop :=
  system.permits = if system.pc = .giveRxCb then 0 else 1

theorem Permitted.step {event : Event} (permitted : Permitted system)
    (taken : Lora.step system event = some next) : Permitted next := by
  have single : system.permits ≤ 1 := by
    rw [permitted]
    split <;> omega
  rw [Permitted] at permitted ⊢
  cases event with
  | lora ret stack =>
      cases taken
      obtain ⟨elsewhere, same⟩ := loraThread_permits system ret stack
      rw [if_neg elsewhere]
      by_cases atStart : system.pc = .giveRxCb
      · rw [if_pos atStart, System.permits] at permitted
        simp only [System.permits, loraThread, atStart]
        omega
      · rw [same atStart, permitted, if_neg atStart]
  | txData result =>
      rw [lorawanTxData_permits single taken, permitted,
        (lorawanTxData_beside taken).1.pc]
  | rxData packet stack =>
      rw [lorawanRxData_permits single taken, permitted,
        (lorawanRxData_beside taken).1.pc]
  | setEnabled enabled =>
      cases taken
      exact permitted
  | push msg =>
      cases taken
      rw [Lora.push]
      split
      · exact permitted
      · exact permitted

end Callbacks

/-! ## Steps over the tty -/

section Steps

variable {wired next : Wired}

theorem sendStep_pc {tty after : Tty Writer} {writer : Writer}
    (taken : sendStep tty writer = some after) :
    (∀ other, other ≠ writer → after.pc other = tty.pc other) ∧
      (after.pc writer).cost + 1 = (tty.pc writer).cost ∧
      callbackCost (after.pc writer) + 1 =
        callbackCost (tty.pc writer) +
          (tty.pc writer).pending.flatten.length +
            4 * (tty.pc writer).pending.length := by
  obtain ⟨others, _, _⟩ := sendStep_entered taken
  refine ⟨others, ?_⟩
  cases stands : tty.pc writer with
  | outside =>
      simp only [sendStep, stands] at taken
      cases taken
  | take message =>
      simp only [sendStep, stands] at taken
      split at taken
      · cases taken
      · cases taken
        simp [SendPc.cost, callbackCost, SendPc.pending]
  | write message rest =>
      cases rest with
      | nil =>
          simp only [sendStep, stands] at taken
          cases taken
          simp [SendPc.cost, callbackCost, SendPc.pending]
      | cons byte rest =>
          simp only [sendStep, stands] at taken
          cases taken
          simp [SendPc.cost, callbackCost, SendPc.pending]
  | give message =>
      simp only [sendStep, stands] at taken
      cases taken
      simp [SendPc.cost, callbackCost, SendPc.pending]

theorem call_pc {tty after : Tty Writer} {writer : Writer}
    {content : List UInt8}
    (called : ttyStep tty (.call writer content content.length) =
      some after) :
    tty.pc writer = .outside ∧ after.pc writer = .take content ∧
      ∀ other, other ≠ writer → after.pc other = tty.pc other := by
  simp only [ttyStep, uartSend_self] at called
  split at called
  · rename_i outside
    cases called
    exact ⟨outside, goto_pc_self .., fun other different =>
      goto_pc_of_ne tty different _⟩
  · cases called

theorem work_of_commit (carries : wired.Carries)
    (filled : Filled wired.system) {writer : Writer} {message : List UInt8}
    (waits : wired.tty.pc writer = .take message)
    (taken : wireStep wired (.send writer) = some next) :
    next.work + 1 = wired.work := by
  obtain ⟨event, line, isDue, writes, isWriter, content⟩ :=
    carries.due writer message waits
  simp only [wireStep, waits, isDue, Option.bind_some] at taken
  obtain ⟨tty, sends, more⟩ := Option.bind_eq_some_iff.mp taken
  obtain ⟨after, stepped, rfl⟩ := Option.map_eq_some_iff.mp more
  obtain ⟨others, cost, callback⟩ := sendStep_pc sends
  obtain ⟨_, txData, rxData⟩ := step_places stepped
  have isActor : actor event = some writer := by
    rw [lineOf_writer writes, isWriter]
  rw [isActor] at txData rxData
  simp only [waits, SendPc.pending, List.flatten_singleton,
    List.length_singleton] at callback
  simp only [Wired.work]
  cases writer with
  | loraThread =>
      rw [others .txData (by decide), others .rxData (by decide),
        txData (by decide), rxData (by decide)]
      omega
  | txData =>
      cases event with
      | txData result =>
          have running : wired.system.txData ≠ .idle := by
            intro idle
            simp only [lineOf, idle] at writes
            cases writes
          have left := txData_left running stepped
          rw [writes, lineSteps, pieceSteps, content] at left
          rw [others .loraThread (by decide), others .rxData (by decide),
            rxData (by decide), waits]
          omega
      | lora _ _ | rxData _ _ | setEnabled _ | push _ => cases isActor
  | rxData =>
      cases event with
      | rxData packet stack =>
          have running : wired.system.rxData ≠ .idle := by
            intro idle
            simp only [lineOf, idle] at writes
            cases writes
          have left := rxData_left filled running stepped
          rw [writes, lineSteps, pieceSteps, content] at left
          rw [others .loraThread (by decide), others .txData (by decide),
            txData (by decide), waits]
          omega
      | lora _ _ | txData _ | setEnabled _ | push _ => cases isActor

theorem work_of_send (carries : wired.Carries)
    (filled : Filled wired.system) {writer : Writer}
    (taken : wireStep wired (.send writer) = some next) :
    next.work + 1 = wired.work := by
  cases stands : wired.tty.pc writer with
  | take message => exact work_of_commit carries filled stands taken
  | _ =>
      simp only [wireStep, stands] at taken
      obtain ⟨tty, sends, rfl⟩ := Option.map_eq_some_iff.mp taken
      obtain ⟨others, cost, callback⟩ := sendStep_pc sends
      simp only [stands, SendPc.pending, List.flatten_nil, List.length_nil]
        at callback cost
      simp only [Wired.work]
      cases writer with
      | loraThread =>
          rw [others .txData (by decide), others .rxData (by decide), stands]
          omega
      | txData =>
          rw [others .loraThread (by decide), others .rxData (by decide),
            stands]
          omega
      | rxData =>
          rw [others .loraThread (by decide), others .txData (by decide),
            stands]
          omega

theorem work_of_run (filled : Filled wired.system) {event : Event}
    (continues : Continues wired (.run event))
    (taken : wireStep wired (.run event) = some next) :
    next.work + 1 = wired.work := by
  cases writes : lineOf wired.system event with
  | none =>
      simp only [wireStep, writes] at taken
      split at taken
      · obtain ⟨after, stepped, rfl⟩ := Option.map_eq_some_iff.mp taken
        obtain ⟨_, txData, rxData⟩ := step_places stepped
        simp only [Wired.work]
        cases event with
        | txData result =>
            have left := txData_left continues stepped
            rw [writes, lineSteps] at left
            rw [rxData (by simp [actor])]
            omega
        | rxData packet stack =>
            have left := rxData_left filled continues stepped
            rw [writes, lineSteps] at left
            rw [txData (by simp [actor])]
            omega
        | lora _ _ | setEnabled _ | push _ => exact continues.elim
      · cases taken
  | some line =>
      simp only [wireStep, writes] at taken
      obtain ⟨tty, called, rfl⟩ := Option.map_eq_some_iff.mp taken
      obtain ⟨outside, waits, others⟩ := call_pc called
      have isWriter := lineOf_writer writes
      simp only [Wired.work]
      cases event with
      | txData result =>
          rw [← Option.some.inj isWriter] at outside waits others
          rw [others .loraThread (by decide), others .rxData (by decide),
            outside, waits]
          simp only [callbackCost]
          omega
      | rxData packet stack =>
          rw [← Option.some.inj isWriter] at outside waits others
          rw [others .loraThread (by decide), others .txData (by decide),
            outside, waits]
          simp only [callbackCost]
          omega
      | lora _ _ | setEnabled _ | push _ => exact continues.elim

theorem work_of_continues (carries : wired.Carries)
    (filled : Filled wired.system) {event : WireEvent}
    (continues : Continues wired event)
    (taken : wireStep wired event = some next) :
    next.work + 1 = wired.work := by
  cases event with
  | initialise => exact continues.elim
  | run event => exact work_of_run filled continues taken
  | send writer => exact work_of_send carries filled taken

theorem ready_of_continues {event : WireEvent}
    (continues : Continues wired event)
    (taken : wireStep wired event = some next) :
    next.tty.ready = wired.tty.ready := by
  cases event with
  | initialise => exact continues.elim
  | run event =>
      cases writes : lineOf wired.system event with
      | none =>
          simp only [wireStep, writes] at taken
          split at taken
          · obtain ⟨after, _, rfl⟩ := Option.map_eq_some_iff.mp taken
            rfl
          · cases taken
      | some line =>
          simp only [wireStep, writes] at taken
          obtain ⟨tty, called, rfl⟩ := Option.map_eq_some_iff.mp taken
          simp only [ttyStep] at called
          split at called
          · cases called
            rfl
          · cases called
  | send writer =>
      cases stands : wired.tty.pc writer with
      | take message =>
          simp only [wireStep, stands] at taken
          obtain ⟨tty, sends, more⟩ := Option.bind_eq_some_iff.mp taken
          obtain ⟨event, _, more⟩ := Option.bind_eq_some_iff.mp more
          obtain ⟨after, _, rfl⟩ := Option.map_eq_some_iff.mp more
          exact (sendStep_work sends).2.1
      | _ =>
          simp only [wireStep, stands] at taken
          obtain ⟨tty, sends, rfl⟩ := Option.map_eq_some_iff.mp taken
          exact (sendStep_work sends).2.1

/-- The LoRa thread gives `sem_rx_cb` only once at its start. -/
theorem given_of_step {system after : System} {event : Event}
    (given : system.pc ≠ .giveRxCb)
    (taken : Lora.step system event = some after) :
    after.pc ≠ .giveRxCb := by
  cases event with
  | lora ret stack =>
      cases taken
      exact (loraThread_permits system ret stack).1
  | _ => rwa [(step_places taken).1 (by simp [actor])]

/-- Nobody who waits for `sem_tty` waits for good. -/
theorem outside_of_stuck (carries : wired.Carries)
    (ready : wired.tty.ready = true)
    (stuck : ∀ writer, wireStep wired (.send writer) = none)
    (writer : Writer) : wired.tty.pc writer = .outside := by
  refine carries.serial.outside_of_stuck ready (fun writer => ?_) writer
  have none := stuck writer
  cases sends : sendStep wired.tty writer with
  | none => rfl
  | some tty =>
      cases stands : wired.tty.pc writer with
      | take message =>
          obtain ⟨event, next, isDue, taken, _⟩ :=
            carries.commit stands sends
          simp [wireStep, stands, sends, isDue, taken] at none
      | _ => simp [wireStep, stands, sends] at none

theorem run_of_lineOf {event : Event} {line : Line}
    (writes : lineOf wired.system event = some line)
    (outside : wired.tty.pc line.writer = .outside) :
    wireStep wired (.run event) ≠ none := by
  simp [wireStep, writes, ttyStep, outside]

/-- Without one, only `sem_rx_cb` can hold a callback up. -/
theorem step_of_stuck {event : Event} {writer : Writer}
    (isActor : actor event = some writer)
    (silent : lineOf wired.system event = none)
    (outside : wired.tty.pc writer = .outside)
    (stuck : wireStep wired (.run event) = none) :
    Lora.step wired.system event = none := by
  have idle : wired.Idle event := by
    intro other isOther
    rw [isActor] at isOther
    rw [← Option.some.inj isOther]
    exact outside
  simpa [wireStep, silent, idle] using stuck

theorem txData_waits {result : TxResult}
    (running : wired.system.txData ≠ .idle)
    (outside : wired.tty.pc .txData = .outside)
    (stuck : wireStep wired (.run (.txData result)) = none) :
    wired.system.txData.holds = false ∧ wired.system.semRxCb = 0 := by
  cases writes : lineOf wired.system (.txData result) with
  | some line =>
      rw [Option.some.inj (lineOf_writer writes)] at outside
      exact absurd stuck (run_of_lineOf writes outside)
  | none =>
      have blocked := step_of_stuck rfl writes outside stuck
      simp only [Lora.step, lorawanTxData] at blocked
      cases stands : wired.system.txData with
      | idle => exact absurd stands running
      | takeRxCb pending =>
          simp only [stands] at blocked
          split at blocked
          · rename_i taken
            exact ⟨rfl, taken⟩
          · cases blocked
      | _ =>
          simp only [stands] at blocked
          cases blocked

theorem rxData_waits {packet : RxPacket} {stack : List UInt8}
    (running : wired.system.rxData ≠ .idle)
    (outside : wired.tty.pc .rxData = .outside)
    (stuck : wireStep wired (.run (.rxData packet stack)) = none) :
    wired.system.rxData.holds = false ∧ wired.system.semRxCb = 0 := by
  cases writes : lineOf wired.system (.rxData packet stack) with
  | some line =>
      rw [Option.some.inj (lineOf_writer writes)] at outside
      exact absurd stuck (run_of_lineOf writes outside)
  | none =>
      have blocked := step_of_stuck rfl writes outside stuck
      simp only [Lora.step, lorawanRxData] at blocked
      cases stands : wired.system.rxData with
      | idle => exact absurd stands running
      | takeRxCb pending =>
          simp only [stands] at blocked
          split at blocked
          · rename_i taken
            exact ⟨rfl, taken⟩
          · cases blocked
      | _ =>
          simp only [stands] at blocked
          cases blocked

/-- If nothing can go on, nothing is under way: the callback that waits for
`sem_rx_cb` would wait for one that holds it and can go on. -/
theorem atRest_of_stuck (carries : wired.Carries)
    (permitted : Permitted wired.system) (ready : wired.tty.ready = true)
    (given : wired.system.pc ≠ .giveRxCb)
    (stuck : ∀ event, Continues wired event → wireStep wired event = none) :
    wired.AtRest := by
  have outside := outside_of_stuck carries ready
    fun writer => stuck (.send writer) trivial
  rw [Permitted, if_neg given, System.permits] at permitted
  have tx : wired.system.txData ≠ .idle →
      wired.system.txData.holds = false ∧ wired.system.semRxCb = 0 :=
    fun running => txData_waits running (outside .txData)
      (stuck (.run (.txData ⟨true, 0, 0, 0⟩)) running)
  have rx : wired.system.rxData ≠ .idle →
      wired.system.rxData.holds = false ∧ wired.system.semRxCb = 0 :=
    fun running => rxData_waits running (outside .rxData)
      (stuck (.run (.rxData ⟨[], 0, 0, 0⟩ [])) running)
  have txFree : wired.system.txData.holds = false := by
    by_cases idle : wired.system.txData = .idle
    · rw [idle]
      rfl
    · exact (tx idle).1
  have rxFree : wired.system.rxData.holds = false := by
    by_cases idle : wired.system.rxData = .idle
    · rw [idle]
      rfl
    · exact (rx idle).1
  rw [txFree, rxFree, Bool.toNat_false] at permitted
  refine ⟨?_, ?_, outside⟩
  · by_contra running
    have taken := (tx running).2
    omega
  · by_contra running
    have taken := (rx running).2
    omega

/-! ## Runs -/

structure Wired.Sound (wired : Wired) : Prop where
  carries : wired.Carries
  filled : Filled wired.system
  permitted : Permitted wired.system

theorem boot_sound : Wired.Sound Wired.boot where
  carries := boot_refines.2
  filled _ isReporting := by cases isReporting
  permitted := rfl

/-- A property that the threads keep is kept over the tty. -/
theorem system_invariant {property : System → Prop}
    (keeps : ∀ system event next, property system →
      Lora.step system event = some next → property next)
    (carries : wired.Carries) (holds : property wired.system)
    {event : WireEvent} (taken : wireStep wired event = some next) :
    property next.system := by
  obtain ⟨after, answered, same, _⟩ :=
    wire_simulates wired event next wired.system ⟨rfl, carries⟩ trivial taken
  rw [same]
  exact execute_invariant property holds
    (fun system event next here _ stepped =>
      keeps system event next here stepped)
    (meets_true _ _) answered

theorem Wired.Sound.step (sound : wired.Sound) {event : WireEvent}
    (taken : wireStep wired event = some next) : next.Sound := by
  obtain ⟨_, _, _, carries⟩ :=
    wire_simulates wired event next wired.system ⟨rfl, sound.carries⟩
      trivial taken
  exact ⟨carries,
    system_invariant (fun _ _ _ holds stepped => Filled.step holds stepped)
      sound.carries sound.filled taken,
    system_invariant (fun _ _ _ holds stepped => Permitted.step holds stepped)
      sound.carries sound.permitted taken⟩

theorem sound_of_reached {events : List WireEvent}
    (reached : execute wireStep Wired.boot events = some wired) :
    wired.Sound :=
  execute_invariant Wired.Sound boot_sound
    (fun _ _ _ sound _ taken => sound.step taken)
    (meets_true Wired.boot events) reached

end Steps

/-- Callbacks and calls of `uart_send` that are under way need a fixed number
of steps, whichever of them goes on next: no schedule is longer, and one that
cannot be continued has brought all of them to their end. -/
theorem callbacks_return (events : List WireEvent) (wired : Wired)
    (reached : execute wireStep Wired.boot events = some wired)
    (ready : wired.tty.ready = true)
    (given : wired.system.pc ≠ .giveRxCb)
    (schedule : List WireEvent) (final : Wired)
    (continues : Meets wireStep Continues wired schedule)
    (continued : execute wireStep wired schedule = some final) :
    schedule.length + final.work = wired.work ∧
      ((∀ event, Continues final event → wireStep final event = none) →
        final.AtRest) := by
  have spent :
      (schedule.length + final.work = wired.work ∧ final.Sound) ∧
        final.tty.ready = true ∧ final.system.pc ≠ .giveRxCb := by
    refine execute_induction
      (motive := fun schedule state =>
        (schedule.length + state.work = wired.work ∧ state.Sound) ∧
          state.tty.ready = true ∧ state.system.pc ≠ .giveRxCb)
      ⟨⟨Nat.zero_add _, sound_of_reached reached⟩, ready, given⟩ ?_
      continues continued
    intro earlier state event next soFar goesOn taken
    obtain ⟨⟨total, sound⟩, isReady, isGiven⟩ := soFar
    have less := work_of_continues sound.carries sound.filled goesOn taken
    have stillReady := ready_of_continues goesOn taken
    refine ⟨⟨?_, sound.step taken⟩, stillReady.trans isReady, ?_⟩
    · rw [List.length_append, List.length_singleton]
      omega
    · exact system_invariant
        (fun _ _ _ holds stepped => given_of_step holds stepped)
        sound.carries isGiven taken
  obtain ⟨⟨total, sound⟩, isReady, isGiven⟩ := spent
  exact ⟨total, fun stuck =>
    atRest_of_stuck sound.carries sound.permitted isReady isGiven stuck⟩

/-- Both callbacks are called, and both wait for `sem_rx_cb`. -/
def bothCalled : List WireEvent :=
  [.initialise, .run (.lora 0 []), .run (.txData ⟨true, 0, 0, 0⟩),
    .run (.rxData ⟨[1], 1, 0, 0⟩ [])]

def bothReturn : List WireEvent :=
  let tx : WireEvent := .run (.txData ⟨true, 0, 0, 0⟩)
  let rx : WireEvent := .run (.rxData ⟨[1], 1, 0, 0⟩ [])
  let sent : Writer → Nat → List WireEvent := fun writer length =>
    List.replicate (length + 3) (.send writer)
  [[tx, tx], sent .txData 31, [tx], sent .txData 17, [tx], sent .txData 2,
    [tx], [rx, rx], sent .rxData 23, [rx], sent .rxData 4, [rx],
    sent .rxData 19, [rx], sent .rxData 2, [rx]].flatten

theorem bothReturn_atRest :
    ∃ wired final, execute wireStep Wired.boot bothCalled = some wired ∧
      execute wireStep wired bothReturn = some final ∧
      bothReturn.length + final.work = wired.work ∧ final.AtRest := by
  have runs : (execute wireStep Wired.boot bothCalled).any (fun wired =>
      decide (wired.tty.ready = true ∧ wired.system.pc ≠ .giveRxCb ∧
        Meets wireStep Continues wired bothReturn) &&
      (execute wireStep wired bothReturn).any fun final =>
        decide (final.system.txData = .idle ∧ final.system.rxData = .idle ∧
          ∀ writer, final.tty.pc writer = .outside)) = true := by
    decide +kernel
  obtain ⟨wired, reached, holds⟩ := (Option.any_eq_true _ _).mp runs
  rw [Bool.and_eq_true, decide_eq_true_eq] at holds
  obtain ⟨⟨ready, given, continues⟩, ends⟩ := holds
  obtain ⟨final, continued, rests⟩ := (Option.any_eq_true _ _).mp ends
  obtain ⟨txData, rxData, outside⟩ := of_decide_eq_true rests
  have outcome := callbacks_return bothCalled wired reached ready given
    bothReturn final continues continued
  refine ⟨wired, final, reached, continued, outcome.1,
    outcome.2 fun event goesOn => ?_⟩
  cases event with
  | initialise => exact goesOn.elim
  | send writer => simp [wireStep, outside writer, sendStep]
  | run event =>
      cases event with
      | txData result => exact absurd txData goesOn
      | rxData packet stack => exact absurd rxData goesOn
      | lora _ _ | setEnabled _ | push _ => exact goesOn.elim

end LoraIot.Lora
