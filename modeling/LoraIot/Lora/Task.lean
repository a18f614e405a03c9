import LoraIot.Foundations.Runs
import LoraIot.Lora.Notifications

/-!
# The LoRa thread and what runs beside it (`LoRa_task.c`)

The LoRa thread is a program counter that stands in front of its next access to
something shared: a read of a flag, a semaphore, the queue, the UART or the
LoRaWAN stack.  One event takes one such step, so that the two callbacks, a
write of `enabled` and an enqueued message can come between any two of them.
What the LoRaWAN stack answers and what uninitialised memory holds comes with
the event.

`radio` remembers what was handed to the radio and what it reported back.
-/

namespace LoraIot.Lora

open LoraIot.CStrings LoraIot.Runs

/-- `struct lora_tx_message`, of which only the first `length` bytes are ever
read. -/
structure LoraTxMessage where
  message : List UInt8
  nonempty : 0 < message.length
  fits : message.length ≤ 53
  deriving DecidableEq, Repr

def LoraTxMessage.length (msg : LoraTxMessage) : Nat := msg.message.length

def queueCapacity : Nat := 4

inductive Pc where
  | giveRxCb
  /-- Reads `var_connected` at the top of the loop. -/
  | loop
  /-- Reads `var_enabled` in the first condition. -/
  | testEnabled
  /-- Reads `var_enabled` in the second condition. -/
  | testSend
  | start
  | joinLine (status : JoinStatus)
  | configure
  | join
  | setConnected
  | joinSleep
  | sendSleep
  | dequeue
  /-- About to take `sem_tx_busy`. -/
  | takeTxBusy (msg : LoraTxMessage)
  | sendHead (msg : LoraTxMessage)
  | sendPayload (msg : LoraTxMessage)
  | sendClose (msg : LoraTxMessage)
  /-- About to call `lorawan_send`. -/
  | send (msg : LoraTxMessage)
  | failHead (ret : Int)
  | failStatus (ret : Int)
  | failClose
  | failSleep
  | clearConnected
  | idleSleep
  deriving DecidableEq, Repr

inductive TxPc where
  | idle
  | takeRxCb (result : TxResult)
  | head (result : TxResult)
  | status (result : TxResult)
  | close
  | giveRxCb
  deriving DecidableEq, Repr

inductive RxPc where
  | idle
  | takeRxCb (packet : RxPacket)
  | head (packet : RxPacket)
  | payload (packet : RxPacket)
  | status (packet : RxPacket)
  | close
  | giveRxCb
  deriving DecidableEq, Repr

/-- What the radio sees, and what it reports. -/
inductive RadioEvent where
  /-- The LoRa thread has passed `sem_tx_busy`. -/
  | taken
  | sent (msg : LoraTxMessage) (ret : Int)
  /-- `lorawan_tx_data` has given `sem_tx_busy`. -/
  | answered
  deriving DecidableEq, Repr

structure System where
  varConnected : Bool
  varEnabled : Bool
  semRxCb : Nat
  semTxBusy : Nat
  loraTxQueue : List LoraTxMessage
  pc : Pc
  txData : TxPc
  rxData : RxPc
  uart : List Line
  radio : List RadioEvent
  deriving DecidableEq, Repr

def boot : System where
  varConnected := false
  varEnabled := false
  semRxCb := 0
  semTxBusy := 0
  loraTxQueue := []
  pc := .giveRxCb
  txData := .idle
  rxData := .idle
  uart := []
  radio := []

inductive Event where
  /-- A step of the LoRa thread. -/
  | lora (ret : Int) (stack : List UInt8)
  /-- A step of the thread that runs `lorawan_tx_data`. -/
  | txData (result : TxResult)
  /-- A step of the thread that runs `lorawan_rx_data`. -/
  | rxData (packet : RxPacket) (stack : List UInt8)
  /-- Another thread writes `var_enabled` through the row `enabled`. -/
  | setEnabled (enabled : Bool)
  /-- Another thread puts a message into `lora_tx_queue`. -/
  | push (msg : LoraTxMessage)
  deriving DecidableEq, Repr

namespace System

def write (system : System) (line : Line) : System :=
  { system with uart := system.uart ++ [line] }

def goto (system : System) (pc : Pc) : System := { system with pc := pc }

def remember (system : System) (event : RadioEvent) : System :=
  { system with radio := system.radio ++ [event] }

@[simp]
theorem goto_pc (system : System) (pc : Pc) : (system.goto pc).pc = pc := rfl

@[simp]
theorem write_pc (system : System) (line : Line) :
    (system.write line).pc = system.pc := rfl

@[simp]
theorem remember_pc (system : System) (event : RadioEvent) :
    (system.remember event).pc = system.pc := rfl

end System

/-- One step of `lora_thread`.  `ret` is what a call of the LoRaWAN stack
returns at this point. -/
def loraThread (system : System) (ret : Int) (stack : List UInt8) : System :=
  match system.pc with
  | .giveRxCb => { system with semRxCb := 1, pc := .loop }
  | .loop =>
      system.goto (if system.varConnected then .testSend else .testEnabled)
  | .testEnabled =>
      system.goto (if system.varEnabled then .start else .testSend)
  | .testSend =>
      system.goto (if system.varEnabled then .sendSleep else .clearConnected)
  | .start => system.goto (if ret = 0 then .joinLine .start else .configure)
  | .joinLine status =>
      (system.write (wholeLine status.text)).goto
        (match status with
        | .start => .configure
        | .send => .join
        | .complete => .setConnected
        | _ => .joinSleep)
  | .configure =>
      system.goto (.joinLine (if ret ≠ 0 then .invalid else .send))
  | .join => system.goto (.joinLine (joinStatus ret))
  | .setConnected => { system with varConnected := true, pc := .joinSleep }
  | .joinSleep => system.goto .loop
  | .sendSleep => system.goto .dequeue
  | .dequeue =>
      match system.loraTxQueue with
      | [] => system.goto .loop
      | msg :: rest =>
          { system with loraTxQueue := rest, pc := .takeTxBusy msg }
  | .takeTxBusy msg =>
      -- Without a permit this is the time-out, whose result is not tested.
      ({ system with
          semTxBusy := system.semTxBusy - 1
          pc := .sendHead msg }).remember .taken
  | .sendHead msg => (system.write Lora.sendHead).goto (.sendPayload msg)
  | .sendPayload msg =>
      (system.write
        (middle .loraThread (displayBase64Data stack msg.message).1)).goto
          (.sendClose msg)
  | .sendClose msg => (system.write (closing .loraThread)).goto (.send msg)
  | .send msg =>
      (system.remember (.sent msg ret)).goto
        (if ret ≠ 0 then .failHead ret else .loop)
  | .failHead ret => (system.write Lora.failHead).goto (.failStatus ret)
  | .failStatus ret => (system.write (Lora.failStatus ret)).goto .failClose
  | .failClose => (system.write (closing .loraThread)).goto .failSleep
  | .failSleep => system.goto .loop
  | .clearConnected => { system with varConnected := false, pc := .idleSleep }
  | .idleSleep => system.goto .loop

/-- One step of `lorawan_tx_data`, from its call on.  It blocks on
`sem_rx_cb`. -/
def lorawanTxData (system : System) (result : TxResult) : Option System :=
  match system.txData with
  | .idle =>
      some
        ({ system with
            semTxBusy := 1
            txData := .takeRxCb result }.remember .answered)
  | .takeRxCb result =>
      if system.semRxCb = 0 then
        none
      else
        some
          { system with
            semRxCb := system.semRxCb - 1
            txData := .head result }
  | .head result =>
      some { system.write (txHead result.success) with
        txData := .status result }
  | .status result =>
      some { system.write (middle .txData (uartSend result.status 0)) with
        txData := .close }
  | .close =>
      some { system.write (closing .txData) with txData := .giveRxCb }
  | .giveRxCb => some { system with semRxCb := 1, txData := .idle }

/-- One step of `lorawan_rx_data`, from its call on.  Without data it does
nothing. -/
def lorawanRxData (system : System) (packet : RxPacket)
    (stack : List UInt8) : Option System :=
  match system.rxData with
  | .idle =>
      if packet.buffer = [] then
        some system
      else
        some { system with rxData := .takeRxCb packet }
  | .takeRxCb packet =>
      if system.semRxCb = 0 then
        none
      else
        some
          { system with
            semRxCb := system.semRxCb - 1
            rxData := .head packet }
  | .head packet =>
      some { system.write rxHead with rxData := .payload packet }
  | .payload packet =>
      some
        { system.write
            (middle .rxData (displayBase64Data stack packet.buffer).1) with
          rxData := .status packet }
  | .status packet =>
      some { system.write (middle .rxData (uartSend packet.status 0)) with
        rxData := .close }
  | .close =>
      some { system.write (closing .rxData) with rxData := .giveRxCb }
  | .giveRxCb => some { system with semRxCb := 1, rxData := .idle }

/-- `k_msgq_put` without waiting. -/
def push (system : System) (msg : LoraTxMessage) : System :=
  if system.loraTxQueue.length < queueCapacity then
    { system with loraTxQueue := system.loraTxQueue ++ [msg] }
  else
    system

def step (system : System) : Event → Option System
  | .lora ret stack => some (loraThread system ret stack)
  | .txData result => lorawanTxData system result
  | .rxData packet stack => lorawanRxData system packet stack
  | .setEnabled enabled => some { system with varEnabled := enabled }
  | .push msg => some (push system msg)

/-- Neither the LoRa thread nor the flags and the queue that it reads have
changed. -/
structure Beside (system next : System) : Prop where
  pc : next.pc = system.pc
  varConnected : next.varConnected = system.varConnected
  varEnabled : next.varEnabled = system.varEnabled
  loraTxQueue : next.loraTxQueue = system.loraTxQueue

/-- `lorawan_tx_data` reports the radio's answer when it is called, and
nothing to the LoRa thread afterwards. -/
theorem lorawanTxData_beside {system next : System} {result : TxResult}
    (taken : lorawanTxData system result = some next) :
    Beside system next ∧
      ((system.txData = .idle ∧ next.radio = system.radio ++ [.answered] ∧
          next.semTxBusy = 1) ∨
        (next.radio = system.radio ∧
          next.semTxBusy = system.semTxBusy)) := by
  rw [lorawanTxData] at taken
  cases stands : system.txData with
  | idle =>
      rw [stands] at taken
      cases taken
      exact ⟨⟨rfl, rfl, rfl, rfl⟩, Or.inl ⟨rfl, rfl, rfl⟩⟩
  | takeRxCb pending =>
      rw [stands] at taken
      dsimp only at taken
      split at taken
      · cases taken
      · cases taken
        exact ⟨⟨rfl, rfl, rfl, rfl⟩, Or.inr ⟨rfl, rfl⟩⟩
  | _ =>
      rw [stands] at taken
      cases taken
      exact ⟨⟨rfl, rfl, rfl, rfl⟩, Or.inr ⟨rfl, rfl⟩⟩

theorem lorawanRxData_beside {system next : System} {packet : RxPacket}
    {stack : List UInt8}
    (taken : lorawanRxData system packet stack = some next) :
    Beside system next ∧ next.radio = system.radio ∧
      next.semTxBusy = system.semTxBusy := by
  rw [lorawanRxData] at taken
  cases stands : system.rxData with
  | idle =>
      rw [stands] at taken
      dsimp only at taken
      split at taken
      · cases taken
        exact ⟨⟨rfl, rfl, rfl, rfl⟩, rfl, rfl⟩
      · cases taken
        exact ⟨⟨rfl, rfl, rfl, rfl⟩, rfl, rfl⟩
  | takeRxCb pending =>
      rw [stands] at taken
      dsimp only at taken
      split at taken
      · cases taken
      · cases taken
        exact ⟨⟨rfl, rfl, rfl, rfl⟩, rfl, rfl⟩
  | _ =>
      rw [stands] at taken
      cases taken
      exact ⟨⟨rfl, rfl, rfl, rfl⟩, rfl, rfl⟩

/-- Only the LoRa thread moves its program counter and writes `var_connected`,
and only `setEnabled` writes `var_enabled`. -/
theorem step_flags_of_other {system next : System} {event : Event}
    (notLora : ∀ ret stack, event ≠ .lora ret stack)
    (notSet : ∀ enabled, event ≠ .setEnabled enabled)
    (taken : step system event = some next) :
    next.pc = system.pc ∧ next.varConnected = system.varConnected ∧
      next.varEnabled = system.varEnabled := by
  cases event with
  | lora ret stack => exact absurd rfl (notLora ret stack)
  | txData result =>
      obtain ⟨beside, _⟩ := lorawanTxData_beside taken
      exact ⟨beside.pc, beside.varConnected, beside.varEnabled⟩
  | rxData packet stack =>
      obtain ⟨beside, _⟩ := lorawanRxData_beside taken
      exact ⟨beside.pc, beside.varConnected, beside.varEnabled⟩
  | setEnabled enabled => exact absurd rfl (notSet enabled)
  | push msg =>
      cases taken
      rw [push]
      split
      · exact ⟨rfl, rfl, rfl⟩
      · exact ⟨rfl, rfl, rfl⟩

end LoraIot.Lora
