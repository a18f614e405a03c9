import LoraIot.Foundations.Base64
import LoraIot.Foundations.Framing
import LoraIot.Foundations.Numerals

/-!
# Notifications on the UART (`LoRa_task.c`, `uart_task.c`)

Three writers send `+notify` lines: the LoRa thread and the two callbacks of
the LoRaWAN stack.  A line is one call of `uart_send` or several, and each call
is atomic.  The texts are those of the source; which piece opens a line and
which one closes it is noted beside them.
-/

namespace LoraIot.Lora

open LoraIot.CStrings LoraIot.Numerals LoraIot.Framing LoraIot.Base64

inductive Writer where
  | loraThread | txData | rxData
  deriving DecidableEq, Repr

abbrev Line := Piece Writer (List UInt8)

/-- The bytes that `uart_send` writes: `length` bytes, or the string when
`length` is zero. -/
def uartSend (buffer : List UInt8) (length : Nat) : List UInt8 :=
  if length = 0 then cstr buffer else buffer.takeD length 0

/-- How many bytes of the buffer `uart_send` reads, counting a terminator that
it looks for. -/
def uartSendExtent (buffer : List UInt8) (length : Nat) : Nat :=
  if length = 0 then strlen buffer + 1 else length

/-- `snprintf(status_str, size - 1, …)` keeps at most `size - 2` characters. -/
def statusStr (size : Nat) (text : List UInt8) : List UInt8 :=
  text.take (size - 2)

/-- `display_base64_data`: what it writes to the UART, and the index at which
it terminates `obuffer` afterwards.  `stack` is what the memory from `obuffer`
on held before. -/
def displayBase64Data (stack buffer : List UInt8) : List UInt8 × Nat :=
  let encoded := base64Encode (stack.takeD 64 0) 64 buffer
  (uartSend (encoded.2.1 ++ stack.drop 64) encoded.2.2, encoded.2.2)

/-- The one-piece lines that report how a join proceeds. -/
inductive JoinStatus where
  | start
  /-- The configuration was invalid. -/
  | invalid
  | send | complete | timeout | rejected
  deriving DecidableEq, Repr

def JoinStatus.text : JoinStatus → List UInt8
  | .start => ascii "+notify,lora:join,status:start\r\n"
  | .invalid => ascii "+notify,lora:join,status:rejected\r\n"
  | .send => ascii "+notify,lora:join,status:send\r\n"
  | .complete => ascii "+notify,lora:join,status:complete\r\n"
  | .timeout => ascii "+notify,lora:join,status:timeout\r\n"
  | .rejected => ascii "+notify,lora:join,status:rejected\r\n"

def etimedout : Int := 116

/-- The status that the switch over the result of `lorawan_join` reports. -/
def joinStatus (result : Int) : JoinStatus :=
  if result = 0 then .complete
  else if result = -etimedout then .timeout
  else .rejected

structure TxResult where
  success : Bool
  channel : Nat
  dataRate : Nat
  txPower : Nat
  deriving DecidableEq, Repr

/-- `chan:%d,dr:%d,pow:%d` -/
def TxResult.status (result : TxResult) : List UInt8 :=
  statusStr 32
    (ascii "chan:" ++ decimalInt (asInt result.channel) ++ ascii ",dr:" ++
      decimal result.dataRate ++ ascii ",pow:" ++ decimal result.txPower)

structure RxPacket where
  buffer : List UInt8
  port : Nat
  rssi : Int
  dataRate : Nat
  deriving DecidableEq, Repr

/-- `,port:%d,dr:%d,rssi:%d` -/
def RxPacket.status (packet : RxPacket) : List UInt8 :=
  statusStr 32
    (ascii ",port:" ++ decimal packet.port ++ ascii ",dr:" ++
      decimal packet.dataRate ++ ascii ",rssi:" ++ decimalInt packet.rssi)

def wholeLine (text : List UInt8) : Line :=
  ⟨.loraThread, uartSend text 0, true, true⟩

def opening (writer : Writer) (text : List UInt8) : Line :=
  ⟨writer, uartSend text 0, true, false⟩

def middle (writer : Writer) (sent : List UInt8) : Line :=
  ⟨writer, sent, false, false⟩

def closing (writer : Writer) : Line :=
  ⟨writer, uartSend (ascii "\r\n") 0, false, true⟩

def sendHead : Line :=
  opening .loraThread (ascii "+notify,lora:tx,status:send,base64:")

def failHead : Line :=
  opening .loraThread (ascii "+notify,lora:tx,status:fail,")

/-- `err:%d` -/
def failStatus (ret : Int) : Line :=
  middle .loraThread
    (uartSend (statusStr 16 (ascii "err:" ++ decimalInt ret)) 0)

def txHead (success : Bool) : Line :=
  opening .txData
    (if success then ascii "+notify,lora:tx,status:success,"
      else ascii "+notify,lora:tx,status:fail,")

def rxHead : Line := opening .rxData (ascii "+notify,lora:rx,base64:")

/-- A first piece starts with `+notify,` and a last one ends the line. -/
def Marked (line : Line) : Prop :=
  (line.opens = true → ascii "+notify," <+: line.content) ∧
    (line.closes = true → ascii "\r\n" <:+ line.content)

instance (line : Line) : Decidable (Marked line) :=
  inferInstanceAs (Decidable (_ ∧ _))

/-- What a piece opens and closes can be seen from its bytes. -/
theorem pieces_marked :
    (∀ status : JoinStatus, Marked (wholeLine status.text)) ∧
      Marked sendHead ∧ Marked failHead ∧
      (∀ success, Marked (txHead success)) ∧ Marked rxHead ∧
      (∀ writer sent, Marked (middle writer sent)) ∧
      ∀ writer, Marked (closing writer) := by
  refine ⟨fun status => ?_, by decide, by decide, by decide, by decide,
    fun writer sent => ⟨Bool.noConfusion, Bool.noConfusion⟩,
    fun writer => ?_⟩
  · cases status <;> decide
  · cases writer <;> decide

end LoraIot.Lora
