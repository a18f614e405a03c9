import LoraIot.Foundations.Records
import LoraIot.Lora.Notifications

/-!
# The format of the notifications

A host reads the UART line by line, splits a line at its commas and takes every
field for a name with a value.  `readReport` is such a reader.  It inverts the
printing of every notification whose payload and numbers fit the buffers of the
device.
-/

namespace LoraIot.Lora

open LoraIot.Base64 LoraIot.CStrings LoraIot.Numerals LoraIot.Records

inductive Report where
  | join (status : JoinStatus)
  | sending (payload : List UInt8)
  | refused (ret : Int)
  | answered (result : TxResult)
  | received (packet : RxPacket)
  deriving DecidableEq, Repr

def field (name : String) (value : List UInt8) : List UInt8 :=
  ascii name ++ value

def valueOf (name : String) (text : List UInt8) : Option (List UInt8) :=
  if ascii name <+: text then some (text.drop (ascii name).length) else none

@[simp]
theorem valueOf_field (name : String) (value : List UInt8) :
    valueOf name (field name value) = some value := by
  rw [valueOf, field, if_pos (List.prefix_append _ _), List.drop_left]

/-- How a join proceeds, as a host sees it: an invalid configuration and a
refusal look the same. -/
def JoinStatus.seen : JoinStatus → JoinStatus
  | .invalid => .rejected
  | status => status

def JoinStatus.word : JoinStatus → List UInt8
  | .start => ascii "start"
  | .invalid => ascii "rejected"
  | .send => ascii "send"
  | .complete => ascii "complete"
  | .timeout => ascii "timeout"
  | .rejected => ascii "rejected"

def readJoinStatus (word : List UInt8) : Option JoinStatus :=
  [.start, .send, .complete, .timeout, .rejected].find? fun status =>
    decide (JoinStatus.word status = word)

theorem readJoinStatus_word (status : JoinStatus) :
    readJoinStatus status.word = some status.seen := by
  cases status <;> decide

def outcomeWord (success : Bool) : List UInt8 :=
  if success then ascii "success" else ascii "fail"

def Report.fields : Report → List (List UInt8)
  | .join status =>
      [ascii "+notify", ascii "lora:join", field "status:" status.word]
  | .sending payload =>
      [ascii "+notify", ascii "lora:tx", ascii "status:send",
        field "base64:" (encode payload)]
  | .refused ret =>
      [ascii "+notify", ascii "lora:tx", ascii "status:fail",
        field "err:" (decimalInt ret)]
  | .answered result =>
      [ascii "+notify", ascii "lora:tx",
        field "status:" (outcomeWord result.success),
        field "chan:" (decimalInt (asInt result.channel)),
        field "dr:" (decimal result.dataRate),
        field "pow:" (decimal result.txPower)]
  | .received packet =>
      [ascii "+notify", ascii "lora:rx",
        field "base64:" (encode packet.buffer),
        field "port:" (decimal packet.port),
        field "dr:" (decimal packet.dataRate),
        field "rssi:" (decimalInt packet.rssi)]

def comma : UInt8 := 44

def carriageReturn : UInt8 := 13

def lineFeed : UInt8 := 10

/-- The notification without its terminator. -/
def Report.text (report : Report) : List UInt8 :=
  [comma].intercalate report.fields

/-! ## The reader -/

def readInt (text : List UInt8) : Int := atoi (fun _ => 0) text

def readFields : List (List UInt8) → Option Report
  | [_, _, status] => do
      let word ← valueOf "status:" status
      (readJoinStatus word).map .join
  | [_, _, status, detail] =>
      if status = ascii "status:send" then do
        let text ← valueOf "base64:" detail
        (decode text).map .sending
      else do
        let text ← valueOf "err:" detail
        some (.refused (readInt text))
  | [_, source, first, second, third, fourth] =>
      if source = ascii "lora:tx" then do
        let outcome ← valueOf "status:" first
        let channel ← valueOf "chan:" second
        let dataRate ← valueOf "dr:" third
        let txPower ← valueOf "pow:" fourth
        some
          (.answered
            { success := outcome = ascii "success"
              channel := (readInt channel).toNat
              dataRate := (readInt dataRate).toNat
              txPower := (readInt txPower).toNat })
      else do
        let payload ← valueOf "base64:" first
        let port ← valueOf "port:" second
        let dataRate ← valueOf "dr:" third
        let rssi ← valueOf "rssi:" fourth
        let buffer ← decode payload
        some
          (.received
            { buffer := buffer
              port := (readInt port).toNat
              dataRate := (readInt dataRate).toNat
              rssi := readInt rssi })
  | _ => none

/-- Read a line that ends with a carriage return. -/
def readReport (line : List UInt8) : Option Report :=
  if line.getLast? = some carriageReturn then
    readFields (line.dropLast.splitOn comma)
  else
    none

def readReports (stream : List UInt8) : List (Option Report) :=
  (lines lineFeed stream).map readReport

/-- The payload and the numbers fit the buffers that they are printed in and
the types that they come from. -/
def Report.Legible : Report → Prop
  | .join _ => True
  | .sending payload => payload.length ≤ 45
  | .refused ret => ret.natAbs < 10 ^ 9
  | .answered result =>
      result.channel < 2 ^ 31 ∧ result.dataRate < 2 ^ 8 ∧
        result.txPower < 2 ^ 8
  | .received packet =>
      packet.buffer.length ≤ 45 ∧ packet.port < 2 ^ 8 ∧
        packet.dataRate < 2 ^ 8 ∧ packet.rssi.natAbs ≤ 2 ^ 15

instance : DecidablePred Report.Legible
  | .join _ => isTrue trivial
  | .sending payload => inferInstanceAs (Decidable (payload.length ≤ 45))
  | .refused ret => inferInstanceAs (Decidable (ret.natAbs < 10 ^ 9))
  | .answered _ => inferInstanceAs (Decidable (_ ∧ _ ∧ _))
  | .received _ => inferInstanceAs (Decidable (_ ∧ _ ∧ _ ∧ _))

def Report.seen : Report → Report
  | .join status => .join status.seen
  | report => report

theorem readInt_decimal {number : Nat} (small : number < 2 ^ 31) :
    (readInt (decimal number)).toNat = number := by
  rw [readInt, atoi_decimal _ small, Int.toNat_natCast]

theorem readFields_fields {report : Report} (legible : report.Legible) :
    readFields report.fields = some report.seen := by
  cases report with
  | join status =>
      simp only [Report.fields, readFields, valueOf_field,
        Option.bind_eq_bind, Option.bind_some, readJoinStatus_word,
        Option.map_some, Report.seen]
  | sending payload =>
      simp only [Report.fields, readFields, if_true, valueOf_field,
        Option.bind_eq_bind, Option.bind_some, decode_encode,
        Option.map_some, Report.seen]
  | refused ret =>
      simp only [Report.Legible] at legible
      have different : ascii "status:fail" ≠ ascii "status:send" := by decide
      have value : readInt (decimalInt ret) = ret :=
        atoi_decimalInt _ (by omega) (by omega)
      simp only [Report.fields, readFields, if_neg different, valueOf_field,
        Option.bind_eq_bind, Option.bind_some, value, Report.seen]
  | answered result =>
      obtain ⟨channelSmall, rateSmall, powerSmall⟩ := legible
      have asIs : asInt result.channel = result.channel := by
        rw [asInt, Nat.mod_eq_of_lt (by omega), if_pos channelSmall]
      have channel :
          (readInt (decimalInt (asInt result.channel))).toNat =
            result.channel := by
        rw [asIs, readInt, atoi_decimalInt _ (by omega) (by omega),
          Int.toNat_natCast]
      have outcome : decide (outcomeWord result.success = ascii "success") =
          result.success := by
        cases result.success <;> decide
      simp only [Report.fields, readFields, if_true, valueOf_field,
        Option.bind_eq_bind, Option.bind_some, channel, outcome,
        readInt_decimal (show result.dataRate < 2 ^ 31 by omega),
        readInt_decimal (show result.txPower < 2 ^ 31 by omega),
        Report.seen]
  | received packet =>
      obtain ⟨_, portSmall, rateSmall, rssiSmall⟩ := legible
      have different : ascii "lora:rx" ≠ ascii "lora:tx" := by decide
      have rssi : readInt (decimalInt packet.rssi) = packet.rssi :=
        atoi_decimalInt _ (by omega) (by omega)
      simp only [Report.fields, readFields, if_neg different, valueOf_field,
        Option.bind_eq_bind, Option.bind_some, decode_encode, rssi,
        readInt_decimal (show packet.port < 2 ^ 31 by omega),
        readInt_decimal (show packet.dataRate < 2 ^ 31 by omega),
        Report.seen]

/-- The byte is a printable character that is no comma. -/
def Word (text : List UInt8) : Prop := ∀ byte ∈ text, 43 ≤ byte ∧ byte ≠ 44

instance (text : List UInt8) : Decidable (Word text) :=
  decidable_of_iff
    (text.all (fun byte => decide (43 ≤ byte.toNat) && byte != 44) = true)
    (by simp [Word, UInt8.le_iff_toNat_le])

theorem Word.append {first second : List UInt8} (isFirst : Word first)
    (isSecond : Word second) : Word (first ++ second) := by
  intro byte member
  rcases List.mem_append.mp member with inFirst | inSecond
  · exact isFirst byte inFirst
  · exact isSecond byte inSecond

theorem word_decimal (number : Nat) : Word (decimal number) := by
  intro byte member
  have range := (isDigit_iff byte).mp (decimal_isDigit member)
  constructor
  · rw [UInt8.le_iff_toNat_le]
    change 43 ≤ byte.toNat
    omega
  · intro same
    rw [same] at range
    exact absurd range.1 (by decide)

theorem word_decimalInt (number : Int) : Word (decimalInt number) := by
  rw [decimalInt]
  split
  · exact Word.append (show Word [45] by decide) (word_decimal _)
  · exact word_decimal _

theorem word_encode (payload : List UInt8) : Word (encode payload) :=
  fun _ member => encode_word member

theorem Report.fields_word (report : Report) :
    ∀ text ∈ report.fields, Word text := by
  intro text member
  cases report with
  | join status =>
      simp only [Report.fields, List.mem_cons, List.not_mem_nil, or_false]
        at member
      rcases member with rfl | rfl | rfl
      · decide
      · decide
      · cases status <;> decide
  | sending payload =>
      simp only [Report.fields, List.mem_cons, List.not_mem_nil, or_false]
        at member
      rcases member with rfl | rfl | rfl | rfl
      · decide
      · decide
      · decide
      · exact Word.append (by decide) (word_encode payload)
  | refused ret =>
      simp only [Report.fields, List.mem_cons, List.not_mem_nil, or_false]
        at member
      rcases member with rfl | rfl | rfl | rfl
      · decide
      · decide
      · decide
      · exact Word.append (by decide) (word_decimalInt ret)
  | answered result =>
      simp only [Report.fields, List.mem_cons, List.not_mem_nil, or_false]
        at member
      rcases member with rfl | rfl | rfl | rfl | rfl | rfl
      · decide
      · decide
      · cases result.success <;> decide
      · exact Word.append (by decide) (word_decimalInt _)
      · exact Word.append (by decide) (word_decimal _)
      · exact Word.append (by decide) (word_decimal _)
  | received packet =>
      simp only [Report.fields, List.mem_cons, List.not_mem_nil, or_false]
        at member
      rcases member with rfl | rfl | rfl | rfl | rfl | rfl
      · decide
      · decide
      · exact Word.append (by decide) (word_encode _)
      · exact Word.append (by decide) (word_decimal _)
      · exact Word.append (by decide) (word_decimal _)
      · exact Word.append (by decide) (word_decimalInt _)

theorem Report.fields_ne_nil (report : Report) : report.fields ≠ [] := by
  cases report <;> exact List.cons_ne_nil _ _

/-- A text of printable characters has no terminator and no comma. -/
theorem Word.notMem {text : List UInt8} (word : Word text) :
    0 ∉ text ∧ lineFeed ∉ text ∧ comma ∉ text := by
  refine ⟨fun member => ?_, fun member => ?_, fun member => ?_⟩
  · exact absurd (word _ member).1 (by decide)
  · exact absurd (word _ member).1 (by decide)
  · exact (word _ member).2 rfl

/-- The line of a notification, without its line feed. -/
def Report.line (report : Report) : List UInt8 :=
  report.text ++ [carriageReturn]

theorem lineFeed_notMem_intercalate {texts : List (List UInt8)}
    (words : ∀ text ∈ texts, Word text) :
    lineFeed ∉ [comma].intercalate texts := by
  induction texts with
  | nil => exact List.not_mem_nil
  | cons text rest inductionHypothesis =>
      have here := (words text List.mem_cons_self).notMem.2.1
      have later := inductionHypothesis fun other member =>
        words other (List.mem_cons_of_mem text member)
      cases rest with
      | nil =>
          rw [List.intercalate_singleton]
          exact here
      | cons next more =>
          rw [List.intercalate_cons_cons, List.append_assoc, List.mem_append,
            List.mem_append]
          refine not_or.mpr ⟨here, not_or.mpr ⟨by decide, later⟩⟩

theorem lineFeed_notMem_line (report : Report) :
    lineFeed ∉ report.line := by
  rw [Report.line, List.mem_append]
  exact not_or.mpr
    ⟨lineFeed_notMem_intercalate report.fields_word, by decide⟩

theorem readReport_line {report : Report} (legible : report.Legible) :
    readReport report.line = some report.seen := by
  have split : report.text.splitOn comma = report.fields :=
    List.splitOn_intercalate comma
      (fun text member => (report.fields_word text member).notMem.2.2)
      report.fields_ne_nil
  rw [readReport, Report.line, if_pos List.getLast?_concat,
    List.dropLast_concat, split, readFields_fields legible]

/-! ## The pieces of a notification -/

def lineEnd : List UInt8 := [carriageReturn, lineFeed]

theorem uartSend_statusStr {size : Nat} {text : List UInt8}
    (fits : text.length ≤ size - 2) (noNul : 0 ∉ text) :
    uartSend (statusStr size text) 0 = text := by
  rw [statusStr, List.take_of_length_le fits, uartSend, if_pos rfl,
    cstr_eq_self noNul]

theorem wholeLine_content (status : JoinStatus) :
    (wholeLine status.text).content = (Report.join status).text ++ lineEnd := by
  cases status <;> decide

theorem sending_text (payload : List UInt8) :
    (Report.sending payload).text = sendHead.content ++ encode payload := by
  have head : sendHead.content =
      ascii "+notify" ++ [comma] ++ ascii "lora:tx" ++ [comma] ++
        ascii "status:send" ++ [comma] ++ ascii "base64:" := by decide
  rw [head]
  simp only [Report.text, Report.fields, field, List.intercalate_cons_cons,
    List.intercalate_singleton, List.append_assoc]

theorem refused_text {ret : Int} (legible : (Report.refused ret).Legible) :
    (Report.refused ret).text =
      failHead.content ++ (failStatus ret).content := by
  have head : failHead.content =
      ascii "+notify" ++ [comma] ++ ascii "lora:tx" ++ [comma] ++
        ascii "status:fail" ++ [comma] := by decide
  have word : Word (ascii "err:" ++ decimalInt ret) :=
    Word.append (by decide) (word_decimalInt ret)
  have length := decimalInt_length_le 9 ret (by decide) legible
  have status : (failStatus ret).content =
      ascii "err:" ++ decimalInt ret := by
    apply uartSend_statusStr _ word.notMem.1
    have tag : (ascii "err:").length = 4 := by decide
    rw [List.length_append, tag]
    omega
  rw [head, status]
  simp only [Report.text, Report.fields, field, List.intercalate_cons_cons,
    List.intercalate_singleton, List.append_assoc]

theorem answered_text {result : TxResult}
    (legible : (Report.answered result).Legible) :
    (Report.answered result).text =
      (txHead result.success).content ++ uartSend result.status 0 := by
  obtain ⟨channelSmall, rateSmall, powerSmall⟩ := legible
  have head : (txHead result.success).content =
      ascii "+notify" ++ [comma] ++ ascii "lora:tx" ++ [comma] ++
        ascii "status:" ++ outcomeWord result.success ++ [comma] := by
    cases result.success <;> decide
  have asIs : asInt result.channel = result.channel := by
    rw [asInt, Nat.mod_eq_of_lt (by omega), if_pos channelSmall]
  have channelLength : (decimalInt (asInt result.channel)).length ≤ 10 := by
    have digits := decimal_length_le 10 result.channel (by decide)
      (by omega)
    rw [asIs, decimalInt, if_neg (by omega), Int.natAbs_natCast]
    exact digits
  have rateLength := decimal_length_le 3 result.dataRate
    (by decide) (by omega)
  have powerLength := decimal_length_le 3 result.txPower
    (by decide) (by omega)
  have status : uartSend result.status 0 =
      ascii "chan:" ++ decimalInt (asInt result.channel) ++ ascii ",dr:" ++
        decimal result.dataRate ++ ascii ",pow:" ++
          decimal result.txPower := by
    apply uartSend_statusStr
    · have chan : (ascii "chan:").length = 5 := by decide
      have dr : (ascii ",dr:").length = 4 := by decide
      have pow : (ascii ",pow:").length = 5 := by decide
      simp only [List.length_append, chan, dr, pow]
      omega
    · have noNul := fun number =>
        (word_decimalInt number).notMem.1
      have noNulNat := fun number => (word_decimal number).notMem.1
      simp only [List.mem_append, noNul, noNulNat, or_false, not_or]
      decide
  have rate : ascii ",dr:" = [comma] ++ ascii "dr:" := by decide
  have power : ascii ",pow:" = [comma] ++ ascii "pow:" := by decide
  rw [head, status, rate, power]
  simp only [Report.text, Report.fields, field, List.intercalate_cons_cons,
    List.intercalate_singleton, List.append_assoc]

theorem received_text {packet : RxPacket}
    (legible : (Report.received packet).Legible) :
    (Report.received packet).text =
      rxHead.content ++ encode packet.buffer ++
        uartSend packet.status 0 := by
  obtain ⟨_, portSmall, rateSmall, rssiSmall⟩ := legible
  have head : rxHead.content =
      ascii "+notify" ++ [comma] ++ ascii "lora:rx" ++ [comma] ++
        ascii "base64:" := by decide
  have portLength := decimal_length_le 3 packet.port
    (by decide) (by omega)
  have rateLength := decimal_length_le 3 packet.dataRate
    (by decide) (by omega)
  have rssiLength := decimalInt_length_le 5 packet.rssi
    (by decide) (by omega)
  have status : uartSend packet.status 0 =
      ascii ",port:" ++ decimal packet.port ++ ascii ",dr:" ++
        decimal packet.dataRate ++ ascii ",rssi:" ++
          decimalInt packet.rssi := by
    apply uartSend_statusStr
    · have port : (ascii ",port:").length = 6 := by decide
      have dr : (ascii ",dr:").length = 4 := by decide
      have rssi : (ascii ",rssi:").length = 6 := by decide
      simp only [List.length_append, port, dr, rssi]
      omega
    · have noNul := fun number =>
        (word_decimalInt number).notMem.1
      have noNulNat := fun number => (word_decimal number).notMem.1
      simp only [List.mem_append, noNul, noNulNat, or_false, not_or]
      decide
  have port : ascii ",port:" = [comma] ++ ascii "port:" := by decide
  have rate : ascii ",dr:" = [comma] ++ ascii "dr:" := by decide
  have rssi : ascii ",rssi:" = [comma] ++ ascii "rssi:" := by decide
  rw [head, status, port, rate, rssi]
  simp only [Report.text, Report.fields, field, List.intercalate_cons_cons,
    List.intercalate_singleton, List.append_assoc]

end LoraIot.Lora
