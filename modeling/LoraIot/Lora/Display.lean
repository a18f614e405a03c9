import LoraIot.Lora.Task
import Mathlib.Data.List.TakeDrop

/-!
# Payloads on the UART

`display_base64_data` encodes into a buffer of 64 bytes, ignores the result
code of the encoder and uses the length it reports.  For a payload whose
encoding does not fit, that is the length it would have needed, which lies
behind the buffer.  An uplink has up to 53 bytes and a downlink up to 255; the
buffer is large enough for 45.
-/

namespace LoraIot.Lora

open LoraIot.CStrings LoraIot.Base64

/-- The memory from `obuffer` on, after `base64_encode`. -/
def displayMemory (stack payload : List UInt8) : List UInt8 :=
  (base64Encode (stack.takeD 64 0) 64 payload).2.1 ++ stack.drop 64

/-- `obuffer_len` after `base64_encode`. -/
def displayLength (stack payload : List UInt8) : Nat :=
  (base64Encode (stack.takeD 64 0) 64 payload).2.2

theorem displayBase64Data_eq (stack payload : List UInt8) :
    displayBase64Data stack payload =
      (uartSend (displayMemory stack payload) (displayLength stack payload),
        displayLength stack payload) := rfl

/-- The UART gets the encoding, and every index into `obuffer` lies below
64. -/
structure DisplaysExactly (stack payload : List UInt8) : Prop where
  sent : (displayBase64Data stack payload).1 = encode payload
  reads : ∀ index <
    uartSendExtent (displayMemory stack payload)
      (displayLength stack payload), index < 64
  terminates : (displayBase64Data stack payload).2 < 64

theorem encode_eq_nil_iff (payload : List UInt8) :
    encode payload = [] ↔ payload = [] := by
  rw [← List.length_eq_zero_iff, encode_length, ← List.length_eq_zero_iff]
  omega

section Fits

variable {payload : List UInt8} (fits : payload.length ≤ 45)

include fits

theorem displayLength_of_fits (stack : List UInt8) :
    displayLength stack payload = (encode payload).length := by
  rw [displayLength, base64Encode_of_room (by omega), encode_length]

/-- The encoding stands at the start of `obuffer`, with a terminator. -/
theorem displayMemory_of_fits (stack : List UInt8) :
    ∃ rest,
      displayMemory stack payload = encode payload ++ 0 :: rest := by
  have room : (encode payload ++ [0]).length ≤ (stack.takeD 64 0).length := by
    rw [List.length_append, encode_length, List.takeD_length]
    simp only [List.length_singleton]
    omega
  refine ⟨(stack.takeD 64 0).drop (encode payload ++ [0]).length ++
    stack.drop 64, ?_⟩
  rw [displayMemory, base64Encode_of_room (by omega),
    overlay_zero_of_le room]
  simp only [List.append_assoc, List.cons_append, List.nil_append]

theorem displaysExactly_of_fits (stack : List UInt8) :
    DisplaysExactly stack payload := by
  have length := displayLength_of_fits fits stack
  obtain ⟨rest, memory⟩ := displayMemory_of_fits fits stack
  have bound : (encode payload).length ≤ 60 := by
    rw [encode_length]
    omega
  by_cases isEmpty : payload = []
  · -- An empty encoding has length zero, and `uart_send` measures it.
    have nothing := (encode_eq_nil_iff payload).mpr isEmpty
    rw [nothing] at length memory
    rw [List.length_nil] at length
    rw [List.nil_append] at memory
    refine ⟨?_, ?_, ?_⟩
    · simp only [displayBase64Data_eq, length, memory, nothing, uartSend,
        if_true, cstr_zero_cons]
    · simp only [length, memory, uartSendExtent, if_true, strlen,
        cstr_zero_cons, List.length_nil]
      omega
    · simp only [displayBase64Data_eq, length]
      omega
  · have present : (encode payload).length ≠ 0 := by
      rw [Ne, List.length_eq_zero_iff, encode_eq_nil_iff]
      exact isEmpty
    refine ⟨?_, ?_, ?_⟩
    · simp only [displayBase64Data_eq, length, memory, uartSend,
        if_neg present]
      exact List.takeD_left' rfl
    · simp only [length, uartSendExtent, if_neg present]
      omega
    · simp only [displayBase64Data_eq, length]
      omega

end Fits

/-- A payload is displayed exactly, whatever the stack held, when it has at
most 45 bytes. -/
theorem displaysExactly_iff (stack payload : List UInt8) :
    DisplaysExactly stack payload ↔ payload.length ≤ 45 := by
  constructor
  · intro displays
    by_contra tooLong
    have noRoom : 64 < 4 * ((payload.length + 2) / 3) + 1 := by omega
    have length : displayLength stack payload =
        4 * ((payload.length + 2) / 3) + 1 := by
      rw [displayLength, base64Encode_of_no_room noRoom]
    have below := displays.terminates
    rw [displayBase64Data_eq, length] at below
    omega
  · intro fits
    exact displaysExactly_of_fits fits stack

/-- An uplink of 46 bytes can be queued, and is not displayed. -/
theorem uplink_not_displaysExactly :
    ¬ ∀ (stack : List UInt8) (uplink : LoraTxMessage),
      DisplaysExactly stack uplink.message := by
  intro always
  have below :=
    (always [] ⟨List.replicate 46 0, by decide, by decide⟩).terminates
  revert below
  decide

end LoraIot.Lora
