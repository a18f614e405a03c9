import LoraIot.Lora.Task

/-!
# Accepting an uplink (`LoRa_task.c`)

`lora_push` decodes its argument, without the quotes around it, and puts the
bytes into `lora_tx_queue`.  One variable carries the results of both, and the
length of the text between the quotes is an unsigned difference.

What valid base64 decodes to is a parameter, since the decoder belongs to the
platform.
-/

namespace LoraIot.Lora

open LoraIot.CStrings LoraIot.Base64

/-- `strlen(value) - 2` in the arithmetic of `size_t`. -/
def sliceLength (length : Nat) : Nat :=
  if length < 2 then 2 ^ 32 + length - 2 else length - 2

def valueMemory (value beyond : List UInt8) : List UInt8 :=
  cstr value ++ 0 :: beyond

/-- The source range that `lora_push` hands to `base64_decode`. -/
def pushSource (value beyond : List UInt8) : List UInt8 :=
  ((valueMemory value beyond).drop 1).take (sliceLength (strlen value))

/-- `lora_push` up to `sem_lora_push`: the message it will enqueue, or the
result that it returns without enqueueing one. -/
def loraPushDecode (decode : List UInt8 → Option (List UInt8))
    (value beyond : List UInt8) : Except Int LoraTxMessage :=
  let decoded := base64Decode decode 53 (pushSource value beyond)
  if accepted :
      decoded.1 = 0 ∧ decoded.2.length ≤ 53 ∧ 0 < decoded.2.length then
    .ok ⟨decoded.2, accepted.2.2, accepted.2.1⟩
  else
    .error decoded.1

def enomsg : Int := -35

/-- `k_msgq_put` without waiting. -/
def kMsgqPut (queue : List LoraTxMessage) (msg : LoraTxMessage) :
    Int × List LoraTxMessage :=
  if queue.length < queueCapacity then
    (0, queue ++ [msg])
  else
    (enomsg, queue)

/-- `lora_push`: the result and the queue afterwards.  The flag says whether
the radio device was found. -/
def loraPush (decode : List UInt8 → Option (List UInt8)) (device : Bool)
    (value beyond : List UInt8) (queue : List LoraTxMessage) :
    Int × List LoraTxMessage :=
  if device then
    match loraPushDecode decode value beyond with
    | .error ret => (ret, queue)
    | .ok msg => kMsgqPut queue msg
  else
    (-1, queue)

/-- The value without its first and last character. -/
def pushContent (value : List UInt8) : List UInt8 :=
  ((cstr value).drop 1).dropLast

/-- The decoder is given characters of the value only; the result is zero when
the value denotes an uplink and the queue has room; and then, and only then,
that uplink has been appended to the queue. -/
structure PushExact (decode : List UInt8 → Option (List UInt8))
    (value beyond : List UInt8) (queue : List LoraTxMessage) : Prop where
  reads : ∀ index, 1 ≤ index → index < 1 + sliceLength (strlen value) →
    index ≤ strlen value
  zero_iff : (loraPush decode true value beyond queue).1 = 0 ↔
    (∃ bytes, decode (pushContent value) = some bytes ∧
      0 < bytes.length ∧ bytes.length ≤ 53) ∧
    queue.length < queueCapacity
  appended : (loraPush decode true value beyond queue).1 = 0 →
    ∃ msg : LoraTxMessage,
      decode (pushContent value) = some msg.message ∧
        (loraPush decode true value beyond queue).2 = queue ++ [msg]
  unchanged : (loraPush decode true value beyond queue).1 ≠ 0 →
    (loraPush decode true value beyond queue).2 = queue

section Push

variable {decode : List UInt8 → Option (List UInt8)}
  {value beyond : List UInt8} {queue : List LoraTxMessage}

/-- From two characters on, the source is what stands between the first and
the last one. -/
theorem pushSource_eq (long : 2 ≤ strlen value) (beyond : List UInt8) :
    pushSource value beyond = pushContent value := by
  have length : sliceLength (strlen value) =
      ((cstr value).drop 1).length - 1 := by
    rw [sliceLength, if_neg (by omega), List.length_drop, ← strlen.eq_1]
    omega
  rw [pushContent, List.dropLast_eq_take, pushSource, valueMemory, length,
    List.drop_append_of_le_length (by rw [← strlen.eq_1]; omega)]
  exact List.take_append_of_le_length (Nat.sub_le _ _)

/-- A message is made of every source that denotes 1 to 53 bytes, and holds
these. -/
theorem loraPushDecode_eq_ok_iff {msg : LoraTxMessage} :
    loraPushDecode decode value beyond = .ok msg ↔
      decode (pushSource value beyond) = some msg.message := by
  constructor
  · intro produced
    simp only [loraPushDecode] at produced
    split at produced
    · rename_i accepted
      cases produced
      exact (decode_of_base64Decode accepted.1).1
    · cases produced
  · intro decoded
    have stored := base64Decode_of_fits decoded msg.fits
    simp [loraPushDecode, stored, msg.fits, msg.nonempty]

/-- The one way to return zero without a message: a source that denotes
nothing. -/
theorem loraPushDecode_eq_error_zero_iff :
    loraPushDecode decode value beyond = .error 0 ↔
      decode (pushSource value beyond) = some [] := by
  constructor
  · intro returned
    simp only [loraPushDecode] at returned
    split at returned
    · cases returned
    · rename_i refused
      have succeeded :
          (base64Decode decode 53 (pushSource value beyond)).1 = 0 := by
        simpa using returned
      obtain ⟨decoded, fits⟩ := decode_of_base64Decode succeeded
      have nothing :
          (base64Decode decode 53 (pushSource value beyond)).2 = [] := by
        rw [← List.length_eq_zero_iff]
        by_contra something
        exact refused ⟨succeeded, fits, Nat.pos_of_ne_zero something⟩
      rw [decoded, nothing]
  · intro decoded
    have stored := base64Decode_of_fits decoded (Nat.zero_le 53)
    simp [loraPushDecode, stored]

theorem loraPush_of_error {ret : Int}
    (refused : loraPushDecode decode value beyond = .error ret)
    (queue : List LoraTxMessage) :
    loraPush decode true value beyond queue = (ret, queue) := by
  simp only [loraPush, refused, if_true]

theorem loraPush_of_ok {msg : LoraTxMessage}
    (decoded : loraPushDecode decode value beyond = .ok msg)
    (queue : List LoraTxMessage) :
    loraPush decode true value beyond queue = kMsgqPut queue msg := by
  simp only [loraPush, decoded, if_true]

theorem kMsgqPut_fst_eq_zero_iff (msg : LoraTxMessage) :
    (kMsgqPut queue msg).1 = 0 ↔ queue.length < queueCapacity := by
  rw [kMsgqPut]
  split
  · rename_i room
    exact iff_of_true rfl room
  · rename_i full
    exact iff_of_false (by simp [enomsg]) full

theorem kMsgqPut_snd (msg : LoraTxMessage) :
    (kMsgqPut queue msg).2 =
      if (kMsgqPut queue msg).1 = 0 then queue ++ [msg] else queue := by
  by_cases room : queue.length < queueCapacity
  · simp [kMsgqPut, room]
  · simp [kMsgqPut, room, enomsg]

theorem pushExact_of_denotes (long : 2 ≤ strlen value)
    (something : decode (pushContent value) ≠ some []) :
    PushExact decode value beyond queue := by
  have source := pushSource_eq long beyond
  have reads : ∀ index, 1 ≤ index →
      index < 1 + sliceLength (strlen value) → index ≤ strlen value := by
    intro index _ inside
    rw [sliceLength, if_neg (by omega)] at inside
    omega
  cases outcome : loraPushDecode decode value beyond with
  | ok msg =>
      have decoded := loraPushDecode_eq_ok_iff.mp outcome
      rw [source] at decoded
      have result := loraPush_of_ok outcome queue
      refine ⟨reads, ?_, ?_, ?_⟩
      · rw [result, kMsgqPut_fst_eq_zero_iff]
        have denotes : ∃ bytes, decode (pushContent value) = some bytes ∧
            0 < bytes.length ∧ bytes.length ≤ 53 :=
          ⟨msg.message, decoded, msg.nonempty, msg.fits⟩
        exact ⟨fun room => ⟨denotes, room⟩, fun both => both.2⟩
      · intro succeeded
        rw [result] at succeeded ⊢
        refine ⟨msg, decoded, ?_⟩
        rw [kMsgqPut_snd, if_pos succeeded]
      · intro failed
        rw [result] at failed ⊢
        rw [kMsgqPut_snd, if_neg failed]
  | error ret =>
      have result := loraPush_of_error outcome queue
      have nonzero : ret ≠ 0 := by
        intro isZero
        rw [isZero, loraPushDecode_eq_error_zero_iff, source] at outcome
        exact something outcome
      refine ⟨reads, ?_, ?_, ?_⟩
      · rw [result]
        refine iff_of_false nonzero ?_
        intro both
        obtain ⟨⟨bytes, decoded, nonempty, fits⟩, _⟩ := both
        rw [← source] at decoded
        have produced : loraPushDecode decode value beyond =
            .ok ⟨bytes, nonempty, fits⟩ :=
          loraPushDecode_eq_ok_iff.mpr decoded
        rw [outcome] at produced
        cases produced
      · intro succeeded
        rw [result] at succeeded
        exact absurd succeeded nonzero
      · intro _
        rw [result]

end Push

/-- `lora_push` is exact about acceptance when the value has at least two
characters and what stands between the first and the last one does not decode
to an empty payload. -/
theorem pushExact_iff (decode : List UInt8 → Option (List UInt8))
    (value beyond : List UInt8) (queue : List LoraTxMessage) :
    PushExact decode value beyond queue ↔
      2 ≤ strlen value ∧ decode (pushContent value) ≠ some [] := by
  constructor
  · intro isExact
    have long : 2 ≤ strlen value := by
      by_contra short
      have behind := isExact.reads (strlen value + 1) (by omega) (by
        rw [sliceLength, if_pos (by omega)]
        omega)
      omega
    refine ⟨long, ?_⟩
    intro nothing
    have returned : loraPushDecode decode value beyond = .error 0 := by
      rw [loraPushDecode_eq_error_zero_iff, pushSource_eq long]
      exact nothing
    have zero : (loraPush decode true value beyond queue).1 = 0 := by
      rw [loraPush_of_error returned]
    obtain ⟨⟨bytes, decoded, nonempty, _⟩, _⟩ := isExact.zero_iff.mp zero
    rw [nothing, Option.some.injEq] at decoded
    rw [← decoded] at nonempty
    exact Nat.lt_irrefl 0 nonempty
  · intro conditions
    exact pushExact_of_denotes conditions.1 conditions.2

/-- Two quotes with nothing between them: zero is returned and nothing is
enqueued. -/
theorem push_not_exact :
    ¬ ∀ (decode : List UInt8 → Option (List UInt8)),
      decode [] = some [] →
        ∀ (value beyond : List UInt8) (queue : List LoraTxMessage),
          PushExact decode value beyond queue := by
  intro always
  have zero := (always (fun src => if src = [] then some [] else none) rfl
    (ascii "\"\"") [] []).appended (by decide)
  obtain ⟨msg, _, enqueued⟩ := zero
  have nothing : (loraPush (fun src => if src = [] then some [] else none)
      true (ascii "\"\"") [] []).2 = [] := by decide
  rw [nothing] at enqueued
  simp at enqueued

end LoraIot.Lora
