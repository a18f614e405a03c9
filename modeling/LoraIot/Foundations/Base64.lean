import LoraIot.Foundations.CStrings

/-!
# Base64 into a buffer of fixed size

`encode` is the encoding itself.  `base64Encode` is the library function: it
refuses a destination without room for the encoding and its terminator, and
then reports the size it would have needed.  `base64Decode` takes the decoding
of valid texts as a parameter and adds the size of the destination.
-/

namespace LoraIot.Base64

open LoraIot.CStrings

def digit (number : Nat) : UInt8 :=
  if number < 26 then UInt8.ofNat (65 + number)
  else if number < 52 then UInt8.ofNat (71 + number)
  else if number < 62 then UInt8.ofNat (number - 4)
  else if number = 62 then 43
  else 47

def encode : List UInt8 → List UInt8
  | [] => []
  | [first] =>
      [digit (first.toNat / 4), digit (first.toNat % 4 * 16), 61, 61]
  | [first, second] =>
      [digit (first.toNat / 4),
        digit (first.toNat % 4 * 16 + second.toNat / 16),
        digit (second.toNat % 16 * 4), 61]
  | first :: second :: third :: rest =>
      digit (first.toNat / 4) ::
        digit (first.toNat % 4 * 16 + second.toNat / 16) ::
          digit (second.toNat % 16 * 4 + third.toNat / 64) ::
            digit (third.toNat % 64) :: encode rest

/-- Every three bytes, and a rest, become four characters. -/
theorem encode_length (src : List UInt8) :
    (encode src).length = 4 * ((src.length + 2) / 3) := by
  induction src using encode.induct with
  | case1 => rfl
  | case2 first => simp [encode]
  | case3 first second => simp [encode]
  | case4 first second third rest inductionHypothesis =>
      simp only [encode, List.length_cons, inductionHypothesis]
      omega

/-- The characters of the alphabet lie in a range without the padding and the
comma. -/
theorem digit_word {number : Nat} (small : number < 64) :
    43 ≤ digit number ∧ digit number ≠ 44 ∧ digit number ≠ 61 := by
  revert small
  revert number
  decide

/-- The bytes of an encoding are characters or padding. -/
theorem encode_word {src : List UInt8} {byte : UInt8}
    (member : byte ∈ encode src) : 43 ≤ byte ∧ byte ≠ 44 := by
  have character : ∀ number < 64, byte = digit number →
      43 ≤ byte ∧ byte ≠ 44 := by
    intro number small same
    rw [same]
    exact ⟨(digit_word small).1, (digit_word small).2.1⟩
  have padding : byte = 61 → 43 ≤ byte ∧ byte ≠ 44 := by
    intro same
    rw [same]
    decide
  induction src using encode.induct with
  | case1 => exact absurd member List.not_mem_nil
  | case2 first =>
      have bound := first.toNat_lt
      simp only [encode, List.mem_cons, List.not_mem_nil, or_false] at member
      rcases member with same | same | same | same
      · exact character _ (by omega) same
      · exact character _ (by omega) same
      · exact padding same
      · exact padding same
  | case3 first second =>
      have bound := first.toNat_lt
      have secondBound := second.toNat_lt
      simp only [encode, List.mem_cons, List.not_mem_nil, or_false] at member
      rcases member with same | same | same | same
      · exact character _ (by omega) same
      · exact character _ (by omega) same
      · exact character _ (by omega) same
      · exact padding same
  | case4 first second third rest inductionHypothesis =>
      have bound := first.toNat_lt
      have secondBound := second.toNat_lt
      have thirdBound := third.toNat_lt
      simp only [encode, List.mem_cons] at member
      rcases member with same | same | same | same | later
      · exact character _ (by omega) same
      · exact character _ (by omega) same
      · exact character _ (by omega) same
      · exact character _ (by omega) same
      · exact inductionHypothesis later

def sixBits (character : UInt8) : Option Nat :=
  (List.range 64).find? fun number => digit number == character

theorem sixBits_digit {number : Nat} (small : number < 64) :
    sixBits (digit number) = some number := by
  revert small
  revert number
  decide +kernel

/-- The bytes of an encoding: the last four characters may end with
padding. -/
def decode : List UInt8 → Option (List UInt8)
  | [] => some []
  | first :: second :: third :: fourth :: rest => do
      let high ← sixBits first
      let low ← sixBits second
      let byte := UInt8.ofNat (high * 4 + low / 16)
      if third = 61 ∧ fourth = 61 ∧ rest = [] then
        some [byte]
      else
        let middle ← sixBits third
        let next := UInt8.ofNat (low % 16 * 16 + middle / 4)
        if fourth = 61 ∧ rest = [] then
          some [byte, next]
        else
          let last ← sixBits fourth
          let bytes ← decode rest
          some (byte :: next :: UInt8.ofNat (middle % 4 * 64 + last) :: bytes)
  | _ => none

theorem ofNat_eq {number : Nat} {byte : UInt8} (same : number = byte.toNat) :
    UInt8.ofNat number = byte := by
  rw [same, UInt8.ofNat_toNat]

theorem decode_encode (src : List UInt8) : decode (encode src) = some src := by
  induction src using encode.induct with
  | case1 => rfl
  | case2 first =>
      have bound := first.toNat_lt
      have byte : UInt8.ofNat
          (first.toNat / 4 * 4 + first.toNat % 4 * 16 / 16) = first :=
        ofNat_eq (by omega)
      simp only [encode, decode, sixBits_digit
        (show first.toNat / 4 < 64 by omega), sixBits_digit
        (show first.toNat % 4 * 16 < 64 by omega), Option.bind_eq_bind,
        Option.bind_some, and_self, if_true, byte]
  | case3 first second =>
      have bound := first.toNat_lt
      have secondBound := second.toNat_lt
      have high := sixBits_digit (show first.toNat / 4 < 64 by omega)
      have low := sixBits_digit
        (show first.toNat % 4 * 16 + second.toNat / 16 < 64 by omega)
      have small : second.toNat % 16 * 4 < 64 := by omega
      have middle := sixBits_digit small
      have noPadding := (digit_word small).2.2
      have byte : UInt8.ofNat
          (first.toNat / 4 * 4 +
            (first.toNat % 4 * 16 + second.toNat / 16) / 16) = first :=
        ofNat_eq (by omega)
      have next : UInt8.ofNat
          ((first.toNat % 4 * 16 + second.toNat / 16) % 16 * 16 +
            second.toNat % 16 * 4 / 4) = second :=
        ofNat_eq (by omega)
      simp only [encode, decode, high, low, middle, noPadding, byte, next,
        Option.bind_eq_bind, Option.bind_some, false_and, if_false, and_self,
        if_true]
  | case4 first second third rest inductionHypothesis =>
      have bound := first.toNat_lt
      have secondBound := second.toNat_lt
      have thirdBound := third.toNat_lt
      have high := sixBits_digit (show first.toNat / 4 < 64 by omega)
      have low := sixBits_digit
        (show first.toNat % 4 * 16 + second.toNat / 16 < 64 by omega)
      have small :
          second.toNat % 16 * 4 + third.toNat / 64 < 64 := by omega
      have smallLast : third.toNat % 64 < 64 := by omega
      have middle := sixBits_digit small
      have last := sixBits_digit smallLast
      have noPadding := (digit_word small).2.2
      have noPaddingLast := (digit_word smallLast).2.2
      have byte : UInt8.ofNat
          (first.toNat / 4 * 4 +
            (first.toNat % 4 * 16 + second.toNat / 16) / 16) = first :=
        ofNat_eq (by omega)
      have next : UInt8.ofNat
          ((first.toNat % 4 * 16 + second.toNat / 16) % 16 * 16 +
            (second.toNat % 16 * 4 + third.toNat / 64) / 4) = second :=
        ofNat_eq (by omega)
      have final : UInt8.ofNat
          ((second.toNat % 16 * 4 + third.toNat / 64) % 4 * 64 +
            third.toNat % 64) = third :=
        ofNat_eq (by omega)
      simp only [encode, decode, high, low, middle, last, noPadding,
        noPaddingLast, byte, next, final, inductionHypothesis,
        Option.bind_eq_bind, Option.bind_some, false_and, if_false]

/-! ## The library functions -/

def enomem : Int := -12

/-- `base64_encode`: the result code, the destination afterwards and the size
it reports. -/
def base64Encode (dst : List UInt8) (dlen : Nat) (src : List UInt8) :
    Int × List UInt8 × Nat :=
  let needed := 4 * ((src.length + 2) / 3)
  if dlen < needed + 1 then
    (enomem, dst, needed + 1)
  else
    (0, overlay dst 0 (encode src ++ [0]), needed)

def einval : Int := -22

/-- `base64_decode`, given what the valid texts decode to: the result code and
the bytes it stores. -/
def base64Decode (decode : List UInt8 → Option (List UInt8)) (dlen : Nat)
    (src : List UInt8) : Int × List UInt8 :=
  match decode src with
  | none => (einval, [])
  | some bytes =>
      if dlen < bytes.length then (enomem, []) else (0, bytes)

section Encode

variable {dst src : List UInt8} {dlen : Nat}

theorem base64Encode_of_room
    (room : 4 * ((src.length + 2) / 3) + 1 ≤ dlen) :
    base64Encode dst dlen src =
      (0, overlay dst 0 (encode src ++ [0]), 4 * ((src.length + 2) / 3)) := by
  rw [base64Encode]
  exact if_neg (Nat.not_lt.mpr room)

theorem base64Encode_of_no_room
    (noRoom : dlen < 4 * ((src.length + 2) / 3) + 1) :
    base64Encode dst dlen src =
      (enomem, dst, 4 * ((src.length + 2) / 3) + 1) := by
  rw [base64Encode]
  exact if_pos noRoom

end Encode

section Decode

variable {decode : List UInt8 → Option (List UInt8)} {dlen : Nat}
  {src bytes : List UInt8}

theorem base64Decode_of_fits (decoded : decode src = some bytes)
    (fits : bytes.length ≤ dlen) :
    base64Decode decode dlen src = (0, bytes) := by
  simp only [base64Decode, decoded, if_neg (Nat.not_lt.mpr fits)]

/-- The result is zero only when the source is valid and its decoding has been
stored. -/
theorem decode_of_base64Decode
    (succeeded : (base64Decode decode dlen src).1 = 0) :
    decode src = some (base64Decode decode dlen src).2 ∧
      (base64Decode decode dlen src).2.length ≤ dlen := by
  rw [base64Decode] at succeeded ⊢
  cases decoded : decode src with
  | none => simp [decoded, einval] at succeeded
  | some bytes =>
      by_cases noRoom : dlen < bytes.length
      · simp [decoded, noRoom, enomem] at succeeded
      · simp only [if_neg noRoom]
        exact ⟨trivial, Nat.le_of_not_lt noRoom⟩

end Decode

end LoraIot.Base64
