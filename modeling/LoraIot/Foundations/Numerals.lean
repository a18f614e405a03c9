import LoraIot.Foundations.CStrings
import Mathlib.Data.Nat.Digits.Defs
import Mathlib.Data.Nat.Digits.Lemmas
import Mathlib.Data.List.Induction
import Mathlib.Tactic.LinearCombination
import Mathlib.Tactic.Positivity

/-!
# Numbers as text and as bytes

The decimal printing of `sprintf("%d")`, the parsing of `atoi`, the hexadecimal
printing of `sprintf("%02x")`, and the little-endian representation of machine
integers, each with the law that reading inverts writing.
-/

namespace LoraIot.Numerals

open LoraIot.CStrings

/-! ## Decimal text -/

def digitByte (digit : Nat) : UInt8 := UInt8.ofNat (48 + digit)

/-- `sprintf("%d")` of a natural number. -/
def decimal (number : Nat) : List UInt8 :=
  if number = 0 then [48] else (Nat.digits 10 number).reverse.map digitByte

/-- `sprintf("%d")` of an `int`. -/
def decimalInt (number : Int) : List UInt8 :=
  if number < 0 then 45 :: decimal number.natAbs else decimal number.natAbs

/-- An unsigned 32-bit number passed where `sprintf` expects an `int`. -/
def asInt (number : Nat) : Int :=
  if number % 2 ^ 32 < 2 ^ 31 then
    (number % 2 ^ 32 : Nat)
  else
    (number % 2 ^ 32 : Nat) - 2 ^ 32

def isDigit (byte : UInt8) : Bool := 48 ≤ byte && byte ≤ 57

def isSpace (byte : UInt8) : Bool := byte == 32 || (9 ≤ byte && byte ≤ 13)

def digitsValue (text : List UInt8) : Nat :=
  (text.takeWhile isDigit).foldl
    (fun value byte => 10 * value + (byte.toNat - 48)) 0

/-- The value of an optional sign and the digits after it. -/
def signedValue : List UInt8 → Int
  | 45 :: rest => -(digitsValue rest : Int)
  | 43 :: rest => digitsValue rest
  | text => digitsValue text

/-- `atoi`.  C leaves open what it returns for a number outside `int`. -/
def atoi (overflow : List UInt8 → Int) (text : List UInt8) : Int :=
  let value := signedValue (text.dropWhile isSpace)
  if -(2 ^ 31) ≤ value ∧ value < 2 ^ 31 then value else overflow text

theorem digitByte_toNat {digit : Nat} (small : digit < 10) :
    (digitByte digit).toNat = 48 + digit := by
  simp only [digitByte, UInt8.toNat_ofNat']
  omega

theorem isDigit_iff (byte : UInt8) :
    isDigit byte = true ↔ 48 ≤ byte.toNat ∧ byte.toNat ≤ 57 := by
  simp [isDigit, UInt8.le_iff_toNat_le]

theorem isDigit_digitByte {digit : Nat} (small : digit < 10) :
    isDigit (digitByte digit) = true := by
  rw [isDigit_iff, digitByte_toNat small]
  omega

private theorem foldl_digitBytes (digits : List Nat)
    (small : ∀ digit ∈ digits, digit < 10) :
    (digits.reverse.map digitByte).foldl
        (fun value byte => 10 * value + (byte.toNat - 48)) 0 =
      Nat.ofDigits 10 digits := by
  induction digits with
  | nil => rfl
  | cons digit rest inductionHypothesis =>
      have here := small digit List.mem_cons_self
      have later := inductionHypothesis fun other member =>
        small other (List.mem_cons_of_mem digit member)
      rw [List.reverse_cons, List.map_append, List.foldl_append, later]
      simp only [List.map_cons, List.map_nil, List.foldl_cons,
        List.foldl_nil, digitByte_toNat here, Nat.ofDigits_cons]
      omega

theorem decimal_isDigit {number : Nat} {byte : UInt8}
    (member : byte ∈ decimal number) : isDigit byte = true := by
  rw [decimal] at member
  split at member
  · rw [List.mem_singleton.mp member]
    rfl
  · obtain ⟨digit, listed, rfl⟩ := List.mem_map.mp member
    exact isDigit_digitByte
      (Nat.digits_lt_base (by decide) (List.mem_reverse.mp listed))

theorem decimal_ne_nil (number : Nat) : decimal number ≠ [] := by
  rw [decimal]
  split
  · simp
  · rename_i nonzero
    simpa [Nat.digits_eq_nil_iff_eq_zero] using nonzero

theorem zero_notMem_decimal (number : Nat) :
    (0 : UInt8) ∉ decimal number := by
  intro member
  exact absurd (decimal_isDigit member) (by decide)

theorem digitsValue_decimal (number : Nat) :
    digitsValue (decimal number) = number := by
  have allDigits :
      (decimal number).takeWhile isDigit = decimal number :=
    List.takeWhile_eq_self_iff.mpr fun _ member => decimal_isDigit member
  rw [digitsValue, allDigits]
  rw [decimal]
  split
  · rename_i isZero
    simp [isZero]
  · rw [foldl_digitBytes _ fun digit listed =>
      Nat.digits_lt_base (by decide) listed, Nat.ofDigits_digits]

/-- A text of digits starts neither with white space nor with a sign. -/
theorem signedValue_of_digits {text : List UInt8}
    (digits : ∀ byte ∈ text, isDigit byte = true) :
    signedValue (text.dropWhile isSpace) = digitsValue text := by
  cases text with
  | nil => rfl
  | cons head tail =>
      have headDigit : isDigit head = true := digits head List.mem_cons_self
      have range := (isDigit_iff head).mp headDigit
      have notSpace : isSpace head = false := by
        simp only [isSpace, Bool.or_eq_false_iff, beq_eq_false_iff_ne,
          Bool.and_eq_false_iff, decide_eq_false_iff_not, ne_eq,
          ← UInt8.toNat_inj, UInt8.le_iff_toNat_le]
        refine ⟨?_, Or.inr ?_⟩
        · change ¬ head.toNat = 32
          omega
        · change ¬ head.toNat ≤ 13
          omega
      rw [List.dropWhile_cons_of_neg (by simp [notSpace])]
      unfold signedValue
      split
      · rename_i equal
        cases equal
        exact absurd headDigit (by decide)
      · rename_i equal
        cases equal
        exact absurd headDigit (by decide)
      · rfl

theorem signedValue_decimal (number : Nat) :
    signedValue ((decimal number).dropWhile isSpace) = number := by
  rw [signedValue_of_digits fun _ => decimal_isDigit, digitsValue_decimal]

theorem atoi_decimal (overflow : List UInt8 → Int) {number : Nat}
    (inRange : number < 2 ^ 31) :
    atoi overflow (decimal number) = number := by
  rw [atoi, signedValue_decimal, if_pos]
  omega

/-- `atoi` inverts `sprintf("%d")` on all of `int`. -/
theorem atoi_decimalInt (overflow : List UInt8 → Int) {number : Int}
    (low : -(2 ^ 31) ≤ number) (high : number < 2 ^ 31) :
    atoi overflow (decimalInt number) = number := by
  rw [decimalInt]
  split
  · rename_i negative
    have value :
        signedValue ((45 :: decimal number.natAbs).dropWhile isSpace) =
          number := by
      rw [List.dropWhile_cons_of_neg (by decide)]
      simp only [signedValue, digitsValue_decimal]
      omega
    rw [atoi, value, if_pos ⟨low, high⟩]
  · rename_i positive
    rw [atoi_decimal overflow (by omega)]
    omega

/-- A number below a power of ten has at most that many digits. -/
theorem decimal_length_le (width number : Nat) (positive : 0 < width)
    (small : number < 10 ^ width) : (decimal number).length ≤ width := by
  rw [decimal]
  split
  · exact positive
  · rw [List.length_map, List.length_reverse]
    exact (Nat.digits_length_le_iff (by decide) number).mpr small

theorem decimalInt_length_le (width : Nat) (number : Int)
    (positive : 0 < width) (small : number.natAbs < 10 ^ width) :
    (decimalInt number).length ≤ width + 1 := by
  have digits := decimal_length_le width number.natAbs positive small
  rw [decimalInt]
  split
  · rw [List.length_cons]
    omega
  · omega

/-- The natural number that a text of decimal digits denotes. -/
def numeralValue (text : List UInt8) : Nat :=
  Nat.ofDigits 10 (text.reverse.map fun digit => digit.toNat - 48)

theorem digitsValue_eq_numeralValue {text : List UInt8}
    (digits : ∀ byte ∈ text, isDigit byte = true) :
    digitsValue text = numeralValue text := by
  rw [digitsValue, List.takeWhile_eq_self_iff.mpr digits]
  clear digits
  induction text using List.reverseRecOn with
  | nil => rfl
  | append_singleton front last inductionHypothesis =>
      rw [List.foldl_append, inductionHypothesis, numeralValue, numeralValue,
        List.reverse_append]
      simp only [List.foldl_cons, List.foldl_nil, List.reverse_singleton,
        List.singleton_append, List.map_cons, Nat.ofDigits_cons]
      omega

theorem atoi_of_digits (overflow : List UInt8 → Int) {text : List UInt8}
    (digits : ∀ byte ∈ text, isDigit byte = true)
    (inRange : numeralValue text < 2 ^ 31) :
    atoi overflow text = numeralValue text := by
  rw [atoi, signedValue_of_digits digits, digitsValue_eq_numeralValue digits,
    if_pos]
  omega

/-! ## Hexadecimal text -/

def hexDigit (digit : Nat) : UInt8 :=
  if digit < 10 then UInt8.ofNat (48 + digit) else UInt8.ofNat (87 + digit)

/-- `sprintf("%02x")` of a byte. -/
def hexByte (byte : UInt8) : List UInt8 :=
  [hexDigit (byte.toNat / 16), hexDigit (byte.toNat % 16)]

/-- The concatenated `%02x` of a byte string. -/
def hexText (bytes : List UInt8) : List UInt8 := bytes.flatMap hexByte

/-- `tolower` in the C locale. -/
def toLower (byte : UInt8) : UInt8 :=
  if 65 ≤ byte ∧ byte ≤ 90 then byte + 32 else byte

@[simp]
theorem hexText_nil : hexText [] = [] := rfl

@[simp]
theorem hexText_cons (byte : UInt8) (rest : List UInt8) :
    hexText (byte :: rest) = hexByte byte ++ hexText rest := by
  simp [hexText]

@[simp]
theorem hexText_length (bytes : List UInt8) :
    (hexText bytes).length = 2 * bytes.length := by
  induction bytes with
  | nil => rfl
  | cons byte rest inductionHypothesis =>
      rw [hexText_cons, List.length_append, inductionHypothesis,
        List.length_cons]
      simp only [hexByte, List.length_cons, List.length_nil]
      omega

theorem hexDigit_ne_zero {digit : Nat} (small : digit < 16) :
    hexDigit digit ≠ 0 := by
  revert small
  revert digit
  decide

theorem zero_notMem_hexText (bytes : List UInt8) :
    (0 : UInt8) ∉ hexText bytes := by
  intro member
  obtain ⟨byte, _, digit⟩ := List.mem_flatMap.mp member
  have bound := byte.toNat_lt
  simp only [hexByte, List.mem_cons, List.not_mem_nil, or_false] at digit
  rcases digit with high | low
  · exact hexDigit_ne_zero (by omega) high.symm
  · exact hexDigit_ne_zero (by omega) low.symm

/-! ## Little-endian bytes -/

/-- The `count` bytes that storing an integer writes, truncated to them. -/
def leBytes : Nat → Int → List UInt8
  | 0, _ => []
  | count + 1, number =>
      UInt8.ofNat (number % 256).toNat :: leBytes count (number / 256)

/-- The number that a little-endian integer reads as. -/
def leValue : List UInt8 → Nat
  | [] => 0
  | byte :: rest => byte.toNat + 256 * leValue rest

@[simp]
theorem leBytes_length (count : Nat) (number : Int) :
    (leBytes count number).length = count := by
  induction count generalizing number with
  | zero => rfl
  | succ count inductionHypothesis =>
      simp [leBytes, inductionHypothesis]

theorem leBytes_leValue (bytes : List UInt8) :
    leBytes bytes.length (leValue bytes) = bytes := by
  induction bytes with
  | nil => rfl
  | cons byte rest inductionHypothesis =>
      have bound := byte.toNat_lt
      have low :
          ((leValue (byte :: rest) : Int) % 256).toNat = byte.toNat := by
        simp only [leValue]
        omega
      have high :
          (leValue (byte :: rest) : Int) / 256 = (leValue rest : Int) := by
        simp only [leValue]
        omega
      rw [List.length_cons, leBytes, low, high, inductionHypothesis,
        UInt8.ofNat_toNat]

theorem leValue_leBytes {count number : Nat} (fits : number < 256 ^ count) :
    leValue (leBytes count number) = number := by
  induction count generalizing number with
  | zero =>
      rw [Nat.pow_zero] at fits
      simp only [leBytes, leValue]
      omega
  | succ count inductionHypothesis =>
      rw [Nat.pow_succ] at fits
      have high : ((number : Int) / 256) = ((number / 256 : Nat) : Int) := by
        omega
      have low : ((number : Int) % 256).toNat = number % 256 := by omega
      rw [leBytes, leValue, high, inductionHypothesis (by omega), low,
        UInt8.toNat_ofNat']
      omega

theorem leValue_lt (bytes : List UInt8) :
    leValue bytes < 256 ^ bytes.length := by
  induction bytes with
  | nil => simp [leValue]
  | cons byte rest inductionHypothesis =>
      have bound := byte.toNat_lt
      rw [leValue, List.length_cons, Nat.pow_succ]
      omega

theorem emod_succ_byte (number : Int) (count : Nat) :
    number % 256 ^ (count + 1) =
      number % 256 + 256 * (number / 256 % 256 ^ count) := by
  have positive : (0 : Int) < 256 ^ count := by positivity
  have low := Int.emod_add_mul_ediv number 256
  have high := Int.emod_add_mul_ediv (number / 256) (256 ^ count)
  have lowBound := Int.emod_lt_of_pos number (show (0 : Int) < 256 by decide)
  have lowSign := Int.emod_nonneg number (show (256 : Int) ≠ 0 by decide)
  have highBound := Int.emod_lt_of_pos (number / 256) positive
  have highSign := Int.emod_nonneg (number / 256) (ne_of_gt positive)
  have whole : number =
      (number % 256 + 256 * (number / 256 % 256 ^ count)) +
        256 ^ (count + 1) * (number / 256 / 256 ^ count) := by
    rw [pow_succ]
    linear_combination -low - 256 * high
  rw [whole, Int.add_mul_emod_self_left, ← whole]
  apply Int.emod_eq_of_lt
  · omega
  · rw [pow_succ]
    omega

/-- Storing an integer in `count` bytes keeps its residue. -/
theorem leValue_leBytes_emod (count : Nat) (number : Int) :
    leValue (leBytes count number) = (number % 256 ^ count).toNat := by
  induction count generalizing number with
  | zero =>
      rw [leBytes, leValue, pow_zero, Int.emod_one]
      rfl
  | succ count inductionHypothesis =>
      have positive : (0 : Int) < 256 ^ count := by positivity
      have highSign :=
        Int.emod_nonneg (number / 256) (ne_of_gt positive)
      have lowSign := Int.emod_nonneg number (show (256 : Int) ≠ 0 by decide)
      rw [leBytes, leValue, inductionHypothesis, emod_succ_byte,
        UInt8.toNat_ofNat']
      omega

end LoraIot.Numerals
