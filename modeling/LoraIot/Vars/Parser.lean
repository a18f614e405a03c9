import LoraIot.Vars.Codec
import LoraIot.Vars.FlashLoad

/-!
# The values that a binary row accepts

A binary row of `n` bytes accepts the texts `0x` followed by `2 n` hexadecimal
digits, and reads them as `n` bytes, two digits each.  The loop that decodes
them is followed here position by position, once for what it computes and once
for where it reads and writes.
-/

namespace LoraIot.Vars

open LoraIot.CStrings LoraIot.Numerals

def hexAlphabet : List UInt8 := ascii "0123456789abcdef"

/-- One of `0`-`9`, `a`-`f` and `A`-`F`. -/
def HexDigit (digit : UInt8) : Prop := toLower digit ∈ hexAlphabet

instance : DecidablePred HexDigit :=
  fun digit => inferInstanceAs (Decidable (toLower digit ∈ hexAlphabet))

def digitValue (digit : UInt8) : Nat := hexAlphabet.idxOf (toLower digit)

/-- The text is `0x` followed by these digits, two for each of `n` bytes. -/
structure HexLiteral (n : Nat) (value digits : List UInt8) : Prop where
  text : cstr value = ascii "0x" ++ digits
  length : digits.length = 2 * n
  digit : ∀ digit ∈ digits, HexDigit digit

/-- Byte `i` of the value that a string of digits denotes. -/
def digitsByte (digits : List UInt8) (i : Nat) : Nat :=
  16 * digitValue (digits.getD (2 * i) 0) +
    digitValue (digits.getD (2 * i + 1) 0)

theorem hexdigitToValue_eq (digit : UInt8) :
    hexdigitToValue digit =
      if HexDigit digit then (digitValue digit : Int) else -1 := by
  revert digit
  apply forall_byte
  decide +kernel

theorem hexdigitToValue_neg_iff (digit : UInt8) :
    hexdigitToValue digit < 0 ↔ ¬ HexDigit digit := by
  rw [hexdigitToValue_eq]
  split
  · rename_i isDigit
    simp [isDigit]
  · rename_i noDigit
    simp [noDigit]

theorem digitValue_lt {digit : UInt8} (isDigit : HexDigit digit) :
    digitValue digit < 16 :=
  List.idxOf_lt_length_of_mem isDigit

/-- The byte that the loop builds from two digits.  It stays below 256, so the
8-bit sum does not wrap. -/
theorem toNat_byte {high low : UInt8} (highDigit : HexDigit high)
    (lowDigit : HexDigit low) :
    (UInt8.ofNat ((hexdigitToValue high).toNat * 16) +
        UInt8.ofNat (hexdigitToValue low).toNat).toNat =
      16 * digitValue high + digitValue low := by
  have highSmall := digitValue_lt highDigit
  have lowSmall := digitValue_lt lowDigit
  simp only [hexdigitToValue_eq, if_pos highDigit, if_pos lowDigit,
    Int.toNat_natCast, UInt8.toNat_add, UInt8.toNat_ofNat']
  omega

theorem decodeLoop_cons_iff (value : List UInt8) (count index : Nat)
    (byte : UInt8) (rest : List UInt8) :
    decodeLoop value (count + 1) index = some (byte :: rest) ↔
      (HexDigit (value.getD (2 + index * 2 + 0) 0) ∧
        HexDigit (value.getD (2 + index * 2 + 1) 0) ∧
        byte.toNat =
          16 * digitValue (value.getD (2 + index * 2 + 0) 0) +
            digitValue (value.getD (2 + index * 2 + 1) 0)) ∧
      decodeLoop value count (index + 1) = some rest := by
  simp only [decodeLoop, hexdigitToValue_neg_iff]
  generalize value.getD (2 + index * 2 + 0) 0 = high
  generalize value.getD (2 + index * 2 + 1) 0 = low
  by_cases highDigit : HexDigit high
  · by_cases lowDigit : HexDigit low
    · simp only [highDigit, lowDigit, not_true_eq_false, if_false,
        true_and, Option.map_eq_some_iff, List.cons.injEq,
        exists_eq_right_right]
      rw [← toNat_byte highDigit lowDigit, UInt8.toNat_inj, and_comm,
        eq_comm]
    · simp [lowDigit]
  · simp [highDigit]

/-- The loop succeeds when all its positions hold digits, and then each byte
has the value of its two digits. -/
theorem decodeLoop_eq_some_iff (value : List UInt8) (count index : Nat)
    (buffer : List UInt8) :
    decodeLoop value count index = some buffer ↔
      buffer.length = count ∧
        ∀ i < count,
          HexDigit (value.getD (2 + (index + i) * 2 + 0) 0) ∧
            HexDigit (value.getD (2 + (index + i) * 2 + 1) 0) ∧
            (buffer.getD i 0).toNat =
              16 * digitValue (value.getD (2 + (index + i) * 2 + 0) 0) +
                digitValue (value.getD (2 + (index + i) * 2 + 1) 0) := by
  induction count generalizing index buffer with
  | zero => simp [decodeLoop, eq_comm]
  | succ count inductionHypothesis =>
      cases buffer with
      | nil =>
          simp only [decodeLoop]
          split
          · simp
          · split
            · simp
            · simp
      | cons byte rest =>
          have shift : ∀ i, index + 1 + i = index + (i + 1) := by omega
          rw [decodeLoop_cons_iff, inductionHypothesis (index + 1) rest,
            Nat.forall_lt_succ_left]
          simp only [shift, List.length_cons, Nat.add_right_cancel_iff,
            List.getD_cons_zero, List.getD_cons_succ, Nat.add_zero]
          exact and_left_comm

/-- A place that the loop touches: a character of `value`, or a byte of its
own `buffer`. -/
inductive Access where
  | readValue (index : Nat)
  | writeBuffer (index : Nat)
  deriving DecidableEq, Repr

/-- The loop of `decodeLoop`, with the places it touches. -/
def decodeLoopTraced (value : List UInt8) :
    Nat → Nat → List Access × Option (List UInt8)
  | 0, _ => ([], some [])
  | count + 1, index =>
      let high := hexdigitToValue (value.getD (2 + index * 2 + 0) 0)
      let low := hexdigitToValue (value.getD (2 + index * 2 + 1) 0)
      if high < 0 then
        ([.readValue (2 + index * 2 + 0)], none)
      else if low < 0 then
        ([.readValue (2 + index * 2 + 0), .writeBuffer index,
          .readValue (2 + index * 2 + 1)], none)
      else
        let later := decodeLoopTraced value count (index + 1)
        ([.readValue (2 + index * 2 + 0), .writeBuffer index,
            .readValue (2 + index * 2 + 1), .writeBuffer index] ++ later.1,
          later.2.map fun rest =>
            (UInt8.ofNat (high.toNat * 16) + UInt8.ofNat low.toNat) :: rest)

theorem decodeLoopTraced_snd (value : List UInt8) (count index : Nat) :
    (decodeLoopTraced value count index).2 =
      decodeLoop value count index := by
  induction count generalizing index with
  | zero => rfl
  | succ count inductionHypothesis =>
      simp only [decodeLoopTraced, decodeLoop]
      split
      · rfl
      · split
        · rfl
        · rw [inductionHypothesis]

def Access.Below (readBound writeBound : Nat) : Access → Prop
  | .readValue index => index < readBound
  | .writeBuffer index => index < writeBound

theorem decodeLoopTraced_below (value : List UInt8) (count index : Nat) :
    ∀ access ∈ (decodeLoopTraced value count index).1,
      access.Below (2 + (index + count) * 2) (index + count) := by
  induction count generalizing index with
  | zero => simp [decodeLoopTraced]
  | succ count inductionHypothesis =>
      have shift : index + 1 + count = index + (count + 1) := by omega
      have later := inductionHypothesis (index + 1)
      rw [shift] at later
      intro access touched
      simp only [decodeLoopTraced] at touched
      have here : ∀ access ∈
          [Access.readValue (2 + index * 2 + 0), .writeBuffer index,
            .readValue (2 + index * 2 + 1), .writeBuffer index],
          access.Below (2 + (index + (count + 1)) * 2)
            (index + (count + 1)) := by
        simp only [List.mem_cons, List.not_mem_nil, or_false,
          forall_eq_or_imp, forall_eq, Access.Below]
        omega
      split at touched
      · rw [List.mem_singleton.mp touched]
        exact here _ List.mem_cons_self
      · split at touched
        · exact here access (List.mem_of_mem_dropLast touched)
        · rcases List.mem_append.mp touched with now | afterwards
          · exact here access now
          · exact later access afterwards

section Literal

variable {n : Nat} {value digits : List UInt8}

theorem HexLiteral.strlen (literal : HexLiteral n value digits) :
    strlen value = 2 + 2 * n := by
  rw [CStrings.strlen, literal.text, List.length_append, literal.length]
  rfl

theorem HexLiteral.header (literal : HexLiteral n value digits) :
    value.getD 0 0 = 48 ∧ value.getD 1 0 = 120 := by
  have length := literal.strlen
  rw [← getD_cstr (show 0 < CStrings.strlen value by omega),
    ← getD_cstr (show 1 < CStrings.strlen value by omega), literal.text]
  exact ⟨rfl, rfl⟩

theorem HexLiteral.getD (literal : HexLiteral n value digits) {j : Nat}
    (inside : j < 2 * n) : value.getD (2 + j) 0 = digits.getD j 0 := by
  have length := literal.strlen
  rw [← getD_cstr (show 2 + j < CStrings.strlen value by omega),
    literal.text, Nat.add_comm 2 j]
  rfl

theorem HexLiteral.digit_at (literal : HexLiteral n value digits) {j : Nat}
    (inside : j < 2 * n) : HexDigit (digits.getD j 0) := by
  have position : j < digits.length := literal.length ▸ inside
  rw [List.getD_eq_getElem digits 0 position]
  exact literal.digit _ (List.getElem_mem position)

/-- A text of the right length with the header in front and digits behind it
is a literal. -/
theorem exists_hexLiteral (length : CStrings.strlen value = 2 + 2 * n)
    (header : value.getD 0 0 = 48 ∧ value.getD 1 0 = 120)
    (digitAt : ∀ j < 2 * n, HexDigit (value.getD (2 + j) 0)) :
    ∃ digits, HexLiteral n value digits := by
  have zeroth := getD_cstr (show 0 < CStrings.strlen value by omega)
  have first := getD_cstr (show 1 < CStrings.strlen value by omega)
  rw [header.1] at zeroth
  rw [header.2] at first
  rw [CStrings.strlen] at length
  have later : ∀ j < 2 * n, HexDigit ((cstr value).getD (2 + j) 0) := by
    intro j inside
    have position : 2 + j < CStrings.strlen value := by
      rw [CStrings.strlen]
      omega
    rw [getD_cstr position]
    exact digitAt j inside
  cases text : cstr value with
  | nil =>
      rw [text] at zeroth
      exact absurd zeroth (by decide)
  | cons byte rest =>
      cases rest with
      | nil =>
          rw [text] at first
          exact absurd first (by simp)
      | cons second digits =>
          rw [text] at zeroth first length later
          simp only [List.getD_cons_zero, List.getD_cons_succ]
            at zeroth first
          simp only [List.length_cons] at length
          have count : digits.length = 2 * n := by omega
          refine ⟨digits, ?_, count, ?_⟩
          · rw [text, zeroth, first]
            rfl
          · intro digit member
            obtain ⟨j, position, same⟩ := List.mem_iff_getElem.mp member
            have here := later j (by omega)
            rw [Nat.add_comm 2 j] at here
            simp only [List.getD_cons_succ] at here
            rwa [List.getD_eq_getElem digits 0 position, same] at here

def digitsBytes (digits : List UInt8) (n : Nat) : List UInt8 :=
  (List.range n).map fun i => UInt8.ofNat (digitsByte digits i)

@[simp]
theorem digitsBytes_length (digits : List UInt8) (n : Nat) :
    (digitsBytes digits n).length = n := by
  simp [digitsBytes]

theorem HexLiteral.digitsBytes_getD (literal : HexLiteral n value digits)
    {i : Nat} (inside : i < n) :
    ((digitsBytes digits n).getD i 0).toNat = digitsByte digits i := by
  have high := digitValue_lt
    (literal.digit_at (show 2 * i < 2 * n by omega))
  have low := digitValue_lt
    (literal.digit_at (show 2 * i + 1 < 2 * n by omega))
  have small : digitsByte digits i < 256 := by
    rw [digitsByte]
    omega
  simp [digitsBytes, inside, Nat.mod_eq_of_lt small]

theorem HexLiteral.decodeLoop (literal : HexLiteral n value digits) :
    decodeLoop value n 0 = some (digitsBytes digits n) := by
  rw [decodeLoop_eq_some_iff]
  refine ⟨digitsBytes_length digits n, ?_⟩
  intro i inside
  have high : value.getD (2 + (0 + i) * 2 + 0) 0 =
      digits.getD (2 * i) 0 := by
    rw [← literal.getD (show 2 * i < 2 * n by omega)]
    congr 1
    omega
  have low : value.getD (2 + (0 + i) * 2 + 1) 0 =
      digits.getD (2 * i + 1) 0 := by
    rw [← literal.getD (show 2 * i + 1 < 2 * n by omega)]
    congr 1
    omega
  rw [high, low, literal.digitsBytes_getD inside]
  exact ⟨literal.digit_at (by omega), literal.digit_at (by omega), rfl⟩

end Literal

/-! ## The branch of `vars_set` -/

/-- The places that the loop touches in a call of `vars_set` for a binary, if
the call gets to the loop. -/
def varsSetBinaryAccesses (var : Var) (value : List UInt8) : List Access :=
  let vlen : Int := (strlen value : Int) - 2
  if vlen < var.minsize * 2 then
    []
  else if vlen > var.size * 2 then
    []
  else if value.getD 0 0 ≠ 48 ∨ value.getD 1 0 ≠ 120 then
    []
  else
    (decodeLoopTraced value (vlen / 2).toNat 0).1

/-- The variable has received the bytes that the digits denote, and nothing
else has changed. -/
structure LiteralStored (var : Var) (n : Nat) (digits : List UInt8)
    (before after : Device) : Prop where
  bytes : ∀ i < n,
    ((after.store.data var).getD i 0).toNat = digitsByte digits i
  length : after.store.length var = n
  others : ∀ other ≠ var, after.store.cell other = before.store.cell other
  nvs : after.nvs = before.nvs

section Branch

variable {var : Var} {n : Nat} {value digits : List UInt8}

theorem varsSetBinary_literal (minsize : var.minsize = n)
    (maxsize : var.size = n) (literal : HexLiteral n value digits)
    (store : Store) :
    varsSetBinary var value store =
      .ok (cstr value,
        (store.write var 0 (digitsBytes digits n)).setLength var n) := by
  have length := literal.strlen
  have half : ((strlen value : Int) - 2) / 2 = n := by omega
  have header : ¬ (value.getD 0 0 ≠ 48 ∨ value.getD 1 0 ≠ 120) := by
    rw [not_or, not_not, not_not]
    exact literal.header
  rw [varsSetBinary]
  simp only [minsize, maxsize, half, Int.toNat_natCast, literal.decodeLoop]
  rw [if_neg (by omega), if_neg (by omega), if_neg header]

theorem hexLiteral_of_varsSetBinary (minsize : var.minsize = n)
    (maxsize : var.size = n) {store : Store}
    {result : List UInt8 × Store}
    (accepted : varsSetBinary var value store = .ok result) :
    ∃ digits, HexLiteral n value digits := by
  rw [varsSetBinary] at accepted
  simp only [minsize, maxsize] at accepted
  split at accepted
  · cases accepted
  · rename_i notShort
    split at accepted
    · cases accepted
    · rename_i notLong
      split at accepted
      · cases accepted
      · rename_i header
        push Not at header
        have length : strlen value = 2 + 2 * n := by omega
        have half : ((strlen value : Int) - 2) / 2 = n := by omega
        rw [half, Int.toNat_natCast] at accepted
        split at accepted
        · cases accepted
        · rename_i buffer decoded
          have positions := ((decodeLoop_eq_some_iff ..).mp decoded).2
          refine exists_hexLiteral length header ?_
          intro j inside
          obtain ⟨high, low, _⟩ := positions (j / 2) (by omega)
          rcases Nat.mod_two_eq_zero_or_one j with even | odd
          · rwa [show 2 + (0 + j / 2) * 2 + 0 = 2 + j by omega] at high
          · rwa [show 2 + (0 + j / 2) * 2 + 1 = 2 + j by omega] at low

theorem varsSetBinaryAccesses_below (minsize : var.minsize = n)
    (maxsize : var.size = n) :
    ∀ access ∈ varsSetBinaryAccesses var value,
      access.Below (strlen value) n := by
  intro access touched
  simp only [varsSetBinaryAccesses, minsize, maxsize] at touched
  split at touched
  · cases touched
  · rename_i notShort
    split at touched
    · cases touched
    · rename_i notLong
      split at touched
      · cases touched
      · have length : strlen value = 2 + (0 + n) * 2 := by omega
        have half : ((strlen value : Int) - 2) / 2 = n := by omega
        rw [half, Int.toNat_natCast] at touched
        have below := decodeLoopTraced_below value n 0 access touched
        rwa [← length, Nat.zero_add] at below

end Branch

theorem size_le_buffer (var : Var) : var.size ≤ 64 := by
  cases var <;> decide

theorem Access.Below.mono {access : Access}
    {readBound writeBound readLimit writeLimit : Nat}
    (below : access.Below readBound writeBound)
    (reads : readBound ≤ readLimit) (writes : writeBound ≤ writeLimit) :
    access.Below readLimit writeLimit := by
  cases access with
  | readValue index => exact Nat.lt_of_lt_of_le below reads
  | writeBuffer index => exact Nat.lt_of_lt_of_le below writes

section Accepted

variable {row : Row} {var : Var} {n : Nat} {value digits : List UInt8}

theorem varsSet_of_literal (plain : row.Plain var)
    (declared : var.declaration.vtype = .binary)
    (minsize : var.minsize = n) (maxsize : var.size = n)
    (env : Env) (device : Device) (nonempty : value.headD 0 ≠ 0)
    (literal : HexLiteral n value digits) :
    ∃ reply after,
      varsSet env row.key (some value) device =
          .returned .success reply after ∧
        LiteralStored var n digits device after := by
  have stored : varsSetVar env .binary var value device.store =
      .ok (cstr value,
        (device.store.write var 0 (digitsBytes digits n)).setLength var n) :=
    varsSetBinary_literal minsize maxsize literal device.store
  rw [varsSet_plain plain env nonempty, declared, stored]
  have data := device.store.write_full var (digitsBytes digits n)
    ((digitsBytes_length digits n).trans maxsize.symm)
  refine ⟨_, _, rfl, ?_, Store.setLength_length_self .., ?_, rfl⟩
  · intro i inside
    rw [Store.setLength_data, data]
    exact literal.digitsBytes_getD inside
  · intro other different
    simp [Store.cell, different]

theorem varsSet_of_no_literal (plain : row.Plain var)
    (declared : var.declaration.vtype = .binary)
    (minsize : var.minsize = n) (maxsize : var.size = n)
    (env : Env) (device : Device) (nonempty : value.headD 0 ≠ 0)
    (noLiteral : ∀ digits, ¬ HexLiteral n value digits) :
    varsSet env row.key (some value) device =
      .returned .invValue none device := by
  cases outcome : varsSetBinary var value device.store with
  | error code =>
      have refused :
          varsSetVar env .binary var value device.store = .error .invValue :=
        varsSetBinary_error outcome ▸ outcome
      rw [varsSet_plain plain env nonempty, declared, refused]
  | ok result =>
      obtain ⟨digits, literal⟩ :=
        hexLiteral_of_varsSetBinary minsize maxsize outcome
      exact absurd literal (noLiteral digits)

end Accepted

/-- `vars_set` accepts exactly the hexadecimal literals of the size of a
binary row, and stores the bytes that their digits denote.  Whatever else it
refuses without touching the device.  Its loop looks at nothing behind the
terminator of the value and stays inside its buffer of 64 bytes. -/
theorem varsSet_binary_exact {row : Row} {var : Var} {n : Nat}
    (listed : row ∈ setget) (points : row.var = some var)
    (isBinary : row.vtype = .binary) (writable : row.vdir ≠ .read)
    (minsize : var.minsize = n) (maxsize : var.size = n)
    (env : Env) (device : Device) {value : List UInt8}
    (nonempty : value.headD 0 ≠ 0) :
    ((∃ reply after, varsSet env row.key (some value) device =
          .returned .success reply after) ↔
        ∃ digits, HexLiteral n value digits) ∧
      (∀ digits, HexLiteral n value digits →
        ∃ reply after,
          varsSet env row.key (some value) device =
              .returned .success reply after ∧
            LiteralStored var n digits device after) ∧
      ((∀ digits, ¬ HexLiteral n value digits) →
        varsSet env row.key (some value) device =
          .returned .invValue none device) ∧
      ∀ access ∈ varsSetBinaryAccesses var value,
        access.Below (strlen value + 1) 64 := by
  have plain := Row.plain_of_writable listed points writable
  have declared : var.declaration.vtype = .binary :=
    plain.vtype.symm.trans isBinary
  have stores : ∀ digits, HexLiteral n value digits →
      ∃ reply after,
        varsSet env row.key (some value) device =
            .returned .success reply after ∧
          LiteralStored var n digits device after :=
    fun _ => varsSet_of_literal plain declared minsize maxsize env device
      nonempty
  have refuses : (∀ digits, ¬ HexLiteral n value digits) →
      varsSet env row.key (some value) device =
        .returned .invValue none device :=
    varsSet_of_no_literal plain declared minsize maxsize env device nonempty
  refine ⟨⟨?_, ?_⟩, stores, refuses, ?_⟩
  · intro accepted
    obtain ⟨reply, after, accepted⟩ := accepted
    by_contra noLiteral
    rw [refuses (not_exists.mp noLiteral)] at accepted
    cases accepted
  · intro literal
    obtain ⟨digits, literal⟩ := literal
    obtain ⟨reply, after, accepted, _⟩ := stores digits literal
    exact ⟨reply, after, accepted⟩
  · intro access touched
    exact (varsSetBinaryAccesses_below minsize maxsize access touched).mono
      (Nat.le_succ _) (maxsize ▸ size_le_buffer var)

/-- Setting `devaddr` to `0x012aBcFf`. -/
theorem varsSet_devaddr :
    ∃ reply after,
      varsSet Env.quiet (ascii "devaddr") (some (ascii "0x012aBcFf"))
          ⟨Store.initial, fun _ => none⟩ = .returned .success reply after ∧
        LiteralStored .loraDevAddr 4 (ascii "012aBcFf")
          ⟨Store.initial, fun _ => none⟩ after :=
  (varsSet_binary_exact
    (show plainRow "devaddr" .binary .readwrite (some .loraDevAddr) .devaddr
      ∈ setget by decide)
    rfl rfl (by decide) rfl rfl Env.quiet ⟨Store.initial, fun _ => none⟩
    (show (ascii "0x012aBcFf").headD 0 ≠ 0 by decide)).2.1
    (ascii "012aBcFf") ⟨by decide, by decide, by decide +kernel⟩

end LoraIot.Vars
