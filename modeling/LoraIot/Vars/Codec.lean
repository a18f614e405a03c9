import LoraIot.Vars.SetGet

/-!
# `vars_set` and `vars_get` as codecs

What `vars_get` prints for a row, `vars_set` reads back into the same value,
and what `vars_set` accepts, `vars_get` prints again.  The two switches share
no code; what connects them are the inverse laws of the number formats and, for
binaries, that the decoding loop reads exactly the hexadecimal digits.

`strncpy` pads its destination.  Replaying a string therefore clears the bytes
behind its terminator, which is the one trace the round trip leaves.
-/

namespace LoraIot.Vars

open LoraIot.CStrings LoraIot.Numerals

theorem hexDigit_hexdigitToValue (digit : UInt8) :
    0 ≤ hexdigitToValue digit →
      (hexdigitToValue digit).toNat < 16 ∧
        hexDigit (hexdigitToValue digit).toNat = toLower digit := by
  revert digit
  apply forall_byte
  decide +kernel

theorem hexdigitToValue_hexDigit {digit : Nat} (small : digit < 16) :
    hexdigitToValue (hexDigit digit) = digit := by
  revert small
  revert digit
  decide

theorem hexdigitToValue_zero : hexdigitToValue 0 < 0 := by
  decide

/-- The byte built from two digits prints as these digits in lower case. -/
theorem hexByte_of_digits {high low : UInt8}
    (highDigit : 0 ≤ hexdigitToValue high)
    (lowDigit : 0 ≤ hexdigitToValue low) :
    hexByte
        (UInt8.ofNat ((hexdigitToValue high).toNat * 16) +
          UInt8.ofNat (hexdigitToValue low).toNat) =
      [toLower high, toLower low] := by
  obtain ⟨highSmall, highPrints⟩ := hexDigit_hexdigitToValue high highDigit
  obtain ⟨lowSmall, lowPrints⟩ := hexDigit_hexdigitToValue low lowDigit
  have value :
      (UInt8.ofNat ((hexdigitToValue high).toNat * 16) +
          UInt8.ofNat (hexdigitToValue low).toNat).toNat =
        (hexdigitToValue high).toNat * 16 +
          (hexdigitToValue low).toNat := by
    simp only [UInt8.toNat_add, UInt8.toNat_ofNat']
    omega
  have quotient :
      ((hexdigitToValue high).toNat * 16 +
          (hexdigitToValue low).toNat) / 16 =
        (hexdigitToValue high).toNat := by
    omega
  have remainder :
      ((hexdigitToValue high).toNat * 16 +
          (hexdigitToValue low).toNat) % 16 =
        (hexdigitToValue low).toNat := by
    omega
  rw [hexByte, value, quotient, remainder, highPrints, lowPrints]

theorem getD_append_length (front : List UInt8) (byte : UInt8)
    (rest : List UInt8) {index : Nat} (position : front.length = index) :
    (front ++ byte :: rest).getD index 0 = byte := by
  subst position
  simp

theorem decodeLoop_hexText (bytes front : List UInt8) (index : Nat)
    (position : front.length = 2 + index * 2) :
    decodeLoop (front ++ hexText bytes) bytes.length index = some bytes := by
  induction bytes generalizing front index with
  | nil => rfl
  | cons byte rest inductionHypothesis =>
      have bound := byte.toNat_lt
      have high := hexdigitToValue_hexDigit
        (show byte.toNat / 16 < 16 by omega)
      have low := hexdigitToValue_hexDigit
        (show byte.toNat % 16 < 16 by omega)
      have atHigh :
          (front ++ hexText (byte :: rest)).getD (2 + index * 2 + 0) 0 =
            hexDigit (byte.toNat / 16) :=
        getD_append_length front _ _ (by omega)
      have atLow :
          (front ++ hexText (byte :: rest)).getD (2 + index * 2 + 1) 0 =
            hexDigit (byte.toNat % 16) := by
        have split :
            front ++ hexText (byte :: rest) =
              (front ++ [hexDigit (byte.toNat / 16)]) ++
                hexDigit (byte.toNat % 16) :: hexText rest := by
          simp [hexByte]
        rw [split]
        exact getD_append_length _ _ _ (by simp; omega)
      have later := inductionHypothesis (front ++ hexByte byte) (index + 1)
        (by simp only [hexByte, List.length_append, List.length_cons,
              List.length_nil]; omega)
      have value :
          UInt8.ofNat (byte.toNat / 16 * 16) +
              UInt8.ofNat (byte.toNat % 16) = byte := by
        apply UInt8.toNat_inj.mp
        simp only [UInt8.toNat_add, UInt8.toNat_ofNat']
        omega
      rw [List.length_cons, decodeLoop, atHigh, atLow, high, low,
        if_neg (by omega), if_neg (by omega)]
      rw [List.append_assoc, ← hexText_cons] at later
      simp only [later, Option.map_some, Int.toNat_natCast, value]

/-- The loop accepts only digits, and what it decodes prints as these digits
in lower case. -/
theorem decodeLoop_some {value buffer : List UInt8} {count index : Nat}
    (decoded : decodeLoop value count index = some buffer) :
    buffer.length = count ∧
      hexText buffer =
        ((value.drop (2 + index * 2)).take (count * 2)).map toLower := by
  induction count generalizing index buffer with
  | zero =>
      cases decoded
      simp
  | succ count inductionHypothesis =>
      simp only [decodeLoop] at decoded
      split at decoded
      · cases decoded
      · rename_i highDigit
        split at decoded
        · cases decoded
        · rename_i lowDigit
          obtain ⟨rest, restDecoded, rfl⟩ := Option.map_eq_some_iff.mp decoded
          obtain ⟨restLength, restPrints⟩ := inductionHypothesis restDecoded
          -- A position that holds a digit lies inside the string.
          have inside : ∀ position,
              ¬ hexdigitToValue (value.getD position 0) < 0 →
                ∃ within : position < value.length,
                  value.getD position 0 = value[position] := by
            intro position digit
            by_cases within : position < value.length
            · exact ⟨within, by simp [within]⟩
            · have isZero : value.getD position 0 = 0 := by
                simp [Nat.le_of_not_lt within]
              rw [isZero] at digit
              exact absurd hexdigitToValue_zero digit
          obtain ⟨highInside, atHigh⟩ := inside _ highDigit
          obtain ⟨lowInside, atLow⟩ := inside _ lowDigit
          have unfolded :
              value.drop (2 + index * 2) =
                value.getD (2 + index * 2 + 0) 0 ::
                  value.getD (2 + index * 2 + 1) 0 ::
                    value.drop (2 + (index + 1) * 2) := by
            rw [atHigh, atLow]
            have first := List.drop_eq_getElem_cons highInside
            have second := List.drop_eq_getElem_cons lowInside
            have third : 2 + (index + 1) * 2 = 2 + index * 2 + 1 + 1 := by
              omega
            rw [third, ← second]
            exact first
          have count' : (count + 1) * 2 = count * 2 + 1 + 1 := by omega
          refine ⟨by rw [List.length_cons, restLength], ?_⟩
          rw [hexText_cons, restPrints, unfolded, count', List.take_succ_cons,
            List.take_succ_cons, List.map_cons, List.map_cons,
            hexByte_of_digits (not_lt.mp highDigit) (not_lt.mp lowDigit)]
          rfl

theorem minsize_eq_size {var : Var}
    (isBinary : var.declaration.vtype = .binary) : var.minsize = var.size := by
  cases var <;> first | rfl | cases isBinary

/-- The printed form of a full-length byte string is accepted, and decoded to
these bytes. -/
theorem varsSetBinary_hexText {var : Var}
    (isBinary : var.declaration.vtype = .binary) {bytes : List UInt8}
    (full : bytes.length = var.size) (store : Store) :
    varsSetBinary var (ascii "0x" ++ hexText bytes) store =
      .ok (ascii "0x" ++ hexText bytes,
        (store.write var 0 bytes).setLength var var.size) := by
  have noNul : (0 : UInt8) ∉ ascii "0x" ++ hexText bytes := by
    rw [List.mem_append]
    rintro (front | digits)
    · revert front
      decide
    · exact zero_notMem_hexText bytes digits
  have length : strlen (ascii "0x" ++ hexText bytes) = 2 + 2 * var.size := by
    rw [strlen, cstr_eq_self noNul, List.length_append, hexText_length, full]
    rfl
  have half :
      (((strlen (ascii "0x" ++ hexText bytes) : Nat) : Int) - 2) / 2 =
        (var.size : Int) := by
    rw [length]
    omega
  have decoded := decodeLoop_hexText bytes (ascii "0x") 0 rfl
  rw [full] at decoded
  have minsize := minsize_eq_size isBinary
  rw [varsSetBinary]
  simp only [half, Int.toNat_natCast, decoded, cstr_eq_self noNul]
  rw [if_neg (by omega), if_neg (by omega), if_neg]
  simp [ascii]

/-- A binary row refuses a value for its form only. -/
theorem varsSetBinary_error {var : Var} {value : List UInt8} {store : Store}
    {code : VerrCodes}
    (refused : varsSetBinary var value store = .error code) :
    code = .invValue := by
  unfold varsSetBinary at refused
  dsimp only at refused
  split at refused
  · cases refused
    rfl
  · split at refused
    · cases refused
      rfl
    · split at refused
      · cases refused
        rfl
      · split at refused
        · cases refused
          rfl
        · cases refused

/-- What an accepted value of a binary row looks like and leaves behind. -/
theorem varsSetBinary_ok {var : Var}
    (isBinary : var.declaration.vtype = .binary) {value : List UInt8}
    {store : Store} {reply : List UInt8} {after : Store}
    (accepted : varsSetBinary var value store = .ok (reply, after)) :
    ∃ bytes : List UInt8, bytes.length = var.size ∧
      after = (store.write var 0 bytes).setLength var var.size ∧
      reply = cstr value ∧
      ascii "0x" ++ hexText bytes = reply.map toLower := by
  have minsize := minsize_eq_size isBinary
  unfold varsSetBinary at accepted
  dsimp only at accepted
  split at accepted
  · cases accepted
  · split at accepted
    · cases accepted
    · split at accepted
      · cases accepted
      · rename_i notShort notLong header
        have length : strlen value = 2 + 2 * var.size := by omega
        have half : ((strlen value : Int) - 2) / 2 = (var.size : Int) := by
          omega
        rw [half, Int.toNat_natCast] at accepted
        split at accepted
        · cases accepted
        · rename_i bytes decoded
          obtain ⟨sameLength, prints⟩ := decodeLoop_some decoded
          cases accepted
          refine ⟨bytes, sameLength, rfl, rfl, ?_⟩
          push Not at header
          -- The string is the header and exactly the digits.
          obtain ⟨tail, shape⟩ : ∃ tail, cstr value ++ tail = value :=
            List.takeWhile_prefix _
          have cstrLength : (cstr value).length = 2 + 2 * var.size := length
          cases characters : cstr value with
          | nil =>
              rw [characters, List.length_nil] at cstrLength
              omega
          | cons first more =>
              cases more with
              | nil =>
                  rw [characters, List.length_singleton] at cstrLength
                  omega
              | cons second digits =>
                  rw [characters, List.length_cons, List.length_cons]
                    at cstrLength
                  rw [characters] at shape
                  have firstIs : first = 48 := by
                    simpa [← shape] using header.1
                  have secondIs : second = 120 := by
                    simpa [← shape] using header.2
                  have taken :
                      (value.drop (2 + 0 * 2)).take (var.size * 2) =
                        digits := by
                    rw [← shape]
                    simp only [List.cons_append, Nat.zero_mul, Nat.add_zero,
                      List.drop_succ_cons, List.drop_zero]
                    apply List.take_left'
                    omega
                  rw [taken] at prints
                  rw [prints, firstIs, secondIs, List.map_cons,
                    List.map_cons]
                  rfl

/-- What the switch of `vars_set` stores, it stores in the variable of the
row. -/
theorem varsSetVar_cell_of_ne (env : Env) {var other : Var}
    (different : other ≠ var) {text reply : List UInt8}
    {store after : Store}
    (accepted :
      varsSetVar env var.declaration.vtype var text store =
        .ok (reply, after)) :
    after.cell other = store.cell other := by
  cases kind : var.declaration.vtype with
  | binary =>
      rw [kind] at accepted
      obtain ⟨bytes, _, stored, _⟩ := varsSetBinary_ok kind accepted
      rw [stored]
      simp [Store.cell, different]
  | custom => exact absurd kind var.declaration.vtype_ne_custom
  | _ =>
      rw [kind] at accepted
      cases accepted
      simp [Store.cell, different]

theorem varsSetVar_error {env : Env} {var : Var} {text : List UInt8}
    {store : Store} {vtype : VType} {code : VerrCodes}
    (refused : varsSetVar env vtype var text store = .error code) :
    code ≠ .success := by
  cases vtype with
  | binary =>
      rw [varsSetBinary_error refused]
      decide
  | custom =>
      cases refused
      decide
  | _ => cases refused

end LoraIot.Vars
