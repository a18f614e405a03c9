import LoraIot.Config.SaveBounds
import LoraIot.Foundations.Persistence
import LoraIot.Vars.Parser
import LoraIot.Vars.Strings

/-!
# What the variables are for

Seen from outside, the device is a memory of settings: flags, numbers, texts
and byte strings, which clients read and write as text, which can be patched
over Bluetooth, and which are saved and loaded.  This module says what the
settings are and how their texts are read and printed; `Config.Refinement`
shows that the device behaves as such a memory.
-/

namespace LoraIot.Config

open LoraIot.CStrings LoraIot.Numerals LoraIot.Vars LoraIot.Gatt

inductive Setting where
  | flag (isSet : Bool)
  | number (value : Nat)
  | text (characters : List UInt8)
  | bytes (value : List UInt8)
  deriving DecidableEq, Repr

/-- The setting that the bytes and the recorded length of a variable stand
for. -/
def setting (var : Var) (cell : List UInt8 × Nat) : Setting :=
  match var.declaration.vtype with
  | .boolean => .flag (cell.1.headD 0 ≠ 0)
  | .uint8 => .number (leValue cell.1)
  | .uint16 => .number (leValue cell.1)
  | .uint32 => .number (leValue cell.1)
  | .str => .text (cstr cell.1)
  | .binary => .bytes (cell.1.take cell.2)
  | .custom => .bytes []

def entrySetting (var : Var) (entry : List UInt8) : Setting :=
  setting var (entry, entry.length)

def defaults (var : Var) : Setting := setting var (Store.initial.cell var)

/-- The bytes that a hexadecimal literal of the right size denotes. -/
def readBytes (n : Nat) (text : List UInt8) : Option Setting :=
  let digits := (cstr text).drop 2
  if cstr text = ascii "0x" ++ digits ∧ digits.length = 2 * n ∧
      digits.all fun digit => decide (HexDigit digit) then
    some (.bytes (digitsBytes digits n))
  else
    none

/-- The setting that a text denotes, if the variable accepts it. -/
def readSetting (overflow : List UInt8 → Int) (var : Var)
    (text : List UInt8) : Option Setting :=
  let number := atoi overflow text
  match var.declaration.vtype with
  | .boolean => some (.flag (number ≠ 0))
  | .uint8 => some (.number (number % 2 ^ 8).toNat)
  | .uint16 => some (.number (number % 2 ^ 16).toNat)
  | .uint32 => some (.number (number % 2 ^ 32).toNat)
  | .str => some (.text (cstr text))
  | .binary => readBytes var.size text
  | .custom => none

/-- How a setting is printed.  Numbers of 32 bits are printed as `int`. -/
def printSetting (var : Var) : Setting → List UInt8
  | .flag isSet => boolText isSet
  | .number value =>
      if var.declaration.vtype = .uint32 then
        decimalInt (asInt value)
      else
        decimal value
  | .text characters => characters
  | .bytes value => ascii "0x" ++ hexText value

/-- What `vars_set` answers: the setting as it is printed, but a byte string
in the letters that were sent. -/
def echoSetting (var : Var) (text : List UInt8) (value : Setting) :
    List UInt8 :=
  if var.declaration.vtype = .binary then cstr text
  else printSetting var value

def wireSize : Characteristic → Nat
  | .loraDatarate => 2
  | item => item.userData.size

/-- What bytes written at an offset make of a setting.  A flag or a number
takes the first byte. -/
def patchSetting (offset : Nat) (buf : List UInt8) : Setting → Setting
  | .bytes value => .bytes (overlay value offset buf)
  | .number value => .number ((buf.head?.map UInt8.toNat).getD value)
  | .flag isSet =>
      .flag ((buf.head?.map fun byte => decide (byte ≠ 0)).getD isSet)
  | .text characters => .text characters

/-! ## What `vars_set` makes of a text -/

theorem readBytes_of_literal {n : Nat} {text digits : List UInt8}
    (literal : HexLiteral n text digits) :
    readBytes n text = some (.bytes (digitsBytes digits n)) := by
  have behind : (cstr text).drop 2 = digits := by
    rw [literal.text]
    rfl
  rw [readBytes]
  simp only [behind]
  have allDigits : digits.all fun digit => decide (HexDigit digit) :=
    List.all_eq_true.mpr fun digit member =>
      decide_eq_true (literal.digit digit member)
  rw [if_pos ⟨literal.text, literal.length, allDigits⟩]

theorem readBytes_of_no_literal {n : Nat} {text : List UInt8}
    (noLiteral : ∀ digits, ¬ HexLiteral n text digits) :
    readBytes n text = none := by
  rw [readBytes]
  apply if_neg
  intro isLiteral
  obtain ⟨shape, length, allDigits⟩ := isLiteral
  exact noLiteral _ ⟨shape, length, fun digit member =>
    of_decide_eq_true (List.all_eq_true.mp allDigits digit member)⟩

section Reads

variable (env : Env) (store : Store) {var : Var} {text : List UInt8}

theorem cell_write_full (var : Var) (bytes : List UInt8)
    (same : bytes.length = var.size) :
    (store.write var 0 bytes).cell var = (bytes, store.length var) := by
  rw [Store.cell, store.write_full var bytes same, Store.write_length]

theorem truth_byte (condition : Prop) [Decidable condition] :
    decide (([if condition then 1 else 0] : List UInt8).headD 0 ≠ 0) =
      decide condition := by
  split <;> simp [*]

theorem number_write {count : Nat} (size : var.size = count)
    (number : Int) :
    (store.write var 0 (leBytes count number)).number var =
      (number % 256 ^ count).toNat := by
  have same : (leBytes count number).length = var.size :=
    (leBytes_length count number).trans size.symm
  rw [Store.number, store.write_full var _ same, leValue_leBytes_emod]

theorem setting_number {size : Nat} {number : Int} {length : Nat}
    (isNumber : var.declaration.vtype = .uint8 ∨
      var.declaration.vtype = .uint16 ∨ var.declaration.vtype = .uint32) :
    setting var (leBytes size number, length) =
      .number (number % 256 ^ size).toNat := by
  rcases isNumber with kind | kind | kind <;>
    simp only [setting, kind, leValue_leBytes_emod]

theorem varsSetVar_of_refused
    (refused : readSetting env.atoiOverflow var text = none) :
    varsSetVar env var.declaration.vtype var text store =
      .error .invValue := by
  cases kind : var.declaration.vtype with
  | binary =>
      simp only [readSetting, kind] at refused
      cases outcome : varsSetBinary var text store with
      | error code => rw [varsSetVar, outcome, varsSetBinary_error outcome]
      | ok result =>
          obtain ⟨digits, literal⟩ := hexLiteral_of_varsSetBinary
            (minsize_eq_size kind) rfl outcome
          rw [readBytes_of_literal literal] at refused
          cases refused
  | custom => exact absurd kind var.declaration.vtype_ne_custom
  | _ =>
      simp only [readSetting, kind] at refused
      cases refused

theorem varsSetVar_of_accepted
    (short : var.declaration.vtype = .str → strlen text < var.size)
    {value : Setting}
    (accepted : readSetting env.atoiOverflow var text = some value) :
    ∃ after,
      varsSetVar env var.declaration.vtype var text store =
          .ok (echoSetting var text value, after) ∧
        setting var (after.cell var) = value := by
  have size := size_of_vtype var
  cases kind : var.declaration.vtype with
  | boolean =>
      rw [kind] at size
      simp only [readSetting, kind] at accepted
      obtain rfl := Option.some.inj accepted
      have cell := cell_write_full store var
        [if atoi env.atoiOverflow text ≠ 0 then 1 else 0] size.symm
      refine ⟨store.write var 0
        [if atoi env.atoiOverflow text ≠ 0 then 1 else 0], ?_, ?_⟩
      · have data := congrArg Prod.fst cell
        simp only [Store.cell] at data
        simp only [varsSetVar, Store.truth, data, echoSetting, printSetting,
          kind, reduceCtorEq, if_false, truth_byte]
      · rw [cell]
        simp only [setting, kind, truth_byte]
  | uint8 =>
      rw [kind] at size
      simp only [readSetting, kind] at accepted
      obtain rfl := Option.some.inj accepted
      have stored := number_write store size (atoi env.atoiOverflow text)
      refine ⟨store.write var 0 (leBytes 1 (atoi env.atoiOverflow text)),
        ?_, ?_⟩
      · simp only [varsSetVar, stored, echoSetting, printSetting, kind,
          reduceCtorEq, if_false]
        rfl
      · rw [cell_write_full store var _
          ((leBytes_length _ _).trans size.symm), setting_number (Or.inl kind)]
        rfl
  | uint16 =>
      rw [kind] at size
      simp only [readSetting, kind] at accepted
      obtain rfl := Option.some.inj accepted
      have stored := number_write store size (atoi env.atoiOverflow text)
      refine ⟨store.write var 0 (leBytes 2 (atoi env.atoiOverflow text)),
        ?_, ?_⟩
      · simp only [varsSetVar, stored, echoSetting, printSetting, kind,
          reduceCtorEq, if_false]
        rfl
      · rw [cell_write_full store var _
          ((leBytes_length _ _).trans size.symm),
          setting_number (Or.inr (Or.inl kind))]
        rfl
  | uint32 =>
      rw [kind] at size
      simp only [readSetting, kind] at accepted
      obtain rfl := Option.some.inj accepted
      have stored := number_write store size (atoi env.atoiOverflow text)
      refine ⟨store.write var 0 (leBytes 4 (atoi env.atoiOverflow text)),
        ?_, ?_⟩
      · simp only [varsSetVar, stored, echoSetting, printSetting, kind,
          reduceCtorEq, if_false, if_true]
        rfl
      · rw [cell_write_full store var _
          ((leBytes_length _ _).trans size.symm),
          setting_number (Or.inr (Or.inr kind))]
        rfl
  | str =>
      simp only [readSetting, kind] at accepted
      obtain rfl := Option.some.inj accepted
      have fits := short kind
      have data := store.write_full var (strncpyBytes text var.size)
        (strncpyBytes_length _ _)
      have copied :
          cstr (strncpyBytes text var.size ++ env.beyond var) = cstr text := by
        rw [cstr_append_of_mem (zero_mem_strncpyBytes fits),
          cstr_strncpyBytes fits]
      refine ⟨varsSetStr env var text store, ?_, ?_⟩
      · simp only [varsSetVar, varsSetStr, Env.memory, data, copied,
          echoSetting, kind, printSetting, reduceCtorEq, if_false]
      · simp only [setting, kind, Store.cell, varsSetStr_data,
          cstr_strncpyBytes fits]
  | binary =>
      simp only [readSetting, kind] at accepted
      by_cases isLiteral : ∃ digits, HexLiteral var.size text digits
      · obtain ⟨digits, literal⟩ := isLiteral
        rw [readBytes_of_literal literal] at accepted
        obtain rfl := Option.some.inj accepted
        have data := store.write_full var (digitsBytes digits var.size)
          (digitsBytes_length _ _)
        have stored := varsSetBinary_literal (minsize_eq_size kind) rfl
          literal store
        refine ⟨(store.write var 0 (digitsBytes digits var.size)).setLength
          var var.size, ?_, ?_⟩
        · simp only [varsSetVar, stored, echoSetting, kind, if_true]
        · simp only [setting, kind, Store.cell, Store.setLength_data, data,
            Store.setLength_length_self]
          rw [List.take_of_length_le (by simp)]
      · rw [readBytes_of_no_literal (not_exists.mp isLiteral)] at accepted
        cases accepted
  | custom => exact absurd kind var.declaration.vtype_ne_custom

end Reads

/-! ## What `vars_get` prints -/

/-- A terminated string and a binary of full length are printed as the
settings they stand for. -/
theorem varText_eq_printSetting (env : Env) (store : Store) {var : Var}
    (terminated : var.declaration.vtype = .str → 0 ∈ store.data var)
    (full : var.declaration.vtype = .binary → store.length var = var.size) :
    varText env var.declaration.vtype var store =
      printSetting var (setting var (store.cell var)) := by
  cases kind : var.declaration.vtype with
  | str =>
      simp only [varText, setting, kind, printSetting, Store.cell, Env.memory,
        cstr_append_of_mem (terminated kind)]
  | binary =>
      have size : (store.data var).length = store.length var :=
        (store.sized var).trans (full kind).symm
      simp only [varText, setting, kind, printSetting, Store.cell, Env.bytes,
        Env.memory, ← size]
      rw [List.takeD_eq_take _ (by simp), List.take_left, List.take_length]
  | custom => exact absurd kind var.declaration.vtype_ne_custom
  | boolean =>
      simp only [varText, setting, kind, printSetting, Store.cell, Store.truth]
      rfl
  | _ =>
      simp only [varText, setting, kind, printSetting, Store.cell,
        Store.number, reduceCtorEq, if_false, if_true]

end LoraIot.Config
