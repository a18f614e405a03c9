import LoraIot.Vars.FlashLoad
import LoraIot.Vars.SetGet

/-!
# Numbers that fit their variables

`vars_set` converts a number with `atoi` and stores it in a variable of one or
two bytes.  Nothing compares it with the range of the variable, as the branch
for binaries does with the size of its value, and so a number that does not
fit is cut off while the call succeeds.
-/

namespace LoraIot.Vars

open LoraIot.CStrings LoraIot.Numerals

/-- The call succeeds and the variable is the number that the digits denote,
or it fails and the variable is what it was. -/
def SetsExactly (env : Env) (row : Row) (var : Var) (digits : List UInt8)
    (device : Device) : Prop :=
  ∃ code reply after,
    varsSet env row.key (some digits) device = .returned code reply after ∧
      (code = .success ∧ after.store.number var = numeralValue digits ∨
        code ≠ .success ∧ after.store.cell var = device.store.cell var)

section Number

variable {row : Row} {var : Var} (plain : row.Plain var)
  (numeric : row.vtype = .uint8 ∨ row.vtype = .uint16)

include plain numeric

theorem numeric_size_le : var.size ≤ 2 := by
  have size := size_of_vtype var
  rw [← plain.vtype] at size
  rcases numeric with isByte | isWord
  · rw [isByte] at size
    omega
  · rw [isWord] at size
    omega

/-- A numeric row accepts every text, and stores as many bytes of the number
as the variable has. -/
theorem varsSet_numeric (env : Env) {text : List UInt8}
    (nonempty : text.headD 0 ≠ 0) (device : Device) :
    ∃ reply,
      varsSet env row.key (some text) device =
        .returned .success reply
          { device with
            store := device.store.write var 0
              (leBytes var.size (atoi env.atoiOverflow text)) } := by
  have size := size_of_vtype var
  rw [varsSet_plain plain env nonempty]
  rw [plain.vtype] at numeric
  rcases numeric with isByte | isWord
  · rw [isByte] at size ⊢
    rw [size]
    exact ⟨_, rfl⟩
  · rw [isWord] at size ⊢
    rw [size]
    exact ⟨_, rfl⟩

end Number

/-- A numeric row sets its variable to the number that a text of digits
denotes exactly when the number fits the variable. -/
theorem varsSet_number_exact_iff {row : Row} {var : Var}
    (listed : row ∈ setget) (points : row.var = some var)
    (numeric : row.vtype = .uint8 ∨ row.vtype = .uint16)
    (writable : row.vdir ≠ .read) (env : Env) (device : Device)
    {digits : List UInt8} (decimal : ∀ byte ∈ digits, isDigit byte = true) :
    SetsExactly env row var digits device ↔
      numeralValue digits < 256 ^ var.size := by
  have plain := Row.plain_of_writable listed points writable
  cases digits with
  | nil =>
      -- The empty text is refused, and zero fits.
      refine iff_of_true ?_ (Nat.pow_pos (by decide))
      exact ⟨_, _, _, varsSet_plain_empty plain env rfl device,
        Or.inr ⟨by decide, rfl⟩⟩
  | cons first rest =>
      have nonempty : (first :: rest).headD 0 ≠ 0 := by
        intro isZero
        have digit := decimal first List.mem_cons_self
        rw [show first = 0 from isZero] at digit
        exact absurd digit (by decide)
      obtain ⟨reply, accepted⟩ :=
        varsSet_numeric plain numeric env nonempty device
      constructor
      · intro sets
        obtain ⟨code, _, after, returned, exactly | refused⟩ := sets
        · rw [← exactly.2]
          exact after.store.number_lt rfl
        · rw [accepted] at returned
          cases returned
          exact absurd rfl refused.1
      · intro fits
        have small : 256 ^ var.size ≤ 256 ^ 2 :=
          Nat.pow_le_pow_right (by decide) (numeric_size_le plain numeric)
        have parsed : atoi env.atoiOverflow (first :: rest) =
            numeralValue (first :: rest) :=
          atoi_of_digits env.atoiOverflow decimal (by omega)
        rw [parsed] at accepted
        refine ⟨_, _, _, accepted, Or.inl ⟨rfl, ?_⟩⟩
        rw [Store.number, Store.write_full _ _ _ (leBytes_length _ _)]
        exact leValue_leBytes fits

/-- The largest data rate. -/
theorem varsSet_datarate_exact :
    SetsExactly Env.quiet
        (plainRow "datarate" .uint8 .readwrite (some .loraDatarate) .datarate)
        .loraDatarate (ascii "255") ⟨Store.initial, fun _ => none⟩ :=
  (varsSet_number_exact_iff (by decide) rfl (Or.inl rfl) (by decide) Env.quiet
    ⟨Store.initial, fun _ => none⟩ (by decide +kernel)).mpr (by decide)

/-- A receive delay of 65536 is accepted and stored as zero. -/
theorem varsSet_rxdelay1_not_exact :
    ¬ ∀ (env : Env) (row : Row) (var : Var) (digits : List UInt8)
      (device : Device),
      row ∈ setget → row.var = some var →
        row.vtype = .uint8 ∨ row.vtype = .uint16 → row.vdir ≠ .read →
          (∀ byte ∈ digits, isDigit byte = true) →
            SetsExactly env row var digits device := by
  intro always
  let row := plainRow "rxdelay1" .uint16 .readwrite (some .loraRxdelay1)
    .rxdelay1
  obtain ⟨code, reply, after, returned, exactly | refused⟩ :=
    always Env.quiet row .loraRxdelay1 (ascii "65536")
      ⟨Store.initial, fun _ => none⟩ (by decide) rfl (Or.inr rfl) (by decide)
      (by decide +kernel)
  · have bound := after.store.number_lt
      (show Var.loraRxdelay1.size = 2 from rfl)
    rw [exactly.2] at bound
    exact absurd bound (by decide)
  · have plain : row.Plain .loraRxdelay1 :=
      Row.plain_of_writable (by decide) rfl (by decide)
    obtain ⟨_, accepted⟩ := varsSet_numeric plain (Or.inr rfl) Env.quiet
      (show (ascii "65536").headD 0 ≠ 0 by decide)
      ⟨Store.initial, fun _ => none⟩
    rw [accepted] at returned
    cases returned
    exact refused.1 rfl

end LoraIot.Vars
