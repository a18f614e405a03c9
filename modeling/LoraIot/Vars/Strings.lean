import LoraIot.Vars.FlashLoad
import LoraIot.Vars.SetGet

/-!
# Strings that `vars_set` stores

`vars_set` copies a string with `strncpy`, bounded by the full size of the
array, and measures it with `strlen` afterwards.  `strncpy` leaves no
terminator when the string has as many characters as the array or more, and
then the measuring continues behind the array.
-/

namespace LoraIot.Vars

open LoraIot.CStrings

/-- The variable holds `value`, or as much of it as leaves room for a
terminator, and its length has been measured without leaving the array. -/
structure StringStored (env : Env) (var : Var) (value : List UInt8)
    (after : Store) : Prop where
  terminated : 0 ∈ after.data var
  whole : strlen value < var.size → cstr (after.data var) = cstr value
  cut : var.size ≤ strlen value →
    cstr (after.data var) <+: cstr value ∧
      strlen (after.data var) ≤ var.size - 1
  length : after.length var = strlen (after.data var)
  /-- The indices at which `strlen` looks, the terminator included. -/
  scanned : ∀ index ≤ strlen (env.memory after var), index < var.size

theorem Env.strlen_memory (env : Env) {store : Store} {var : Var}
    (terminated : 0 ∈ store.data var) :
    strlen (env.memory store var) = strlen (store.data var) := by
  rw [strlen, Env.memory, cstr_append_of_mem terminated, strlen]

/-- The branch of `vars_set` for strings. -/
def varsSetStr (env : Env) (var : Var) (value : List UInt8) (store : Store) :
    Store :=
  let copied := store.write var 0 (strncpyBytes value var.size)
  copied.setLength var (strlen (env.memory copied var))

theorem varsSetStr_data (env : Env) (var : Var) (value : List UInt8)
    (store : Store) :
    (varsSetStr env var value store).data var =
      strncpyBytes value var.size := by
  simp only [varsSetStr, Store.setLength_data]
  exact Store.write_full _ _ _ (strncpyBytes_length _ _)

theorem varsSetStr_stored_iff (env : Env) (var : Var) (value : List UInt8)
    (store : Store) :
    StringStored env var value (varsSetStr env var value store) ↔
      strlen value < var.size := by
  have data := varsSetStr_data env var value store
  constructor
  · intro stored
    have terminated := stored.terminated
    rwa [data, zero_mem_strncpyBytes_iff] at terminated
  · intro fits
    have terminated : 0 ∈ (varsSetStr env var value store).data var := by
      rw [data]
      exact zero_mem_strncpyBytes fits
    have text : cstr ((varsSetStr env var value store).data var) =
        cstr value := by
      rw [data, cstr_strncpyBytes fits]
    have measured : strlen (env.memory (varsSetStr env var value store) var) =
        strlen ((varsSetStr env var value store).data var) :=
      env.strlen_memory terminated
    refine ⟨terminated, fun _ => text, ?_, ?_, ?_⟩
    · intro tooLong
      exact absurd fits (Nat.not_lt.mpr tooLong)
    · rw [← measured]
      exact Store.setLength_length_self ..
    · intro index scanned
      rw [measured, strlen, text, ← strlen.eq_1] at scanned
      exact Nat.lt_of_le_of_lt scanned fits

/-- `vars_set` accepts every string for a row that it may write, and stores it
properly exactly when the string is shorter than the array. -/
theorem varsSet_string_stored_iff {row : Row} {var : Var}
    (listed : row ∈ setget) (points : row.var = some var)
    (isString : row.vtype = .str) (writable : row.vdir ≠ .read)
    (env : Env) (device : Device) {value : List UInt8}
    (nonempty : value.headD 0 ≠ 0) :
    ∃ reply after,
      varsSet env row.key (some value) device =
          .returned .success reply after ∧
        (StringStored env var value after.store ↔
          strlen value < var.size) := by
  have plain := Row.plain_of_writable listed points writable
  have accepted :
      varsSet env row.key (some value) device =
        .returned .success
          (some (cstr (env.memory (varsSetStr env var value device.store)
            var)))
          { device with store := varsSetStr env var value device.store } := by
    rw [varsSet_plain plain env nonempty, ← plain.vtype, isString]
    rfl
  exact ⟨_, _, accepted, varsSetStr_stored_iff env var value device.store⟩

/-- Setting `auth` to `OTAA` fills its five bytes. -/
theorem varsSet_auth_stored :
    ∃ reply after,
      varsSet Env.quiet (ascii "auth") (some (ascii "OTAA"))
          ⟨Store.initial, fun _ => none⟩ = .returned .success reply after ∧
        StringStored Env.quiet .loraAuth (ascii "OTAA") after.store := by
  obtain ⟨reply, after, accepted, stored⟩ := varsSet_string_stored_iff
    (show plainRow "auth" .str .readwrite (some .loraAuth) .loraAuth ∈ setget
      by decide)
    rfl rfl (by decide) Env.quiet ⟨Store.initial, fun _ => none⟩
    (show (ascii "OTAA").headD 0 ≠ 0 by decide)
  exact ⟨reply, after, accepted, stored.mpr (by decide)⟩

/-- Setting `class` to two characters leaves its two bytes without a
terminator. -/
theorem varsSet_class_not_stored :
    ¬ ∀ (row : Row) (var : Var), row ∈ setget → row.var = some var →
      row.vtype = .str → row.vdir ≠ .read →
        ∀ (env : Env) (device : Device) (value : List UInt8)
          (reply : Option (List UInt8)) (after : Device),
          value.headD 0 ≠ 0 →
            varsSet env row.key (some value) device =
                .returned .success reply after →
              StringStored env var value after.store := by
  intro always
  have stored := always
    (plainRow "class" .str .readwrite (some .loraClass) .loraClass)
    .loraClass (by decide) rfl rfl (by decide) Env.quiet
    ⟨Store.initial, fun _ => none⟩ (ascii "AB") (some (ascii "AB"))
    ⟨varsSetStr Env.quiet .loraClass (ascii "AB") Store.initial,
      fun _ => none⟩
    (by decide) rfl
  have terminated := stored.terminated
  rw [varsSetStr_data] at terminated
  revert terminated
  decide

end LoraIot.Vars
