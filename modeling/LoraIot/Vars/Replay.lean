import LoraIot.Vars.Codec
import LoraIot.Vars.FlashLoad

/-!
# Replaying what `vars_get` printed

A backup of the device is the list of the texts that `vars_get` prints.
Replaying it with `vars_set` brings back every value.  It is not the identity
on the bytes: `strncpy` pads, so whatever stood behind the terminator of a
string is zeroed.  In the other direction, whatever `vars_set` accepts,
`vars_get` prints again.
-/

namespace LoraIot.Vars

open LoraIot.CStrings LoraIot.Numerals

/-- The bytes and the recorded length of a variable can be printed and read
back. -/
def CellCodable (var : Var) (cell : List UInt8 × Nat) : Prop :=
  match var.declaration.vtype with
  | .boolean => cell.1 = [0] ∨ cell.1 = [1]
  | .str => 0 ∈ cell.1 ∧ cell.2 = strlen cell.1
  | .binary => cell.2 = var.size
  | _ => True

/-- Booleans are 0 or 1, strings are terminated inside their arrays and have
their recorded length, binaries have their full length. -/
def Store.Codable (store : Store) : Prop :=
  ∀ var, CellCodable var (store.cell var)

/-- The store with the bytes behind a non-empty string zeroed. -/
def Store.replayed (store : Store) (var : Var) : Store :=
  if var.declaration.vtype = .str ∧ (store.data var).headD 0 ≠ 0 then
    store.write var 0
      (cstr (store.data var) ++
        List.replicate (var.size - strlen (store.data var)) 0)
  else
    store

/-- The text that `vars_get` returns after `vars_set` has replied `reply`. -/
def shownText (vtype : VType) (reply : List UInt8) : List UInt8 :=
  if vtype = .binary then reply.map toLower else reply

theorem Store.write_self (store : Store) (var : Var) {bytes : List UInt8}
    (same : bytes = store.data var) : store.write var 0 bytes = store := by
  subst same
  apply Store.ext
  · funext other
    by_cases here : other = var
    · subst here
      exact Store.write_full store other _ (store.sized other)
    · exact Store.write_data_of_ne store var other 0 _ here
  · rfl

theorem Store.setLength_self (store : Store) (var : Var) {length : Nat}
    (same : length = store.length var) :
    store.setLength var length = store := by
  subst same
  exact Store.ext rfl (Function.update_eq_self ..)

theorem Store.leBytes_number (store : Store) {var : Var} {count : Nat}
    (size : var.size = count) :
    leBytes count (store.number var) = store.data var := by
  rw [← size, ← store.sized var]
  exact leBytes_leValue (store.data var)

theorem Store.write_printed (store : Store) {var : Var} {count : Nat}
    (size : var.size = count) (small : count ≤ 2)
    (overflow : List UInt8 → Int) :
    store.write var 0
        (leBytes count (atoi overflow (decimal (store.number var)))) =
      store := by
  have bound := store.number_lt size
  have limit : 256 ^ count ≤ 256 ^ 2 := Nat.pow_le_pow_right (by decide) small
  rw [atoi_decimal overflow (by omega)]
  exact store.write_self var (store.leBytes_number size)

theorem decimal_headD_ne_zero (number : Nat) :
    (decimal number).headD 0 ≠ 0 := by
  rw [ne_eq, ← cstr_eq_nil_iff, cstr_eq_self (zero_notMem_decimal number)]
  exact decimal_ne_nil number

theorem Row.Plain.not_uint32 {row : Row} {var : Var}
    (plain : row.Plain var) : row.vtype ≠ .uint32 := by
  have table :
      ∀ row ∈ setget, row.vdir = .readwrite → row.vtype ≠ .uint32 := by
    decide
  exact table row plain.listed plain.vdir

theorem Store.replayed_of_ne_str (store : Store) {var : Var}
    (notStr : var.declaration.vtype ≠ .str) :
    store.replayed var = store :=
  if_neg fun both => notStr both.1

theorem varsSetVar_boolean (env later : Env) (store : Store) {var : Var}
    (codable : store.data var = [0] ∨ store.data var = [1]) :
    (varText env .boolean var store).headD 0 ≠ 0 ∧
      varsSetVar later .boolean var (varText env .boolean var store) store =
        .ok (varText env .boolean var store, store) := by
  rcases codable with isFalse | isTrue
  · have text : varText env .boolean var store = ascii "0" := by
      simp [varText, boolText, Store.truth, isFalse]
    have parsed : ¬ atoi later.atoiOverflow (ascii "0") ≠ 0 := by
      rw [atoi, if_pos (by decide)]
      decide
    have written : store.write var 0 [0] = store :=
      store.write_self var isFalse.symm
    rw [text]
    refine ⟨by decide, ?_⟩
    simp only [varsSetVar, if_neg parsed, written]
    exact congrArg (fun reply => Except.ok (reply, store)) text
  · have text : varText env .boolean var store = ascii "1" := by
      simp [varText, boolText, Store.truth, isTrue]
    have parsed : atoi later.atoiOverflow (ascii "1") ≠ 0 := by
      rw [atoi, if_pos (by decide)]
      decide
    have written : store.write var 0 [1] = store :=
      store.write_self var isTrue.symm
    rw [text]
    refine ⟨by decide, ?_⟩
    simp only [varsSetVar, if_pos parsed, written]
    exact congrArg (fun reply => Except.ok (reply, store)) text

theorem varsSetVar_str (env later : Env) (store : Store) {var : Var}
    (isStr : var.declaration.vtype = .str)
    (terminated : (0 : UInt8) ∈ store.data var)
    (measured : store.length var = strlen (store.data var))
    (nonempty : (store.data var).headD 0 ≠ 0) :
    varsSetVar later .str var (varText env .str var store) store =
      .ok (varText env .str var store, store.replayed var) := by
  have text : varText env .str var store = cstr (store.data var) := by
    simp only [varText, Env.memory]
    exact cstr_append_of_mem terminated _
  have fits : strlen (cstr (store.data var)) < var.size := by
    rw [strlen_cstr, ← store.sized var]
    exact (strlen_lt_length_iff _).mpr terminated
  have padded :
      strncpyBytes (cstr (store.data var)) var.size =
        cstr (store.data var) ++
          List.replicate (var.size - strlen (store.data var)) 0 := by
    rw [strncpyBytes_of_lt fits, cstr_cstr, strlen_cstr]
  have copied :
      (store.write var 0
          (strncpyBytes (cstr (store.data var)) var.size)).data var =
        strncpyBytes (cstr (store.data var)) var.size :=
    Store.write_full _ _ _ (strncpyBytes_length _ _)
  have reply :
      cstr (later.memory
          (store.write var 0
            (strncpyBytes (cstr (store.data var)) var.size)) var) =
        cstr (store.data var) := by
    rw [Env.memory, copied, cstr_append_of_mem (zero_mem_strncpyBytes fits),
      cstr_strncpyBytes fits, cstr_cstr]
  have length :
      strlen (later.memory
          (store.write var 0
            (strncpyBytes (cstr (store.data var)) var.size)) var) =
        store.length var := by
    rw [strlen, reply, measured, strlen]
  rw [text]
  simp only [varsSetVar, reply, length]
  rw [Store.setLength_self _ _ (by rw [Store.write_length]), padded,
    Store.replayed, if_pos ⟨isStr, nonempty⟩]

theorem varsSetVar_binary (env later : Env) (store : Store) {var : Var}
    (isBinary : var.declaration.vtype = .binary)
    (fullLength : store.length var = var.size) :
    (varText env .binary var store).headD 0 ≠ 0 ∧
      varsSetVar later .binary var (varText env .binary var store) store =
        .ok (varText env .binary var store, store) := by
  have whole :
      (store.data var ++ env.beyond var).take var.size = store.data var := by
    rw [← store.sized var]
    exact List.take_left
  have text :
      varText env .binary var store =
        ascii "0x" ++ hexText (store.data var) := by
    simp only [varText, Env.bytes, Env.memory, fullLength]
    rw [List.takeD_eq_take _ (by simp [store.sized]), whole]
  have written := store.write_self var rfl
  rw [text]
  refine ⟨by simp [ascii], ?_⟩
  simp only [varsSetVar, varsSetBinary_hexText isBinary (store.sized var),
    written, Store.setLength_self _ _ fullLength.symm]

/-- Replaying the printed value of a variable. -/
theorem varsSet_varsGet {row : Row} {var : Var} (plain : row.Plain var)
    (env later : Env) (device : Device)
    (codable : CellCodable var (device.store.cell var)) :
    (varsSet later row.key
        (some (varText env var.declaration.vtype var device.store))
        device).device =
      { device with store := device.store.replayed var } := by
  have size := size_of_vtype var
  have notUint32 := plain.not_uint32
  rw [plain.vtype] at notUint32
  rw [CellCodable] at codable
  cases kind : var.declaration.vtype with
  | boolean =>
      rw [kind] at codable
      have notStr : var.declaration.vtype ≠ .str := by
        rw [kind]
        decide
      obtain ⟨nonempty, stored⟩ :=
        varsSetVar_boolean env later device.store codable
      rw [varsSet_plain plain later nonempty, kind, stored,
        device.store.replayed_of_ne_str notStr]
      rfl
  | uint8 =>
      rw [kind] at size
      have notStr : var.declaration.vtype ≠ .str := by
        rw [kind]
        decide
      rw [varText, varsSet_plain plain later (decimal_headD_ne_zero _), kind,
        device.store.replayed_of_ne_str notStr]
      simp only [varsSetVar, SetOutcome.device,
        device.store.write_printed size (by decide)]
  | uint16 =>
      rw [kind] at size
      have notStr : var.declaration.vtype ≠ .str := by
        rw [kind]
        decide
      rw [varText, varsSet_plain plain later (decimal_headD_ne_zero _), kind,
        device.store.replayed_of_ne_str notStr]
      simp only [varsSetVar, SetOutcome.device,
        device.store.write_printed size (by decide)]
  | uint32 => exact absurd kind notUint32
  | str =>
      rw [kind] at codable
      obtain ⟨terminated, measured⟩ := codable
      have text :
          varText env .str var device.store =
            cstr (device.store.data var) := by
        simp only [varText, Env.memory]
        exact cstr_append_of_mem terminated _
      by_cases isEmpty : (device.store.data var).headD 0 = 0
      · -- `vars_set` refuses the empty text.
        have nothing : cstr (device.store.data var) = [] :=
          (cstr_eq_nil_iff _).mpr isEmpty
        rw [text, nothing, varsSet_plain_empty plain later rfl,
          Store.replayed, if_neg fun both => both.2 isEmpty]
        rfl
      · have nonempty :
            (varText env .str var device.store).headD 0 ≠ 0 := by
          rw [text, ne_eq, ← cstr_eq_nil_iff, cstr_cstr, cstr_eq_nil_iff]
          exact isEmpty
        have stored :=
          varsSetVar_str env later device.store kind terminated measured
            isEmpty
        rw [varsSet_plain plain later nonempty, kind, stored]
        rfl
  | binary =>
      rw [kind] at codable
      have notStr : var.declaration.vtype ≠ .str := by
        rw [kind]
        decide
      obtain ⟨nonempty, stored⟩ :=
        varsSetVar_binary env later device.store kind codable
      rw [varsSet_plain plain later nonempty, kind, stored,
        device.store.replayed_of_ne_str notStr]
      rfl
  | custom => exact absurd kind var.declaration.vtype_ne_custom

theorem varsGet_varsSet {row : Row} {var : Var} (plain : row.Plain var)
    (env later : Env) {value : List UInt8}
    (short : row.vtype = .str → strlen value < var.size)
    {device after : Device} {reply : Option (List UInt8)}
    (accepted :
      varsSet env row.key (some value) device =
        .returned .success reply after) :
    varsGet later row.key none after =
      (.success, reply.map (shownText row.vtype), after) := by
  have nonempty : value.headD 0 ≠ 0 := by
    intro isEmpty
    rw [varsSet_plain_empty plain env isEmpty] at accepted
    cases accepted
  rw [varsSet_plain plain env nonempty] at accepted
  rw [varsGet_plain plain, plain.vtype]
  rw [plain.vtype] at short
  have notUint32 := plain.not_uint32
  rw [plain.vtype] at notUint32
  cases kind : var.declaration.vtype with
  | boolean =>
      rw [kind] at accepted
      cases accepted
      rfl
  | uint8 =>
      rw [kind] at accepted
      cases accepted
      rfl
  | uint16 =>
      rw [kind] at accepted
      cases accepted
      rfl
  | uint32 => exact absurd kind notUint32
  | str =>
      rw [kind] at accepted
      cases accepted
      have copied :
          (device.store.write var 0
              (strncpyBytes value var.size)).data var =
            strncpyBytes value var.size :=
        Store.write_full _ _ _ (strncpyBytes_length _ _)
      simp only [varText, shownText, Env.memory, Store.setLength_data,
        Option.map_some, copied,
        cstr_append_of_mem (zero_mem_strncpyBytes (short kind))]
      rfl
  | binary =>
      rw [kind] at accepted
      simp only [varsSetVar] at accepted
      split at accepted
      · rename_i code refused
        obtain rfl := varsSetBinary_error refused
        cases accepted
      · rename_i result isOk
        obtain ⟨bytes, full, stored, replied, printed⟩ :=
          varsSetBinary_ok kind isOk
        cases accepted
        have whole :
            (device.store.write var 0 bytes).data var = bytes :=
          Store.write_full _ _ _ full
        simp only [varText, shownText, Env.bytes, Env.memory, stored,
          Store.setLength_data, Store.setLength_length_self, whole,
          Option.map_some, if_pos]
        rw [List.takeD_eq_take _ (by simp [full]), ← full, List.take_left,
          printed]
  | custom => exact absurd kind var.declaration.vtype_ne_custom

/-- The bytes that a replay zeroes belong to no value. -/
theorem Store.replayed_sameValue (store : Store) (var other : Var)
    (terminated :
      var.declaration.vtype = .str → (0 : UInt8) ∈ store.data var) :
    Store.SameValue other ((store.replayed var).cell other)
      (store.cell other) := by
  rw [Store.replayed]
  split
  · rename_i isReplayed
    obtain ⟨isStr, _⟩ := isReplayed
    by_cases same : other = var
    · subst same
      have fits : strlen (store.data other) < other.size := by
        rw [← store.sized other]
        exact (strlen_lt_length_iff _).mpr (terminated isStr)
      have padded := strncpyBytes_of_lt fits
      have written :
          (store.write other 0
              (strncpyBytes (store.data other) other.size)).data other =
            strncpyBytes (store.data other) other.size :=
        Store.write_full _ _ _ (strncpyBytes_length _ _)
      rw [← padded]
      simp only [Store.SameValue, isStr]
      simp only [Store.cell]
      rw [written, cstr_strncpyBytes fits]
    · have untouched :
          (store.write var 0
            (cstr (store.data var) ++
              List.replicate (var.size - strlen (store.data var)) 0)).cell
              other = store.cell other := by
        simp [Store.cell, same]
      rw [untouched]
      exact Store.SameValue.refl other _
  · exact Store.SameValue.refl other _

/-- `vars_get` and `vars_set` are inverse to each other, up to the bytes behind
the terminator of the string that is replayed. -/
theorem vars_codecs (row : Row) (var : Var) (plain : row.Plain var)
    (device : Device) (codable : device.store.Codable) :
    (∀ env later, ∃ text,
      varsGet env row.key none device = (.success, some text, device) ∧
        (varsSet later row.key (some text) device).device =
          { device with store := device.store.replayed var } ∧
        ∀ other,
          Store.SameValue other ((device.store.replayed var).cell other)
            (device.store.cell other)) ∧
    ∀ env later value reply after,
      (row.vtype = .str → strlen value < var.size) →
        varsSet env row.key (some value) device =
            .returned .success reply after →
          varsGet later row.key none after =
            (.success, reply.map (shownText row.vtype), after) := by
  refine ⟨fun env later => ?_, ?_⟩
  · refine ⟨_, varsGet_plain plain env device,
      varsSet_varsGet plain env later device (codable var), fun other => ?_⟩
    apply Store.replayed_sameValue
    intro isStr
    have here := codable var
    simp only [CellCodable, isStr] at here
    exact here.1
  · intro env later value reply after short accepted
    exact varsGet_varsSet plain env later short accepted

theorem Store.measured_codable : Store.measured.Codable := by
  intro var
  cases var <;> simp [CellCodable, Var.declaration, Declaration.vtype] <;>
    decide

theorem authRow_plain :
    (plainRow "auth" .str .readwrite (some .loraAuth) .loraAuth).Plain
      .loraAuth where
  listed := by decide
  vdir := rfl
  var := rfl
  set := rfl
  get := rfl

/-- Replaying `auth` over the initial store. -/
theorem vars_codecs_auth :
    ∃ text,
      varsGet Env.quiet (ascii "auth") none ⟨Store.measured, fun _ => none⟩ =
          (.success, some text, ⟨Store.measured, fun _ => none⟩) ∧
        (varsSet Env.quiet (ascii "auth") (some text)
            ⟨Store.measured, fun _ => none⟩).device =
          ⟨Store.measured.replayed .loraAuth, fun _ => none⟩ := by
  obtain ⟨text, shown, replayed, _⟩ :=
    (vars_codecs _ .loraAuth authRow_plain ⟨Store.measured, fun _ => none⟩
      Store.measured_codable).1 Env.quiet Env.quiet
  exact ⟨text, shown, replayed⟩

/-- A store whose `auth` holds another character behind the terminator. -/
def Store.leftover : Store :=
  (Store.measured.write .loraAuth 0 [65, 0, 80, 0, 0]).setLength .loraAuth 1

theorem Store.leftover_codable : Store.leftover.Codable := by
  intro var
  by_cases isAuth : var = .loraAuth
  · subst isAuth
    exact ⟨by decide, by decide⟩
  · have untouched : Store.leftover.cell var = Store.measured.cell var := by
      simp [Store.leftover, Store.cell, isAuth]
    rw [untouched]
    exact Store.measured_codable var

/-- Replaying the text `A` of `auth` over that store zeroes the character
behind the terminator. -/
theorem replay_not_identity :
    ¬ ∀ (row : Row) (var : Var), row.Plain var →
      ∀ device : Device, device.store.Codable →
        (∀ env later, ∃ text,
          varsGet env row.key none device = (.success, some text, device) ∧
            (varsSet later row.key (some text) device).device = device) ∧
        ∀ env later value reply after,
          (row.vtype = .str → strlen value < var.size) →
            varsSet env row.key (some value) device =
                .returned .success reply after →
              ∃ shown,
                varsGet later row.key none after =
                    (.success, shown, after) ∧
                  shown.map (List.map toLower) =
                    reply.map (List.map toLower) := by
  intro inverse
  let device : Device := ⟨Store.leftover, fun _ => none⟩
  obtain ⟨text, shown, unchanged⟩ :=
    (inverse _ _ authRow_plain device Store.leftover_codable).1
      Env.quiet Env.quiet
  rw [varsGet_plain authRow_plain] at shown
  obtain rfl := (Option.some.inj (Prod.mk.inj (Prod.mk.inj shown).2).1).symm
  rw [varsSet_varsGet authRow_plain Env.quiet Env.quiet device
    (Store.leftover_codable .loraAuth)] at unchanged
  have sameBytes :
      (Store.leftover.replayed .loraAuth).data .loraAuth =
        Store.leftover.data .loraAuth :=
    congrArg (fun device : Device => device.store.data .loraAuth) unchanged
  revert sameBytes
  decide

end LoraIot.Vars
