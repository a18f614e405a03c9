import LoraIot.Vars.Flash

/-!
# The command interface to the variables (`vars.c`)

`vars_set` and `vars_get`, with every exit of the C functions: the lookup, the
checks of value and direction, the switch over the type of the row, and the
setter or getter.  A `char *` argument is the list of the bytes it points to,
`none` for a null pointer; the terminator is implied behind the last byte.
-/

namespace LoraIot.Vars

open LoraIot.CStrings LoraIot.Numerals

inductive VerrCodes where
  | success | invKey | invValue | invType | invAccess
  deriving DecidableEq, Repr

def hexdigitToValue (digit : UInt8) : Int :=
  if digit ≥ 48 ∧ digit ≤ 57 then
    digit.toNat - 48
  else if digit ≥ 97 ∧ digit ≤ 102 then
    digit.toNat - 97 + 10
  else if digit ≥ 65 ∧ digit ≤ 70 then
    digit.toNat - 65 + 10
  else
    -1

/-- The loop of `vars_set` that decodes `count` bytes from the hexadecimal
digits of `value`, starting with the byte at `index`.  The result is `none`
where the loop returns `verr_inv_value`. -/
def decodeLoop (value : List UInt8) : Nat → Nat → Option (List UInt8)
  | 0, _ => some []
  | count + 1, index =>
      let high := hexdigitToValue (value.getD (2 + index * 2 + 0) 0)
      let low := hexdigitToValue (value.getD (2 + index * 2 + 1) 0)
      if high < 0 then
        none
      else if low < 0 then
        none
      else
        (decodeLoop value count (index + 1)).map fun rest =>
          (UInt8.ofNat (high.toNat * 16) + UInt8.ofNat low.toNat) :: rest

/-- The branch of `vars_set` for `vtype_binary`. -/
def varsSetBinary (var : Var) (value : List UInt8) (store : Store) :
    Except VerrCodes (List UInt8 × Store) :=
  let vlen : Int := (strlen value : Int) - 2
  if vlen < var.minsize * 2 then
    .error .invValue
  else if vlen > var.size * 2 then
    .error .invValue
  else if value.getD 0 0 ≠ 48 ∨ value.getD 1 0 ≠ 120 then
    .error .invValue
  else
    match decodeLoop value (vlen / 2).toNat 0 with
    | none => .error .invValue
    | some buffer =>
        .ok (cstr value,
          (store.write var 0 buffer).setLength var (vlen / 2).toNat)

def Store.truth (store : Store) (var : Var) : Bool :=
  (store.data var).headD 0 ≠ 0

def Store.number (store : Store) (var : Var) : Nat :=
  leValue (store.data var)

theorem Store.number_lt (store : Store) {var : Var} {count : Nat}
    (size : var.size = count) : store.number var < 256 ^ count := by
  rw [← size, ← store.sized var]
  exact leValue_lt (store.data var)

def boolText (truth : Bool) : List UInt8 :=
  if truth then ascii "1" else ascii "0"

/-- The switch of `vars_set`: the reply and the new store. -/
def varsSetVar (env : Env) (vtype : VType) (var : Var) (value : List UInt8)
    (store : Store) : Except VerrCodes (List UInt8 × Store) :=
  let number := atoi env.atoiOverflow value
  match vtype with
  | .boolean =>
      let after := store.write var 0 [if number ≠ 0 then 1 else 0]
      .ok (boolText (after.truth var), after)
  | .uint8 =>
      let after := store.write var 0 (leBytes 1 number)
      .ok (decimal (after.number var), after)
  | .uint16 =>
      let after := store.write var 0 (leBytes 2 number)
      .ok (decimal (after.number var), after)
  | .uint32 =>
      let after := store.write var 0 (leBytes 4 number)
      .ok (decimalInt (asInt (after.number var)), after)
  | .str =>
      let copied := store.write var 0 (strncpyBytes value var.size)
      .ok (cstr (env.memory copied var),
        copied.setLength var (strlen (env.memory copied var)))
  | .binary => varsSetBinary var value store
  | .custom => .error .invType

/-- How a call of `vars_set` ends: it returns, or `sys_reboot` restarts the
device. -/
inductive SetOutcome where
  | returned (code : VerrCodes) (reply : Option (List UInt8))
      (device : Device)
  | rebooted (device : Device)

def SetOutcome.device : SetOutcome → Device
  | .returned _ _ device => device
  | .rebooted device => device

/-- The setters of the table.  A restart brings the variables back to their
static initialisers. -/
def runSetter (env : Env) (device : Device) : Setter →
    Option (List UInt8 × Device)
  | .reboot => none
  | .flashSave =>
      let result := flashSave env device
      some (result.1, { device with nvs := result.2 })
  | .flashClear =>
      let result := flashClear device
      some (result.1, { device with nvs := result.2 })

/-- The end of `vars_set`, after the switch. -/
def varsSetFinish (env : Env) (set : Option Setter)
    (reply : Option (List UInt8)) (device : Device) : SetOutcome :=
  match set with
  | none => .returned .success reply device
  | some setter =>
      match runSetter env device setter with
      | none => .rebooted { device with store := Store.initial }
      | some result => .returned .success (reply <|> some result.1) result.2

def varsSet (env : Env) (key : List UInt8) (value : Option (List UInt8))
    (device : Device) : SetOutcome :=
  match setgetFindKey key with
  | none => .returned .invKey none device
  | some row =>
      match value with
      | none => .returned .invValue none device
      | some text =>
          if text.headD 0 = 0 then
            .returned .invValue none device
          else if row.vdir = .read then
            .returned .invAccess none device
          else
            match row.var with
            | none => varsSetFinish env row.set none device
            | some var =>
                match varsSetVar env row.vtype var text device.store with
                | .error code => .returned code none device
                | .ok result =>
                    varsSetFinish env row.set (some result.1)
                      { device with store := result.2 }

/-- The getters of the table.  They return a pointer, which is never null. -/
def runGetter (env : Env) (device : Device) : Getter →
    List UInt8 × Device
  | .flashLoad =>
      let result := flashLoad env device
      (result.1, { device with store := result.2 })

/-- The text `vars_get` makes of a variable. -/
def varText (env : Env) (vtype : VType) (var : Var) (store : Store) :
    List UInt8 :=
  match vtype with
  | .boolean => boolText (store.truth var)
  | .uint8 => decimal (store.number var)
  | .uint16 => decimal (store.number var)
  | .uint32 => decimalInt (asInt (store.number var))
  | .str => cstr (env.memory store var)
  | .binary =>
      ascii "0x" ++ hexText (env.bytes store var (store.length var))
  | .custom => []

/-- The text `vars_get` makes of the pointer that a getter returned. -/
def getterText (env : Env) (vtype : VType) (result : List UInt8) :
    List UInt8 :=
  match vtype with
  | .boolean => ascii "1"
  | .uint8 => decimalInt (asInt (env.address result))
  | .uint16 => decimalInt (asInt (env.address result))
  | .uint32 => decimalInt (asInt (env.address result))
  | .str => result
  | .binary => result
  | .custom => []

/-- `vars_get`: the code, the reply and the device afterwards. -/
def varsGet (env : Env) (key : List UInt8) (value : Option (List UInt8))
    (device : Device) : VerrCodes × Option (List UInt8) × Device :=
  match setgetFindKey key with
  | none => (.invKey, none, device)
  | some row =>
      if (value.getD []).headD 0 ≠ 0 then
        (.invValue, none, device)
      else if row.vdir = .write then
        (.invAccess, none, device)
      else if row.vtype = .custom then
        (.invType, some (ascii "ERROR"), device)
      else
        let fromVar :=
          match row.var with
          | none => ascii "ERROR"
          | some var => varText env row.vtype var device.store
        match row.get with
        | none => (.success, some fromVar, device)
        | some getter =>
            let result := runGetter env device getter
            (.success, some (getterText env row.vtype result.1), result.2)

/-- A row of the table that clients read and write, with a variable and
without setter and getter. -/
structure Row.Plain (row : Row) (var : Var) : Prop where
  listed : row ∈ setget
  vdir : row.vdir = .readwrite
  var : row.var = some var
  set : row.set = none
  get : row.get = none

theorem Row.Plain.vtype {row : Row} {var : Var} (plain : row.Plain var) :
    row.vtype = var.declaration.vtype :=
  (setget_vtype row plain.listed var plain.var).symm

/-- Every row with a variable that `vars_set` may write is plain. -/
theorem Row.plain_of_writable {row : Row} {var : Var}
    (listed : row ∈ setget) (points : row.var = some var)
    (writable : row.vdir ≠ .read) : row.Plain var := by
  have present : row.var.isSome = true := by rw [points, Option.isSome]
  obtain ⟨set, get⟩ := setget_functions row listed present
  exact
    ⟨listed, setget_writable row listed present writable, points, set, get⟩

theorem varsSet_plain {row : Row} {var : Var} (plain : row.Plain var)
    (env : Env) {text : List UInt8} (nonempty : text.headD 0 ≠ 0)
    (device : Device) :
    varsSet env row.key (some text) device =
      match varsSetVar env var.declaration.vtype var text device.store with
      | .error code => .returned code none device
      | .ok result =>
          .returned .success (some result.1)
            { device with store := result.2 } := by
  have notRead : ¬ row.vdir = .read := by
    rw [plain.vdir]
    decide
  simp only [varsSet, setgetFindKey_of_mem plain.listed, if_neg nonempty,
    if_neg notRead, plain.var, plain.vtype, plain.set,
    varsSetFinish]

theorem varsSet_plain_empty {row : Row} {var : Var} (plain : row.Plain var)
    (env : Env) {text : List UInt8} (isEmpty : text.headD 0 = 0)
    (device : Device) :
    varsSet env row.key (some text) device =
      .returned .invValue none device := by
  simp only [varsSet, setgetFindKey_of_mem plain.listed, if_pos isEmpty]

theorem varsGet_plain {row : Row} {var : Var} (plain : row.Plain var)
    (env : Env) (device : Device) :
    varsGet env row.key none device =
      (.success, some (varText env var.declaration.vtype var device.store),
        device) := by
  have notWrite : ¬ row.vdir = .write := by
    rw [plain.vdir]
    decide
  have queried : ¬ ((none : Option (List UInt8)).getD []).headD 0 ≠ 0 := by
    decide
  simp only [varsGet, setgetFindKey_of_mem plain.listed, if_neg queried,
    if_neg notWrite, plain.vtype, if_neg (var.declaration.vtype_ne_custom),
    plain.var, plain.get]

end LoraIot.Vars
