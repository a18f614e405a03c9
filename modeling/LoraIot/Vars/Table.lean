import LoraIot.Foundations.Tables
import LoraIot.Vars.Store

/-!
# The `setget` table (`vars.c`)

One row for each key that the command interface knows.  The table is data:
`vars_set`, `vars_get`, `flash_load` and `flash_save` are loops and switches
over its rows.  What those functions rely on without checking it (a key, a
saved variable and a save id belong to at most one row, a row accesses its
variable under the type the variable is declared with) is proved here once.
-/

namespace LoraIot.Vars

open LoraIot.CStrings LoraIot.Tables

inductive VDir where
  | read | write | readwrite
  deriving DecidableEq, Repr

inductive SaveId where
  | none | devid | devtype | proto | autoconnect | loraAuth | appskey
  | nwkskey | appeui | deveui | appkey | devaddr | loraClass | loraAdr
  | datarate | chanMask | rxdelay1 | rxdelay2
  deriving DecidableEq, Repr

/-- The numbers behind `enum var_save_id`, which are the NVS ids. -/
def SaveId.code : SaveId → Nat
  | .none => 0
  | .devid => 1
  | .devtype => 3
  | .proto => 6
  | .autoconnect => 7
  | .loraAuth => 16
  | .appskey => 17
  | .nwkskey => 18
  | .appeui => 19
  | .deveui => 20
  | .appkey => 21
  | .devaddr => 22
  | .loraClass => 23
  | .loraAdr => 24
  | .datarate => 25
  | .chanMask => 26
  | .rxdelay1 => 27
  | .rxdelay2 => 28

/-- The functions that occur in the column `set`. -/
inductive Setter where
  | reboot | flashSave | flashClear
  deriving DecidableEq, Repr

/-- The functions that occur in the column `get`. -/
inductive Getter where
  | flashLoad
  deriving DecidableEq, Repr

/-- `struct key_setget_s`, with `none` for a null pointer. -/
structure Row where
  key : List UInt8
  vtype : VType
  vdir : VDir
  var : Option Var
  set : Option Setter
  get : Option Getter
  saveId : SaveId
  deriving DecidableEq, Repr

/-- A row without setter and getter. -/
def plainRow (key : String) (vtype : VType) (vdir : VDir) (var : Option Var)
    (saveId : SaveId) : Row :=
  ⟨ascii key, vtype, vdir, var, none, none, saveId⟩

/-- The table, in the order of the source, without the terminating row. -/
def setget : List Row :=
  [plainRow "uart_echo" .boolean .readwrite (some .echo) .none,
    plainRow "devid" .str .readwrite (some .devid) .devid,
    plainRow "devid_gen" .uint32 .read (some .deviceId) .none,
    plainRow "firmware" .str .read (some .firmware) .none,
    plainRow "mfirmware" .str .read (some .mfirmware) .none,
    plainRow "battery" .uint8 .read (some .battery) .none,
    plainRow "connected" .boolean .read (some .connected) .none,
    plainRow "connect" .boolean .readwrite (some .connect) .none,
    plainRow "auto_connect" .boolean .readwrite (some .autoConnect)
      .autoconnect,
    plainRow "proto" .str .readwrite (some .proto) .proto,
    plainRow "enabled" .boolean .readwrite (some .enabled) .none,
    -- `sensor` has one initialiser less than the others: `id_none` lands in
    -- the column `get`, where it is a null pointer.
    plainRow "sensor" .str .readwrite (some .sensor) .none,
    plainRow "sensor_board" .str .readwrite (some .sensorBoard) .none,
    plainRow "leds" .boolean .readwrite (some .leds) .none,
    plainRow "connretry" .uint16 .readwrite (some .connretry) .none,
    plainRow "devtype" .str .readwrite (some .devtype) .devtype,
    ⟨ascii "reboot", .boolean, .write, none, some .reboot, none, .none⟩,
    ⟨ascii "save", .boolean, .readwrite, none, some .flashSave,
      some .flashLoad, .none⟩,
    ⟨ascii "flashclear", .boolean, .readwrite, none, some .flashClear, none,
      .none⟩,
    plainRow "auth" .str .readwrite (some .loraAuth) .loraAuth,
    plainRow "class" .str .readwrite (some .loraClass) .loraClass,
    plainRow "deveui" .binary .readwrite (some .loraDevEui) .deveui,
    plainRow "adrenabled" .boolean .readwrite (some .loraAdr) .loraAdr,
    plainRow "chanmask" .binary .readwrite (some .loraChanMask) .chanMask,
    plainRow "datarate" .uint8 .readwrite (some .loraDatarate) .datarate,
    plainRow "rxdelay1" .uint16 .readwrite (some .loraRxdelay1) .rxdelay1,
    plainRow "rxdelay2" .uint16 .readwrite (some .loraRxdelay2) .rxdelay2,
    plainRow "appskey" .binary .readwrite (some .loraAppSkey) .appskey,
    plainRow "nwkskey" .binary .readwrite (some .loraNwkSkey) .nwkskey,
    plainRow "appkey" .binary .readwrite (some .loraAppKey) .appkey,
    plainRow "appeui" .binary .readwrite (some .loraAppEui) .appeui,
    plainRow "devaddr" .binary .readwrite (some .loraDevAddr) .devaddr,
    plainRow "help" .boolean .read none .none,
    plainRow "menu" .boolean .read none .none,
    plainRow "list" .boolean .read none .none,
    plainRow "?" .boolean .read none .none,
    plainRow "binary" .boolean .readwrite (some .binary) .none]

/-- `setget_find_key`: the first row whose key is the given string. -/
def setgetFindKey (key : List UInt8) : Option Row :=
  setget.find? fun row => row.key = cstr key

/-- The row takes part in saving and loading. -/
def Row.Saved (row : Row) : Prop := row.saveId ≠ .none

instance : DecidablePred Row.Saved :=
  fun row => inferInstanceAs (Decidable (row.saveId ≠ .none))

/-- The variable that loading or saving this row touches. -/
def Row.savedVar (row : Row) : Option Var :=
  if row.Saved then row.var else none

def Row.savedId (row : Row) : Option Nat :=
  row.savedVar.map fun _ => row.saveId.code

theorem setget_keys_nodup : (setget.map Row.key).Nodup := by
  decide

theorem setget_savedVars_nodup : (setget.filterMap Row.savedVar).Nodup := by
  decide

theorem setget_savedIds_nodup : (setget.filterMap Row.savedId).Nodup := by
  decide

theorem setget_keys_cstr : ∀ row ∈ setget, cstr row.key = row.key := by
  decide

/-- A row accesses its variable under the type of its declaration. -/
theorem setget_vtype :
    ∀ row ∈ setget, ∀ var ∈ row.var, var.declaration.vtype = row.vtype := by
  decide

/-- A row with a save id has a variable, so that no such row is passed over
when `savedVar` selects the rows. -/
theorem setget_saved_var :
    ∀ row ∈ setget, row.Saved → row.savedVar.isSome = true := by
  decide

theorem setget_functions :
    ∀ row ∈ setget, row.var.isSome = true →
      row.set = none ∧ row.get = none := by
  decide

theorem setget_writable :
    ∀ row ∈ setget, row.var.isSome = true → row.vdir ≠ .read →
      row.vdir = .readwrite := by
  decide

theorem setgetFindKey_eq_some {key : List UInt8} {row : Row}
    (found : setgetFindKey key = some row) :
    row ∈ setget ∧ row.key = cstr key := by
  rw [setgetFindKey] at found
  have matched := List.find?_some found
  exact ⟨List.mem_of_find?_eq_some found, of_decide_eq_true matched⟩

theorem setgetFindKey_of_mem {row : Row} (listed : row ∈ setget) :
    setgetFindKey row.key = some row := by
  have sameText : row.key = cstr row.key :=
    (setget_keys_cstr row listed).symm
  cases found : setgetFindKey row.key with
  | none =>
      rw [setgetFindKey, List.find?_eq_none] at found
      exact absurd (decide_eq_true sameText) (found row listed)
  | some other =>
      obtain ⟨otherListed, sameKey⟩ := setgetFindKey_eq_some found
      rw [← sameText] at sameKey
      rw [List.inj_on_of_nodup_map setget_keys_nodup otherListed listed
        sameKey]

theorem savedVar_vtype {row : Row} (listed : row ∈ setget) {var : Var}
    (targets : row.savedVar = some var) :
    row.vtype = var.declaration.vtype := by
  rw [Row.savedVar] at targets
  split at targets
  · exact (setget_vtype row listed var targets).symm
  · cases targets

theorem savedVar_of_saved {row : Row} (listed : row ∈ setget)
    (saved : row.Saved) : ∃ var, row.savedVar = some var :=
  Option.isSome_iff_exists.mp (setget_saved_var row listed saved)

theorem saved_of_savedVar {row : Row} {var : Var}
    (targets : row.savedVar = some var) : row.Saved := by
  by_contra unsaved
  simp [Row.savedVar, unsaved] at targets

theorem savedId_of_savedVar {row : Row} {var : Var}
    (targets : row.savedVar = some var) :
    row.savedId = some row.saveId.code := by
  rw [Row.savedId, targets, Option.map]

theorem saved_or_unsaved (var : Var) :
    (∃ row ∈ setget, row.savedVar = some var) ∨
      ∀ row ∈ setget, row.savedVar ≠ some var := by
  by_cases saved : ∃ row ∈ setget, row.savedVar = some var
  · exact Or.inl saved
  · push Not at saved
    exact Or.inr saved

theorem savedId_injective {row other : Row} (listed : row ∈ setget)
    (otherListed : other ∈ setget) {var otherVar : Var}
    (targets : row.savedVar = some var)
    (otherTargets : other.savedVar = some otherVar)
    (sameId : row.saveId.code = other.saveId.code) : row = other := by
  have saved := savedId_of_savedVar targets
  have otherSaved : other.savedId = some row.saveId.code := by
    rw [savedId_of_savedVar otherTargets, sameId]
  exact eq_of_target_eq setget_savedIds_nodup listed otherListed saved
    otherSaved

end LoraIot.Vars
