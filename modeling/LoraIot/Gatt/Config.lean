import LoraIot.Vars.SetGet

/-!
# The Bluetooth configuration service (`gatt_config_service.c`)

Each characteristic has a write callback that copies bytes into the variable
behind it.  Nine of the ten are one function with different bounds; the data
rate is accepted with two bytes and stored with one.  No callback maintains the
recorded length of a string.
-/

namespace LoraIot.Gatt

open LoraIot.CStrings LoraIot.Vars

/-- The characteristics of `config_svc` that stand for a variable. -/
inductive Characteristic where
  | loraAppSkey | loraNwkSkey | loraAppEui | loraAppKey | loraDevEui
  | loraAuth | loraClass | loraChanMask | loraDatarate | loraAdr
  deriving DecidableEq, Repr

/-- The `user_data` of a characteristic in `BT_GATT_SERVICE_DEFINE`. -/
def Characteristic.userData : Characteristic → Var
  | .loraAppSkey => .loraAppSkey
  | .loraNwkSkey => .loraNwkSkey
  | .loraAppEui => .loraAppEui
  | .loraAppKey => .loraAppKey
  | .loraDevEui => .loraDevEui
  | .loraAuth => .loraAuth
  | .loraClass => .loraClass
  | .loraChanMask => .loraChanMask
  | .loraDatarate => .loraDatarate
  | .loraAdr => .loraAdr

/-- `BT_GATT_ERR(BT_ATT_ERR_INVALID_OFFSET)` -/
def invalidOffset : Int := -7

/-- The common body of the write callbacks: refuse what exceeds the storage,
else copy.  The bound is the field `maxsize` of a binary, the field `size` of a
string and `sizeof(var_lora_adr)`. -/
def writeVariable (value : Var) (buf : List UInt8) (offset : Nat)
    (store : Store) : Int × Store :=
  if offset + buf.length > value.size then
    (invalidOffset, store)
  else
    (buf.length, store.write value offset buf)

def writeLoraAppSkey := writeVariable .loraAppSkey

def writeLoraNwkSkey := writeVariable .loraNwkSkey

def writeLoraAppEui := writeVariable .loraAppEui

def writeLoraAppKey := writeVariable .loraAppKey

def writeLoraDevEui := writeVariable .loraDevEui

def writeLoraChanMask := writeVariable .loraChanMask

def writeLoraAuth := writeVariable .loraAuth

def writeLoraClass := writeVariable .loraClass

def writeLoraAdr := writeVariable .loraAdr

/-- `write_lora_datarate`.  It copies one byte whatever the length is, also at
an offset that lies behind the variable. -/
def writeLoraDatarate (env : Env) (buf : List UInt8) (offset : Nat)
    (store : Store) : Int × Store :=
  if offset + buf.length > 2 then
    (invalidOffset, store)
  else
    let byte := buf.headD env.pastBuffer
    (buf.length,
      if offset = 0 then
        store.write .loraDatarate 0 [byte]
      else
        env.stray .loraDatarate offset byte store)

def Characteristic.write (env : Env) :
    Characteristic → List UInt8 → Nat → Store → Int × Store
  | .loraAppSkey => writeLoraAppSkey
  | .loraNwkSkey => writeLoraNwkSkey
  | .loraAppEui => writeLoraAppEui
  | .loraAppKey => writeLoraAppKey
  | .loraDevEui => writeLoraDevEui
  | .loraAuth => writeLoraAuth
  | .loraClass => writeLoraClass
  | .loraChanMask => writeLoraChanMask
  | .loraDatarate => writeLoraDatarate env
  | .loraAdr => writeLoraAdr

/-- `save_vars_config`: the number in the text that `flash_save` returns. -/
def saveVarsConfig (env : Env) (device : Device) : Int × Nvs :=
  let result := flashSave env device
  (Numerals.atoi env.atoiOverflow result.1, result.2)

/-- `save_configuration_characteristic` reports success whether or not the
variables were saved. -/
def saveConfigurationCharacteristic (env : Env) (buf : List UInt8)
    (device : Device) : Int × Device :=
  (buf.length, { device with nvs := (saveVarsConfig env device).2 })

/-- The write may reach bytes outside the variable. -/
def Characteristic.Strays (item : Characteristic) (buf : List UInt8)
    (offset : Nat) : Prop :=
  item = .loraDatarate ∧ offset ≠ 0 ∧ offset + buf.length ≤ 2

instance (item : Characteristic) (buf : List UInt8) (offset : Nat) :
    Decidable (item.Strays buf offset) :=
  inferInstanceAs
    (Decidable (item = .loraDatarate ∧ offset ≠ 0 ∧ offset + buf.length ≤ 2))

theorem writeVariable_snd (value : Var) (buf : List UInt8) (offset : Nat)
    (store : Store) :
    (writeVariable value buf offset store).2 = store ∨
      offset + buf.length ≤ value.size ∧
        (writeVariable value buf offset store).2 =
          store.write value offset buf := by
  rw [writeVariable]
  split
  · exact Or.inl rfl
  · rename_i fits
    exact Or.inr ⟨Nat.le_of_not_lt fits, rfl⟩

theorem writeVariable_data_of_ne {value other : Var} (buf : List UInt8)
    (offset : Nat) (store : Store) (different : other ≠ value) :
    (writeVariable value buf offset store).2.data other =
      store.data other := by
  rcases writeVariable_snd value buf offset store with
    unchanged | ⟨_, written⟩
  · rw [unchanged]
  · rw [written, Store.write_data_of_ne _ _ _ _ _ different]

/-- Nine of the ten callbacks share one body. -/
theorem Characteristic.write_of_ne_datarate (env : Env)
    {item : Characteristic} (notDatarate : item ≠ .loraDatarate) :
    item.write env = writeVariable item.userData := by
  cases item with
  | loraDatarate => exact absurd rfl notDatarate
  | _ => rfl

/-- A write that does not stray leaves the variables alone or copies bytes
into the one behind the characteristic. -/
theorem Characteristic.write_snd (env : Env) {item : Characteristic}
    {buf : List UInt8} {offset : Nat} (inside : ¬ item.Strays buf offset)
    (store : Store) :
    (item.write env buf offset store).2 = store ∨
      ∃ bytes, offset + bytes.length ≤ item.userData.size ∧
        (item ≠ .loraDatarate → bytes = buf) ∧
        (item.write env buf offset store).2 =
          store.write item.userData offset bytes := by
  by_cases isDatarate : item = .loraDatarate
  · subst isDatarate
    simp only [write, writeLoraDatarate]
    split
    · exact Or.inl rfl
    · rename_i fits
      have atStart : offset = 0 := by
        by_contra elsewhere
        exact inside ⟨rfl, elsewhere, Nat.le_of_not_lt fits⟩
      subst atStart
      exact Or.inr ⟨[buf.headD env.pastBuffer], Nat.le_refl 1,
        fun other => absurd rfl other, rfl⟩
  · rw [write_of_ne_datarate env isDatarate]
    rcases writeVariable_snd item.userData buf offset store with
      unchanged | ⟨fits, written⟩
    · exact Or.inl unchanged
    · exact Or.inr ⟨buf, fits, fun _ => rfl, written⟩

theorem Characteristic.write_length (env : Env) {item : Characteristic}
    {buf : List UInt8} {offset : Nat} (inside : ¬ item.Strays buf offset)
    (store : Store) :
    (item.write env buf offset store).2.length = store.length := by
  rcases item.write_snd env inside store with unchanged | ⟨_, _, _, written⟩
  · rw [unchanged]
  · rw [written, Store.write_length]

theorem Characteristic.write_data_of_ne (env : Env) {item : Characteristic}
    {buf : List UInt8} {offset : Nat} (inside : ¬ item.Strays buf offset)
    (store : Store) {var : Var} (different : var ≠ item.userData) :
    (item.write env buf offset store).2.data var = store.data var := by
  rcases item.write_snd env inside store with unchanged | ⟨_, _, _, written⟩
  · rw [unchanged]
  · rw [written, Store.write_data_of_ne _ _ _ _ _ different]

end LoraIot.Gatt
