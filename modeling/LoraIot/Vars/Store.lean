import LoraIot.Foundations.CStrings
import LoraIot.Foundations.Numerals
import Mathlib.Logic.Function.Basic

/-!
# The configuration variables (`vars.h`, `vars.c`)

Every global that a row of the `setget` table points to is a constructor of
`Var`, with its declaration.  A store holds the bytes of each variable's
storage and, for strings and binaries, the recorded `length` of the
`var_str_s` or `var_bin_s` around it.  The size of each storage is part of the
type: no operation can build a store in which an array has grown or shrunk.
-/

namespace LoraIot.Vars

open LoraIot.CStrings LoraIot.Numerals

inductive VType where
  | boolean | uint8 | uint16 | uint32 | str | binary | custom
  deriving DecidableEq, Repr

inductive Declaration where
  | boolean (default : Bool)
  | uint8 (default : Nat)
  | uint16 (default : Nat)
  | uint32 (default : Nat)
  /-- `VAR_STR_CREATE` -/
  | str (size : Nat) (default : String)
  /-- `VAR_BIN_CREATE` -/
  | bin (minsize maxsize : Nat) (default : List UInt8)

namespace Declaration

/-- `sizeof` the storage. -/
def size : Declaration → Nat
  | .boolean _ => 1
  | .uint8 _ => 1
  | .uint16 _ => 2
  | .uint32 _ => 4
  | .str size _ => size
  | .bin _ maxsize _ => maxsize

def minsize : Declaration → Nat
  | .bin minsize _ _ => minsize
  | _ => 0

def initialData : Declaration → List UInt8
  | .boolean default => [if default then 1 else 0]
  | .uint8 default => leBytes 1 default
  | .uint16 default => leBytes 2 default
  | .uint32 default => leBytes 4 default
  | .str size default => strncpyBytes (ascii default) size
  | .bin _ _ default => default

/-- The initial recorded length.  For a string it is `sizeof(_default_)`,
which counts the terminating NUL.  Plain variables have no such field. -/
def initialLength : Declaration → Nat
  | .str _ default => (ascii default).length + 1
  | .bin _ maxsize _ => maxsize
  | _ => 0

/-- The type under which a row must access the variable. -/
def vtype : Declaration → VType
  | .boolean _ => .boolean
  | .uint8 _ => .uint8
  | .uint16 _ => .uint16
  | .uint32 _ => .uint32
  | .str _ _ => .str
  | .bin _ _ _ => .binary

theorem vtype_ne_custom (declaration : Declaration) :
    declaration.vtype ≠ .custom := by
  cases declaration <;> exact VType.noConfusion

end Declaration

/-- The variables that the `setget` table points to. -/
inductive Var where
  | echo | devid | devtype | firmware | mfirmware | proto | sensor
  | sensorBoard | deviceId | battery | connected | connect | autoConnect
  | enabled | binary | leds | connretry
  | loraAdr | loraDatarate | loraRxdelay1 | loraRxdelay2
  | loraClass | loraAuth
  | loraAppSkey | loraNwkSkey | loraAppEui | loraDevEui | loraAppKey
  | loraDevAddr | loraChanMask
  deriving DecidableEq, Repr

namespace Var

/-- The declarations of `vars.c`. -/
def declaration : Var → Declaration
  | .echo => .boolean true
  | .devid => .str 17 ""
  | .devtype => .str 32 "Default"
  | .firmware => .str 32 "v0.0.0"
  | .mfirmware => .str 32 "v0.0.0"
  | .proto => .str 8 "lora"
  | .sensor => .str 32 "temp_humid"
  | .sensorBoard => .str 32 "THA"
  | .deviceId => .uint32 0
  | .battery => .uint8 0
  | .connected => .boolean false
  | .connect => .boolean true
  | .autoConnect => .boolean true
  | .enabled => .boolean false
  | .binary => .boolean false
  | .leds => .boolean true
  | .connretry => .uint16 30
  | .loraAdr => .boolean false
  | .loraDatarate => .uint8 1
  | .loraRxdelay1 => .uint16 1000
  | .loraRxdelay2 => .uint16 2000
  | .loraClass => .str 2 "C"
  | .loraAuth => .str 5 "ABP"
  | .loraAppSkey =>
      .bin 16 16
        [0x6F, 0x7B, 0x80, 0xF7, 0xE4, 0xD0, 0xB9, 0xE5,
          0x1F, 0xE9, 0xF8, 0x97, 0x64, 0x15, 0xBD, 0xD7]
  | .loraNwkSkey =>
      .bin 16 16
        [0x0B, 0x30, 0x52, 0x51, 0xA6, 0x0C, 0x52, 0x11,
          0x72, 0x32, 0x85, 0xD1, 0xFB, 0x2E, 0xF8, 0x39]
  | .loraAppEui =>
      .bin 8 8 [0x70, 0xB3, 0xD5, 0x7E, 0xD0, 0x03, 0x31, 0xC9]
  | .loraDevEui =>
      .bin 8 8 [0x00, 0x00, 0x00, 0x00, 0x00, 0x00, 0x0a, 0x01]
  | .loraAppKey =>
      .bin 16 16
        [0x6F, 0x7B, 0x80, 0xF7, 0xE4, 0xD0, 0xB9, 0xE5,
          0x1F, 0xE9, 0xF8, 0x97, 0x64, 0x15, 0xBD, 0xD7]
  | .loraDevAddr => .bin 4 4 [0x01, 0x20, 0x02, 0x26]
  | .loraChanMask =>
      .bin 10 10
        [0x00, 0x0f, 0x00, 0x00, 0x00, 0x00, 0x00, 0x00, 0xff, 0x00]

/-- The size of the variable's storage: `sizeof` a plain variable, the field
`size` of a `var_str_s`, the field `maxsize` of a `var_bin_s`. -/
def size (var : Var) : Nat := var.declaration.size

def minsize (var : Var) : Nat := var.declaration.minsize

theorem initialData_length (var : Var) :
    var.declaration.initialData.length = var.size := by
  cases var <;> rfl

end Var

theorem size_of_vtype (var : Var) :
    match var.declaration.vtype with
    | .boolean => var.size = 1
    | .uint8 => var.size = 1
    | .uint16 => var.size = 2
    | .uint32 => var.size = 4
    | _ => True := by
  cases var <;> first | rfl | trivial

@[ext]
structure Store where
  data : Var → List UInt8
  length : Var → Nat
  sized : ∀ var, (data var).length = var.size

namespace Store

/-- The static initialisers. -/
def initial : Store where
  data var := var.declaration.initialData
  length var := var.declaration.initialLength
  sized := Var.initialData_length

def write (store : Store) (var : Var) (offset : Nat)
    (bytes : List UInt8) : Store where
  data := Function.update store.data var
    (overlay (store.data var) offset bytes)
  length := store.length
  sized other := by
    by_cases same : other = var
    · subst same
      simp [store.sized]
    · simp [same, store.sized]

def setLength (store : Store) (var : Var) (length : Nat) : Store where
  data := store.data
  length := Function.update store.length var length
  sized := store.sized

variable (store : Store) (var other : Var) (offset : Nat)
  (bytes : List UInt8) (length : Nat)

@[simp]
theorem write_data_self :
    (store.write var offset bytes).data var =
      overlay (store.data var) offset bytes :=
  Function.update_self ..

@[simp]
theorem write_data_of_ne (different : other ≠ var) :
    (store.write var offset bytes).data other = store.data other :=
  Function.update_of_ne different ..

@[simp]
theorem write_length :
    (store.write var offset bytes).length = store.length := rfl

@[simp]
theorem setLength_data :
    (store.setLength var length).data = store.data := rfl

@[simp]
theorem setLength_length_self :
    (store.setLength var length).length var = length :=
  Function.update_self ..

@[simp]
theorem setLength_length_of_ne (different : other ≠ var) :
    (store.setLength var length).length other = store.length other :=
  Function.update_of_ne different ..

def cell : List UInt8 × Nat := (store.data var, store.length var)

/-- Two contents of a variable have the same value: the same characters in
front of the NUL, the same bytes up to the recorded length and the same
length, or the same number. -/
def SameValue (var : Var) (first second : List UInt8 × Nat) : Prop :=
  match var.declaration.vtype with
  | .str => cstr first.1 = cstr second.1
  | .binary =>
      first.1.take first.2 = second.1.take second.2 ∧ first.2 = second.2
  | _ => first.1 = second.1

theorem SameValue.refl (var : Var) (cell : List UInt8 × Nat) :
    SameValue var cell cell := by
  rw [SameValue]
  split
  · rfl
  · exact ⟨rfl, rfl⟩
  · rfl

theorem write_full (same : bytes.length = var.size) :
    (store.write var 0 bytes).data var = bytes := by
  rw [write_data_self]
  exact overlay_full (same.trans (store.sized var).symm)

end Store

end LoraIot.Vars
