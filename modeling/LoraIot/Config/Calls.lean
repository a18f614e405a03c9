import LoraIot.Foundations.Runs
import LoraIot.Gatt.Config
import LoraIot.Vars.Codec

/-!
# The device under calls from both configuration paths

`Call` lists what reaches the variables and the NVS from outside: the command
interface, the Bluetooth callbacks, start-up and power loss.  Whatever the
call, it acts on the device in one of seven ways.  `Call.effect` reads off
which one, and `perform_eq` connects the two, so that an invariant of the
device is checked against seven effects and not against every exit of every
function.
-/

namespace LoraIot.Config

open LoraIot.CStrings LoraIot.Vars LoraIot.Gatt LoraIot.Runs

inductive Call where
  | varsSet (env : Env) (key : List UInt8) (value : Option (List UInt8))
  | varsGet (env : Env) (key : List UInt8) (value : Option (List UInt8))
  | flashSave (env : Env)
  | flashLoad (env : Env)
  | write (env : Env) (item : Characteristic) (buf : List UInt8)
      (offset : Nat)
  | saveConfiguration (env : Env) (buf : List UInt8)
  /-- The device starts again and has not run `vars_init` yet. -/
  | powerCycle
  | varsInit (env : Env) (flashInit : Int)

def Call.perform (device : Device) : Call → Device
  | .varsSet env key value => (Vars.varsSet env key value device).device
  | .varsGet env key value => (Vars.varsGet env key value device).2.2
  | .flashSave env => { device with nvs := (Vars.flashSave env device).2 }
  | .flashLoad env => { device with store := (Vars.flashLoad env device).2 }
  | .write env item buf offset =>
      { device with store := (item.write env buf offset device.store).2 }
  | .saveConfiguration env buf =>
      (saveConfigurationCharacteristic env buf device).2
  | .powerCycle => { device with store := Store.initial }
  | .varsInit env flashInit => (Vars.varsInit env flashInit device).2

def step (device : Device) (call : Call) : Option Device :=
  some (call.perform device)

/-- The device before its first start, with an empty NVS. -/
def factory : Device := ⟨Store.initial, fun _ => none⟩

inductive Effect where
  | nothing
  | restart
  | save (env : Env)
  | clear
  | load (env : Env)
  | assign (env : Env) (var : Var) (text : List UInt8)
  | write (env : Env) (item : Characteristic) (buf : List UInt8)
      (offset : Nat)

def Effect.apply (device : Device) : Effect → Device
  | .nothing => device
  | .restart => { device with store := Store.initial }
  | .save env => { device with nvs := (Vars.flashSave env device).2 }
  | .clear => { device with nvs := (flashClear device).2 }
  | .load env => { device with store := (Vars.flashLoad env device).2 }
  | .assign env var text =>
      match varsSetVar env var.declaration.vtype var text device.store with
      | .error _ => device
      | .ok result => { device with store := result.2 }
  | .write env item buf offset =>
      { device with store := (item.write env buf offset device.store).2 }

def setterEffect (env : Env) : Setter → Effect
  | .reboot => .restart
  | .flashSave => .save env
  | .flashClear => .clear

/-- The effect of `vars_set`, which the row and the arguments decide. -/
def setEffect (env : Env) (key : List UInt8) (value : Option (List UInt8)) :
    Effect :=
  match setgetFindKey key with
  | none => .nothing
  | some row =>
      if (value.getD []).headD 0 = 0 ∨ row.vdir = .read then
        .nothing
      else
        match row.var with
        | none => (row.set.map (setterEffect env)).getD .nothing
        | some var => .assign env var (value.getD [])

/-- The effect of `vars_get`: the row `save` loads. -/
def getEffect (env : Env) (key : List UInt8) (value : Option (List UInt8)) :
    Effect :=
  match setgetFindKey key with
  | none => .nothing
  | some row =>
      if (value.getD []).headD 0 ≠ 0 ∨ row.vdir = .write ∨
          row.vtype = .custom then
        .nothing
      else
        match row.get with
        | none => .nothing
        | some .flashLoad => .load env

def Call.effect : Call → Effect
  | .varsSet env key value => setEffect env key value
  | .varsGet env key value => getEffect env key value
  | .flashSave env => .save env
  | .flashLoad env => .load env
  | .write env item buf offset => .write env item buf offset
  | .saveConfiguration env _ => .save env
  | .powerCycle => .restart
  | .varsInit env flashInit => if flashInit < 0 then .nothing else .load env

theorem varsSet_device (env : Env) (key : List UInt8)
    (value : Option (List UInt8)) (device : Device) :
    (varsSet env key value device).device =
      (setEffect env key value).apply device := by
  rw [varsSet, setEffect]
  cases found : setgetFindKey key with
  | none => rfl
  | some row =>
      obtain ⟨listed, _⟩ := setgetFindKey_eq_some found
      cases value with
      | none => rfl
      | some text =>
          simp only [Option.getD_some]
          split
          · rename_i isEmpty
            rw [if_pos (Or.inl isEmpty)]
            rfl
          · rename_i nonempty
            split
            · rename_i isRead
              rw [if_pos (Or.inr isRead)]
              rfl
            · rename_i notRead
              rw [if_neg (not_or.mpr ⟨nonempty, notRead⟩)]
              cases points : row.var with
              | none =>
                  dsimp only
                  cases row.set with
                  | none => rfl
                  | some setter => cases setter <;> rfl
              | some var =>
                  have isVar : row.var.isSome = true := by simp [points]
                  obtain ⟨noSetter, _⟩ := setget_functions row listed isVar
                  have kind := setget_vtype row listed var points
                  cases outcome :
                      varsSetVar env row.vtype var text device.store with
                  | error code =>
                      simp only [Effect.apply, kind, outcome]
                      rfl
                  | ok result =>
                      simp only [Effect.apply, kind, noSetter, outcome]
                      rfl

theorem varsGet_device (env : Env) (key : List UInt8)
    (value : Option (List UInt8)) (device : Device) :
    (varsGet env key value device).2.2 =
      (getEffect env key value).apply device := by
  rw [varsGet, getEffect]
  cases found : setgetFindKey key with
  | none => rfl
  | some row =>
      dsimp only
      by_cases queried : (value.getD []).headD 0 ≠ 0
      · rw [if_pos queried, if_pos (Or.inl queried)]
        rfl
      · by_cases isWrite : row.vdir = .write
        · rw [if_neg queried, if_pos isWrite,
            if_pos (Or.inr (Or.inl isWrite))]
          rfl
        · by_cases isCustom : row.vtype = .custom
          · rw [if_neg queried, if_neg isWrite, if_pos isCustom,
              if_pos (Or.inr (Or.inr isCustom))]
            rfl
          · rw [if_neg queried, if_neg isWrite, if_neg isCustom,
              if_neg (by simp only [not_or]; exact
                ⟨queried, isWrite, isCustom⟩)]
            cases row.get with
            | none => rfl
            | some getter => cases getter; rfl

theorem perform_eq (device : Device) (call : Call) :
    call.perform device = call.effect.apply device := by
  cases call with
  | varsSet env key value => exact varsSet_device env key value device
  | varsGet env key value => exact varsGet_device env key value device
  | varsInit env flashInit =>
      simp only [Call.perform, Call.effect, varsInit]
      split
      · rfl
      · rfl
  | _ => rfl

theorem setEffect_plain {row : Row} {var : Var} (plain : row.Plain var)
    (env : Env) {text : List UInt8} (nonempty : text.headD 0 ≠ 0) :
    setEffect env row.key (some text) = .assign env var text := by
  have accepted : ¬ (text.headD 0 = 0 ∨ row.vdir = .read) := by
    rw [plain.vdir]
    simpa using nonempty
  simp only [setEffect, setgetFindKey_of_mem plain.listed, Option.getD_some,
    if_neg accepted, plain.var]

/-! ## What an assignment does -/

theorem assign_of_ne (env : Env) {var other : Var}
    (different : other ≠ var) (text : List UInt8) (device : Device) :
    ((Effect.assign env var text).apply device).store.data other =
        device.store.data other ∧
      ((Effect.assign env var text).apply device).store.length other =
        device.store.length other := by
  simp only [Effect.apply]
  split
  · exact ⟨rfl, rfl⟩
  · rename_i result stored
    exact Prod.mk.inj (varsSetVar_cell_of_ne env different stored)

theorem assign_cell_str (env : Env) {var : Var}
    (isStr : var.declaration.vtype = .str) (text : List UInt8)
    (device : Device) :
    ((Effect.assign env var text).apply device).store.cell var =
      (strncpyBytes text var.size,
        strlen (strncpyBytes text var.size ++ env.beyond var)) := by
  have copied :
      (device.store.write var 0 (strncpyBytes text var.size)).data var =
        strncpyBytes text var.size :=
    Store.write_full _ _ _ (strncpyBytes_length _ _)
  simp only [Effect.apply, isStr, varsSetVar, Store.cell, Env.memory, copied,
    Store.setLength_data, Store.setLength_length_self]

theorem assign_length_binary (env : Env) {var : Var}
    (isBinary : var.declaration.vtype = .binary) (text : List UInt8)
    (device : Device) (full : device.store.length var = var.size) :
    ((Effect.assign env var text).apply device).store.length var =
      var.size := by
  simp only [Effect.apply]
  split
  · exact full
  · rename_i result stored
    rw [isBinary] at stored
    obtain ⟨bytes, _, after, _⟩ := varsSetBinary_ok isBinary stored
    rw [after]
    simp

end LoraIot.Config
