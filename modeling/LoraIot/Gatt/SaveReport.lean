import LoraIot.Gatt.Config
import LoraIot.Vars.SaveVerdict

/-!
# What the save characteristic answers

`save_vars_config` turns the answer of `flash_save` into a number whose sign
says whether the save succeeded.  `save_configuration_characteristic` drops
that number and answers the length of what the client sent.
-/

namespace LoraIot.Gatt

open LoraIot.CStrings LoraIot.Vars LoraIot.Tables

/-- Every saved row is in the NVS with the bytes of its variable. -/
def EveryRowStored (env : Env) (store : Store) (nvs : Nvs) : Prop :=
  ∀ row ∈ setget, ∀ var, row.savedVar = some var →
    nvs row.saveId.code = some (savedBytes env store row var)

/-- The client is answered a length only after a save that stored every saved
row, and a negative error when some row could not be stored. -/
structure SaveReported (env : Env) (buf : List UInt8) (device : Device) :
    Prop where
  success :
    0 ≤ (saveConfigurationCharacteristic env buf device).1 →
      (flashSave env device).1 = ascii "1" ∧
        EveryRowStored env device.store
          (saveConfigurationCharacteristic env buf device).2.nvs
  failure :
    ¬ EveryRowStored env device.store
        (saveConfigurationCharacteristic env buf device).2.nvs →
      (saveConfigurationCharacteristic env buf device).1 < 0

/-- `save_vars_config` has the verdict that its caller drops. -/
theorem saveVarsConfig_nonneg_iff (env : Env) (device : Device) :
    0 ≤ (saveVarsConfig env device).1 ↔
      ∀ row ∈ setget, ¬ Stops env device.store device.nvs row := by
  have minusOne : Numerals.atoi env.atoiOverflow (ascii "-1") = -1 := rfl
  have one : Numerals.atoi env.atoiOverflow (ascii "1") = 1 := rfl
  rw [← flashSave_eq_one_iff]
  simp only [saveVarsConfig, flashSave]
  split
  · rw [minusOne]
    exact iff_of_false (by decide) one_ne_minusOne.symm
  · rw [one]
    exact iff_of_true (by decide) rfl

/-- A save is reported truly exactly when every saved row is written at the
first attempt, or at the second one with what is already stored. -/
theorem saveReported_iff (env : Env) (buf : List UInt8) (device : Device) :
    SaveReported env buf device ↔
      ∀ row ∈ setget, ¬ Stops env device.store device.nvs row := by
  have answers : 0 ≤ (saveConfigurationCharacteristic env buf device).1 :=
    Int.natCast_nonneg buf.length
  constructor
  · intro reported
    exact (flashSave_eq_one_iff env device).mp (reported.success answers).1
  · intro goesOn
    obtain ⟨one, _, stored⟩ := flashSave_of_none_stops goesOn
    exact ⟨fun _ => ⟨one, stored⟩, fun missing => absurd stored missing⟩

/-- When no write succeeds, the client is still answered the length. -/
theorem saveConfiguration_not_reported :
    ¬ ∀ (env : Env) (buf : List UInt8) (device : Device),
      SaveReported env buf device := by
  intro always
  let env : Env := { Env.quiet with writeFails := fun _ _ => true }
  have one := ((always env [1] ⟨Store.initial, fun _ => none⟩).success
    (by decide)).1
  exact absurd one (by decide)

end LoraIot.Gatt
