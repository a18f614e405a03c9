import LoraIot.Gatt.Config
import LoraIot.Vars.FlashLoad

/-!
# Which bytes a configuration write replaces

A write callback either refuses, and then nothing changes, or it replaces the
bytes of its own variable that lie in the written range by the bytes supplied.
The callback of the data rate copies one byte whatever the offset and the
length are, and so it is the one that can read behind the buffer and write
behind the variable.
-/

namespace LoraIot.Gatt

open LoraIot.CStrings LoraIot.Vars

/-- `buf` has replaced the bytes of `var` from `offset` on, and nothing else
has changed. -/
structure Replaces (var : Var) (offset : Nat) (buf : List UInt8)
    (before after : Store) : Prop where
  own : ∀ i < var.size,
    (after.data var)[i]? =
      if offset ≤ i ∧ i < offset + buf.length then
        buf[i - offset]?
      else
        (before.data var)[i]?
  others : ∀ other ≠ var, after.data other = before.data other
  length : after.length = before.length

/-- Whatever lies around the variable and behind the buffer: the write is
refused with an error and changes nothing, or it answers the length and
replaces exactly the bytes of the written range. -/
def Characteristic.StaysInside (item : Characteristic) (buf : List UInt8)
    (offset : Nat) : Prop :=
  ∀ (env : Env) (store : Store),
    ((item.write env buf offset store).1 < 0 ∧
        (item.write env buf offset store).2 = store) ∨
      ((item.write env buf offset store).1 = buf.length ∧
        Replaces item.userData offset buf store
          (item.write env buf offset store).2)

/-- The callback of the data rate accepts the write and copies a byte from
behind the buffer or to behind the variable. -/
def Characteristic.Overruns (item : Characteristic) (buf : List UInt8)
    (offset : Nat) : Prop :=
  item = .loraDatarate ∧ offset + buf.length ≤ 2 ∧ (offset ≠ 0 ∨ buf = [])

theorem invalidOffset_neg : invalidOffset < 0 := by decide

theorem replaces_write (store : Store) (var : Var) (offset : Nat)
    (buf : List UInt8) :
    Replaces var offset buf store (store.write var offset buf) where
  own i inside := by
    rw [Store.write_data_self]
    exact getElem?_overlay buf offset (store.sized var ▸ inside)
  others other different := Store.write_data_of_ne _ _ _ _ _ different
  length := rfl

theorem writeVariable_staysInside (value : Var) (buf : List UInt8)
    (offset : Nat) (store : Store) :
    ((writeVariable value buf offset store).1 < 0 ∧
        (writeVariable value buf offset store).2 = store) ∨
      ((writeVariable value buf offset store).1 = buf.length ∧
        Replaces value offset buf store
          (writeVariable value buf offset store).2) := by
  rw [writeVariable]
  split
  · exact Or.inl ⟨invalidOffset_neg, rfl⟩
  · exact Or.inr ⟨rfl, replaces_write store value offset buf⟩

/-- One or two bytes written to the start of the data rate replace it by the
first of them. -/
theorem writeLoraDatarate_staysInside (env : Env) {buf : List UInt8}
    {offset : Nat} (within : ¬ Characteristic.loraDatarate.Overruns buf offset)
    (store : Store) :
    ((writeLoraDatarate env buf offset store).1 < 0 ∧
        (writeLoraDatarate env buf offset store).2 = store) ∨
      ((writeLoraDatarate env buf offset store).1 = buf.length ∧
        Replaces .loraDatarate offset buf store
          (writeLoraDatarate env buf offset store).2) := by
  rw [writeLoraDatarate]
  split
  · exact Or.inl ⟨invalidOffset_neg, rfl⟩
  · rename_i accepted
    have fits : offset + buf.length ≤ 2 := Nat.le_of_not_lt accepted
    have atStart : offset = 0 := by
      by_contra elsewhere
      exact within ⟨rfl, fits, Or.inl elsewhere⟩
    subst atStart
    cases buf with
    | nil => exact absurd ⟨rfl, fits, Or.inr rfl⟩ within
    | cons byte excess =>
        have first := replaces_write store .loraDatarate 0 [byte]
        refine Or.inr ⟨rfl, ?_, first.others, first.length⟩
        intro i inside
        obtain rfl : i = 0 := Nat.lt_one_iff.mp inside
        simpa using first.own 0 inside

theorem writeLoraDatarate_of_fits (env : Env) {buf : List UInt8}
    {offset : Nat} (fits : offset + buf.length ≤ 2) (store : Store) :
    writeLoraDatarate env buf offset store =
      ((buf.length : Int),
        if offset = 0 then
          store.write .loraDatarate 0 [buf.headD env.pastBuffer]
        else
          env.stray .loraDatarate offset (buf.headD env.pastBuffer)
            store) := by
  rw [writeLoraDatarate, if_neg (Nat.not_lt.mpr fits)]

/-- An accepted write without bytes stores the byte behind the buffer. -/
theorem empty_write_not_staysInside :
    ¬ Characteristic.loraDatarate.StaysInside [] 0 := by
  intro stays
  rcases stays { Env.quiet with pastBuffer := 2 } Store.initial with
    refused | accepted
  · exact absurd refused.1 (by decide)
  · have byte := accepted.2.own 0 (by decide)
    revert byte
    decide

/-- An accepted write at an offset stores a byte behind the variable, where
`var_lora_adr` may be. -/
theorem offset_write_not_staysInside {buf : List UInt8} {offset : Nat}
    (fits : offset + buf.length ≤ 2) (elsewhere : offset ≠ 0) :
    ¬ Characteristic.loraDatarate.StaysInside buf offset := by
  intro stays
  let byte := buf.headD 0
  let env : Env :=
    { Env.quiet with
      stray := fun _ _ stored store => store.write .loraAdr 0 [stored] }
  let store := Store.initial.write .loraAdr 0 [byte + 1]
  have outcome : writeLoraDatarate env buf offset store =
      ((buf.length : Int), store.write .loraAdr 0 [byte]) := by
    rw [writeLoraDatarate_of_fits env fits, if_neg elsewhere]
    rfl
  have stayed := stays env store
  simp only [Characteristic.write, outcome] at stayed
  rcases stayed with refused | accepted
  · have negative := refused.1
    omega
  · have neighbour := accepted.2.others .loraAdr (by decide)
    rw [Store.write_full _ _ _ (by rfl), Store.write_full _ _ _ (by rfl)]
      at neighbour
    simp at neighbour

/-- A configuration write stays inside its characteristic unless it is one to
the data rate that is accepted at an offset or without bytes. -/
theorem staysInside_iff (item : Characteristic) (buf : List UInt8)
    (offset : Nat) :
    item.StaysInside buf offset ↔ ¬ item.Overruns buf offset := by
  constructor
  · intro stays overruns
    obtain ⟨rfl, fits, cause⟩ := overruns
    by_cases elsewhere : offset = 0
    · obtain rfl : buf = [] := cause.resolve_left fun other =>
        other elsewhere
      subst elsewhere
      exact empty_write_not_staysInside stays
    · exact offset_write_not_staysInside fits elsewhere stays
  · intro within env store
    by_cases isDatarate : item = .loraDatarate
    · subst isDatarate
      exact writeLoraDatarate_staysInside env within store
    · rw [Characteristic.write_of_ne_datarate env isDatarate]
      exact writeVariable_staysInside item.userData buf offset store

/-- The empty write to the start of the data rate changes it. -/
theorem not_every_write_staysInside :
    ¬ ∀ (item : Characteristic) (buf : List UInt8) (offset : Nat),
      offset ≤ 65535 → buf.length ≤ 65535 →
        item.StaysInside buf offset := by
  intro always
  exact empty_write_not_staysInside
    (always .loraDatarate [] 0 (by decide) (by decide))

end LoraIot.Gatt
