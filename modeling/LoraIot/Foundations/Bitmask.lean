import Mathlib.Data.Fintype.Card
import Mathlib.Data.Finset.Card
import Mathlib.Data.Fintype.EquivFin
import Mathlib.Data.BitVec
import Mathlib.Order.Interval.Finset.Fin

/-!
# Machine words as finite sets of bit positions

`members` reads a word as the set of its one bits.  The bitwise operations
become the set operations, equality of words becomes equality of sets, and the
pigeonhole principle turns a bound on the number of members into a free
position.
-/

namespace LoraIot.Bitmask

variable {w : Nat}

/-- The positions of the one bits of a word. -/
def members (mask : BitVec w) : Finset (Fin w) :=
  Finset.univ.filter fun position => mask.getLsbD position = true

@[simp]
theorem mem_members (mask : BitVec w) (position : Fin w) :
    position ∈ members mask ↔ mask.getLsbD position = true := by
  simp [members]

theorem members_injective : Function.Injective (members (w := w)) := by
  intro left right equal
  apply BitVec.eq_of_getLsbD_eq
  intro position inRange
  have sameBit := Finset.ext_iff.mp equal ⟨position, inRange⟩
  simp only [mem_members] at sameBit
  exact Bool.eq_iff_iff.mpr sameBit

@[simp]
theorem members_inj {left right : BitVec w} :
    members left = members right ↔ left = right :=
  members_injective.eq_iff

@[simp]
theorem members_zero : members (0#w) = ∅ := by
  ext position
  simp

@[simp]
theorem members_or (left right : BitVec w) :
    members (left ||| right) = members left ∪ members right := by
  ext position
  simp

@[simp]
theorem members_and (left right : BitVec w) :
    members (left &&& right) = members left ∩ members right := by
  ext position
  simp

@[simp]
theorem members_twoPow (position : Fin w) :
    members (BitVec.twoPow w position) = {position} := by
  ext tested
  simp [Fin.ext_iff, eq_comm]

theorem members_andNot (left right : BitVec w) :
    members (left &&& ~~~right) = members left \ members right := by
  ext position
  simp

theorem and_eq_right_iff (mask word : BitVec w) :
    mask &&& word = word ↔ members word ⊆ members mask := by
  rw [← members_inj, members_and, Finset.inter_eq_right]

/-- The subset test for a one-bit word. -/
theorem and_twoPow_eq_right_iff (mask : BitVec w) (position : Fin w) :
    mask &&& BitVec.twoPow w position = BitVec.twoPow w position ↔
      position ∈ members mask := by
  rw [and_eq_right_iff, members_twoPow, Finset.singleton_subset_iff]

/-- The free-bit test `mask & word == 0` for a one-bit word. -/
theorem and_twoPow_eq_zero_iff (mask : BitVec w) (position : Fin w) :
    mask &&& BitVec.twoPow w position = 0#w ↔ position ∉ members mask := by
  rw [← members_inj, members_and, members_twoPow, members_zero,
    ← Finset.disjoint_iff_inter_eq_empty, Finset.disjoint_singleton_right]

theorem twoPow_injective {left right : Fin w}
    (equal : BitVec.twoPow w left = BitVec.twoPow w right) :
    left = right := by
  have sameSet := congrArg members equal
  rw [members_twoPow, members_twoPow] at sameSet
  exact Finset.singleton_injective sameSet

theorem twoPow_ne_zero (position : Fin w) :
    BitVec.twoPow w position ≠ 0#w := by
  intro isZero
  have sameSet := congrArg members isZero
  rw [members_twoPow, members_zero] at sameSet
  exact Finset.singleton_ne_empty position sameSet

theorem members_eq_univ_of_card {mask : BitVec w}
    (full : (members mask).card = w) : members mask = Finset.univ := by
  apply Finset.eq_univ_of_card
  rw [full, Fintype.card_fin]

/-- Among the first `n + 1` positions of a word with `n` members, one is
free. -/
theorem exists_free_le {mask : BitVec w} {n : Nat}
    (count : (members mask).card = n) (room : n < w) :
    ∃ position : Fin w, position.val ≤ n ∧ position ∉ members mask := by
  by_contra taken
  push Not at taken
  have subset :
      Finset.Iic (⟨n, room⟩ : Fin w) ⊆ members mask := by
    intro position below
    exact taken position (Fin.le_iff_val_le_val.mp (Finset.mem_Iic.mp below))
  have tooMany := Finset.card_le_card subset
  rw [count, Fin.card_Iic] at tooMany
  exact Nat.not_succ_le_self n tooMany

end LoraIot.Bitmask
