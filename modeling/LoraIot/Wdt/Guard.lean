import LoraIot.Foundations.Runs
import LoraIot.Wdt.Task

/-!
# The guard of `wdt_deregister_thread`

Threads register and any byte may be passed to `wdt_deregister_thread`, whose
guard is meant to let only the ID of a registered thread through.  The guard
asks whether the bits of the byte are in the mask.  That tells a registered ID
from an unregistered one, but it also accepts a byte without bits and a byte
that combines several IDs, and then the counter falls by one while the mask
loses no bit or more than one.
-/

namespace LoraIot.Wdt

open LoraIot.Bitmask LoraIot.Runs

inductive RosterCall where
  | register
  | deregister (threadId : BitVec 8)
  deriving DecidableEq, Repr

structure Roster where
  wdt : Registry
  live : List (BitVec 8)
  deriving DecidableEq, Repr

def Roster.boot : Roster := ⟨Registry.boot, []⟩

/-- At most eight threads are registered at a time.  A thread is registered
until its ID is deregistered. -/
def rosterStep (roster : Roster) : RosterCall → Option Roster
  | .register =>
      if roster.live.length < 8 then
        some
          ⟨(wdtRegisterThread roster.wdt).2,
            roster.live ++ [(wdtRegisterThread roster.wdt).1]⟩
      else
        none
  | .deregister threadId =>
      some
        ⟨wdtDeregisterThread threadId roster.wdt,
          if roster.live.count threadId = 1 then
            roster.live.erase threadId
          else
            roster.live⟩

/-- Exactly the bit of this ID leaves the mask, and the counter drops by
one. -/
structure RemovesBit (threadId : BitVec 8) (before after : Registry) :
    Prop where
  mask : ∃ position ∈ members before.threadMask,
    threadId = BitVec.twoPow 8 position ∧
      members after.threadMask = (members before.threadMask).erase position
  count : after.numThreads.toNat + 1 = before.numThreads.toNat

/-- A deregistration removes the ID of exactly one registered thread, and any
other byte leaves the watchdog as it is. -/
def DeregistersExactly (roster : Roster) : RosterCall → Prop
  | .register => True
  | .deregister threadId =>
      if roster.live.count threadId = 1 then
        RemovesBit threadId roster.wdt
          (wdtDeregisterThread threadId roster.wdt)
      else
        wdtDeregisterThread threadId roster.wdt = roster.wdt

/-- The counter counts the bits of the mask, and the next registration returns
an ID that is not in use. -/
structure Roster.Consistent (roster : Roster) : Prop where
  counted : roster.wdt.Counted
  fresh : roster.live.length < 8 →
    (wdtRegisterThread roster.wdt).1 ∉ roster.live

/-- The byte has exactly one bit, or a bit that is not in the mask. -/
def OneBitOrForeign (roster : Roster) : RosterCall → Prop
  | .register => True
  | .deregister threadId =>
      roster.wdt.threadMask &&& threadId ≠ threadId ∨
        ∃ position : Fin 8, threadId = BitVec.twoPow 8 position

instance (roster : Roster) :
    ∀ call, Decidable (OneBitOrForeign roster call)
  | .register => isTrue trivial
  | .deregister _ => inferInstanceAs (Decidable (_ ∨ _))

/-- The registered threads hold distinct IDs, which are the bits of the mask,
and the counter counts them. -/
structure Roster.Matched (roster : Roster) : Prop where
  distinct : roster.live.Nodup
  mask : ∀ threadId, threadId ∈ roster.live ↔
    ∃ position ∈ members roster.wdt.threadMask,
      threadId = BitVec.twoPow 8 position
  count : roster.live.length = roster.wdt.numThreads.toNat

theorem boot_matched : Roster.boot.Matched where
  distinct := List.nodup_nil
  mask threadId := by simp [Roster.boot, Registry.boot]
  count := rfl

namespace Roster.Matched

variable {roster next : Roster}

theorem counted (matched : roster.Matched) : roster.wdt.Counted := by
  have sameSet :
      roster.live.toFinset =
        (members roster.wdt.threadMask).image fun position : Fin 8 =>
          BitVec.twoPow 8 position := by
    ext threadId
    rw [List.mem_toFinset, matched.mask, Finset.mem_image]
    simp only [eq_comm]
  have sameCard := congrArg Finset.card sameSet
  rw [List.toFinset_card_of_nodup matched.distinct,
    Finset.card_image_of_injective _ fun _ _ => twoPow_injective,
    matched.count] at sameCard
  exact sameCard.symm

theorem mem_live_twoPow (matched : roster.Matched) (position : Fin 8) :
    BitVec.twoPow 8 position ∈ roster.live ↔
      position ∈ members roster.wdt.threadMask := by
  rw [matched.mask]
  constructor
  · intro found
    obtain ⟨other, member, same⟩ := found
    rw [twoPow_injective same]
    exact member
  · exact fun member => ⟨position, member, rfl⟩

theorem register (matched : roster.Matched)
    (room : roster.live.length < 8) :
    ∃ position : Fin 8, position ∉ members roster.wdt.threadMask ∧
      wdtRegisterThread roster.wdt =
        (BitVec.twoPow 8 position,
          { roster.wdt with
            threadMask :=
              roster.wdt.threadMask ||| BitVec.twoPow 8 position
            numThreads := roster.wdt.numThreads + 1#8 }) :=
  wdtRegisterThread_of_room matched.counted (matched.count ▸ room)

theorem consistent (matched : roster.Matched) : roster.Consistent where
  counted := matched.counted
  fresh room := by
    obtain ⟨position, isFree, registered⟩ := matched.register room
    rw [registered, matched.mem_live_twoPow]
    exact isFree

theorem after_register (matched : roster.Matched)
    (room : roster.live.length < 8) :
    Roster.Matched
      ⟨(wdtRegisterThread roster.wdt).2,
        roster.live ++ [(wdtRegisterThread roster.wdt).1]⟩ := by
  obtain ⟨position, isFree, registered⟩ := matched.register room
  rw [registered]
  refine ⟨?_, ?_, ?_⟩
  · refine matched.distinct.append (List.nodup_singleton _) ?_
    rw [List.disjoint_singleton, matched.mem_live_twoPow]
    exact isFree
  · intro threadId
    simp only [List.mem_append, List.mem_singleton, matched.mask, members_or,
      members_twoPow, Finset.mem_union, Finset.mem_singleton, or_and_right,
      exists_or, exists_eq_left]
  · dsimp only
    rw [List.length_append, List.length_singleton,
      numThreads_add_one (matched.count ▸ room), matched.count]

/-- A byte that the guard refuses is no registered ID. -/
theorem not_mem_of_refused (matched : roster.Matched) {threadId : BitVec 8}
    (refused : roster.wdt.threadMask &&& threadId ≠ threadId) :
    threadId ∉ roster.live := by
  rw [matched.mask]
  intro found
  obtain ⟨position, member, rfl⟩ := found
  exact refused ((and_twoPow_eq_right_iff _ position).mpr member)

theorem count_eq_one_iff (matched : roster.Matched) (threadId : BitVec 8) :
    roster.live.count threadId = 1 ↔ threadId ∈ roster.live := by
  rw [matched.distinct.count]
  split
  · simp [*]
  · simp [*]

theorem removesBit (matched : roster.Matched) {position : Fin 8}
    (member : position ∈ members roster.wdt.threadMask) :
    RemovesBit (BitVec.twoPow 8 position) roster.wdt
      (wdtDeregisterThread (BitVec.twoPow 8 position) roster.wdt) := by
  rw [wdtDeregisterThread_of_registered member]
  refine ⟨⟨position, member, rfl, ?_⟩,
    numThreads_sub_one matched.counted member⟩
  rw [members_andNot, members_twoPow, Finset.sdiff_singleton_eq_erase]

theorem after_removesBit (matched : roster.Matched) {threadId : BitVec 8}
    {after : Registry} (removes : RemovesBit threadId roster.wdt after) :
    Roster.Matched ⟨after, roster.live.erase threadId⟩ := by
  obtain ⟨⟨position, member, rfl, mask⟩, count⟩ := removes
  refine ⟨matched.distinct.erase _, ?_, ?_⟩
  · intro tested
    rw [matched.distinct.mem_erase_iff, matched.mask, mask]
    constructor
    · intro stays
      obtain ⟨different, other, otherMember, rfl⟩ := stays
      have elsewhere : other ≠ position := by
        intro same
        rw [same] at different
        exact different rfl
      exact ⟨other, Finset.mem_erase.mpr ⟨elsewhere, otherMember⟩, rfl⟩
    · intro stays
      obtain ⟨other, remains, rfl⟩ := stays
      obtain ⟨elsewhere, otherMember⟩ := Finset.mem_erase.mp remains
      exact ⟨fun same => elsewhere (twoPow_injective same),
        other, otherMember, rfl⟩
  · have present := (matched.mem_live_twoPow position).mpr member
    have before := matched.count
    rw [List.length_erase_of_mem present]
    dsimp only
    omega

theorem deregistersExactly_iff (matched : roster.Matched)
    (call : RosterCall) :
    DeregistersExactly roster call ↔ OneBitOrForeign roster call := by
  cases call with
  | register => exact Iff.rfl
  | deregister threadId =>
      rw [DeregistersExactly, OneBitOrForeign]
      by_cases accepted : roster.wdt.threadMask &&& threadId = threadId
      · by_cases oneBit :
            ∃ position : Fin 8, threadId = BitVec.twoPow 8 position
        · refine iff_of_true ?_ (Or.inr oneBit)
          obtain ⟨position, rfl⟩ := oneBit
          have member := (and_twoPow_eq_right_iff _ position).mp accepted
          rw [if_pos]
          · exact matched.removesBit member
          · rw [matched.count_eq_one_iff, matched.mem_live_twoPow]
            exact member
        · refine iff_of_false ?_ ?_
          · -- No thread has such an ID, but the counter falls.
            rw [if_neg]
            · intro unchanged
              have sameCount := congrArg Registry.numThreads unchanged
              rw [wdtDeregisterThread, if_neg (not_not.mpr accepted)]
                at sameCount
              revert sameCount
              dsimp only
              bv_omega
            · rw [matched.count_eq_one_iff, matched.mask]
              intro found
              obtain ⟨position, _, isBit⟩ := found
              exact oneBit ⟨position, isBit⟩
          · intro either
            rcases either with refused | isBit
            · exact refused accepted
            · exact oneBit isBit
      · refine iff_of_true ?_ (Or.inl accepted)
        rw [if_neg, wdtDeregisterThread, if_pos accepted]
        rw [matched.count_eq_one_iff]
        exact matched.not_mem_of_refused accepted

theorem step (matched : roster.Matched) {call : RosterCall}
    (careful : OneBitOrForeign roster call)
    (taken : rosterStep roster call = some next) : next.Matched := by
  cases call with
  | register =>
      simp only [rosterStep] at taken
      split at taken
      · rename_i room
        cases taken
        exact matched.after_register room
      · cases taken
  | deregister threadId =>
      have exactly := (matched.deregistersExactly_iff _).mpr careful
      cases taken
      rw [DeregistersExactly] at exactly
      split at exactly
      · rename_i single
        rw [if_pos single]
        exact matched.after_removesBit exactly
      · rename_i notSingle
        rw [if_neg notSingle, exactly]
        exact matched

end Roster.Matched

/-- In a run, every deregistration is exact and every state is consistent
exactly when no byte is deregistered that has no bit, or several bits, and all
of them in the mask. -/
theorem deregistrations_exact_iff (calls : List RosterCall) :
    Meets rosterStep DeregistersExactly Roster.boot calls ∧
        Visits rosterStep Roster.Consistent Roster.boot calls ↔
      Meets rosterStep OneBitOrForeign Roster.boot calls := by
  have exact_iff :
      Meets rosterStep DeregistersExactly Roster.boot calls ↔
        Meets rosterStep OneBitOrForeign Roster.boot calls :=
    meets_iff_meets Roster.Matched boot_matched
      (fun _ _ _ matched _ careful taken => matched.step careful taken)
      (fun _ call matched => matched.deregistersExactly_iff call)
      (meets_true _ _)
  rw [exact_iff]
  refine and_iff_left_of_imp fun careful => ?_
  exact visits_of_invariant boot_matched
    (fun _ _ _ matched careful taken => matched.step careful taken)
    (fun _ matched => matched.consistent) careful

/-- After a thread has registered, deregistering zero brings the counter back
to zero, and the next registration returns the ID of the first. -/
theorem deregister_zero_not_exact :
    ¬ ∀ calls : List RosterCall,
      Meets rosterStep DeregistersExactly Roster.boot calls ∧
        Visits rosterStep Roster.Consistent Roster.boot calls := by
  intro always
  have visits := (always [.register, .deregister 0#8]).2
  have after := visits.2 _ rfl
  have last : Roster.Consistent ⟨⟨1#8, 0#8, 1#8⟩, [1#8]⟩ := after.2 _ rfl
  exact last.fresh (by decide) (by decide)

end LoraIot.Wdt
