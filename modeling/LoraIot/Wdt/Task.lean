import LoraIot.Foundations.Bitmask

/-!
# The watchdog task (`wdt_task.c`)

Three static bytes decide whether an iteration of `wdt_thread` feeds the
hardware watchdog.  Registration, feeding and deregistration are translated
statement by statement; `BitVec.twoPow 8 i` is `1 << i` stored into a byte, so
it is zero from `i = 8` on.

Each function has one lemma that says what it does to a state whose counter
agrees with its mask.  Later modules use these lemmas and not the bodies.
-/

namespace LoraIot.Wdt

open LoraIot.Bitmask

/-- `THREAD_MASK`, `num_threads` and `wdt_aggregate`. -/
structure Registry where
  threadMask : BitVec 8
  numThreads : BitVec 8
  wdtAggregate : BitVec 8
  deriving DecidableEq, Repr

def Registry.boot : Registry := ⟨0#8, 0#8, 0#8⟩

/-- The search loop of `wdt_register_thread`: the first `i` from `0` up to
`num_threads` whose byte `1 << i` misses the mask. -/
def openBit (threadMask : BitVec 8) (numThreads : Nat) : Option Nat :=
  (List.range (numThreads + 1)).find? fun i =>
    threadMask &&& BitVec.twoPow 8 i = 0#8

def wdtRegisterThread (wdt : Registry) : BitVec 8 × Registry :=
  let newThreadId :=
    match openBit wdt.threadMask wdt.numThreads.toNat with
    | some i => BitVec.twoPow 8 i
    | none => BitVec.twoPow 8 wdt.numThreads.toNat
  (newThreadId,
    { wdt with
      threadMask := wdt.threadMask ||| newThreadId
      numThreads := wdt.numThreads + 1#8 })

def wdtFeedWatchdog (threadId : BitVec 8) (wdt : Registry) : Registry :=
  { wdt with wdtAggregate := wdt.wdtAggregate ||| threadId }

def wdtDeregisterThread (threadId : BitVec 8) (wdt : Registry) : Registry :=
  if wdt.threadMask &&& threadId ≠ threadId then
    wdt
  else
    { threadMask := wdt.threadMask &&& ~~~threadId
      numThreads := wdt.numThreads - 1#8
      -- The aggregate is overwritten with the new mask, which credits
      -- everybody who is still registered.
      wdtAggregate := wdt.threadMask &&& ~~~threadId }

/-- One iteration of the loop of `wdt_thread`.  The flag says whether the
iteration called `wdt_feed`. -/
def wdtThreadLoop (wdt : Registry) : Bool × Registry :=
  if wdt.wdtAggregate = wdt.threadMask then
    (true, { wdt with wdtAggregate := 0#8 })
  else
    (false, wdt)

/-- The counter counts the bits of the mask. -/
def Registry.Counted (wdt : Registry) : Prop :=
  (members wdt.threadMask).card = wdt.numThreads.toNat

theorem openBit_eq_some {threadMask : BitVec 8} {numThreads : Nat}
    (count : (members threadMask).card = numThreads) (room : numThreads < 8) :
    ∃ position : Fin 8, position ∉ members threadMask ∧
      openBit threadMask numThreads = some position.val := by
  obtain ⟨free, below, isFree⟩ := exists_free_le count room
  have found : (openBit threadMask numThreads).isSome := by
    rw [openBit, List.find?_isSome]
    refine ⟨free.val, List.mem_range.mpr (Nat.lt_succ_of_le below), ?_⟩
    exact decide_eq_true ((and_twoPow_eq_zero_iff threadMask free).mpr isFree)
  obtain ⟨i, isOpen⟩ := Option.isSome_iff_exists.mp found
  have inRange : i < 8 := by
    have listed := List.mem_of_find?_eq_some isOpen
    rw [List.mem_range] at listed
    omega
  have misses := List.find?_some isOpen
  refine ⟨⟨i, inRange⟩, ?_, isOpen⟩
  exact (and_twoPow_eq_zero_iff threadMask ⟨i, inRange⟩).mp
    (of_decide_eq_true misses)

/-- In any state the ID a registration returns has at most one bit. -/
theorem wdtRegisterThread_id (wdt : Registry) :
    (wdtRegisterThread wdt).1 = 0#8 ∨
      ∃ position : Fin 8,
        (wdtRegisterThread wdt).1 = BitVec.twoPow 8 position := by
  have shifted : ∃ i, (wdtRegisterThread wdt).1 = BitVec.twoPow 8 i := by
    simp only [wdtRegisterThread]
    cases openBit wdt.threadMask wdt.numThreads.toNat with
    | none => exact ⟨_, rfl⟩
    | some i => exact ⟨i, rfl⟩
  obtain ⟨i, issued⟩ := shifted
  by_cases inRange : i < 8
  · exact Or.inr ⟨⟨i, inRange⟩, issued⟩
  · have pastTheByte : BitVec.twoPow 8 i = 0#8 :=
      BitVec.eq_of_toNat_eq
        (BitVec.toNat_twoPow_of_le (Nat.le_of_not_lt inRange))
    exact Or.inl (issued.trans pastTheByte)

theorem wdtRegisterThread_of_room {wdt : Registry}
    (counted : wdt.Counted) (room : wdt.numThreads.toNat < 8) :
    ∃ position : Fin 8, position ∉ members wdt.threadMask ∧
      wdtRegisterThread wdt =
        (BitVec.twoPow 8 position,
          { wdt with
            threadMask := wdt.threadMask ||| BitVec.twoPow 8 position
            numThreads := wdt.numThreads + 1#8 }) := by
  obtain ⟨position, isFree, isOpen⟩ := openBit_eq_some counted room
  exact ⟨position, isFree, by simp only [wdtRegisterThread, isOpen]⟩

/-- With all eight bits in use the loop reaches `i = 8`, where the byte
`1 << 8` is zero and passes the free-bit test. -/
theorem wdtRegisterThread_of_full {wdt : Registry}
    (counted : wdt.Counted) (full : wdt.numThreads.toNat = 8) :
    (wdtRegisterThread wdt).1 = 0#8 := by
  obtain ⟨threadMask, numThreads, wdtAggregate⟩ := wdt
  have everyBit : threadMask = BitVec.allOnes 8 := by
    apply members_injective
    rw [members_eq_univ_of_card (counted.trans full)]
    decide
  have eight : numThreads = 8#8 := BitVec.eq_of_toNat_eq full
  have pastTheEnd : openBit (BitVec.allOnes 8) 8 = some 8 := by decide
  subst everyBit eight
  simp only [wdtRegisterThread, BitVec.toNat_ofNat, Nat.reducePow,
    Nat.reduceMod, pastTheEnd]
  decide

theorem numThreads_add_one {wdt : Registry} (room : wdt.numThreads.toNat < 8) :
    (wdt.numThreads + 1#8).toNat = wdt.numThreads.toNat + 1 := by
  rw [BitVec.toNat_add, BitVec.toNat_ofNat]
  omega

/-- While a bit is in use the counter can be decremented. -/
theorem numThreads_sub_one {wdt : Registry} (counted : wdt.Counted)
    {position : Fin 8} (registered : position ∈ members wdt.threadMask) :
    (wdt.numThreads - 1#8).toNat + 1 = wdt.numThreads.toNat := by
  have positive : 0 < wdt.numThreads.toNat := by
    rw [← counted]
    exact Finset.card_pos.mpr ⟨position, registered⟩
  have bound := wdt.numThreads.isLt
  rw [BitVec.toNat_sub, BitVec.toNat_ofNat]
  omega

theorem wdtDeregisterThread_of_registered {wdt : Registry} {position : Fin 8}
    (registered : position ∈ members wdt.threadMask) :
    wdtDeregisterThread (BitVec.twoPow 8 position) wdt =
      { threadMask := wdt.threadMask &&& ~~~BitVec.twoPow 8 position
        numThreads := wdt.numThreads - 1#8
        wdtAggregate := wdt.threadMask &&& ~~~BitVec.twoPow 8 position } := by
  have subset := (and_twoPow_eq_right_iff _ position).mpr registered
  rw [wdtDeregisterThread, if_neg (not_not.mpr subset)]

/-- An iteration feeds the hardware exactly when the aggregate names the same
bits as the mask. -/
theorem wdtThreadLoop_fst (wdt : Registry) :
    (wdtThreadLoop wdt).1 = true ↔
      members wdt.wdtAggregate = members wdt.threadMask := by
  rw [members_inj, wdtThreadLoop]
  split
  · simp [*]
  · simp [*]

end LoraIot.Wdt
