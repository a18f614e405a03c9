import LoraIot.Foundations.RollCall
import LoraIot.Foundations.Runs
import LoraIot.Wdt.Task

/-!
# Threads that use the watchdog

The watchdog's callers, in any interleaving: a registration hands an ID to the
calling thread, later calls pass an ID back, and the `wdt_thread` loop runs its
iterations in between, each of them as one atomic step.  `held` remembers which
ID each registration that is still valid returned, and `log` what was called.

`Allocated` is the invariant of the allocator: the IDs in use are distinct
single bits, the mask is their union and the counter is their number.  It
survives every call as long as no thread registers while eight are registered,
and then each registration issues a fresh ID.
-/

namespace LoraIot.Wdt

open LoraIot.Bitmask LoraIot.RollCall LoraIot.Runs

universe u

variable {Thread : Type u}

inductive Call (Thread : Type u) where
  | register (thread : Thread)
  | feed (thread : Thread) (threadId : BitVec 8)
  | deregister (thread : Thread) (threadId : BitVec 8)
  | loop
  deriving DecidableEq, Repr

structure System (Thread : Type u) where
  wdt : Registry
  held : List (Thread × BitVec 8)
  log : List (Entry Thread)
  deriving DecidableEq, Repr

def boot : System Thread := ⟨Registry.boot, [], []⟩

def System.threads (system : System Thread) : List Thread :=
  system.held.map Prod.fst

variable [DecidableEq Thread]

/-- One call, or one loop iteration.  A thread that is registered does not
register again before it has deregistered. -/
def step (system : System Thread) : Call Thread → Option (System Thread)
  | .register thread =>
      if thread ∈ system.threads then
        none
      else
        some
          { wdt := (wdtRegisterThread system.wdt).2
            held :=
              system.held ++ [(thread, (wdtRegisterThread system.wdt).1)]
            log := system.log ++ [.joined thread] }
  | .feed thread threadId =>
      some
        { wdt := wdtFeedWatchdog threadId system.wdt
          held := system.held
          log := system.log ++ [.reported thread] }
  | .deregister thread threadId =>
      some
        { wdt := wdtDeregisterThread threadId system.wdt
          held := system.held.erase (thread, threadId)
          log := system.log ++ [.left thread] }
  | .loop =>
      some
        { wdt := (wdtThreadLoop system.wdt).2
          held := system.held
          log := system.log ++ [.called (wdtThreadLoop system.wdt).1] }

def OnRegister (condition : System Thread → Prop) :
    System Thread → Call Thread → Prop
  | system, .register _ => condition system
  | _, _ => True

/-- A thread deregisters with the ID its valid registration returned. -/
def DeregistersOwn : System Thread → Call Thread → Prop
  | system, .deregister thread threadId => (thread, threadId) ∈ system.held
  | _, _ => True

def HasRoom (system : System Thread) : Prop := system.held.length < 8

/-- What a registration must deliver in this state: a nonzero one-bit ID that
no registered thread holds and that is in the mask afterwards. -/
def IssuesFreshId (system : System Thread) : Prop :=
  (wdtRegisterThread system.wdt).1 ≠ 0#8 ∧
    (∃ position : Fin 8,
      (wdtRegisterThread system.wdt).1 = BitVec.twoPow 8 position) ∧
    (∀ holder ∈ system.held, holder.2 ≠ (wdtRegisterThread system.wdt).1) ∧
    (wdtRegisterThread system.wdt).2.threadMask &&&
        (wdtRegisterThread system.wdt).1 =
      (wdtRegisterThread system.wdt).1

instance {condition : System Thread → Prop} [DecidablePred condition]
    (system : System Thread) :
    ∀ call, Decidable (OnRegister condition system call)
  | .register _ => inferInstanceAs (Decidable (condition system))
  | .feed _ _ => isTrue trivial
  | .deregister _ _ => isTrue trivial
  | .loop => isTrue trivial

instance (system : System Thread) :
    ∀ call, Decidable (DeregistersOwn system call)
  | .register _ => isTrue trivial
  | .feed _ _ => isTrue trivial
  | .deregister thread threadId =>
      inferInstanceAs (Decidable ((thread, threadId) ∈ system.held))
  | .loop => isTrue trivial

instance (system : System Thread) : Decidable (HasRoom system) :=
  inferInstanceAs (Decidable (system.held.length < 8))

instance (system : System Thread) : Decidable (IssuesFreshId system) :=
  inferInstanceAs (Decidable (_ ∧ _ ∧ _ ∧ _))

/-! ## The allocator's invariant -/

def toId (seat : Thread × Fin 8) : Thread × BitVec 8 :=
  (seat.1, BitVec.twoPow 8 seat.2)

omit [DecidableEq Thread] in
theorem toId_injective :
    Function.Injective (toId : Thread × Fin 8 → Thread × BitVec 8) := by
  rintro ⟨first, firstBit⟩ ⟨second, secondBit⟩ equal
  simp only [toId, Prod.mk.injEq] at equal
  exact Prod.ext equal.1 (twoPow_injective equal.2)

/-- The registered threads occupy distinct bits, and the mask and the counter
agree with them. -/
structure Allocated (system : System Thread) (seats : List (Thread × Fin 8)) :
    Prop where
  held : system.held = seats.map toId
  distinct : (seats.map Prod.snd).Nodup
  mask : members system.wdt.threadMask = (seats.map Prod.snd).toFinset
  count : system.wdt.numThreads.toNat = seats.length

omit [DecidableEq Thread] in
theorem boot_allocated : Allocated (boot : System Thread) [] where
  held := rfl
  distinct := List.nodup_nil
  mask := members_zero
  count := rfl

section Allocated

omit [DecidableEq Thread]

variable {system : System Thread} {seats : List (Thread × Fin 8)}

theorem Allocated.counted (allocated : Allocated system seats) :
    system.wdt.Counted := by
  rw [Registry.Counted, allocated.mask, allocated.count,
    List.toFinset_card_of_nodup allocated.distinct, List.length_map]

theorem Allocated.length_le (allocated : Allocated system seats) :
    seats.length ≤ 8 := by
  have bound := allocated.distinct.length_le_card
  rwa [List.length_map, Fintype.card_fin] at bound

theorem Allocated.hasRoom_iff (allocated : Allocated system seats) :
    HasRoom system ↔ seats.length < 8 := by
  rw [HasRoom, allocated.held, List.length_map]

theorem Allocated.threads (allocated : Allocated system seats) :
    system.threads = seats.map Prod.fst := by
  rw [System.threads, allocated.held, List.map_map]
  rfl

theorem Allocated.seat_of_held (allocated : Allocated system seats)
    {thread : Thread} {threadId : BitVec 8}
    (holds : (thread, threadId) ∈ system.held) :
    ∃ position : Fin 8, threadId = BitVec.twoPow 8 position ∧
      (thread, position) ∈ seats := by
  rw [allocated.held, List.mem_map] at holds
  obtain ⟨⟨holder, position⟩, seated, same⟩ := holds
  simp only [toId, Prod.mk.injEq] at same
  exact ⟨position, same.2.symm, same.1 ▸ seated⟩

theorem Allocated.register (allocated : Allocated system seats)
    (room : seats.length < 8) :
    ∃ position : Fin 8, position ∉ (seats.map Prod.snd).toFinset ∧
      (wdtRegisterThread system.wdt).1 = BitVec.twoPow 8 position ∧
      (wdtRegisterThread system.wdt).2 =
        { system.wdt with
          threadMask :=
            system.wdt.threadMask ||| BitVec.twoPow 8 position
          numThreads := system.wdt.numThreads + 1#8 } := by
  obtain ⟨position, isFree, registered⟩ :=
    wdtRegisterThread_of_room allocated.counted (allocated.count ▸ room)
  rw [allocated.mask] at isFree
  exact ⟨position, isFree, by rw [registered], by rw [registered]⟩

theorem Allocated.issuesFreshId_iff (allocated : Allocated system seats) :
    IssuesFreshId system ↔ HasRoom system := by
  rw [allocated.hasRoom_iff]
  constructor
  · intro fresh
    have nonzero := fresh.1
    by_contra noRoom
    have full : seats.length = 8 :=
      Nat.le_antisymm allocated.length_le (Nat.le_of_not_lt noRoom)
    exact nonzero
      (wdtRegisterThread_of_full allocated.counted
        (allocated.count.trans full))
  · intro room
    obtain ⟨position, isFree, issued, after⟩ := allocated.register room
    refine ⟨issued ▸ twoPow_ne_zero position, ⟨position, issued⟩, ?_, ?_⟩
    · intro holder holds same
      obtain ⟨other, otherBit, seated⟩ := allocated.seat_of_held holds
      have sameBit : other = position :=
        twoPow_injective (otherBit.symm.trans (same.trans issued))
      apply isFree
      rw [List.mem_toFinset, List.mem_map]
      exact ⟨_, seated, sameBit⟩
    · rw [and_eq_right_iff, after, issued]
      simp

end Allocated

variable {system next : System Thread} {seats : List (Thread × Fin 8)}

omit [DecidableEq Thread] in
theorem members_snoc (thread : Thread) (position : Fin 8) :
    ((seats ++ [(thread, position)]).map Prod.snd).toFinset =
      (seats.map Prod.snd).toFinset ∪ {position} := by
  ext tested
  simp

/-- The bits that stay in use when one seat is given up. -/
theorem seats_erase (distinct : (seats.map Prod.snd).Nodup)
    {thread : Thread} {position : Fin 8}
    (seated : (thread, position) ∈ seats) :
    ((seats.erase (thread, position)).map Prod.snd).toFinset =
      (seats.map Prod.snd).toFinset \ {position} := by
  have nodup : seats.Nodup := distinct.of_map
  ext tested
  simp only [List.mem_toFinset, List.mem_map, Prod.exists,
    exists_eq_right, Finset.mem_sdiff, Finset.mem_singleton,
    nodup.mem_erase_iff]
  constructor
  · intro remains
    obtain ⟨holder, different, stays⟩ := remains
    refine ⟨⟨holder, stays⟩, ?_⟩
    intro same
    subst same
    exact different
      (List.inj_on_of_nodup_map distinct stays seated rfl)
  · intro remains
    obtain ⟨⟨holder, stays⟩, different⟩ := remains
    exact ⟨holder, fun same => different (congrArg Prod.snd same), stays⟩

theorem Allocated.after_register (allocated : Allocated system seats)
    (room : HasRoom system) {thread : Thread}
    (taken : step system (.register thread) = some next) :
    ∃ position : Fin 8, position ∉ (seats.map Prod.snd).toFinset ∧
      thread ∉ system.threads ∧
      next.wdt.wdtAggregate = system.wdt.wdtAggregate ∧
      next.log = system.log ++ [.joined thread] ∧
      Allocated next (seats ++ [(thread, position)]) := by
  have seatsLeft := allocated.hasRoom_iff.mp room
  obtain ⟨position, isFree, issued, after⟩ := allocated.register seatsLeft
  simp only [step] at taken
  split at taken
  · cases taken
  · rename_i notYet
    cases taken
    refine ⟨position, isFree, notYet, by rw [after], rfl, ?_⟩
    refine ⟨?_, ?_, ?_, ?_⟩
    · simp only [allocated.held, issued, List.map_append]
      rfl
    · rw [List.map_append]
      refine allocated.distinct.append (List.nodup_singleton _) ?_
      simpa using isFree
    · simp only [after, members_or, members_twoPow, allocated.mask,
        members_snoc]
    · rw [List.length_append, List.length_singleton, ← allocated.count]
      simp only [after]
      exact numThreads_add_one (allocated.count ▸ seatsLeft)

theorem Allocated.after_deregister (allocated : Allocated system seats)
    {thread : Thread} {threadId : BitVec 8}
    (own : (thread, threadId) ∈ system.held)
    (taken : step system (.deregister thread threadId) = some next) :
    ∃ position : Fin 8, (thread, position) ∈ seats ∧
      members next.wdt.wdtAggregate =
        ((seats.erase (thread, position)).map Prod.snd).toFinset ∧
      next.log = system.log ++ [.left thread] ∧
      Allocated next (seats.erase (thread, position)) := by
  obtain ⟨position, rfl, seated⟩ := allocated.seat_of_held own
  have registered : position ∈ members system.wdt.threadMask := by
    rw [allocated.mask, List.mem_toFinset, List.mem_map]
    exact ⟨_, seated, rfl⟩
  have remaining :
      members (system.wdt.threadMask &&& ~~~BitVec.twoPow 8 position) =
        ((seats.erase (thread, position)).map Prod.snd).toFinset := by
    rw [members_andNot, members_twoPow, allocated.mask,
      seats_erase allocated.distinct seated]
  simp only [step, wdtDeregisterThread_of_registered registered,
    Option.some.injEq] at taken
  cases taken
  refine ⟨position, seated, remaining, rfl, ?_, ?_, remaining, ?_⟩
  · rw [List.map_erase toId_injective, allocated.held]
    rfl
  · exact allocated.distinct.sublist (List.erase_sublist.map Prod.snd)
  · have positive := List.length_pos_of_mem seated
    have decremented := numThreads_sub_one allocated.counted registered
    rw [allocated.count] at decremented
    rw [List.length_erase_of_mem seated]
    dsimp only
    omega

omit [DecidableEq Thread] in
theorem Allocated.of_unchanged (allocated : Allocated system seats)
    (held : next.held = system.held)
    (mask : next.wdt.threadMask = system.wdt.threadMask)
    (count : next.wdt.numThreads = system.wdt.numThreads) :
    Allocated next seats where
  held := held.trans allocated.held
  distinct := allocated.distinct
  mask := mask ▸ allocated.mask
  count := count ▸ allocated.count

theorem wdtThreadLoop_frame (wdt : Registry) :
    (wdtThreadLoop wdt).2.threadMask = wdt.threadMask ∧
      (wdtThreadLoop wdt).2.numThreads = wdt.numThreads := by
  rw [wdtThreadLoop]
  split
  · exact ⟨rfl, rfl⟩
  · exact ⟨rfl, rfl⟩

theorem Allocated.step {call : Call Thread}
    (allocated : Allocated system seats)
    (own : DeregistersOwn system call)
    (room : OnRegister HasRoom system call)
    (taken : Wdt.step system call = some next) :
    ∃ seats', Allocated next seats' := by
  cases call with
  | register thread =>
      obtain ⟨position, _, _, _, _, after⟩ :=
        allocated.after_register room taken
      exact ⟨_, after⟩
  | feed thread threadId =>
      cases taken
      exact ⟨seats, allocated.of_unchanged rfl rfl rfl⟩
  | deregister thread threadId =>
      obtain ⟨position, _, _, _, after⟩ :=
        allocated.after_deregister own taken
      exact ⟨_, after⟩
  | loop =>
      cases taken
      obtain ⟨mask, count⟩ := wdtThreadLoop_frame system.wdt
      exact ⟨seats, allocated.of_unchanged rfl mask count⟩

/-- From an allocated state, the registrations of a run all issue fresh IDs
exactly when each of them finds fewer than eight threads registered. -/
theorem Allocated.registrations_fresh_iff
    (allocated : Allocated system seats) {calls : List (Call Thread)}
    (own : Meets Wdt.step DeregistersOwn system calls) :
    Meets Wdt.step (OnRegister IssuesFreshId) system calls ↔
      Meets Wdt.step (OnRegister HasRoom) system calls := by
  refine meets_iff_meets (fun system => ∃ seats, Allocated system seats)
    ⟨seats, allocated⟩ ?_ ?_ own
  · intro state call next holds ownId room taken
    obtain ⟨seats', here⟩ := holds
    exact here.step ownId room taken
  · intro state call holds
    obtain ⟨seats', here⟩ := holds
    cases call with
    | register thread => exact here.issuesFreshId_iff
    | feed thread threadId => exact Iff.rfl
    | deregister thread threadId => exact Iff.rfl
    | loop => exact Iff.rfl

/-- Watchdog IDs identify threads in exactly those runs in which no thread
registers while eight are registered. -/
theorem registrations_fresh_iff_room (calls : List (Call Thread))
    (own : Meets Wdt.step DeregistersOwn boot calls) :
    Meets Wdt.step (OnRegister IssuesFreshId) boot calls ↔
      Meets Wdt.step (OnRegister HasRoom) boot calls :=
  boot_allocated.registrations_fresh_iff own

/-- Eight registrations in a row find room, so all their IDs are fresh. -/
theorem eight_registrations_fresh :
    Meets Wdt.step (OnRegister IssuesFreshId) boot
      ((List.range 8).map Call.register) :=
  (registrations_fresh_iff_room _ (by decide)).mpr (by decide)

/-- The ninth registration in a row returns the ID zero. -/
theorem ninth_registration_not_fresh :
    ¬ ∀ calls : List (Call Nat),
      Meets Wdt.step DeregistersOwn boot calls →
        Meets Wdt.step (OnRegister IssuesFreshId) boot calls := by
  intro always
  have fresh := always ((List.range 9).map Call.register) (by decide)
  revert fresh
  decide

end LoraIot.Wdt
