import LoraIot.Wdt.Threads

/-!
# Reports that name no registered thread

`wdt_feed_watchdog` adds whatever ID it is given to the aggregate, although
`wdt_deregister_thread` refuses an ID outside the mask.  The loop compares the
aggregate with the mask for equality, so a bit outside the mask withholds the
hardware feed until something overwrites the aggregate: a hardware feed, which
can no longer happen, or an accepted deregistration.

`Ledger` relates the bytes of any run, however badly its callers behave, to
the calls of that run: every bit of the mask has a holder whose report would
be in the aggregate, and a bit of the aggregate outside the mask was carried
by a report that nothing has overwritten since.
-/

namespace LoraIot.Wdt

open LoraIot.Bitmask LoraIot.History LoraIot.Runs

universe u

variable {Thread : Type u}

/-- The moment is an iteration that fed the hardware. -/
def FeedsHardware (moment : System Thread × Call Thread) : Prop :=
  moment.2 = .loop ∧ (wdtThreadLoop moment.1.wdt).1 = true

/-- The moment is a deregistration that passed its guard. -/
def Deregisters (moment : System Thread × Call Thread) : Prop :=
  ∃ thread threadId, moment.2 = .deregister thread threadId ∧
    moment.1.wdt.threadMask &&& threadId = threadId

/-- The moment replaced the aggregate, whatever was in it. -/
def Overwrites (moment : System Thread × Call Thread) : Prop :=
  FeedsHardware moment ∨ Deregisters moment

/-- The registrations whose IDs are in the mask. -/
def System.registered (system : System Thread) :
    List (Thread × BitVec 8) :=
  system.held.filter fun holder =>
    system.wdt.threadMask &&& holder.2 = holder.2

/-- Since it registered and since the last hardware feed, the thread has fed
the watchdog with its ID. -/
def HasReported (past : List (System Thread × Call Thread))
    (holder : Thread × BitVec 8) : Prop :=
  Since (fun _ moment => moment.2 = .feed holder.1 holder.2)
    (fun moment => moment.2 = .register holder.1 ∨ FeedsHardware moment)
    past

def AllReported (past : List (System Thread × Call Thread))
    (system : System Thread) : Prop :=
  ∀ holder ∈ system.registered, HasReported past holder

/-- Some report carried `threadId` after the aggregate was last overwritten. -/
def Carried (past : List (System Thread × Call Thread))
    (threadId : BitVec 8) : Prop :=
  Since (fun _ moment => ∃ thread, moment.2 = .feed thread threadId)
    Overwrites past

/-- No report since the aggregate was last overwritten carried an ID that the
guard of `wdt_deregister_thread` would refuse now. -/
def NoStrayReport (past : List (System Thread × Call Thread))
    (system : System Thread) : Prop :=
  ∀ threadId, Carried past threadId →
    system.wdt.threadMask &&& threadId = threadId

def ReportsRegistered (system : System Thread) : Call Thread → Prop
  | .feed _ threadId => system.wdt.threadMask &&& threadId = threadId
  | _ => True

instance (system : System Thread) :
    ∀ call, Decidable (ReportsRegistered system call)
  | .register _ => isTrue trivial
  | .feed _ threadId =>
      inferInstanceAs
        (Decidable (system.wdt.threadMask &&& threadId = threadId))
  | .deregister _ _ => isTrue trivial
  | .loop => isTrue trivial

section Past

variable {past : List (System Thread × Call Thread)}
  {moment : System Thread × Call Thread}

theorem hasReported_concat {holder : Thread × BitVec 8} :
    HasReported (past ++ [moment]) holder ↔
      moment.2 = .feed holder.1 holder.2 ∨
        (HasReported past holder ∧
          ¬ (moment.2 = .register holder.1 ∨ FeedsHardware moment)) :=
  since_concat past moment

theorem carried_concat {threadId : BitVec 8} :
    Carried (past ++ [moment]) threadId ↔
      (∃ thread, moment.2 = .feed thread threadId) ∨
        (Carried past threadId ∧ ¬ Overwrites moment) :=
  since_concat past moment

end Past

/-- The mask and the aggregate, read off the calls. -/
structure Ledger (past : List (System Thread × Call Thread))
    (system : System Thread) : Prop where
  witnessed : ∀ position ∈ members system.wdt.threadMask,
    ∃ thread, (thread, BitVec.twoPow 8 position) ∈ system.held ∧
      (HasReported past (thread, BitVec.twoPow 8 position) →
        position ∈ members system.wdt.wdtAggregate)
  carried : ∀ threadId, Carried past threadId →
    members threadId ⊆ members system.wdt.wdtAggregate
  accounted : ∀ position ∈ members system.wdt.wdtAggregate,
    position ∈ members system.wdt.threadMask ∨
      ∃ threadId, position ∈ members threadId ∧ Carried past threadId

theorem boot_ledger : Ledger [] (boot : System Thread) where
  witnessed := by simp [boot, Registry.boot]
  carried := by simp [Carried]
  accounted := by simp [boot, Registry.boot]

section Ledger

variable {past : List (System Thread × Call Thread)}
  {system next : System Thread}

/-- With every registered thread reported, the next iteration feeds the
hardware unless a stray report stands in the aggregate. -/
theorem Ledger.feeds_iff (ledger : Ledger past system)
    (reported : AllReported past system) :
    (wdtThreadLoop system.wdt).1 = true ↔ NoStrayReport past system := by
  rw [wdtThreadLoop_fst]
  constructor
  · intro equal threadId carried
    rw [and_eq_right_iff, ← equal]
    exact ledger.carried threadId carried
  · intro noStray
    apply Finset.Subset.antisymm
    · intro position counted
      rcases ledger.accounted position counted with inMask | stray
      · exact inMask
      · obtain ⟨threadId, member, carried⟩ := stray
        exact (and_eq_right_iff _ _).mp (noStray threadId carried) member
    · intro position inMask
      obtain ⟨thread, holds, credited⟩ := ledger.witnessed position inMask
      apply credited
      apply reported
      have covered := (and_twoPow_eq_right_iff _ position).mpr inMask
      simp [System.registered, holds, covered]

/-- A moment that does not overwrite the aggregate leaves every earlier report
where it was. -/
theorem Ledger.accounted_concat (ledger : Ledger past system)
    {call : Call Thread} (kept : ¬ Overwrites (system, call))
    {position : Fin 8}
    (counted : position ∈ members system.wdt.wdtAggregate) :
    position ∈ members system.wdt.threadMask ∨
      ∃ threadId, position ∈ members threadId ∧
        Carried (past ++ [(system, call)]) threadId := by
  rcases ledger.accounted position counted with inMask | stray
  · exact Or.inl inMask
  · obtain ⟨threadId, member, carried⟩ := stray
    exact Or.inr
      ⟨threadId, member, carried_concat.mpr (Or.inr ⟨carried, kept⟩)⟩

/-- A call that neither feeds nor overwrites keeps the ledger, as long as the
bytes stay and no holder of a bit in the mask is lost. -/
theorem Ledger.of_quiet (ledger : Ledger past system) {call : Call Thread}
    (noFeed : ∀ thread threadId, call ≠ .feed thread threadId)
    (kept : ¬ Overwrites (system, call))
    (wdt : next.wdt = system.wdt)
    (held : ∀ position ∈ members system.wdt.threadMask, ∀ thread,
      (thread, BitVec.twoPow 8 position) ∈ system.held →
        (thread, BitVec.twoPow 8 position) ∈ next.held) :
    Ledger (past ++ [(system, call)]) next := by
  refine ⟨?_, ?_, ?_⟩
  · intro position inMask
    rw [wdt] at inMask ⊢
    obtain ⟨holder, holds, credited⟩ := ledger.witnessed position inMask
    refine ⟨holder, held position inMask holder holds, ?_⟩
    intro reported
    rcases hasReported_concat.mp reported with now | before
    · exact absurd now (noFeed _ _)
    · exact credited before.1
  · intro threadId carried
    rw [wdt]
    rcases carried_concat.mp carried with now | before
    · obtain ⟨thread, same⟩ := now
      exact absurd same (noFeed _ _)
    · exact ledger.carried threadId before.1
  · intro position counted
    rw [wdt] at counted ⊢
    exact ledger.accounted_concat kept counted

variable [DecidableEq Thread]

/-- What a registration does in any state. -/
theorem register_effect {thread : Thread}
    (taken : step system (.register thread) = some next) :
    next.held =
        system.held ++ [(thread, (wdtRegisterThread system.wdt).1)] ∧
      members next.wdt.threadMask =
        members system.wdt.threadMask ∪
          members (wdtRegisterThread system.wdt).1 ∧
      next.wdt.wdtAggregate = system.wdt.wdtAggregate := by
  by_cases already : thread ∈ system.threads
  · simp [step, already] at taken
  · simp only [step, if_neg already, Option.some.injEq] at taken
    subst taken
    refine ⟨rfl, ?_, rfl⟩
    rw [← members_or]
    rfl

theorem Ledger.register (ledger : Ledger past system) {thread : Thread}
    (taken : step system (.register thread) = some next) :
    Ledger (past ++ [(system, .register thread)]) next := by
  obtain ⟨held, mask, aggregate⟩ := register_effect taken
  refine ⟨?_, ?_, ?_⟩
  · intro position inMask
    rw [mask, Finset.mem_union] at inMask
    rcases inMask with old | new
    · obtain ⟨holder, holds, credited⟩ := ledger.witnessed position old
      refine ⟨holder, by simp [held, holds], ?_⟩
      intro reported
      simp only [hasReported_concat, reduceCtorEq, false_or] at reported
      rw [aggregate]
      exact credited reported.1
    · -- A bit that enters the mask comes with a holder who has not reported.
      rcases wdtRegisterThread_id system.wdt with noBit | single
      · simp [noBit] at new
      · obtain ⟨issuedPosition, issued⟩ := single
        rw [issued, members_twoPow, Finset.mem_singleton] at new
        refine ⟨thread, by simp [held, issued, new], ?_⟩
        intro reported
        simp [hasReported_concat] at reported
  · intro threadId carried
    simp only [carried_concat, reduceCtorEq, exists_false, false_or]
      at carried
    rw [aggregate]
    exact ledger.carried threadId carried.1
  · intro position counted
    rw [aggregate] at counted
    rw [mask]
    have kept : ¬ Overwrites (system, .register thread) := by
      simp [Overwrites, FeedsHardware, Deregisters]
    rcases ledger.accounted_concat kept counted with inMask | stray
    · exact Or.inl (Finset.mem_union_left _ inMask)
    · exact Or.inr stray

theorem Ledger.feed (ledger : Ledger past system)
    {thread : Thread} {threadId : BitVec 8}
    (taken : step system (.feed thread threadId) = some next) :
    Ledger (past ++ [(system, .feed thread threadId)]) next := by
  cases taken
  refine ⟨?_, ?_, ?_⟩
  · intro position inMask
    obtain ⟨holder, holds, credited⟩ := ledger.witnessed position inMask
    refine ⟨holder, holds, ?_⟩
    intro reported
    simp only [wdtFeedWatchdog, members_or, Finset.mem_union]
    rcases hasReported_concat.mp reported with now | before
    · simp only [Call.feed.injEq] at now
      simp [now.2]
    · exact Or.inl (credited before.1)
  · intro carriedId carried
    simp only [wdtFeedWatchdog, members_or]
    rcases carried_concat.mp carried with now | before
    · obtain ⟨caller, same⟩ := now
      simp only [Call.feed.injEq] at same
      rw [same.2]
      exact Finset.subset_union_right
    · exact (ledger.carried carriedId before.1).trans
        Finset.subset_union_left
  · intro position counted
    simp only [wdtFeedWatchdog, members_or, Finset.mem_union] at counted ⊢
    rcases counted with old | new
    · have kept : ¬ Overwrites (system, .feed thread threadId) := by
        simp [Overwrites, FeedsHardware, Deregisters]
      exact ledger.accounted_concat kept old
    · exact Or.inr
        ⟨threadId, new, carried_concat.mpr (Or.inl ⟨thread, rfl⟩)⟩

theorem Ledger.deregister (ledger : Ledger past system)
    {thread : Thread} {threadId : BitVec 8}
    (taken : step system (.deregister thread threadId) = some next) :
    Ledger (past ++ [(system, .deregister thread threadId)]) next := by
  by_cases accepted : system.wdt.threadMask &&& threadId = threadId
  · have overwritten :
        Overwrites (system, .deregister thread threadId) :=
      Or.inr ⟨thread, threadId, rfl, accepted⟩
    simp only [step, wdtDeregisterThread, ne_eq, accepted,
      not_true_eq_false, if_false, Option.some.injEq] at taken
    subst taken
    refine ⟨?_, ?_, ?_⟩
    · intro position inMask
      obtain ⟨inOld, notGone⟩ :
          position ∈ members system.wdt.threadMask ∧
            position ∉ members threadId := by
        rwa [members_andNot, Finset.mem_sdiff] at inMask
      obtain ⟨holder, holds, _⟩ := ledger.witnessed position inOld
      refine ⟨holder, ?_, fun _ => inMask⟩
      have other :
          (holder, BitVec.twoPow 8 position) ≠ (thread, threadId) := by
        intro same
        apply notGone
        simp [← (Prod.mk.inj same).2]
      exact (List.mem_erase_of_ne other).mpr holds
    · intro carriedId carried
      rcases carried_concat.mp carried with now | before
      · simp at now
      · exact absurd overwritten before.2
    · intro position counted
      exact Or.inl counted
  · -- A refused deregistration only forgets a registration whose bit the
    -- mask has lost already.
    have kept :
        ¬ Overwrites (system, .deregister thread threadId) := by
      simp [Overwrites, FeedsHardware, Deregisters, accepted]
    simp only [step, wdtDeregisterThread, ne_eq, accepted,
      not_false_eq_true, if_true, Option.some.injEq] at taken
    subst taken
    refine ledger.of_quiet (by simp) kept rfl ?_
    intro position inMask holder holds
    have other :
        (holder, BitVec.twoPow 8 position) ≠ (thread, threadId) := by
      intro same
      apply accepted
      rw [← (Prod.mk.inj same).2, and_twoPow_eq_right_iff]
      exact inMask
    exact (List.mem_erase_of_ne other).mpr holds

theorem Ledger.loop (ledger : Ledger past system)
    (taken : step system .loop = some next) :
    Ledger (past ++ [(system, .loop)]) next := by
  obtain ⟨mask, _⟩ := wdtThreadLoop_frame system.wdt
  cases taken
  by_cases fed : (wdtThreadLoop system.wdt).1 = true
  · have feeds : FeedsHardware (system, Call.loop) := ⟨rfl, fed⟩
    have same : system.wdt.wdtAggregate = system.wdt.threadMask := by
      rwa [wdtThreadLoop_fst, members_inj] at fed
    have cleared : (wdtThreadLoop system.wdt).2.wdtAggregate = 0#8 := by
      simp only [wdtThreadLoop, same, if_true]
    refine ⟨?_, ?_, ?_⟩
    · intro position inMask
      rw [mask] at inMask
      obtain ⟨holder, holds, _⟩ := ledger.witnessed position inMask
      refine ⟨holder, holds, ?_⟩
      intro reported
      simp [hasReported_concat, feeds] at reported
    · intro threadId carried
      simp [carried_concat, Overwrites, feeds] at carried
    · intro position counted
      simp [cleared] at counted
  · have silent : ¬ FeedsHardware (system, Call.loop) :=
      fun feeds => fed feeds.2
    have kept : ¬ Overwrites (system, Call.loop) := by
      simp [Overwrites, silent, Deregisters]
    have unchanged : (wdtThreadLoop system.wdt).2 = system.wdt := by
      rw [wdtThreadLoop_fst, members_inj] at fed
      simp only [wdtThreadLoop, if_neg fed]
    exact ledger.of_quiet (by simp) kept unchanged
      (fun _ _ _ holds => holds)

theorem Ledger.step {call : Call Thread} (ledger : Ledger past system)
    (taken : Wdt.step system call = some next) :
    Ledger (past ++ [(system, call)]) next := by
  cases call with
  | register thread => exact ledger.register taken
  | feed thread threadId => exact ledger.feed taken
  | deregister thread threadId => exact ledger.deregister taken
  | loop => exact ledger.loop taken

omit [DecidableEq Thread] in
theorem boot_noStrayReport :
    NoStrayReport [] (boot : System Thread) := by
  simp [NoStrayReport, Carried]

theorem NoStrayReport.step {call : Call Thread}
    (noStray : NoStrayReport past system)
    (registered : ReportsRegistered system call)
    (taken : Wdt.step system call = some next) :
    NoStrayReport (past ++ [(system, call)]) next := by
  intro carriedId carried
  rcases carried_concat.mp carried with now | before
  · obtain ⟨thread, same⟩ := now
    simp only at same
    subst same
    cases taken
    exact registered
  · obtain ⟨carriedBefore, kept⟩ := before
    have covered := noStray carriedId carriedBefore
    cases call with
    | register thread =>
        obtain ⟨_, mask, _⟩ := register_effect taken
        rw [and_eq_right_iff] at covered ⊢
        rw [mask]
        exact covered.trans Finset.subset_union_left
    | feed thread threadId =>
        cases taken
        exact covered
    | deregister thread threadId =>
        have refused : ¬ system.wdt.threadMask &&& threadId = threadId :=
          fun accepted => kept (Or.inr ⟨thread, threadId, rfl, accepted⟩)
        cases taken
        simp only [wdtDeregisterThread, ne_eq, refused,
          not_false_eq_true, if_true]
        exact covered
    | loop =>
        cases taken
        rw [(wdtThreadLoop_frame system.wdt).1]
        exact covered

end Ledger

variable [DecidableEq Thread]

/-- After any run at all, once every registered thread has reported, the next
iteration feeds the hardware exactly when no report since the aggregate was
last overwritten carried an ID outside the mask.  So in a run whose reports
all name IDs in the mask it always does. -/
theorem all_reported_feeds_iff_no_stray
    (calls : List (Call Thread)) (system : System Thread)
    (reached : execute step boot calls = some system)
    (reported : AllReported (trace step boot calls) system) :
    ((wdtThreadLoop system.wdt).1 = true ↔
        NoStrayReport (trace step boot calls) system) ∧
      (Meets step ReportsRegistered boot calls →
        (wdtThreadLoop system.wdt).1 = true) := by
  have ledger : Ledger (trace step boot calls) system :=
    trace_induction boot_ledger
      (fun _ _ _ _ ledger _ taken => ledger.step taken)
      (meets_true boot calls) reached
  have feeds := ledger.feeds_iff reported
  refine ⟨feeds, ?_⟩
  intro registered
  apply feeds.mpr
  exact trace_induction boot_noStrayReport
    (fun _ _ _ _ noStray here taken => noStray.step here taken)
    registered reached

/-- Thread `1` feeds once more after it has deregistered, but then thread `2`
deregisters, which overwrites the aggregate. -/
def strayOverwritten : List (Call Nat) :=
  [.register 0, .register 1, .register 2, .deregister 1 2#8, .feed 1 2#8,
    .deregister 2 4#8, .feed 0 1#8]

/-- So the report of thread `0`, the only one left, is enough. -/
theorem strayOverwritten_feeds :
    ∃ system, execute step boot strayOverwritten = some system ∧
      (wdtThreadLoop system.wdt).1 = true := by
  have reports : trace step boot strayOverwritten =
      trace step boot (strayOverwritten.take 6) ++ [(_, .feed 0 1#8)] :=
    trace_concat
      (rfl : execute step boot (strayOverwritten.take 6) = some _)
  have leaves : trace step boot (strayOverwritten.take 6) =
      trace step boot (strayOverwritten.take 5) ++
        [(_, .deregister 2 4#8)] :=
    trace_concat
      (rfl : execute step boot (strayOverwritten.take 5) = some _)
  refine ⟨_, rfl, ?_⟩
  refine (all_reported_feeds_iff_no_stray strayOverwritten _ rfl ?_).1.mpr ?_
  · intro holder registered
    change holder ∈ [(0, 1#8)] at registered
    obtain rfl := List.mem_singleton.mp registered
    rw [reports, hasReported_concat]
    exact Or.inl rfl
  · intro threadId carried
    rw [reports, carried_concat] at carried
    rcases carried with ⟨thread, same⟩ | ⟨earlier, _⟩
    · cases same
      decide
    · rw [leaves, carried_concat] at earlier
      rcases earlier with ⟨thread, impossible⟩ | ⟨_, kept⟩
      · cases impossible
      · exact absurd (Or.inr ⟨2, 4#8, rfl, by decide⟩) kept

/-- Thread `1` feeds once more after it has deregistered.  Thread `0` reports,
and the next iteration does not feed the hardware. -/
theorem stray_report_starves :
    ¬ ∀ (calls : List (Call Nat)) (system : System Nat),
      execute step boot calls = some system →
        AllReported (trace step boot calls) system →
          (wdtThreadLoop system.wdt).1 = true := by
  intro always
  have fed := always
    [.register 0, .register 1, .deregister 1 2#8, .loop, .feed 1 2#8,
      .feed 0 1#8]
    ⟨⟨1#8, 1#8, 3#8⟩, [(0, 1#8)],
      [.joined 0, .joined 1, .left 1, .called true, .reported 1,
        .reported 0]⟩
    (by decide)
    (by
      intro holder registered
      have same : holder = (0, 1#8) := by
        simpa [System.registered] using registered
      subst same
      exact
        ⟨trace step boot
            [.register 0, .register 1, .deregister 1 2#8, .loop,
              .feed 1 2#8],
          (⟨⟨1#8, 1#8, 2#8⟩, [(0, 1#8)],
              [.joined 0, .joined 1, .left 1, .called true, .reported 1]⟩,
            .feed 0 1#8),
          [], rfl, rfl, by simp⟩)
  revert fed
  decide

end LoraIot.Wdt
