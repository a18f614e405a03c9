import LoraIot.Wdt.Threads

/-!
# When the hardware watchdog is fed

The mask, the counter and the aggregate implement a roll call: a registration
takes a free bit as its seat, feeding ticks the seat, deregistration excuses
those who stay, and a loop iteration is a call.  `Refines` relates the bytes to
a sheet of `RollCall`, every call of a disciplined caller is a move of the
sheet, and so an iteration feeds the hardware exactly when everybody who is
registered is credited.
-/

namespace LoraIot.Wdt

open LoraIot.Bitmask LoraIot.RollCall LoraIot.Runs

universe u

variable {Thread : Type u}

/-- Threads register while fewer than eight are registered, and feed and
deregister with the ID of their own valid registration. -/
def Disciplined (system : System Thread) : Call Thread → Prop
  | .register _ => HasRoom system
  | .feed thread threadId => (thread, threadId) ∈ system.held
  | .deregister thread threadId => (thread, threadId) ∈ system.held
  | .loop => True

instance [DecidableEq Thread] (system : System Thread) :
    ∀ call, Decidable (Disciplined system call)
  | .register _ => inferInstanceAs (Decidable (HasRoom system))
  | .feed thread threadId =>
      inferInstanceAs (Decidable ((thread, threadId) ∈ system.held))
  | .deregister thread threadId =>
      inferInstanceAs (Decidable ((thread, threadId) ∈ system.held))
  | .loop => isTrue trivial

/-- The bytes implement the sheet. -/
structure Refines (system : System Thread) (sheet : Sheet Thread (Fin 8)) :
    Prop where
  allocated : Allocated system sheet.seats
  aggregate : members system.wdt.wdtAggregate = sheet.ticked
  log : system.log = sheet.log

theorem boot_refines : Refines (boot : System Thread) Sheet.blank where
  allocated := boot_allocated
  aggregate := members_zero
  log := rfl

variable {system next : System Thread} {sheet : Sheet Thread (Fin 8)}

theorem Refines.loop_feeds_iff (refines : Refines system sheet) :
    (wdtThreadLoop system.wdt).1 = true ↔
      sheet.ticked = sheet.occupied := by
  rw [wdtThreadLoop_fst, refines.aggregate, refines.allocated.mask,
    Sheet.occupied]

variable [DecidableEq Thread]

theorem Refines.register (refines : Refines system sheet)
    (room : HasRoom system) {thread : Thread}
    (taken : step system (.register thread) = some next) :
    ∃ after, Sheet.Move sheet after ∧ Refines next after := by
  obtain ⟨position, isFree, notYet, aggregate, log, allocated⟩ :=
    refines.allocated.after_register room taken
  rw [refines.allocated.threads] at notYet
  refine ⟨_, .join sheet thread position notYet isFree, allocated, ?_, ?_⟩
  · rw [aggregate, refines.aggregate]
  · rw [log, refines.log]

theorem Refines.feed (refines : Refines system sheet)
    {thread : Thread} {threadId : BitVec 8}
    (own : (thread, threadId) ∈ system.held)
    (taken : step system (.feed thread threadId) = some next) :
    ∃ after, Sheet.Move sheet after ∧ Refines next after := by
  obtain ⟨position, rfl, seated⟩ := refines.allocated.seat_of_held own
  cases taken
  refine ⟨_, .report sheet thread position seated, ?_, ?_, ?_⟩
  · exact refines.allocated.of_unchanged rfl rfl rfl
  · simp only [wdtFeedWatchdog, members_or, members_twoPow,
      refines.aggregate]
    rw [Finset.union_comm]
    rfl
  · simp only [refines.log]

theorem Refines.deregister (refines : Refines system sheet)
    {thread : Thread} {threadId : BitVec 8}
    (own : (thread, threadId) ∈ system.held)
    (taken : step system (.deregister thread threadId) = some next) :
    ∃ after, Sheet.Move sheet after ∧ Refines next after := by
  obtain ⟨position, seated, aggregate, log, allocated⟩ :=
    refines.allocated.after_deregister own taken
  refine ⟨_, .leave sheet thread position seated, allocated, aggregate, ?_⟩
  rw [log, refines.log]

theorem Refines.loop (refines : Refines system sheet)
    (taken : step system .loop = some next) :
    ∃ after, Sheet.Move sheet after ∧ Refines next after := by
  obtain ⟨mask, count⟩ := wdtThreadLoop_frame system.wdt
  have decision := refines.loop_feeds_iff
  cases taken
  cases fed : (wdtThreadLoop system.wdt).1 with
  | true =>
      refine ⟨_, .complete sheet (decision.mp fed),
        refines.allocated.of_unchanged rfl mask count, ?_, ?_⟩
      · -- A feeding iteration clears the aggregate.
        rw [wdtThreadLoop_fst, members_inj] at fed
        simp only [wdtThreadLoop, fed, if_true, members_zero]
      · simp only [refines.log]
  | false =>
      have notFull : sheet.ticked ≠ sheet.occupied := by
        intro full
        rw [decision.mpr full] at fed
        cases fed
      refine ⟨_, .incomplete sheet notFull,
        refines.allocated.of_unchanged rfl mask count, ?_, ?_⟩
      · have different :
            system.wdt.wdtAggregate ≠ system.wdt.threadMask := by
          intro same
          rw [← members_inj, ← wdtThreadLoop_fst] at same
          rw [same] at fed
          cases fed
        simp only [wdtThreadLoop, if_neg different, refines.aggregate]
      · simp only [refines.log]

/-- Every disciplined call is a move of the sheet. -/
theorem Refines.step {call : Call Thread}
    (refines : Refines system sheet) (disciplined : Disciplined system call)
    (taken : Wdt.step system call = some next) :
    ∃ after, Sheet.Move sheet after ∧ Refines next after := by
  cases call with
  | register thread => exact refines.register disciplined taken
  | feed thread threadId => exact refines.feed disciplined taken
  | deregister thread threadId => exact refines.deregister disciplined taken
  | loop => exact refines.loop taken

/-- Every disciplined run is a roll call. -/
theorem exists_sheet {calls : List (Call Thread)} {system : System Thread}
    (disciplined : Meets Wdt.step Disciplined boot calls)
    (reached : execute Wdt.step boot calls = some system) :
    ∃ sheet : Sheet Thread (Fin 8), sheet.Sound ∧ Refines system sheet := by
  refine execute_invariant
    (fun system =>
      ∃ sheet : Sheet Thread (Fin 8), sheet.Sound ∧ Refines system sheet)
    ⟨Sheet.blank, Sheet.blank_sound, boot_refines⟩ ?_ disciplined reached
  intro state call next drawn here taken
  obtain ⟨sheet, sound, refines⟩ := drawn
  obtain ⟨after, move, refinesNext⟩ := refines.step here taken
  exact ⟨after, sound.move move, refinesNext⟩

/-- Watchdog soundness and completeness: after any disciplined run, the next
iteration of the loop feeds the hardware exactly when every registered thread
has, since its registration and since the last hardware feed, either fed the
watchdog or been registered while another thread deregistered. -/
theorem loop_feeds_iff_all_credited
    (calls : List (Call Thread)) (system : System Thread)
    (disciplined : Meets Wdt.step Disciplined boot calls)
    (reached : execute Wdt.step boot calls = some system) :
    (wdtThreadLoop system.wdt).1 = true ↔
      ∀ thread ∈ system.threads,
        Reported system.log thread ∨ Excused system.log thread := by
  obtain ⟨sheet, sound, refines⟩ := exists_sheet disciplined reached
  rw [refines.loop_feeds_iff, sound.complete_iff,
    refines.allocated.threads, refines.log]
  exact forall_congr' fun thread =>
    imp_congr (sound.present thread) Iff.rfl

/-- Thread `1` reuses the bit of thread `0`, which had fed the watchdog, and
is not counted as having reported. -/
theorem reused_bit_not_credited :
    ¬ Reported
        [Entry.joined 0, .reported 0, .left 0, .joined 1] 1 ∧
      ¬ Excused
        [Entry.joined 0, .reported 0, .left 0, .joined 1] 1 := by
  have answered := loop_feeds_iff_all_credited
    [Call.register 0, .feed 0 1#8, .deregister 0 1#8, .register 1]
    ⟨⟨1#8, 1#8, 0#8⟩, [(1, 1#8)],
      [Entry.joined 0, .reported 0, .left 0, .joined 1]⟩
    (by decide) (by decide)
  have notFed : ¬ (wdtThreadLoop ⟨1#8, 1#8, 0#8⟩).1 = true := by decide
  rw [answered] at notFed
  simpa [System.threads] using notFed

end LoraIot.Wdt
