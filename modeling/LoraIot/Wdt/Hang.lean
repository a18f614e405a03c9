import LoraIot.Wdt.Reports

/-!
# A thread that hangs

The watchdog is there for the thread that stops calling `wdt_feed_watchdog`.
From its last report on, the hardware is fed at most once, and once more for
every thread that deregisters, since a deregistration credits everybody who
stays.
-/

namespace LoraIot.Wdt

open LoraIot.RollCall LoraIot.Runs

universe u

variable {Thread : Type u} [DecidableEq Thread]

/-- The thread neither feeds the watchdog nor deregisters. -/
def SilentFor (thread : Thread) : Call Thread → Prop
  | .feed other _ => other ≠ thread
  | .deregister other _ => other ≠ thread
  | _ => True

/-- The hardware has not been fed more often since an earlier log than the
member's credit and the departures allow. -/
structure Bounded (earlier : List (Entry Thread)) (thread : Thread)
    (system : System Thread) : Prop where
  sheet : ∃ sheet : Sheet Thread (Fin 8), sheet.Sound ∧ Refines system sheet
  registered : thread ∈ system.threads
  feeds : completeCalls system.log + credit system.log thread +
      departures earlier ≤
    completeCalls earlier + 1 + departures system.log

variable {system next : System Thread} {thread : Thread}

/-- A call of somebody else adds no entry about the thread, and the thread
stays registered. -/
theorem step_silent {call : Call Thread} (silent : SilentFor thread call)
    (registered : thread ∈ system.threads)
    (taken : step system call = some next) :
    next.log ≠ system.log ++ [.reported thread] ∧
      next.log ≠ system.log ++ [.left thread] ∧ thread ∈ next.threads := by
  cases call with
  | register other =>
      simp only [step] at taken
      split at taken
      · cases taken
      · cases taken
        refine ⟨by simp, by simp, ?_⟩
        rw [System.threads, List.map_append]
        exact List.mem_append_left _ registered
  | feed other threadId =>
      cases taken
      have different : other ≠ thread := silent
      exact ⟨by simpa using different, by simp, registered⟩
  | deregister other threadId =>
      cases taken
      have different : other ≠ thread := silent
      refine ⟨by simp, by simpa using different, ?_⟩
      obtain ⟨holder, holds, same⟩ := List.mem_map.mp registered
      refine List.mem_map.mpr ⟨holder, ?_, same⟩
      refine (List.mem_erase_of_ne ?_).mpr holds
      intro isOther
      rw [isOther] at same
      exact different same
  | loop =>
      cases taken
      exact ⟨by simp, by simp, registered⟩

theorem Bounded.step {earlier : List (Entry Thread)} {call : Call Thread}
    (bounded : Bounded earlier thread system)
    (disciplined : Disciplined system call) (silent : SilentFor thread call)
    (taken : Wdt.step system call = some next) :
    Bounded earlier thread next := by
  obtain ⟨sheet, sound, refines⟩ := bounded.sheet
  obtain ⟨after, move, refinesNext⟩ := refines.step disciplined taken
  obtain ⟨notReported, notLeft, stays⟩ :=
    step_silent silent bounded.registered taken
  refine ⟨⟨after, sound.move move, refinesNext⟩, stays, ?_⟩
  have present : Present sheet.log thread := by
    rw [sound.present, ← refines.allocated.threads]
    exact bounded.registered
  rw [refines.log, refinesNext.log] at notReported notLeft
  have budget := sound.silent_move move present notReported notLeft
  have feeds := bounded.feeds
  rw [refines.log] at feeds
  rw [refinesNext.log]
  omega

theorem Bounded.execute {earlier : List (Entry Thread)}
    (bounded : Bounded earlier thread system) {later : List (Call Thread)}
    {final : System Thread}
    (disciplined : Meets Wdt.step Disciplined system later)
    (silent : ∀ call ∈ later, SilentFor thread call)
    (continued : Runs.execute Wdt.step system later = some final) :
    Bounded earlier thread final := by
  induction later generalizing system with
  | nil =>
      obtain rfl := Option.some.inj continued
      exact bounded
  | cons call rest inductionHypothesis =>
      rw [execute_cons, Option.bind_eq_some_iff] at continued
      obtain ⟨next, taken, more⟩ := continued
      exact inductionHypothesis
        (bounded.step disciplined.1 (silent call List.mem_cons_self) taken)
        (disciplined.2 next taken)
        (fun other member => silent other (List.mem_cons_of_mem call member))
        more

theorem bounded_of_reached {calls : List (Call Thread)}
    (disciplined : Meets Wdt.step Disciplined boot calls)
    (reached : execute Wdt.step boot calls = some system)
    (registered : thread ∈ system.threads) :
    Bounded system.log thread system := by
  refine ⟨exists_sheet disciplined reached, registered, ?_⟩
  have bound := credit_le system.log thread
  omega

/-- After any disciplined run, and however it goes on, a registered thread that
no longer reports lets the hardware be fed at most once, and once more for
every thread that deregisters. -/
theorem hung_thread_detected (calls later : List (Call Thread))
    (system final : System Thread) (thread : Thread)
    (disciplined : Meets Wdt.step Disciplined boot (calls ++ later))
    (reached : execute Wdt.step boot calls = some system)
    (registered : thread ∈ system.threads)
    (continued : execute Wdt.step system later = some final)
    (silent : ∀ call ∈ later, SilentFor thread call) :
    completeCalls final.log + departures system.log ≤
      completeCalls system.log + 1 + departures final.log := by
  obtain ⟨before, after⟩ := (meets_append _ _ _).mp disciplined
  have bounded :=
    (bounded_of_reached before reached registered).execute
      (after system reached) silent continued
  have feeds := bounded.feeds
  omega

/-- Thread `0` reports for the last time, and thread `1` goes on. -/
theorem hung_zero_detected :
    ∃ system final : System Nat,
      execute Wdt.step boot
          [.register 0, .register 1, .feed 0 1#8, .feed 1 2#8] =
        some system ∧
      execute Wdt.step system [.loop, .feed 1 2#8, .loop, .loop] =
        some final ∧
      completeCalls final.log + departures system.log ≤
        completeCalls system.log + 1 + departures final.log := by
  refine ⟨_, _, rfl, rfl, ?_⟩
  refine hung_thread_detected
    [Call.register 0, .register 1, .feed 0 1#8, .feed 1 2#8]
    [.loop, .feed 1 2#8, .loop, .loop] _ _ 0 (by decide) rfl (by decide) rfl
    ?_
  intro call member
  simp only [List.mem_cons, List.not_mem_nil, or_false] at member
  rcases member with rfl | rfl | rfl | rfl
  · trivial
  · exact Nat.one_ne_zero
  · trivial
  · trivial

end LoraIot.Wdt
