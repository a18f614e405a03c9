import LoraIot.Lora.Latency

/-!
# Uplinks that are far enough apart

`lora_tx_queue` holds four messages, and another one is dropped.  The LoRa
thread sends one in each pass of its loop.  So a sender that sleeps between
two messages for at least as long as a pass takes never finds the queue full,
even when the LoRa thread is held up for less than a pass in all before the
queue runs empty again.  It is held up at its first message, which waits ten
seconds for a permit of `sem_tx_busy` that nobody has given.  For
`loratest_thread` with its ten seconds that is early enough as long as the
stack answers quickly.
-/

namespace LoraIot.Lora

open LoraIot.Runs LoraIot.Wdt

def TimedEvent.pushed : TimedEvent → Option LoraTxMessage
  | .beside (.push msg) => some msg
  | _ => none

/-- How long the sender still sleeps after the event. -/
def TimedEvent.rest (gap sleep : Nat) : TimedEvent → Nat
  | .tick (.elapse ms) => sleep - ms
  | .beside (.push _) => gap
  | _ => sleep

/-- The sender sleeps for `gap` after each message. -/
def SpacedBy (gap : Nat) : Nat → List TimedEvent → Prop
  | _, [] => True
  | sleep, event :: events =>
      (event.pushed.isSome = true → sleep = 0) ∧
        SpacedBy gap (event.rest gap sleep) events

instance SpacedBy.decidable (gap : Nat) :
    (sleep : Nat) → (events : List TimedEvent) →
      Decidable (SpacedBy gap sleep events)
  | _, [] => isTrue trivial
  | sleep, event :: events =>
      have := SpacedBy.decidable gap (event.rest gap sleep) events
      inferInstanceAs (Decidable (_ ∧ _))

def Steady (timed : Timed) (event : TimedEvent) : Prop :=
  event ≠ .beside (.setEnabled false) ∧ failedJoin timed event = 0

instance (timed : Timed) : DecidablePred (Steady timed) :=
  fun _ => inferInstanceAs (Decidable (_ ∧ _))

/-- By how much the LoRa thread has overrun its limits since nothing waited. -/
def overrun (budget : Budget) (debt : Nat) (timed : Timed)
    (event : TimedEvent) : Nat :=
  (if timed.lora.waiting = [] then 0 else debt) + overtime budget timed event

/-- Whenever a message comes, the LoRa thread has overrun its limits by less
than a pass since nothing waited. -/
def CatchesUp (budget : Budget) : Nat → Timed → List TimedEvent → Prop
  | _, _, [] => True
  | debt, timed, event :: events =>
      (event.pushed.isSome = true →
        overrun budget debt timed event < loopTime budget) ∧
      ∀ next, timedStep timed event = some next →
        CatchesUp budget (overrun budget debt timed event) next events

instance CatchesUp.decidable (budget : Budget) :
    (debt : Nat) → (timed : Timed) → (events : List TimedEvent) →
      Decidable (CatchesUp budget debt timed events)
  | _, _, [] => isTrue trivial
  | debt, timed, event :: events =>
      match taken : timedStep timed event with
      | none =>
          decidable_of_iff
            (event.pushed.isSome = true →
              overrun budget debt timed event < loopTime budget)
            (by simp [CatchesUp, taken])
      | some next =>
          have := CatchesUp.decidable budget
            (overrun budget debt timed event) next events
          decidable_of_iff
            ((event.pushed.isSome = true →
                overrun budget debt timed event < loopTime budget) ∧
              CatchesUp budget (overrun budget debt timed event) next events)
            (by simp [CatchesUp, taken])

section Queue

/-- All but one of the messages in the queue need a pass of their own. -/
theorem System.queue_le_owed (system : System) :
    system.loraTxQueue.length ≤
      system.owed system.underway.length + 1 := by
  rw [System.owed, system.underway_length, Nat.add_sub_cancel_left,
    System.waiting, List.length_append]
  cases system.pc with
  | joinLine status =>
      cases status <;> simp only [Pc.owed, Pc.inFlight] <;> omega
  | _ =>
      simp only [Pc.owed, Pc.inFlight, List.length_singleton]
      omega

theorem Pc.owed_succ_le (connected : Bool) (more : Nat) (pc : Pc) :
    pc.owed connected (more + 1) ≤ pc.owed connected more + 1 := by
  cases pc with
  | joinLine status => cases status <;> simp only [Pc.owed] <;> omega
  | _ => simp only [Pc.owed]; omega

theorem push_accepts {system : System} (msg : LoraTxMessage)
    (room : system.loraTxQueue.length < queueCapacity) :
    (push system msg).pc = system.pc ∧
      (push system msg).underway = system.underway ++ [msg] ∧
      (push system msg).owed (system.underway.length + 1) ≤
        system.owed system.underway.length + 1 := by
  rw [push, if_pos room]
  refine ⟨rfl, (List.append_assoc _ _ _).symm, ?_⟩
  have more : system.underway.length + 1 - system.sent.length =
      system.underway.length - system.sent.length + 1 := by
    rw [system.underway_length]
    omega
  change system.pc.owed system.varConnected
    (system.underway.length + 1 - system.sent.length) ≤ _
  rw [more]
  exact system.pc.owed_succ_le _ _

end Queue

/-- What waits will be sent before the sender has slept and two passes have
gone by, but for what the LoRa thread has overrun. -/
structure Roomy (budget : Budget) (sleep debt : Nat) (timed : Timed) :
    Prop where
  since : timed.since ≤ timed.clock.now
  registered : timed.lora.pc ≠ .giveRxCb
  enabled : timed.lora.varEnabled = true
  left : timed.left budget timed.lora.underway.length ≤
    2 * loopTime budget + sleep + debt

section Roomy

variable {budget : Budget} {gap sleep debt : Nat} {timed next final : Timed}
  {event : TimedEvent}

/-- When nothing waits, earlier overruns do not matter. -/
theorem Roomy.forgives (roomy : Roomy budget sleep debt timed) :
    timed.left budget timed.lora.underway.length ≤
      2 * loopTime budget + sleep +
        if timed.lora.waiting = [] then 0 else debt := by
  split
  · rename_i idle
    have left := timed.left_le budget
    rw [idle, List.length_nil] at left
    omega
  · exact roomy.left

theorem Roomy.room (roomy : Roomy budget 0 debt timed)
    (small : (if timed.lora.waiting = [] then 0 else debt) <
      loopTime budget) :
    timed.lora.loraTxQueue.length < queueCapacity := by
  have ahead := limit_le_remaining budget roomy.registered
  have left := roomy.forgives
  rw [Timed.left, System.due] at left
  have passes : loopTime budget *
        timed.lora.owed timed.lora.underway.length <
      loopTime budget * 3 := by
    omega
  have owed := Nat.lt_of_mul_lt_mul_left passes
  have queue := timed.lora.queue_le_owed
  rw [queueCapacity]
  omega

theorem timedStep_underway (notPushed : event.pushed = none)
    (taken : timedStep timed event = some next) :
    next.lora.underway = timed.lora.underway := by
  rcases timedStep_cases taken with
    ⟨tick, clock, rfl, _, _, rfl⟩ | ⟨ret, stack, clock, rfl, _, rfl⟩ |
      ⟨inner, lora, rfl, _, stepped, rfl⟩
  · rfl
  · exact (loraThread_underway timed.lora ret stack).1
  · have noPush : ∀ msg, inner ≠ .push msg := by
      intro msg same
      rw [same] at notPushed
      cases notPushed
    exact (step_underway noPush stepped).1

theorem rest_of_not_pushed (timed : Timed)
    (notPushed : event.pushed = none) :
    event.rest gap sleep = sleep - elapses timed event := by
  cases event with
  | tick inner => cases inner <;> rfl
  | lora ret stack => rfl
  | beside inner =>
      cases inner with
      | push msg => cases notPushed
      | _ => rfl

/-- While nothing is pushed, the time that is left runs down, unless the LoRa
thread stays too long. -/
theorem Roomy.left_of_not_pushed (roomy : Roomy budget sleep debt timed)
    (steady : Steady timed event) (notPushed : event.pushed = none)
    (taken : timedStep timed event = some next) :
    next.left budget next.lora.underway.length ≤
      2 * loopTime budget + event.rest gap sleep +
        overrun budget debt timed event := by
  have same := timedStep_underway notPushed taken
  by_cases below : timed.lora.sent.length < timed.lora.underway.length
  · have expecting : Expecting timed.lora.underway.length timed :=
      ⟨roomy.since, roomy.registered, roomy.enabled, Nat.le_refl _⟩
    have paid : elapses timed event +
          next.left budget timed.lora.underway.length ≤
        timed.left budget timed.lora.underway.length +
          (loopTime budget * failedJoin timed event +
            overtime budget timed event) :=
      expecting.pays below taken
    have left := roomy.forgives
    rw [steady.2, Nat.mul_zero, Nat.zero_add] at paid
    rw [rest_of_not_pushed timed notPushed, same, overrun]
    omega
  · have left := next.left_le budget
    have sent := timedStep_sent_le taken
    have split := next.lora.underway_length
    have empty : next.lora.waiting.length = 0 := by
      rw [same] at split
      omega
    rw [empty] at left
    omega

/-- A message that comes after the sleep is accepted and takes another pass. -/
theorem Roomy.left_of_pushed (roomy : Roomy budget 0 debt timed)
    {msg : LoraTxMessage}
    (small : overrun budget debt timed (.beside (.push msg)) <
      loopTime budget)
    (taken : timedStep timed (.beside (.push msg)) = some next) :
    next.lora.underway = timed.lora.underway ++ [msg] ∧
      next.left budget next.lora.underway.length ≤
        3 * loopTime budget +
          overrun budget debt timed (.beside (.push msg)) := by
  have still : overtime budget timed (.beside (.push msg)) = 0 :=
    overtime_of_still budget rfl
  rw [overrun, still, Nat.add_zero] at small ⊢
  obtain ⟨pc, underway, owed⟩ := push_accepts msg (roomy.room small)
  have left := roomy.forgives
  have ahead := limit_le_remaining budget roomy.registered
  have passes := Nat.mul_le_mul_left (loopTime budget) owed
  obtain rfl := Option.some.inj taken
  refine ⟨underway, ?_⟩
  rw [Timed.left, System.due] at left ⊢
  dsimp only
  rw [underway, List.length_append, List.length_singleton, pc]
  rw [Nat.mul_succ] at passes
  omega

theorem TimedEvent.eq_push {msg : LoraTxMessage}
    (pushed : event.pushed = some msg) : event = .beside (.push msg) := by
  cases event with
  | tick tick => cases pushed
  | lora ret stack => cases pushed
  | beside inner =>
      cases inner with
      | push other =>
          obtain rfl := Option.some.inj pushed
          rfl
      | _ => cases pushed

theorem Roomy.step (wide : loopTime budget ≤ gap)
    (roomy : Roomy budget sleep debt timed) (steady : Steady timed event)
    (spaced : event.pushed.isSome = true → sleep = 0)
    (small : event.pushed.isSome = true →
      overrun budget debt timed event < loopTime budget)
    (taken : timedStep timed event = some next) :
    Roomy budget (event.rest gap sleep) (overrun budget debt timed event)
        next ∧
      next.lora.underway = timed.lora.underway ++ event.pushed.toList := by
  have expecting : Expecting timed.lora.underway.length timed :=
    ⟨roomy.since, roomy.registered, roomy.enabled, Nat.le_refl _⟩
  obtain ⟨since, registered, enabled, _⟩ := expecting.step steady.1 taken
  cases pushed : event.pushed with
  | none =>
      refine ⟨⟨since, registered, enabled, ?_⟩, ?_⟩
      · exact roomy.left_of_not_pushed steady pushed taken
      · rw [timedStep_underway pushed taken, Option.toList_none,
          List.append_nil]
  | some msg =>
      rw [pushed] at spaced small
      obtain rfl := spaced rfl
      obtain rfl := TimedEvent.eq_push pushed
      obtain ⟨underway, left⟩ := roomy.left_of_pushed (small rfl) taken
      refine ⟨⟨since, registered, enabled, ?_⟩, underway⟩
      rw [TimedEvent.rest]
      omega

theorem Roomy.run (wide : loopTime budget ≤ gap)
    {events : List TimedEvent} (roomy : Roomy budget sleep debt timed)
    (catchesUp : CatchesUp budget debt timed events)
    (steady : Meets timedStep Steady timed events)
    (spaced : SpacedBy gap sleep events)
    (continued : execute timedStep timed events = some final) :
    final.lora.underway =
      timed.lora.underway ++ events.filterMap TimedEvent.pushed := by
  induction events generalizing sleep debt timed with
  | nil =>
      obtain rfl := Option.some.inj continued
      exact (List.append_nil _).symm
  | cons event rest inductionHypothesis =>
      obtain ⟨next, taken, continued⟩ :=
        Option.bind_eq_some_iff.mp continued
      obtain ⟨roomyNext, underway⟩ :=
        roomy.step wide steady.1 spaced.1 catchesUp.1 taken
      rw [inductionHypothesis roomyNext (catchesUp.2 next taken)
        (steady.2 next taken) spaced.2 continued, underway, List.append_assoc]
      cases pushed : event.pushed with
      | none => rw [List.filterMap_cons_none pushed]; rfl
      | some msg => rw [List.filterMap_cons_some pushed]; rfl

end Roomy

/-- Once joining succeeds, and from a moment on at which nothing waits, a
sender that sleeps for at least a pass of the loop between two messages has
every one of them accepted, as long as the LoRa thread overruns its limits by
less than a pass before nothing waits again. -/
theorem spaced_never_refused (budget : Budget) (gap : Nat)
    (wide : loopTime budget ≤ gap) (events later : List TimedEvent)
    (timed final : Timed)
    (reached : execute timedStep Timed.boot events = some timed)
    (continued : execute timedStep timed later = some final)
    (registered : timed.lora.pc ≠ .giveRxCb)
    (enabled : timed.lora.varEnabled = true)
    (idle : timed.lora.waiting = [])
    (catchesUp : CatchesUp budget 0 timed later)
    (steady : Meets timedStep Steady timed later)
    (spaced : SpacedBy gap 0 later) :
    final.lora.underway =
      timed.lora.underway ++ later.filterMap TimedEvent.pushed := by
  have left := timed.left_le budget
  rw [idle] at left
  exact Roomy.run wide ⟨reached_since reached, registered, enabled, left⟩
    catchesUp steady spaced continued

/-- Joining takes up to two seconds, a transmission one, and its permit comes
back within five. -/
def promptRadio : Budget where
  brief := 10
  write := 100
  permit := 5000
  join := 2000
  send := 1000

def enables : List TimedEvent := [.beside (.setEnabled true), .lora 0 []]

/-- `loratest_thread` sends three times, ten seconds apart.  Its first message
waits ten seconds for a permit and is sent after the second one has come; the
radio reports it, so that the second one does not wait. -/
def testsThrice : List TimedEvent :=
  [[.beside (.push loratestMessage)], List.replicate 9 (.lora 0 []),
    [.tick (.elapse 1000)], List.replicate 3 (.lora 0 []),
    [.tick (.elapse 1000)], List.replicate 2 (.lora 0 []),
    [.tick (.elapse 8000), .beside (.push loratestMessage),
      .tick (.elapse 2000)],
    List.replicate 5 (.lora 0 []),
    [.beside (.txData ⟨true, 0, 0, 0⟩)],
    List.replicate 2 (.lora 0 []), [.tick (.elapse 1000)],
    List.replicate 7 (.lora 0 []),
    (List.replicate 7 idlePass).flatten,
    [.beside (.push loratestMessage)]].flatten

theorem testsThrice_accepted : ∃ timed final,
    execute timedStep Timed.boot enables = some timed ∧
      execute timedStep timed testsThrice = some final ∧
        final.lora.sent = [loratestMessage, loratestMessage] ∧
        final.lora.underway =
          timed.lora.underway ++
            [loratestMessage, loratestMessage, loratestMessage] := by
  have runs : (execute timedStep Timed.boot enables).any (fun timed =>
      (execute timedStep timed testsThrice).any (fun final =>
          decide (final.lora.sent = [loratestMessage, loratestMessage])) &&
        decide (timed.lora.pc ≠ .giveRxCb) && timed.lora.varEnabled &&
          decide (timed.lora.waiting = []) &&
            decide (CatchesUp promptRadio 0 timed testsThrice) &&
              decide (Meets timedStep Steady timed testsThrice)) = true := by
    decide +kernel
  obtain ⟨timed, reached, holds⟩ := (Option.any_eq_true _ _).mp runs
  simp only [Bool.and_eq_true, decide_eq_true_eq] at holds
  obtain ⟨⟨⟨⟨⟨goesOn, registered⟩, enabled⟩, idle⟩, catchesUp⟩, steady⟩ :=
    holds
  obtain ⟨final, continued, sent⟩ := (Option.any_eq_true _ _).mp goesOn
  exact ⟨timed, final, reached, continued, of_decide_eq_true sent,
    spaced_never_refused promptRadio 10000 (by decide) enables testsThrice
      timed final reached continued registered enabled idle catchesUp steady
      (by decide +kernel)⟩

end LoraIot.Lora
