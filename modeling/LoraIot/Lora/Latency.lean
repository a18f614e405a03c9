import LoraIot.Lora.Progress
import LoraIot.Lora.Timing

/-!
# How long an uplink waits

While `enabled` stays set, a pass of the LoRa thread's loop joins, or fails to
join, or hands a message to the radio, and it takes no longer than `loopTime`.
So a message waits for the pass under way, one pass to join, one pass for
every message in front of it, its own, and one for every failed attempt to
join.
-/

namespace LoraIot.Lora

open LoraIot.Potentials LoraIot.Runs LoraIot.Wdt

def joinPass (connected : Bool) : Nat := if connected then 0 else 1

/-- How many passes of the loop it takes to send this many messages, from the
next top of the loop on. -/
def Pc.owed (connected : Bool) (more : Nat) : Pc → Nat
  -- This pass joins.
  | .testEnabled => more
  | .start => more
  | .joinLine .start => more
  | .configure => more
  | .joinLine .send => more
  | .join => more
  | .joinLine .complete => more
  | .setConnected => more
  -- This pass sends.
  | .testSend => more - 1 + joinPass connected
  | .sendSleep => more - 1 + joinPass connected
  | .dequeue => more - 1 + joinPass connected
  | .takeTxBusy _ => more - 1 + joinPass connected
  | .sendHead _ => more - 1 + joinPass connected
  | .sendPayload _ => more - 1 + joinPass connected
  | .sendClose _ => more - 1 + joinPass connected
  | .send _ => more - 1 + joinPass connected
  | .clearConnected => more + 1
  | _ => more + joinPass connected

def System.owed (goal : Nat) (system : System) : Nat :=
  system.pc.owed system.varConnected (goal - system.sent.length)

theorem joinPass_le (connected : Bool) : joinPass connected ≤ 1 := by
  cases connected <;> decide

theorem Pc.owed_le (connected : Bool) (more : Nat) (pc : Pc) :
    pc.owed connected more ≤ more + 1 := by
  have most := joinPass_le connected
  cases pc with
  | joinLine status => cases status <;> simp only [Pc.owed] <;> omega
  | _ => simp only [Pc.owed]; omega

theorem Pc.remaining_le_loopTime (budget : Budget) (pc : Pc) :
    pc.remaining budget ≤ loopTime budget := by
  have joins := le_max_left
    (1000 + budget.join + 3 * budget.write + 6 * budget.brief)
    (2300 + budget.busy + budget.send + 6 * budget.write + 7 * budget.brief)
  have sends := le_max_right
    (1000 + budget.join + 3 * budget.write + 6 * budget.brief)
    (2300 + budget.busy + budget.send + 6 * budget.write + 7 * budget.brief)
  cases pc with
  | testEnabled => exact Nat.le_refl _
  | joinLine status =>
      cases status <;> simp only [loopTime, Pc.remaining] <;> omega
  | _ =>
      simp only [loopTime, Pc.remaining]
      omega

section Steps

variable {system : System} {goal : Nat}

/-- The step at the top of the loop uses up a pass, and the others none but
for a failure to join. -/
theorem loraThread_owed (enabled : system.varEnabled = true)
    (supplied : system.pc = .dequeue → system.loraTxQueue ≠ [])
    (below : system.sent.length < goal) (ret : Int) (stack : List UInt8) :
    (loraThread system ret stack).owed goal +
        (if system.pc = .loop then 1 else 0) ≤
      system.owed goal + (if system.pc.failsToJoin ret then 1 else 0) := by
  have most := joinPass_le system.varConnected
  rw [System.owed, System.owed, loraThread_sent]
  cases here : system.pc
  all_goals simp only [loraThread, here, Pc.failsToJoin]
  case loop =>
    cases connected : system.varConnected with
    | false => simp [System.goto, Pc.owed, connected, joinPass]
    | true =>
        simp [System.goto, Pc.owed, connected, joinPass]
        omega
  case testEnabled =>
    simp [enabled, System.goto, Pc.owed]
  case testSend =>
    simp [enabled, System.goto, Pc.owed]
  case start =>
    split
    · simp [System.goto, Pc.owed]
    · simp [System.goto, Pc.owed]
  case joinLine status =>
    cases status <;> simp [System.goto, System.write, Pc.owed]
  case configure =>
    by_cases invalid : ret ≠ 0
    · simp [invalid, System.goto, Pc.owed, most]
    · simp [if_neg invalid, System.goto, Pc.owed]
  case join =>
    simp only [joinStatus]
    by_cases joined : ret = 0
    · simp [joined, System.goto, Pc.owed]
    · by_cases late : ret = -etimedout
      · simp [if_neg joined, if_pos late, System.goto, Pc.owed, most]
      · simp [if_neg joined, if_neg late, System.goto, Pc.owed, most]
  case dequeue =>
    cases queue : system.loraTxQueue with
    | nil => exact absurd queue (supplied here)
    | cons msg rest => simp [Pc.owed]
  case send msg =>
    rw [List.length_append, List.length_singleton]
    split
    · simp only [System.goto, System.remember, Pc.owed]
      simp
      omega
    · simp only [System.goto, System.remember, Pc.owed]
      simp
      omega
  case setConnected => simp [Pc.owed, joinPass]
  case clearConnected => simp [Pc.owed, joinPass]
  all_goals simp [System.goto, System.write, System.remember, Pc.owed]

/-- How long it takes, from the arrival in a place, to send this many
messages. -/
def System.due (budget : Budget) (goal : Nat) (system : System) : Nat :=
  system.pc.remaining budget + loopTime budget * system.owed goal

/-- A step has been paid for by the stay in front of it, but for a pass that a
failure to join costs. -/
theorem loraThread_due (budget : Budget)
    (registered : system.pc ≠ .giveRxCb) (enabled : system.varEnabled = true)
    (supplied : system.pc = .dequeue → system.loraTxQueue ≠ [])
    (below : system.sent.length < goal) (ret : Int) (stack : List UInt8) :
    system.pc.limit budget + (loraThread system ret stack).due budget goal ≤
      system.due budget goal +
        loopTime budget * (if system.pc.failsToJoin ret then 1 else 0) := by
  have passes := Nat.mul_le_mul_left (loopTime budget)
    (loraThread_owed enabled supplied below ret stack)
  rw [Nat.mul_add, Nat.mul_add] at passes
  rw [System.due, System.due]
  by_cases top : system.pc = .loop
  · have pass := loraThread_loop_remaining budget top ret stack
    have feeds : system.pc.limit budget = system.pc.remaining budget := by
      rw [top]
      rfl
    rw [if_pos top, Nat.mul_one] at passes
    omega
  · have stay := loraThread_remaining budget system ⟨top, registered⟩ ret
      stack
    rw [if_neg top, Nat.mul_zero] at passes
    omega

theorem step_extends {next : System} {event : Event}
    (taken : step system event = some next) :
    system.underway <+: next.underway := by
  by_cases isPush : ∃ msg, event = .push msg
  · obtain ⟨msg, rfl⟩ := isPush
    cases taken
    rw [push]
    split
    · exact ⟨[msg], List.append_assoc _ _ _⟩
    · exact List.prefix_rfl
  · have noPush : ∀ msg, event ≠ .push msg :=
      fun msg same => isPush ⟨msg, same⟩
    rw [(step_underway noPush taken).1]

end Steps

/-- Once registered, the LoRa thread leaves every place in time. -/
def KeepsUp (budget : Budget) (timed : Timed) : TimedEvent → Prop
  | .tick (.elapse ms) =>
      timed.lora.pc ≠ .giveRxCb →
        timed.clock.now + ms ≤ timed.since + timed.lora.pc.limit budget
  | _ => True

instance (budget : Budget) (timed : Timed) :
    DecidablePred (KeepsUp budget timed)
  | .tick (.elapse _) => inferInstanceAs (Decidable (_ → _))
  | .tick (.act _) => isTrue trivial
  | .tick .setup => isTrue trivial
  | .tick .callback => isTrue trivial
  | .lora _ _ => isTrue trivial
  | .beside _ => isTrue trivial

def failedJoin (timed : Timed) : TimedEvent → Nat
  | .lora ret _ => if timed.lora.pc.failsToJoin ret then 1 else 0
  | _ => 0

def failedJoins (timed : Timed) (events : List TimedEvent) : Nat :=
  total timedStep failedJoin timed events

/-- How much of the time that passes is beyond the limit of the place where
the LoRa thread stands. -/
def overtime (budget : Budget) (timed : Timed) (event : TimedEvent) : Nat :=
  timed.clock.now + elapses timed event -
      (timed.since + timed.lora.pc.limit budget) -
    (timed.clock.now - (timed.since + timed.lora.pc.limit budget))

/-- The LoRa thread is in its loop, sending is enabled, and at least this many
messages have been accepted. -/
structure Expecting (goal : Nat) (timed : Timed) : Prop where
  since : timed.since ≤ timed.clock.now
  registered : timed.lora.pc ≠ .giveRxCb
  enabled : timed.lora.varEnabled = true
  accepted : goal ≤ timed.lora.underway.length

/-- The time that is left to send this many messages, if the LoRa thread
leaves every place in time from now on. -/
def Timed.left (budget : Budget) (goal : Nat) (timed : Timed) : Nat :=
  timed.lora.due budget goal -
    min (timed.lora.pc.limit budget) (timed.clock.now - timed.since)

theorem overtime_of_still (budget : Budget) {timed : Timed}
    {event : TimedEvent} (still : elapses timed event = 0) :
    overtime budget timed event = 0 := by
  rw [overtime, still]
  omega

theorem KeepsUp.overtime {budget : Budget} {timed : Timed}
    {event : TimedEvent} (keepsUp : KeepsUp budget timed event)
    (registered : timed.lora.pc ≠ .giveRxCb) :
    Lora.overtime budget timed event = 0 := by
  cases event with
  | tick tick =>
      cases tick with
      | elapse ms =>
          have inTime := keepsUp registered
          simp only [Lora.overtime, elapses, Tick.ms]
          omega
      | _ => exact overtime_of_still budget rfl
  | _ => exact overtime_of_still budget rfl

section Expecting

variable {budget : Budget} {goal : Nat} {timed next : Timed}
  {event : TimedEvent}

theorem timedStep_extends
    (taken : timedStep timed event = some next) :
    timed.lora.underway <+: next.lora.underway := by
  rcases timedStep_cases taken with
    ⟨tick, clock, rfl, _, _, rfl⟩ | ⟨ret, stack, clock, rfl, _, rfl⟩ |
      ⟨inner, lora, rfl, _, stepped, rfl⟩
  · exact List.prefix_rfl
  · rw [(loraThread_underway timed.lora ret stack).1]
  · exact step_extends stepped

theorem timedStep_since (since : timed.since ≤ timed.clock.now)
    (taken : timedStep timed event = some next) :
    next.since ≤ next.clock.now := by
  have now := timedStep_now taken
  rcases timedStep_cases taken with
    ⟨tick, clock, rfl, _, _, rfl⟩ | ⟨ret, stack, clock, rfl, _, rfl⟩ |
      ⟨inner, lora, rfl, _, _, rfl⟩
  · dsimp only at now ⊢
    omega
  · exact Nat.le_of_eq now.symm
  · exact since

theorem reached_since {events : List TimedEvent}
    (reached : execute timedStep Timed.boot events = some timed) :
    timed.since ≤ timed.clock.now :=
  execute_invariant (fun timed => timed.since ≤ timed.clock.now)
    (Nat.le_refl 0) (fun _ _ _ since _ taken => timedStep_since since taken)
    (meets_true Timed.boot events) reached

theorem Expecting.step (expecting : Expecting goal timed)
    (stays : event ≠ .beside (.setEnabled false))
    (taken : timedStep timed event = some next) : Expecting goal next := by
  have since := timedStep_since expecting.since taken
  have accepted := expecting.accepted.trans
    (timedStep_extends taken).length_le
  rcases timedStep_cases taken with
    ⟨tick, clock, rfl, _, _, rfl⟩ | ⟨ret, stack, clock, rfl, _, rfl⟩ |
      ⟨inner, lora, rfl, notLora, stepped, rfl⟩
  · exact ⟨since, expecting.registered, expecting.enabled, accepted⟩
  · exact ⟨since, loraThread_registered timed.lora ret stack,
      (loraThread_varEnabled timed.lora ret stack).trans expecting.enabled,
      accepted⟩
  · obtain ⟨pc, _⟩ := step_flags_beside notLora stepped
    obtain ⟨_, _, kept⟩ := step_same_distance notLora stepped goal
    refine ⟨since, ?_, ?_, accepted⟩
    · dsimp only
      rw [pc]
      exact expecting.registered
    · exact kept (fun same => stays (by rw [same])) expecting.enabled

theorem limit_le_due (registered : timed.lora.pc ≠ .giveRxCb) :
    timed.lora.pc.limit budget ≤ timed.lora.due budget goal :=
  (limit_le_remaining budget registered).trans (Nat.le_add_right _ _)

/-- While messages wait, time passes at the cost of the time that is left, but
for what is beyond the limits. -/
theorem Expecting.pays (expecting : Expecting goal timed)
    (below : timed.lora.sent.length < goal)
    (taken : timedStep timed event = some next) :
    elapses timed event + next.left budget goal ≤
      timed.left budget goal +
        (loopTime budget * failedJoin timed event +
          overtime budget timed event) := by
  have since := expecting.since
  have stay : timed.lora.pc.limit budget ≤ timed.lora.due budget goal :=
    limit_le_due expecting.registered
  rcases timedStep_cases taken with
    ⟨tick, clock, rfl, _, ticked, rfl⟩ |
      ⟨ret, stack, clock, rfl, ticked, rfl⟩ |
        ⟨inner, lora, rfl, notLora, stepped, rfl⟩
  · have now := clockStep_now ticked
    simp only [Timed.left, overtime, elapses, failedJoin] at stay ⊢
    omega
  · have now := clockStep_now ticked
    rw [tick_ms, Nat.add_zero] at now
    have supplied : timed.lora.pc = .dequeue →
        timed.lora.loraTxQueue ≠ [] := by
      intro atDequeue empty
      have accepted := expecting.accepted
      rw [System.underway, atDequeue, empty] at accepted
      simp only [Pc.inFlight, List.append_nil] at accepted
      omega
    have paid := loraThread_due budget expecting.registered
      expecting.enabled supplied below ret stack
    simp only [Timed.left, elapses, failedJoin, now, Nat.sub_self]
    omega
  · obtain ⟨pc, connected⟩ := step_flags_beside notLora stepped
    obtain ⟨_, sent, _⟩ := step_same_distance notLora stepped goal
    simp only [Timed.left, elapses, System.due, System.owed, pc, connected,
      sent]
    omega

theorem Expecting.pays_inTime (expecting : Expecting goal timed)
    (below : timed.lora.sent.length < goal)
    (keepsUp : KeepsUp budget timed event)
    (taken : timedStep timed event = some next) :
    elapses timed event + next.left budget goal ≤
      timed.left budget goal + loopTime budget * failedJoin timed event := by
  have paid : elapses timed event + next.left budget goal ≤
      timed.left budget goal +
        (loopTime budget * failedJoin timed event +
          overtime budget timed event) :=
    expecting.pays below taken
  rwa [keepsUp.overtime expecting.registered, Nat.add_zero] at paid

theorem timedStep_sent_le (taken : timedStep timed event = some next) :
    timed.lora.sent.length ≤ next.lora.sent.length := by
  rcases timedStep_cases taken with
    ⟨tick, clock, rfl, _, _, rfl⟩ | ⟨ret, stack, clock, rfl, _, rfl⟩ |
      ⟨inner, lora, rfl, notLora, stepped, rfl⟩
  · exact Nat.le_refl _
  · dsimp only
    rw [loraThread_sent]
    split
    · simp
    · exact Nat.le_refl _
  · obtain ⟨_, sent, _⟩ := step_same_distance notLora stepped 0
    exact Nat.le_of_eq (congrArg List.length sent.symm)

/-- At most the pass under way, one to join and one for each message. -/
theorem Timed.left_le (budget : Budget) (timed : Timed) :
    timed.left budget timed.lora.underway.length ≤
      (timed.lora.waiting.length + 2) * loopTime budget := by
  have pass := timed.lora.pc.remaining_le_loopTime budget
  have waiting : timed.lora.underway.length - timed.lora.sent.length =
      timed.lora.waiting.length := by
    rw [System.underway_length]
    omega
  have owed : timed.lora.owed timed.lora.underway.length ≤
      timed.lora.waiting.length + 1 := by
    rw [System.owed, waiting]
    exact timed.lora.pc.owed_le _ _
  have passes := Nat.mul_le_mul_left (loopTime budget) owed
  rw [Nat.mul_comm _ (timed.lora.waiting.length + 1)] at passes
  rw [Timed.left, System.due, Nat.succ_mul]
  omega

end Expecting

/-- Once the LoRa thread has registered, while sending stays enabled and the
thread is on time, every message that has been accepted is handed to the radio,
in order, within one pass of the loop for each message that waits, two more,
and one for every failed attempt to join. -/
theorem waiting_sent_in_time (budget : Budget)
    (events later : List TimedEvent) (timed final : Timed)
    (reached : execute timedStep Timed.boot events = some timed)
    (continued : execute timedStep timed later = some final)
    (keepsUp : Meets timedStep (KeepsUp budget) Timed.boot
      (events ++ later))
    (registered : timed.lora.pc ≠ .giveRxCb)
    (enabled : timed.lora.varEnabled = true)
    (stays : ∀ event ∈ later, event ≠ .beside (.setEnabled false))
    (late : timed.clock.now +
        (timed.lora.waiting.length + 2 + failedJoins timed later) *
          loopTime budget <
      final.clock.now) :
    timed.lora.underway <+: final.lora.sent := by
  obtain ⟨_, keepsUp⟩ := (meets_append _ _ _).mp keepsUp
  have expecting : Expecting timed.lora.underway.length timed :=
    ⟨reached_since reached, registered, enabled, Nat.le_refl _⟩
  have calm := meets_and (keepsUp timed reached)
    (meets_of_forall stays timed)
  have earlier : timed.lora.underway <+: final.lora.underway :=
    execute_invariant
      (fun after => timed.lora.underway <+: after.lora.underway)
      List.prefix_rfl
      (fun _ _ _ soFar _ taken =>
        soFar.trans (timedStep_extends taken))
      (meets_true timed later) continued
  by_cases isSent : timed.lora.underway.length ≤ final.lora.sent.length
  · exact System.sent_of_underway earlier isSent
  · -- Otherwise the whole time has been paid for, and it is too long.
    have growing := (meets_le_final
      (fun _ _ _ taken => timedStep_sent_le taken) continued).2
    have paid :
        total timedStep elapses timed later +
            final.left budget timed.lora.underway.length ≤
          timed.left budget timed.lora.underway.length +
            total timedStep
              (fun timed event => loopTime budget * failedJoin timed event)
              timed later :=
      total_le expecting
        (fun _ _ _ holds here taken => holds.step here.1.2 taken)
        (fun _ _ _ holds here taken => holds.pays_inTime
          (Nat.lt_of_le_of_lt here.2 (Nat.lt_of_not_le isSent))
          here.1.1 taken)
        (meets_and calm growing) continued
    have passed := execute_timedStep_now continued
    have start := timed.left_le budget
    rw [total_mul] at paid
    rw [Nat.add_mul, failedJoins, Nat.mul_comm (total _ _ _ _)] at late
    omega

def idlePass : List TimedEvent :=
  [.lora 0 [], .lora 0 [], .tick (.elapse 1000), .lora 0 [], .lora 0 []]

def acceptsEarly : List TimedEvent :=
  [.beside (.setEnabled true), .beside (.push loratestMessage), .lora 0 []]

/-- The device joins, waits ten seconds for `sem_tx_busy`, sends the message
and goes on for another 36 seconds. -/
def joinsSendsIdles : List TimedEvent :=
  [List.replicate 9 (.lora 0 []), [.tick (.elapse 1000)],
    List.replicate 3 (.lora 0 []), [.tick (.elapse 1000)],
    List.replicate 2 (.lora 0 []), [.tick (.elapse 10000)],
    List.replicate 5 (.lora 0 []),
    (List.replicate 36 idlePass).flatten].flatten

theorem acceptsEarly_sent : ∃ timed final,
    execute timedStep Timed.boot acceptsEarly = some timed ∧
      execute timedStep timed joinsSendsIdles = some final ∧
        timed.lora.underway <+: final.lora.sent := by
  have runs : (execute timedStep Timed.boot acceptsEarly).any (fun timed =>
      (execute timedStep timed joinsSendsIdles).any fun final =>
        decide (timed.lora.pc ≠ .giveRxCb) && timed.lora.varEnabled &&
          decide (timed.clock.now +
              (timed.lora.waiting.length + 2 +
                failedJoins timed joinsSendsIdles) * loopTime slowRadio <
            final.clock.now)) = true := by
    decide +kernel
  obtain ⟨timed, reached, holds⟩ := (Option.any_eq_true _ _).mp runs
  obtain ⟨final, continued, holds⟩ := (Option.any_eq_true _ _).mp holds
  simp only [Bool.and_eq_true, decide_eq_true_eq] at holds
  obtain ⟨⟨registered, enabled⟩, late⟩ := holds
  exact ⟨timed, final, reached, continued,
    waiting_sent_in_time slowRadio acceptsEarly joinsSendsIdles timed final
      reached continued (by decide +kernel) registered enabled
      (by decide +kernel) late⟩

end LoraIot.Lora
