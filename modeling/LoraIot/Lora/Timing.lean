import LoraIot.Foundations.Potentials
import LoraIot.Lora.Task
import LoraIot.Wdt.Clock

/-!
# The LoRa thread and the watchdog's patience

`lora_thread` feeds the watchdog at the top of its loop and waits in many
places below it: for a second between two passes, for ten seconds for
`sem_tx_busy`, for the LED queue, and for the LoRaWAN stack and the UART as
long as these take.  `Pc.limit` is how long it may stay in one place and
`Pc.remaining` how far it is from its next feed, so that one pass of the loop
takes no longer than `loopTime`.  When that fits into the watchdog's period,
and the other threads and `wdt_thread` are on time, a busy radio never resets
the device.
-/

namespace LoraIot.Lora

open LoraIot.CStrings LoraIot.Potentials LoraIot.Runs LoraIot.Wdt

/-- What the steps without a time-out of their own take at most, in
milliseconds. -/
structure Budget where
  /-- Reading a flag, a semaphore, the queue, or setting up the stack. -/
  brief : Nat
  /-- One call of `uart_send`. -/
  write : Nat
  /-- Waiting for a permit of `sem_tx_busy`, if it comes before the time-out
  of ten seconds. -/
  permit : Nat
  /-- `lorawan_join` -/
  join : Nat
  /-- `lorawan_send` -/
  send : Nat
  deriving DecidableEq, Repr

def Budget.busy (budget : Budget) : Nat := min 10000 budget.permit

/-- How long the LoRa thread stays in a place. -/
def Pc.limit (budget : Budget) : Pc → Nat
  | .joinSleep => 1000 + budget.brief
  | .sendSleep => 1000 + budget.brief
  | .idleSleep => 1000 + budget.brief
  | .takeTxBusy _ => budget.busy + budget.brief
  -- The message to the LED queue waits for up to 100 ms.
  | .sendHead _ => 100 + budget.write
  | .failSleep => 100 + 1000 + 100 + budget.brief
  | .joinLine _ => budget.write
  | .sendPayload _ => budget.write
  | .sendClose _ => budget.write
  | .failHead _ => budget.write
  | .failStatus _ => budget.write
  | .failClose => budget.write
  | .join => budget.join
  | .send _ => budget.send
  | _ => budget.brief

/-- How long it takes from the arrival in a place to the next feed. -/
def Pc.remaining (budget : Budget) : Pc → Nat
  | .loop => budget.brief
  | .failSleep => 1200 + 2 * budget.brief
  | .failClose => 1200 + budget.write + 2 * budget.brief
  | .failStatus _ => 1200 + 2 * budget.write + 2 * budget.brief
  | .failHead _ => 1200 + 3 * budget.write + 2 * budget.brief
  | .send _ => 1200 + budget.send + 3 * budget.write + 2 * budget.brief
  | .sendClose _ => 1200 + budget.send + 4 * budget.write + 2 * budget.brief
  | .sendPayload _ =>
      1200 + budget.send + 5 * budget.write + 2 * budget.brief
  | .sendHead _ => 1300 + budget.send + 6 * budget.write + 2 * budget.brief
  | .takeTxBusy _ =>
      1300 + budget.busy + budget.send + 6 * budget.write + 3 * budget.brief
  | .dequeue =>
      1300 + budget.busy + budget.send + 6 * budget.write + 4 * budget.brief
  | .sendSleep =>
      2300 + budget.busy + budget.send + 6 * budget.write + 5 * budget.brief
  | .testSend =>
      2300 + budget.busy + budget.send + 6 * budget.write + 6 * budget.brief
  | .joinSleep => 1000 + 2 * budget.brief
  | .setConnected => 1000 + 3 * budget.brief
  | .joinLine .complete => 1000 + budget.write + 3 * budget.brief
  | .join => 1000 + budget.join + budget.write + 3 * budget.brief
  | .joinLine .send =>
      1000 + budget.join + 2 * budget.write + 3 * budget.brief
  | .configure => 1000 + budget.join + 2 * budget.write + 4 * budget.brief
  | .joinLine .start =>
      1000 + budget.join + 3 * budget.write + 4 * budget.brief
  | .start => 1000 + budget.join + 3 * budget.write + 5 * budget.brief
  | .joinLine _ => 1000 + budget.write + 2 * budget.brief
  | .testEnabled =>
      max (1000 + budget.join + 3 * budget.write + 6 * budget.brief)
        (2300 + budget.busy + budget.send + 6 * budget.write +
          7 * budget.brief)
  | .idleSleep => 1000 + 2 * budget.brief
  | .clearConnected => 1000 + 3 * budget.brief
  | .giveRxCb => 0

/-- The longest pass of the loop, from one feed to the next. -/
def loopTime (budget : Budget) : Nat := Pc.testEnabled.remaining budget

/-- Staying in a place as long as allowed and going on leaves enough time for
the rest of the loop. -/
theorem loraThread_remaining (budget : Budget) (system : System)
    (inLoop : system.pc ≠ .loop ∧ system.pc ≠ .giveRxCb) (ret : Int)
    (stack : List UInt8) :
    system.pc.limit budget +
        (loraThread system ret stack).pc.remaining budget ≤
      system.pc.remaining budget := by
  cases here : system.pc
  all_goals simp only [loraThread, here]
  case loop => exact absurd here inLoop.1
  case giveRxCb => exact absurd here inLoop.2
  case testEnabled =>
    split
    · simp only [System.goto_pc, Pc.limit, Pc.remaining]
      omega
    · simp only [System.goto_pc, Pc.limit, Pc.remaining]
      omega
  case testSend =>
    split
    · simp only [System.goto_pc, Pc.limit, Pc.remaining]
      omega
    · simp only [System.goto_pc, Pc.limit, Pc.remaining]
      omega
  case start =>
    split
    · simp only [System.goto_pc, Pc.limit, Pc.remaining]
      omega
    · simp only [System.goto_pc, Pc.limit, Pc.remaining]
      omega
  case joinLine status =>
    cases status <;> simp only [System.goto_pc, Pc.limit, Pc.remaining] <;>
      omega
  case configure =>
    split
    · simp only [System.goto_pc, Pc.limit, Pc.remaining]
      omega
    · simp only [System.goto_pc, Pc.limit, Pc.remaining]
      omega
  case join =>
    rw [joinStatus]
    split
    · simp only [System.goto_pc, Pc.limit, Pc.remaining]
      omega
    · split
      · simp only [System.goto_pc, Pc.limit, Pc.remaining]
        omega
      · simp only [System.goto_pc, Pc.limit, Pc.remaining]
        omega
  case dequeue =>
    split
    · simp only [System.goto_pc, Pc.limit, Pc.remaining]
      omega
    · simp only [Pc.limit, Pc.remaining]
      omega
  case send msg =>
    split
    · simp only [System.goto_pc, Pc.limit, Pc.remaining]
      omega
    · simp only [System.goto_pc, Pc.limit, Pc.remaining]
      omega
  all_goals
    simp only [System.goto_pc, System.remember_pc, Pc.limit, Pc.remaining]
    omega

theorem loraThread_registered (system : System) (ret : Int)
    (stack : List UInt8) :
    (loraThread system ret stack).pc ≠ .giveRxCb := by
  cases here : system.pc
  all_goals simp only [loraThread, here]
  case joinLine status => cases status <;> exact fun same => by cases same
  case join =>
    rw [System.goto_pc]
    exact fun same => by cases same
  all_goals
    first
    | exact fun same => by cases same
    | (split <;> exact fun same => by cases same)

theorem step_flags_beside {system next : System} {event : Event}
    (notLora : ∀ ret stack, event ≠ .lora ret stack)
    (taken : step system event = some next) :
    next.pc = system.pc ∧ next.varConnected = system.varConnected := by
  by_cases isSet : ∃ enabled, event = .setEnabled enabled
  · obtain ⟨enabled, rfl⟩ := isSet
    cases taken
    exact ⟨rfl, rfl⟩
  · obtain ⟨pc, connected, _⟩ := step_flags_of_other notLora
      (fun enabled same => isSet ⟨enabled, same⟩) taken
    exact ⟨pc, connected⟩

theorem limit_le_remaining (budget : Budget) {pc : Pc}
    (registered : pc ≠ .giveRxCb) :
    pc.limit budget ≤ pc.remaining budget := by
  cases pc with
  | giveRxCb => exact absurd rfl registered
  | testEnabled => exact le_max_of_le_left (by simp only [Pc.limit]; omega)
  | joinLine status =>
      cases status <;> simp only [Pc.limit, Pc.remaining] <;> omega
  | _ =>
      simp only [Pc.limit, Pc.remaining]
      omega

theorem loraThread_loop_remaining (budget : Budget) {system : System}
    (top : system.pc = .loop) (ret : Int) (stack : List UInt8) :
    (loraThread system ret stack).pc.remaining budget ≤
      loopTime budget := by
  simp only [loraThread, top, System.goto_pc, loopTime]
  split
  · exact le_max_of_le_right (by simp only [Pc.remaining]; omega)
  · exact Nat.le_refl _

/-! ## The LoRa thread beside the watchdog -/

structure Timed where
  clock : Clock
  lora : System
  /-- When the LoRa thread arrived where it stands. -/
  since : Nat

def Timed.boot : Timed where
  clock := Clock.boot
  lora := Lora.boot
  since := 0

inductive TimedEvent where
  /-- Time, the hardware, `wdt_thread` and the other threads it watches. -/
  | tick (tick : Tick)
  | lora (ret : Int) (stack : List UInt8)
  /-- The two callbacks and the callers of `lora_push`. -/
  | beside (event : Event)
  deriving DecidableEq, Repr

def elapses (_timed : Timed) : TimedEvent → Nat
  | .tick inner => inner.ms
  | _ => 0

/-- What a step of the LoRa thread is to the watchdog. -/
def Pc.tick : Pc → Tick
  | .giveRxCb => .act (.register .loraThread)
  | .loop => .act (.feed .loraThread)
  | _ => .elapse 0

theorem tick_ms (pc : Pc) : pc.tick.ms = 0 := by cases pc <;> rfl

def Pc.takesTxBusy : Pc → Bool
  | .takeTxBusy _ => true
  | _ => false

/-- `k_sem_take` on `sem_tx_busy` returns with a permit, or after ten seconds
without one. -/
def Timed.Returns (timed : Timed) : Prop :=
  timed.lora.pc.takesTxBusy = true →
    0 < timed.lora.semTxBusy ∨ timed.since + 10000 ≤ timed.clock.now

instance (timed : Timed) : Decidable timed.Returns :=
  inferInstanceAs (Decidable (_ → _))

def timedStep (timed : Timed) : TimedEvent → Option Timed
  | .tick tick =>
      if tick = .act (.register .loraThread) ∨
          tick = .act (.feed .loraThread) then
        none
      else
        (clockStep timed.clock tick).map fun clock =>
          { timed with clock := clock }
  | .lora ret stack =>
      if timed.Returns then
        (clockStep timed.clock timed.lora.pc.tick).map fun clock =>
          { clock := clock
            lora := loraThread timed.lora ret stack
            since := timed.clock.now }
      else
        none
  | .beside (.lora _ _) => none
  | .beside event =>
      (step timed.lora event).map fun lora => { timed with lora := lora }

/-- A step is one of the clock, which leaves the LoRa thread alone, one of the
LoRa thread, or one beside it, which takes no time. -/
theorem timedStep_cases {timed next : Timed} {event : TimedEvent}
    (taken : timedStep timed event = some next) :
    (∃ tick clock, event = .tick tick ∧
        (tick ≠ .act (.register .loraThread) ∧
          tick ≠ .act (.feed .loraThread)) ∧
        clockStep timed.clock tick = some clock ∧
        next = { timed with clock := clock }) ∨
      (∃ ret stack clock, event = .lora ret stack ∧
        clockStep timed.clock timed.lora.pc.tick = some clock ∧
        next =
          { clock := clock
            lora := loraThread timed.lora ret stack
            since := timed.clock.now }) ∨
      ∃ inner lora, event = .beside inner ∧
        (∀ ret stack, inner ≠ .lora ret stack) ∧
        step timed.lora inner = some lora ∧
        next = { timed with lora := lora } := by
  cases event with
  | tick tick =>
      simp only [timedStep] at taken
      split at taken
      · cases taken
      · rename_i other
        obtain ⟨clock, ticked, rfl⟩ := Option.map_eq_some_iff.mp taken
        exact Or.inl ⟨tick, clock, rfl, not_or.mp other, ticked, rfl⟩
  | lora ret stack =>
      simp only [timedStep] at taken
      split at taken
      · obtain ⟨clock, ticked, rfl⟩ := Option.map_eq_some_iff.mp taken
        exact Or.inr (Or.inl ⟨ret, stack, clock, rfl, ticked, rfl⟩)
      · cases taken
  | beside inner =>
      have stepped : (∀ ret stack, inner ≠ .lora ret stack) ∧
          (step timed.lora inner).map
            (fun lora => { timed with lora := lora }) = some next := by
        cases inner with
        | lora ret stack => cases taken
        | _ => exact ⟨by simp, taken⟩
      obtain ⟨lora, goesOn, rfl⟩ := Option.map_eq_some_iff.mp stepped.2
      exact Or.inr (Or.inr ⟨inner, lora, rfl, stepped.1, goesOn, rfl⟩)

theorem timedStep_now {timed next : Timed} {event : TimedEvent}
    (taken : timedStep timed event = some next) :
    next.clock.now = timed.clock.now + elapses timed event := by
  rcases timedStep_cases taken with
    ⟨tick, clock, rfl, _, ticked, rfl⟩ |
      ⟨ret, stack, clock, rfl, ticked, rfl⟩ | ⟨inner, lora, rfl, _, _, rfl⟩
  · exact clockStep_now ticked
  · have now := clockStep_now ticked
    rw [tick_ms] at now
    exact now
  · rfl

theorem execute_timedStep_now {timed final : Timed}
    {events : List TimedEvent}
    (continued : execute timedStep timed events = some final) :
    final.clock.now =
      timed.clock.now + total timedStep elapses timed events :=
  add_total (fun _ _ _ taken => timedStep_now taken) continued

/-- `wdt_thread` and the LoRa thread are on time, the other running threads
feed within the period, and `wdt_thread` does not look between the LoRa
thread's registration and its first feed. -/
def Timely (budget : Budget) (latency period : Nat) (timed : Timed) :
    TimedEvent → Prop
  | .tick (.elapse ms) =>
      (timed.clock.armed = true →
          timed.clock.now + ms ≤ timed.clock.wake + latency) ∧
        (timed.lora.pc ≠ .giveRxCb →
          timed.clock.now + ms ≤
            timed.since + timed.lora.pc.limit budget)
  | .tick (.act .iterate) =>
      (∀ task, task ≠ .loraThread →
          (timed.clock.firmware.place task).isRunning = true →
            timed.clock.FedWithin period task) ∧
        (timed.lora.pc ≠ .giveRxCb →
          (timed.clock.fedAt .loraThread).isSome = true)
  | _ => True

instance (budget : Budget) (latency period : Nat) (timed : Timed) :
    DecidablePred (Timely budget latency period timed)
  | .tick (.elapse _) => inferInstanceAs (Decidable (_ ∧ _))
  | .tick (.act .iterate) =>
      inferInstanceAs (Decidable ((∀ _ : Task, _ → _ → _) ∧ _))
  | .tick (.act (.giveUp _)) => isTrue trivial
  | .tick (.act (.register _)) => isTrue trivial
  | .tick (.act (.feed _)) => isTrue trivial
  | .tick .setup => isTrue trivial
  | .tick .callback => isTrue trivial
  | .lora _ _ => isTrue trivial
  | .beside _ => isTrue trivial

structure Punctual (budget : Budget) (timed : Timed) : Prop where
  inTime : timed.lora.pc ≠ .giveRxCb →
    timed.clock.now ≤ timed.since + timed.lora.pc.limit budget
  outside : timed.lora.pc = .giveRxCb →
    (timed.clock.firmware.place .loraThread).isRunning = false
  fed : timed.lora.pc ≠ .giveRxCb →
    (timed.lora.pc = .loop ∧ timed.clock.fedAt .loraThread = none) ∨
      ∃ fed, timed.clock.fedAt .loraThread = some fed ∧
        timed.since + timed.lora.pc.remaining budget ≤
          fed + loopTime budget

section Punctual

variable {budget : Budget} {latency period : Nat} {timed next : Timed}

theorem boot_punctual (budget : Budget) : Punctual budget Timed.boot where
  inTime registered := absurd rfl registered
  outside _ := rfl
  fed registered := absurd rfl registered

/-- While its pass of the loop fits into the period, the LoRa thread is one of
the threads that feed often enough. -/
theorem Punctual.healthy (punctual : Punctual budget timed)
    (fits : loopTime budget < period) {tick : Tick}
    (timely : Timely budget latency period timed (.tick tick)) :
    Healthy latency period timed.clock tick := by
  cases tick with
  | elapse ms => exact timely.1
  | act progress =>
      cases progress with
      | iterate =>
          intro task running
          by_cases isLora : task = .loraThread
          · subst isLora
            have registered : timed.lora.pc ≠ .giveRxCb := by
              intro outside
              rw [punctual.outside outside] at running
              cases running
            have hasFed := timely.2 registered
            obtain ⟨_, notFed⟩ | ⟨fed, fedAt, onTime⟩ :=
              punctual.fed registered
            · rw [notFed] at hasFed
              cases hasFed
            · have inTime := punctual.inTime registered
              have limit := limit_le_remaining budget registered
              exact ⟨fed, fedAt, by omega⟩
          · exact timely.1 task isLora running
      | _ => trivial
  | _ => trivial

theorem Punctual.tick (punctual : Punctual budget timed) {tick : Tick}
    (timely : Timely budget latency period timed (.tick tick))
    (notRegister : tick ≠ .act (.register .loraThread))
    (notFeed : tick ≠ .act (.feed .loraThread)) {clock : Clock}
    (taken : clockStep timed.clock tick = some clock) :
    Punctual budget { timed with clock := clock } := by
  obtain ⟨fedAt, running⟩ := clockStep_other notRegister notFeed taken
  have now := clockStep_now taken
  refine ⟨fun registered => ?_, fun outside => ?_, fun registered => ?_⟩
  · have inTime := punctual.inTime registered
    dsimp only
    rw [now]
    cases tick with
    | elapse ms => exact timely.2 registered
    | _ => exact inTime
  · by_contra runs
    rw [Bool.not_eq_false] at runs
    have ran := running runs
    rw [punctual.outside outside] at ran
    cases ran
  · rw [fedAt]
    exact punctual.fed registered

theorem Punctual.lora (punctual : Punctual budget timed) {ret : Int}
    {stack : List UInt8} {clock : Clock}
    (taken : clockStep timed.clock timed.lora.pc.tick = some clock) :
    Punctual budget
      { clock := clock
        lora := loraThread timed.lora ret stack
        since := timed.clock.now } := by
  have now := clockStep_now taken
  rw [tick_ms, Nat.add_zero] at now
  have goesOn : (loraThread timed.lora ret stack).pc ≠ .giveRxCb :=
    loraThread_registered timed.lora ret stack
  refine ⟨fun _ => ?_, fun outside => absurd outside goesOn, fun _ => ?_⟩
  · dsimp only
    rw [now]
    exact Nat.le_add_right _ _
  · dsimp only
    by_cases outside : timed.lora.pc = .giveRxCb
    · rw [outside] at taken
      exact Or.inl ⟨by rw [loraThread, outside],
        clockStep_register_fedAt taken⟩
    · by_cases top : timed.lora.pc = .loop
      · rw [top] at taken
        refine Or.inr ⟨_, clockStep_feed_fedAt taken, ?_⟩
        exact Nat.add_le_add_left
          (loraThread_loop_remaining budget top ret stack) _
      · have inTime := punctual.inTime outside
        have rest :=
          loraThread_remaining budget timed.lora ⟨top, outside⟩ ret stack
        obtain ⟨atTop, _⟩ | ⟨fed, fedAt, onTime⟩ := punctual.fed outside
        · exact absurd atTop top
        · have isElapse : timed.lora.pc.tick = .elapse 0 := by
            cases here : timed.lora.pc with
            | giveRxCb => exact absurd here outside
            | loop => exact absurd here top
            | _ => rfl
          rw [isElapse] at taken
          have sameFed : clock.fedAt .loraThread =
              timed.clock.fedAt .loraThread :=
            (clockStep_other (by decide) (by decide) taken).1
          refine Or.inr ⟨fed, by rw [sameFed, fedAt], ?_⟩
          omega

theorem timedStep_keeps (small : longest period + latency < wdtTimeoutMs)
    (fits : loopTime budget < period)
    (onTime : OnTime latency period timed.clock)
    (punctual : Punctual budget timed) {event : TimedEvent}
    (timely : Timely budget latency period timed event)
    (taken : timedStep timed event = some next) :
    OnTime latency period next.clock ∧ Punctual budget next := by
  rcases timedStep_cases taken with
    ⟨tick, clock, rfl, other, ticked, rfl⟩ |
      ⟨ret, stack, clock, rfl, ticked, rfl⟩ |
        ⟨inner, lora, rfl, notLora, stepped, rfl⟩
  · exact ⟨onTime.step small (punctual.healthy fits timely) ticked,
      punctual.tick timely other.1 other.2 ticked⟩
  · refine ⟨onTime.step small ?_ ticked, punctual.lora ticked⟩
    cases timed.lora.pc with
    | giveRxCb => trivial
    | loop => trivial
    | _ => exact onTime.prompt
  · obtain ⟨pc, _⟩ := step_flags_beside notLora stepped
    exact ⟨onTime, by simpa only [pc] using punctual.inTime,
      by simpa only [pc] using punctual.outside,
      by simpa only [pc] using punctual.fed⟩

end Punctual

/-- As long as the stack and the UART answer within the budget, so that one
pass of the LoRa thread's loop, with its sleeps, its wait for `sem_tx_busy` and
a failed transmission, fits into the period, and as long as `wdt_thread` and the
other watched threads are on time, the watchdog does not reset the device. -/
theorem punctual_never_expires (budget : Budget) (latency period : Nat)
    (small : longest period + latency < wdtTimeoutMs)
    (fits : loopTime budget < period) (events : List TimedEvent)
    (timely : Meets timedStep (Timely budget latency period) Timed.boot
      events) :
    Visits timedStep (fun timed => ¬ timed.clock.Expired) Timed.boot
      events := by
  have kept : ∀ timed event next,
      OnTime latency period timed.clock ∧ Punctual budget timed →
        Timely budget latency period timed event →
          timedStep timed event = some next →
            OnTime latency period next.clock ∧ Punctual budget next :=
    fun _ _ _ holds here taken =>
      timedStep_keeps small fits holds.1 holds.2 here taken
  exact visits_of_invariant
    ⟨boot_onTime latency period, boot_punctual budget⟩ kept
    (fun _ holds => holds.1.not_expired small) timely

def loratestMessage : LoraTxMessage :=
  ⟨ascii "TEST", by decide, by decide⟩

/-- A join takes up to eight seconds, a transmission up to three, and no
permit ever comes. -/
def slowRadio : Budget where
  brief := 10
  write := 100
  permit := 10000
  join := 8000
  send := 3000

/-- The device joins within eight seconds, and its first message waits ten
seconds for a permit of `sem_tx_busy` that nobody has given. -/
def joinsSlowly : List TimedEvent :=
  [.tick (.act (.giveUp .btThread)), .tick (.act (.giveUp .uartThread)),
    .beside (.setEnabled true),
    .beside (.push loratestMessage),
    .lora 0 [], .lora 0 [], .tick .setup, .tick (.act .iterate),
    .lora 0 [], .lora 0 [], .lora 0 [], .lora 0 [], .lora 0 [],
    .tick (.elapse 8000), .lora 0 [], .lora 0 [], .lora 0 [],
    .tick (.elapse 1000), .lora 0 [], .lora 0 [], .lora 0 [],
    .tick (.elapse 1000), .tick (.act .iterate), .lora 0 [], .lora 0 [],
    .tick (.elapse 10000), .tick (.act .iterate), .lora 0 []]

theorem joinsSlowly_never_expires :
    Visits timedStep (fun timed => ¬ timed.clock.Expired) Timed.boot
      joinsSlowly :=
  punctual_never_expires slowRadio 2000 15971 (by decide) (by decide)
    joinsSlowly (by decide)

end LoraIot.Lora
