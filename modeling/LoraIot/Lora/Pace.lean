import LoraIot.Foundations.Potentials
import LoraIot.Lora.Timing

/-!
# How often the LoRa thread uses the radio

Every pass of the loop that joins or sends also sleeps for a second, after the
join and before the transmission, and a refused transmission is followed by a
second of its own.  So the LoRa thread calls the radio about once a second,
however the queue is filled, the flags are switched and the stack answers.
-/

namespace LoraIot.Lora

open LoraIot.Potentials LoraIot.Runs LoraIot.Wdt

/-- The LoRa thread stands in `k_sleep`. -/
def Pc.sleeps : Pc → Bool
  | .joinSleep => true
  | .sendSleep => true
  | .failSleep => true
  | .idleSleep => true
  | _ => false

/-- `k_sleep` does not return early. -/
def SleepsLong (timed : Timed) : TimedEvent → Prop
  | .lora _ _ =>
      timed.lora.pc.sleeps = true → timed.since + 1000 ≤ timed.clock.now
  | _ => True

instance (timed : Timed) : DecidablePred (SleepsLong timed)
  | .lora _ _ => inferInstanceAs (Decidable (_ → _))
  | .tick _ => isTrue trivial
  | .beside _ => isTrue trivial

/-- The time that the LoRa thread has slept, but did not have to for what it
has called so far. -/
def saved (pc : Pc) (asleep : Nat) : Nat :=
  match pc with
  | .joinLine .complete => 0
  | .joinLine .timeout => 0
  | .joinLine .rejected => 0
  | .setConnected => 0
  | .joinSleep => min 1000 asleep
  | .sendSleep => 1000 + min 1000 asleep
  | .dequeue => 2000
  | .takeTxBusy _ => 2000
  | .sendHead _ => 2000
  | .sendPayload _ => 2000
  | .sendClose _ => 2000
  | .send _ => 2000
  | .failHead _ => 0
  | .failStatus _ => 0
  | .failClose => 0
  | .failSleep => min 1000 asleep
  | _ => 1000

def Timed.saved (timed : Timed) : Nat :=
  Lora.saved timed.lora.pc (timed.clock.now - timed.since)

theorem saved_le (pc : Pc) (asleep : Nat) : saved pc asleep ≤ 2000 := by
  cases pc with
  | joinLine status => cases status <;> simp [saved]
  | joinSleep | sendSleep | failSleep =>
      simp only [saved]
      omega
  | _ => simp [saved]

theorem saved_add (pc : Pc) {asleep longer ms : Nat}
    (later : longer ≤ asleep + ms) :
    saved pc longer ≤ saved pc asleep + ms := by
  cases pc with
  | joinLine status => cases status <;> simp [saved]
  | joinSleep | sendSleep | failSleep =>
      simp only [saved]
      omega
  | _ => simp [saved]

/-- One for a call of `lorawan_join` or `lorawan_send`, and two for a call of
`lorawan_send` that is refused. -/
def Pc.calls (ret : Int) : Pc → Nat
  | .join => 1
  | .send _ => if ret ≠ 0 then 2 else 1
  | _ => 0

def radioCalls (timed : Timed) : TimedEvent → Nat
  | .lora ret _ => timed.lora.pc.calls ret
  | _ => 0

/-- A step of the LoRa thread spends a second for every call. -/
theorem loraThread_saved (system : System) (ret : Int) (stack : List UInt8)
    {asleep : Nat} (long : system.pc.sleeps = true → 1000 ≤ asleep) :
    1000 * system.pc.calls ret +
        saved (loraThread system ret stack).pc 0 ≤
      saved system.pc asleep := by
  cases here : system.pc
  all_goals
    rw [here] at long
    simp only [loraThread, here, Pc.calls]
  case joinLine status => cases status <;> simp [saved]
  case join =>
    rw [System.goto_pc, joinStatus]
    split
    · simp [saved]
    · split <;> simp [saved]
  case dequeue => split <;> simp [saved]
  case send msg =>
    rw [System.goto_pc]
    split <;> simp [saved]
  case joinSleep | sendSleep | failSleep | idleSleep =>
    have slept := long rfl
    simp only [System.goto_pc, saved]
    omega
  case loop | testEnabled | testSend | start | configure =>
    rw [System.goto_pc]
    split <;> simp [saved]
  all_goals simp [saved]

theorem timedStep_saved {timed next : Timed} {event : TimedEvent}
    (sleepsLong : SleepsLong timed event)
    (taken : timedStep timed event = some next) :
    1000 * radioCalls timed event + next.saved ≤
      timed.saved + elapses timed event := by
  rcases timedStep_cases taken with
    ⟨tick, clock, rfl, _, ticked, rfl⟩ |
      ⟨ret, stack, clock, rfl, ticked, rfl⟩ |
        ⟨inner, lora, rfl, notLora, stepped, rfl⟩
  · have now := clockStep_now ticked
    simp only [radioCalls, Nat.mul_zero, Nat.zero_add, Timed.saved,
      elapses]
    exact saved_add timed.lora.pc (by omega)
  · have now := clockStep_now ticked
    rw [tick_ms, Nat.add_zero] at now
    have long : timed.lora.pc.sleeps = true →
        1000 ≤ timed.clock.now - timed.since := by
      intro sleeps
      have late := sleepsLong sleeps
      omega
    simp only [radioCalls, Timed.saved, elapses, Nat.add_zero, now,
      Nat.sub_self]
    exact loraThread_saved timed.lora ret stack long
  · obtain ⟨pc, _⟩ := step_flags_beside notLora stepped
    simp only [radioCalls, Nat.mul_zero, Nat.zero_add, Timed.saved,
      elapses, pc]
    exact Nat.le_refl _

/-- In every stretch of a run, the LoRa thread calls `lorawan_join` and
`lorawan_send` no more often than once a second, refused transmissions counted
twice, but for two calls that earlier sleep has paid for. -/
theorem radio_paced (timed final : Timed) (events : List TimedEvent)
    (sleepsLong : Meets timedStep SleepsLong timed events)
    (continued : execute timedStep timed events = some final) :
    1000 * total timedStep radioCalls timed events + timed.clock.now ≤
      final.clock.now + 2000 := by
  have covered : ∀ timed event next, True → SleepsLong timed event →
      timedStep timed event = some next →
        1000 * radioCalls timed event + next.saved ≤
          timed.saved + elapses timed event :=
    fun _ _ _ _ here taken => timedStep_saved here taken
  have paid := total_le trivial (fun _ _ _ _ _ _ => trivial) covered
    sleepsLong continued
  have passed := execute_timedStep_now continued
  have credit : timed.saved ≤ 2000 := saved_le _ _
  rw [total_mul] at paid
  omega

/-- The device joins and sends, after ten seconds without a permit.  The radio
reports, and the LoRa thread sleeps for its next message. -/
def sendsOnce : List TimedEvent :=
  [[.beside (.setEnabled true), .beside (.push loratestMessage),
      .beside (.push loratestMessage)],
    List.replicate 10 (.lora 0 []), [.tick (.elapse 1000)],
    List.replicate 3 (.lora 0 []), [.tick (.elapse 1000)],
    List.replicate 2 (.lora 0 []), [.tick (.elapse 10000)],
    List.replicate 5 (.lora 0 []),
    [.beside (.txData ⟨true, 0, 0, 0⟩)],
    List.replicate 2 (.lora 0 []), [.tick (.elapse 1000)]].flatten

/-- The next message gets its permit at once and is refused. -/
def isRefused : List TimedEvent :=
  [.lora 0 [], .lora 0 [], .lora 0 [], .lora 0 [], .lora 0 [], .lora 0 [],
    .lora (-1) []]

/-- So two calls come without any time in between. -/
theorem isRefused_paced : ∃ timed final,
    execute timedStep Timed.boot sendsOnce = some timed ∧
      execute timedStep timed isRefused = some final ∧
        final.clock.now = timed.clock.now ∧
          1000 * total timedStep radioCalls timed isRefused = 2000 ∧
            2000 + timed.clock.now ≤ final.clock.now + 2000 := by
  have runs : (execute timedStep Timed.boot sendsOnce).any (fun timed =>
      (execute timedStep timed isRefused).any (fun final =>
        decide (final.clock.now = timed.clock.now)) &&
      decide (Meets timedStep SleepsLong timed isRefused) &&
      decide (1000 * total timedStep radioCalls timed isRefused = 2000)) =
        true := by
    decide +kernel
  obtain ⟨timed, reached, holds⟩ := (Option.any_eq_true _ _).mp runs
  simp only [Bool.and_eq_true, decide_eq_true_eq] at holds
  obtain ⟨⟨goesOn, sleepsLong⟩, calls⟩ := holds
  obtain ⟨final, continued, still⟩ := (Option.any_eq_true _ _).mp goesOn
  have paced := radio_paced timed final isRefused sleepsLong continued
  rw [calls] at paced
  exact ⟨timed, final, reached, continued, of_decide_eq_true still, calls,
    paced⟩

end LoraIot.Lora
