import LoraIot.Foundations.History
import LoraIot.Lora.Session

/-!
# The transmit-busy semaphore and the radio

`sem_tx_busy` is given by `lorawan_tx_data` only.  Before each uplink the LoRa
thread takes it, or gives up after ten seconds; either way no permit is left.
So the semaphore says one thing: whether an uplink has been answered since the
thread last passed it.  That agrees with the radio being idle only when no
uplink was refused, answered late, or never sent at all.
-/

namespace LoraIot.Lora

open LoraIot.Runs LoraIot.History

def accepted (radio : List RadioEvent) : Nat :=
  radio.countP fun event =>
    match event with
    | .sent _ ret => ret = 0
    | _ => false

def answered (radio : List RadioEvent) : Nat := radio.count .answered

def outstanding (system : System) : Nat :=
  accepted system.radio - answered system.radio

def callsTxData (system : System) : Event → Bool
  | .txData _ => system.txData = .idle
  | _ => false

/-- `lorawan_tx_data` is called once for each accepted uplink, and for no
other. -/
def AnswersUplinks (system : System) (event : Event) : Prop :=
  callsTxData system event = true →
    answered system.radio < accepted system.radio

instance (system : System) (event : Event) :
    Decidable (AnswersUplinks system event) :=
  inferInstanceAs (Decidable (_ → _))

/-- The semaphore is available exactly when no uplink is outstanding. -/
def Tracks (system : System) : Prop :=
  0 < system.semTxBusy ↔ outstanding system = 0

def AnsweredSinceTaken (radio : List RadioEvent) : Prop :=
  Since (fun _ event => event = .answered) (fun event => event = .taken) radio

structure Balanced (system : System) : Prop where
  permit : 0 < system.semTxBusy ↔ AnsweredSinceTaken system.radio
  single : system.semTxBusy ≤ 1
  answers : answered system.radio ≤ accepted system.radio

theorem boot_balanced : Balanced boot where
  permit := by simp [boot, AnsweredSinceTaken]
  single := by decide
  answers := by decide

theorem Balanced.of_unchanged {system next : System}
    (balanced : Balanced system) (radio : next.radio = system.radio)
    (semTxBusy : next.semTxBusy = system.semTxBusy) : Balanced next where
  permit := by
    rw [radio, semTxBusy]
    exact balanced.permit
  single := by
    rw [semTxBusy]
    exact balanced.single
  answers := by
    rw [radio]
    exact balanced.answers

theorem Balanced.taken {system : System} (balanced : Balanced system)
    {next : System} (radio : next.radio = system.radio ++ [.taken])
    (semTxBusy : next.semTxBusy = system.semTxBusy - 1) : Balanced next where
  permit := by
    have single := balanced.single
    rw [radio, semTxBusy, AnsweredSinceTaken, since_concat]
    simp
    omega
  single := by
    have single := balanced.single
    omega
  answers := by
    rw [radio]
    simpa [answered, accepted] using balanced.answers

theorem Balanced.sent {system : System} (balanced : Balanced system)
    {next : System} (msg : LoraTxMessage) (ret : Int)
    (radio : next.radio = system.radio ++ [.sent msg ret])
    (semTxBusy : next.semTxBusy = system.semTxBusy) : Balanced next where
  permit := by
    have before := balanced.permit
    rw [AnsweredSinceTaken] at before ⊢
    rw [radio, semTxBusy, since_concat]
    simpa using before
  single := by
    rw [semTxBusy]
    exact balanced.single
  answers := by
    have before := balanced.answers
    rw [radio]
    simp only [answered, accepted, List.count_append,
      List.countP_append] at before ⊢
    simp only [List.count_singleton, beq_iff_eq, reduceCtorEq, if_false]
    omega

theorem balanced_of_answered {system next : System}
    (radio : next.radio = system.radio ++ [.answered])
    (semTxBusy : next.semTxBusy = 1)
    (outstanding : answered system.radio < accepted system.radio) :
    Balanced next where
  permit := by
    rw [radio, semTxBusy, AnsweredSinceTaken, since_concat]
    simp
  single := Nat.le_of_eq semTxBusy
  answers := by
    rw [radio]
    simp only [answered, accepted, List.count_append,
      List.countP_append] at outstanding ⊢
    simp
    omega

theorem Balanced.loraThread {system : System} (balanced : Balanced system)
    (ret : Int) (stack : List UInt8) :
    Balanced (Lora.loraThread system ret stack) := by
  cases stands : system.pc with
  | takeTxBusy msg =>
      simp only [Lora.loraThread, stands]
      exact balanced.taken rfl rfl
  | send msg =>
      simp only [Lora.loraThread, stands]
      exact balanced.sent msg ret rfl rfl
  | dequeue =>
      simp only [Lora.loraThread, stands]
      split
      · exact balanced.of_unchanged rfl rfl
      · exact balanced.of_unchanged rfl rfl
  | _ =>
      simp only [Lora.loraThread, stands]
      exact balanced.of_unchanged rfl rfl

/-- The invariant survives every event in which the callback of the radio
answers an uplink. -/
theorem Balanced.step {system next : System} {event : Event}
    (balanced : Balanced system) (answers : AnswersUplinks system event)
    (taken : Lora.step system event = some next) : Balanced next := by
  cases event with
  | lora ret stack =>
      cases taken
      exact balanced.loraThread ret stack
  | txData result =>
      obtain ⟨_, reports | silent⟩ := lorawanTxData_beside taken
      · obtain ⟨isIdle, radio, semTxBusy⟩ := reports
        exact balanced_of_answered radio semTxBusy
          (answers (by simp [callsTxData, isIdle]))
      · exact balanced.of_unchanged silent.1 silent.2
  | rxData packet stack =>
      obtain ⟨_, radio, semTxBusy⟩ := lorawanRxData_beside taken
      exact balanced.of_unchanged radio semTxBusy
  | setEnabled enabled =>
      cases taken
      exact balanced.of_unchanged rfl rfl
  | push msg =>
      cases taken
      rw [Lora.push]
      split
      · exact balanced.of_unchanged rfl rfl
      · exact balanced

/-- The semaphore tracks the radio exactly when an answer since the last take
and the end of all outstanding uplinks come together. -/
theorem Balanced.tracks_iff {system : System} (balanced : Balanced system) :
    Tracks system ↔
      (AnsweredSinceTaken system.radio ↔
        accepted system.radio = answered system.radio) := by
  have answers := balanced.answers
  have idle :
      outstanding system = 0 ↔
        accepted system.radio = answered system.radio := by
    rw [outstanding]
    omega
  rw [Tracks, balanced.permit, idle]

theorem answered_pos_of_since {radio : List RadioEvent}
    (since : AnsweredSinceTaken radio) : 0 < answered radio := by
  obtain ⟨before, event, after, rfl, rfl, _⟩ := since
  simp [answered]

/-- Before the first uplink is accepted, no permit is there although the radio
is idle. -/
theorem Balanced.not_tracks {system : System} (balanced : Balanced system)
    (none : accepted system.radio = 0) : ¬ Tracks system := by
  intro tracks
  have nothing := balanced.answers
  have since := (balanced.tracks_iff.mp tracks).mpr (by omega)
  have some := answered_pos_of_since since
  omega

def takesTxBusy (system : System) : Event → Bool
  | .lora _ _ =>
      match system.pc with
      | .takeTxBusy _ => true
      | _ => false
  | _ => false

/-- A take finds that the semaphore tracks the radio. -/
def TakesTracked (system : System) (event : Event) : Prop :=
  takesTxBusy system event = true → Tracks system

def TakesNothing (system : System) (event : Event) : Prop :=
  takesTxBusy system event = false

/-- The thread has passed the semaphore and not called `lorawan_send` yet. -/
def Pc.sending : Pc → Bool
  | .sendHead _ => true
  | .sendPayload _ => true
  | .sendClose _ => true
  | .send _ => true
  | _ => false

/-- No uplink has been accepted and none is on its way. -/
structure Unsent (system : System) : Prop where
  accepted : accepted system.radio = 0
  sending : system.pc.sending = false

theorem boot_unsent : Unsent boot := ⟨rfl, rfl⟩

theorem Unsent.loraThread {system : System} (unsent : Unsent system)
    (ret : Int) (stack : List UInt8)
    (noTake : ∀ msg, system.pc ≠ .takeTxBusy msg) :
    Unsent (Lora.loraThread system ret stack) := by
  have notSending := unsent.sending
  cases stands : system.pc with
  | takeTxBusy msg => exact absurd stands (noTake msg)
  | sendHead msg | sendPayload msg | sendClose msg | send msg =>
      rw [stands] at notSending
      cases notSending
  | dequeue =>
      simp only [Lora.loraThread, stands]
      split
      · exact ⟨unsent.accepted, rfl⟩
      · exact ⟨unsent.accepted, rfl⟩
  | loop | testEnabled | testSend | start =>
      simp only [Lora.loraThread, stands]
      split
      · exact ⟨unsent.accepted, rfl⟩
      · exact ⟨unsent.accepted, rfl⟩
  | joinLine status =>
      simp only [Lora.loraThread, stands]
      cases status <;> exact ⟨unsent.accepted, rfl⟩
  | _ =>
      simp only [Lora.loraThread, stands]
      exact ⟨unsent.accepted, rfl⟩

theorem step_accepted_of_other {system next : System} {event : Event}
    (notLora : ∀ ret stack, event ≠ .lora ret stack)
    (taken : Lora.step system event = some next) :
    accepted next.radio = accepted system.radio := by
  cases event with
  | lora ret stack => exact absurd rfl (notLora ret stack)
  | txData result =>
      obtain ⟨_, reports | silent⟩ := lorawanTxData_beside taken
      · rw [reports.2.1]
        simp [accepted]
      · rw [silent.1]
  | rxData packet stack =>
      obtain ⟨_, radio, _⟩ := lorawanRxData_beside taken
      rw [radio]
  | setEnabled enabled =>
      cases taken
      rfl
  | push msg =>
      cases taken
      rw [push]
      split
      · rfl
      · rfl

theorem Unsent.step {system next : System} {event : Event}
    (unsent : Unsent system) (noTake : TakesNothing system event)
    (taken : Lora.step system event = some next) : Unsent next := by
  cases event with
  | lora ret stack =>
      cases taken
      refine unsent.loraThread ret stack fun msg stands => ?_
      simp [TakesNothing, takesTxBusy, stands] at noTake
  | setEnabled enabled =>
      cases taken
      exact ⟨unsent.accepted, unsent.sending⟩
  | _ =>
      have accepts := step_accepted_of_other (by simp) taken
      obtain ⟨pc, _, _⟩ := step_flags_of_other (by simp) (by simp) taken
      refine ⟨accepts.trans unsent.accepted, ?_⟩
      rw [pc]
      exact unsent.sending

/-- All takes of a run find that the semaphore tracks the radio exactly when
there is none: the first one never does. -/
theorem takes_tracked_iff {events : List Event}
    (answers : Meets Lora.step AnswersUplinks boot events) :
    Meets Lora.step TakesTracked boot events ↔
      Meets Lora.step TakesNothing boot events := by
  constructor
  · intro tracked
    -- A take in an unsent state would contradict `tracked`, so the state
    -- stays unsent.
    have noTake : ∀ system event, Balanced system ∧ Unsent system →
        AnswersUplinks system event ∧ TakesTracked system event →
          TakesNothing system event := by
      intro system event invariant here
      by_contra takes
      exact invariant.1.not_tracks invariant.2.accepted
        (here.2 (Bool.of_not_eq_false takes))
    refine meets_of_invariant ⟨boot_balanced, boot_unsent⟩ ?_ noTake
      (meets_and answers tracked)
    intro system event next invariant here taken
    exact ⟨invariant.1.step here.1 taken,
      invariant.2.step (noTake system event invariant here) taken⟩
  · apply meets_mono
    intro system event nothing takes
    rw [nothing] at takes
    cases takes

/-- In every state of a run, so also in every state in which the LoRa thread is
about to take it, the semaphore tracks the radio exactly when an uplink has
been answered since the last take and none is outstanding, or the other way
round.  Before the first uplink is accepted it never does, so that it tracks
the radio at all takes of a run only when the run takes nothing. -/
theorem txBusy_tracks_iff (events : List Event) (system : System)
    (answers : Meets step AnswersUplinks boot events)
    (reached : execute step boot events = some system) :
    (Tracks system ↔
      (AnsweredSinceTaken system.radio ↔
        accepted system.radio = answered system.radio)) ∧
    (accepted system.radio = 0 → ¬ Tracks system) ∧
    (Meets step TakesTracked boot events ↔
      Meets step TakesNothing boot events) := by
  have balanced : Balanced system :=
    execute_invariant Balanced boot_balanced
      (fun _ _ _ balanced here taken => balanced.step here taken)
      answers reached
  exact ⟨balanced.tracks_iff, balanced.not_tracks, takes_tracked_iff answers⟩

/-- The device joins, and its first uplink is accepted and answered. -/
def answeredOnce : List Event :=
  joined ++ steps 1 ++ [.txData ⟨true, 0, 0, 0⟩]

/-- After an uplink that has been accepted and answered, the next take finds
the semaphore available. -/
theorem txBusy_tracks_after_answer :
    ∃ system,
      execute step boot answeredOnce = some system ∧ Tracks system := by
  have answers : Meets step AnswersUplinks boot answeredOnce := by decide
  refine ⟨_, rfl, (txBusy_tracks_iff _ _ answers rfl).1.mpr ?_⟩
  exact ⟨fun _ => by decide, fun _ => ⟨_, .answered, [], rfl, rfl, by simp⟩⟩

/-- When the thread is about to take the semaphore for the first time, no
uplink is outstanding and no permit is there. -/
theorem first_take_does_not_track :
    ¬ ∀ (events : List Event) (system : System) (msg : LoraTxMessage),
      Meets step AnswersUplinks boot events →
        execute step boot events = some system →
          system.pc = .takeTxBusy msg → Tracks system := by
  intro always
  have tracks := always ([.setEnabled true, .push hello] ++ steps 15) _ hello
    (by decide) rfl rfl
  revert tracks
  rw [Tracks]
  decide

end LoraIot.Lora
