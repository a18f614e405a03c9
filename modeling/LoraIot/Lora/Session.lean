import LoraIot.Foundations.History
import LoraIot.Lora.Task

/-!
# Uplinks and the two flags

The LoRa thread reads `var_connected` and `var_enabled` one after the other,
and then sleeps, waits and writes before it calls `lorawan_send`, without
reading them again.  `InSession` is what holds as long as nobody writes
`var_enabled` at the wrong moment: switches it off after the thread has read
it, or on between the two reads of one iteration.

`Membership` says what `var_connected` stands for, in every run: the device has
joined, and the thread has not found it disabled since.
-/

namespace LoraIot.Lora

open LoraIot.History LoraIot.Runs

/-- The thread has read `var_enabled` as true and not called `lorawan_send`
since. -/
def Pc.admitted : Pc → Bool
  | .sendSleep => true
  | .dequeue => true
  | .takeTxBusy _ => true
  | .sendHead _ => true
  | .sendPayload _ => true
  | .sendClose _ => true
  | .send _ => true
  | _ => false

def callsSend (system : System) : Event → Bool
  | .lora _ _ =>
      match system.pc with
      | .send _ => true
      | _ => false
  | _ => false

/-- A call of `lorawan_send` finds the device joined and enabled. -/
def SendsInSession (system : System) (event : Event) : Prop :=
  callsSend system event = true →
    system.varConnected = true ∧ system.varEnabled = true

instance (system : System) (event : Event) :
    Decidable (SendsInSession system event) :=
  inferInstanceAs (Decidable (_ → _))

/-- Nobody switches `var_enabled` off while the thread is on its way to
`lorawan_send`, nor on when it has just found it off. -/
def Undisturbed (system : System) (event : Event) : Prop :=
  (event = .setEnabled false → system.pc.admitted = false) ∧
    (event = .setEnabled true →
      ¬ (system.pc = .testSend ∧ system.varConnected = false))

instance (system : System) (event : Event) :
    Decidable (Undisturbed system event) :=
  inferInstanceAs (Decidable (_ ∧ _))

/-- On the way to `lorawan_send` both flags are set, and the second condition
is reached connected or disabled. -/
structure InSession (system : System) : Prop where
  admitted : system.pc.admitted = true →
    system.varConnected = true ∧ system.varEnabled = true
  second : system.pc = .testSend →
    system.varConnected = true ∨ system.varEnabled = false

theorem boot_inSession : InSession boot where
  admitted impossible := by cases impossible
  second impossible := by cases impossible

/-- A step of the LoRa thread that ends neither on the way to `lorawan_send`
nor in front of the second condition has nothing to show. -/
theorem InSession.of_elsewhere {system : System}
    (notAdmitted : system.pc.admitted = false)
    (notSecond : system.pc ≠ .testSend) : InSession system where
  admitted impossible := by
    rw [notAdmitted] at impossible
    cases impossible
  second impossible := absurd impossible notSecond

theorem InSession.of_unchanged {system next : System}
    (inSession : InSession system)
    (onTheWay : system.pc.admitted = true)
    (notSecond : next.pc ≠ .testSend)
    (connected : next.varConnected = system.varConnected)
    (enabled : next.varEnabled = system.varEnabled) : InSession next where
  admitted _ := by
    rw [connected, enabled]
    exact inSession.admitted onTheWay
  second impossible := absurd impossible notSecond

theorem InSession.loraThread {system : System} (inSession : InSession system)
    (ret : Int) (stack : List UInt8) :
    InSession (Lora.loraThread system ret stack) := by
  cases stands : system.pc with
  | loop =>
      rw [Lora.loraThread, stands]
      dsimp only
      cases connected : system.varConnected with
      | true =>
          refine ⟨fun impossible => ?_, fun _ => Or.inl connected⟩
          cases impossible
      | false => exact of_elsewhere rfl (by simp)
  | testEnabled =>
      rw [Lora.loraThread, stands]
      dsimp only
      cases enabled : system.varEnabled with
      | true => exact of_elsewhere rfl (by simp)
      | false =>
          refine ⟨fun impossible => ?_, fun _ => Or.inr enabled⟩
          cases impossible
  | testSend =>
      rw [Lora.loraThread, stands]
      dsimp only
      cases enabled : system.varEnabled with
      | true =>
          have connected : system.varConnected = true := by
            rcases inSession.second stands with connected | disabled
            · exact connected
            · rw [enabled] at disabled
              cases disabled
          refine ⟨fun _ => ⟨connected, enabled⟩, fun impossible => ?_⟩
          cases impossible
      | false => exact of_elsewhere rfl (by simp)
  | sendSleep =>
      simp only [Lora.loraThread, stands]
      exact inSession.of_unchanged (by rw [stands]; rfl) (by simp)
        rfl rfl
  | dequeue =>
      simp only [Lora.loraThread, stands]
      split
      · exact of_elsewhere rfl (by simp)
      · exact inSession.of_unchanged (by rw [stands]; rfl) (by simp) rfl rfl
  | takeTxBusy msg =>
      simp only [Lora.loraThread, stands]
      exact inSession.of_unchanged (by rw [stands]; rfl)
        (by simp) rfl rfl
  | sendHead msg | sendPayload msg | sendClose msg =>
      simp only [Lora.loraThread, stands]
      exact inSession.of_unchanged (by rw [stands]; rfl) (by simp)
        rfl rfl
  | send msg | start =>
      simp only [Lora.loraThread, stands]
      split
      · exact of_elsewhere rfl (by simp)
      · exact of_elsewhere rfl (by simp)
  | joinLine status =>
      simp only [Lora.loraThread, stands]
      cases status <;> exact of_elsewhere rfl (by simp)
  | _ =>
      simp only [Lora.loraThread, stands]
      exact of_elsewhere rfl (by simp)

theorem InSession.step {system next : System} {event : Event}
    (inSession : InSession system) (undisturbed : Undisturbed system event)
    (taken : Lora.step system event = some next) : InSession next := by
  cases event with
  | lora ret stack =>
      cases taken
      exact inSession.loraThread ret stack
  | setEnabled enabled =>
      cases taken
      cases enabled with
      | true =>
          refine ⟨fun admitted => ⟨(inSession.admitted admitted).1, rfl⟩,
            fun second => Or.inl ?_⟩
          by_contra notConnected
          exact undisturbed.2 rfl ⟨second, by simpa using notConnected⟩
      | false =>
          refine ⟨fun admitted => ?_, fun _ => Or.inr rfl⟩
          have notAdmitted := undisturbed.1 rfl
          change system.pc.admitted = true at admitted
          rw [notAdmitted] at admitted
          cases admitted
  | _ =>
      obtain ⟨pc, connected, enabled⟩ :=
        step_flags_of_other (by simp) (by simp) taken
      refine ⟨?_, ?_⟩
      · rw [pc, connected, enabled]
        exact inSession.admitted
      · rw [pc, connected, enabled]
        exact inSession.second

/-- In every run in which nobody writes `var_enabled` at the wrong moment,
every call of `lorawan_send` finds the device joined and enabled. -/
theorem sends_in_session (events : List Event)
    (undisturbed : Meets step Undisturbed boot events) :
    Meets step SendsInSession boot events := by
  apply meets_of_invariant boot_inSession _ _ undisturbed
  · exact fun _ _ _ inSession here taken => inSession.step here taken
  · intro system event inSession _ calls
    cases event with
    | lora ret stack =>
        apply inSession.admitted
        simp only [callsSend] at calls
        split at calls
        · rename_i msg stands
          rw [stands]
          rfl
        · cases calls
    | _ => cases calls

/-! ## What `var_connected` stands for -/

def Joins (moment : System × Event) : Prop :=
  ∃ stack, moment.2 = .lora 0 stack ∧ moment.1.pc = .join

/-- The thread reads `var_enabled` and finds it off. -/
def FindsDisabled (moment : System × Event) : Prop :=
  ∃ ret stack, moment.2 = .lora ret stack ∧
    (moment.1.pc = .testEnabled ∨ moment.1.pc = .testSend) ∧
    moment.1.varEnabled = false

def JoinedSince (past : List (System × Event)) : Prop :=
  Since (fun _ moment => Joins moment) FindsDisabled past

/-- The join has succeeded, and `var_connected` is not set yet. -/
def Pc.announcesJoin : Pc → Bool
  | .joinLine .complete => true
  | .setConnected => true
  | _ => false

structure Membership (past : List (System × Event)) (system : System) :
    Prop where
  announced : system.pc.announcesJoin = true → JoinedSince past
  connected : system.varConnected = true → system.pc ≠ .clearConnected →
    JoinedSince past
  testing : system.pc = .testEnabled → system.varConnected = false

theorem boot_membership : Membership [] boot where
  announced impossible := by cases impossible
  connected impossible := by cases impossible
  testing impossible := by cases impossible

section Membership

variable {past : List (System × Event)} {system : System}

theorem JoinedSince.kept (since : JoinedSince past)
    {moment : System × Event} (silent : ¬ FindsDisabled moment) :
    JoinedSince (past ++ [moment]) :=
  (since_concat past moment).mpr (Or.inr ⟨since, silent⟩)

theorem not_findsDisabled {event : Event}
    (first : system.pc ≠ .testEnabled) (second : system.pc ≠ .testSend) :
    ¬ FindsDisabled (system, event) := by
  rintro ⟨_, _, _, stands | stands, _⟩
  · exact first stands
  · exact second stands

/-- A step that leaves `var_connected` alone, outside the two conditions. -/
theorem Membership.of_unchanged {next : System} {event : Event}
    (membership : Membership past system)
    (silent : ¬ FindsDisabled (system, event))
    (stays : system.pc ≠ .clearConnected)
    (announces : next.pc.announcesJoin = true →
      system.pc.announcesJoin = true)
    (connected : next.varConnected = system.varConnected)
    (elsewhere : next.pc = .testEnabled → next.varConnected = false) :
    Membership (past ++ [(system, event)]) next where
  announced announced :=
    (membership.announced (announces announced)).kept silent
  connected isConnected _ := by
    rw [connected] at isConnected
    exact (membership.connected isConnected stays).kept silent
  testing := elsewhere

theorem Membership.loraThread (membership : Membership past system)
    (ret : Int) (stack : List UInt8) :
    Membership (past ++ [(system, .lora ret stack)])
      (Lora.loraThread system ret stack) := by
  cases stands : system.pc with
  | loop =>
      refine membership.of_unchanged
        (not_findsDisabled (by simp [stands]) (by simp [stands]))
        (by simp [stands]) ?_ ?_ ?_
      all_goals simp only [Lora.loraThread, stands]
      · split <;> exact fun impossible => by cases impossible
      · rfl
      · split
        · exact fun impossible => by cases impossible
        · rename_i notConnected
          exact fun _ => Bool.not_eq_true _ ▸ notConnected
  | testEnabled =>
      have notConnected := membership.testing stands
      simp only [Lora.loraThread, stands]
      refine ⟨?_, ?_, ?_⟩
      · split <;> exact fun impossible => by cases impossible
      · intro impossible _
        exact absurd (impossible.symm.trans notConnected) (by decide)
      · exact fun _ => notConnected
  | testSend =>
      cases enabled : system.varEnabled with
      | false =>
          simp only [Lora.loraThread, stands, enabled]
          refine ⟨fun impossible => ?_, fun _ elsewhere => ?_,
            fun impossible => ?_⟩
          · cases impossible
          · exact absurd rfl elsewhere
          · cases impossible
      | true =>
          have silent : ¬ FindsDisabled (system, .lora ret stack) := by
            rintro ⟨_, _, _, _, disabled⟩
            rw [enabled] at disabled
            cases disabled
          refine membership.of_unchanged silent (by simp [stands]) ?_ ?_ ?_
          all_goals simp only [Lora.loraThread, stands, enabled]
          · exact fun impossible => by cases impossible
          · rfl
          · exact fun impossible => by cases impossible
  | join =>
      have silent : ¬ FindsDisabled (system, .lora ret stack) :=
        not_findsDisabled (by simp [stands]) (by simp [stands])
      simp only [Lora.loraThread, stands]
      by_cases succeeded : ret = 0
      · subst succeeded
        have since :
            JoinedSince (past ++ [(system, .lora 0 stack)]) :=
          (since_concat past _).mpr (Or.inl ⟨stack, rfl, stands⟩)
        exact ⟨fun _ => since, fun _ _ => since,
          fun impossible => by cases impossible⟩
      · refine membership.of_unchanged silent (by simp [stands]) ?_ rfl ?_
        · rw [joinStatus, if_neg succeeded]
          split <;> exact fun impossible => by cases impossible
        · exact fun impossible => by cases impossible
  | setConnected =>
      have silent : ¬ FindsDisabled (system, .lora ret stack) :=
        not_findsDisabled (by simp [stands]) (by simp [stands])
      have since := (membership.announced (by rw [stands]; rfl)).kept silent
      simp only [Lora.loraThread, stands]
      exact ⟨fun _ => since, fun _ _ => since,
        fun impossible => by cases impossible⟩
  | clearConnected =>
      simp only [Lora.loraThread, stands]
      refine ⟨fun impossible => ?_, fun impossible => ?_,
        fun impossible => ?_⟩ <;> cases impossible
  | joinLine status =>
      refine membership.of_unchanged
        (not_findsDisabled (by simp [stands]) (by simp [stands]))
        (by simp [stands]) ?_ ?_ ?_
      all_goals simp only [Lora.loraThread, stands]
      · cases status <;> simp [Pc.announcesJoin]
      · rfl
      · cases status <;> simp
  | start | configure | dequeue | send msg =>
      refine membership.of_unchanged
        (not_findsDisabled (by simp [stands]) (by simp [stands]))
        (by simp [stands]) ?_ ?_ ?_
      all_goals simp only [Lora.loraThread, stands]
      all_goals split
      all_goals first
        | rfl
        | exact fun impossible => by cases impossible
  | _ =>
      refine membership.of_unchanged
        (not_findsDisabled (by simp [stands]) (by simp [stands]))
        (by simp [stands]) ?_ ?_ ?_
      all_goals simp only [Lora.loraThread, stands]
      all_goals first
        | rfl
        | exact fun impossible => by cases impossible

theorem Membership.step {next : System} {event : Event}
    (membership : Membership past system)
    (taken : Lora.step system event = some next) :
    Membership (past ++ [(system, event)]) next := by
  by_cases isLora : ∃ ret stack, event = .lora ret stack
  · obtain ⟨ret, stack, rfl⟩ := isLora
    cases taken
    exact membership.loraThread ret stack
  · -- The other threads move neither the LoRa thread nor `var_connected`.
    have same : next.pc = system.pc ∧
        next.varConnected = system.varConnected := by
      by_cases sets : ∃ enabled, event = .setEnabled enabled
      · obtain ⟨enabled, rfl⟩ := sets
        cases taken
        exact ⟨rfl, rfl⟩
      · obtain ⟨pc, connected, _⟩ := step_flags_of_other
          (fun ret stack same => isLora ⟨ret, stack, same⟩)
          (fun enabled same => sets ⟨enabled, same⟩) taken
        exact ⟨pc, connected⟩
    have silent : ¬ FindsDisabled (system, event) :=
      fun ⟨ret, stack, isStep, _⟩ => isLora ⟨ret, stack, isStep⟩
    obtain ⟨pc, connected⟩ := same
    refine ⟨fun announced => ?_, fun isConnected elsewhere => ?_,
      fun testing => ?_⟩
    · rw [pc] at announced
      exact (membership.announced announced).kept silent
    · rw [pc] at elsewhere
      rw [connected] at isConnected
      exact (membership.connected isConnected elsewhere).kept silent
    · rw [pc] at testing
      rw [connected]
      exact membership.testing testing

end Membership

/-- In every run, `var_connected` is set only when a join has succeeded since
the thread last found the device disabled, but for the step that clears it. -/
theorem connected_joined_since (events : List Event) (system : System)
    (reached : execute step boot events = some system)
    (connected : system.varConnected = true)
    (notClearing : system.pc ≠ .clearConnected) :
    JoinedSince (trace step boot events) :=
  (trace_induction boot_membership
    (fun _ _ _ _ membership _ taken => membership.step taken)
    (meets_true boot events) reached).connected connected notClearing

/-- So an undisturbed call of `lorawan_send` comes after a successful join, and
the thread has not found the device disabled in between. -/
theorem sends_joined_since (events : List Event) (system : System)
    (event : Event) (undisturbed : Meets step Undisturbed boot events)
    (reached : execute step boot events = some system)
    (sends : callsSend system event = true) :
    system.varEnabled = true ∧ JoinedSince (trace step boot events) := by
  have inSession : InSession system :=
    execute_invariant InSession boot_inSession
      (fun _ _ _ inSession here taken => inSession.step here taken)
      undisturbed reached
  obtain ⟨msg, stands⟩ : ∃ msg, system.pc = .send msg := by
    cases event with
    | lora ret stack =>
        simp only [callsSend] at sends
        split at sends
        · rename_i msg stands
          exact ⟨msg, stands⟩
        · cases sends
    | _ => cases sends
  obtain ⟨connected, enabled⟩ := inSession.admitted (by rw [stands]; rfl)
  exact ⟨enabled, connected_joined_since events system reached connected
    (by rw [stands]; exact Pc.noConfusion)⟩

def hello : LoraTxMessage := ⟨[104, 105], by decide, by decide⟩

/-- Steps of the LoRa thread in which every call succeeds. -/
def steps (count : Nat) : List Event := List.replicate count (.lora 0 [])

/-- The device is enabled, joins, and finds a message to send.  The thread
stands in front of `lorawan_send`. -/
def joined : List Event :=
  [.setEnabled true, .push hello] ++ steps 19

/-- Sending after such a run is in session. -/
theorem joined_sends_in_session :
    Meets step SendsInSession boot (joined ++ steps 1) :=
  sends_in_session _ (by decide)

/-- Switched off during the sleep of one second, the device sends all the
same. -/
theorem sends_after_disabling :
    ¬ ∀ events : List Event, Meets step SendsInSession boot events := by
  intro always
  have sends := always
    ([.setEnabled true, .push hello] ++ steps 13 ++ [.setEnabled false] ++
      steps 7)
  revert sends
  decide

end LoraIot.Lora
