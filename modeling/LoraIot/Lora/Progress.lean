import LoraIot.Foundations.Potentials
import LoraIot.Lora.Uplinks

/-!
# Accepted uplinks reach the radio (`LoRa_task.c`)

While `enabled` stays set, every step of the LoRa thread brings it nearer to
its next call of `lorawan_send`, whatever the callbacks and the callers of
`lora_push` do in between.  Only a failed attempt to join sends it back, by
nine steps at most.  So the messages that `lora_push` has accepted are handed
to the radio within a number of steps that can be told in advance.
-/

namespace LoraIot.Lora

open LoraIot.CStrings LoraIot.Runs LoraIot.Potentials

universe u

variable {Thread : Type u}

def System.waiting (system : System) : List LoraTxMessage :=
  system.pc.inFlight ++ system.loraTxQueue

theorem System.underway_length (system : System) :
    system.underway.length =
      system.sent.length + system.waiting.length := by
  rw [System.underway, List.append_assoc, List.length_append,
    System.waiting]

theorem System.sent_of_underway {system : System}
    {earlier : List LoraTxMessage} (begins : earlier <+: system.underway)
    (enough : earlier.length ≤ system.sent.length) :
    earlier <+: system.sent := by
  have sent : system.sent <+: system.underway := by
    rw [System.underway, List.append_assoc]
    exact List.prefix_append _ _
  exact List.prefix_of_prefix_length_le begins sent enough

/-- The steps that joining costs at the next pass of the loop. -/
def rejoin (connected : Bool) : Nat := if connected then 0 else 10

/-- The steps of the LoRa thread to its next call of `lorawan_send`, counting
that call, when a message is waiting, `enabled` is set and joining succeeds. -/
def Pc.distance (connected : Bool) : Pc → Nat
  | .send _ => 1 + rejoin connected
  | .sendClose _ => 2 + rejoin connected
  | .sendPayload _ => 3 + rejoin connected
  | .sendHead _ => 4 + rejoin connected
  | .takeTxBusy _ => 5 + rejoin connected
  | .dequeue => 6 + rejoin connected
  | .sendSleep => 7 + rejoin connected
  | .testSend => 8 + rejoin connected
  | .loop => 9 + rejoin connected
  | .giveRxCb => 10 + rejoin connected
  | .joinSleep => 10 + rejoin connected
  | .setConnected => 11
  | .joinLine .complete => 12
  | .join => 13
  | .joinLine .send => 14
  | .configure => 15
  | .joinLine .start => 16
  | .start => 17
  | .testEnabled => 18
  | .joinLine _ => 11 + rejoin connected
  | .failSleep => 10 + rejoin connected
  | .failClose => 11 + rejoin connected
  | .failStatus _ => 12 + rejoin connected
  | .failHead _ => 13 + rejoin connected
  | .idleSleep => 10 + rejoin connected
  | .clearConnected => 21

/-- The step fails to join: the configuration is invalid or the network does
not let the device in. -/
def Pc.failsToJoin (ret : Int) : Pc → Bool
  | .configure => decide (ret ≠ 0)
  | .join => decide (joinStatus ret ≠ .complete)
  | _ => false

def setback (system : System) : Event → Nat
  | .lora ret _ => if system.pc.failsToJoin ret then 9 else 0
  | _ => 0

/-- The steps of the LoRa thread until it has sent this many messages. -/
def System.distance (goal : Nat) (system : System) : Nat :=
  if system.sent.length < goal then
    system.pc.distance system.varConnected +
      13 * (goal - system.sent.length - 1)
  else
    0

theorem Pc.distance_pos (connected : Bool) (pc : Pc) :
    0 < pc.distance connected := by
  cases pc with
  | joinLine status => cases status <;> simp [Pc.distance]
  | _ => simp [Pc.distance]

theorem Pc.distance_le (connected : Bool) (pc : Pc) :
    pc.distance connected ≤ 23 := by
  have most : rejoin connected ≤ 10 := by cases connected <;> decide
  cases pc with
  | joinLine status => cases status <;> simp only [Pc.distance] <;> omega
  | _ => simp only [Pc.distance]; omega

theorem loraThread_sent (system : System) (ret : Int) (stack : List UInt8) :
    (loraThread system ret stack).sent =
      match system.pc with
      | .send msg => system.sent ++ [msg]
      | _ => system.sent := by
  cases here : system.pc
  all_goals simp only [loraThread, here]
  case send msg =>
    simp [System.sent, System.goto, System.remember, RadioEvent.message]
  case takeTxBusy msg =>
    simp [System.sent, System.remember, RadioEvent.message]
  case dequeue =>
    cases system.loraTxQueue with
    | nil => rfl
    | cons msg rest => rfl
  all_goals rfl

section Steps

variable {system : System}

/-- A step brings the LoRa thread nearer to its next uplink, unless it is the
uplink itself, after which there may be thirteen steps to the next one. -/
theorem loraThread_nearer (enabled : system.varEnabled = true)
    (supplied : system.pc = .dequeue → system.loraTxQueue ≠ [])
    (ret : Int) (stack : List UInt8) :
    1 + (loraThread system ret stack).pc.distance
          (loraThread system ret stack).varConnected +
        13 * system.sent.length ≤
      system.pc.distance system.varConnected +
        setback system (.lora ret stack) +
          13 * (loraThread system ret stack).sent.length := by
  have most : rejoin system.varConnected ≤ 10 := by
    cases system.varConnected <;> decide
  rw [loraThread_sent]
  cases here : system.pc
  all_goals simp only [loraThread, here, setback, Pc.failsToJoin]
  case loop =>
    cases connected : system.varConnected with
    | false => simp [System.goto, Pc.distance, connected, rejoin]
    | true => simp [System.goto, Pc.distance, connected, rejoin]
  case testEnabled =>
    simp [enabled, System.goto, Pc.distance]
  case testSend =>
    simp only [enabled, if_true, System.goto, Pc.distance]
    omega
  case start =>
    split
    · simp [System.goto, Pc.distance]
    · simp [System.goto, Pc.distance]
  case joinLine status =>
    cases status <;> simp only [System.goto, System.write, Pc.distance] <;>
      omega
  case configure =>
    by_cases invalid : ret ≠ 0
    · simp only [if_pos invalid, System.goto, Pc.distance,
        decide_eq_true invalid, if_true]
      omega
    · simp [if_neg invalid, System.goto, Pc.distance]
  case join =>
    simp only [joinStatus]
    by_cases joined : ret = 0
    · simp [joined, System.goto, Pc.distance]
    · by_cases late : ret = -etimedout
      · simp only [if_neg joined, if_pos late, System.goto, Pc.distance]
        simp
        omega
      · simp only [if_neg joined, if_neg late, System.goto, Pc.distance]
        simp
        omega
  case dequeue =>
    cases queue : system.loraTxQueue with
    | nil => exact absurd queue (supplied here)
    | cons msg rest =>
        simp only [Pc.distance]
        omega
  case send msg =>
    rw [List.length_append, List.length_singleton]
    split
    · simp only [System.goto, System.remember, Pc.distance]
      omega
    · simp only [System.goto, System.remember, Pc.distance]
      omega
  all_goals
    simp only [System.goto, System.write, System.remember, Pc.distance]
    simp [rejoin]
    try omega

/-- Nothing but the LoRa thread changes how far it is. -/
theorem step_same_distance {next : System} {event : Event}
    (notLora : ∀ ret stack, event ≠ .lora ret stack)
    (taken : step system event = some next) (goal : Nat) :
    next.distance goal = system.distance goal ∧
      next.sent = system.sent ∧
      (event ≠ .setEnabled false → system.varEnabled = true →
        next.varEnabled = true) := by
  cases event with
  | lora ret stack => exact absurd rfl (notLora ret stack)
  | txData result =>
      obtain ⟨beside, _⟩ := lorawanTxData_beside taken
      have sent := (lorawanTxData_sameWay taken).sent
      refine ⟨?_, sent, fun _ enabled => beside.varEnabled.trans enabled⟩
      rw [System.distance, sent, beside.pc, beside.varConnected,
        System.distance]
  | rxData packet stack =>
      obtain ⟨beside, _⟩ := lorawanRxData_beside taken
      have sent := (lorawanRxData_sameWay taken).sent
      refine ⟨?_, sent, fun _ enabled => beside.varEnabled.trans enabled⟩
      rw [System.distance, sent, beside.pc, beside.varConnected,
        System.distance]
  | setEnabled enabled =>
      cases taken
      refine ⟨rfl, rfl, fun different _ => ?_⟩
      cases enabled with
      | true => rfl
      | false => exact absurd rfl different
  | push msg =>
      cases taken
      rw [push]
      split
      · exact ⟨rfl, rfl, fun _ enabled => enabled⟩
      · exact ⟨rfl, rfl, fun _ enabled => enabled⟩

end Steps

section Runs

variable [DecidableEq Thread]
  {decode : List UInt8 → Option (List UInt8)}
  {uplinks next : Uplinks Thread}

/-- The step is one of the LoRa thread, a callback or a write of `enabled`, or
it touches nothing of them but the queue. -/
theorem uplinkStep_cases {event : UplinkEvent Thread}
    (taken : uplinkStep decode uplinks event = some next) :
    (∃ inner, event = .lora inner ∧ step uplinks.lora inner = some next.lora ∧
        next.accepted = uplinks.accepted) ∨
      (∀ inner, event ≠ .lora inner) ∧
        (∃ queue, next.lora = { uplinks.lora with loraTxQueue := queue }) ∧
          uplinks.accepted <+: next.accepted := by
  cases event with
  | lora inner =>
      refine Or.inl ⟨inner, rfl, ?_⟩
      cases inner with
      | push msg => simp [uplinkStep] at taken
      | _ =>
          simp only [uplinkStep] at taken
          obtain ⟨after, stepped, rfl⟩ := Option.map_eq_some_iff.mp taken
          exact ⟨stepped, rfl⟩
  | call thread value beyond =>
      refine Or.inr ⟨by simp, ?_⟩
      simp only [uplinkStep] at taken
      split at taken
      · split at taken
        · cases taken
          exact ⟨⟨_, rfl⟩, List.prefix_rfl⟩
        · cases taken
          exact ⟨⟨_, rfl⟩, List.prefix_rfl⟩
      · cases taken
  | resume thread =>
      refine Or.inr ⟨by simp, ?_⟩
      simp only [uplinkStep, resumePush] at taken
      split at taken
      · cases taken
      · split at taken
        · cases taken
        · cases taken
          exact ⟨⟨_, rfl⟩, List.prefix_rfl⟩
      · cases taken
        refine ⟨⟨_, rfl⟩, ?_⟩
        simp only [Uplinks.goto]
        split
        · exact List.prefix_append _ _
        · exact List.prefix_rfl
      · cases taken
        exact ⟨⟨_, rfl⟩, List.prefix_rfl⟩

theorem Event.lora_or_not (event : Event) :
    (∃ ret stack, event = .lora ret stack) ∨
      ∀ ret stack, event ≠ .lora ret stack := by
  cases event with
  | lora ret stack => exact Or.inl ⟨ret, stack, rfl⟩
  | _ => exact Or.inr fun _ _ => by simp

def UplinkEvent.loraStep : UplinkEvent Thread → Nat
  | .lora (.lora _ _) => 1
  | _ => 0

def loraSteps (events : List (UplinkEvent Thread)) : Nat :=
  (events.map UplinkEvent.loraStep).sum

def uplinkSetback (uplinks : Uplinks Thread) : UplinkEvent Thread → Nat
  | .lora event => setback uplinks.lora event
  | _ => 0

/-- The steps that failed attempts to join cost: nine for each. -/
def setbacks (decode : List UInt8 → Option (List UInt8))
    (uplinks : Uplinks Thread) (events : List (UplinkEvent Thread)) : Nat :=
  total (uplinkStep decode) uplinkSetback uplinks events

/-- Sending is enabled and this many messages have been accepted. -/
structure Supplied (decode : List UInt8 → Option (List UInt8)) (goal : Nat)
    (uplinks : Uplinks Thread) : Prop where
  accounted : Accounted decode uplinks
  enabled : uplinks.lora.varEnabled = true
  accepted : goal ≤ uplinks.accepted.length

def StaysEnabled (_uplinks : Uplinks Thread) (event : UplinkEvent Thread) :
    Prop :=
  event ≠ .lora (.setEnabled false)

theorem loraThread_varEnabled (system : System) (ret : Int)
    (stack : List UInt8) :
    (loraThread system ret stack).varEnabled = system.varEnabled := by
  cases here : system.pc
  all_goals simp only [loraThread, here]
  case dequeue =>
    cases system.loraTxQueue with
    | nil => rfl
    | cons msg rest => rfl
  all_goals rfl

theorem Supplied.step {goal : Nat} {event : UplinkEvent Thread}
    (supplied : Supplied decode goal uplinks)
    (stays : StaysEnabled uplinks event)
    (taken : uplinkStep decode uplinks event = some next) :
    Supplied decode goal next := by
  refine ⟨supplied.accounted.step taken, ?_, ?_⟩
  · rcases uplinkStep_cases taken with
      ⟨inner, rfl, stepped, _⟩ | ⟨_, ⟨queue, lora⟩, _⟩
    · rcases inner.lora_or_not with ⟨ret, stack, rfl⟩ | notLora
      · rw [← Option.some.inj stepped, loraThread_varEnabled,
          supplied.enabled]
      · obtain ⟨_, _, kept⟩ := step_same_distance notLora stepped goal
        exact kept (fun same => stays (by rw [same])) supplied.enabled
    · rw [lora]
      exact supplied.enabled
  · rcases uplinkStep_cases taken with
      ⟨_, _, _, accepted⟩ | ⟨_, _, accepted⟩
    · rw [accepted]
      exact supplied.accepted
    · exact supplied.accepted.trans accepted.length_le

/-- While messages wait, a step of the LoRa thread shortens its way to the
goal, and no other step lengthens it. -/
theorem Supplied.pays {goal : Nat} {event : UplinkEvent Thread}
    (supplied : Supplied decode goal uplinks)
    (below : uplinks.lora.sent.length < goal)
    (taken : uplinkStep decode uplinks event = some next) :
    event.loraStep + next.lora.distance goal ≤
      uplinks.lora.distance goal + uplinkSetback uplinks event := by
  rcases uplinkStep_cases taken with
    ⟨inner, rfl, stepped, _⟩ | ⟨notLora, ⟨queue, lora⟩, _⟩
  · rcases inner.lora_or_not with ⟨ret, stack, rfl⟩ | notLora
    · have waiting : uplinks.lora.pc = .dequeue →
          uplinks.lora.loraTxQueue ≠ [] := by
        intro atDequeue empty
        have all := congrArg List.length supplied.accounted.underway
        have enough := supplied.accepted
        rw [System.underway, atDequeue, empty] at all
        simp only [Pc.inFlight, List.append_nil, List.length_map] at all
        omega
      have nearer :=
        loraThread_nearer supplied.enabled waiting ret stack
      have positive := uplinks.lora.pc.distance_pos uplinks.lora.varConnected
      have same : loraThread uplinks.lora ret stack = next.lora :=
        Option.some.inj stepped
      rw [same] at nearer
      simp only [UplinkEvent.loraStep, uplinkSetback, System.distance,
        if_pos below]
      split
      · omega
      · omega
    · obtain ⟨same, _, _⟩ := step_same_distance notLora stepped goal
      have free :
          (UplinkEvent.lora inner : UplinkEvent Thread).loraStep = 0 := by
        cases inner with
        | lora ret stack => exact absurd rfl (notLora ret stack)
        | _ => rfl
      rw [same, free]
      omega
  · have free : event.loraStep = 0 := by
      cases event with
      | lora inner => exact absurd rfl (notLora inner)
      | _ => rfl
    have same : next.lora.distance goal = uplinks.lora.distance goal := by
      rw [lora]
      rfl
    rw [free, same]
    omega

theorem uplinkStep_sent_le {event : UplinkEvent Thread}
    (taken : uplinkStep decode uplinks event = some next) :
    uplinks.lora.sent.length ≤ next.lora.sent.length := by
  rcases uplinkStep_cases taken with
    ⟨inner, rfl, stepped, _⟩ | ⟨_, ⟨queue, lora⟩, _⟩
  · rcases inner.lora_or_not with ⟨ret, stack, rfl⟩ | notLora
    · rw [← Option.some.inj stepped, loraThread_sent]
      split
      · simp
      · exact Nat.le_refl _
    · obtain ⟨_, sent, _⟩ := step_same_distance notLora stepped 0
      rw [sent]
  · rw [lora]
    exact Nat.le_refl _

theorem System.distance_le (goal : Nat) (system : System)
    (goalIs : goal ≤ system.sent.length + system.waiting.length) :
    system.distance goal ≤ 10 + 13 * system.waiting.length := by
  have near := system.pc.distance_le system.varConnected
  rw [System.distance]
  split
  · omega
  · exact Nat.zero_le _

/-- What `lora_push` has accepted before a run goes on stays accepted. -/
theorem accepted_prefix_of_reached {later : List (UplinkEvent Thread)}
    {final : Uplinks Thread}
    (continued : execute (uplinkStep decode) uplinks later = some final) :
    uplinks.accepted <+: final.accepted := by
  refine execute_invariant (fun after => uplinks.accepted <+: after.accepted)
    List.prefix_rfl (fun state event next soFar _ taken => ?_)
    (meets_true uplinks later) continued
  rcases uplinkStep_cases taken with
    ⟨_, _, _, accepted⟩ | ⟨_, _, accepted⟩
  · rw [accepted]
    exact soFar
  · exact soFar.trans accepted

/-- While sending stays enabled, every message that `lora_push` has accepted
is handed to the radio, in order, within ten steps of the LoRa thread, thirteen
for every message that waits and nine for every failed attempt to join. -/
theorem accepted_reach_radio (decode : List UInt8 → Option (List UInt8))
    (events later : List (UplinkEvent Thread))
    (uplinks final : Uplinks Thread)
    (reached : execute (uplinkStep decode) Uplinks.boot events =
      some uplinks)
    (continued : execute (uplinkStep decode) uplinks later = some final)
    (enabled : uplinks.lora.varEnabled = true)
    (stays : ∀ event ∈ later, event ≠ .lora (.setEnabled false))
    (enough : 10 + 13 * uplinks.lora.waiting.length +
        setbacks decode uplinks later ≤ loraSteps later) :
    uplinks.accepted.map Acceptance.msg <+: final.lora.sent := by
  have accounted : Accounted decode uplinks :=
    execute_invariant (Accounted decode) boot_accounted
      (fun _ _ _ accounted _ taken => accounted.step taken)
      (meets_true Uplinks.boot events) reached
  have supplied : Supplied decode uplinks.accepted.length uplinks :=
    ⟨accounted, enabled, Nat.le_refl _⟩
  have steady : Meets (uplinkStep decode) StaysEnabled uplinks later :=
    meets_of_forall stays uplinks
  have suppliedFinal : Supplied decode uplinks.accepted.length final :=
    execute_invariant (Supplied decode uplinks.accepted.length) supplied
      (fun _ _ _ holds here taken => holds.step here taken) steady continued
  by_cases arrived : uplinks.accepted.length ≤ final.lora.sent.length
  · have earlier := (accepted_prefix_of_reached continued).map Acceptance.msg
    rw [← suppliedFinal.accounted.underway] at earlier
    refine System.sent_of_underway earlier ?_
    rw [List.length_map]
    exact arrived
  · -- Otherwise every step of the LoRa thread has shortened its way.
    have growing :=
      (meets_le_final (fun _ _ _ taken => uplinkStep_sent_le taken)
        continued).2
    have paid :
        total (uplinkStep decode) (fun _ event => event.loraStep) uplinks
            later + final.lora.distance uplinks.accepted.length ≤
          uplinks.lora.distance uplinks.accepted.length +
            setbacks decode uplinks later :=
      total_le supplied
        (fun _ _ _ holds here taken => holds.step here.1 taken)
        (fun state event next holds here taken => holds.pays
          (Nat.lt_of_le_of_lt here.2 (Nat.lt_of_not_le arrived)) taken)
        (meets_and steady growing) continued
    rw [total_of_event UplinkEvent.loraStep continued] at paid
    change loraSteps later + _ ≤ _ at paid
    have underway := congrArg List.length accounted.underway
    rw [System.underway_length, List.length_map] at underway
    have start := System.distance_le uplinks.accepted.length uplinks.lora
      (Nat.le_of_eq underway.symm)
    have positive : 0 < final.lora.distance uplinks.accepted.length := by
      have ahead := final.lora.pc.distance_pos final.lora.varConnected
      rw [System.distance, if_pos (Nat.lt_of_not_le arrived)]
      omega
    omega

end Runs

/-- A base64 decoder that knows the byte `A`. -/
def decodeByte (source : List UInt8) : Option (List UInt8) :=
  if source = ascii "QQ==" then some [65] else none

def pushesByte : List (UplinkEvent Nat) :=
  [.lora (.lora 0 []), .lora (.setEnabled true),
    .call 0 (ascii "\"QQ==\"") [], .resume 0, .resume 0]

def joinsAndSends : List (UplinkEvent Nat) :=
  .resume 0 :: List.replicate 23 (.lora (.lora 0 []))

/-- The byte `A` reaches the radio. -/
theorem byteAccepted_reaches_radio :
    ∃ uplinks final,
      execute (uplinkStep decodeByte) Uplinks.boot pushesByte =
        some uplinks ∧
      execute (uplinkStep decodeByte) uplinks joinsAndSends = some final ∧
      uplinks.accepted.map Acceptance.msg <+: final.lora.sent := by
  have runs : (execute (uplinkStep decodeByte) Uplinks.boot pushesByte).any
      (fun uplinks =>
        (execute (uplinkStep decodeByte) uplinks joinsAndSends).isSome &&
          (uplinks.lora.varEnabled &&
            decide (10 + 13 * uplinks.lora.waiting.length +
                setbacks decodeByte uplinks joinsAndSends ≤
              loraSteps joinsAndSends))) = true := by
    decide
  obtain ⟨uplinks, reached, holds⟩ := (Option.any_eq_true _ _).mp runs
  rw [Bool.and_eq_true, Bool.and_eq_true, decide_eq_true_eq] at holds
  obtain ⟨goesOn, enabled, enough⟩ := holds
  obtain ⟨final, continued⟩ := Option.isSome_iff_exists.mp goesOn
  exact ⟨uplinks, final, reached, continued,
    accepted_reach_radio decodeByte pushesByte joinsAndSends uplinks final
      reached continued enabled (by decide) enough⟩

end LoraIot.Lora
