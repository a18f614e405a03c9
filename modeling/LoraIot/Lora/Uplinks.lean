import LoraIot.Lora.Push

/-!
# Uplinks from acceptance to the radio (`LoRa_task.c`)

Any number of threads call `lora_push` while the LoRa thread and the callbacks
run.  Each caller is a program counter that stands in front of its next
semaphore or queue operation, with the message of its own stack frame; the
message that the LoRa thread has dequeued is its static `msg`, which its own
program counter carries.

`accepted` remembers which messages have been enqueued, and for which source
text.  What has been sent, what has been dequeued and what waits in the queue
together are what was accepted, in order.
-/

namespace LoraIot.Lora

open LoraIot.CStrings LoraIot.Runs

universe u

variable {Thread : Type u}

inductive PushPc where
  | idle
  /-- About to take `sem_lora_push`. -/
  | take (source : List UInt8) (msg : LoraTxMessage)
  /-- About to call `k_msgq_put`. -/
  | put (source : List UInt8) (msg : LoraTxMessage)
  /-- About to give `sem_lora_push` and to return. -/
  | give (ret : Int)
  deriving DecidableEq, Repr

/-- A message that `k_msgq_put` took, and the text it was decoded from. -/
structure Acceptance where
  source : List UInt8
  msg : LoraTxMessage
  deriving DecidableEq, Repr

/-- The LoRa task together with the callers of `lora_push`. -/
structure Uplinks (Thread : Type u) where
  lora : System
  semLoraPush : Nat
  pushers : Thread → PushPc
  accepted : List Acceptance

namespace Uplinks

def boot : Uplinks Thread where
  lora := Lora.boot
  semLoraPush := 0
  pushers _ := .idle
  accepted := []

variable [DecidableEq Thread]

def goto (uplinks : Uplinks Thread) (thread : Thread) (pc : PushPc) :
    Uplinks Thread :=
  { uplinks with pushers := Function.update uplinks.pushers thread pc }

end Uplinks

inductive UplinkEvent (Thread : Type u) where
  /-- A step of the LoRa thread or a callback, or a write of `enabled`. -/
  | lora (event : Event)
  /-- A thread calls `lora_push`, with these bytes behind the value. -/
  | call (thread : Thread) (value beyond : List UInt8)
  /-- The next step of a thread that is inside `lora_push`. -/
  | resume (thread : Thread)
  deriving DecidableEq, Repr

/-- The LoRa thread gives `sem_lora_push` once, when it starts. -/
def semLoraPushAfter (semLoraPush : Nat) (pc : Pc) : Event → Nat
  | .lora _ _ => if pc = .giveRxCb then 1 else semLoraPush
  | _ => semLoraPush

def resumePush [DecidableEq Thread] (uplinks : Uplinks Thread)
    (thread : Thread) : Option (Uplinks Thread) :=
  match uplinks.pushers thread with
  | .idle => none
  | .take source msg =>
      if uplinks.semLoraPush = 0 then
        none
      else
        some
          ({ uplinks with
              semLoraPush := uplinks.semLoraPush - 1 }.goto thread
                (.put source msg))
  | .put source msg =>
      let result := kMsgqPut uplinks.lora.loraTxQueue msg
      some
        ({ uplinks with
            lora := { uplinks.lora with loraTxQueue := result.2 }
            accepted :=
              if result.1 = 0 then
                uplinks.accepted ++ [Acceptance.mk source msg]
              else
                uplinks.accepted }.goto thread (.give result.1))
  | .give _ => some ({ uplinks with semLoraPush := 1 }.goto thread .idle)

/-- One step of the whole.  Messages enter the queue through `lora_push`
only. -/
def uplinkStep [DecidableEq Thread]
    (decode : List UInt8 → Option (List UInt8)) (uplinks : Uplinks Thread) :
    UplinkEvent Thread → Option (Uplinks Thread)
  | .lora (.push _) => none
  | .lora event =>
      (step uplinks.lora event).map fun lora =>
        { uplinks with
          lora := lora
          semLoraPush :=
            semLoraPushAfter uplinks.semLoraPush uplinks.lora.pc event }
  | .call thread value beyond =>
      if uplinks.pushers thread = .idle then
        match loraPushDecode decode value beyond with
        | .error _ => some uplinks
        | .ok msg =>
            some (uplinks.goto thread (.take (pushSource value beyond) msg))
      else
        none
  | .resume thread => resumePush uplinks thread

/-- A call of `lora_push` that nothing interrupts does what `loraPush` says. -/
theorem call_alone [DecidableEq Thread]
    (decode : List UInt8 → Option (List UInt8)) {uplinks : Uplinks Thread}
    {thread : Thread} (isIdle : uplinks.pushers thread = .idle)
    (permit : uplinks.semLoraPush ≠ 0) (value beyond : List UInt8) :
    ∃ steps after,
      execute (uplinkStep decode) uplinks
          (.call thread value beyond ::
            List.replicate steps (.resume thread)) = some after ∧
        after.lora.loraTxQueue =
          (loraPush decode true value beyond uplinks.lora.loraTxQueue).2 ∧
        after.pushers thread = .idle := by
  cases outcome : loraPushDecode decode value beyond with
  | error ret =>
      refine ⟨0, uplinks, ?_, ?_, isIdle⟩
      · simp [uplinkStep, isIdle, outcome]
      · rw [loraPush_of_error outcome]
  | ok msg =>
      -- Take the semaphore, put the message, give the semaphore.
      refine ⟨3, _, by
        simp only [List.replicate, execute_cons, execute_nil, uplinkStep,
          isIdle, if_true, outcome, Option.bind_some, resumePush,
          Uplinks.goto, Function.update_self, if_neg permit]
        rfl, ?_, ?_⟩
      · rw [loraPush_of_ok outcome]
      · simp

def RadioEvent.message : RadioEvent → Option LoraTxMessage
  | .sent msg _ => some msg
  | _ => none

def System.sent (system : System) : List LoraTxMessage :=
  system.radio.filterMap RadioEvent.message

/-- The message that the LoRa thread has dequeued and not sent yet. -/
def Pc.inFlight : Pc → List LoraTxMessage
  | .takeTxBusy msg => [msg]
  | .sendHead msg => [msg]
  | .sendPayload msg => [msg]
  | .sendClose msg => [msg]
  | .send msg => [msg]
  | _ => []

/-- Every message that has entered the queue, oldest first. -/
def System.underway (system : System) : List LoraTxMessage :=
  system.sent ++ system.pc.inFlight ++ system.loraTxQueue

structure SameWay (system next : System) : Prop where
  sent : next.sent = system.sent
  pc : next.pc = system.pc
  queue : next.loraTxQueue = system.loraTxQueue

theorem SameWay.underway {system next : System}
    (same : SameWay system next) : next.underway = system.underway := by
  rw [System.underway, same.sent, same.pc, same.queue, System.underway]

theorem lorawanTxData_sameWay {system next : System} {result : TxResult}
    (taken : lorawanTxData system result = some next) :
    SameWay system next := by
  obtain ⟨beside, reports | silent⟩ := lorawanTxData_beside taken
  · refine ⟨?_, beside.pc, beside.loraTxQueue⟩
    rw [System.sent, reports.2.1]
    simp [System.sent, RadioEvent.message]
  · refine ⟨?_, beside.pc, beside.loraTxQueue⟩
    rw [System.sent, silent.1, System.sent]

theorem lorawanRxData_sameWay {system next : System} {packet : RxPacket}
    {stack : List UInt8}
    (taken : lorawanRxData system packet stack = some next) :
    SameWay system next := by
  obtain ⟨beside, radio, _⟩ := lorawanRxData_beside taken
  refine ⟨?_, beside.pc, beside.loraTxQueue⟩
  rw [System.sent, radio, System.sent]

/-- A step of the LoRa thread moves at most one message, from the queue into
`msg` or from there to the radio. -/
theorem loraThread_underway (system : System) (ret : Int)
    (stack : List UInt8) :
    (loraThread system ret stack).underway = system.underway ∧
      (loraThread system ret stack).loraTxQueue.length ≤
        system.loraTxQueue.length := by
  have pcIs : ∀ pc, system.pc = pc →
      system.underway = system.sent ++ pc.inFlight ++ system.loraTxQueue := by
    intro pc here
    rw [← here, System.underway]
  cases here : system.pc
  all_goals
    rw [pcIs _ here]
    simp only [loraThread, here]
  case dequeue =>
    cases queue : system.loraTxQueue with
    | nil =>
        simp [System.underway, System.goto, System.sent, Pc.inFlight, queue]
    | cons msg rest =>
        simp [System.underway, System.sent, Pc.inFlight]
  case send msg =>
    split
    · simp [System.underway, System.goto, System.remember, System.sent,
        RadioEvent.message, Pc.inFlight]
    · simp [System.underway, System.goto, System.remember, System.sent,
        RadioEvent.message, Pc.inFlight]
  case joinLine status =>
    cases status <;>
      simp [System.underway, System.goto, System.write, System.sent,
        Pc.inFlight]
  case loop =>
    split <;> simp [System.underway, System.goto, System.sent, Pc.inFlight]
  case testEnabled =>
    split <;> simp [System.underway, System.goto, System.sent, Pc.inFlight]
  case testSend =>
    split <;> simp [System.underway, System.goto, System.sent, Pc.inFlight]
  case start =>
    split <;> simp [System.underway, System.goto, System.sent, Pc.inFlight]
  all_goals
    simp [System.underway, System.goto, System.write, System.remember,
      System.sent, RadioEvent.message, Pc.inFlight]

/-- Without a push, what is under way stays what it is, and the queue does not
grow. -/
theorem step_underway {system next : System} {event : Event}
    (noPush : ∀ msg, event ≠ .push msg)
    (taken : step system event = some next) :
    next.underway = system.underway ∧
      next.loraTxQueue.length ≤ system.loraTxQueue.length := by
  cases event with
  | lora ret stack =>
      cases taken
      exact loraThread_underway system ret stack
  | txData result =>
      have same := lorawanTxData_sameWay taken
      exact ⟨same.underway, Nat.le_of_eq (congrArg List.length same.queue)⟩
  | rxData packet stack =>
      have same := lorawanRxData_sameWay taken
      exact ⟨same.underway, Nat.le_of_eq (congrArg List.length same.queue)⟩
  | setEnabled enabled =>
      cases taken
      exact ⟨rfl, Nat.le_refl _⟩
  | push msg => exact absurd rfl (noPush msg)

/-! ## Every uplink is accounted for -/

def PushPc.held : PushPc → Option Acceptance
  | .take source msg => some ⟨source, msg⟩
  | .put source msg => some ⟨source, msg⟩
  | _ => none

def Acceptance.Decodes (decode : List UInt8 → Option (List UInt8))
    (acceptance : Acceptance) : Prop :=
  decode acceptance.source = some acceptance.msg.message

structure Accounted (decode : List UInt8 → Option (List UInt8))
    (uplinks : Uplinks Thread) : Prop where
  underway : uplinks.lora.underway = uplinks.accepted.map Acceptance.msg
  accepted : ∀ acceptance ∈ uplinks.accepted, acceptance.Decodes decode
  held : ∀ thread acceptance,
    (uplinks.pushers thread).held = some acceptance →
      acceptance.Decodes decode
  waiting : uplinks.lora.loraTxQueue.length ≤ queueCapacity

section Accounted

variable [DecidableEq Thread]
  {decode : List UInt8 → Option (List UInt8)}
  {uplinks next : Uplinks Thread}

omit [DecidableEq Thread] in
theorem boot_accounted :
    Accounted decode (Uplinks.boot : Uplinks Thread) where
  underway := rfl
  accepted := by simp [Uplinks.boot]
  held := by simp [Uplinks.boot, PushPc.held]
  waiting := Nat.zero_le _

theorem held_goto
    (held : ∀ thread acceptance,
      (uplinks.pushers thread).held = some acceptance →
        acceptance.Decodes decode)
    (thread : Thread) {pc : PushPc}
    (here : ∀ acceptance, pc.held = some acceptance →
      acceptance.Decodes decode) :
    ∀ other acceptance,
      ((uplinks.goto thread pc).pushers other).held = some acceptance →
        acceptance.Decodes decode := by
  intro other acceptance holds
  by_cases same : other = thread
  · subst same
    simp only [Uplinks.goto, Function.update_self] at holds
    exact here acceptance holds
  · simp only [Uplinks.goto, Function.update_of_ne same] at holds
    exact held other acceptance holds

theorem Accounted.goto (accounted : Accounted decode uplinks)
    (thread : Thread) {pc : PushPc}
    (here : ∀ acceptance, pc.held = some acceptance →
      acceptance.Decodes decode) :
    Accounted decode (uplinks.goto thread pc) where
  underway := accounted.underway
  accepted := accounted.accepted
  held := held_goto accounted.held thread here
  waiting := accounted.waiting

omit [DecidableEq Thread] in
theorem Accounted.withPermits (accounted : Accounted decode uplinks)
    (permits : Nat) :
    Accounted decode { uplinks with semLoraPush := permits } where
  underway := accounted.underway
  accepted := accounted.accepted
  held := accounted.held
  waiting := accounted.waiting

omit [DecidableEq Thread] in
/-- `k_msgq_put` accepts a message at the tail, or refuses it. -/
theorem Accounted.put (accounted : Accounted decode uplinks)
    {source : List UInt8} {msg : LoraTxMessage}
    (decodes : decode source = some msg.message) :
    Accounted decode
      { uplinks with
        lora := { uplinks.lora with
          loraTxQueue := (kMsgqPut uplinks.lora.loraTxQueue msg).2 }
        accepted :=
          if (kMsgqPut uplinks.lora.loraTxQueue msg).1 = 0 then
            uplinks.accepted ++ [Acceptance.mk source msg]
          else
            uplinks.accepted } := by
  by_cases room : uplinks.lora.loraTxQueue.length < queueCapacity
  · have took : (kMsgqPut uplinks.lora.loraTxQueue msg).1 = 0 :=
      (kMsgqPut_fst_eq_zero_iff msg).mpr room
    simp only [kMsgqPut_snd, took, if_true]
    refine ⟨?_, ?_, accounted.held, ?_⟩
    · have before := accounted.underway
      simp only [System.underway] at before ⊢
      rw [List.map_append, ← before]
      exact (List.append_assoc _ _ _).symm
    · intro acceptance member
      rcases List.mem_append.mp member with old | new
      · exact accounted.accepted acceptance old
      · rw [List.mem_singleton.mp new]
        exact decodes
    · rw [List.length_append]
      exact room
  · have refused : (kMsgqPut uplinks.lora.loraTxQueue msg).1 ≠ 0 :=
      fun took => room ((kMsgqPut_fst_eq_zero_iff msg).mp took)
    simp only [kMsgqPut_snd, if_neg refused]
    exact accounted

theorem Accounted.resume (accounted : Accounted decode uplinks)
    {thread : Thread} (taken : resumePush uplinks thread = some next) :
    Accounted decode next := by
  cases here : uplinks.pushers thread with
  | idle => simp [resumePush, here] at taken
  | take source msg =>
      have holds := accounted.held thread ⟨source, msg⟩
        (by rw [here]; rfl)
      by_cases noPermit : uplinks.semLoraPush = 0
      · simp [resumePush, here, noPermit] at taken
      · simp only [resumePush, here, if_neg noPermit, Option.some.injEq]
          at taken
        subst taken
        apply (accounted.withPermits (uplinks.semLoraPush - 1)).goto
        intro acceptance same
        cases same
        exact holds
  | put source msg =>
      have holds := accounted.held thread ⟨source, msg⟩
        (by rw [here]; rfl)
      simp only [resumePush, here, Option.some.injEq] at taken
      subst taken
      exact (accounted.put holds).goto thread (by simp [PushPc.held])
  | give ret =>
      simp only [resumePush, here, Option.some.injEq] at taken
      subst taken
      exact (accounted.withPermits 1).goto thread (by simp [PushPc.held])

theorem Accounted.step {event : UplinkEvent Thread}
    (accounted : Accounted decode uplinks)
    (taken : uplinkStep decode uplinks event = some next) :
    Accounted decode next := by
  cases event with
  | resume thread => exact accounted.resume taken
  | call thread value beyond =>
      by_cases isIdle : uplinks.pushers thread = .idle
      · cases outcome : loraPushDecode decode value beyond with
        | error ret =>
            simp only [uplinkStep, if_pos isIdle, outcome,
              Option.some.injEq] at taken
            subst taken
            exact accounted
        | ok msg =>
            simp only [uplinkStep, if_pos isIdle, outcome,
              Option.some.injEq] at taken
            subst taken
            apply accounted.goto
            intro acceptance same
            cases same
            exact loraPushDecode_eq_ok_iff.mp outcome
      · simp [uplinkStep, isIdle] at taken
  | lora event =>
      have inner : ∃ after, Lora.step uplinks.lora event = some after ∧
          (∀ msg, event ≠ .push msg) ∧
          next = { uplinks with
            lora := after
            semLoraPush := semLoraPushAfter uplinks.semLoraPush
              uplinks.lora.pc event } := by
        cases event with
        | push msg => simp [uplinkStep] at taken
        | _ =>
            simp only [uplinkStep] at taken
            obtain ⟨after, stepped, same⟩ := Option.map_eq_some_iff.mp taken
            exact ⟨after, stepped, by simp, same.symm⟩
      obtain ⟨after, stepped, noPush, same⟩ := inner
      obtain ⟨underway, queue⟩ := step_underway noPush stepped
      subst same
      exact ⟨underway.trans accounted.underway, accounted.accepted,
        accounted.held, queue.trans accounted.waiting⟩

end Accounted

variable [DecidableEq Thread]

/-- After any run, what was passed to `lorawan_send`, the message that is
dequeued and not sent yet, and the queue together are the messages that
`lora_push` enqueued, in order.  Each is what its source decodes to and has 1
to 53 bytes, and at most four are waiting. -/
theorem uplinks_conserved (decode : List UInt8 → Option (List UInt8))
    (events : List (UplinkEvent Thread)) (uplinks : Uplinks Thread)
    (reached : execute (uplinkStep decode) Uplinks.boot events =
      some uplinks) :
    uplinks.lora.sent ++ uplinks.lora.pc.inFlight ++
          uplinks.lora.loraTxQueue =
        uplinks.accepted.map Acceptance.msg ∧
      (∀ acceptance ∈ uplinks.accepted,
        decode acceptance.source = some acceptance.msg.message ∧
          1 ≤ acceptance.msg.length ∧ acceptance.msg.length ≤ 53) ∧
      uplinks.lora.loraTxQueue.length ≤ 4 := by
  have accounted : Accounted decode uplinks :=
    execute_invariant (Accounted decode) boot_accounted
      (fun _ _ _ accounted _ taken => accounted.step taken)
      (meets_true Uplinks.boot events) reached
  refine ⟨accounted.underway, ?_, accounted.waiting⟩
  intro acceptance member
  exact ⟨accounted.accepted acceptance member, acceptance.msg.nonempty,
    acceptance.msg.fits⟩

/-- A run in which thread `0` pushes the byte `A` and the LoRa thread joins
and dequeues it. -/
theorem uplinks_conserved_run :
    ∃ uplinks : Uplinks Nat,
      execute (uplinkStep fun source =>
          if source = ascii "QQ==" then some [65] else none) Uplinks.boot
          ([.lora (.lora 0 []), .lora (.setEnabled true),
              .call 0 (ascii "\"QQ==\"") [], .resume 0, .resume 0,
              .resume 0] ++
            List.replicate 14 (.lora (.lora 0 []))) = some uplinks ∧
        uplinks.lora.sent ++ uplinks.lora.pc.inFlight ++
            uplinks.lora.loraTxQueue =
          uplinks.accepted.map Acceptance.msg := by
  obtain ⟨uplinks, reached⟩ := Option.isSome_iff_exists.mp
    (show (execute (uplinkStep fun source =>
        if source = ascii "QQ==" then some [65] else none)
        (Uplinks.boot : Uplinks Nat)
        ([.lora (.lora 0 []), .lora (.setEnabled true),
            .call 0 (ascii "\"QQ==\"") [], .resume 0, .resume 0,
            .resume 0] ++
          List.replicate 14 (.lora (.lora 0 [])))).isSome = true by decide)
  exact ⟨uplinks, reached, (uplinks_conserved _ _ uplinks reached).1⟩

end LoraIot.Lora
