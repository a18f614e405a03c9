import LoraIot.Lora.Host
import Mathlib.Data.List.ModifyLast
import Mathlib.Data.List.ReduceOption

/-!
# What a host knows of the radio

A host on the UART never sees the radio.  It keeps a ledger of the messages
that the device says it sends, with the errors that follow them, of the
radio's answers and of the downlinks.  When the notifications fit their
buffers and begin outside each other, the ledger that the radio itself would
keep, from the calls of `lorawan_send` and of the two callbacks, is the same as
soon as no report is owed.
-/

namespace LoraIot.Lora

open LoraIot.Runs LoraIot.Simulations

/-- Transmissions with what `lorawan_send` returned for them, their outcomes,
and what has been received. -/
structure Ledger where
  uplinks : List (List UInt8 × Int)
  outcomes : List TxResult
  downlinks : List RxPacket
  deriving DecidableEq, Repr

namespace Ledger

def blank : Ledger := ⟨[], [], []⟩

/-- What a host writes down when it has read a report.  A transmission is
taken to be accepted until a refusal follows it. -/
def record (ledger : Ledger) : Report → Ledger
  | .join _ => ledger
  | .sending payload =>
      { ledger with uplinks := ledger.uplinks ++ [(payload, 0)] }
  | .refused ret =>
      { ledger with
        uplinks := ledger.uplinks.modifyLast fun entry => (entry.1, ret) }
  | .answered result =>
      { ledger with outcomes := ledger.outcomes ++ [result] }
  | .received packet =>
      { ledger with downlinks := ledger.downlinks ++ [packet] }

def witness (ledger : Ledger) (system : System) : Event → Ledger
  | .lora ret _ =>
      match system.pc with
      | .send msg =>
          { ledger with uplinks := ledger.uplinks ++ [(msg.message, ret)] }
      | _ => ledger
  | .txData result =>
      match system.txData with
      | .idle => { ledger with outcomes := ledger.outcomes ++ [result] }
      | _ => ledger
  | .rxData packet _ =>
      match system.rxData with
      | .idle =>
          if packet.buffer = [] then
            ledger
          else
            { ledger with downlinks := ledger.downlinks ++ [packet] }
      | _ => ledger
  | _ => ledger

end Ledger

def hostLedger (stream : List UInt8) : Ledger :=
  (readReports stream).reduceOption.foldl Ledger.record Ledger.blank

def radioLedger (events : List Event) : Ledger :=
  (trace step boot events).foldl
    (fun ledger taken => ledger.witness taken.1 taken.2) Ledger.blank

/-- The LoRa thread has announced this message and not called `lorawan_send`
yet. -/
def Pc.announced : Pc → List LoraTxMessage
  | .sendPayload msg => [msg]
  | .sendClose msg => [msg]
  | .send msg => [msg]
  | _ => []

def TxPc.owed : TxPc → List TxResult
  | .takeRxCb result => [result]
  | .head result => [result]
  | _ => []

def RxPc.owed : RxPc → List RxPacket
  | .takeRxCb packet => [packet]
  | .head packet => [packet]
  | _ => []

/-- The announcement comes before the call of `lorawan_send`, a refusal after
it. -/
def SameUplinks (told happened : List (List UInt8 × Int)) : Pc → Prop
  | .failHead ret =>
      ∃ earlier payload, happened = earlier ++ [(payload, ret)] ∧
        told = earlier ++ [(payload, 0)]
  | pc =>
      told = happened ++ pc.announced.map fun msg => (msg.message, 0)

/-- The host's ledger is behind the radio's by what the callbacks owe. -/
structure Booked (told happened : Ledger) (system : System) : Prop where
  uplinks : SameUplinks told.uplinks happened.uplinks system.pc
  outcomes : happened.outcomes = told.outcomes ++ system.txData.owed
  downlinks : happened.downlinks = told.downlinks ++ system.rxData.owed

theorem boot_booked : Booked Ledger.blank Ledger.blank boot :=
  ⟨rfl, rfl, rfl⟩

section Booked

variable {told happened : Ledger} {system next : System}

/-- A step of the LoRa thread leaves the rest of both ledgers alone. -/
theorem lora_others (told happened : Ledger) (system : System) (ret : Int)
    (stack : List UInt8) :
    let read := (heralded system (.lora ret stack)).foldl Ledger.record told
    let after := happened.witness system (.lora ret stack)
    (read.outcomes = told.outcomes ∧ read.downlinks = told.downlinks) ∧
      after.outcomes = happened.outcomes ∧
        after.downlinks = happened.downlinks := by
  cases place : system.pc <;>
    simp [heralded, Ledger.witness, place, Ledger.record]

theorem Booked.loraThread_uplinks (booked : Booked told happened system)
    (ret : Int) (stack : List UInt8) :
    SameUplinks
      ((heralded system (.lora ret stack)).foldl Ledger.record told).uplinks
      (happened.witness system (.lora ret stack)).uplinks
      (loraThread system ret stack).pc := by
  have same := booked.uplinks
  cases place : system.pc
  all_goals
    rw [place] at same
    simp only [heralded, Ledger.witness, loraThread, place, List.foldl_nil,
      List.foldl_cons, Ledger.record]
  case send msg =>
    have ahead : told.uplinks = happened.uplinks ++ [(msg.message, 0)] := same
    split
    · exact ⟨_, _, rfl, ahead⟩
    · rename_i accepted
      rw [not_not] at accepted
      simp only [SameUplinks, System.goto_pc, Pc.announced, List.map_nil,
        List.append_nil, ahead, accepted]
  case failHead status =>
    obtain ⟨earlier, payload, before, ahead⟩ := same
    simp only [SameUplinks, System.goto_pc, Pc.announced, List.map_nil,
      List.append_nil, ahead, before, List.modifyLast_concat]
  case sendHead msg =>
    have equal : told.uplinks = happened.uplinks ++ [] := same
    rw [List.append_nil] at equal
    simp only [SameUplinks, System.goto_pc, Pc.announced, List.map_cons,
      List.map_nil, equal]
  case joinLine status => cases status <;> exact same
  case join =>
    rw [System.goto_pc, joinStatus]
    split
    · exact same
    · split <;> exact same
  case dequeue =>
    split
    · exact same
    · exact same
  all_goals
    first
    | exact same
    | (rw [System.goto_pc]; split <;> exact same)

/-- A call of `lorawan_tx_data` is owed from its start to its first line. -/
theorem Booked.txData (booked : Booked told happened system)
    {result : TxResult} (taken : step system (.txData result) = some next) :
    Booked ((heralded system (.txData result)).foldl Ledger.record told)
      (happened.witness system (.txData result)) next := by
  obtain ⟨pc, _, rxData⟩ := step_places taken
  have uplinks := booked.uplinks
  have outcomes := booked.outcomes
  have downlinks := booked.downlinks
  rw [← pc (by simp [actor])] at uplinks
  rw [← rxData (by simp [actor])] at downlinks
  simp only [Lora.step, lorawanTxData] at taken
  cases stands : system.txData with
  | takeRxCb pending =>
      simp only [stands] at taken outcomes
      split at taken
      · cases taken
      · cases taken
        simp only [heralded, Ledger.witness, stands]
        exact ⟨uplinks, outcomes, downlinks⟩
  | head pending =>
      simp only [stands] at taken outcomes
      cases taken
      simp only [heralded, Ledger.witness, stands]
      exact ⟨uplinks, outcomes.trans (List.append_nil _).symm, downlinks⟩
  | idle =>
      simp only [stands] at taken outcomes
      cases taken
      simp only [heralded, Ledger.witness, stands]
      exact ⟨uplinks,
        congrArg (· ++ [result]) (outcomes.trans (List.append_nil _)),
        downlinks⟩
  | _ =>
      simp only [stands] at taken outcomes
      cases taken
      simp only [heralded, Ledger.witness, stands]
      exact ⟨uplinks, outcomes, downlinks⟩

theorem Booked.rxData (booked : Booked told happened system)
    {packet : RxPacket} {stack : List UInt8}
    (taken : step system (.rxData packet stack) = some next) :
    Booked ((heralded system (.rxData packet stack)).foldl Ledger.record told)
      (happened.witness system (.rxData packet stack)) next := by
  obtain ⟨pc, txData, _⟩ := step_places taken
  have uplinks := booked.uplinks
  have outcomes := booked.outcomes
  have downlinks := booked.downlinks
  rw [← pc (by simp [actor])] at uplinks
  rw [← txData (by simp [actor])] at outcomes
  simp only [Lora.step, lorawanRxData] at taken
  cases stands : system.rxData with
  | takeRxCb pending =>
      simp only [stands] at taken downlinks
      split at taken
      · cases taken
      · cases taken
        simp only [heralded, Ledger.witness, stands]
        exact ⟨uplinks, outcomes, downlinks⟩
  | head pending =>
      simp only [stands] at taken downlinks
      cases taken
      simp only [heralded, Ledger.witness, stands]
      exact ⟨uplinks, outcomes, downlinks.trans (List.append_nil _).symm⟩
  | idle =>
      simp only [stands] at taken downlinks
      simp only [heralded, Ledger.witness, stands]
      split at taken
      · cases taken
        rw [if_pos ‹_›]
        exact ⟨uplinks, outcomes, by rw [stands]; exact downlinks⟩
      · cases taken
        rw [if_neg ‹_›]
        exact ⟨uplinks, outcomes,
          congrArg (· ++ [packet])
            (downlinks.trans (List.append_nil _))⟩
  | _ =>
      simp only [stands] at taken downlinks
      cases taken
      simp only [heralded, Ledger.witness, stands]
      exact ⟨uplinks, outcomes, downlinks⟩

theorem Booked.step (booked : Booked told happened system) {event : Event}
    (taken : step system event = some next) :
    Booked ((heralded system event).foldl Ledger.record told)
      (happened.witness system event) next := by
  cases event with
  | lora ret stack =>
      obtain ⟨⟨outcomes, downlinks⟩, outcomes', downlinks'⟩ :=
        lora_others told happened system ret stack
      obtain ⟨_, txData, rxData⟩ := step_places taken
      cases taken
      refine ⟨booked.loraThread_uplinks ret stack, ?_, ?_⟩
      · rw [outcomes, outcomes', txData (by simp [actor]), booked.outcomes]
      · rw [downlinks, downlinks', rxData (by simp [actor]), booked.downlinks]
  | txData result => exact booked.txData taken
  | rxData packet stack => exact booked.rxData taken
  | setEnabled enabled =>
      cases taken
      exact ⟨booked.uplinks, booked.outcomes, booked.downlinks⟩
  | push msg =>
      cases taken
      simp only [heralded, Ledger.witness, List.foldl_nil]
      rw [push]
      split
      · exact ⟨booked.uplinks, booked.outcomes, booked.downlinks⟩
      · exact booked

/-- The two ledgers after a run. -/
theorem booked_of_reached {events : List Event}
    (reached : execute Lora.step boot events = some system) :
    Booked ((answers Lora.step heralded boot events).foldl Ledger.record
        Ledger.blank)
      (radioLedger events) system := by
  have both : execute Lora.step boot events = some system ∧
      Booked ((answers Lora.step heralded boot events).foldl Ledger.record
          Ledger.blank)
        (radioLedger events) system := by
    refine execute_induction
      (motive := fun events system =>
        execute Lora.step boot events = some system ∧
          Booked ((answers Lora.step heralded boot events).foldl
              Ledger.record Ledger.blank)
            (radioLedger events) system)
      ⟨rfl, boot_booked⟩ ?_ (meets_true boot events) reached
    intro earlier middle event next soFar _ taken
    obtain ⟨reachedMiddle, booked⟩ := soFar
    refine ⟨execute_concat_eq_some.mpr ⟨middle, reachedMiddle, taken⟩, ?_⟩
    rw [answers_concat reachedMiddle, List.foldl_append, radioLedger,
      trace_concat reachedMiddle, List.foldl_concat]
    exact booked.step taken
  exact both.2

/-- Nothing that has happened at the radio is still to be reported, and
nothing has been reported ahead. -/
def System.Settled (system : System) : Prop :=
  (system.pc.announced = [] ∧ ∀ ret, system.pc ≠ .failHead ret) ∧
    system.txData.owed = [] ∧ system.rxData.owed = []

theorem Booked.of_settled (booked : Booked told happened system)
    (settled : system.Settled) : told = happened := by
  obtain ⟨⟨announced, accepted⟩, outcomes, downlinks⟩ := settled
  have sameUplinks : told.uplinks = happened.uplinks := by
    have same := booked.uplinks
    cases place : system.pc with
    | failHead ret => exact absurd place (accepted ret)
    | _ =>
        rw [place] at same announced
        simpa only [SameUplinks, announced, List.map_nil, List.append_nil]
          using same
  have sameOutcomes := booked.outcomes
  have sameDownlinks := booked.downlinks
  rw [outcomes, List.append_nil] at sameOutcomes
  rw [downlinks, List.append_nil] at sameDownlinks
  cases told
  cases happened
  congr 1
  · exact sameOutcomes.symm
  · exact sameDownlinks.symm

theorem Booked.payloads (booked : Booked told happened system) :
    told.uplinks.map Prod.fst =
      happened.uplinks.map Prod.fst ++
        system.pc.announced.map LoraTxMessage.message := by
  have same := booked.uplinks
  cases place : system.pc with
  | failHead ret =>
      rw [place] at same
      obtain ⟨earlier, payload, before, ahead⟩ := same
      simp [before, ahead, Pc.announced]
  | _ =>
      rw [place] at same
      simp only [SameUplinks] at same
      rw [same, List.map_append, List.map_map]
      rfl

end Booked

/-- A ledger with more in it, of which only the last code may differ. -/
structure Behind (ledger later : Ledger) : Prop where
  payloads :
    ledger.uplinks.map Prod.fst <+: later.uplinks.map Prod.fst
  outcomes : ledger.outcomes <+: later.outcomes
  downlinks : ledger.downlinks <+: later.downlinks

theorem map_fst_modifyLast (ret : Int)
    (uplinks : List (List UInt8 × Int)) :
    (uplinks.modifyLast fun entry => (entry.1, ret)).map Prod.fst =
      uplinks.map Prod.fst := by
  induction uplinks using List.reverseRecOn with
  | nil => rfl
  | append_singleton earlier entry _ =>
      rw [List.modifyLast_concat, List.map_append, List.map_append,
        List.map_singleton, List.map_singleton]

theorem behind_record (ledger : Ledger) (report : Report) :
    Behind ledger (ledger.record report) := by
  cases report with
  | join status =>
      exact ⟨List.prefix_rfl, List.prefix_rfl, List.prefix_rfl⟩
  | sending payload =>
      refine ⟨?_, List.prefix_rfl, List.prefix_rfl⟩
      rw [Ledger.record, List.map_append]
      exact List.prefix_append _ _
  | refused ret =>
      refine ⟨?_, List.prefix_rfl, List.prefix_rfl⟩
      rw [Ledger.record, map_fst_modifyLast]
  | answered result =>
      exact ⟨List.prefix_rfl, List.prefix_append _ _, List.prefix_rfl⟩
  | received packet =>
      exact ⟨List.prefix_rfl, List.prefix_rfl, List.prefix_append _ _⟩

theorem behind_foldl (ledger : Ledger) (reports : List Report) :
    Behind ledger (reports.foldl Ledger.record ledger) := by
  induction reports generalizing ledger with
  | nil => exact ⟨List.prefix_rfl, List.prefix_rfl, List.prefix_rfl⟩
  | cons report rest inductionHypothesis =>
      have first := behind_record ledger report
      have more := inductionHypothesis (ledger.record report)
      exact ⟨first.payloads.trans more.payloads,
        first.outcomes.trans more.outcomes,
        first.downlinks.trans more.downlinks⟩

theorem record_seen (ledger : Ledger) (report : Report) :
    ledger.record report.seen = ledger.record report := by
  cases report <;> rfl

theorem foldl_read (ledger : Ledger) (reports : List Report) :
    (reports.map fun report => some report.seen).reduceOption.foldl
        Ledger.record ledger =
      reports.foldl Ledger.record ledger := by
  induction reports generalizing ledger with
  | nil => rfl
  | cons report rest inductionHypothesis =>
      rw [List.map_cons, List.reduceOption_cons_of_some, List.foldl_cons,
        List.foldl_cons, record_seen]
      exact inductionHypothesis _

/-- When every notification fits its buffer and begins outside the others, the
host's ledger never holds an outcome or a downlink that the radio has not had,
nor a message that it is not at least about to have, in the order of the radio;
and when nobody is sending and no report is owed both ledgers are the same,
return codes included. -/
theorem host_knows_radio (events : List WireEvent) (wired : Wired)
    (reached : execute wireStep Wired.boot events = some wired)
    (announces : Meets step AnnouncesLegibly boot
      (answers wireStep committed Wired.boot events)) :
    ((hostLedger wired.tty.wire).uplinks.map Prod.fst <+:
        (radioLedger (answers wireStep committed Wired.boot
            events)).uplinks.map Prod.fst ++
          wired.system.pc.announced.map LoraTxMessage.message ∧
      (hostLedger wired.tty.wire).outcomes <+:
        (radioLedger (answers wireStep committed Wired.boot
          events)).outcomes ∧
      (hostLedger wired.tty.wire).downlinks <+:
        (radioLedger (answers wireStep committed Wired.boot
          events)).downlinks) ∧
    (wired.Quiet → wired.system.Settled →
      hostLedger wired.tty.wire =
        radioLedger (answers wireStep committed Wired.boot events)) := by
  obtain ⟨system, abstractReached, same, _⟩ :=
    wire_simulates.execute boot_refines (meets_true _ events) reached
  subst same
  have booked := booked_of_reached abstractReached
  have read := readReports_wire reached announces
  refine ⟨?_, fun quiet settled => ?_⟩
  · obtain ⟨rest, whole⟩ := read
    have behind : Behind (hostLedger wired.tty.wire)
        ((reported events).foldl Ledger.record Ledger.blank) := by
      rw [← foldl_read, ← whole, List.reduceOption_append,
        List.foldl_append]
      exact behind_foldl _ _
    refine ⟨?_, ?_, ?_⟩
    · rw [← booked.payloads]
      exact behind.payloads
    · rw [booked.outcomes]
      exact behind.outcomes.trans (List.prefix_append _ _)
    · rw [booked.downlinks]
      exact behind.downlinks.trans (List.prefix_append _ _)
  · rw [hostLedger, readReports_wire_of_quiet reached announces quiet,
      foldl_read]
    exact booked.of_settled settled

/-- The LoRa thread passes over the join, since `enabled` is set between its
two reads, and the stack refuses its message. -/
def sendsAndFails : List WireEvent :=
  let written : Nat → List WireEvent := fun length =>
    .run (.lora (-22) []) ::
      List.replicate (length + 3) (.send .loraThread)
  [[.initialise], List.replicate 3 (.run (.lora 0 [])),
    [.run (.setEnabled true), .run (.push ⟨[0x64], by decide, by decide⟩)],
    List.replicate 4 (.run (.lora 0 [])), written 35, written 4, written 2,
    [.run (.lora (-22) [])], written 28, written 7, written 2].flatten

theorem sendsAndFails_known :
    ∃ wired, execute wireStep Wired.boot sendsAndFails = some wired ∧
      hostLedger wired.tty.wire = ⟨[([0x64], -22)], [], []⟩ := by
  have runs : (execute wireStep Wired.boot sendsAndFails).any (fun wired =>
      ([Writer.loraThread, .txData, .rxData].all fun writer =>
        !wired.system.mid writer && !(wired.tty.pc writer).inside) &&
      decide (wired.system.pc = .failSleep ∧ wired.system.txData = .idle ∧
        wired.system.rxData = .idle)) = true := by
    decide
  obtain ⟨wired, reached, ends⟩ := (Option.any_eq_true _ _).mp runs
  rw [Bool.and_eq_true, List.all_eq_true, decide_eq_true_eq] at ends
  obtain ⟨outside, pc, txData, rxData⟩ := ends
  have quiet : wired.Quiet := fun writer => by
    have here := outside writer (by cases writer <;> decide)
    simpa using here
  have settled : wired.system.Settled := by
    rw [System.Settled, pc, txData, rxData]
    exact ⟨⟨rfl, fun ret impossible => by cases impossible⟩, rfl, rfl⟩
  obtain ⟨_, same⟩ :=
    host_knows_radio sendsAndFails wired reached (by decide)
  exact ⟨wired, reached, (same quiet settled).trans (by decide)⟩

end LoraIot.Lora
