import LoraIot.Lora.Display
import LoraIot.Lora.Format
import LoraIot.Lora.Wire

/-!
# What a host reads from the wire

A host that reads the wire of a run line by line learns what the device has
reported, in order and byte by byte, as long as no notification begins inside
another one and each fits the buffers it is printed in.
-/

namespace LoraIot.Lora

open LoraIot.Base64 LoraIot.CStrings LoraIot.Framing LoraIot.Records
open LoraIot.Runs LoraIot.Simulations

/-- The notification that a step begins. -/
def heralded (system : System) : Event → List Report
  | .lora _ _ =>
      match system.pc with
      | .joinLine status => [.join status]
      | .sendHead msg => [.sending msg.message]
      | .failHead ret => [.refused ret]
      | _ => []
  | .txData _ =>
      match system.txData with
      | .head result => [.answered result]
      | _ => []
  | .rxData _ _ =>
      match system.rxData with
      | .head packet => [.received packet]
      | _ => []
  | _ => []

/-- The step begins its notification outside the others, and the notification
fits its buffers. -/
def AnnouncesLegibly (system : System) (event : Event) : Prop :=
  BeginsOutside system event ∧
    ∀ report ∈ heralded system event, report.Legible

instance (system : System) (event : Event) :
    Decidable (AnnouncesLegibly system event) :=
  inferInstanceAs (Decidable (_ ∧ _))

def System.bytes (system : System) : List UInt8 :=
  (system.uart.map Piece.content).flatten

def wholeBytes (reports : List Report) : List UInt8 :=
  reports.flatMap fun report => report.text ++ lineEnd

/-- A writer stands in the middle of this notification and has written this
part of it. -/
def Midway (system : System) (report : Report) (written : List UInt8) :
    Writer → Prop
  | .loraThread =>
      match system.pc with
      | .sendPayload msg =>
          report = .sending msg.message ∧ written = sendHead.content
      | .sendClose _ => written = report.text
      | .failStatus ret =>
          report = .refused ret ∧ written = failHead.content
      | .failClose => written = report.text
      | _ => False
  | .txData =>
      match system.txData with
      | .status result =>
          report = .answered result ∧
            written = (txHead result.success).content
      | .close => written = report.text
      | _ => False
  | .rxData =>
      match system.rxData with
      | .payload packet =>
          report = .received packet ∧ written = rxHead.content
      | .status packet =>
          report = .received packet ∧
            written = rxHead.content ++ encode packet.buffer
      | .close => written = report.text
      | _ => False

/-- The pieces on the UART are these notifications in full, or all of them but
the last in full and the last as far as its writer has got. -/
inductive Told (system : System) (reports : List Report) : Prop
  | whole (closed : ∀ writer, system.mid writer = false)
      (bytes : system.bytes = wholeBytes reports)
  | midway (earlier : List Report) (report : Report) (written : List UInt8)
      (writer : Writer) (all : reports = earlier ++ [report])
      (legible : report.Legible)
      (bytes : system.bytes = wholeBytes earlier ++ written)
      (stands : Midway system report written writer)
      (others : ∀ other, other ≠ writer → system.mid other = false)

theorem Midway.mid {system : System} {report : Report} {written : List UInt8}
    {writer : Writer} (stands : Midway system report written writer) :
    system.mid writer = true := by
  cases writer with
  | loraThread =>
      simp only [Midway] at stands
      simp only [System.mid]
      split at stands <;> first | exact stands.elim | simp only [*, Pc.mid]
  | txData =>
      simp only [Midway] at stands
      simp only [System.mid]
      split at stands <;> first | exact stands.elim | simp only [*, TxPc.mid]
  | rxData =>
      simp only [Midway] at stands
      simp only [System.mid]
      split at stands <;> first | exact stands.elim | simp only [*, RxPc.mid]

theorem lineOf_of_mid {system : System} {event : Event} {writer : Writer}
    (mid : system.mid writer = true) (isActor : actor event = some writer) :
    ∃ line, lineOf system event = some line := by
  cases event with
  | lora ret stack =>
      obtain rfl := Option.some.inj isActor
      simp only [System.mid] at mid
      cases stands : system.pc <;> rw [stands] at mid <;>
        first | (simp only [lineOf, stands]; exact ⟨_, rfl⟩) | cases mid
  | txData result =>
      obtain rfl := Option.some.inj isActor
      simp only [System.mid] at mid
      cases stands : system.txData <;> rw [stands] at mid <;>
        first | (simp only [lineOf, stands]; exact ⟨_, rfl⟩) | cases mid
  | rxData packet stack =>
      obtain rfl := Option.some.inj isActor
      simp only [System.mid] at mid
      cases stands : system.rxData <;> rw [stands] at mid <;>
        first | (simp only [lineOf, stands]; exact ⟨_, rfl⟩) | cases mid
  | setEnabled enabled => cases isActor
  | push msg => cases isActor

/-- What a writer has written does not depend on the others. -/
theorem Midway.of_other {system next : System} {event : Event}
    {report : Report} {written : List UInt8} {writer : Writer}
    (stands : Midway system report written writer)
    (notActor : actor event ≠ some writer)
    (taken : step system event = some next) :
    Midway next report written writer := by
  obtain ⟨pc, txData, rxData⟩ := step_places taken
  cases writer with
  | loraThread =>
      simp only [Midway, pc notActor]
      exact stands
  | txData =>
      simp only [Midway, txData notActor]
      exact stands
  | rxData =>
      simp only [Midway, rxData notActor]
      exact stands

theorem heralded_of_not_begins {system : System} {event : Event}
    (notBegun : begins system event = none) : heralded system event = [] := by
  cases event with
  | lora ret stack =>
      cases stands : system.pc <;> simp only [begins, stands] at notBegun <;>
        first | (simp only [heralded, stands]; done) | cases notBegun
  | txData result =>
      cases stands : system.txData <;>
        simp only [begins, stands] at notBegun <;>
        first | (simp only [heralded, stands]; done) | cases notBegun
  | rxData packet stack =>
      cases stands : system.rxData <;>
        simp only [begins, stands] at notBegun <;>
        first | (simp only [heralded, stands]; done) | cases notBegun
  | setEnabled enabled => rfl
  | push msg => rfl

theorem begin_piece {system next : System} {event : Event} {line : Line}
    (writes : lineOf system event = some line) (opens : line.opens = true)
    (taken : step system event = some next) :
    ∃ report, heralded system event = [report] ∧
      ((line.closes = true ∧ line.content = report.text ++ lineEnd) ∨
        (line.closes = false ∧
          Midway next report line.content line.writer)) := by
  cases event with
  | lora ret stack =>
      cases taken
      simp only [lineOf] at writes
      cases place : system.pc with
      | joinLine status =>
          simp only [place] at writes
          cases writes
          exact ⟨.join status, by simp only [heralded, place],
            Or.inl ⟨rfl, wholeLine_content status⟩⟩
      | sendHead msg =>
          simp only [place] at writes
          cases writes
          refine ⟨.sending msg.message, by simp only [heralded, place],
            Or.inr ⟨rfl, ?_⟩⟩
          simp only [loraThread, place]
          exact ⟨rfl, rfl⟩
      | failHead ret =>
          simp only [place] at writes
          cases writes
          refine ⟨.refused ret, by simp only [heralded, place],
            Or.inr ⟨rfl, ?_⟩⟩
          simp only [loraThread, place]
          exact ⟨rfl, rfl⟩
      | sendPayload _ | sendClose _ | failStatus _ | failClose =>
          simp only [place] at writes
          cases writes
          cases opens
      | _ =>
          simp only [place] at writes
          cases writes
  | txData result =>
      simp only [lineOf] at writes
      cases place : system.txData with
      | head result =>
          simp only [place] at writes
          simp only [step, lorawanTxData, place] at taken
          cases writes
          cases taken
          exact ⟨.answered result, by simp only [heralded, place],
            Or.inr ⟨rfl, rfl, rfl⟩⟩
      | status _ | close =>
          simp only [place] at writes
          cases writes
          cases opens
      | _ =>
          simp only [place] at writes
          cases writes
  | rxData packet stack =>
      simp only [lineOf] at writes
      cases place : system.rxData with
      | head packet =>
          simp only [place] at writes
          simp only [step, lorawanRxData, place] at taken
          cases writes
          cases taken
          exact ⟨.received packet, by simp only [heralded, place],
            Or.inr ⟨rfl, rfl, rfl⟩⟩
      | payload _ | status _ | close =>
          simp only [place] at writes
          cases writes
          cases opens
      | _ =>
          simp only [place] at writes
          cases writes
  | setEnabled enabled => cases writes
  | push msg => cases writes

theorem closing_content (writer : Writer) :
    (closing writer).content = lineEnd := by
  cases writer <;> decide

theorem display_of_legible {payload : List UInt8}
    (fits : payload.length ≤ 45) (stack : List UInt8) :
    (displayBase64Data stack payload).1 = encode payload :=
  (displaysExactly_of_fits fits stack).sent

theorem next_piece {system next : System} {event : Event} {line : Line}
    {report : Report} {written : List UInt8}
    (writes : lineOf system event = some line)
    (stands : Midway system report written line.writer)
    (legible : report.Legible) (taken : step system event = some next) :
    (line.closes = true ∧
        written ++ line.content = report.text ++ lineEnd) ∨
      (line.closes = false ∧
        Midway next report (written ++ line.content) line.writer) := by
  cases event with
  | lora ret stack =>
      cases taken
      rw [← Option.some.inj (lineOf_writer writes)] at stands ⊢
      simp only [Midway] at stands
      simp only [lineOf] at writes
      cases place : system.pc with
      | sendPayload msg =>
          simp only [place] at writes stands
          cases writes
          obtain ⟨rfl, rfl⟩ := stands
          refine Or.inr ⟨rfl, ?_⟩
          simp only [middle, Midway, loraThread, place, System.goto_pc,
            display_of_legible legible, sending_text]
      | failStatus ret =>
          simp only [place] at writes stands
          cases writes
          obtain ⟨rfl, rfl⟩ := stands
          refine Or.inr ⟨rfl, ?_⟩
          rw [← refused_text legible]
          simp only [Midway, loraThread, place, System.goto_pc]
      | sendClose _ | failClose =>
          simp only [place] at writes stands
          cases writes
          subst stands
          exact Or.inl ⟨rfl, by rw [closing_content]⟩
      | _ => simp only [place] at stands
  | txData result =>
      rw [← Option.some.inj (lineOf_writer writes)] at stands ⊢
      simp only [Midway] at stands
      simp only [lineOf] at writes
      simp only [step, lorawanTxData] at taken
      cases place : system.txData with
      | status result =>
          simp only [place] at writes stands taken
          cases writes
          cases taken
          obtain ⟨rfl, rfl⟩ := stands
          refine Or.inr ⟨rfl, ?_⟩
          simp only [middle, Midway]
          exact (answered_text legible).symm
      | close =>
          simp only [place] at writes stands
          cases writes
          subst stands
          exact Or.inl ⟨rfl, by rw [closing_content]⟩
      | _ => simp only [place] at stands
  | rxData packet stack =>
      rw [← Option.some.inj (lineOf_writer writes)] at stands ⊢
      simp only [Midway] at stands
      simp only [lineOf] at writes
      simp only [step, lorawanRxData] at taken
      cases place : system.rxData with
      | payload packet =>
          simp only [place] at writes stands taken
          cases writes
          cases taken
          obtain ⟨rfl, rfl⟩ := stands
          refine Or.inr ⟨rfl, ?_⟩
          simp only [middle, Midway, display_of_legible legible.1, and_self]
      | status packet =>
          simp only [place] at writes stands taken
          cases writes
          cases taken
          obtain ⟨rfl, rfl⟩ := stands
          refine Or.inr ⟨rfl, ?_⟩
          simp only [middle, Midway]
          exact (received_text legible).symm
      | close =>
          simp only [place] at writes stands
          cases writes
          subst stands
          exact Or.inl ⟨rfl, by rw [closing_content]⟩
      | _ => simp only [place] at stands
  | setEnabled enabled => cases writes
  | push msg => cases writes

theorem bytes_append {system next : System} {line : Line}
    (uart : next.uart = system.uart ++ [line]) :
    next.bytes = system.bytes ++ line.content := by
  rw [System.bytes, uart, List.map_append, List.flatten_append,
    List.map_singleton, List.flatten_singleton, System.bytes]

theorem wholeBytes_concat (earlier : List Report) (report : Report) :
    wholeBytes (earlier ++ [report]) =
      wholeBytes earlier ++ (report.text ++ lineEnd) := by
  rw [wholeBytes, List.flatMap_append, List.flatMap_singleton, wholeBytes]

/-- A step that writes nothing begins nothing and leaves the open notification
as it is. -/
theorem Told.of_silent {system next : System} {event : Event}
    {reports : List Report} (told : Told system reports)
    (silent : Silent system next (begins system event))
    (taken : step system event = some next) :
    Told next (reports ++ heralded system event) := by
  rw [heralded_of_not_begins silent.begun, List.append_nil]
  have bytes : next.bytes = system.bytes := by
    rw [System.bytes, silent.uart, System.bytes]
  cases told with
  | whole closed written =>
      exact .whole (silent.mid ▸ closed) (bytes.trans written)
  | midway earlier report written writer all legible total stands others =>
      refine .midway earlier report written writer all legible
        (bytes.trans total) (stands.of_other ?_ taken) (silent.mid ▸ others)
      -- The writer itself would have written its next piece.
      intro isActor
      obtain ⟨line, writes⟩ := lineOf_of_mid stands.mid isActor
      obtain ⟨after, takenAfter, uart⟩ := step_of_lineOf writes
      rw [taken] at takenAfter
      obtain rfl := Option.some.inj takenAfter
      rw [silent.uart] at uart
      exact absurd uart (by simp)

/-- A piece begins a notification when none is open, and continues the open
one otherwise. -/
theorem Told.of_writes {system next : System} {event : Event} {line : Line}
    {reports : List Report} (told : Told system reports)
    (exclusive : Exclusive system)
    (announces : AnnouncesLegibly system event)
    (piece : Writes system next (begins system event) line)
    (taken : step system event = some next) :
    Told next (reports ++ heralded system event) := by
  have writes : lineOf system event = some line := by
    cases found : lineOf system event with
    | none =>
        have same := uart_of_lineOf_none found taken
        rw [piece.uart] at same
        exact absurd same (by simp)
    | some other =>
        obtain ⟨after, takenAfter, uart⟩ := step_of_lineOf found
        rw [taken] at takenAfter
        obtain rfl := Option.some.inj takenAfter
        rw [piece.uart] at uart
        rw [List.singleton_inj.mp (List.append_cancel_left uart)]
  have bytes := bytes_append piece.uart
  cases told with
  | whole closed written =>
      have opens : line.opens = true := by
        have notMid := closed line.writer
        rw [piece.opens] at notMid
        simpa using notMid
      have others : ∀ other, other ≠ line.writer → next.mid other = false :=
        fun other different =>
          (piece.others other different).trans (closed other)
      obtain ⟨report, begun, shape⟩ := begin_piece writes opens taken
      rw [begun]
      rcases shape with ⟨closes, content⟩ | ⟨goesOn, stands⟩
      · refine .whole (fun other => ?_) ?_
        · by_cases same : other = line.writer
          · rw [same, piece.closes, closes]
            rfl
          · exact others other same
        · rw [bytes, written, content, wholeBytes_concat]
      · have legible := announces.2 report
          (by rw [begun]; exact List.mem_singleton_self report)
        exact .midway reports report line.content line.writer rfl legible
          (by rw [bytes, written]) stands others
  | midway earlier report written writer all legible total stands alone =>
      by_cases same : line.writer = writer
      · have continues : line.opens = false := by
          have mid := stands.mid
          rw [← same, piece.opens] at mid
          simpa using mid
        have notBegun : begins system event = none := by
          rw [piece.begun, continues]
          rfl
        rw [heralded_of_not_begins notBegun, List.append_nil]
        have others : ∀ other, other ≠ writer → next.mid other = false :=
          fun other different =>
            (piece.others other (same ▸ different)).trans
              (alone other different)
        rw [← same] at stands
        rcases next_piece writes stands legible taken with
          ⟨closes, content⟩ | ⟨goesOn, standsNext⟩
        · refine .whole (fun other => ?_) ?_
          · by_cases isWriter : other = writer
            · rw [isWriter, ← same, piece.closes, closes]
              rfl
            · exact others other isWriter
          · rw [bytes, total, List.append_assoc, content, all,
              wholeBytes_concat]
        · exact .midway earlier report (written ++ line.content) writer all
            legible (by rw [bytes, total, List.append_assoc])
            (same ▸ standsNext) others
      · -- Nobody begins while the notification is open.
        have closed := alone line.writer same
        have begun : begins system event = some line.writer := by
          have opens := piece.opens
          rw [closed] at opens
          have isFirst : line.opens = true := by simpa using opens.symm
          rw [piece.begun, isFirst]
          rfl
        have nobody :=
          (beginsOutside_iff exclusive begun closed).mp announces.1 writer
        rw [stands.mid] at nobody
        cases nobody

/-- What has been begun has been written, but for the end of the last
notification. -/
theorem told_of_reached {events : List Event} {system : System}
    (announces : Meets step AnnouncesLegibly boot events)
    (reached : execute step boot events = some system) :
    Told system (answers step heralded boot events) := by
  have both : execute step boot events = some system ∧
      Told system (answers step heralded boot events) := by
    refine execute_induction
      (motive := fun events system =>
        execute step boot events = some system ∧
          Told system (answers step heralded boot events))
      ⟨rfl, .whole (fun writer => by cases writer <;> rfl) rfl⟩ ?_
      announces reached
    intro earlier middle event next soFar here taken
    obtain ⟨reachedMiddle, told⟩ := soFar
    refine ⟨execute_concat_eq_some.mpr ⟨middle, reachedMiddle, taken⟩, ?_⟩
    rw [answers_concat reachedMiddle]
    rcases step_writes taken with silent | ⟨line, piece⟩
    · exact told.of_silent silent taken
    · exact told.of_writes (tracked_of_reached reachedMiddle).exclusive here
        piece taken
  exact both.2

/-! ## Reading the wire -/

/-- Nobody is in the middle of a notification or of `uart_send`. -/
def Wired.Quiet (wired : Wired) : Prop :=
  ∀ writer, wired.system.mid writer = false ∧
    (wired.tty.pc writer).inside = false

theorem readReports_wholeBytes {reports : List Report}
    (legible : ∀ report ∈ reports, report.Legible) :
    readReports (wholeBytes reports) =
      reports.map fun report => some report.seen := by
  have shape : wholeBytes reports =
      ((reports.map Report.line).flatMap fun line => line ++ [lineFeed]) ++
        [] := by
    rw [wholeBytes, List.flatMap_map, List.append_nil]
    simp only [Report.line, lineEnd, List.append_assoc, List.cons_append,
      List.nil_append]
  have whole : ∀ line ∈ reports.map Report.line, lineFeed ∉ line := by
    intro line member
    obtain ⟨report, _, rfl⟩ := List.mem_map.mp member
    exact lineFeed_notMem_line report
  rw [readReports, shape, lines_flatMap whole, lines, List.append_nil,
    List.map_map]
  apply List.map_congr_left
  intro report member
  exact readReport_line (legible report member)

theorem readReports_prefix {stream longer : List UInt8}
    (starts : stream <+: longer) :
    readReports stream <+: readReports longer :=
  (lines_mono starts).map readReport

theorem Midway.starts {system : System} {report : Report}
    {written : List UInt8} {writer : Writer}
    (stands : Midway system report written writer)
    (legible : report.Legible) : written <+: report.text ++ lineEnd := by
  have inText : written <+: report.text := by
    cases writer with
    | loraThread =>
        simp only [Midway] at stands
        split at stands
        · obtain ⟨rfl, rfl⟩ := stands
          rw [sending_text]
          exact List.prefix_append _ _
        · rw [stands]
        · obtain ⟨rfl, rfl⟩ := stands
          rw [refused_text legible]
          exact List.prefix_append _ _
        · rw [stands]
        · exact stands.elim
    | txData =>
        simp only [Midway] at stands
        split at stands
        · obtain ⟨rfl, rfl⟩ := stands
          rw [answered_text legible]
          exact List.prefix_append _ _
        · rw [stands]
        · exact stands.elim
    | rxData =>
        simp only [Midway] at stands
        split at stands
        · obtain ⟨rfl, rfl⟩ := stands
          rw [received_text legible, List.append_assoc]
          exact List.prefix_append _ _
        · obtain ⟨rfl, rfl⟩ := stands
          rw [received_text legible]
          exact List.prefix_append _ _
        · rw [stands]
        · exact stands.elim
  exact inText.trans (List.prefix_append _ _)

def reported (events : List WireEvent) : List Report :=
  answers step heralded boot
    (answers wireStep committed Wired.boot events)

section Host

variable {events : List WireEvent} {wired : Wired}

theorem wire_told (reached : execute wireStep Wired.boot events = some wired)
    (announces : Meets step AnnouncesLegibly boot
      (answers wireStep committed Wired.boot events)) :
    Told wired.system (reported events) ∧
      (∀ report ∈ reported events, report.Legible) ∧ wired.Delivers := by
  obtain ⟨system, abstractReached, same, carries⟩ :=
    wire_simulates.execute boot_refines (meets_true _ events) reached
  subst same
  exact ⟨told_of_reached announces abstractReached,
    forall_mem_answers (fun _ _ here => here.2) announces,
    carries.delivers⟩

theorem readReports_wire
    (reached : execute wireStep Wired.boot events = some wired)
    (announces : Meets step AnnouncesLegibly boot
      (answers wireStep committed Wired.boot events)) :
    readReports wired.tty.wire <+:
      (reported events).map fun report => some report.seen := by
  obtain ⟨told, legible, delivers⟩ := wire_told reached announces
  obtain ⟨missing, onWire, _⟩ := delivers.wire
  have wire : wired.tty.wire <+: wired.system.bytes := ⟨missing, onWire⟩
  have bytes : wired.system.bytes <+: wholeBytes (reported events) := by
    cases told with
    | whole closed bytes => rw [bytes]
    | midway earlier report written writer all fits bytes stands others =>
        rw [bytes, all, wholeBytes_concat]
        exact (List.prefix_append_right_inj _).mpr (stands.starts fits)
  rw [← readReports_wholeBytes legible]
  exact readReports_prefix (wire.trans bytes)

/-- When nobody is sending all reports are on the wire. -/
theorem readReports_wire_of_quiet
    (reached : execute wireStep Wired.boot events = some wired)
    (announces : Meets step AnnouncesLegibly boot
      (answers wireStep committed Wired.boot events))
    (quiet : wired.Quiet) :
    readReports wired.tty.wire =
      (reported events).map fun report => some report.seen := by
  obtain ⟨told, legible, delivers⟩ := wire_told reached announces
  obtain ⟨missing, onWire, complete⟩ := delivers.wire
  change wired.tty.wire ++ missing = wired.system.bytes at onWire
  have nothing := complete fun writer => (quiet writer).2
  rw [nothing, List.append_nil] at onWire
  rw [← readReports_wholeBytes legible, onWire]
  cases told with
  | whole closed bytes => rw [bytes]
  | midway earlier report written writer all fits bytes stands others =>
      have closed := (quiet writer).1
      rw [stands.mid] at closed
      cases closed

end Host

/-- A host that reads the wire of any run whose notifications fit their
buffers, and begin outside each other, learns what the device has reported:
every line that it has read is the next report, and when nobody is sending it
has read them all. -/
theorem host_reads_reports (events : List WireEvent) (wired : Wired)
    (reached : execute wireStep Wired.boot events = some wired)
    (announces : Meets step AnnouncesLegibly boot
      (answers wireStep committed Wired.boot events)) :
    readReports wired.tty.wire <+:
        (reported events).map (fun report => some report.seen) ∧
      (wired.Quiet →
        readReports wired.tty.wire =
          (reported events).map fun report => some report.seen) :=
  ⟨readReports_wire reached announces,
    readReports_wire_of_quiet reached announces⟩

/-- The host learns that the device begins to join. -/
theorem joinAnnounced_read :
    ∃ wired, execute wireStep Wired.boot joinAnnounced = some wired ∧
      readReports wired.tty.wire = [some (.join .start)] := by
  have runs : (execute wireStep Wired.boot joinAnnounced).isSome := by decide
  obtain ⟨wired, reached⟩ := Option.isSome_iff_exists.mp runs
  have quiet : (execute wireStep Wired.boot joinAnnounced).all (fun wired =>
      [Writer.loraThread, .txData, .rxData].all fun writer =>
        !wired.system.mid writer && !(wired.tty.pc writer).inside) := by
    decide
  rw [reached, Option.all_some, List.all_eq_true] at quiet
  obtain ⟨_, complete⟩ :=
    host_reads_reports joinAnnounced wired reached (by decide)
  refine ⟨wired, reached, (complete fun writer => ?_).trans (by decide)⟩
  have here := quiet writer (by cases writer <;> decide)
  simpa using here

end LoraIot.Lora
