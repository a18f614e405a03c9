import LoraIot.Lora.TxBusy

/-!
# Whose line is open on the UART

The callbacks hold `sem_rx_cb` from before their first piece until after their
last, so their lines never mix.  The LoRa thread does not take it.  The bytes
on the UART are whole lines exactly when no line of the LoRa thread begins
inside a line of a callback, and none of a callback inside one of the LoRa
thread.
-/

namespace LoraIot.Lora

open LoraIot.CStrings LoraIot.Framing LoraIot.Runs

/-- The LoRa thread has begun a line and not closed it. -/
def Pc.mid : Pc → Bool
  | .sendPayload _ => true
  | .sendClose _ => true
  | .failStatus _ => true
  | .failClose => true
  | _ => false

def TxPc.mid : TxPc → Bool
  | .status _ => true
  | .close => true
  | _ => false

def RxPc.mid : RxPc → Bool
  | .payload _ => true
  | .status _ => true
  | .close => true
  | _ => false

def System.mid (system : System) : Writer → Bool
  | .loraThread => system.pc.mid
  | .txData => system.txData.mid
  | .rxData => system.rxData.mid

def begins (system : System) : Event → Option Writer
  | .lora _ _ =>
      match system.pc with
      | .joinLine _ => some .loraThread
      | .sendHead _ => some .loraThread
      | .failHead _ => some .loraThread
      | _ => none
  | .txData _ =>
      match system.txData with
      | .head _ => some .txData
      | _ => none
  | .rxData _ _ =>
      match system.rxData with
      | .head _ => some .rxData
      | _ => none
  | _ => none

/-- A line of the LoRa thread is begun outside the lines of the callbacks, and
a line of a callback outside those of the LoRa thread. -/
def BeginsOutside (system : System) (event : Event) : Prop :=
  (begins system event = some .loraThread →
    system.txData.mid = false ∧ system.rxData.mid = false) ∧
  (begins system event = some .txData → system.pc.mid = false) ∧
  (begins system event = some .rxData → system.pc.mid = false)

instance (system : System) (event : Event) :
    Decidable (BeginsOutside system event) :=
  inferInstanceAs (Decidable (_ ∧ _ ∧ _))

def TxPc.holds : TxPc → Bool
  | .idle => false
  | .takeRxCb _ => false
  | _ => true

def RxPc.holds : RxPc → Bool
  | .idle => false
  | .takeRxCb _ => false
  | _ => true

def System.permits (system : System) : Nat :=
  system.semRxCb + system.txData.holds.toNat + system.rxData.holds.toNat

/-- There is at most one permit of `sem_rx_cb`, and none before the LoRa
thread has given it. -/
structure Exclusive (system : System) : Prop where
  single : system.permits ≤ 1
  before : system.pc = .giveRxCb → system.permits = 0

theorem boot_exclusive : Exclusive boot := ⟨by decide, fun _ => rfl⟩

theorem loraThread_permits (system : System) (ret : Int)
    (stack : List UInt8) :
    (loraThread system ret stack).pc ≠ .giveRxCb ∧
      (system.pc ≠ .giveRxCb →
        (loraThread system ret stack).permits = system.permits) := by
  cases stands : system.pc with
  | giveRxCb =>
      simp only [loraThread, stands]
      exact ⟨by simp, fun impossible => absurd rfl impossible⟩
  | loop | testEnabled | testSend | start | send msg =>
      simp only [loraThread, stands]
      split <;> exact ⟨by simp, fun _ => rfl⟩
  | joinLine status =>
      simp only [loraThread, stands]
      cases status <;> exact ⟨by simp, fun _ => rfl⟩
  | dequeue =>
      simp only [loraThread, stands]
      split <;> exact ⟨by simp, fun _ => rfl⟩
  | _ =>
      simp only [loraThread, stands]
      exact ⟨by simp, fun _ => rfl⟩

theorem lorawanTxData_permits {system next : System} {result : TxResult}
    (single : system.permits ≤ 1)
    (taken : lorawanTxData system result = some next) :
    next.permits = system.permits := by
  rw [System.permits] at single
  rw [lorawanTxData] at taken
  cases stands : system.txData with
  | takeRxCb pending =>
      rw [stands] at taken
      dsimp only at taken
      split at taken
      · cases taken
      · cases taken
        simp only [System.permits, stands, TxPc.holds, Bool.toNat_false,
          Bool.toNat_true]
        omega
  | giveRxCb =>
      rw [stands] at taken single
      cases taken
      simp only [TxPc.holds, Bool.toNat_true] at single
      simp only [System.permits, stands, TxPc.holds, Bool.toNat_false,
        Bool.toNat_true]
      omega
  | _ =>
      rw [stands] at taken
      cases taken
      simp [System.permits, stands, TxPc.holds, System.write,
        System.remember]

theorem lorawanRxData_permits {system next : System} {packet : RxPacket}
    {stack : List UInt8} (single : system.permits ≤ 1)
    (taken : lorawanRxData system packet stack = some next) :
    next.permits = system.permits := by
  rw [System.permits] at single
  rw [lorawanRxData] at taken
  cases stands : system.rxData with
  | idle =>
      rw [stands] at taken
      dsimp only at taken
      split at taken
      · cases taken
        rfl
      · cases taken
        simp [System.permits, stands, RxPc.holds]
  | takeRxCb pending =>
      rw [stands] at taken
      dsimp only at taken
      split at taken
      · cases taken
      · cases taken
        simp only [System.permits, stands, RxPc.holds, Bool.toNat_false,
          Bool.toNat_true]
        omega
  | giveRxCb =>
      rw [stands] at taken single
      cases taken
      simp only [RxPc.holds, Bool.toNat_true] at single
      simp only [System.permits, stands, RxPc.holds, Bool.toNat_false,
        Bool.toNat_true]
      omega
  | _ =>
      rw [stands] at taken
      cases taken
      simp [System.permits, stands, RxPc.holds, System.write]

theorem Exclusive.step {system next : System} {event : Event}
    (exclusive : Exclusive system)
    (taken : Lora.step system event = some next) : Exclusive next := by
  cases event with
  | lora ret stack =>
      cases taken
      obtain ⟨elsewhere, same⟩ := loraThread_permits system ret stack
      refine ⟨?_, fun impossible => absurd impossible elsewhere⟩
      by_cases atStart : system.pc = .giveRxCb
      · have nobody := exclusive.before atStart
        rw [System.permits] at nobody ⊢
        simp only [loraThread, atStart]
        omega
      · rw [same atStart]
        exact exclusive.single
  | txData result =>
      have pc := (lorawanTxData_beside taken).1.pc
      have permits := lorawanTxData_permits exclusive.single taken
      have single : next.permits ≤ 1 := permits ▸ exclusive.single
      have before : next.pc = .giveRxCb → next.permits = 0 := by
        rw [pc, permits]
        exact exclusive.before
      exact ⟨single, before⟩
  | rxData packet stack =>
      have pc := (lorawanRxData_beside taken).1.pc
      have permits := lorawanRxData_permits exclusive.single taken
      have single : next.permits ≤ 1 := permits ▸ exclusive.single
      have before : next.pc = .giveRxCb → next.permits = 0 := by
        rw [pc, permits]
        exact exclusive.before
      exact ⟨single, before⟩
  | setEnabled enabled =>
      cases taken
      exact ⟨exclusive.single, exclusive.before⟩
  | push msg =>
      cases taken
      rw [Lora.push]
      split
      · exact ⟨exclusive.single, exclusive.before⟩
      · exact exclusive

theorem Exclusive.not_both {system : System} (exclusive : Exclusive system) :
    ¬ (system.txData.holds = true ∧ system.rxData.holds = true) := by
  intro both
  obtain ⟨tx, rx⟩ := both
  have single := exclusive.single
  simp only [System.permits, tx, rx, Bool.toNat_true] at single
  omega

theorem TxPc.holds_of_mid {pc : TxPc} (mid : pc.mid = true) :
    pc.holds = true := by
  cases pc <;> first | rfl | cases mid

theorem RxPc.holds_of_mid {pc : RxPc} (mid : pc.mid = true) :
    pc.holds = true := by
  cases pc <;> first | rfl | cases mid

/-! ## What a step writes -/

/-- A step writes a piece: a first piece when its writer has no line open, and
another one when it has. -/
structure Writes (system next : System) (first : Option Writer)
    (line : Line) : Prop where
  uart : next.uart = system.uart ++ [line]
  opens : system.mid line.writer = !line.opens
  closes : next.mid line.writer = !line.closes
  others : ∀ other, other ≠ line.writer → next.mid other = system.mid other
  begun : first = if line.opens then some line.writer else none

/-- A step writes nothing, and opens and closes no line. -/
structure Silent (system next : System) (first : Option Writer) : Prop where
  uart : next.uart = system.uart
  mid : next.mid = system.mid
  begun : first = none

theorem silent_of_unchanged {system next : System} {first : Option Writer}
    (begun : first = none) (uart : next.uart = system.uart)
    (lora : next.pc.mid = system.pc.mid)
    (tx : next.txData.mid = system.txData.mid)
    (rx : next.rxData.mid = system.rxData.mid) :
    Silent system next first := by
  have mid : next.mid = system.mid := by
    funext writer
    cases writer with
    | loraThread => exact lora
    | txData => exact tx
    | rxData => exact rx
  exact ⟨uart, mid, begun⟩

theorem loraThread_writes (system : System) (ret : Int)
    (stack : List UInt8) :
    Silent system (loraThread system ret stack)
        (begins system (.lora ret stack)) ∨
      ∃ line, Writes system (loraThread system ret stack)
        (begins system (.lora ret stack)) line := by
  have writes : ∀ (next : System) (line : Line),
      line.writer = .loraThread → next.uart = system.uart ++ [line] →
        next.txData = system.txData → next.rxData = system.rxData →
          system.pc.mid = !line.opens → next.pc.mid = !line.closes →
            (begins system (.lora ret stack) =
              if line.opens then some .loraThread else none) →
              Writes system next (begins system (.lora ret stack)) line := by
    intro next line writer uart txData rxData opens closes begun
    refine ⟨uart, by rw [writer]; exact opens, by rw [writer]; exact closes,
      fun other different => ?_, by rw [writer]; exact begun⟩
    rw [writer] at different
    cases other with
    | loraThread => exact absurd rfl different
    | txData => simp only [System.mid, txData]
    | rxData => simp only [System.mid, rxData]
  cases stands : system.pc with
  | joinLine status =>
      refine Or.inr ⟨wholeLine status.text,
        writes _ _ rfl ?_ ?_ ?_ ?_ ?_ ?_⟩
      all_goals simp only [loraThread, begins, stands]
      all_goals cases status <;> rfl
  | sendHead msg =>
      refine Or.inr ⟨Lora.sendHead,
        writes _ _ rfl ?_ ?_ ?_ ?_ ?_ ?_⟩
      all_goals simp only [loraThread, begins, stands]
      all_goals rfl
  | sendPayload msg =>
      refine Or.inr
        ⟨middle .loraThread (displayBase64Data stack msg.message).1,
          writes _ _ rfl ?_ ?_ ?_ ?_ ?_ ?_⟩
      all_goals simp only [loraThread, begins, stands]
      all_goals rfl
  | sendClose msg =>
      refine Or.inr ⟨closing .loraThread,
        writes _ _ rfl ?_ ?_ ?_ ?_ ?_ ?_⟩
      all_goals simp only [loraThread, begins, stands]
      all_goals rfl
  | failHead ret =>
      refine Or.inr ⟨Lora.failHead,
        writes _ _ rfl ?_ ?_ ?_ ?_ ?_ ?_⟩
      all_goals simp only [loraThread, begins, stands]
      all_goals rfl
  | failStatus ret =>
      refine Or.inr ⟨Lora.failStatus ret,
        writes _ _ rfl ?_ ?_ ?_ ?_ ?_ ?_⟩
      all_goals simp only [loraThread, begins, stands]
      all_goals rfl
  | failClose =>
      refine Or.inr ⟨closing .loraThread,
        writes _ _ rfl ?_ ?_ ?_ ?_ ?_ ?_⟩
      all_goals simp only [loraThread, begins, stands]
      all_goals rfl
  | loop | testEnabled | testSend | start | send msg | dequeue =>
      refine Or.inl ?_
      simp only [loraThread, stands]
      have begun : begins system (.lora ret stack) = none := by
        simp only [begins, stands]
      split <;>
        exact silent_of_unchanged begun rfl (by rw [stands]; rfl) rfl rfl
  | _ =>
      refine Or.inl ?_
      have begun : begins system (.lora ret stack) = none := by
        simp only [begins, stands]
      simp only [loraThread, stands]
      exact silent_of_unchanged begun rfl (by rw [stands]; rfl) rfl rfl

theorem lorawanTxData_writes {system next : System} {result : TxResult}
    (taken : lorawanTxData system result = some next) :
    Silent system next (begins system (.txData result)) ∨
      ∃ line, line.writer = .txData ∧
        Writes system next (begins system (.txData result)) line := by
  rw [lorawanTxData] at taken
  cases stands : system.txData with
  | idle =>
      rw [stands] at taken
      cases taken
      have begun : begins system (.txData result) = none := by
        simp only [begins, stands]
      have closed : TxPc.mid (.takeRxCb result) = system.txData.mid := by
        rw [stands]
        rfl
      exact Or.inl (silent_of_unchanged begun rfl rfl closed rfl)
  | takeRxCb pending =>
      rw [stands] at taken
      dsimp only at taken
      split at taken
      · cases taken
      · cases taken
        have begun : begins system (.txData result) = none := by
          simp only [begins, stands]
        have closed : TxPc.mid (.head pending) = system.txData.mid := by
          rw [stands]
          rfl
        exact Or.inl (silent_of_unchanged begun rfl rfl closed rfl)
  | giveRxCb =>
      rw [stands] at taken
      cases taken
      have begun : begins system (.txData result) = none := by
        simp only [begins, stands]
      have closed : TxPc.mid .idle = system.txData.mid := by
        rw [stands]
        rfl
      exact Or.inl (silent_of_unchanged begun rfl rfl closed rfl)
  | head pending | status pending | close =>
      rw [stands] at taken
      cases taken
      refine Or.inr ⟨_, rfl, rfl, ?_, ?_, fun other different => ?_, ?_⟩
      · simp only [System.mid, stands]
        rfl
      · rfl
      · cases other <;> first | rfl | exact absurd rfl different
      · simp only [begins, stands]
        rfl

theorem lorawanRxData_writes {system next : System} {packet : RxPacket}
    {stack : List UInt8}
    (taken : lorawanRxData system packet stack = some next) :
    Silent system next (begins system (.rxData packet stack)) ∨
      ∃ line, line.writer = .rxData ∧
        Writes system next (begins system (.rxData packet stack)) line := by
  rw [lorawanRxData] at taken
  cases stands : system.rxData with
  | idle =>
      rw [stands] at taken
      dsimp only at taken
      split at taken
      · cases taken
        have begun : begins system (.rxData packet stack) = none := by
          simp only [begins, stands]
        exact Or.inl ⟨rfl, rfl, begun⟩
      · cases taken
        have begun : begins system (.rxData packet stack) = none := by
          simp only [begins, stands]
        have closed : RxPc.mid (.takeRxCb packet) = system.rxData.mid := by
          rw [stands]
          rfl
        exact Or.inl (silent_of_unchanged begun rfl rfl rfl closed)
  | takeRxCb pending =>
      rw [stands] at taken
      dsimp only at taken
      split at taken
      · cases taken
      · cases taken
        have begun : begins system (.rxData packet stack) = none := by
          simp only [begins, stands]
        have closed : RxPc.mid (.head pending) = system.rxData.mid := by
          rw [stands]
          rfl
        exact Or.inl (silent_of_unchanged begun rfl rfl rfl closed)
  | giveRxCb =>
      rw [stands] at taken
      cases taken
      have begun : begins system (.rxData packet stack) = none := by
        simp only [begins, stands]
      have closed : RxPc.mid .idle = system.rxData.mid := by
        rw [stands]
        rfl
      exact Or.inl (silent_of_unchanged begun rfl rfl rfl closed)
  | head pending | payload pending | status pending | close =>
      rw [stands] at taken
      cases taken
      refine Or.inr ⟨_, rfl, rfl, ?_, ?_, fun other different => ?_, ?_⟩
      · simp only [System.mid, stands]
        rfl
      · rfl
      · cases other <;> first | rfl | exact absurd rfl different
      · simp only [begins, stands]
        rfl

theorem step_writes {system next : System} {event : Event}
    (taken : step system event = some next) :
    Silent system next (begins system event) ∨
      ∃ line, Writes system next (begins system event) line := by
  cases event with
  | lora ret stack =>
      cases taken
      exact loraThread_writes system ret stack
  | txData result =>
      rcases lorawanTxData_writes taken with silent | ⟨line, _, writes⟩
      · exact Or.inl silent
      · exact Or.inr ⟨line, writes⟩
  | rxData packet stack =>
      rcases lorawanRxData_writes taken with silent | ⟨line, _, writes⟩
      · exact Or.inl silent
      · exact Or.inr ⟨line, writes⟩
  | setEnabled enabled =>
      cases taken
      exact Or.inl ⟨rfl, rfl, rfl⟩
  | push msg =>
      cases taken
      rw [Lora.push]
      split
      · exact Or.inl ⟨rfl, rfl, rfl⟩
      · exact Or.inl ⟨rfl, rfl, rfl⟩

def Open (system : System) (current : Option Writer) : Prop :=
  ∀ writer, system.mid writer = true ↔ current = some writer

theorem boot_open : Open boot none := by
  intro writer
  cases writer <;> decide

theorem beginsOutside_of_none {system : System} {event : Event}
    (nothing : begins system event = none) : BeginsOutside system event := by
  refine ⟨?_, ?_, ?_⟩ <;>
    · intro begun
      rw [nothing] at begun
      cases begun

theorem holds_of_begins (system : System) (event : Event) :
    (begins system event = some .txData → system.txData.holds = true) ∧
      (begins system event = some .rxData → system.rxData.holds = true) := by
  unfold begins
  split
  · split <;> simp
  · split
    · rename_i stands
      simp [stands, TxPc.holds]
    · simp
  · split
    · rename_i stands
      simp [stands, RxPc.holds]
    · simp
  · simp

/-- A line is begun outside the others exactly when no line is open: the
semaphore takes care of the two callbacks. -/
theorem beginsOutside_iff {system : System} {event : Event} {writer : Writer}
    (exclusive : Exclusive system) (begun : begins system event = some writer)
    (closed : system.mid writer = false) :
    BeginsOutside system event ↔ ∀ other, system.mid other = false := by
  obtain ⟨txHolds, rxHolds⟩ := holds_of_begins system event
  have notBoth := exclusive.not_both
  constructor
  · intro closed other
    obtain ⟨lora, tx, rx⟩ := closed
    cases writer with
    | loraThread =>
        obtain ⟨noTx, noRx⟩ := lora begun
        cases other <;> assumption
    | txData =>
        have noLora := tx begun
        cases other with
        | rxData =>
            by_contra notClosed
            have mid : system.rxData.mid = true := by
              simpa [System.mid] using notClosed
            exact notBoth ⟨txHolds begun, RxPc.holds_of_mid mid⟩
        | _ => assumption
    | rxData =>
        have noLora := rx begun
        cases other with
        | txData =>
            by_contra notClosed
            have mid : system.txData.mid = true := by
              simpa [System.mid] using notClosed
            exact notBoth ⟨TxPc.holds_of_mid mid, rxHolds begun⟩
        | _ => assumption
  · intro none
    exact ⟨fun _ => ⟨none .txData, none .rxData⟩, fun _ => none .loraThread,
      fun _ => none .loraThread⟩

/-- A piece fits the open line exactly when its line is begun outside the
others, and then moves the open line. -/
theorem Writes.advance {system next : System} {event : Event} {line : Line}
    (exclusive : Exclusive system) {current : Option Writer}
    (isOpen : Open system current)
    (writes : Writes system next (begins system event) line) :
    (BeginsOutside system event ∧
      ∃ following, Framing.advance current line = some following ∧
        Open next following) ∨
    (¬ BeginsOutside system event ∧
      Framing.advance current line = none) := by
  obtain ⟨_, opens, closes, others, begun⟩ := writes
  -- Whose line is open afterwards, when no other line was open before.
  have after : (∀ other, other ≠ line.writer → system.mid other = false) →
      Open next (if line.closes then none else some line.writer) := by
    intro alone writer
    by_cases same : writer = line.writer
    · subst same
      rw [closes]
      cases line.closes <;> simp
    · rw [others writer same, alone writer same]
      cases line.closes <;> simp [Ne.symm same]
  cases first : line.opens with
  | true =>
      rw [first] at opens begun
      have closed : system.mid line.writer = false := opens
      have outside := beginsOutside_iff exclusive begun closed
      cases current with
      | none =>
          have alone : ∀ other, system.mid other = false := by
            intro other
            have notMid := (isOpen other).not.mpr (by simp)
            simpa using notMid
          refine Or.inl ⟨outside.mpr alone, _, ?_, after fun other _ =>
            alone other⟩
          simp only [Framing.advance, if_pos first]
      | some other =>
          have mid := (isOpen other).mpr rfl
          refine Or.inr ⟨fun holds => ?_, ?_⟩
          · rw [outside.mp holds other] at mid
            cases mid
          · simp [Framing.advance, first]
  | false =>
      rw [first] at opens begun
      have mine : current = some line.writer := (isOpen line.writer).mp opens
      subst mine
      refine Or.inl ⟨beginsOutside_of_none begun, _, ?_, after ?_⟩
      · simp only [Framing.advance, first, and_self, if_true]
      · intro other different
        have notCurrent : some line.writer ≠ some other := by
          simpa using Ne.symm different
        have notMid := (isOpen other).not.mpr notCurrent
        simpa using notMid

/-- What holds after a run: the UART shows which line is open as long as every
line was begun outside the others, and is beyond repair afterwards. -/
structure Tracked (events : List Event) (system : System) : Prop where
  reached : execute step boot events = some system
  exclusive : Exclusive system
  uart :
    (Meets step BeginsOutside boot events ∧
      ∃ current, parse system.uart = some current ∧ Open system current) ∨
    (¬ Meets step BeginsOutside boot events ∧ parse system.uart = none)

theorem boot_tracked : Tracked [] boot where
  reached := rfl
  exclusive := boot_exclusive
  uart := Or.inl ⟨trivial, none, rfl, boot_open⟩

theorem Tracked.step {events : List Event} {system next : System}
    {event : Event} (tracked : Tracked events system)
    (taken : Lora.step system event = some next) :
    Tracked (events ++ [event]) next := by
  obtain ⟨reached, exclusive, uart⟩ := tracked
  have emitted := step_writes taken
  refine ⟨execute_concat_eq_some.mpr ⟨system, reached, taken⟩,
    exclusive.step taken, ?_⟩
  rw [meets_concat reached]
  rcases emitted with silent | ⟨line, writes⟩
  · have outside := beginsOutside_of_none silent.begun
    unfold Open at uart ⊢
    rw [silent.uart, silent.mid]
    simpa [outside] using uart
  · rw [writes.uart, parse_concat]
    rcases uart with ⟨meets, current, parsed, isOpen⟩ | ⟨broken, parsed⟩
    · rw [parsed, Option.bind_some]
      rcases writes.advance exclusive isOpen with
        ⟨outside, following, fits, openAfter⟩ | ⟨inside, misfits⟩
      · exact Or.inl ⟨⟨meets, outside⟩, following, fits, openAfter⟩
      · exact Or.inr ⟨fun both => inside both.2, misfits⟩
    · rw [parsed]
      exact Or.inr ⟨fun both => broken both.1, rfl⟩

theorem tracked_of_reached {events : List Event} {system : System}
    (reached : execute step boot events = some system) :
    Tracked events system :=
  execute_induction (motive := Tracked)
    boot_tracked (fun _ _ _ _ tracked _ taken => tracked.step taken)
    (meets_true boot events) reached

/-- At the end of every run, the bytes on the UART are whole notifications,
with at most one unfinished notification at the end, exactly when every line
of the run was begun outside the others. -/
theorem uart_framed_iff (events : List Event) (system : System)
    (reached : execute step boot events = some system) :
    Framed system.uart ↔ Meets step BeginsOutside boot events := by
  have tracked := tracked_of_reached reached
  rw [framed_iff]
  rcases tracked.uart with ⟨meets, current, parsed, _⟩ | ⟨broken, parsed⟩
  · exact ⟨fun _ => meets, fun _ => ⟨current, parsed⟩⟩
  · constructor
    · intro parses
      obtain ⟨current, impossible⟩ := parses
      rw [parsed] at impossible
      cases impossible
    · exact fun meets => absurd meets broken

def answeredInFull : List Event :=
  answeredOnce ++ List.replicate 5 (.txData ⟨true, 0, 0, 0⟩)

theorem join_and_answer_framed :
    ∃ system,
      execute step boot answeredInFull = some system ∧
        Framed system.uart := by
  have outside : Meets step BeginsOutside boot answeredInFull := by decide
  have runs : (execute step boot answeredInFull).isSome := by decide
  obtain ⟨system, reached⟩ := Option.isSome_iff_exists.mp runs
  exact ⟨system, reached, (uart_framed_iff _ system reached).mpr outside⟩

/-- The answer to one uplink arrives while the next one is being announced. -/
def overlapped : List Event :=
  [.setEnabled true, .push hello, .push hello] ++ steps 26 ++
    List.replicate 3 (.txData ⟨true, 0, 0, 0⟩)

theorem overlapped_not_framed :
    ¬ ∀ (events : List Event) (system : System),
      Meets step AnswersUplinks boot events →
        execute step boot events = some system → Framed system.uart := by
  intro always
  have unparsed :
      (execute step boot overlapped).map (fun system => parse system.uart) =
        some none := by
    decide
  cases reached : execute step boot overlapped with
  | none =>
      rw [reached] at unparsed
      cases unparsed
  | some system =>
      have framed := always overlapped system (by decide) reached
      obtain ⟨current, parsed⟩ := (framed_iff _).mp framed
      rw [reached, Option.map_some, parsed] at unparsed
      cases unparsed

end LoraIot.Lora
