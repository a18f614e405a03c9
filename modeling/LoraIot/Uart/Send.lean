import LoraIot.Foundations.Runs
import LoraIot.Lora.Notifications
import Mathlib.Algebra.BigOperators.Group.Finset.Basic
import Mathlib.Logic.Function.Basic

/-!
# `uart_send` byte by byte (`uart_task.c`)

`uart_send` takes `sem_tty`, hands its buffer to `tty_write` and gives
`sem_tty` back.  Any number of threads call it at any time, and their steps
interleave between any two bytes.  `sem_tty` starts without a permit;
`uart_thread` gives the first one when it has initialised the tty, so an early
caller waits.

`tty_write` belongs to Zephyr.  The model assumes of it that it sends every
byte of its buffer, in order and without a time limit, and returns their
number.

`calls` and `entered` remember the calls in the order in which they were made
and in which they have passed `k_sem_take`.
-/

namespace LoraIot.Uart

open LoraIot.Lora LoraIot.Runs

universe u

inductive SendPc where
  | outside
  /-- About to take `sem_tty`. -/
  | take (message : List UInt8)
  /-- In `tty_write`, with the bytes `rest` to go. -/
  | write (message rest : List UInt8)
  /-- About to give `sem_tty`. -/
  | give (message : List UInt8)
  deriving DecidableEq, Repr

structure Tty (Thread : Type u) where
  /-- `uart_thread` has given the first permit. -/
  ready : Bool
  semTty : Nat
  pc : Thread → SendPc
  wire : List UInt8
  calls : List (Thread × List UInt8)
  entered : List (Thread × List UInt8)
  /-- What `uart_send` has returned, and to whom. -/
  returned : List (Thread × Nat)

inductive TtyEvent (Thread : Type u) where
  | initialise
  | call (thread : Thread) (buffer : List UInt8) (length : Nat)
  | step (thread : Thread)
  deriving DecidableEq, Repr

variable {Thread : Type u}

def Tty.boot : Tty Thread where
  ready := false
  semTty := 0
  pc _ := .outside
  wire := []
  calls := []
  entered := []
  returned := []

section Model

variable [DecidableEq Thread]

def Tty.goto (tty : Tty Thread) (thread : Thread) (pc : SendPc) :
    Tty Thread :=
  { tty with pc := Function.update tty.pc thread pc }

/-- One step of a thread that has called `uart_send`. -/
def sendStep (tty : Tty Thread) (thread : Thread) : Option (Tty Thread) :=
  match tty.pc thread with
  | .outside => none
  | .take message =>
      if tty.semTty = 0 then
        none
      else
        some
          { tty.goto thread (.write message message) with
            semTty := tty.semTty - 1
            entered := tty.entered ++ [(thread, message)] }
  | .write message [] => some (tty.goto thread (.give message))
  | .write message (byte :: rest) =>
      some
        { tty.goto thread (.write message rest) with
          wire := tty.wire ++ [byte] }
  | .give message =>
      some
        { tty.goto thread .outside with
          semTty := 1
          returned := tty.returned ++ [(thread, message.length)] }

def ttyStep (tty : Tty Thread) : TtyEvent Thread → Option (Tty Thread)
  | .initialise =>
      if tty.ready then none else some { tty with ready := true, semTty := 1 }
  | .call thread buffer length =>
      if tty.pc thread = .outside then
        some
          { tty.goto thread (.take (uartSend buffer length)) with
            calls := tty.calls ++ [(thread, uartSend buffer length)] }
      else
        none
  | .step thread => sendStep tty thread

end Model

/-! ## The invariant -/

namespace SendPc

/-- The thread holds `sem_tty`. -/
def inside : SendPc → Bool
  | .write _ _ => true
  | .give _ => true
  | _ => false

def rest : SendPc → List UInt8
  | .write _ rest => rest
  | _ => []

def message : SendPc → List UInt8
  | .outside => []
  | .take message => message
  | .write message _ => message
  | .give message => message

def pending : SendPc → List (List UInt8)
  | .take message => [message]
  | _ => []

end SendPc

def answer (call : Thread × List UInt8) : Thread × Nat :=
  (call.1, call.2.length)

/-- Nobody holds `sem_tty`: the wire has exactly the messages entered, and
each of them has been answered. -/
structure Tty.Free (tty : Tty Thread) : Prop where
  nobody : ∀ thread, (tty.pc thread).inside = false
  wire : tty.wire = (tty.entered.map Prod.snd).flatten
  returned : tty.returned = tty.entered.map answer

/-- One thread holds `sem_tty`: only the end of the last message is missing on
the wire, and only its answer is missing. -/
structure Tty.Held (tty : Tty Thread) (holder : Thread) : Prop where
  inside : (tty.pc holder).inside = true
  alone : ∀ thread, thread ≠ holder → (tty.pc thread).inside = false
  wire :
    tty.wire ++ (tty.pc holder).rest = (tty.entered.map Prod.snd).flatten
  returned :
    tty.entered.map answer =
      tty.returned ++ [(holder, (tty.pc holder).message.length)]

/-- Messages are sent whole and one at a time, each thread's in the order of
its calls, and nothing is sent before the tty is initialised. -/
structure Tty.Serial [DecidableEq Thread] (tty : Tty Thread) : Prop where
  permit :
    (tty.semTty = tty.ready.toNat ∧ tty.Free) ∨
      (tty.ready = true ∧ tty.semTty = 0 ∧ ∃ holder, tty.Held holder)
  silent : tty.ready = false → tty.entered = []
  inOrder : ∀ thread,
    (tty.calls.filter fun call => call.1 = thread).map Prod.snd =
      (tty.entered.filter fun call => call.1 = thread).map Prod.snd ++
        (tty.pc thread).pending

section Invariant

variable [DecidableEq Thread] {tty next : Tty Thread} {thread : Thread}

theorem boot_serial : (Tty.boot : Tty Thread).Serial where
  permit := Or.inl ⟨rfl, fun _ => rfl, rfl, rfl⟩
  silent _ := rfl
  inOrder _ := rfl

@[simp]
theorem goto_pc_self (tty : Tty Thread) (thread : Thread) (pc : SendPc) :
    (tty.goto thread pc).pc thread = pc :=
  Function.update_self ..

theorem goto_pc_of_ne (tty : Tty Thread) {thread other : Thread}
    (different : other ≠ thread) (pc : SendPc) :
    (tty.goto thread pc).pc other = tty.pc other :=
  Function.update_of_ne different ..

section Goto

variable (tty : Tty Thread) (thread : Thread) (pc : SendPc)

@[simp]
theorem goto_ready : (tty.goto thread pc).ready = tty.ready := rfl

@[simp]
theorem goto_wire : (tty.goto thread pc).wire = tty.wire := rfl

@[simp]
theorem goto_calls : (tty.goto thread pc).calls = tty.calls := rfl

@[simp]
theorem goto_entered : (tty.goto thread pc).entered = tty.entered := rfl

@[simp]
theorem goto_returned : (tty.goto thread pc).returned = tty.returned := rfl

end Goto

/-- A thread that stays outside does not disturb a free tty. -/
theorem goto_inside_of_outside {pc : SendPc} (outside : pc.inside = false)
    (nobody : ∀ other, (tty.pc other).inside = false) (other : Thread) :
    ((tty.goto thread pc).pc other).inside = false := by
  by_cases same : other = thread
  · subst same
    rw [goto_pc_self]
    exact outside
  · rw [goto_pc_of_ne tty same]
    exact nobody other

/-- The order of the calls is kept by a step that moves no message of another
thread. -/
theorem inOrder_goto {calls entered : List (Thread × List UInt8)}
    {pc : SendPc} (newCalls newEntered : List (List UInt8))
    (inOrder : ∀ other,
      (tty.calls.filter fun call => call.1 = other).map Prod.snd =
        (tty.entered.filter fun call => call.1 = other).map Prod.snd ++
          (tty.pc other).pending)
    (isCalls : calls = tty.calls ++ newCalls.map fun made => (thread, made))
    (isEntered :
      entered = tty.entered ++ newEntered.map fun made => (thread, made))
    (own : (tty.pc thread).pending ++ newCalls = newEntered ++ pc.pending)
    (other : Thread) :
    (calls.filter fun call => call.1 = other).map Prod.snd =
      (entered.filter fun call => call.1 = other).map Prod.snd ++
        ((tty.goto thread pc).pc other).pending := by
  have before := inOrder other
  subst isCalls isEntered
  simp only [List.filter_append, List.map_append, before]
  by_cases same : other = thread
  · subst same
    have all : ∀ made : List (List UInt8),
        ((made.map fun message => (other, message)).filter
          fun call => call.1 = other).map Prod.snd = made := by
      intro made
      rw [List.filter_eq_self.mpr (by simp), List.map_map]
      exact List.map_id _
    rw [all, all, goto_pc_self, List.append_assoc, List.append_assoc, own]
  · have none : ∀ made : List (List UInt8),
        ((made.map fun message => (thread, message)).filter
          fun call => call.1 = other) = [] := by
      intro made
      rw [List.filter_eq_nil_iff]
      simp [Ne.symm same]
    rw [none, none, goto_pc_of_ne tty same]
    simp

theorem Tty.Held.eq_of_inside {holder : Thread} (held : tty.Held holder)
    (inside : (tty.pc thread).inside = true) : thread = holder := by
  by_contra different
  rw [held.alone thread different] at inside
  cases inside

theorem Tty.Serial.held_of_inside (serial : tty.Serial)
    (inside : (tty.pc thread).inside = true) :
    tty.ready = true ∧ tty.semTty = 0 ∧ tty.Held thread := by
  rcases serial.permit with ⟨_, free⟩ | ⟨ready, taken, holder, held⟩
  · rw [free.nobody thread] at inside
    cases inside
  · obtain rfl := held.eq_of_inside inside
    exact ⟨ready, taken, held⟩

theorem Tty.Serial.free_of_permit (serial : tty.Serial)
    (permit : tty.semTty ≠ 0) : tty.ready = true ∧ tty.Free := by
  rcases serial.permit with ⟨count, free⟩ | ⟨_, taken, _⟩
  · refine ⟨?_, free⟩
    by_contra notReady
    rw [Bool.not_eq_true] at notReady
    rw [notReady, Bool.toNat_false] at count
    exact permit count
  · exact absurd taken permit

/-- While one thread works inside, it is still alone. -/
theorem Tty.Held.alone_goto (held : tty.Held thread) (pc : SendPc)
    {other : Thread} (different : other ≠ thread) :
    ((tty.goto thread pc).pc other).inside = false := by
  rw [goto_pc_of_ne tty different]
  exact held.alone other different

theorem Tty.Serial.take (serial : tty.Serial) {message : List UInt8}
    (stands : tty.pc thread = .take message) (permit : tty.semTty ≠ 0) :
    Tty.Serial
      { tty.goto thread (.write message message) with
        semTty := tty.semTty - 1
        entered := tty.entered ++ [(thread, message)] } := by
  obtain ⟨ready, free⟩ := serial.free_of_permit permit
  have single : tty.semTty - 1 = 0 := by
    rcases serial.permit with ⟨count, _⟩ | ⟨_, taken, _⟩
    · rw [ready, Bool.toNat_true] at count
      omega
    · omega
  refine ⟨Or.inr ⟨ready, single, thread, ?_⟩, ?_, ?_⟩
  · refine ⟨?_, fun other different => ?_, ?_, ?_⟩
    · simp [SendPc.inside]
    · change ((tty.goto thread _).pc other).inside = false
      rw [goto_pc_of_ne tty different]
      exact free.nobody other
    · change tty.wire ++ ((tty.goto thread _).pc thread).rest = _
      rw [goto_pc_self, free.wire]
      simp [SendPc.rest]
    · change _ = tty.returned ++
        [(thread, ((tty.goto thread _).pc thread).message.length)]
      rw [goto_pc_self, free.returned]
      simp [answer, SendPc.message]
  · intro notReady
    rw [show tty.ready = false from notReady] at ready
    cases ready
  · refine inOrder_goto [] [message] serial.inOrder (by simp) (by simp) ?_
    rw [stands]
    rfl

theorem Tty.Serial.progress (serial : tty.Serial) (pc : SendPc)
    (sent : List UInt8) (inside : (tty.pc thread).inside = true)
    (stays : pc.inside = true)
    (sameMessage : pc.message = (tty.pc thread).message)
    (sends : (tty.pc thread).rest = sent ++ pc.rest) :
    Tty.Serial
      { tty.goto thread pc with wire := tty.wire ++ sent } := by
  obtain ⟨ready, taken, held⟩ := serial.held_of_inside inside
  have noneBefore : (tty.pc thread).pending = [] := by
    cases stands : tty.pc thread <;> rw [stands] at inside <;>
      first | rfl | cases inside
  have noneAfter : pc.pending = [] := by
    cases pc <;> first | rfl | cases stays
  refine ⟨Or.inr ⟨ready, taken, thread, ?_⟩, serial.silent, ?_⟩
  · refine ⟨?_, fun other different => held.alone_goto pc different, ?_, ?_⟩
    · rw [goto_pc_self]
      exact stays
    · rw [goto_pc_self, List.append_assoc, ← sends]
      exact held.wire
    · rw [goto_pc_self, sameMessage]
      exact held.returned
  · refine inOrder_goto [] [] serial.inOrder (by simp) (by simp) ?_
    rw [noneBefore, noneAfter]

theorem Tty.Serial.leave (serial : tty.Serial) {message : List UInt8}
    (stands : tty.pc thread = .give message) :
    Tty.Serial
      { tty.goto thread .outside with
        semTty := 1
        returned := tty.returned ++ [(thread, message.length)] } := by
  have inside : (tty.pc thread).inside = true := by
    rw [stands]
    rfl
  obtain ⟨ready, _, held⟩ := serial.held_of_inside inside
  have wire := held.wire
  have returned := held.returned
  rw [stands] at wire returned
  refine ⟨Or.inl ⟨?_, ?_, ?_, ?_⟩, serial.silent, ?_⟩
  · change 1 = tty.ready.toNat
    rw [ready]
    rfl
  · intro other
    change ((tty.goto thread .outside).pc other).inside = false
    by_cases same : other = thread
    · subst same
      rw [goto_pc_self]
      rfl
    · exact held.alone_goto _ same
  · simpa [SendPc.rest] using wire
  · exact returned.symm
  · refine inOrder_goto [] [] serial.inOrder (by simp) (by simp) ?_
    rw [stands]
    rfl

theorem Tty.Serial.sendStep (serial : tty.Serial)
    (taken : Uart.sendStep tty thread = some next) : next.Serial := by
  cases stands : tty.pc thread with
  | outside =>
      simp only [Uart.sendStep, stands] at taken
      cases taken
  | take message =>
      simp only [Uart.sendStep, stands] at taken
      split at taken
      · cases taken
      · rename_i permit
        cases taken
        exact serial.take stands permit
  | write message rest =>
      cases rest with
      | nil =>
          simp only [Uart.sendStep, stands] at taken
          cases taken
          have inside : (tty.pc thread).inside = true := by
            rw [stands]
            rfl
          have moved := serial.progress (.give message) [] inside rfl
            (by rw [stands]; rfl) (by rw [stands]; rfl)
          rwa [List.append_nil] at moved
      | cons byte rest =>
          simp only [Uart.sendStep, stands] at taken
          cases taken
          have inside : (tty.pc thread).inside = true := by
            rw [stands]
            rfl
          exact serial.progress (.write message rest) [byte] inside rfl
            (by rw [stands]; rfl) (by rw [stands]; rfl)
  | give message =>
      simp only [Uart.sendStep, stands] at taken
      cases taken
      exact serial.leave stands

/-- A step of a thread moves no other thread, and only `k_sem_take` lets a
message enter. -/
theorem sendStep_entered (taken : Uart.sendStep tty thread = some next) :
    (∀ other, other ≠ thread → next.pc other = tty.pc other) ∧
      (∀ message, next.pc thread ≠ .take message) ∧
        next.entered =
          tty.entered ++ (tty.pc thread).pending.map
            fun message => (thread, message) := by
  cases stands : tty.pc thread with
  | outside =>
      simp only [Uart.sendStep, stands] at taken
      cases taken
  | take message =>
      simp only [Uart.sendStep, stands] at taken
      split at taken
      · cases taken
      · cases taken
        refine ⟨fun other different => goto_pc_of_ne tty different _,
          fun other => ?_, rfl⟩
        change (tty.goto thread _).pc thread ≠ _
        rw [goto_pc_self]
        exact SendPc.noConfusion
  | write message rest =>
      cases rest <;>
        · simp only [Uart.sendStep, stands] at taken
          cases taken
          refine ⟨fun other different => goto_pc_of_ne tty different _,
            fun other => ?_, (List.append_nil _).symm⟩
          change (tty.goto thread _).pc thread ≠ _
          rw [goto_pc_self]
          exact SendPc.noConfusion
  | give message =>
      simp only [Uart.sendStep, stands] at taken
      cases taken
      refine ⟨fun other different => goto_pc_of_ne tty different _,
        fun other => ?_, (List.append_nil _).symm⟩
      change (tty.goto thread _).pc thread ≠ _
      rw [goto_pc_self]
      exact SendPc.noConfusion

theorem Tty.Serial.call (serial : tty.Serial)
    (outside : tty.pc thread = .outside) (message : List UInt8) :
    Tty.Serial
      { tty.goto thread (.take message) with
        calls := tty.calls ++ [(thread, message)] } := by
  refine ⟨?_, serial.silent, ?_⟩
  · rcases serial.permit with ⟨count, free⟩ | ⟨ready, taken, holder, held⟩
    · exact Or.inl ⟨count,
        goto_inside_of_outside rfl free.nobody, free.wire, free.returned⟩
    · have different : holder ≠ thread := by
        intro same
        have inside := held.inside
        rw [same, outside] at inside
        cases inside
      have kept : (tty.goto thread (.take message)).pc holder =
          tty.pc holder := goto_pc_of_ne tty different _
      refine Or.inr ⟨ready, taken, holder, ?_, fun other others => ?_, ?_, ?_⟩
      · rw [kept]
        exact held.inside
      · change ((tty.goto thread _).pc other).inside = false
        by_cases same : other = thread
        · subst same
          rw [goto_pc_self]
          rfl
        · rw [goto_pc_of_ne tty same]
          exact held.alone other others
      · rw [kept]
        exact held.wire
      · rw [kept]
        exact held.returned
  · refine inOrder_goto [message] [] serial.inOrder (by simp) (by simp) ?_
    rw [outside]
    rfl

theorem Tty.Serial.step {event : TtyEvent Thread} (serial : tty.Serial)
    (taken : ttyStep tty event = some next) : next.Serial := by
  cases event with
  | initialise =>
      simp only [ttyStep] at taken
      split at taken
      · cases taken
      · rename_i notReady
        rw [Bool.not_eq_true] at notReady
        cases taken
        rcases serial.permit with ⟨_, free⟩ | ⟨ready, _⟩
        · refine ⟨Or.inl ⟨rfl, free.nobody, free.wire, free.returned⟩,
            fun impossible => ?_, serial.inOrder⟩
          cases impossible
        · rw [notReady] at ready
          cases ready
  | call thread buffer length =>
      simp only [ttyStep] at taken
      split at taken
      · rename_i outside
        cases taken
        exact serial.call outside _
      · cases taken
  | step thread => exact serial.sendStep taken

end Invariant

theorem Tty.Serial.of_reached [DecidableEq Thread] {tty : Tty Thread}
    {events : List (TtyEvent Thread)}
    (reached : execute ttyStep Tty.boot events = some tty) : tty.Serial :=
  execute_invariant Tty.Serial boot_serial
    (fun _ _ _ serial _ taken => serial.step taken)
    (meets_true Tty.boot events) reached

/-- At every moment of every run, whatever the number of threads and however
their steps interleave between two bytes, the wire holds whole messages and
the start of at most one, in the order in which the threads have passed
`k_sem_take`. -/
theorem uart_send_serial [DecidableEq Thread]
    (events : List (TtyEvent Thread)) :
    Visits ttyStep Tty.Serial (Tty.boot : Tty Thread) events :=
  visits_of_invariant boot_serial
    (fun _ _ _ serial _ taken => serial.step taken)
    (fun _ serial => serial) (meets_true Tty.boot events)

/-! ## Every call returns -/

/-- The steps that a thread has still to take before it leaves `uart_send`. -/
def SendPc.cost : SendPc → Nat
  | .outside => 0
  | .take message => message.length + 3
  | .write _ rest => rest.length + 2
  | .give _ => 1

def Tty.work [Fintype Thread] (tty : Tty Thread) : Nat :=
  ∑ thread, (tty.pc thread).cost

/-- Every call has returned the length of its message to its caller, in the
order in which the caller has made its calls, and all bytes are on the wire. -/
structure Tty.Answered [DecidableEq Thread] (tty : Tty Thread) : Prop where
  returned : ∀ thread,
    (tty.returned.filter fun result => result.1 = thread) =
      (tty.calls.filter fun call => call.1 = thread).map answer
  wire : tty.wire = (tty.entered.map Prod.snd).flatten
  sent : ∀ thread,
    (tty.entered.filter fun call => call.1 = thread) =
      tty.calls.filter fun call => call.1 = thread

section Progress

variable [DecidableEq Thread] {tty next : Tty Thread} {thread : Thread}

theorem goto_work [Fintype Thread] (tty : Tty Thread) (thread : Thread)
    (pc : SendPc) :
    (tty.goto thread pc).work + (tty.pc thread).cost =
      tty.work + pc.cost := by
  have others :
      ∑ other ∈ Finset.univ.erase thread,
          ((tty.goto thread pc).pc other).cost =
        ∑ other ∈ Finset.univ.erase thread, (tty.pc other).cost := by
    apply Finset.sum_congr rfl
    intro other member
    rw [goto_pc_of_ne tty (Finset.ne_of_mem_erase member)]
  have after := Finset.add_sum_erase Finset.univ
    (fun other => ((tty.goto thread pc).pc other).cost)
    (Finset.mem_univ thread)
  have before := Finset.add_sum_erase Finset.univ
    (fun other => (tty.pc other).cost) (Finset.mem_univ thread)
  simp only [goto_pc_self] at after
  rw [Tty.work, Tty.work, ← after, ← before, others]
  omega

theorem sendStep_work [Fintype Thread]
    (taken : sendStep tty thread = some next) :
    next.work + 1 = tty.work ∧ next.ready = tty.ready ∧
      next.calls = tty.calls := by
  cases stands : tty.pc thread with
  | outside =>
      simp only [sendStep, stands] at taken
      cases taken
  | take message =>
      have moved := goto_work tty thread (.write message message)
      simp only [sendStep, stands] at taken moved
      split at taken
      · cases taken
      · cases taken
        refine ⟨?_, rfl, rfl⟩
        change (tty.goto thread (.write message message)).work + 1 = _
        simp only [SendPc.cost] at moved
        omega
  | write message rest =>
      cases rest with
      | nil =>
          have moved := goto_work tty thread (.give message)
          simp only [sendStep, stands] at taken moved
          cases taken
          refine ⟨?_, rfl, rfl⟩
          simp only [SendPc.cost, List.length_nil] at moved
          omega
      | cons byte rest =>
          have moved := goto_work tty thread (.write message rest)
          simp only [sendStep, stands] at taken moved
          cases taken
          refine ⟨?_, rfl, rfl⟩
          change (tty.goto thread (.write message rest)).work + 1 = _
          simp only [SendPc.cost, List.length_cons] at moved
          omega
  | give message =>
      have moved := goto_work tty thread .outside
      simp only [sendStep, stands] at taken moved
      cases taken
      refine ⟨?_, rfl, rfl⟩
      change (tty.goto thread .outside).work + 1 = _
      simp only [SendPc.cost] at moved
      omega

/-- A thread that cannot take a step is outside, or it waits for a permit. -/
theorem sendStep_eq_none_iff :
    sendStep tty thread = none ↔
      tty.pc thread = .outside ∨
        ((∃ message, tty.pc thread = .take message) ∧ tty.semTty = 0) := by
  cases stands : tty.pc thread with
  | outside => simp [sendStep, stands]
  | take message => simp [sendStep, stands]
  | write message rest => cases rest <;> simp [sendStep, stands]
  | give message => simp [sendStep, stands]

/-- Once the tty is initialised, the threads in `uart_send` do not block one
another for good. -/
theorem Tty.Serial.outside_of_stuck (serial : tty.Serial)
    (ready : tty.ready = true)
    (stuck : ∀ thread, Uart.sendStep tty thread = none) (thread : Thread) :
    tty.pc thread = .outside := by
  rcases serial.permit with ⟨count, _⟩ | ⟨_, _, holder, held⟩
  · rcases sendStep_eq_none_iff.mp (stuck thread) with outside | ⟨_, taken⟩
    · exact outside
    · rw [taken, ready] at count
      cases count
  · -- The holder needs no permit to go on.
    have inside := held.inside
    rcases sendStep_eq_none_iff.mp (stuck holder) with
      outside | ⟨⟨message, waits⟩, _⟩
    · rw [outside] at inside
      cases inside
    · rw [waits] at inside
      cases inside

theorem map_snd_filter_injective
    {first second : List (Thread × List UInt8)}
    (same :
      (first.filter fun call => call.1 = thread).map Prod.snd =
        (second.filter fun call => call.1 = thread).map Prod.snd) :
    (first.filter fun call => call.1 = thread) =
      second.filter fun call => call.1 = thread := by
  have restore : ∀ calls : List (Thread × List UInt8),
      (calls.filter fun call => call.1 = thread) =
        ((calls.filter fun call => call.1 = thread).map Prod.snd).map
          fun message => (thread, message) := by
    intro calls
    have own : ∀ call ∈ calls.filter fun call => call.1 = thread,
        ((fun message => (thread, message)) ∘ Prod.snd) call = id call := by
      intro call member
      have isThread := of_decide_eq_true (List.mem_filter.mp member).2
      exact Prod.ext isThread.symm rfl
    rw [List.map_map, List.map_congr_left own, List.map_id]
  rw [restore first, restore second, same]

theorem Tty.Serial.answered (serial : tty.Serial)
    (outside : ∀ thread, tty.pc thread = .outside) : tty.Answered := by
  have free : tty.Free := by
    rcases serial.permit with ⟨_, free⟩ | ⟨_, _, holder, held⟩
    · exact free
    · have inside := held.inside
      rw [outside holder] at inside
      cases inside
  have sent : ∀ thread,
      (tty.entered.filter fun call => call.1 = thread) =
        tty.calls.filter fun call => call.1 = thread := by
    intro thread
    have inOrder := serial.inOrder thread
    rw [outside thread] at inOrder
    apply map_snd_filter_injective
    rw [inOrder]
    exact (List.append_nil _).symm
  refine ⟨fun thread => ?_, free.wire, sent⟩
  rw [free.returned, ← sent thread, List.filter_map]
  rfl

end Progress

/-- Once the tty is initialised, the calls of `uart_send` that are under way
need a fixed number of steps, whichever thread takes the next one: no schedule
is longer, and one that cannot be continued has answered every call. -/
theorem uart_send_returns [DecidableEq Thread] [Fintype Thread]
    (events : List (TtyEvent Thread)) (tty : Tty Thread)
    (reached : execute ttyStep Tty.boot events = some tty)
    (ready : tty.ready = true) (schedule : List Thread) (final : Tty Thread)
    (continued :
      execute ttyStep tty (schedule.map .step) = some final) :
    schedule.length + final.work = tty.work ∧
      ((∀ thread, ttyStep final (.step thread) = none) →
        final.Answered ∧ final.calls = tty.calls) := by
  have whole :
      execute ttyStep Tty.boot (events ++ schedule.map .step) =
        some final := by
    rw [execute_append, reached]
    exact continued
  have serial := Tty.Serial.of_reached whole
  have spent :
      schedule.length + final.work = tty.work ∧
        final.ready = tty.ready ∧ final.calls = tty.calls := by
    clear reached ready whole serial
    induction schedule generalizing tty with
    | nil =>
        obtain rfl := Option.some.inj continued
        exact ⟨Nat.zero_add _, rfl, rfl⟩
    | cons thread rest inductionHypothesis =>
        rw [List.map_cons, execute_cons, Option.bind_eq_some_iff] at continued
        obtain ⟨next, taken, later⟩ := continued
        obtain ⟨less, sameReady, sameCalls⟩ := sendStep_work taken
        obtain ⟨total, restReady, restCalls⟩ := inductionHypothesis next later
        refine ⟨?_, restReady.trans sameReady, restCalls.trans sameCalls⟩
        rw [List.length_cons]
        omega
  refine ⟨spent.1, fun stuck => ⟨?_, spent.2.2⟩⟩
  exact serial.answered
    (serial.outside_of_stuck (spent.2.1.trans ready) stuck)

/-- Two threads call `uart_send`, the first of them before the tty is
initialised, and have sent two bytes of three. -/
def overlappingCalls : List (TtyEvent Bool) :=
  [.call true (CStrings.ascii "ab") 0, .initialise, .step true,
    .call false [7] 1, .step true, .step true]

/-- The two calls return after six more steps. -/
theorem overlappingCalls_return :
    ∃ tty final : Tty Bool,
      execute ttyStep Tty.boot overlappingCalls = some tty ∧
        execute ttyStep tty
            ([true, true, false, false, false, false].map .step) =
          some final ∧
        6 + final.work = tty.work ∧ final.Answered := by
  have outcome := uart_send_returns overlappingCalls _ rfl rfl
    [true, true, false, false, false, false] _ rfl
  refine ⟨_, _, rfl, rfl, outcome.1, (outcome.2 fun thread => ?_).1⟩
  cases thread <;> rfl

end LoraIot.Uart
