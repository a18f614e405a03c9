import LoraIot.Foundations.Chunks
import LoraIot.Lora.Notifications
import LoraIot.Vars.SetGet

/-!
# The UART thread (`uart_task.c`)

`uart_thread` selects one of two modem interfaces by `var_binary`, reads up to
eight bytes and hands them to the selected interface one by one.  The
interfaces are not part of this repository: `Interfaces` stands for them.  What
they do to the variables is that they may set `binary`, as the byte that ends a
command does when the command is to switch the interface.

The state is the one in front of `tty_read`.  `log` records the calls made to
the interfaces, each with the interface that `var_binary` selected when it was
made.
-/

namespace LoraIot.Uart

open LoraIot.CStrings LoraIot.Vars LoraIot.Chunks LoraIot.Lora

universe u

/-- What `modem_binary_api_get_func` and `modem_ascii_api_get_func` return. -/
inductive Api where
  | binary | ascii
  deriving DecidableEq, Repr

/-- The modem interfaces, over the state `ms` that they share. -/
structure Interfaces (Modem : Type u) where
  init : Api → Modem → Modem
  /-- The state afterwards, and the values that were passed to
  `vars_set("binary", …)`. -/
  processByte : Api → Modem → UInt8 → Modem × List (Option (List UInt8))

/-- The calls that `uart_thread` makes, through `api`. -/
inductive Call where
  | init (api : Api)
  | processByte (api : Option Api) (byte : UInt8)
  deriving DecidableEq, Repr

structure Thread (Modem : Type u) where
  /-- `api`, which is null before the first iteration. -/
  api : Option Api
  modem : Modem
  device : Device
  log : List (Call × Api)
  /-- What the thread itself has sent. -/
  uart : List UInt8

variable {Modem : Type u}

def Thread.boot (modem : Modem) (device : Device) : Thread Modem :=
  ⟨none, modem, device, [], []⟩

def Thread.calls (thread : Thread Modem) : List Call :=
  thread.log.map Prod.fst

def selected (device : Device) : Api :=
  if device.store.truth .binary then .binary else .ascii

def initNotification (env : Env) (device : Device) : List UInt8 :=
  uartSend (ascii "+notify,event:init,result:0,firmware:") 0 ++
    uartSend (env.memory device.store .firmware) 0 ++
      uartSend (ascii "\r\n") 0

section Model

variable (env : Env) (interfaces : Interfaces Modem)

/-- The first half of an iteration of `uart_thread`. -/
def selectInterface (thread : Thread Modem) : Thread Modem :=
  let newApi := selected thread.device
  if some newApi ≠ thread.api then
    { thread with
      api := some newApi
      modem := interfaces.init newApi thread.modem
      log := thread.log ++ [(.init newApi, newApi)]
      uart := thread.uart ++ initNotification env thread.device }
  else
    thread

/-- `vars_set("binary", value)` -/
def setBinary (device : Device) (value : Option (List UInt8)) : Device :=
  (varsSet env (ascii "binary") value device).device

/-- The body of the loop of `process_bytes`. -/
def processByte (thread : Thread Modem) (byte : UInt8) : Thread Modem :=
  let result :=
    match thread.api with
    | none => (thread.modem, [])
    | some api => interfaces.processByte api thread.modem byte
  { thread with
    modem := result.1
    device := result.2.foldl (setBinary env) thread.device
    log := thread.log ++
      [(.processByte thread.api byte, selected thread.device)] }

def processBytes (thread : Thread Modem) (data : List UInt8) :
    Thread Modem :=
  data.foldl (processByte env interfaces) thread

/-- The loop of `uart_thread`, given what the calls of `tty_read` deliver.  The
next iteration selects the interface again before it reads. -/
def uartThread (thread : Thread Modem) (chunks : List (List UInt8)) :
    Thread Modem :=
  chunks.foldl
    (fun thread data =>
      selectInterface env interfaces (processBytes env interfaces thread data))
    (selectInterface env interfaces thread)

end Model

/-- `tty_read` delivers the stream in these chunks. -/
structure Splits (stream : List UInt8) (chunks : List (List UInt8)) :
    Prop where
  flatten : chunks.flatten = stream
  size : ∀ chunk ∈ chunks, 1 ≤ chunk.length ∧ chunk.length ≤ 8

/-- Every byte was handled by the interface that `var_binary` selected. -/
def Thread.HandledBySelected (thread : Thread Modem) : Prop :=
  ∀ entry ∈ thread.log, ∀ api byte, entry.1 = .processByte api byte →
    api = some entry.2

/-- Two runs make the same calls, and in both of them the selected interface
handles every byte. -/
structure SameHandling (first second : Thread Modem) : Prop where
  calls : first.calls = second.calls
  firstSelected : first.HandledBySelected
  secondSelected : second.HandledBySelected

section Reader

variable {env : Env} {interfaces : Interfaces Modem}

theorem settled_iff (thread : Thread Modem) :
    Settled (selectInterface env interfaces) thread ↔
      thread.api = some (selected thread.device) := by
  rw [Settled, selectInterface]
  split
  · rename_i different
    refine iff_of_false ?_ fun same => different same.symm
    intro unchanged
    exact different (congrArg Thread.api unchanged)
  · rename_i same
    exact iff_of_true rfl (not_not.mp same).symm

theorem selectInterface_api (thread : Thread Modem) :
    (selectInterface env interfaces thread).api =
      some (selected thread.device) := by
  rw [selectInterface]
  split
  · rfl
  · rename_i same
    exact (not_not.mp same).symm

theorem selectInterface_device (thread : Thread Modem) :
    (selectInterface env interfaces thread).device = thread.device := by
  rw [selectInterface]
  split
  · rfl
  · rfl

theorem selectInterface_settled (thread : Thread Modem) :
    Settled (selectInterface env interfaces)
      (selectInterface env interfaces thread) := by
  rw [settled_iff, selectInterface_api, selectInterface_device]

theorem uartThread_eq (thread : Thread Modem) (chunks : List (List UInt8)) :
    uartThread env interfaces thread chunks =
      chunks.foldl
        (readChunk (processByte env interfaces)
          (selectInterface env interfaces))
        (selectInterface env interfaces thread) :=
  rfl

/-- The calls tell whether a byte was processed or an interface initialised. -/
theorem calls_logged :
    Logged (processByte env interfaces) (selectInterface env interfaces)
      Thread.calls (fun call => ∃ api byte, call = .processByte api byte) where
  feed thread byte := by
    refine ⟨.processByte thread.api byte, ?_, _, _, rfl⟩
    rw [Thread.calls, processByte, List.map_append]
    rfl
  refresh thread unsettled := by
    rw [settled_iff] at unsettled
    refine ⟨.init (selected thread.device), ?_, ?_⟩
    · rw [Thread.calls, selectInterface, if_pos (Ne.symm unsettled),
        List.map_append]
      rfl
    · intro isFeed
      obtain ⟨api, byte, same⟩ := isFeed
      cases same

theorem processByte_handledBySelected (thread : Thread Modem) (byte : UInt8) :
    (processByte env interfaces thread byte).HandledBySelected ↔
      thread.HandledBySelected ∧
        Settled (selectInterface env interfaces) thread := by
  rw [settled_iff, Thread.HandledBySelected, Thread.HandledBySelected]
  simp only [processByte, List.forall_mem_append, List.mem_singleton,
    forall_eq, Call.processByte.injEq]
  apply and_congr_right
  intro _
  constructor
  · intro handled
    exact handled thread.api byte ⟨rfl, rfl⟩
  · intro same api other isEntry
    rw [← isEntry.1, same]

theorem selectInterface_handledBySelected (thread : Thread Modem) :
    (selectInterface env interfaces thread).HandledBySelected ↔
      thread.HandledBySelected := by
  rw [selectInterface]
  split
  · rw [Thread.HandledBySelected, Thread.HandledBySelected]
    simp only [List.forall_mem_append, List.mem_singleton, forall_eq]
    apply and_iff_left
    intro api byte isEntry
    cases isEntry
  · exact Iff.rfl

theorem processBytes_handledBySelected (thread : Thread Modem)
    (data : List UInt8) :
    (processBytes env interfaces thread data).HandledBySelected ↔
      thread.HandledBySelected ∧
        FedSettled (processByte env interfaces)
          (selectInterface env interfaces) thread data := by
  rw [processBytes]
  induction data generalizing thread with
  | nil => simp [FedSettled]
  | cons byte rest inductionHypothesis =>
      rw [List.foldl_cons, inductionHypothesis,
        processByte_handledBySelected, FedSettled, and_assoc]

/-- The selected interface handles every byte exactly when every byte is
processed in a state in which the interface need not be selected again. -/
theorem foldl_handledBySelected (thread : Thread Modem)
    (chunks : List (List UInt8)) :
    (chunks.foldl
        (readChunk (processByte env interfaces)
          (selectInterface env interfaces)) thread).HandledBySelected ↔
      thread.HandledBySelected ∧
        Prompt (processByte env interfaces)
          (selectInterface env interfaces) thread chunks := by
  induction chunks generalizing thread with
  | nil => simp [Prompt]
  | cons chunk rest inductionHypothesis =>
      rw [List.foldl_cons, inductionHypothesis, Prompt, ← and_assoc,
        ← processBytes_handledBySelected]
      apply and_congr_left
      intro _
      exact selectInterface_handledBySelected _

end Reader

end LoraIot.Uart
