import LoraIot.Foundations.Simulations
import LoraIot.Wdt.Hang
import Mathlib.Data.Fintype.Defs

/-!
# The firmware's own threads under the watchdog

`main` starts three threads that register with the watchdog: `uart_thread`,
`bt_thread` and `lora_thread`.  Each returns early when its device is missing,
and otherwise registers once and then feeds with the ID it got, forever.  So
the conditions on the callers that the results about the watchdog ask for are
kept by the program itself.
-/

namespace LoraIot.Wdt

open LoraIot.Bitmask LoraIot.RollCall LoraIot.Runs LoraIot.Simulations

inductive Task where
  | uartThread | btThread | loraThread
  deriving DecidableEq, Repr

instance : Fintype Task where
  elems := {.uartThread, .btThread, .loraThread}
  complete task := by cases task <;> decide

inductive Place where
  | starting
  /-- The device was missing or could not be enabled. -/
  | returned
  /-- In its loop, with the ID that its registration returned. -/
  | running (threadId : BitVec 8)
  deriving DecidableEq, Repr

structure Firmware where
  watchdog : System Task
  place : Task → Place

def Firmware.boot : Firmware := ⟨Wdt.boot, fun _ => .starting⟩

inductive Progress where
  | giveUp (task : Task)
  | register (task : Task)
  | feed (task : Task)
  /-- An iteration of `wdt_thread`. -/
  | iterate
  deriving DecidableEq, Repr

def advance (firmware : Firmware) : Progress → Option Firmware
  | .giveUp task =>
      match firmware.place task with
      | .starting =>
          some { firmware with
            place := Function.update firmware.place task .returned }
      | _ => none
  | .register task =>
      match firmware.place task with
      | .starting =>
          (step firmware.watchdog (.register task)).map fun next =>
            { watchdog := next
              place := Function.update firmware.place task
                (.running (wdtRegisterThread firmware.watchdog.wdt).1) }
      | _ => none
  | .feed task =>
      match firmware.place task with
      | .running threadId =>
          (step firmware.watchdog (.feed task threadId)).map fun next =>
            { firmware with watchdog := next }
      | _ => none
  | .iterate =>
      (step firmware.watchdog .loop).map fun next =>
        { firmware with watchdog := next }

/-- The call of the watchdog that a step makes. -/
def made (firmware : Firmware) : Progress → List (Call Task)
  | .giveUp _ => []
  | .register task => [.register task]
  | .feed task =>
      match firmware.place task with
      | .running threadId => [.feed task threadId]
      | _ => []
  | .iterate => [.loop]

/-- The running threads are the registered ones, with their IDs, and nobody
has deregistered. -/
structure Hosts (firmware : Firmware) (system : System Task) : Prop where
  same : firmware.watchdog = system
  holds : ∀ task threadId,
    firmware.place task = .running threadId ↔ (task, threadId) ∈ system.held
  distinct : system.threads.Nodup
  stays : ∀ task, Entry.left task ∉ system.log

theorem boot_hosts : Hosts Firmware.boot Wdt.boot where
  same := rfl
  holds task threadId := by
    constructor
    · intro impossible
      cases impossible
    · intro impossible
      cases impossible
  distinct := List.nodup_nil
  stays _ := List.not_mem_nil

section Steps

variable {firmware next : Firmware} {system : System Task}

theorem Hosts.hasRoom (hosts : Hosts firmware system) : HasRoom system := by
  have bound := hosts.distinct.length_le_card
  have three : Fintype.card Task = 3 := rfl
  rw [System.threads, List.length_map, three] at bound
  rw [HasRoom]
  omega

theorem Hosts.mem_threads (hosts : Hosts firmware system) (task : Task) :
    task ∈ system.threads ↔
      ∃ threadId, firmware.place task = .running threadId := by
  rw [System.threads, List.mem_map]
  constructor
  · intro listed
    obtain ⟨⟨holder, threadId⟩, holds, same⟩ := listed
    obtain rfl : holder = task := same
    exact ⟨threadId, (hosts.holds holder threadId).mpr holds⟩
  · intro runs
    obtain ⟨threadId, place⟩ := runs
    exact ⟨(task, threadId), (hosts.holds task threadId).mp place, rfl⟩

/-- Every call that a thread makes is one that the watchdog's rules allow. -/
theorem Hosts.disciplined (hosts : Hosts firmware system)
    (progress : Progress) :
    Meets Wdt.step Disciplined system (made firmware progress) := by
  cases progress with
  | giveUp task => trivial
  | register task => exact ⟨hosts.hasRoom, fun _ _ => trivial⟩
  | feed task =>
      rw [made]
      split
      · rename_i threadId place
        exact ⟨(hosts.holds task threadId).mp place, fun _ _ => trivial⟩
      · trivial
  | iterate => exact ⟨trivial, fun _ _ => trivial⟩

theorem Hosts.giveUp (hosts : Hosts firmware system) {task : Task}
    (place : firmware.place task = .starting) :
    Hosts
      { firmware with
        place := Function.update firmware.place task .returned }
      system := by
  refine ⟨hosts.same, fun other threadId => ?_, hosts.distinct, hosts.stays⟩
  rw [← hosts.holds other threadId]
  by_cases same : other = task
  · subst same
    simp [place]
  · simp [same]

theorem Hosts.register (hosts : Hosts firmware system) {task : Task}
    (place : firmware.place task = .starting) {after : System Task}
    (taken : step system (.register task) = some after) :
    Hosts
      { watchdog := after
        place := Function.update firmware.place task
          (.running (wdtRegisterThread system.wdt).1) }
      after := by
  simp only [step] at taken
  split at taken
  · cases taken
  · rename_i notYet
    cases taken
    refine ⟨rfl, fun other threadId => ?_, ?_, fun other => ?_⟩
    · rw [List.mem_append, ← hosts.holds other threadId]
      by_cases same : other = task
      · subst same
        simp [place, eq_comm]
      · simp [same]
    · rw [System.threads, List.map_append]
      refine hosts.distinct.append (List.nodup_singleton _) ?_
      simpa using notYet
    · rw [List.mem_append, not_or]
      exact ⟨hosts.stays other, by simp⟩

theorem hosts_simulates :
    Simulates advance (fun _ _ => True) Wdt.step made Hosts := by
  intro firmware progress next system hosts _ taken
  have same := hosts.same
  subst same
  cases progress with
  | giveUp task =>
      simp only [advance] at taken
      split at taken
      · rename_i place
        cases taken
        exact ⟨_, rfl, hosts.giveUp place⟩
      · cases taken
  | register task =>
      simp only [advance] at taken
      split at taken
      · rename_i place
        obtain ⟨after, stepped, rfl⟩ := Option.map_eq_some_iff.mp taken
        refine ⟨after, ?_, hosts.register place stepped⟩
        simp only [made, execute_cons, stepped, Option.bind_some, execute_nil]
      · cases taken
  | feed task =>
      simp only [advance] at taken
      split at taken
      · rename_i threadId place
        obtain ⟨after, stepped, rfl⟩ := Option.map_eq_some_iff.mp taken
        refine ⟨after, ?_, ?_⟩
        · simp only [made, place, execute_cons, stepped, Option.bind_some,
            execute_nil]
        · cases stepped
          refine ⟨rfl, hosts.holds, hosts.distinct, fun other => ?_⟩
          rw [List.mem_append, not_or]
          exact ⟨hosts.stays other, by simp⟩
      · cases taken
  | iterate =>
      simp only [advance] at taken
      obtain ⟨after, stepped, rfl⟩ := Option.map_eq_some_iff.mp taken
      refine ⟨after, ?_, ?_⟩
      · simp only [made, execute_cons, stepped, Option.bind_some, execute_nil]
      · cases stepped
        refine ⟨rfl, hosts.holds, hosts.distinct, fun other => ?_⟩
        rw [List.mem_append, not_or]
        exact ⟨hosts.stays other, by simp⟩

end Steps

theorem hosts_of_reached {events : List Progress} {firmware : Firmware}
    (reached : execute advance Firmware.boot events = some firmware) :
    ∃ calls,
      Meets Wdt.step Disciplined Wdt.boot calls ∧
        execute Wdt.step Wdt.boot calls = some firmware.watchdog ∧
          Hosts firmware firmware.watchdog := by
  have meets : Meets advance (fun _ _ => True) Firmware.boot events :=
    meets_true Firmware.boot events
  obtain ⟨system, answered, hosts⟩ :=
    hosts_simulates.execute boot_hosts meets reached
  have disciplined := hosts_simulates.meets
    (fun firmware progress _ hosts _ => hosts.disciplined progress)
    boot_hosts meets reached
  have same := hosts.same
  subst same
  exact ⟨_, disciplined, answered, hosts⟩

/-- The calls that the threads make when one of them no longer feeds. -/
theorem silentFor_of_made {firmware : Firmware} {task : Task}
    {progress : Progress} (silent : progress ≠ .feed task) :
    ∀ call ∈ made firmware progress, SilentFor task call := by
  intro call member
  cases progress with
  | giveUp other => exact absurd member List.not_mem_nil
  | register other =>
      obtain rfl := List.mem_singleton.mp member
      trivial
  | feed other =>
      rw [made] at member
      split at member
      · obtain rfl := List.mem_singleton.mp member
        intro same
        exact silent (by rw [same])
      · exact absurd member List.not_mem_nil
  | iterate =>
      obtain rfl := List.mem_singleton.mp member
      trivial

/-- An iteration of `wdt_thread` feeds the hardware exactly when every running
thread has fed since it registered and since the last hardware feed. -/
theorem feeds_iff_running_reported {events : List Progress}
    {firmware : Firmware}
    (reached : execute advance Firmware.boot events = some firmware) :
    (wdtThreadLoop firmware.watchdog.wdt).1 = true ↔
      ∀ task threadId, firmware.place task = .running threadId →
        Reported firmware.watchdog.log task := by
  obtain ⟨calls, disciplined, answered, hosts⟩ := hosts_of_reached reached
  obtain ⟨sheet, sound, refines⟩ := exists_sheet disciplined answered
  rw [refines.loop_feeds_iff, sound.complete_iff]
  constructor
  · intro everybody task threadId place
    have present : Present sheet.log task := by
      rw [sound.present, ← refines.allocated.threads, hosts.mem_threads]
      exact ⟨threadId, place⟩
    rw [← credited_iff_of_stays hosts.stays, refines.log]
    exact everybody task present
  · intro everybody task present
    rw [sound.present, ← refines.allocated.threads, hosts.mem_threads]
      at present
    obtain ⟨threadId, place⟩ := present
    rw [← refines.log, credited_iff_of_stays hosts.stays]
    exact everybody task threadId place

/-- From the last feed of a running thread on the hardware is fed at most
once. -/
theorem fed_once_of_silent {events later : List Progress}
    {firmware final : Firmware}
    (reached : execute advance Firmware.boot events = some firmware)
    (continued : execute advance firmware later = some final)
    {task : Task} {threadId : BitVec 8}
    (place : firmware.place task = .running threadId)
    (silent : ∀ progress ∈ later, progress ≠ .feed task) :
    completeCalls final.watchdog.log ≤
      completeCalls firmware.watchdog.log + 1 := by
  obtain ⟨calls, disciplined, answered, hosts⟩ := hosts_of_reached reached
  have registered := (hosts.mem_threads task).mpr ⟨threadId, place⟩
  have quiet :
      Meets advance (fun _ progress => progress ≠ .feed task) firmware
        later :=
    meets_of_forall silent firmware
  have meets : Meets advance (fun _ _ => True) firmware later :=
    meets_true firmware later
  obtain ⟨system, more, hostsFinal⟩ :=
    hosts_simulates.execute hosts meets continued
  have disciplinedLater := hosts_simulates.meets
    (fun firmware progress _ hosts _ => hosts.disciplined progress)
    hosts meets continued
  have same := hostsFinal.same
  subst same
  have bounded :=
    (bounded_of_reached disciplined answered registered).execute
      disciplinedLater
      (forall_mem_answers (fun _ _ => silentFor_of_made) quiet) more
  have feeds := bounded.feeds
  rw [departures_eq_zero hosts.stays, departures_eq_zero hostsFinal.stays]
    at feeds
  omega

/-- In every run of the firmware's threads, the running threads have distinct
IDs, an iteration of `wdt_thread` feeds the hardware exactly when every running
thread has fed since it registered and since the last hardware feed, and from
the last feed of a running thread on the hardware is fed at most once. -/
theorem firmware_supervised (events later : List Progress)
    (firmware final : Firmware)
    (reached : execute advance Firmware.boot events = some firmware)
    (continued : execute advance firmware later = some final) :
    (∀ task other threadId, firmware.place task = .running threadId →
      firmware.place other = .running threadId → task = other) ∧
    ((wdtThreadLoop firmware.watchdog.wdt).1 = true ↔
      ∀ task threadId, firmware.place task = .running threadId →
        Reported firmware.watchdog.log task) ∧
    (∀ task threadId, firmware.place task = .running threadId →
      (∀ progress ∈ later, progress ≠ .feed task) →
        completeCalls final.watchdog.log ≤
          completeCalls firmware.watchdog.log + 1) := by
  refine ⟨?_, feeds_iff_running_reported reached,
    fun _ _ => fed_once_of_silent reached continued⟩
  intro task other threadId place otherPlace
  obtain ⟨calls, disciplined, answered, hosts⟩ := hosts_of_reached reached
  obtain ⟨sheet, sound, refines⟩ := exists_sheet disciplined answered
  obtain ⟨position, bit, seated⟩ := refines.allocated.seat_of_held
    ((hosts.holds task threadId).mp place)
  obtain ⟨otherPosition, otherBit, otherSeated⟩ :=
    refines.allocated.seat_of_held
      ((hosts.holds other threadId).mp otherPlace)
  obtain rfl := twoPow_injective (bit.symm.trans otherBit)
  exact sound.occupant_unique seated otherSeated

/-- `bt_thread` hangs after its first feed. -/
def bluetoothHangs : List Progress :=
  [.iterate, .register .uartThread, .register .btThread, .giveUp .loraThread,
    .feed .uartThread, .feed .btThread]

theorem bluetoothHangs_supervised :
    ∃ firmware final,
      execute advance Firmware.boot bluetoothHangs = some firmware ∧
      execute advance firmware [.iterate, .feed .uartThread, .iterate] =
        some final ∧
      completeCalls final.watchdog.log ≤
        completeCalls firmware.watchdog.log + 1 := by
  refine ⟨_, _, rfl, rfl, ?_⟩
  obtain ⟨_, _, detects⟩ := firmware_supervised bluetoothHangs
    [.iterate, .feed .uartThread, .iterate] _ _ rfl rfl
  refine detects .btThread 2#8 (by decide) fun progress member => ?_
  simp only [List.mem_cons, List.not_mem_nil, or_false] at member
  rcases member with rfl | rfl | rfl <;> decide

end LoraIot.Wdt
