import LoraIot.Foundations.History
import Mathlib.Data.Finset.Image
import Mathlib.Data.List.Nodup

/-!
# Roll calls

Members come and go, and each present member occupies a seat that nobody else
occupies.  A member can report, which ticks its seat.  When a member leaves,
everybody who stays is excused, which ticks all remaining seats.  A call is
complete when every occupied seat is ticked, and a complete call clears the
ticks.

Seats are reused.  The point of the module is that a tick always belongs to
the present occupant of the seat: a call is complete exactly when every
present member has reported or been excused since it joined and since the last
complete call.
-/

namespace LoraIot.RollCall

open LoraIot.History

universe u v

inductive Entry (Member : Type u) where
  | joined (member : Member)
  | reported (member : Member)
  | left (member : Member)
  | called (complete : Bool)
  deriving DecidableEq, Repr

variable {Member : Type u} {Seat : Type v}

/-- The member joined and has not left since. -/
def Present (log : List (Entry Member)) (member : Member) : Prop :=
  Since (fun _ entry => entry = .joined member)
    (fun later => later = .left member) log

/-- What makes an earlier report of the member worthless: joining anew, or a
complete call. -/
def Stale (member : Member) (later : Entry Member) : Prop :=
  later = .joined member ∨ later = .called true

/-- The member reported after it joined and after the last complete call. -/
def Reported (log : List (Entry Member)) (member : Member) : Prop :=
  Since (fun _ entry => entry = .reported member) (Stale member) log

/-- Another member left while this one was present, after the last complete
call. -/
def Excused (log : List (Entry Member)) (member : Member) : Prop :=
  Since
    (fun before entry =>
      (∃ other, other ≠ member ∧ entry = .left other) ∧
        Present before member)
    (Stale member) log

/-- The member counts as having answered the current call. -/
def Credited (log : List (Entry Member)) (member : Member) : Prop :=
  Reported log member ∨ Excused log member

section Log

variable (log : List (Entry Member)) (member : Member)

@[simp]
theorem not_present_nil : ¬ Present [] member := not_since_nil

@[simp]
theorem not_credited_nil : ¬ Credited [] member := by
  simp [Credited, Reported, Excused]

theorem present_concat (last : Entry Member) :
    Present (log ++ [last]) member ↔
      last = .joined member ∨
        (Present log member ∧ last ≠ .left member) :=
  since_concat log last

theorem credited_concat (last : Entry Member) :
    Credited (log ++ [last]) member ↔
      last = .reported member ∨
        ((∃ other, other ≠ member ∧ last = .left other) ∧
          Present log member) ∨
        (Credited log member ∧ ¬ Stale member last) := by
  simp only [Credited, Reported, Excused, since_concat]
  constructor
  · rintro ((now | ⟨earlier, fresh⟩) | now | ⟨earlier, fresh⟩)
    · exact Or.inl now
    · exact Or.inr (Or.inr ⟨Or.inl earlier, fresh⟩)
    · exact Or.inr (Or.inl now)
    · exact Or.inr (Or.inr ⟨Or.inr earlier, fresh⟩)
  · rintro (now | now | ⟨earlier | earlier, fresh⟩)
    · exact Or.inl (Or.inl now)
    · exact Or.inr (Or.inl now)
    · exact Or.inl (Or.inr ⟨earlier, fresh⟩)
    · exact Or.inr (Or.inr ⟨earlier, fresh⟩)

end Log

/-- Who sits where, which seats are ticked, and what happened so far. -/
structure Sheet (Member : Type u) (Seat : Type v) where
  seats : List (Member × Seat)
  ticked : Finset Seat
  log : List (Entry Member)

namespace Sheet

def blank : Sheet Member Seat := ⟨[], ∅, []⟩

/-- Seats are held by one member each, the sheet lists the members the log
says are present, and a seat is ticked exactly when its occupant is
credited. -/
structure Sound (sheet : Sheet Member Seat) : Prop where
  membersNodup : (sheet.seats.map Prod.fst).Nodup
  seatsNodup : (sheet.seats.map Prod.snd).Nodup
  present : ∀ member,
    Present sheet.log member ↔ member ∈ sheet.seats.map Prod.fst
  ticked : ∀ seat,
    seat ∈ sheet.ticked ↔
      ∃ member, (member, seat) ∈ sheet.seats ∧ Credited sheet.log member

theorem blank_sound : Sound (blank : Sheet Member Seat) where
  membersNodup := List.nodup_nil
  seatsNodup := List.nodup_nil
  present := by simp [blank]
  ticked := by simp [blank]

variable {sheet next : Sheet Member Seat}

theorem Sound.seat_unique (sound : sheet.Sound)
    {member : Member} {first second : Seat}
    (atFirst : (member, first) ∈ sheet.seats)
    (atSecond : (member, second) ∈ sheet.seats) : first = second := by
  have same :=
    List.inj_on_of_nodup_map sound.membersNodup atFirst atSecond rfl
  exact congrArg Prod.snd same

theorem Sound.occupant_unique (sound : sheet.Sound)
    {first second : Member} {seat : Seat}
    (atFirst : (first, seat) ∈ sheet.seats)
    (atSecond : (second, seat) ∈ sheet.seats) : first = second := by
  have same :=
    List.inj_on_of_nodup_map sound.seatsNodup atFirst atSecond rfl
  exact congrArg Prod.fst same

theorem Sound.present_of_mem (sound : sheet.Sound)
    {member : Member} {seat : Seat}
    (seated : (member, seat) ∈ sheet.seats) :
    Present sheet.log member :=
  (sound.present member).mpr (List.mem_map.mpr ⟨_, seated, rfl⟩)

private theorem Sound.call (sound : sheet.Sound) (complete : Bool) :
    Sound
      { seats := sheet.seats
        ticked := if complete then ∅ else sheet.ticked
        log := sheet.log ++ [.called complete] } where
  membersNodup := sound.membersNodup
  seatsNodup := sound.seatsNodup
  present tested := by
    rw [present_concat, sound.present]
    simp
  ticked tested := by
    simp only [credited_concat, Stale]
    cases complete with
    | false => simp [sound.ticked]
    | true => simp

variable [DecidableEq Seat]

def occupied (sheet : Sheet Member Seat) : Finset Seat :=
  (sheet.seats.map Prod.snd).toFinset

theorem mem_occupied (seat : Seat) :
    seat ∈ sheet.occupied ↔ ∃ member, (member, seat) ∈ sheet.seats := by
  simp [occupied]

theorem Sound.complete_iff (sound : sheet.Sound) :
    sheet.ticked = sheet.occupied ↔
      ∀ member, Present sheet.log member → Credited sheet.log member := by
  constructor
  · intro full member present
    obtain ⟨⟨_, seat⟩, seated, rfl⟩ :=
      List.mem_map.mp ((sound.present member).mp present)
    have isTicked : seat ∈ sheet.ticked := by
      rw [full]
      exact (mem_occupied seat).mpr ⟨_, seated⟩
    obtain ⟨occupant, atSeat, credited⟩ := (sound.ticked seat).mp isTicked
    exact sound.occupant_unique atSeat seated ▸ credited
  · intro everybody
    ext seat
    rw [sound.ticked, mem_occupied]
    constructor
    · intro credited
      obtain ⟨member, seated, _⟩ := credited
      exact ⟨member, seated⟩
    · intro isOccupied
      obtain ⟨member, seated⟩ := isOccupied
      exact ⟨member, seated, everybody member (sound.present_of_mem seated)⟩

private theorem Sound.join (sound : sheet.Sound)
    {member : Member} {seat : Seat}
    (newMember : member ∉ sheet.seats.map Prod.fst)
    (newSeat : seat ∉ sheet.occupied) :
    Sound
      { seats := sheet.seats ++ [(member, seat)]
        ticked := sheet.ticked
        log := sheet.log ++ [.joined member] } where
  membersNodup := by
    rw [List.map_append]
    exact sound.membersNodup.append (List.nodup_singleton _)
      (by simpa using newMember)
  seatsNodup := by
    rw [List.map_append]
    exact sound.seatsNodup.append (List.nodup_singleton _)
      (by simpa [occupied] using newSeat)
  present tested := by
    rw [present_concat, sound.present]
    simp [or_comm, eq_comm]
  ticked tested := by
    rw [sound.ticked]
    constructor
    · rintro ⟨occupant, seated, credited⟩
      have different : occupant ≠ member := by
        rintro rfl
        exact newMember (List.mem_map.mpr ⟨_, seated, rfl⟩)
      refine ⟨occupant, List.mem_append_left _ seated, ?_⟩
      rw [credited_concat]
      exact Or.inr (Or.inr ⟨credited, by
        simp [Stale, Ne.symm different]⟩)
    · rintro ⟨occupant, seated, credited⟩
      rw [credited_concat] at credited
      obtain ⟨earlier, fresh⟩ : Credited sheet.log occupant ∧
          ¬ Stale occupant (.joined member) := by
        simpa using credited
      refine ⟨occupant, ?_, earlier⟩
      rcases List.mem_append.mp seated with before | new
      · exact before
      · -- The newcomer's seat is not ticked: joining discards its credit.
        exfalso
        simp only [List.mem_singleton, Prod.mk.injEq] at new
        exact fresh (Or.inl (by rw [new.1]))

private theorem Sound.report (sound : sheet.Sound)
    {member : Member} {seat : Seat}
    (seated : (member, seat) ∈ sheet.seats) :
    Sound
      { seats := sheet.seats
        ticked := insert seat sheet.ticked
        log := sheet.log ++ [.reported member] } where
  membersNodup := sound.membersNodup
  seatsNodup := sound.seatsNodup
  present tested := by
    rw [present_concat, sound.present]
    simp
  ticked tested := by
    simp only [Finset.mem_insert, sound.ticked, credited_concat]
    constructor
    · rintro (rfl | ⟨occupant, atSeat, credited⟩)
      · exact ⟨member, seated, Or.inl rfl⟩
      · exact ⟨occupant, atSeat, Or.inr (Or.inr ⟨credited, by
          simp [Stale]⟩)⟩
    · rintro ⟨occupant, atSeat, now | left | ⟨credited, _⟩⟩
      · obtain rfl : member = occupant := by simpa using now
        exact Or.inl (sound.seat_unique atSeat seated)
      · simp at left
      · exact Or.inr ⟨occupant, atSeat, credited⟩

variable [DecidableEq Member]

inductive Move : Sheet Member Seat → Sheet Member Seat → Prop
  | join (sheet : Sheet Member Seat) (member : Member) (seat : Seat) :
      member ∉ sheet.seats.map Prod.fst →
      seat ∉ sheet.occupied →
      Move sheet
        { seats := sheet.seats ++ [(member, seat)]
          ticked := sheet.ticked
          log := sheet.log ++ [.joined member] }
  | report (sheet : Sheet Member Seat) (member : Member) (seat : Seat) :
      (member, seat) ∈ sheet.seats →
      Move sheet
        { seats := sheet.seats
          ticked := insert seat sheet.ticked
          log := sheet.log ++ [.reported member] }
  | leave (sheet : Sheet Member Seat) (member : Member) (seat : Seat) :
      (member, seat) ∈ sheet.seats →
      Move sheet
        { seats := sheet.seats.erase (member, seat)
          ticked :=
            ((sheet.seats.erase (member, seat)).map Prod.snd).toFinset
          log := sheet.log ++ [.left member] }
  | complete (sheet : Sheet Member Seat) :
      sheet.ticked = sheet.occupied →
      Move sheet
        { seats := sheet.seats
          ticked := ∅
          log := sheet.log ++ [.called true] }
  | incomplete (sheet : Sheet Member Seat) :
      sheet.ticked ≠ sheet.occupied →
      Move sheet
        { seats := sheet.seats
          ticked := sheet.ticked
          log := sheet.log ++ [.called false] }

theorem Sound.mem_erase (sound : sheet.Sound)
    {member tested : Member} {seat testedSeat : Seat}
    (seated : (member, seat) ∈ sheet.seats) :
    (tested, testedSeat) ∈ sheet.seats.erase (member, seat) ↔
      tested ≠ member ∧ (tested, testedSeat) ∈ sheet.seats := by
  have nodup : sheet.seats.Nodup := sound.membersNodup.of_map
  rw [nodup.mem_erase_iff]
  constructor
  · rintro ⟨different, stays⟩
    refine ⟨?_, stays⟩
    rintro rfl
    exact different (by rw [sound.seat_unique stays seated])
  · rintro ⟨different, stays⟩
    exact ⟨fun same => different (congrArg Prod.fst same), stays⟩

private theorem Sound.leave (sound : sheet.Sound)
    {member : Member} {seat : Seat}
    (seated : (member, seat) ∈ sheet.seats) :
    Sound
      { seats := sheet.seats.erase (member, seat)
        ticked := ((sheet.seats.erase (member, seat)).map Prod.snd).toFinset
        log := sheet.log ++ [.left member] } where
  membersNodup :=
    sound.membersNodup.sublist ((List.erase_sublist).map Prod.fst)
  seatsNodup :=
    sound.seatsNodup.sublist ((List.erase_sublist).map Prod.snd)
  present tested := by
    rw [present_concat, sound.present]
    simp only [reduceCtorEq, false_or, List.mem_map, Prod.exists,
      exists_and_right, exists_eq_right, sound.mem_erase seated, ne_eq,
      Entry.left.injEq]
    constructor
    · intro remains
      obtain ⟨⟨testedSeat, atSeat⟩, different⟩ := remains
      exact ⟨testedSeat, Ne.symm different, atSeat⟩
    · intro remains
      obtain ⟨testedSeat, different, atSeat⟩ := remains
      exact ⟨⟨testedSeat, atSeat⟩, Ne.symm different⟩
  ticked tested := by
    -- Every remaining seat is ticked, and everybody who stays is excused.
    simp only [List.mem_toFinset, List.mem_map, Prod.exists,
      exists_eq_right]
    constructor
    · intro isOccupied
      obtain ⟨occupant, atSeat⟩ := isOccupied
      obtain ⟨different, stayed⟩ := (sound.mem_erase seated).mp atSeat
      refine ⟨occupant, atSeat, ?_⟩
      rw [credited_concat]
      exact Or.inr (Or.inl
        ⟨⟨member, Ne.symm different, rfl⟩, sound.present_of_mem stayed⟩)
    · intro credited
      obtain ⟨occupant, atSeat, _⟩ := credited
      exact ⟨occupant, atSeat⟩

theorem Sound.move (sound : sheet.Sound) (move : Move sheet next) :
    next.Sound := by
  cases move with
  | join member seat newMember newSeat => exact sound.join newMember newSeat
  | report member seat seated => exact sound.report seated
  | leave member seat seated => exact sound.leave seated
  | complete full => exact sound.call true
  | incomplete partly => exact sound.call false

end Sheet

/-! ## A member that stops reporting -/

def Entry.isComplete : Entry Member → Bool
  | .called complete => complete
  | _ => false

def Entry.isDeparture : Entry Member → Bool
  | .left _ => true
  | _ => false

def completeCalls (log : List (Entry Member)) : Nat :=
  log.countP Entry.isComplete

def departures (log : List (Entry Member)) : Nat :=
  log.countP Entry.isDeparture

open Classical in
/-- The complete calls that the member can still answer by what it has
reported. -/
noncomputable def credit (log : List (Entry Member)) (member : Member) : Nat :=
  if Credited log member then 1 else 0

theorem credit_le (log : List (Entry Member)) (member : Member) :
    credit log member ≤ 1 := by
  rw [credit]
  split
  · exact Nat.le_refl 1
  · exact Nat.zero_le 1

theorem credit_congr {first second : List (Entry Member)} {member : Member}
    (same : Credited first member ↔ Credited second member) :
    credit first member = credit second member := by
  rw [credit, credit]
  by_cases credited : Credited first member
  · rw [if_pos credited, if_pos (same.mp credited)]
  · rw [if_neg credited, if_neg (fun other => credited (same.mpr other))]

theorem completeCalls_concat (log : List (Entry Member))
    (last : Entry Member) :
    completeCalls (log ++ [last]) =
      completeCalls log + last.isComplete.toNat := by
  rw [completeCalls, List.countP_append, completeCalls]
  cases last with
  | called complete => cases complete <;> rfl
  | _ => rfl

theorem departures_concat (log : List (Entry Member)) (last : Entry Member) :
    departures (log ++ [last]) =
      departures log + last.isDeparture.toNat := by
  rw [departures, List.countP_append, departures]
  cases last <;> rfl

theorem departures_eq_zero {log : List (Entry Member)}
    (stays : ∀ member, Entry.left member ∉ log) : departures log = 0 := by
  rw [departures, List.countP_eq_zero]
  intro entry member isDeparture
  cases entry with
  | left other => exact stays other member
  | _ => cases isDeparture

/-- When nobody has left, only reports count. -/
theorem credited_iff_of_stays {log : List (Entry Member)}
    (stays : ∀ member, Entry.left member ∉ log) (member : Member) :
    Credited log member ↔ Reported log member := by
  constructor
  · intro credited
    refine credited.resolve_right fun excused => ?_
    obtain ⟨before, entry, after, split, ⟨⟨other, _, left⟩, _⟩, _⟩ := excused
    apply stays other
    rw [split, left]
    simp
  · exact Or.inl

/-- A member that is present and does not report can answer one complete call,
and one more for every departure. -/
theorem Sheet.Sound.silent_move [DecidableEq Seat] [DecidableEq Member]
    {sheet next : Sheet Member Seat} (sound : sheet.Sound)
    (move : Sheet.Move sheet next) {member : Member}
    (present : Present sheet.log member)
    (silent : next.log ≠ sheet.log ++ [.reported member])
    (stays : next.log ≠ sheet.log ++ [.left member]) :
    completeCalls next.log + credit next.log member + departures sheet.log ≤
      completeCalls sheet.log + credit sheet.log member +
        departures next.log := by
  -- An entry about somebody else leaves the credit as it is.
  have unchanged : ∀ last : Entry Member, last ≠ .reported member →
      last.isDeparture = false → ¬ Stale member last →
        credit (sheet.log ++ [last]) member = credit sheet.log member := by
    intro last notReported notDeparture notStale
    refine credit_congr ?_
    rw [credited_concat]
    constructor
    · intro credited
      rcases credited with now | ⟨⟨other, _, left⟩, _⟩ | ⟨earlier, _⟩
      · exact absurd now notReported
      · rw [left] at notDeparture
        cases notDeparture
      · exact earlier
    · exact fun earlier => Or.inr (Or.inr ⟨earlier, notStale⟩)
  cases move with
  | join other seat newMember newSeat =>
      have different : other ≠ member := by
        intro same
        subst same
        exact newMember ((sound.present other).mp present)
      have same := unchanged (.joined other) (by simp) rfl
        (by simp [Stale, different])
      dsimp only
      rw [same, completeCalls_concat, departures_concat]
      exact Nat.le_refl _
  | report other seat seated =>
      have different : Entry.reported other ≠ .reported member := by
        intro same
        exact silent (by rw [same])
      have same := unchanged (.reported other) different rfl (by simp [Stale])
      dsimp only
      rw [same, completeCalls_concat, departures_concat]
      exact Nat.le_refl _
  | leave other seat seated =>
      have bound := credit_le (sheet.log ++ [.left other]) member
      dsimp only
      rw [completeCalls_concat, departures_concat]
      simp only [Entry.isComplete, Entry.isDeparture, Bool.toNat_false,
        Bool.toNat_true]
      omega
  | complete full =>
      have credited := sound.complete_iff.mp full member present
      have before : credit sheet.log member = 1 := by
        rw [credit, if_pos credited]
      have after : credit (sheet.log ++ [.called true]) member = 0 := by
        rw [credit, if_neg]
        rw [credited_concat]
        simp [Stale]
      dsimp only
      rw [before, after, completeCalls_concat, departures_concat]
      exact Nat.le_refl _
  | incomplete partly =>
      have same := unchanged (.called false) (by simp) rfl (by simp [Stale])
      dsimp only
      rw [same, completeCalls_concat, departures_concat]
      exact Nat.le_refl _

end LoraIot.RollCall
