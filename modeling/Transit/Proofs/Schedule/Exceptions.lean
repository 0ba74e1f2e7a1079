import Mathlib.Data.List.Induction
import Mathlib.Data.List.Perm.Basic
import Transit.Schedule.ServiceCalendar

/-!
# Exceptions of a service calendar

A calendar is amended by letting its trip run on a date or calling it off.  The last amendment
of a date decides for that date, and dates that are not amended stay as they were.  So a calendar
after any number of amendments depends on the last amendment of each date alone, and those of
different dates may be made in any order.
-/

namespace Transit

/-- Sets of dates with the same members are the same set. -/
theorem DateSet.eq_of_mem_iff {set other : DateSet} (same : ∀ date, date ∈ set ↔ date ∈ other) :
    set = other := by
  have strict : ∀ dates : DateSet, dates.dates.Nodup := by
    intro dates
    refine dates.increasing.imp fun before same => ?_
    rw [same] at before
    exact Int.lt_irrefl _ before
  have perm : set.dates.Perm other.dates :=
    (List.perm_ext_iff_of_nodup (strict set) (strict other)).mpr same
  have dates : set.dates = other.dates :=
    perm.eq_of_pairwise (fun _ _ _ _ before after => absurd after (Int.lt_asymm before))
      set.increasing other.increasing
  cases set
  cases other
  cases dates
  rfl

/-- What a calendar is told about a date. -/
inductive Amendment where
  /-- The trip runs on the date. -/
  | add (date : Date)
  /-- The trip is called off on the date. -/
  | remove (date : Date)
deriving DecidableEq

namespace Amendment

/-- The date that is amended. -/
def date : Amendment → Date
  | add date => date
  | remove date => date

/-- Whether the trip runs on that date. -/
def runs : Amendment → Bool
  | add _ => true
  | remove _ => false

/-- The last of some amendments that is about a date. -/
def last? (amendments : List Amendment) (date : Date) : Option Amendment :=
  (amendments.filter fun amendment => amendment.date = date).getLast?

theorem last?_concat (amendments : List Amendment) (newest : Amendment) (date : Date) :
    last? (amendments ++ [newest]) date =
      if newest.date = date then some newest else last? amendments date := by
  unfold last?
  rw [List.filter_append]
  split
  case isTrue same =>
    rw [List.filter_cons_of_pos (by simpa using same), List.filter_nil, List.getLast?_concat]
  case isFalse other =>
    rw [List.filter_cons_of_neg (by simpa using other), List.filter_nil, List.append_nil]

/-- A date has no last amendment if it has none. -/
theorem last?_eq_none_iff {amendments : List Amendment} {date : Date} :
    last? amendments date = none ↔ ∀ amendment ∈ amendments, amendment.date ≠ date := by
  simp [last?]

end Amendment

namespace ServiceCalendar

variable {calendar : ServiceCalendar} {amendment : Amendment} {amendments others : List Amendment}
  {date : Date}

/-- The calendar after one amendment. -/
def amend (calendar : ServiceCalendar) : Amendment → ServiceCalendar
  | .add date => calendar.add date
  | .remove date => calendar.remove date

/-- The calendar after amendments, one after the other. -/
def amendAll (calendar : ServiceCalendar) (amendments : List Amendment) : ServiceCalendar :=
  amendments.foldl amend calendar

theorem amendAll_concat (calendar : ServiceCalendar) (amendments : List Amendment)
    (newest : Amendment) :
    calendar.amendAll (amendments ++ [newest]) = (calendar.amendAll amendments).amend newest :=
  List.foldl_concat ..

theorem mem_added_amend :
    date ∈ (calendar.amend amendment).added ↔
      if amendment.date = date then amendment.runs = true else date ∈ calendar.added := by
  cases amendment with
  | add other =>
      simp only [amend, add, Amendment.date, Amendment.runs]
      grind [DateSet.mem_insert]
  | remove other =>
      simp only [amend, remove, Amendment.date, Amendment.runs]
      grind [DateSet.mem_erase]

theorem mem_removed_amend :
    date ∈ (calendar.amend amendment).removed ↔
      if amendment.date = date then amendment.runs = false else date ∈ calendar.removed := by
  cases amendment with
  | add other =>
      simp only [amend, add, Amendment.date, Amendment.runs]
      grind [DateSet.mem_erase]
  | remove other =>
      simp only [amend, remove, Amendment.date, Amendment.runs]
      grind [DateSet.mem_insert]

theorem followsPattern_amend :
    (calendar.amend amendment).followsPattern date = calendar.followsPattern date := by
  cases amendment <;> rfl

theorem activeOn_amend :
    (calendar.amend amendment).activeOn date =
      if amendment.date = date then amendment.runs else calendar.activeOn date := by
  unfold activeOn
  simp only [mem_added_amend, mem_removed_amend, followsPattern_amend]
  split <;> cases amendment.runs <;> simp

/-- What one amendment settles for its own date and leaves alone for all others is settled by
the last amendment of that date. -/
theorem view_amendAll {Seen : Type} (view : ServiceCalendar → Seen) (settled : Amendment → Seen)
    (amended : ∀ calendar amendment, view (amend calendar amendment) =
      if amendment.date = date then settled amendment else view calendar) :
    view (calendar.amendAll amendments) =
      (Amendment.last? amendments date).elim (view calendar) settled := by
  induction amendments using List.reverseRecOn with
  | nil => rfl
  | append_singleton earlier newest hypothesis =>
      rw [amendAll_concat, amended, Amendment.last?_concat, hypothesis]
      split
      case isTrue => rfl
      case isFalse => rfl

theorem activeOn_amendAll :
    (calendar.amendAll amendments).activeOn date =
      (Amendment.last? amendments date).elim (calendar.activeOn date) Amendment.runs :=
  view_amendAll (fun now => now.activeOn date) _ fun _ _ => activeOn_amend

theorem mem_added_amendAll :
    date ∈ (calendar.amendAll amendments).added ↔
      (Amendment.last? amendments date).elim (date ∈ calendar.added) (·.runs = true) :=
  Iff.of_eq (view_amendAll (fun now => date ∈ now.added) _ fun _ _ => propext mem_added_amend)

theorem mem_removed_amendAll :
    date ∈ (calendar.amendAll amendments).removed ↔
      (Amendment.last? amendments date).elim (date ∈ calendar.removed) (·.runs = false) :=
  Iff.of_eq (view_amendAll (fun now => date ∈ now.removed) _ fun _ _ => propext mem_removed_amend)

/-- No amendment touches the weekly pattern. -/
theorem amendAll_eq_with (calendar : ServiceCalendar) (amendments : List Amendment) :
    calendar.amendAll amendments =
      { calendar with
        added := (calendar.amendAll amendments).added
        removed := (calendar.amendAll amendments).removed } := by
  induction amendments using List.reverseRecOn with
  | nil => rfl
  | append_singleton earlier newest hypothesis =>
      rw [amendAll_concat, hypothesis]
      cases newest <;> rfl

/-- Only the last amendment of each date counts. -/
theorem amendAll_eq_of_last?_eq
    (same : ∀ date, Amendment.last? amendments date = Amendment.last? others date) :
    calendar.amendAll amendments = calendar.amendAll others := by
  have added : (calendar.amendAll amendments).added = (calendar.amendAll others).added :=
    DateSet.eq_of_mem_iff fun date => by rw [mem_added_amendAll, mem_added_amendAll, same]
  have removed : (calendar.amendAll amendments).removed = (calendar.amendAll others).removed :=
    DateSet.eq_of_mem_iff fun date => by rw [mem_removed_amendAll, mem_removed_amendAll, same]
  rw [amendAll_eq_with, added, removed, ← amendAll_eq_with]

/-- A date is both added and removed only if it was and is not amended. -/
theorem mem_both_amendAll :
    (date ∈ (calendar.amendAll amendments).added ∧
        date ∈ (calendar.amendAll amendments).removed) ↔
      (date ∈ calendar.added ∧ date ∈ calendar.removed) ∧
        ∀ amendment ∈ amendments, amendment.date ≠ date := by
  rw [mem_added_amendAll, mem_removed_amendAll, ← Amendment.last?_eq_none_iff]
  cases Amendment.last? amendments date with
  | none => simp
  | some newest => cases newest <;> simp [Amendment.runs]

end ServiceCalendar

/-- Neighbours about different dates may change places. -/
theorem Amendment.last?_swap {before after : List Amendment} {first second : Amendment}
    (apart : first.date ≠ second.date) (date : Date) :
    last? (before ++ first :: second :: after) date =
      last? (before ++ second :: first :: after) date := by
  unfold last?
  simp only [List.filter_append, List.filter_cons, decide_eq_true_eq]
  split
  case isTrue here =>
    have elsewhere : second.date ≠ date := fun there => apart (here.trans there.symm)
    rw [if_neg elsewhere, if_neg elsewhere]
  case isFalse => rfl

namespace ServiceCalendar

/-- After any amendments the trip runs on a date as the last amendment of the date says, and as
before if there is none.  Amendments add no date to those both added and removed, and free those
that they name.  The calendar depends on the last amendment of each date alone, so that
amendments of different dates may change places. -/
theorem last_amendment_wins (calendar : ServiceCalendar) (amendments : List Amendment) :
    (∀ date, (calendar.amendAll amendments).activeOn date =
        match Amendment.last? amendments date with
        | some (.add _) => true
        | some (.remove _) => false
        | none => calendar.activeOn date) ∧
      (∀ date, (date ∈ (calendar.amendAll amendments).added ∧
          date ∈ (calendar.amendAll amendments).removed) ↔
        (date ∈ calendar.added ∧ date ∈ calendar.removed) ∧
          ∀ amendment ∈ amendments, amendment.date ≠ date) ∧
      (∀ others, (∀ date, Amendment.last? amendments date = Amendment.last? others date) →
        calendar.amendAll amendments = calendar.amendAll others) ∧
      ∀ before first second after, amendments = before ++ first :: second :: after →
        first.date ≠ second.date →
        calendar.amendAll amendments = calendar.amendAll (before ++ second :: first :: after) := by
  refine ⟨fun date => ?_, fun _ => mem_both_amendAll, fun _ => amendAll_eq_of_last?_eq, ?_⟩
  · rw [activeOn_amendAll]
    cases Amendment.last? amendments date with
    | none => rfl
    | some newest => cases newest <;> rfl
  · rintro before first second after rfl apart
    exact amendAll_eq_of_last?_eq (Amendment.last?_swap apart)

/-- 15 March 2024. -/
def friday : Date := ⟨19797⟩

/-- 16 March 2024. -/
def saturday : Date := ⟨19798⟩

/-- The workdays of a week, with its Friday both added and removed. -/
def doubledFriday : ServiceCalendar :=
  { weekly .workdays ⟨19793⟩ ⟨19799⟩ with added := .ofList [friday], removed := .ofList [friday] }

/-- The Friday is called off before any amendment, and runs when it has been added after it was
removed; the Saturday may be amended in between. -/
theorem last_amendment_wins_on_doubledFriday :
    let amended := doubledFriday.amendAll [.remove friday, .add saturday, .add friday]
    doubledFriday.activeOn friday = false ∧ amended.activeOn friday = true ∧
      amended.activeOn saturday = true ∧
      ¬ (friday ∈ amended.added ∧ friday ∈ amended.removed) ∧
      amended = doubledFriday.amendAll [.remove friday, .add friday, .add saturday] ∧
      amended = doubledFriday.amendAll [.add saturday, .add friday] := by
  intro amended
  obtain ⟨active, both, lasting, exchange⟩ :=
    last_amendment_wins doubledFriday [.remove friday, .add saturday, .add friday]
  have apart : friday ≠ saturday := by decide
  have same : ∀ date, Amendment.last? [.remove friday, .add saturday, .add friday] date =
      Amendment.last? [.add saturday, .add friday] date := by
    intro date
    by_cases here : friday = date
    · subst here
      rfl
    · simp [Amendment.last?, List.filter_cons, Amendment.date, here]
  refine ⟨by decide, (active friday).trans rfl, (active saturday).trans rfl, ?_,
    exchange [.remove friday] (.add saturday) (.add friday) [] rfl apart.symm, lasting _ same⟩
  rw [both]
  rintro ⟨_, unnamed⟩
  exact unnamed (.add friday) (by simp) rfl

end ServiceCalendar

end Transit
