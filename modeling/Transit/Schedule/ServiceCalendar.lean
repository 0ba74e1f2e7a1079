import Transit.Chronology.Date

/-!
# Service calendars

A service calendar says on which days a trip runs: on the days of a weekly pattern
within a range of dates, on extra days, and never on days that are called off.

Extra days and days called off are sets of dates.  A date set is a strictly
increasing list, so two sets with the same members are the same set.
-/

namespace Transit

/-- A finite set of dates, in increasing order. -/
structure DateSet where
  dates : List Date
  increasing : dates.Pairwise (fun first second => first.dayNumber < second.dayNumber)
deriving DecidableEq

namespace DateSet

/-- The set without members. -/
def empty : DateSet := ⟨[], .nil⟩

instance : Membership Date DateSet := ⟨fun set date => date ∈ set.dates⟩

instance (date : Date) (set : DateSet) : Decidable (date ∈ set) :=
  inferInstanceAs (Decidable (date ∈ set.dates))

/-- Place a date in an increasing list, unless it is there already. -/
def place (date : Date) : List Date → List Date
  | [] => [date]
  | next :: rest =>
      if date.dayNumber < next.dayNumber then date :: next :: rest
      else if next.dayNumber < date.dayNumber then next :: place date rest
      else next :: rest

theorem mem_place (date other : Date) (dates : List Date) :
    other ∈ place date dates ↔ other = date ∨ other ∈ dates := by
  induction dates with
  | nil => simp [place]
  | cons next rest hypothesis =>
      simp only [place]
      split
      · simp
      · split
        · simp only [List.mem_cons, hypothesis]
          constructor <;> rintro (left | middle | right) <;> simp_all
        · have same : date = next := by
            cases date
            cases next
            simp_all
            omega
          subst same
          simp

theorem increasing_place (date : Date) {dates : List Date}
    (increasing : dates.Pairwise (fun first second => first.dayNumber < second.dayNumber)) :
    (place date dates).Pairwise (fun first second => first.dayNumber < second.dayNumber) := by
  induction dates with
  | nil => simp [place]
  | cons next rest hypothesis =>
      obtain ⟨below, inner⟩ := List.pairwise_cons.mp increasing
      simp only [place]
      split
      · refine List.pairwise_cons.mpr ⟨fun later member => ?_, increasing⟩
        rcases List.mem_cons.mp member with rfl | member
        · assumption
        · have := below later member
          omega
      · split
        · refine List.pairwise_cons.mpr ⟨fun later member => ?_, hypothesis inner⟩
          rcases (mem_place date later rest).mp member with rfl | member
          · assumption
          · exact below later member
        · exact increasing

/-- The set with one more member. -/
def insert (set : DateSet) (date : Date) : DateSet :=
  ⟨place date set.dates, increasing_place date set.increasing⟩

/-- The set without one member. -/
def erase (set : DateSet) (date : Date) : DateSet :=
  ⟨set.dates.filter (fun member => member ≠ date), set.increasing.filter _⟩

/-- The set of the dates in a list. -/
def ofList (dates : List Date) : DateSet := dates.foldl insert empty

@[simp]
theorem not_mem_empty (date : Date) : ¬ date ∈ empty := List.not_mem_nil

@[simp]
theorem mem_insert (set : DateSet) (date other : Date) :
    other ∈ set.insert date ↔ other = date ∨ other ∈ set :=
  mem_place date other set.dates

@[simp]
theorem mem_erase (set : DateSet) (date other : Date) :
    other ∈ set.erase date ↔ other ∈ set ∧ other ≠ date := by
  change other ∈ set.dates.filter _ ↔ _
  rw [List.mem_filter, decide_eq_true_eq]
  rfl

end DateSet

/-- The days of the week on which a trip runs, counted from Monday. -/
abbrev WeekdayMask := Vector Bool 7

namespace WeekdayMask

/-- No day of the week. -/
def never : WeekdayMask := .replicate 7 false

/-- Every day of the week. -/
def always : WeekdayMask := .replicate 7 true

/-- Monday to Friday. -/
def workdays : WeekdayMask := #v[true, true, true, true, true, false, false]

end WeekdayMask

/-- The days on which a trip runs. -/
structure ServiceCalendar where
  /-- The weekly pattern, which holds only between `firstDay?` and `lastDay?`. -/
  weekdays : WeekdayMask
  firstDay? : Option Date
  lastDay? : Option Date
  /-- Days on which the trip runs whatever the pattern says. -/
  added : DateSet
  /-- Days on which the trip does not run whatever anything else says. -/
  removed : DateSet
deriving DecidableEq

namespace ServiceCalendar

/-- The calendar of a trip that never runs. -/
def empty : ServiceCalendar := ⟨.never, none, none, .empty, .empty⟩

/-- A weekly pattern from one date to another, both included. -/
def weekly (weekdays : WeekdayMask) (start finish : Date) : ServiceCalendar :=
  { empty with weekdays, firstDay? := some start, lastDay? := some finish }

/-- The calendar of a trip that runs on the listed dates only. -/
def onDates (dates : List Date) : ServiceCalendar :=
  { empty with added := .ofList dates }

/-- Let the trip run on a date. -/
def add (calendar : ServiceCalendar) (date : Date) : ServiceCalendar :=
  { calendar with added := calendar.added.insert date, removed := calendar.removed.erase date }

/-- Call the trip off on a date. -/
def remove (calendar : ServiceCalendar) (date : Date) : ServiceCalendar :=
  { calendar with added := calendar.added.erase date, removed := calendar.removed.insert date }

/-- Whether the weekly pattern holds on a date. -/
def followsPattern (calendar : ServiceCalendar) (date : Date) : Bool :=
  match calendar.firstDay?, calendar.lastDay? with
  | some start, some finish =>
      start ≤ date && date ≤ finish && calendar.weekdays[date.weekday]
  | _, _ => false

/-- Whether the trip runs on a date. -/
def activeOn (calendar : ServiceCalendar) (date : Date) : Bool :=
  !decide (date ∈ calendar.removed) &&
    (decide (date ∈ calendar.added) || calendar.followsPattern date)

@[simp]
theorem activeOn_add_self (calendar : ServiceCalendar) (date : Date) :
    (calendar.add date).activeOn date = true := by
  simp [add, activeOn]

@[simp]
theorem activeOn_remove_self (calendar : ServiceCalendar) (date : Date) :
    (calendar.remove date).activeOn date = false := by
  simp [remove, activeOn]

end ServiceCalendar

end Transit
