/-!
# Calendar dates

A date of the proleptic Gregorian calendar is the number of days that separate it
from 1 January 1970.  Comparing dates, stepping from one to the next and asking for
the weekday are then integer arithmetic; only reading and writing a date goes
through its year, month and day.

The conversion counts years from 1 March, so that the leap day is the last day of
its year, in cycles of 400 years with 146097 days each.
-/

namespace Transit

/-- A date, as days since 1 January 1970. -/
structure Date where
  dayNumber : Int
deriving DecidableEq

namespace Date

instance : LE Date := ⟨fun first second => first.dayNumber ≤ second.dayNumber⟩

instance : LT Date := ⟨fun first second => first.dayNumber < second.dayNumber⟩

instance (first second : Date) : Decidable (first ≤ second) :=
  inferInstanceAs (Decidable (first.dayNumber ≤ second.dayNumber))

instance (first second : Date) : Decidable (first < second) :=
  inferInstanceAs (Decidable (first.dayNumber < second.dayNumber))

@[simp]
theorem le_iff (first second : Date) :
    first ≤ second ↔ first.dayNumber ≤ second.dayNumber := .rfl

@[simp]
theorem lt_iff (first second : Date) :
    first < second ↔ first.dayNumber < second.dayNumber := .rfl

/-- Position of the date in its week, counted from Monday. -/
def weekday (date : Date) : Fin 7 :=
  Fin.ofNat 7 ((date.dayNumber + 3) % 7).toNat

/-- Years with 366 days. -/
def isLeapYear (year : Int) : Bool :=
  year % 4 == 0 && (year % 100 != 0 || year % 400 == 0)

/-- Number of days in a month, zero for a month that does not exist. -/
def daysInMonth (year : Int) : (month : Nat) → Nat
  | 2 => if isLeapYear year then 29 else 28
  | 4 | 6 | 9 | 11 => 30
  | 1 | 3 | 5 | 7 | 8 | 10 | 12 => 31
  | _ => 0

/-- The day number of a year, month and day, whether or not that day exists. -/
def dayNumberOf (year : Int) (month day : Nat) : Int :=
  let marchYear := if month ≤ 2 then year - 1 else year
  let cycle := marchYear / 400
  let yearOfCycle := marchYear % 400
  let dayOfYear := ((153 * ((month + 9) % 12) + 2) / 5 + day : Int) - 1
  let dayOfCycle := yearOfCycle * 365 + yearOfCycle / 4 - yearOfCycle / 100 + dayOfYear
  cycle * 146097 + dayOfCycle - 719468

/-- 1 January of the year -262143. -/
def first : Date := ⟨dayNumberOf (-262143) 1 1⟩

/-- 31 December of the year 262142. -/
def last : Date := ⟨dayNumberOf 262142 12 31⟩

/-- Dates from `first` to `last` are the ones that can be read and computed. -/
def InRange (date : Date) : Prop := first ≤ date ∧ date ≤ last

instance (date : Date) : Decidable (InRange date) :=
  inferInstanceAs (Decidable (first ≤ date ∧ date ≤ last))

/-- The date of a year, month and day, if that day exists and is in range. -/
def ofCivil? (year : Int) (month day : Nat) : Option Date :=
  if 1 ≤ day ∧ day ≤ daysInMonth year month ∧ InRange ⟨dayNumberOf year month day⟩ then
    some ⟨dayNumberOf year month day⟩
  else
    none

/-- A date by its year, month and day of the month. -/
structure Civil where
  year : Int
  month : Nat
  day : Nat
deriving DecidableEq

/-- Year, month and day of a date. -/
def civil (date : Date) : Civil :=
  let shifted := date.dayNumber + 719468
  let cycle := shifted / 146097
  let dayOfCycle := (shifted % 146097).toNat
  let yearOfCycle :=
    (dayOfCycle - dayOfCycle / 1460 + dayOfCycle / 36524 - dayOfCycle / 146096) / 365
  let dayOfYear := dayOfCycle - (365 * yearOfCycle + yearOfCycle / 4 - yearOfCycle / 100)
  let monthFromMarch := (5 * dayOfYear + 2) / 153
  let day := dayOfYear - (153 * monthFromMarch + 2) / 5 + 1
  let month := if monthFromMarch < 10 then monthFromMarch + 3 else monthFromMarch - 9
  let marchYear := cycle * 400 + yearOfCycle
  { year := if month ≤ 2 then marchYear + 1 else marchYear, month, day }

example : (dayNumberOf 1970 1 1, dayNumberOf 2024 2 29, dayNumberOf 2024 3 15) =
    (0, 19782, 19797) := by decide

example : civil ⟨19782⟩ = ⟨2024, 2, 29⟩ ∧ civil ⟨-1⟩ = ⟨1969, 12, 31⟩ := by decide

example : weekday ⟨19797⟩ = 4 := by decide

end Date

end Transit
