import Transit.Text.Blank
import Transit.Text.Numeral

/-!
# Service times

A timetable gives its times from the beginning of the service day, and a trip that
runs past midnight keeps counting: `25:10:00` is ten past one on the next morning.
A service time is therefore a number of seconds that may exceed a day.

It has two written forms.  `clock` shows the second of the day and how many
midnights lie before it, `text` keeps the hours past 23 and can be read back with
`parse` while the hours have at most three digits.
-/

namespace Transit

/-- Seconds since the beginning of the service day. -/
structure ServiceTime where
  seconds : UInt32
deriving DecidableEq

/-- Why a text or a triple of numbers is no service time. -/
inductive TimeFault where
  | parts
  | hourDigits
  | minuteDigits
  | secondDigits
  | minute
  | second
  | hour
deriving DecidableEq

/-- The wording of a fault. -/
def TimeFault.message (fault : TimeFault) : String :=
  "invalid time: " ++
    match fault with
    | .parts => "expected HH:MM:SS format"
    | .hourDigits => "invalid hour digits"
    | .minuteDigits => "invalid minute digits"
    | .secondDigits => "invalid second digits"
    | .minute => "minute must be 0-59"
    | .second => "second must be 0-59"
    | .hour => "hour out of range"

namespace ServiceTime

instance : LE ServiceTime := ⟨fun first second => first.seconds ≤ second.seconds⟩

instance : LT ServiceTime := ⟨fun first second => first.seconds < second.seconds⟩

instance (first second : ServiceTime) : Decidable (first ≤ second) :=
  inferInstanceAs (Decidable (first.seconds ≤ second.seconds))

instance (first second : ServiceTime) : Decidable (first < second) :=
  inferInstanceAs (Decidable (first.seconds < second.seconds))

/-- Seconds in one calendar day. -/
def secondsPerDay : Nat := 86400

/-- How many midnights lie between the beginning of the service day and this time. -/
def days (time : ServiceTime) : Nat := time.seconds.toNat / secondsPerDay

/-- The second of the calendar day this time falls on. -/
def secondOfDay (time : ServiceTime) : Nat := time.seconds.toNat % secondsPerDay

/-- Hours, minutes and seconds as a service time.  The hours are bounded only by the
largest number of seconds that a service time holds. -/
def ofClock (hours minutes seconds : Nat) : Except TimeFault ServiceTime :=
  if 59 < minutes then .error .minute
  else if 59 < seconds then .error .second
  else if hours * 3600 + (minutes * 60 + seconds) < UInt32.size then
    .ok ⟨UInt32.ofNat (hours * 3600 + (minutes * 60 + seconds))⟩
  else .error .hour

/-- The number written by a run of `least` to `most` digits. -/
def field (least most : Nat) (fault : TimeFault) (characters : List Char) :
    Except TimeFault Nat :=
  if least ≤ characters.length ∧ characters.length ≤ most ∧ characters.all Char.isDigit then
    .ok (Text.numeralValue characters)
  else
    .error fault

/-- Read hours, minutes and seconds joined by colons: the hours with one to three
digits, the others with two.  Blanks around the whole are ignored. -/
def parse (text : String) : Except TimeFault ServiceTime :=
  match (Text.trim text.toList).splitOn ':' with
  | [hours, minutes, seconds] => do
      let hours ← field 1 3 .hourDigits hours
      let minutes ← field 2 2 .minuteDigits minutes
      let seconds ← field 2 2 .secondDigits seconds
      ofClock hours minutes seconds
  | _ => .error .parts

/-- Hours, minutes and seconds with at least two digits each. -/
def clockText (seconds : Nat) : String :=
  s!"{Text.padded 2 (seconds / 3600)}:{Text.padded 2 (seconds / 60 % 60)}:{Text.padded 2 (seconds % 60)}"

/-- The form that keeps the hours past 23. -/
def text (time : ServiceTime) : String := clockText time.seconds.toNat

/-- The form of a clock, with the number of midnights passed if there are any. -/
def clock (time : ServiceTime) : String :=
  clockText time.secondOfDay ++ if 0 < time.days then s!"+{time.days}" else ""

/-- The form for inspection. -/
def describe (time : ServiceTime) : String := s!"ServiceTime({time.clock})"

theorem le_iff (first second : ServiceTime) :
    first ≤ second ↔ first.seconds.toNat ≤ second.seconds.toNat :=
  UInt32.le_iff_toNat_le

theorem lt_iff (first second : ServiceTime) :
    first < second ↔ first.seconds.toNat < second.seconds.toNat :=
  UInt32.lt_iff_toNat_lt

/-- Days and second of the day make up the time. -/
theorem days_secondOfDay (time : ServiceTime) :
    time.days * secondsPerDay + time.secondOfDay = time.seconds.toNat :=
  Nat.div_add_mod' _ _

/-- Three hour digits never exceed the largest service time. -/
theorem ofClock_eq_ok {hours minutes seconds : Nat} (shortHours : hours ≤ 999)
    (minuteInHour : minutes ≤ 59) (secondInMinute : seconds ≤ 59) :
    ofClock hours minutes seconds =
      .ok ⟨UInt32.ofNat (hours * 3600 + (minutes * 60 + seconds))⟩ := by
  have bound : hours * 3600 + (minutes * 60 + seconds) < UInt32.size := by
    simp only [UInt32.size]
    omega
  simp [ofClock, Nat.not_lt.mpr minuteInHour, Nat.not_lt.mpr secondInMinute, bound]

end ServiceTime

end Transit
