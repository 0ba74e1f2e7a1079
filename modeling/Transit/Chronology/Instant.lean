import Transit.Chronology.Date

/-!
# Spans and instants

A span is a signed number of milliseconds, an instant a nanosecond of a second of
universal time.  A leap second has no number of its own: it is the second before
it, with a nanosecond count of a thousand million or more.

Instants run from the first to the last nanosecond of the dates in range, and
adding a span that leaves this range fails.

Walks are given in milliseconds and windows and steps in minutes, so a span holds whole
milliseconds.  Windows of a finer length, which no query can ask for, are left out.
-/

namespace Transit

/-- A signed length of time. -/
structure Span where
  milliseconds : Int
deriving DecidableEq

namespace Span

/-- No time at all. -/
def zero : Span := ⟨0⟩

/-- The largest number of milliseconds a span may hold, of either sign. -/
def bound : Int := 9223372036854775807

/-- A number of milliseconds as a span, if it is within the bound. -/
def ofMilliseconds? (milliseconds : Int) : Option Span :=
  if -bound ≤ milliseconds ∧ milliseconds ≤ bound then some ⟨milliseconds⟩ else none

/-- A number of minutes as a span, if it is within the bound. -/
def ofMinutes? (minutes : Int) : Option Span :=
  ofMilliseconds? (minutes * 60000)

/-- Whole seconds, the fraction cut off. -/
def seconds (span : Span) : Int := span.milliseconds.tdiv 1000

instance : Sub Span := ⟨fun first second => ⟨first.milliseconds - second.milliseconds⟩⟩

@[simp]
theorem milliseconds_sub (first second : Span) :
    (first - second).milliseconds = first.milliseconds - second.milliseconds := rfl

end Span

/-- A point in universal time. -/
structure Instant where
  /-- Seconds since the beginning of 1 January 1970. -/
  second : Int
  /-- Nanoseconds within the second; a thousand million and more lie in a leap second. -/
  nanosecond : Nat
deriving DecidableEq

namespace Instant

/-- The date at a place whose clocks are `offset` seconds ahead of universal time. -/
def dateAt (offset : Int) (instant : Instant) : Date :=
  ⟨(instant.second + offset) / 86400⟩

/-- The second of the day at a place whose clocks are `offset` seconds ahead of
universal time.  A leap second belongs to the second before it. -/
def secondOfDayAt (offset : Int) (instant : Instant) : Nat :=
  ((instant.second + offset) % 86400).toNat

/-- Instants whose date is in range are the ones that can be read and computed. -/
def InRange (instant : Instant) : Prop := (instant.dateAt 0).InRange

instance (instant : Instant) : Decidable instant.InRange :=
  inferInstanceAs (Decidable (instant.dateAt 0).InRange)

/-- The last nanosecond of the last date. -/
def last : Instant := ⟨Date.last.dayNumber * 86400 + 86399, 999999999⟩

/-- Move an instant by a span, which may lead out of the range.  A move that leaves
a leap second forwards starts at the beginning of the second that the leap second
counts with, one that leaves it backwards starts a second later. -/
def move (instant : Instant) (span : Span) : Instant :=
  let seconds := span.milliseconds.tdiv 1000
  let nanoseconds := span.milliseconds.tmod 1000 * 1000000
  let isLeap := 1000000000 ≤ instant.nanosecond
  if isLeap ∧ seconds = 0 ∧ instant.nanosecond + nanoseconds < 2000000000 then
    ⟨instant.second, (instant.nanosecond + nanoseconds).toNat⟩
  else
    let start := if isLeap ∧ seconds < 0 then instant.second + 1 else instant.second
    let total := (instant.nanosecond % 1000000000 : Nat) + nanoseconds
    ⟨start + seconds + total / 1000000000, (total % 1000000000).toNat⟩

/-- Move an instant by a span, if the result is in range. -/
def add? (instant : Instant) (span : Span) : Option Instant :=
  if (instant.move span).InRange then some (instant.move span) else none

end Instant

end Transit
