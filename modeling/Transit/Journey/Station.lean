import Transit.Chronology.InstantText
import Transit.Chronology.Zone
import Transit.Schedule.Stop

/-!
# Stations

A station joins a stop to the origin or the destination of a journey by a walk of
fixed length.  The walk may be negative, which means that the stop is left before
the origin or the destination reached before the stop.

The clocks of a place may show a date that the calendar does not have, on its first and
last day where they are behind universal time or ahead of it.  There is no local time
then, although the instant itself is in range.
-/

namespace Transit

/-- A stop, the zone its clocks follow, and the milliseconds of the walk. -/
structure Station where
  stop : Stop
  zone : Zone
  walk : Int
deriving DecidableEq

/-- What the calendar and the clocks of a place show. -/
structure LocalTime where
  date : Date
  second : Nat
deriving DecidableEq

/-- What is shown in a zone at an instant, if the calendar has the date. -/
def Zone.localTime? (zone : Zone) (instant : Instant) : Option LocalTime :=
  let offset := zone.offsetAt instant
  let date := instant.dateAt offset
  if date.InRange then some ⟨date, instant.secondOfDayAt offset⟩ else none

theorem Zone.localTime?_eq_some_iff (zone : Zone) (instant : Instant) (shown : LocalTime) :
    zone.localTime? instant = some shown ↔
      (instant.dateAt (zone.offsetAt instant)).InRange ∧
        shown = ⟨instant.dateAt (zone.offsetAt instant),
          instant.secondOfDayAt (zone.offsetAt instant)⟩ := by
  simp [localTime?, eq_comm]

namespace Station

/-- The walk as a span, if it can be one. -/
def span? (station : Station) : Option Span := Span.ofMilliseconds? station.walk

/-- The instant at which the stop is reached when the origin is left at `departure`, if
there is one. -/
def reached? (station : Station) (departure : Instant) : Option Instant := do
  departure.add? (← station.span?)

/-- The local time at which the stop is reached when the origin is left at
`departure`, if it can be represented. -/
def localDeparture? (station : Station) (departure : Instant) : Option LocalTime := do
  station.zone.localTime? (← station.reached? departure)

/-- The form for inspection. -/
def describe (station : Station) : String :=
  "StopWithTimeDelta \x7b stop: " ++ station.stop.describe ++ ", zone: " ++ station.zone.name ++
    s!", time_delta_millis: {station.walk} \x7d"

end Station

end Transit
