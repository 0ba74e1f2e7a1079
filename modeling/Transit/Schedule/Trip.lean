import Transit.Schedule.ServiceCalendar
import Transit.Schedule.ServiceTime

/-!
# Trips

A trip is one run of a vehicle.  It calls at stops of its feed in order, each call
with an arrival and a departure.  A position names one call of one indexed trip.

Trips of one block are run by the same vehicle.
-/

namespace Transit

/-- One call of a trip at a stop of its feed. -/
structure Call where
  stop : String
  arrival : ServiceTime
  departure : ServiceTime
deriving DecidableEq

/-- A trip as it is scheduled, before it has an index. -/
structure ScheduledTrip where
  feed : String
  name : String
  route? : Option String
  block? : Option String
  service : ServiceCalendar
  calls : List Call
deriving DecidableEq

/-- A trip with its place among all trips.  The trips of a pattern have consecutive
indices, and `patternEnd` is the first index after the trip's pattern. -/
structure Trip where
  index : Nat
  patternEnd : Nat
  pattern : String
  feed : String
  name : String
  route? : Option String
  block? : Option String
  service : ServiceCalendar
  calls : List Call
deriving DecidableEq

/-- One call of one trip: the index of the trip and the place of the call in it. -/
structure Position where
  trip : Nat
  call : Nat
deriving DecidableEq

namespace Trip

/-- Departure from the first stop. -/
def start? (trip : Trip) : Option ServiceTime :=
  trip.calls.head?.map Call.departure

/-- Whether two trips are run by one vehicle.  A trip without a block shares its
vehicle with no other trip. -/
def sharesVehicle (first second : Trip) : Bool :=
  match first.block?, second.block? with
  | some one, some other => one == other
  | _, _ => false

theorem sharesVehicle_iff (first second : Trip) :
    first.sharesVehicle second = true ↔
      ∃ block, first.block? = some block ∧ second.block? = some block := by
  unfold sharesVehicle
  cases first.block? <;> cases second.block? <;> simp
  exact eq_comm

theorem sharesVehicle_comm (first second : Trip) :
    first.sharesVehicle second = second.sharesVehicle first := by
  rw [Bool.eq_iff_iff, sharesVehicle_iff, sharesVehicle_iff]
  exact exists_congr fun _ => and_comm

end Trip

namespace Position

/-- Order by trip and then by call. -/
def mayPrecede (first second : Position) : Bool :=
  first.trip < second.trip || (first.trip == second.trip && first.call ≤ second.call)

/-- The form for messages: trip and call joined by an at sign. -/
def text (position : Position) : String := s!"{position.trip}@{position.call}"

end Position

end Transit
