import Transit.Order.Arrange
import Transit.Order.Grouping
import Transit.Schedule.NetworkFault
import Transit.Schedule.Trip

/-!
# Timetables

Trips of one feed that call at the same stops in the same order form a pattern.  A
timetable numbers its trips so that the trips of a pattern have consecutive
indices, in the order of their first departures, and keeps for every stop the
boardings that each pattern offers there, in the order of their departures.

`Timetable.build` makes a timetable of scheduled trips or says which trip stands in
the way.  Patterns are numbered in the order in which their first trips were given.
-/

namespace Transit

/-- A pattern and the range of its trips, from `first` up to and without `finish`. -/
structure Pattern where
  name : String
  feed : String
  stops : List String
  first : Nat
  finish : Nat
deriving DecidableEq

/-- The boardings at one stop: under the name of each pattern that can be boarded
there, the positions at which to board, in the order of their departures.  The
patterns stand in the order of their names. -/
abbrev Boardings := List (String × List Position)

/-- Indexed trips. -/
structure Timetable where
  trips : List Trip
  patterns : List Pattern
  boardings : List (Stop × Boardings)
deriving DecidableEq

namespace ScheduledTrip

/-- The place of the first call at which a trip goes back in time, where `earlier` is
the departure before the first of the given calls and `place` that call's place. -/
def backInTime? (place : Nat) (earlier : Option ServiceTime) : List Call → Option Nat
  | [] => none
  | call :: rest =>
      if call.departure < call.arrival ∨ earlier.any (call.arrival < ·) then some place
      else backInTime? (place + 1) (some call.departure) rest

/-- Check one trip on its own. -/
def check (trip : ScheduledTrip) : Except NetworkFault Unit := do
  if trip.calls.length < 2 then throw (.tooFewCalls trip.name)
  trip.calls.forM fun call => discard ((Stop.make trip.feed call.stop).mapError .stop)
  match backInTime? 0 none trip.calls with
  | some place => throw (.backInTime trip.name place)
  | none => return ()

/-- Check trips in order, each on its own and then against the names seen before. -/
def checkAll (seen : List (String × String)) : List ScheduledTrip → Except NetworkFault Unit
  | [] => .ok ()
  | trip :: rest => do
      trip.check
      if (trip.feed, trip.name) ∈ seen then throw (.duplicateTrip trip.feed trip.name)
      checkAll ((trip.feed, trip.name) :: seen) rest

/-- What trips of one pattern have in common. -/
def route (trip : ScheduledTrip) : String × List String :=
  (trip.feed, trip.calls.map Call.stop)

/-- Seconds of the first departure. -/
def startSeconds (trip : ScheduledTrip) : Nat :=
  match trip.calls with
  | [] => 0
  | call :: _ => call.departure.seconds.toNat

/-- Order within a pattern: by first departure and then by name. -/
def mayPrecede (first second : ScheduledTrip) : Bool :=
  first.startSeconds < second.startSeconds ||
    (first.startSeconds == second.startSeconds && first.name ≤ second.name)

/-- The trip with its place among all trips. -/
def indexed (trip : ScheduledTrip) (index patternEnd : Nat) (pattern : String) : Trip :=
  { index, patternEnd, pattern, feed := trip.feed, name := trip.name, route? := trip.route?,
    block? := trip.block?, service := trip.service, calls := trip.calls }

end ScheduledTrip

namespace Timetable

/-- The timetable without trips. -/
def empty : Timetable := ⟨[], [], []⟩

/-- Trips grouped by pattern, patterns and trips in the order they were given. -/
def group (trips : List ScheduledTrip) : Grouping (String × List String) ScheduledTrip :=
  .ofPairs (trips.map fun trip => (trip.route, trip))

/-- Number the patterns from `number` and their trips from `index` on. -/
def enumerate (number index : Nat) :
    Grouping (String × List String) ScheduledTrip → List Trip × List Pattern
  | [] => ([], [])
  | ((feed, stops), members) :: rest =>
      let name := s!"{feed}:p{number}"
      let finish := index + members.length
      let members := Order.arrange ScheduledTrip.mayPrecede members
      let trips := (members.zipIdx index).map fun (trip, place) => trip.indexed place finish name
      let (laterTrips, laterPatterns) := enumerate (number + 1) finish rest
      (trips ++ laterTrips, { name, feed, stops, first := index, finish } :: laterPatterns)

/-- A chance to board: the stop, the name of the pattern, the position, and the
departure there. -/
structure Boarding where
  stop : Stop
  pattern : String
  position : Position
  departure : ServiceTime

/-- The boardings of one trip: one at each call but the last. -/
def boardingsOf (trip : Trip) : Except StopFault (List Boarding) :=
  trip.calls.dropLast.zipIdx.mapM fun (call, place) => do
    let stop ← Stop.make trip.feed call.stop
    return { stop, pattern := trip.pattern, position := ⟨trip.index, place⟩,
             departure := call.departure }

/-- Order of boardings: by departure and then by trip. -/
def Boarding.mayPrecede (first second : Boarding) : Bool :=
  first.departure < second.departure ||
    (first.departure == second.departure && first.position.trip ≤ second.position.trip)

/-- The boardings at one stop, by pattern. -/
def boardingsByPattern (boardings : List Boarding) : Boardings :=
  let groups := Grouping.ofPairs (boardings.map fun boarding => (boarding.pattern, boarding))
  let groups := Order.arrange (fun first second => first.1 ≤ second.1) groups
  groups.map fun (pattern, members) =>
    (pattern, (Order.arrange Boarding.mayPrecede members).map Boarding.position)

/-- The boardings of all trips, by stop. -/
def indexBoardings (trips : List Trip) : Except StopFault (List (Stop × Boardings)) := do
  let boardings ← trips.mapM boardingsOf
  let groups := Grouping.ofPairs (boardings.flatten.map fun boarding => (boarding.stop, boarding))
  return groups.map fun (stop, members) => (stop, boardingsByPattern members)

/-- Make a timetable of scheduled trips. -/
def build (trips : List ScheduledTrip) : Except NetworkFault Timetable := do
  ScheduledTrip.checkAll [] trips
  let (trips, patterns) := enumerate 0 0 (group trips)
  let boardings ← (indexBoardings trips).mapError .stop
  return { trips, patterns, boardings }

/-- The index of the trip that a feed calls `name`. -/
def tripIndex? (timetable : Timetable) (feed name : String) : Option Nat :=
  timetable.trips.findIdx? fun trip => trip.feed == feed && trip.name == name

/-- The boardings at a stop, if there are any. -/
def boardings? (timetable : Timetable) (stop : Stop) : Option Boardings :=
  (timetable.boardings.find? fun entry => entry.1 = stop).map Prod.snd

end Timetable

end Transit
