import Transit.Journey.Search

/-!
# Boarding

Trips are boarded at access stations and after transfers.  Boarding a trip finds a
ride unless the trip is covered so far that there is nothing left to ride, and
covers the trip from the boarding on.

At an access station one trip of each pattern is boarded: the first that leaves in
time, runs on the day and is admitted.  Boardings are ordered by departure, so the
first that leaves in time is found by bisection.
-/

namespace Transit

/-- How many of the given positions depart before `target`.  The positions must be in
the order of their departures; each step halves them, so their number bounds the
steps. -/
def Catalogue.bisect (catalogue : Catalogue) (target : Nat) :
    (steps : Nat) → List Position → Except RoutingFault Nat
  | 0, _ => .ok 0
  | steps + 1, positions =>
      let half := positions.length / 2
      match positions.drop half with
      | [] => .ok 0
      | middle :: later => do
          if target ≤ (← catalogue.departure middle) then
            catalogue.bisect target steps (positions.take half)
          else
            return half + 1 + (← catalogue.bisect target steps later)

/-- The positions from the first on that departs at or after `target`. -/
def Catalogue.departingFrom (catalogue : Catalogue) (target : Nat) (positions : List Position) :
    Except RoutingFault (List Position) :=
  return positions.drop (← catalogue.bisect target positions.length positions)

/-- The first position whose trip runs on a day and is admitted, with that trip. -/
def Catalogue.firstUsable (catalogue : Catalogue) (day : Date) (admits : Trip → Bool) :
    List Position → Except RoutingFault (Option (Trip × Position))
  | [] => .ok none
  | position :: rest => do
      let trip ← catalogue.trip position.trip
      if trip.service.activeOn day && admits trip then return some (trip, position)
      else catalogue.firstUsable day admits rest

/-- How a trip comes to be boarded. -/
inductive Approach where
  /-- From the origin, by way of an access station. -/
  | walk (station : Station) (serviceDay : Date)
  /-- From an earlier ride, left at `origin`. -/
  | transfer (parent : Nat) (origin : Position)
deriving DecidableEq

namespace Search

/-- The ride that an approach to a trip leads to. -/
def rideAfter (catalogue : Catalogue) (trip : Trip) (board : Position) (limit : Nat) :
    Approach → Search Ride
  | .walk station serviceDay =>
      return { board, limit, serviceDay, origin? := none, parent? := none, access := station,
               changes := 0 }
  | .transfer parent origin => do
      let previous ← ride parent
      let left ← ofExcept (catalogue.trip origin.trip)
      let changes := if left.sharesVehicle trip then previous.changes else previous.changes + 1
      return { board, limit, serviceDay := previous.serviceDay, origin? := some origin,
               parent? := some parent, access := previous.access, changes }

/-- Store a ride and give its handle. -/
def store (ride : Ride) : Search Nat :=
  modifyGet fun planner =>
    (planner.rides.size, { planner with rides := planner.rides.push ride })

/-- Cover a trip and the later trips of its pattern from a boarding on. -/
def cover (trip : Trip) (position : Position) : Search Unit := do
  modify fun planner =>
    { planner with bounds := planner.bounds.cover trip.index trip.patternEnd position.call }
  record (.boarding position)

/-- Board a trip, unless it is covered from the boarding on.  Gives the handle of the
new ride, if there is at least one call to ride to. -/
def board (catalogue : Catalogue) (trip : Trip) (position : Position) (approach : Approach) :
    Search (Option Nat) := do
  match (← get).bounds.coveredFrom? trip.index with
  | none => throw (.unknownTrip trip.index)
  | some limit =>
      if limit ≤ position.call then
        return none
      else if limit ≤ position.call + 1 then
        cover trip position
        return none
      else
        let handle ← store (← rideAfter catalogue trip position limit approach)
        cover trip position
        return some handle

/-- Board the first usable trip of each pattern at an access station. -/
def boardPatterns (catalogue : Catalogue) (station : Station) (reached : LocalTime)
    (admits : Trip → Bool) : Boardings → Search (List Nat)
  | [] => return []
  | (_, positions) :: rest => do
      let positions ← ofExcept (catalogue.departingFrom reached.second positions)
      let handle? ←
        match ← ofExcept (catalogue.firstUsable reached.date admits positions) with
        | some (trip, position) => board catalogue trip position (.walk station reached.date)
        | none => pure none
      return handle?.toList ++ (← boardPatterns catalogue station reached admits rest)

/-- Why there is no local time at a station: the stop is reached at no instant, which the
request is refused for, or on no date. -/
def unreached (station : Station) (departure : Instant) : RoutingFault :=
  match station.reached? departure with
  | none => .request (.departure station.stop)
  | some _ => .offCalendar station.stop

/-- Board trips at all access stations for one departure from the origin.  The service
day is the date at the station; trips that began on an earlier day are not used. -/
def boardStations (catalogue : Catalogue) (departure : Instant) (admits : Trip → Bool) :
    List Station → Search (List Nat)
  | [] => return []
  | station :: rest => do
      match station.localDeparture? departure with
      | none => throw (unreached station departure)
      | some reached =>
          let boardings := (catalogue.boardings? station.stop).getD []
          let handles ← boardPatterns catalogue station reached admits boardings
          return handles ++ (← boardStations catalogue departure admits rest)

/-- Rides in the order of the departures from their access stops. -/
def byDeparture (catalogue : Catalogue) (handles : List Nat) : Search (List Nat) := do
  let rides := (← get).rides
  let keyed ← ofExcept <| handles.mapM fun handle =>
    return (← rides.departure catalogue handle, handle)
  return (Order.arrange (fun first second => first.1 ≤ second.1) keyed).map Prod.snd

end Search

end Transit
