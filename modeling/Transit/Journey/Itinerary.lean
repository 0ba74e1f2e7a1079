import Transit.Journey.Search

/-!
# Itineraries

An itinerary is the account of the journey behind a label: the rides of the label's
chain in the order in which they are taken.  Each leg ends where the next ride was
transferred to from, the last leg where the label alights.
-/

namespace Transit

/-- One ride on one trip. -/
structure Leg where
  trip : String
  route? : Option String
  block? : Option String
  boardCall : Nat
  boardStop : Stop
  departure : ServiceTime
  alightCall : Nat
  alightStop : Stop
  arrival : ServiceTime
  /-- Whether the vehicle is that of the leg before. -/
  staysOnVehicle : Bool
deriving DecidableEq

/-- A journey from an access station to an egress station. -/
structure Itinerary where
  access : Station
  egress : Station
  serviceDay : Date
  legs : List Leg
  departure : ServiceTime
  arrival : ServiceTime
  weightedArrival : Int
  changes : Nat
  round : Nat
deriving DecidableEq

namespace Leg

/-- The ride on a trip from one call to another. -/
def ofTrip (trip : Trip) (board alight : Position) : Except RoutingFault Leg := do
  let boarded ← (trip.calls[board.call]?).elim (throw (.unknownPosition board)) pure
  let left ← (trip.calls[alight.call]?).elim (throw (.unknownPosition alight)) pure
  let stop (name : String) := (Stop.make trip.feed name).mapError fun _ =>
    RoutingFault.unknownPosition board
  return {
    trip := trip.name, route? := trip.route?, block? := trip.block?
    boardCall := board.call, boardStop := ← stop boarded.stop, departure := boarded.departure
    alightCall := alight.call, alightStop := ← stop left.stop, arrival := left.arrival
    staysOnVehicle := false }

/-- The legs of a chain of rides with their trips, the last leg first.  The last leg
is left at `alight`. -/
def ofChain (catalogue : Catalogue) (alight : Position) :
    List Ride → Except RoutingFault (List (Trip × Leg))
  | [] => .ok []
  | ride :: rest => do
      let trip ← catalogue.trip ride.board.trip
      let leg ← ofTrip trip ride.board alight
      return (trip, leg) :: (← ofChain catalogue (ride.origin?.getD alight) rest)

/-- Note on every leg whether its vehicle is that of the leg before, which in this
order comes after it. -/
def noteStays : List (Trip × Leg) → List Leg
  | [] => []
  | [(_, leg)] => [leg]
  | (trip, leg) :: (previous, before) :: rest =>
      { leg with staysOnVehicle := trip.sharesVehicle previous } ::
        noteStays ((previous, before) :: rest)

end Leg

namespace Itinerary

/-- The chain of a label's ride, which must be in the store. -/
def chainOf (rides : RideStore) (label : Label) : Except RoutingFault (List Ride) :=
  match rides.ride? label.ride with
  | some _ => rides.chain label.ride
  | none => .error .foreignLabel

/-- The access station of the journey behind a label. -/
def accessOf (rides : RideStore) (label : Label) : Except RoutingFault Station := do
  match (← chainOf rides label).getLast? with
  | some root => return root.access
  | none => throw .brokenChain

/-- The journey behind a label. -/
def ofLabel (catalogue : Catalogue) (rides : RideStore) (label : Label) :
    Except RoutingFault Itinerary := do
  let chain ← chainOf rides label
  let legs := (Leg.noteStays (← Leg.ofChain catalogue label.alight chain)).reverse
  match chain.getLast?, legs.head?, legs.getLast? with
  | some root, some first, some last =>
      return {
        access := root.access, egress := label.egress, serviceDay := root.serviceDay, legs
        departure := first.departure, arrival := last.arrival
        weightedArrival := label.criteria.arrival, changes := label.criteria.changes
        round := label.round }
  | _, _, _ => throw (.unknownTrip label.alight.trip)

/-- Number of trips ridden. -/
def boardings (itinerary : Itinerary) : Nat := itinerary.legs.length

end Itinerary

end Transit
