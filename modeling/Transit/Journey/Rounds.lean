import Transit.Journey.Boarding
import Transit.Schedule.Transfer

/-!
# Rounds

A search goes in rounds.  Round zero has the rides boarded at access stations; each
later round has the rides found by transferring from the rides of the round before.
In every round the rides are first searched for arrivals at egress stations, which
tighten the bounds, and then for transfers.
-/

namespace Transit.Search

/-- Enter a round and its rides into the journal. -/
def announce (catalogue : Catalogue) (round : Nat) (handles : List Nat) : Search Unit := do
  record (.round round handles.length)
  handles.forM fun handle => do
    let ride ← ride handle
    match catalogue.trip? ride.board.trip with
    | some trip => record (.riding trip.pattern trip.name ride.board.call ride.limit)
    | none => return ()

/-- The weighted arrival of a ride at a call, before any walk from there.  However large its
charges, this sum does not leave 64 bits. -/
def arrivalAt (request : Request) (ride : Ride) (call : Call) : Int :=
  call.arrival.seconds.toNat + request.weights.accessCharge ride.access.walk +
    request.weights.changeCharge ride.changes

/-- Note that a ride reaches an egress station.  If it does so earlier than all rides
so far, a label is found. -/
def arrive (catalogue : Catalogue) (round handle : Nat) (ride : Ride) (trip : Trip)
    (call : Call) (place : Nat) (egress : Station) : Search Unit := do
  let request := (← get).request
  let arrival := wrapped (arrivalAt request ride call + request.weights.egressCharge egress.walk)
  if (← get).bounds.improves arrival then
    modify fun planner => { planner with bounds := planner.bounds.tighten arrival }
    let criteria ← ofExcept ((← get).rides.criteria catalogue handle arrival)
    let label : Label :=
      { round, egress, alight := ⟨trip.index, place⟩, scheduled := call.arrival, ride := handle,
        criteria }
    modify fun planner => { planner with frontier := planner.frontier.insert label }
    record (.arriving label)
  else
    record (.passing handle egress arrival)

/-- Search the rides of a round for arrivals at egress stations. -/
def arrivals (catalogue : Catalogue) (round : Nat) (handles : List Nat) : Search Unit :=
  handles.forM fun handle => do
    let ride ← ride handle
    let trip ← ofExcept (catalogue.trip ride.board.trip)
    let egress := (← get).request.egress
    (ride.alightings trip).forM fun (call, place) =>
      (egress.filter fun station => station.stop.isNamed trip.feed call.stop).forM fun station =>
        arrive catalogue round handle ride trip call place station

/-- Board the trips that can be boarded after leaving a ride at a call. -/
def transferTo (catalogue : Catalogue) (handle : Nat) (ride : Ride) (call : Call)
    (origin : Position) : List Position → Search (List Nat)
  | [] => return []
  | destination :: rest => do
      let trip ← ofExcept (catalogue.trip destination.trip)
      let boarding ← ofExcept (catalogue.call destination)
      let admits := (← get).request.admits
      let handle? ←
        if call.arrival ≤ boarding.departure ∧ trip.service.activeOn ride.serviceDay ∧
            admits trip then do
          record (.transferring origin destination)
          board catalogue trip destination (.transfer handle origin)
        else
          pure none
      return handle?.toList ++ (← transferTo catalogue handle ride call origin rest)

/-- Transfer from the calls of a ride, in order, until the arrival at one of them is
no longer earlier than all arrivals so far. -/
def transferFrom (catalogue : Catalogue) (transfers : TransferTable) (handle : Nat) (ride : Ride)
    (trip : Trip) : List (Call × Nat) → Search (List Nat)
  | [] => return []
  | (call, place) :: rest => do
      let planner ← get
      if planner.bounds.improves (arrivalAt planner.request ride call) then
        let origin : Position := ⟨trip.index, place⟩
        let handles ← transferTo catalogue handle ride call origin
          (transfers.destinations ride.serviceDay origin)
        return handles ++ (← transferFrom catalogue transfers handle ride trip rest)
      else
        return []

/-- Transfer from all rides of a round; gives the rides of the next. -/
def transferAll (catalogue : Catalogue) (transfers : TransferTable) :
    List Nat → Search (List Nat)
  | [] => return []
  | handle :: rest => do
      let ride ← ride handle
      let trip ← ofExcept (catalogue.trip ride.board.trip)
      let handles ← transferFrom catalogue transfers handle ride trip (ride.alightings trip)
      return handles ++ (← transferAll catalogue transfers rest)

/-- Go through rounds, at most `left` more after this one, until one has no rides. -/
def rounds (catalogue : Catalogue) (transfers : TransferTable) :
    (left round : Nat) → List Nat → Search Unit
  | left, round, handles => do
      announce catalogue round handles
      arrivals catalogue round handles
      match left, handles with
      | left + 1, _ :: _ => do
          let next ← transferAll catalogue transfers handles
          rounds catalogue transfers left (round + 1) next
      | _, _ => return ()

/-- Search for one departure from the origin.  The stations and the trips admitted
when boarding there are given, all else is as the planner's request says. -/
def depart (catalogue : Catalogue) (transfers : TransferTable) (access : List Station)
    (departure : Instant) (admits : Trip → Bool) : Search Unit := do
  if access.isEmpty then throw (.request .noAccess)
  if (← get).request.egress.isEmpty then throw (.request .noEgress)
  let handles ← boardStations catalogue departure admits access
  let handles ← byDeparture catalogue handles
  record (.departing departure access.length)
  rounds catalogue transfers (← get).settings.rounds 0 handles

end Transit.Search
