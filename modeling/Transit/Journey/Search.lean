import Transit.Journey.Bounds
import Transit.Journey.Label
import Transit.Journey.Request
import Transit.Journey.Ride
import Transit.Schedule.Catalogue

/-!
# The state of a search

A planner holds what a search has found: the rides, the labels, and the bounds that
keep later searches from finding it again.  Searches of one planner build on each
other, and a search that fails leaves the planner as far as it came.

A search step changes the planner and gives a value or a fault.  The journal tells
what happened, step by step; nothing depends on it.
-/

namespace Transit

/-- Why a search or the account of a journey fails. -/
inductive RoutingFault where
  /-- The request cannot be answered as it is. -/
  | request (fault : RequestFault)
  /-- The catalogue has no trip of this index. -/
  | unknownTrip (index : Nat)
  /-- The trip of this position does not make this call. -/
  | unknownPosition (position : Position)
  /-- The label's ride is not in the store. -/
  | foreignLabel
  /-- A ride is in the store but its chain is not. -/
  | brokenChain
  /-- The stop is reached on a date that the local calendar does not have. -/
  | offCalendar (stop : Stop)
deriving DecidableEq

/-- The wording of a fault.  That of a halt is for its readers here, no answer gives it. -/
def RoutingFault.message : RoutingFault → String
  | .request fault => fault.message
  | .unknownTrip index => s!"trip {index} is not in the catalogue"
  | .unknownPosition position => s!"trip position {position.text} does not exist"
  | .foreignLabel => "result label does not belong to this router"
  | .brokenChain => "ride does not lead back to an access station"
  | .offCalendar stop => s!"local date at {stop.text} is out of range"

/-- Whether the program comes to a halt over a fault, and has no answer to give. -/
def RoutingFault.halts : RoutingFault → Bool
  | .brokenChain | .offCalendar _ => true
  | _ => false

/-- What happens during a search. -/
inductive Event where
  /-- The first trips are boarded for a departure from the origin. -/
  | departing (departure : Instant) (stations : Nat)
  /-- A round begins with a number of rides. -/
  | round (number rides : Nat)
  /-- A ride takes part in the round. -/
  | riding (pattern trip : String) (board limit : Nat)
  /-- A transfer between two positions is possible. -/
  | transferring (origin destination : Position)
  /-- A trip is boarded at a position and is covered from there on. -/
  | boarding (position : Position)
  /-- A label is found. -/
  | arriving (label : Label)
  /-- A ride reaches an egress station, but no earlier than an arrival before. -/
  | passing (ride : Nat) (egress : Station) (arrival : Int)
  /-- A window has been swept. -/
  | swept (departures labels rides : Nat)
deriving DecidableEq

/-- What a search has found, and what it goes by. -/
structure Planner where
  request : Request
  settings : Settings
  bounds : Bounds
  rides : RideStore
  frontier : Frontier
  /-- What has happened, in order. -/
  journal : Array Event

namespace Planner

/-- A planner that has found nothing. -/
def fresh (catalogue : Catalogue) (request : Request) (settings : Settings) : Planner where
  request
  settings
  bounds := .fresh catalogue.tripCount
  rides := .empty
  frontier := .empty
  journal := #[]

/-- The labels in the order of presentation. -/
def ranked (planner : Planner) : List Label := Label.ranked planner.frontier.labels

/-- All labels that were found, those that were covered since included. -/
def found (planner : Planner) : List Label :=
  planner.journal.toList.filterMap fun
    | .arriving label => some label
    | _ => none

end Planner

/-- A step that changes the planner and gives a value or a fault. -/
abbrev Search (Value : Type) := EStateM RoutingFault Planner Value

namespace Search

/-- A step that only gives a value or a fault. -/
def ofExcept {Value : Type} : Except RoutingFault Value → Search Value
  | .ok value => pure value
  | .error fault => throw fault

/-- Enter an event into the journal. -/
def record (event : Event) : Search Unit :=
  modify fun planner => { planner with journal := planner.journal.push event }

/-- The ride of a handle. -/
def ride (handle : Nat) : Search Ride := do
  match (← get).rides.ride? handle with
  | some ride => return ride
  | none => throw .brokenChain

end Search

namespace Catalogue

/-- The trip of an index. -/
def trip (catalogue : Catalogue) (index : Nat) : Except RoutingFault Trip :=
  match catalogue.trip? index with
  | some trip => .ok trip
  | none => .error (.unknownTrip index)

/-- The call at a position. -/
def call (catalogue : Catalogue) (position : Position) : Except RoutingFault Call := do
  let trip ← catalogue.trip position.trip
  match trip.calls[position.call]? with
  | some call => return call
  | none => throw (.unknownPosition position)

/-- Seconds of the departure at a position. -/
def departure (catalogue : Catalogue) (position : Position) : Except RoutingFault Nat :=
  return (← catalogue.call position).departure.seconds.toNat

/-- Whether no vehicle is changed between leaving one trip and boarding another. -/
def sharesVehicle (catalogue : Catalogue) (boarded left : Nat) : Except RoutingFault Bool := do
  let boarded ← catalogue.trip boarded
  let left ← catalogue.trip left
  return boarded.sharesVehicle left

/-- Changes of vehicle along a chain of rides, counted anew. -/
def changesAlong (catalogue : Catalogue) : List Ride → Except RoutingFault Nat
  | [] => .ok 0
  | ride :: rest => do
      let here ←
        match ride.origin? with
        | none => pure 0
        | some origin =>
            pure (if ← catalogue.sharesVehicle ride.board.trip origin.trip then 0 else 1)
      return here + (← catalogue.changesAlong rest)

end Catalogue

namespace RideStore

/-- The rides from a ride back to an access station. -/
def chain (rides : RideStore) (handle : Nat) : Except RoutingFault (List Ride) :=
  match rides.chain? handle with
  | some chain => .ok chain
  | none => .error .brokenChain

/-- Seconds of the departure from the access stop that a ride goes back to. -/
def departure (rides : RideStore) (catalogue : Catalogue) (handle : Nat) :
    Except RoutingFault Nat :=
  match rides.root? handle with
  | some root => catalogue.departure root.board
  | none => .error .brokenChain

/-- The criteria of a label for a ride that reaches its egress station at `arrival`. -/
def criteria (rides : RideStore) (catalogue : Catalogue) (handle : Nat) (arrival : Int) :
    Except RoutingFault Criteria := do
  let changes ← catalogue.changesAlong (← rides.chain handle)
  let departure ← rides.departure catalogue handle
  return { arrival, changes, departure }

end RideStore

end Transit
