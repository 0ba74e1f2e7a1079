import Transit.Journey.Sweep
import Transit.Proofs.Bounds.Cover
import Mathlib.Logic.Relation
import Mathlib.Tactic.Simps.Basic

/-!
# The steps of a search

A search changes its planner in few ways: it notes an event, covers a trip, covers a
trip and stores a ride on it, passes over an arrival, tightens the bound, or finds a
label.  `Outing.Step` says all that is known when one of these happens during one
departure from the origin, an outing.  What every step keeps holds after every search,
whether the search succeeds or fails.
-/

namespace Transit

/-- A trip is covered from `call` on, if not from an earlier call. -/
def Bounds.Covers (bounds : Bounds) (trip call : Nat) : Prop :=
  ∃ limit, bounds.coveredFrom? trip = some limit ∧ limit ≤ call

namespace Planner

/-- The planner with one more event. -/
@[simps]
def enter (planner : Planner) (event : Event) : Planner :=
  { planner with journal := planner.journal.push event }

/-- The planner after a trip was boarded at a position. -/
@[simps]
def cover (planner : Planner) (trip : Trip) (position : Position) : Planner :=
  { planner with
    bounds := planner.bounds.cover trip.index trip.patternEnd position.call
    journal := planner.journal.push (.boarding position) }

@[simps]
def store (planner : Planner) (ride : Ride) : Planner :=
  { planner with rides := planner.rides.push ride }

@[simps]
def tighten (planner : Planner) (arrival : Int) : Planner :=
  { planner with bounds := planner.bounds.tighten arrival }

/-- The planner after a label was found. -/
@[simps]
def find (planner : Planner) (label : Label) : Planner :=
  { planner with
    bounds := planner.bounds.tighten label.criteria.arrival
    frontier := planner.frontier.insert label
    journal := planner.journal.push (.arriving label) }

/-- What no search takes back. -/
structure Grows (before after : Planner) : Prop where
  settings : after.settings = before.settings
  ride : ∀ handle ride, before.rides.ride? handle = some ride →
    after.rides.ride? handle = some ride
  size : before.rides.size ≤ after.rides.size
  earliest : after.bounds.earliest ≤ before.bounds.earliest
  covered : ∀ trip limit, before.bounds.coveredFrom? trip = some limit →
    ∃ lowered, after.bounds.coveredFrom? trip = some lowered ∧ lowered ≤ limit
  journal : before.journal.toList <+: after.journal.toList

theorem Grows.refl (planner : Planner) : planner.Grows planner where
  settings := rfl
  ride _ _ found := found
  size := Nat.le_refl _
  earliest := Int.le_refl _
  covered _ limit found := ⟨limit, found, Nat.le_refl limit⟩
  journal := List.prefix_rfl

theorem Grows.trans
    {first second third : Planner}
    (left : first.Grows second) (right : second.Grows third) :
    first.Grows third where
  settings := right.settings.trans left.settings
  ride handle ride found := right.ride handle ride (left.ride handle ride found)
  size := Nat.le_trans left.size right.size
  earliest := Int.le_trans right.earliest left.earliest
  covered trip limit found := by
    obtain ⟨middle, foundMiddle, below⟩ := left.covered trip limit found
    obtain ⟨lowered, foundLowered, lower⟩ := right.covered trip middle foundMiddle
    exact ⟨lowered, foundLowered, Nat.le_trans lower below⟩
  journal := left.journal.trans right.journal

theorem Grows.covers
    {before after : Planner} {trip call : Nat}
    (grows : before.Grows after) (covers : before.bounds.Covers trip call) :
    after.bounds.Covers trip call := by
  obtain ⟨limit, found, reached⟩ := covers
  obtain ⟨lowered, foundLowered, lower⟩ := grows.covered trip limit found
  exact ⟨lowered, foundLowered, Nat.le_trans lower reached⟩

/-- A ride with a handle issued before was stored before. -/
theorem Grows.ride_of_lt
    {before after : Planner} (grows : before.Grows after)
    {handle : Nat} {ride : Ride} (inside : handle < before.rides.size)
    (found : after.rides.ride? handle = some ride) :
    before.rides.ride? handle = some ride := by
  have known : before.rides.ride? handle = some before.rides.rides[handle] :=
    Array.getElem?_eq_getElem inside
  rw [grows.ride handle _ known] at found
  rw [known, found]

theorem grows_enter (planner : Planner) (event : Event) :
    planner.Grows (planner.enter event) :=
  { Grows.refl planner with journal := by simp }

theorem grows_cover (planner : Planner) (trip : Trip) (position : Position) :
    planner.Grows (planner.cover trip position) :=
  { Grows.refl planner with
    covered := fun _ _ found =>
      Bounds.exists_coveredFrom?_cover_le trip.index trip.patternEnd position.call found
    journal := by simp }

theorem grows_store (planner : Planner) (ride : Ride) :
    planner.Grows (planner.store ride) :=
  { Grows.refl planner with
    ride := fun _ _ found => RideStore.ride?_push_of_eq_some found ride
    size := by simp }

/-- Boarding a trip stores a ride and covers the trip. -/
theorem grows_board
    (planner : Planner) (ride : Ride) (trip : Trip) (position : Position) :
    planner.Grows ((planner.store ride).cover trip position) :=
  (planner.grows_store ride).trans ((planner.store ride).grows_cover trip position)

theorem ride?_board_self
    (planner : Planner) (ride : Ride) (trip : Trip) (position : Position) :
    ((planner.store ride).cover trip position).rides.ride? planner.rides.size =
      some ride := by
  rw [cover_rides, store_rides, RideStore.ride?_push, if_pos rfl]

/-- A ride that is stored after a boarding is the new one or was stored before. -/
theorem eq_or_ride?_of_board
    {planner : Planner} {ride known : Ride} {trip : Trip} {position : Position} {handle : Nat}
    (stored : ((planner.store ride).cover trip position).rides.ride? handle = some known) :
    handle = planner.rides.size ∧ known = ride ∨
      handle < planner.rides.size ∧ planner.rides.ride? handle = some known := by
  rw [cover_rides, store_rides, RideStore.ride?_push] at stored
  by_cases new : handle = planner.rides.size
  · rw [if_pos new] at stored
    exact .inl ⟨new, (Option.some.inj stored).symm⟩
  · rw [if_neg new] at stored
    exact .inr ⟨RideStore.lt_size_of_ride? stored, stored⟩

theorem grows_tighten (planner : Planner) (arrival : Int) :
    planner.Grows (planner.tighten arrival) :=
  { Grows.refl planner with earliest := Int.min_le_right _ _ }

theorem grows_find (planner : Planner) (label : Label) :
    planner.Grows (planner.find label) :=
  { Grows.refl planner with
    earliest := Int.min_le_right _ _
    journal := by simp }

end Planner

/-- Events that record no boarding and no arrival. -/
def Event.IsQuiet : Event → Prop
  | .boarding _ | .arriving _ | .passing _ _ _ => False
  | _ => True

namespace Planner

theorem found_enter_of_isQuiet
    (planner : Planner) {event : Event} (quiet : event.IsQuiet) :
    (planner.enter event).found = planner.found := by
  cases event <;> simp_all [found, Event.IsQuiet]

theorem found_enter_passing
    (planner : Planner) (handle : Nat) (egress : Station) (arrival : Int) :
    (planner.enter (.passing handle egress arrival)).found = planner.found := by
  simp [found]

theorem found_cover (planner : Planner) (trip : Trip) (position : Position) :
    (planner.cover trip position).found = planner.found := by
  simp [found]

theorem found_find (planner : Planner) (label : Label) :
    (planner.find label).found = planner.found ++ [label] := by
  simp [found]

end Planner

/-- One departure from the origin: where it may lead to, when it is, which trips may be
boarded first, and the handle from which on rides are of this departure. -/
structure Outing where
  access : List Station
  departure : Instant
  admits : Trip → Bool
  base : Nat

namespace Outing

/-- A pattern at a station has `position` as its first boarding that can be used. -/
structure Offers
    (outing : Outing) (catalogue : Catalogue)
    (station : Station) (reached : LocalTime)
    (trip : Trip) (position : Position) : Prop where
  station_mem : station ∈ outing.access
  local_eq : station.localDeparture? outing.departure = some reached
  first_usable : ∃ pattern positions later,
    (pattern, positions) ∈ (catalogue.boardings? station.stop).getD [] ∧
      catalogue.departingFrom reached.second positions = .ok later ∧
      catalogue.firstUsable reached.date outing.admits later = .ok (some (trip, position))

/-- A ride of this outing can be left at a call of its trip. -/
structure Leaves
    (outing : Outing) (catalogue : Catalogue) (planner : Planner)
    (handle : Nat) (ride : Ride) (trip : Trip) (call : Call) (place : Nat) : Prop where
  base_le : outing.base ≤ handle
  ride_eq : planner.rides.ride? handle = some ride
  trip_eq : catalogue.trip? ride.board.trip = some trip
  alighting : (call, place) ∈ ride.alightings trip

/-- A ride of this outing can be left for `destination`. -/
structure Connects
    (outing : Outing) (catalogue : Catalogue) (transfers : TransferTable)
    (planner : Planner) (parent : Nat) (origin : Position)
    (trip : Trip) (destination : Position)
    (previous : Ride) (left : Trip) (call boarding : Call) : Prop
    extends Leaves outing catalogue planner parent previous left call origin.call where
  origin_trip : origin.trip = left.index
  destination_mem : destination ∈ transfers.destinations previous.serviceDay origin
  boarded_eq : catalogue.trip? destination.trip = some trip
  boarding_eq : trip.calls[destination.call]? = some boarding
  in_time : call.arrival ≤ boarding.departure
  active : trip.service.activeOn previous.serviceDay = true
  admitted : planner.request.admits trip = true

/-- How an outing comes to board a trip at a position. -/
inductive Approaches
    (outing : Outing) (catalogue : Catalogue) (transfers : TransferTable)
    (planner : Planner) : Trip → Position → Approach → Prop
  | walk {station reached trip position} :
      outing.Offers catalogue station reached trip position →
      Approaches outing catalogue transfers planner trip position
        (.walk station reached.date)
  | transfer {parent origin trip destination previous left call boarding} :
      outing.Connects catalogue transfers planner parent origin trip destination
        previous left call boarding →
      Approaches outing catalogue transfers planner trip destination
        (.transfer parent origin)

end Outing

/-- The ride that an approach leads to. -/
inductive Approach.Leads
    (catalogue : Catalogue) (rides : RideStore)
    (trip : Trip) (board : Position) (limit : Nat) : Approach → Ride → Prop
  | walk (station serviceDay) :
      Leads catalogue rides trip board limit (.walk station serviceDay)
        { board, limit, serviceDay, origin? := none, parent? := none
          access := station, changes := 0 }
  | transfer {parent origin previous left} :
      rides.ride? parent = some previous →
      catalogue.trip? origin.trip = some left →
      Leads catalogue rides trip board limit (.transfer parent origin)
        { board, limit, serviceDay := previous.serviceDay, origin? := some origin
          parent? := some parent, access := previous.access
          changes :=
            if left.sharesVehicle trip then previous.changes else previous.changes + 1 }

namespace Outing

/-- A ride of this outing reaches an egress station of the request. -/
structure Reaches
    (outing : Outing) (catalogue : Catalogue) (planner : Planner)
    (handle : Nat) (ride : Ride) (trip : Trip)
    (call : Call) (place : Nat) (egress : Station) : Prop
    extends Leaves outing catalogue planner handle ride trip call place where
  egress_mem : egress ∈ planner.request.egress
  named : egress.stop.isNamed trip.feed call.stop = true

/-- The weighted arrival of a ride at an egress station, added up exactly. -/
def arrivalSum (request : Request) (ride : Ride) (call : Call) (egress : Station) : Int :=
  Search.arrivalAt request ride call + request.weights.egressCharge egress.walk

/-- The weighted arrival of a ride at an egress station, as it is noted. -/
def arrival (request : Request) (ride : Ride) (call : Call) (egress : Station) : Int :=
  wrapped (arrivalSum request ride call egress)

/-- What can happen to a planner during an outing. -/
inductive Step
    (outing : Outing) (catalogue : Catalogue) (transfers : TransferTable) :
    Planner → Planner → Prop
  | enter (planner event) :
      event.IsQuiet →
      Step outing catalogue transfers planner (planner.enter event)
  | cover {planner trip position approach limit} :
      outing.Approaches catalogue transfers planner trip position approach →
      planner.bounds.coveredFrom? trip.index = some limit →
      position.call < limit → limit ≤ position.call + 1 →
      Step outing catalogue transfers planner (planner.cover trip position)
  | board {planner trip position approach limit ride} :
      outing.Approaches catalogue transfers planner trip position approach →
      planner.bounds.coveredFrom? trip.index = some limit →
      position.call + 1 < limit →
      approach.Leads catalogue planner.rides trip position limit ride →
      Step outing catalogue transfers planner ((planner.store ride).cover trip position)
  | pass {planner handle ride trip call place egress} :
      outing.Reaches catalogue planner handle ride trip call place egress →
      planner.bounds.improves (arrival planner.request ride call egress) = false →
      Step outing catalogue transfers planner
        (planner.enter (.passing handle egress (arrival planner.request ride call egress)))
  | lose {planner handle ride trip call place egress fault} :
      outing.Reaches catalogue planner handle ride trip call place egress →
      planner.bounds.improves (arrival planner.request ride call egress) = true →
      planner.rides.criteria catalogue handle (arrival planner.request ride call egress) =
        .error fault →
      Step outing catalogue transfers planner
        (planner.tighten (arrival planner.request ride call egress))
  | find {planner handle ride trip call place egress} {label : Label} :
      outing.Reaches catalogue planner handle ride trip call place egress →
      planner.bounds.improves (arrival planner.request ride call egress) = true →
      planner.rides.criteria catalogue handle (arrival planner.request ride call egress) =
        .ok label.criteria →
      label.egress = egress → label.alight = ⟨trip.index, place⟩ →
      label.scheduled = call.arrival → label.ride = handle →
      Step outing catalogue transfers planner (planner.find label)

/-- What can become of a planner during an outing. -/
abbrev Reach
    (outing : Outing) (catalogue : Catalogue) (transfers : TransferTable) :
    Planner → Planner → Prop :=
  Relation.ReflTransGen (outing.Step catalogue transfers)

variable
  {outing : Outing} {catalogue : Catalogue} {transfers : TransferTable}
  {before after : Planner}

theorem Leaves.grows
    {handle : Nat} {ride : Ride} {trip : Trip} {call : Call} {place : Nat}
    (leaves : outing.Leaves catalogue before handle ride trip call place)
    (grows : before.Grows after) :
    outing.Leaves catalogue after handle ride trip call place :=
  { leaves with ride_eq := grows.ride handle ride leaves.ride_eq }

theorem Step.grows
    (step : outing.Step catalogue transfers before after) :
    before.Grows after := by
  cases step with
  | enter event _ => exact before.grows_enter event
  | @cover trip position _ _ _ _ _ _ => exact before.grows_cover trip position
  | @board trip position _ _ ride _ _ _ _ =>
      exact before.grows_board ride trip position
  | pass _ _ => exact before.grows_enter _
  | lose _ _ _ => exact before.grows_tighten _
  | @find _ _ _ _ _ _ label _ _ _ _ _ _ _ => exact before.grows_find label

theorem Step.request_eq
    (step : outing.Step catalogue transfers before after) :
    after.request = before.request := by
  cases step <;> rfl

theorem Reach.grows
    (reach : outing.Reach catalogue transfers before after) :
    before.Grows after := by
  induction reach with
  | refl => exact .refl _
  | tail _ step hypothesis => exact hypothesis.trans step.grows

theorem Reach.request_eq
    (reach : outing.Reach catalogue transfers before after) :
    after.request = before.request := by
  induction reach with
  | refl => rfl
  | tail _ step hypothesis => exact step.request_eq.trans hypothesis

end Outing

end Transit
