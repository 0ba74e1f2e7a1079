import Transit.Proofs.Search.Chain
import Transit.Proofs.Search.Coverage

/-!
# What a search looks up is there

A search looks up the rides it stored, the chains they are the tips of, and how far the
trips are covered.  `Planner.Stocked` says that all of these are there, and that rides are
on calls of the catalogue, so that the criteria of every ride can be worked out.  It holds
of a fresh planner and is kept by every step.
-/

namespace Transit

namespace RideStore

variable {rides : RideStore} {handle : Nat} {way : List Ride}

/-- All rides on a way are stored. -/
theorem exists_handle_of_walk?
    {steps : Nat} (found : rides.walk? steps handle = some way) {ride : Ride}
    (member : ride ∈ way) :
    ∃ known, rides.ride? known = some ride := by
  induction steps generalizing handle way with
  | zero => cases found
  | succ steps hypothesis =>
      simp only [walk?, bind, Option.bind_eq_some_iff] at found
      obtain ⟨tip, known, rest⟩ := found
      cases parent : tip.parent? with
      | none =>
          rw [parent] at rest
          cases rest
          rw [List.mem_singleton.mp member]
          exact ⟨handle, known⟩
      | some earlier =>
          rw [parent] at rest
          simp only [Option.bind_eq_some_iff] at rest
          obtain ⟨front, walked, same⟩ := rest
          cases same
          rcases List.mem_cons.mp member with rfl | member
          · exact ⟨handle, known⟩
          · exact hypothesis walked member

end RideStore

/-- What an outing boards is a call. -/
theorem Outing.Approaches.exists_call
    {timetable : Timetable} {planner : Planner} {outing : Outing}
    {transfers : TransferTable} {trip : Trip} {position : Position}
    {approach : Approach} (built : timetable.IsBuilt)
    (approaches :
      outing.Approaches timetable.catalogue transfers planner trip position approach) :
    ∃ call, trip.calls[position.call]? = some call := by
  cases approaches with
  | walk offers =>
      obtain ⟨_, _, _, call, called, _⟩ := offers.exists_call built
      exact ⟨call, called⟩
  | transfer connects => exact ⟨_, connects.boarding_eq⟩

namespace Planner

/-- Every ride has a chain along which its changes can be counted anew. -/
def Counted (planner : Planner) (catalogue : Catalogue) : Prop :=
  ∀ handle ride, planner.rides.ride? handle = some ride →
    ∃ rest, planner.rides.chain? handle = some (ride :: rest) ∧
      catalogue.changesAlong (ride :: rest) = .ok ride.changes

/-- Every ride is counted and boards a call, and how far a trip is covered is known of
every trip. -/
structure Stocked (planner : Planner) (catalogue : Catalogue) : Prop where
  counted : planner.Counted catalogue
  called : ∀ handle ride, planner.rides.ride? handle = some ride →
    ∃ call, catalogue.call ride.board = .ok call
  limited : ∀ index trip, catalogue.trip? index = some trip →
    ∃ limit, planner.bounds.coveredFrom? trip.index = some limit

variable {planner before after : Planner} {catalogue : Catalogue}

theorem counted_fresh (catalogue : Catalogue) (request : Request) (settings : Settings) :
    (fresh catalogue request settings).Counted catalogue := by
  intro handle ride found
  cases RideStore.lt_size_of_ride? found

namespace Counted

/-- The count of a new ride goes on from its parent's as the count along its chain
does. -/
theorem exists_chain_push
    (counted : planner.Counted catalogue) {trip : Trip} {board : Position} {limit : Nat}
    {approach : Approach} {ride : Ride} (found : catalogue.trip? board.trip = some trip)
    (leads : approach.Leads catalogue planner.rides trip board limit ride) :
    ∃ rest, (planner.rides.push ride).chain? planner.rides.size = some (ride :: rest) ∧
      catalogue.changesAlong (ride :: rest) = .ok ride.changes := by
  cases leads with
  | walk station serviceDay =>
      exact ⟨[], RideStore.chain?_push_of_root _ rfl, rfl⟩
  | @transfer parent origin previous left parentFound leftFound =>
      obtain ⟨rest, chain, along⟩ := counted parent previous parentFound
      refine ⟨previous :: rest, RideStore.chain?_push_of_parent chain rfl, ?_⟩
      have shared := Catalogue.sharesVehicle_eq_ok found leftFound
      rw [Trip.sharesVehicle_comm] at shared
      rw [Catalogue.changesAlong]
      simp only [shared, along, bind, Except.bind, pure, Except.pure]
      cases left.sharesVehicle trip with
      | false => exact congrArg Except.ok (Nat.add_comm 1 previous.changes)
      | true => exact congrArg Except.ok (Nat.zero_add previous.changes)

theorem board
    (counted : planner.Counted catalogue) {trip : Trip} {position : Position} {limit : Nat}
    {approach : Approach} {ride : Ride} (found : catalogue.trip? position.trip = some trip)
    (leads : approach.Leads catalogue planner.rides trip position limit ride) :
    ((planner.store ride).cover trip position).Counted catalogue := by
  intro handle known stored
  rcases eq_or_ride?_of_board stored with ⟨rfl, rfl⟩ | ⟨_, old⟩
  · exact counted.exists_chain_push found leads
  · obtain ⟨rest, chain, along⟩ := counted handle known old
    exact ⟨rest, (planner.grows_board ride trip position).chain? chain, along⟩

end Counted

namespace Stocked

/-- While no ride is stored, nothing that is looked up is lost. -/
theorem of_rides_eq
    (stocked : before.Stocked catalogue) (grows : before.Grows after)
    (rides : after.rides = before.rides) :
    after.Stocked catalogue where
  counted := by
    unfold Counted
    rw [rides]
    exact stocked.counted
  called := by
    rw [rides]
    exact stocked.called
  limited index trip found := by
    obtain ⟨limit, known⟩ := stocked.limited index trip found
    obtain ⟨lowered, knownAfter, _⟩ := grows.covered trip.index limit known
    exact ⟨lowered, knownAfter⟩

theorem board
    (stocked : planner.Stocked catalogue) {trip : Trip} {position : Position} {call : Call}
    {limit : Nat} {approach : Approach} {ride : Ride}
    (found : catalogue.trip? position.trip = some trip)
    (calls : trip.calls[position.call]? = some call)
    (leads : approach.Leads catalogue planner.rides trip position limit ride) :
    ((planner.store ride).cover trip position).Stocked catalogue where
  counted := stocked.counted.board found leads
  called handle known stored := by
    rcases eq_or_ride?_of_board stored with ⟨_, rfl⟩ | ⟨_, old⟩
    · have board_eq : known.board = position := by cases leads <;> rfl
      rw [board_eq]
      exact ⟨call, Catalogue.call_eq_ok.mpr ⟨trip, found, calls⟩⟩
    · exact stocked.called handle known old
  limited index other otherFound := by
    obtain ⟨known, knownAt⟩ := stocked.limited index other otherFound
    obtain ⟨lowered, loweredAt, _⟩ :=
      (planner.grows_board ride trip position).covered other.index known knownAt
    exact ⟨lowered, loweredAt⟩

theorem exists_trip
    (stocked : planner.Stocked catalogue) {handle : Nat} {ride : Ride}
    (found : planner.rides.ride? handle = some ride) :
    ∃ trip, catalogue.trip? ride.board.trip = some trip := by
  obtain ⟨call, called⟩ := stocked.called handle ride found
  obtain ⟨trip, tripFound, _⟩ := Catalogue.call_eq_ok.mp called
  exact ⟨trip, tripFound⟩

/-- The departure that a ride goes back to can be looked up. -/
theorem exists_departure
    (stocked : planner.Stocked catalogue) {handle : Nat} {ride : Ride}
    (found : planner.rides.ride? handle = some ride) :
    ∃ departure, planner.rides.departure catalogue handle = .ok departure := by
  obtain ⟨rest, chain, _⟩ := stocked.counted handle ride found
  have last : (ride :: rest).getLast? =
      some ((ride :: rest).getLast (List.cons_ne_nil ride rest)) :=
    List.getLast?_eq_some_getLast _
  obtain ⟨root, rootFound⟩ :=
    RideStore.exists_handle_of_walk? chain (List.getLast_mem (List.cons_ne_nil ride rest))
  obtain ⟨call, called⟩ := stocked.called root _ rootFound
  refine ⟨call.departure.seconds.toNat, ?_⟩
  rw [RideStore.departure_eq chain last, Catalogue.departure, called]
  rfl

/-- The criteria of a ride can be worked out. -/
theorem exists_criteria
    (stocked : planner.Stocked catalogue) {handle : Nat} {ride : Ride}
    (found : planner.rides.ride? handle = some ride) (arrival : Int) :
    ∃ criteria, planner.rides.criteria catalogue handle arrival = .ok criteria := by
  obtain ⟨rest, chain, along⟩ := stocked.counted handle ride found
  obtain ⟨departure, departed⟩ := stocked.exists_departure found
  exact ⟨⟨arrival, ride.changes, departure⟩, RideStore.criteria_eq_ok.mpr
    ⟨rfl, departed, ride :: rest, RideStore.chain_eq_ok.mpr chain, along⟩⟩

end Stocked

section Sessions

variable {timetable : Timetable}

theorem stocked_fresh
    (built : timetable.IsBuilt) (request : Request) (settings : Settings) :
    (fresh timetable.catalogue request settings).Stocked timetable.catalogue where
  counted := counted_fresh timetable.catalogue request settings
  called handle ride found := by cases RideStore.lt_size_of_ride? found
  limited _ _ found :=
    (accounted_fresh timetable request settings).exists_limit built
      (Timetable.IsBuilt.mem_of_trip? found)

theorem Stocked.step
    {outing : Outing} {transfers : TransferTable} (built : timetable.IsBuilt)
    (step : outing.Step timetable.catalogue transfers before after)
    (stocked : before.Stocked timetable.catalogue) :
    after.Stocked timetable.catalogue := by
  cases step with
  | enter event _ => exact stocked.of_rides_eq (before.grows_enter event) rfl
  | @cover trip position _ _ _ _ _ _ =>
      exact stocked.of_rides_eq (before.grows_cover trip position) rfl
  | board approaches _ _ leads =>
      obtain ⟨call, called⟩ := approaches.exists_call built
      exact stocked.board approaches.trip_eq called leads
  | pass _ _ => exact stocked.of_rides_eq (before.grows_enter _) rfl
  | lose _ _ _ => exact stocked.of_rides_eq (before.grows_tighten _) rfl
  | find _ _ _ _ _ _ _ => exact stocked.of_rides_eq (before.grows_find _) rfl

theorem stocked_performAll
    (built : timetable.IsBuilt) (transfers : TransferTable) (request : Request)
    (settings : Settings) (tasks : List Task) :
    ((fresh timetable.catalogue request settings).performAll timetable.catalogue transfers
      tasks).Stocked timetable.catalogue := by
  let kept (now : Planner) : Prop := now.Stocked timetable.catalogue
  change kept _
  apply performAll_keeps
  · intro outing before after step stocked
    exact Stocked.step built step stocked
  · intro planner other stocked
    exact stocked.of_rides_eq (planner.grows_ask other) rfl
  · exact stocked_fresh built request settings

end Sessions

end Planner

end Transit
