import Transit.Proofs.Order.Results
import Transit.Proofs.Search.Outcome
import Transit.Proofs.Search.Step

/-!
# Searches run along steps

Every search of an outing leads from one planner to the next along the steps of the
outing, whether it succeeds or fails.  The handles that a search gives are those of the
rides it stored, in order.
-/

namespace Transit

namespace Planner

/-- The handles of the rides that were stored between two planners. -/
def newRides (before after : Planner) : List Nat :=
  List.range' before.rides.size (after.rides.size - before.rides.size)

theorem mem_newRides
    {before after : Planner} {handle : Nat} :
    handle ∈ before.newRides after ↔
      before.rides.size ≤ handle ∧ handle < after.rides.size := by
  rw [newRides, List.mem_range'_1]
  omega

theorem newRides_eq_nil
    {before after : Planner} (same : after.rides = before.rides) :
    before.newRides after = [] := by
  simp [newRides, same]

theorem newRides_append
    {first second third : Planner}
    (left : first.rides.size ≤ second.rides.size)
    (right : second.rides.size ≤ third.rides.size) :
    first.newRides second ++ second.newRides third = first.newRides third := by
  have start :
      second.rides.size =
        first.rides.size + (second.rides.size - first.rides.size) := by
    omega
  have length :
      third.rides.size - first.rides.size =
        (second.rides.size - first.rides.size) +
          (third.rides.size - second.rides.size) := by
    omega
  rw [newRides, newRides, newRides, length, ← List.range'_append_1, ← start]

end Planner

namespace Catalogue

theorem trip_eq_ok {catalogue : Catalogue} {index : Nat} {trip : Trip} :
    catalogue.trip index = .ok trip ↔ catalogue.trip? index = some trip := by
  unfold Catalogue.trip
  cases catalogue.trip? index <;> simp

theorem call_eq_ok {catalogue : Catalogue} {position : Position} {call : Call} :
    catalogue.call position = .ok call ↔
      ∃ trip, catalogue.trip? position.trip = some trip ∧
        trip.calls[position.call]? = some call := by
  unfold Catalogue.call Catalogue.trip
  cases catalogue.trip? position.trip with
  | none => simp [bind, Except.bind]
  | some trip =>
      cases found : trip.calls[position.call]? with
      | none => simp [bind, Except.bind, found, throw, throwThe, MonadExceptOf.throw]
      | some known => simp [bind, Except.bind, found, pure, Except.pure]

theorem sharesVehicle_eq_ok
    {catalogue : Catalogue} {boarded left : Nat} {trip previous : Trip}
    (found : catalogue.trip? boarded = some trip)
    (leftFound : catalogue.trip? left = some previous) :
    catalogue.sharesVehicle boarded left = .ok (trip.sharesVehicle previous) := by
  rw [sharesVehicle, trip_eq_ok.mpr found, trip_eq_ok.mpr leftFound]
  rfl

end Catalogue

theorem RideStore.chain_eq_ok
    {rides : RideStore} {handle : Nat} {way : List Ride} :
    rides.chain handle = .ok way ↔ rides.chain? handle = some way := by
  unfold chain
  cases rides.chain? handle <;> simp

/-- The departure of a ride is that of the ride its chain leads back to. -/
theorem RideStore.departure_eq
    {rides : RideStore} {catalogue : Catalogue} {handle : Nat} {way : List Ride} {root : Ride}
    (found : rides.chain? handle = some way) (root_eq : way.getLast? = some root) :
    rides.departure catalogue handle = catalogue.departure root.board := by
  unfold departure root?
  rw [found, Option.bind_some, root_eq]

/-- Criteria are worked out from the chain of the ride and the departure at its root. -/
theorem RideStore.criteria_eq_ok
    {rides : RideStore} {catalogue : Catalogue} {handle : Nat} {arrival : Int}
    {criteria : Criteria} :
    rides.criteria catalogue handle arrival = .ok criteria ↔
      criteria.arrival = arrival ∧
        rides.departure catalogue handle = .ok criteria.departure ∧
        ∃ chain, rides.chain handle = .ok chain ∧
          catalogue.changesAlong chain = .ok criteria.changes := by
  simp only [RideStore.criteria, Except.bind_eq_ok, pure, Except.pure, Except.ok.injEq]
  constructor
  · rintro ⟨chain, chained, changes, counted, departure, departed, rfl⟩
    exact ⟨rfl, departed, chain, chained, counted⟩
  · rintro ⟨rfl, departed, chain, chained, counted⟩
    exact ⟨chain, chained, criteria.changes, counted, criteria.departure, departed, rfl⟩

namespace Search

section Primitives

variable {planner : Planner} {failed : RoutingFault → Planner → Prop}

@[simp]
theorem ensures_record {done : Unit → Planner → Prop} (event : Event) :
    Ensures (record event) planner done failed ↔ done () (planner.enter event) :=
  Iff.rfl

@[simp]
theorem ensures_store {done : Nat → Planner → Prop} (ride : Ride) :
    Ensures (store ride) planner done failed ↔
      done planner.rides.size (planner.store ride) :=
  Iff.rfl

@[simp]
theorem ensures_cover
    {done : Unit → Planner → Prop} (trip : Trip) (position : Position) :
    Ensures (cover trip position) planner done failed ↔
      done () (planner.cover trip position) :=
  Iff.rfl

end Primitives

theorem ensures_rideAfter
    {catalogue : Catalogue} {trip : Trip} {board : Position} {limit : Nat}
    {approach : Approach} {planner : Planner}
    {done : Ride → Planner → Prop} {failed : RoutingFault → Planner → Prop}
    (lost : ∀ fault, failed fault planner)
    (led : ∀ ride, approach.Leads catalogue planner.rides trip board limit ride →
      done ride planner) :
    Ensures (rideAfter catalogue trip board limit approach) planner done failed := by
  cases approach with
  | walk station serviceDay => exact led _ (.walk station serviceDay)
  | transfer parent origin =>
      simp only [rideAfter, ensures_bind, ensures_ride, ensures_ofExcept, ensures_pure]
      constructor
      · intro previous found
        constructor
        · intro left leftFound
          exact led _ (.transfer found (Catalogue.trip_eq_ok.mp leftFound))
        · intro fault _
          exact lost fault
      · intro _
        exact lost .brokenChain

/-- Boarding a trip does nothing, covers the trip, or stores a ride and covers the
trip, by how far the trip was covered before. -/
theorem ensures_board
    {catalogue : Catalogue} {trip : Trip} {position : Position} {approach : Approach}
    {planner : Planner}
    {done : Option Nat → Planner → Prop} {failed : RoutingFault → Planner → Prop}
    (lost : ∀ fault, failed fault planner)
    (skipped : ∀ limit, planner.bounds.coveredFrom? trip.index = some limit →
      limit ≤ position.call → done none planner)
    (covered : ∀ limit, planner.bounds.coveredFrom? trip.index = some limit →
      position.call < limit → limit ≤ position.call + 1 →
      done none (planner.cover trip position))
    (boarded : ∀ limit ride, planner.bounds.coveredFrom? trip.index = some limit →
      position.call + 1 < limit →
      approach.Leads catalogue planner.rides trip position limit ride →
      done (some planner.rides.size) ((planner.store ride).cover trip position)) :
    Ensures (board catalogue trip position approach) planner done failed := by
  unfold board
  simp only [ensures_bind, ensures_get]
  cases known : planner.bounds.coveredFrom? trip.index with
  | none => exact lost _
  | some limit =>
      simp only [ensures_ite, ensures_pure, ensures_bind, ensures_cover, ensures_store]
      refine ⟨skipped limit known, fun above => ⟨fun near => ?_, fun far => ?_⟩⟩
      · exact covered limit known (Nat.lt_of_not_le above) near
      · apply ensures_rideAfter lost
        intro ride leads
        exact boarded limit ride known (Nat.lt_of_not_le far) leads

/-- An arrival is passed over, or tightens the bound and is found if its criteria can
be worked out. -/
theorem ensures_arrive
    {catalogue : Catalogue} {round handle : Nat} {ride : Ride} {trip : Trip}
    {call : Call} {place : Nat} {egress : Station} {planner : Planner}
    {done : Unit → Planner → Prop} {failed : RoutingFault → Planner → Prop}
    (passed :
      planner.bounds.improves (Outing.arrival planner.request ride call egress) = false →
      done () (planner.enter
        (.passing handle egress (Outing.arrival planner.request ride call egress))))
    (lost : ∀ fault,
      planner.bounds.improves (Outing.arrival planner.request ride call egress) = true →
      planner.rides.criteria catalogue handle
        (Outing.arrival planner.request ride call egress) = .error fault →
      failed fault (planner.tighten (Outing.arrival planner.request ride call egress)))
    (found : ∀ criteria,
      planner.bounds.improves (Outing.arrival planner.request ride call egress) = true →
      planner.rides.criteria catalogue handle
        (Outing.arrival planner.request ride call egress) = .ok criteria →
      criteria.arrival = Outing.arrival planner.request ride call egress →
      done () (planner.find
        { round, egress, alight := ⟨trip.index, place⟩, scheduled := call.arrival
          ride := handle, criteria })) :
    Ensures (arrive catalogue round handle ride trip call place egress) planner
      done failed := by
  unfold arrive
  simp only [ensures_bind, ensures_get, ensures_ite, ensures_modify, ensures_ofExcept,
    ensures_record]
  refine ⟨fun earlier => ⟨fun criteria worked => ?_, fun fault broken => ?_⟩, fun later => ?_⟩
  · have same := (RideStore.criteria_eq_ok.mp worked).1
    have entered := found criteria earlier worked same
    unfold Planner.find at entered
    rw [same] at entered
    exact entered
  · exact lost fault earlier broken
  · exact passed ((Bool.not_eq_true _).mp later)

end Search

end Transit
