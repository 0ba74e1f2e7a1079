import Transit.Proofs.Journey.Tally

/-!
# Labels of another planner

A label names its ride by a handle, and every planner counts its handles from zero.  A planner
therefore refuses a label of another one exactly if it has stored too few rides to have issued
the handle.  Otherwise it takes the label for one of its own: it tells the access station of
the ride that it has stored under the handle itself, and an itinerary of which the last leg is
on that ride, left at the place at which the label leaves another one.
-/

namespace Transit

namespace Leg

theorem exists_noteStays_cons (trip : Trip) (leg : Leg) (others : List (Trip × Leg)) :
    ∃ stays tail, noteStays ((trip, leg) :: others) =
      { leg with staysOnVehicle := stays } :: tail := by
  cases others with
  | nil => exact ⟨leg.staysOnVehicle, [], rfl⟩
  | cons next rest => exact ⟨trip.sharesVehicle next.1, noteStays (next :: rest), rfl⟩

theorem ofTrip_of_no_call {trip : Trip} {board alight : Position} {boarded : Call}
    (boardedAt : trip.calls[board.call]? = some boarded)
    (missing : trip.calls[alight.call]? = none) :
    ofTrip trip board alight = .error (.unknownPosition alight) := by
  unfold ofTrip
  rw [boardedAt, missing]
  rfl

end Leg

namespace Outing.Chained

variable
  {outing : Outing} {timetable : Timetable} {transfers : TransferTable}
  {admits : Trip → Bool} {rest : List Ride} {ride : Ride} {trip : Trip}
  {alight : Position} {call : Call}

/-- The last ride of a chain is boarded at a call of its trip. -/
theorem exists_boarded
    (built : timetable.IsBuilt)
    (chained : outing.Chained timetable.catalogue transfers admits (ride :: rest)) :
    ∃ trip boarded, timetable.catalogue.trip? ride.board.trip = some trip ∧
      trip.calls[ride.board.call]? = some boarded := by
  cases chained with
  | walk offers _ _ _ _ =>
      obtain ⟨found, _, _, boarded, boardedAt, _⟩ := offers.exists_call built
      exact ⟨_, boarded, found, boardedAt⟩
  | transfer _ _ _ _ found boardedAt _ _ _ _ _ _ => exact ⟨_, _, found, boardedAt⟩

/-- The last ride of a chain has a leg to every call of its trip, a call before the boarding
included. -/
theorem exists_ofTrip
    (built : timetable.IsBuilt)
    (chained : outing.Chained timetable.catalogue transfers admits (ride :: rest))
    (found : timetable.catalogue.trip? ride.board.trip = some trip)
    (called : trip.calls[alight.call]? = some call) :
    ∃ leg, Leg.ofTrip trip ride.board alight = .ok leg ∧
      leg.Describes ⟨trip, ride.board.call, alight.call⟩ := by
  obtain ⟨known, boarded, knownFound, boardedAt⟩ := chained.exists_boarded built
  cases found.symm.trans knownFound
  exact Leg.exists_ofTrip ride.board alight
    (built.sound _ (Timetable.IsBuilt.mem_of_trip? found)) boardedAt called

/-- A chain has its legs, wherever its last ride is left. -/
theorem exists_legs
    (built : timetable.IsBuilt) (alight : Position)
    (chained : outing.Chained timetable.catalogue transfers admits (ride :: rest))
    (found : timetable.catalogue.trip? ride.board.trip = some trip)
    (called : trip.calls[alight.call]? = some call) :
    ∃ leg others, leg.Describes ⟨trip, ride.board.call, alight.call⟩ ∧
      Leg.ofChain timetable.catalogue alight (ride :: rest) = .ok ((trip, leg) :: others) := by
  induction rest generalizing ride trip alight call with
  | nil =>
      obtain ⟨leg, made, described⟩ := chained.exists_ofTrip built found called
      exact ⟨leg, [], described, Leg.ofChain_cons found made rfl⟩
  | cons previous earlier hypothesis =>
      obtain ⟨leg, made, described⟩ := chained.exists_ofTrip built found called
      cases chained with
      | @transfer _ _ _ _ left _ place _ onward leftFound leftAt _ _ _ _ _ _ _ _ originEq =>
          have left_eq : ride.origin?.getD alight = ⟨left.index, place⟩ := by
            rw [originEq]
            rfl
          have leftCalled := ((Ride.mem_alightings _ _ _ _).mp leftAt).1
          obtain ⟨_, _, _, legs⟩ := hypothesis ⟨left.index, place⟩ onward leftFound leftCalled
          rw [← left_eq] at legs
          exact ⟨leg, _, described, Leg.ofChain_cons found made legs⟩

end Outing.Chained

/-- An itinerary along one ride that ends as the label of another ride does. -/
structure Itinerary.Mixes
    (itinerary : Itinerary) (label : Label) (ride : Ride) (trip : Trip) : Prop where
  access_eq : itinerary.access = ride.access
  egress_eq : itinerary.egress = label.egress
  weighted_eq : itinerary.weightedArrival = label.criteria.arrival
  last : ∃ leg ∈ itinerary.legs.getLast?,
    leg.Describes ⟨trip, ride.board.call, label.alight.call⟩

namespace Itinerary

variable {catalogue : Catalogue} {rides : RideStore} {label : Label}

theorem chainOf_eq {ride : Ride} {rest : List Ride}
    (chain : rides.chain? label.ride = some (ride :: rest)) :
    chainOf rides label = .ok (ride :: rest) := by
  unfold chainOf
  rw [RideStore.ride?_of_chain? chain]
  exact RideStore.chain_eq_ok.mpr chain

theorem chainOf_of_unissued (unissued : rides.size ≤ label.ride) :
    chainOf rides label = .error .foreignLabel := by
  have none : rides.ride? label.ride = none := Array.getElem?_eq_none unissued
  rw [chainOf, none]

theorem accessOf_of_unissued (unissued : rides.size ≤ label.ride) :
    accessOf rides label = .error .foreignLabel := by
  rw [accessOf, chainOf_of_unissued unissued]
  rfl

theorem ofLabel_of_unissued (unissued : rides.size ≤ label.ride) :
    ofLabel catalogue rides label = .error .foreignLabel := by
  rw [ofLabel, chainOf_of_unissued unissued]
  rfl

end Itinerary

namespace Planner

/-- Every ride is the last one of a chain that some outing made. -/
def Linked (planner : Planner) (catalogue : Catalogue) (transfers : TransferTable) : Prop :=
  ∀ handle ride, planner.rides.ride? handle = some ride → ∃ (outing : Outing) (rest : List Ride),
    planner.rides.chain? handle = some (ride :: rest) ∧
      outing.Chained catalogue transfers (fun _ => true) (ride :: rest)

variable
  {planner before after : Planner} {timetable : Timetable} {transfers : TransferTable}
  {label : Label} {ride : Ride} {trip : Trip}

namespace Linked

theorem of_rides_eq {catalogue : Catalogue} (linked : before.Linked catalogue transfers)
    (rides : after.rides = before.rides) : after.Linked catalogue transfers := by
  unfold Linked
  rw [rides]
  exact linked

theorem step
    {outing : Outing} {catalogue : Catalogue}
    (step : outing.Step catalogue transfers before after)
    (linked : before.Linked catalogue transfers) : after.Linked catalogue transfers := by
  cases step with
  | enter _ _ => exact linked.of_rides_eq rfl
  | cover _ _ _ _ => exact linked.of_rides_eq rfl
  | @board trip position approach limit ride approaches _ _ leads =>
      intro handle known stored
      rcases eq_or_ride?_of_board stored with ⟨rfl, rfl⟩ | ⟨_, old⟩
      · obtain ⟨maker, _, found⟩ :=
          approaches.exists_chain_push (fun _ => True) leads (fun _ _ => rfl) trivial
            fun handle ride _ stored => by simpa using linked handle ride stored
        exact ⟨maker, found⟩
      · obtain ⟨maker, rest, chain, chained⟩ := linked handle known old
        exact ⟨maker, rest, (before.grows_board ride trip position).chain? chain, chained⟩
  | pass _ _ => exact linked.of_rides_eq rfl
  | lose _ _ _ => exact linked.of_rides_eq rfl
  | find _ _ _ _ _ _ _ => exact linked.of_rides_eq rfl

/-- The access station of a handle is that of the ride that is stored under it. -/
theorem accessOf_eq {catalogue : Catalogue} (linked : planner.Linked catalogue transfers)
    (stored : planner.rides.ride? label.ride = some ride) :
    Itinerary.accessOf planner.rides label = .ok ride.access := by
  obtain ⟨outing, rest, chain, chained⟩ := linked label.ride ride stored
  have root_eq : (ride :: rest).getLast? =
      some ((ride :: rest).getLast (List.cons_ne_nil ride rest)) :=
    List.getLast?_eq_some_getLast _
  rw [Itinerary.accessOf, Itinerary.chainOf_eq chain, ← chained.access_eq root_eq]
  simp only [bind, Except.bind, root_eq]
  rfl

/-- Where the trip of the stored ride calls at the place at which a label alights, the label has
an itinerary along that ride. -/
theorem exists_mixes
    (built : timetable.IsBuilt) (linked : planner.Linked timetable.catalogue transfers)
    (stored : planner.rides.ride? label.ride = some ride)
    (found : timetable.catalogue.trip? ride.board.trip = some trip)
    (inside : label.alight.call < trip.calls.length) :
    ∃ itinerary, Itinerary.ofLabel timetable.catalogue planner.rides label = .ok itinerary ∧
      itinerary.Mixes label ride trip := by
  obtain ⟨outing, rest, chain, chained⟩ := linked label.ride ride stored
  have root_eq : (ride :: rest).getLast? =
      some ((ride :: rest).getLast (List.cons_ne_nil ride rest)) :=
    List.getLast?_eq_some_getLast _
  obtain ⟨leg, others, described, made⟩ :=
    chained.exists_legs built label.alight found (List.getElem?_eq_getElem inside)
  obtain ⟨stays, tail, noted⟩ := Leg.exists_noteStays_cons trip leg others
  have head := List.head?_eq_some_head
    (List.concat_ne_nil { leg with staysOnVehicle := stays } tail.reverse)
  have access := chained.access_eq root_eq
  unfold Itinerary.ofLabel
  rw [Itinerary.chainOf_eq chain]
  simp only [bind, Except.bind, made, noted, List.reverse_cons, root_eq, head,
    List.getLast?_concat]
  exact ⟨_, rfl, access, rfl, rfl, _, List.getLast?_concat, { described with }⟩

/-- Where it does not call there, the position is unknown. -/
theorem ofLabel_of_outside
    (built : timetable.IsBuilt) (linked : planner.Linked timetable.catalogue transfers)
    (stored : planner.rides.ride? label.ride = some ride)
    (found : timetable.catalogue.trip? ride.board.trip = some trip)
    (outside : trip.calls.length ≤ label.alight.call) :
    Itinerary.ofLabel timetable.catalogue planner.rides label =
      .error (.unknownPosition label.alight) := by
  obtain ⟨outing, rest, chain, chained⟩ := linked label.ride ride stored
  obtain ⟨known, boarded, knownFound, boardedAt⟩ := chained.exists_boarded built
  cases found.symm.trans knownFound
  have failed : Leg.ofTrip trip ride.board label.alight = .error (.unknownPosition label.alight) :=
    Leg.ofTrip_of_no_call boardedAt (List.getElem?_eq_none outside)
  rw [Itinerary.ofLabel, Itinerary.chainOf_eq chain]
  simp only [bind, Except.bind, Leg.ofChain, Catalogue.trip_eq_ok.mpr found, failed]

end Linked

theorem linked_performAll
    (catalogue : Catalogue) (transfers : TransferTable) (request : Request)
    (settings : Settings) (tasks : List Task) :
    ((fresh catalogue request settings).performAll catalogue transfers tasks).Linked catalogue
      transfers := by
  let kept (now : Planner) : Prop := now.Linked catalogue transfers
  change kept _
  apply performAll_keeps
  · intro outing before after step linked
    exact Linked.step step linked
  · intro planner other linked
    exact linked.of_rides_eq rfl
  · intro handle ride found
    cases RideStore.lt_size_of_ride? found

/-- A planner has stored the rides of the labels that it found. -/
theorem Tallied.lt_size {catalogue : Catalogue} (tallied : planner.Tallied catalogue)
    (member : label ∈ planner.found) : label.ride < planner.rides.size := by
  obtain ⟨_, _, chain, chained, _⟩ :=
    RideStore.criteria_eq_ok.mp (tallied.labelled label member)
  rw [RideStore.chain_eq_ok, RideStore.chain?] at chained
  cases size : planner.rides.size with
  | zero =>
      rw [size] at chained
      cases chained
  | succ steps =>
      rw [size] at chained
      obtain ⟨ride, stored, _⟩ := Option.bind_eq_some_iff.mp chained
      rw [← size]
      exact RideStore.lt_size_of_ride? stored

namespace Linked

theorem accessOf_eq_foreign_iff {catalogue : Catalogue}
    (linked : planner.Linked catalogue transfers) (label : Label) :
    Itinerary.accessOf planner.rides label = .error .foreignLabel ↔
      planner.rides.size ≤ label.ride := by
  refine ⟨fun refused => ?_, Itinerary.accessOf_of_unissued⟩
  by_contra issued
  have stored : planner.rides.ride? label.ride = some _ :=
    Array.getElem?_eq_getElem (Nat.lt_of_not_le issued)
  cases (linked.accessOf_eq stored).symm.trans refused

theorem ofLabel_eq_foreign_iff
    (built : timetable.IsBuilt) (linked : planner.Linked timetable.catalogue transfers)
    (label : Label) :
    Itinerary.ofLabel timetable.catalogue planner.rides label = .error .foreignLabel ↔
      planner.rides.size ≤ label.ride := by
  refine ⟨fun refused => ?_, Itinerary.ofLabel_of_unissued⟩
  by_contra issued
  have stored : planner.rides.ride? label.ride = some _ :=
    Array.getElem?_eq_getElem (Nat.lt_of_not_le issued)
  obtain ⟨outing, rest, _, chained⟩ := linked label.ride _ stored
  obtain ⟨trip, _, found, _⟩ := chained.exists_boarded built
  rcases Nat.lt_or_ge label.alight.call trip.calls.length with inside | outside
  · obtain ⟨itinerary, made, _⟩ := linked.exists_mixes built stored found inside
    cases made.symm.trans refused
  · cases (linked.ofLabel_of_outside built stored found outside).symm.trans refused

end Linked

/-- A label of one session is refused by the planner of another one exactly if that planner has
not issued the label's handle, and then it did not find the label.  Otherwise it follows the
handle along its own rides, as far as they go. -/
theorem refuses_iff_unissued
    {plan : NetworkPlan} {network : Network} (built : plan.build = .ok network)
    (request request' : Request) (settings settings' : Settings) (tasks tasks' : List Task)
    {label : Label} :
    let catalogue := network.timetable.catalogue
    let one := (fresh catalogue request settings).performAll catalogue network.transfers tasks
    let other :=
      (fresh catalogue request' settings').performAll catalogue network.transfers tasks'
    label ∈ one.frontier.labels →
      label.ride < one.rides.size ∧
        (Itinerary.accessOf other.rides label = .error .foreignLabel ↔
          other.rides.size ≤ label.ride) ∧
        (Itinerary.ofLabel catalogue other.rides label = .error .foreignLabel ↔
          other.rides.size ≤ label.ride) ∧
        (other.rides.size ≤ label.ride → label ∉ other.found) ∧
        ∀ ride trip, other.rides.ride? label.ride = some ride →
          catalogue.trip? ride.board.trip = some trip →
            Itinerary.accessOf other.rides label = .ok ride.access ∧
              (label.alight.call < trip.calls.length →
                ∃ itinerary, Itinerary.ofLabel catalogue other.rides label = .ok itinerary ∧
                  itinerary.Mixes label ride trip) ∧
              (trip.calls.length ≤ label.alight.call →
                Itinerary.ofLabel catalogue other.rides label =
                  .error (.unknownPosition label.alight)) := by
  intro catalogue one other member
  have sound := Timetable.isBuilt_of_plan built
  have pareto : one.IsPareto :=
    isPareto_performAll catalogue network.transfers request settings tasks
  have tallied : one.Tallied catalogue :=
    tallied_performAll catalogue network.transfers request settings tasks
  have tallied' : other.Tallied catalogue :=
    tallied_performAll catalogue network.transfers request' settings' tasks'
  have linked : other.Linked catalogue network.transfers :=
    linked_performAll catalogue network.transfers request' settings' tasks'
  rw [pareto.labels_eq] at member
  refine ⟨tallied.lt_size (Label.mem_pareto.mp member).1, linked.accessOf_eq_foreign_iff label,
    linked.ofLabel_eq_foreign_iff sound label, ?_, ?_⟩
  · intro unissued found
    exact absurd (tallied'.lt_size found) (Nat.not_lt_of_le unissued)
  · intro ride trip stored found
    exact ⟨linked.accessOf_eq stored, linked.exists_mixes sound stored found,
      linked.ofLabel_of_outside sound stored found⟩

/-- What a fresh planner knows when it has departed at eight from one station of the detour
network. -/
def detourFrom (station : Station) : Planner :=
  (fresh Sample.detour.timetable.catalogue (Sample.request 0) .standard).performAll
    Sample.detour.timetable.catalogue Sample.detour.transfers
    [.depart [station] (Sample.instant 8 0) fun _ => true]

/-- The label of the journey with a change, and that of the slow trip. -/
def changeLabel : Label :=
  { round := 1, egress := Sample.target, alight := ⟨2, 1⟩, scheduled := Sample.clock 8 50
    ride := 1, criteria := ⟨31800, 1, 28800⟩ }

def slowLabel : Label :=
  { round := 0, egress := Sample.target, alight := ⟨0, 1⟩, scheduled := Sample.clock 9 0
    ride := 0, criteria := ⟨32400, 0, 29100⟩ }

/-- The planner that took the slow trip has one ride, and the label of the journey with a change
is of a second one. -/
theorem refuses_of_detour :
    let catalogue := Sample.detour.timetable.catalogue
    changeLabel ∈ (detourFrom Sample.origin).frontier.labels ∧
      (detourFrom Sample.aside).rides.size = 1 ∧
      changeLabel ∉ (detourFrom Sample.aside).found ∧
      Itinerary.accessOf (detourFrom Sample.aside).rides changeLabel = .error .foreignLabel ∧
      Itinerary.ofLabel catalogue (detourFrom Sample.aside).rides changeLabel =
        .error .foreignLabel := by
  intro catalogue
  have built : Sample.detourPlan.build = .ok Sample.detour := by
    decide +kernel
  have member : changeLabel ∈ (detourFrom Sample.origin).frontier.labels := by decide +kernel
  have size : (detourFrom Sample.aside).rides.size = 1 := by decide +kernel
  have few : (detourFrom Sample.aside).rides.size ≤ changeLabel.ride := Nat.le_of_eq size
  unfold detourFrom at member size few ⊢
  obtain ⟨_, access, itinerary, apart, _⟩ :=
    refuses_iff_unissued built (Sample.request 0) (Sample.request 0) .standard .standard
      [.depart [Sample.origin] (Sample.instant 8 0) fun _ => true]
      [.depart [Sample.aside] (Sample.instant 8 0) fun _ => true] member
  exact ⟨member, size, apart few, access.mpr few, itinerary.mpr few⟩

/-- The planner that took the line never found the label of the slow trip and takes it for one
of its own ride: it tells its own station, and an itinerary that ends with the line, before the
station that the label is for. -/
theorem follows_label_of_detour :
    Sample.detourPlan.build = .ok Sample.detour ∧
      slowLabel ∈ (detourFrom Sample.aside).frontier.labels ∧
      slowLabel ∉ (detourFrom Sample.origin).found ∧
      Itinerary.accessOf (detourFrom Sample.origin).rides slowLabel = .ok Sample.origin ∧
      (Itinerary.ofLabel Sample.detour.timetable.catalogue (detourFrom Sample.origin).rides
          slowLabel).map
        (fun itinerary => (itinerary.legs.map fun leg => (leg.trip, leg.alightStop.name),
          itinerary.arrival, itinerary.egress)) =
        .ok ([("line", "B")], Sample.clock 8 15, Sample.target) := by
  decide +kernel

end Planner

end Transit
