import Transit.Proofs.Journey.Answers
import Transit.Proofs.Journey.Attained
import Transit.Proofs.Journey.Charges

/-!
# The tally of a journey

The changes of vehicle along a journey are counted three times: while its rides are
stored, each count going on from that of the parent; anew along the chain when a label is
found; and leg by leg when the itinerary notes which legs stay on the vehicle.  On a built
timetable the three counts are one number, and the weighted arrival of a label is its
scheduled arrival with the charges for the walks of its itinerary and for these changes,
exactly if their sum is within 64 bits.
-/

namespace Transit

namespace Leg

/-- The leg that is ridden first has no leg before it and stays as it is. -/
theorem getLast?_noteStays (legs : List (Trip × Leg)) :
    (noteStays legs).getLast? = legs.getLast?.map Prod.snd := by
  induction legs with
  | nil => rfl
  | cons pair rest hypothesis =>
      cases rest with
      | nil => rfl
      | cons next others =>
          have longer : noteStays (next :: others) ≠ [] := by
            cases others <;> exact List.cons_ne_nil _ _
          rw [List.getLast?_cons_cons, ← hypothesis, noteStays, List.getLast?_cons,
            List.getLast?_eq_some_getLast longer, Option.getD_some]

theorem exists_of_ofChain_cons
    {catalogue : Catalogue} {alight : Position} {ride : Ride} {rest : List Ride}
    {legs : List (Trip × Leg)}
    (made : ofChain catalogue alight (ride :: rest) = .ok legs) :
    ∃ trip leg others, catalogue.trip? ride.board.trip = some trip ∧
      ofTrip trip ride.board alight = .ok leg ∧
      ofChain catalogue (ride.origin?.getD alight) rest = .ok others ∧
      legs = (trip, leg) :: others := by
  rw [ofChain] at made
  obtain ⟨trip, found, made⟩ := Except.bind_eq_ok.mp made
  obtain ⟨leg, ridden, made⟩ := Except.bind_eq_ok.mp made
  obtain ⟨others, before, made⟩ := Except.bind_eq_ok.mp made
  cases made
  exact ⟨trip, leg, others, Catalogue.trip_eq_ok.mp found, ridden, before, rfl⟩

theorem departure_of_ofTrip
    {trip : Trip} {board alight : Position} {leg : Leg}
    (made : ofTrip trip board alight = .ok leg) :
    ∃ boarded, trip.calls[board.call]? = some boarded ∧
      leg.departure = boarded.departure := by
  unfold ofTrip at made
  obtain ⟨boarded, found, made⟩ := Except.bind_eq_ok.mp made
  obtain ⟨left, _, made⟩ := Except.bind_eq_ok.mp made
  obtain ⟨boardStop, _, made⟩ := Except.bind_eq_ok.mp made
  obtain ⟨alightStop, _, made⟩ := Except.bind_eq_ok.mp made
  cases made
  cases called : trip.calls[board.call]? with
  | none =>
      rw [called] at found
      cases found
  | some known =>
      rw [called] at found
      cases found
      exact ⟨boarded, rfl, rfl⟩

/-- The first leg departs when the ride does that the chain leads back to. -/
theorem departure_of_ofChain
    {catalogue : Catalogue} {alight : Position} {chain : List Ride} {root : Ride}
    {legs : List (Trip × Leg)}
    (made : ofChain catalogue alight chain = .ok legs)
    (root_eq : chain.getLast? = some root) :
    ∃ trip first, legs.getLast? = some (trip, first) ∧
      catalogue.departure root.board = .ok first.departure.seconds.toNat := by
  induction chain generalizing alight legs with
  | nil => cases root_eq
  | cons ride rest hypothesis =>
      obtain ⟨trip, leg, others, found, ridden, before, rfl⟩ := exists_of_ofChain_cons made
      cases rest with
      | nil =>
          rw [List.getLast?_singleton, Option.some.injEq] at root_eq
          subst root_eq
          cases before
          obtain ⟨boarded, called, departs⟩ := departure_of_ofTrip ridden
          have worked := Catalogue.call_eq_ok.mpr ⟨trip, found, called⟩
          refine ⟨trip, leg, rfl, ?_⟩
          rw [Catalogue.departure, worked, departs]
          rfl
      | cons previous earlier =>
          rw [List.getLast?_cons_cons] at root_eq
          obtain ⟨firstTrip, first, last, departs⟩ := hypothesis before root_eq
          obtain ⟨_, _, _, _, _, _, rfl⟩ := exists_of_ofChain_cons before
          rw [List.getLast?_cons_cons]
          exact ⟨firstTrip, first, last, departs⟩

end Leg

/-- The number of legs after the first for which the vehicle is changed. -/
def Itinerary.changesNoted (itinerary : Itinerary) : Nat :=
  itinerary.legs.tail.countP fun leg => !leg.staysOnVehicle

/-- What the itinerary of a label is made of. -/
structure Itinerary.IsMadeOf
    (itinerary : Itinerary) (catalogue : Catalogue) (rides : RideStore) (label : Label)
    (chain : List Ride) (legs : List (Trip × Leg)) (root : Ride) (first last : Leg) : Prop where
  chain_eq : rides.chain? label.ride = some chain
  legs_eq : Leg.ofChain catalogue label.alight chain = .ok legs
  root_eq : chain.getLast? = some root
  noted : itinerary.legs = (Leg.noteStays legs).reverse
  first_eq : itinerary.legs.head? = some first
  last_eq : itinerary.legs.getLast? = some last
  access_eq : itinerary.access = root.access
  egress_eq : itinerary.egress = label.egress
  arrival_eq : itinerary.arrival = last.arrival
  weighted_eq : itinerary.weightedArrival = label.criteria.arrival
  changes_eq : itinerary.changes = label.criteria.changes

theorem Itinerary.exists_isMadeOf
    {catalogue : Catalogue} {rides : RideStore} {label : Label} {itinerary : Itinerary}
    (made : ofLabel catalogue rides label = .ok itinerary) :
    ∃ chain legs root first last,
      itinerary.IsMadeOf catalogue rides label chain legs root first last := by
  unfold ofLabel at made
  obtain ⟨chain, chained, made⟩ := Except.bind_eq_ok.mp made
  obtain ⟨legs, ridden, made⟩ := Except.bind_eq_ok.mp made
  dsimp only at made
  have chain_eq : rides.chain? label.ride = some chain := by
    unfold chainOf at chained
    cases found : rides.ride? label.ride with
    | none =>
        rw [found] at chained
        cases chained
    | some ride =>
        rw [found] at chained
        exact RideStore.chain_eq_ok.mp chained
  cases root_eq : chain.getLast? with
  | none =>
      rw [root_eq] at made
      cases made
  | some root =>
      cases first_eq : (Leg.noteStays legs).reverse.head? with
      | none =>
          rw [root_eq, first_eq] at made
          cases made
      | some first =>
          cases last_eq : (Leg.noteStays legs).reverse.getLast? with
          | none =>
              rw [root_eq, first_eq, last_eq] at made
              cases made
          | some last =>
              rw [root_eq, first_eq, last_eq] at made
              cases made
              exact ⟨chain, legs, root, first, last, chain_eq, ridden, root_eq, rfl, first_eq,
                last_eq, rfl, rfl, rfl, rfl, rfl⟩

/-- The arrival of a leg with the charges of a request for the walks and the changes of an
itinerary, added up exactly. -/
def Itinerary.chargedArrival (itinerary : Itinerary) (request : Request) (last : Leg) : Int :=
  last.arrival.seconds.toNat + request.weights.accessCharge itinerary.access.walk +
    request.weights.changeCharge itinerary.changes +
    request.weights.egressCharge itinerary.egress.walk

/-- What a label says of its journey is what its itinerary shows: the weighted arrival is
that of the last leg with the charges of the request for the walks and the changes, as it
is held in 64 bits, the departure is that of the first leg, and the changes are those of the
label's ride, those counted along its chain, and those noted on the legs. -/
structure Itinerary.Tallies
    (itinerary : Itinerary) (catalogue : Catalogue) (request : Request) (label : Label)
    (ride : Ride) (chain : List Ride) (first last : Leg) : Prop where
  first_eq : itinerary.legs.head? = some first
  last_eq : itinerary.legs.getLast? = some last
  weighted_eq : itinerary.weightedArrival = wrapped (itinerary.chargedArrival request last)
  weighted_iff : itinerary.weightedArrival = itinerary.chargedArrival request last ↔
    IsHeld (itinerary.chargedArrival request last)
  departure_eq : label.criteria.departure = first.departure.seconds.toNat
  changes_eq : itinerary.changes = label.criteria.changes
  ride_eq : ride.changes = itinerary.changes
  along_eq : catalogue.changesAlong chain = .ok itinerary.changes
  noted_eq : itinerary.changesNoted = itinerary.changes

/-- The count along a chain is the number of legs after the first that change the
vehicle. -/
theorem Outing.Chained.countP_noteStays
    {outing : Outing} {timetable : Timetable} {transfers : TransferTable}
    {admits : Trip → Bool} {chain : List Ride} {alight : Position}
    {legs : List (Trip × Leg)} {changes : Nat} (built : timetable.IsBuilt)
    (chained : outing.Chained timetable.catalogue transfers admits chain)
    (made : Leg.ofChain timetable.catalogue alight chain = .ok legs)
    (counted : timetable.catalogue.changesAlong chain = .ok changes) :
    (Leg.noteStays legs).dropLast.countP (fun leg => !leg.staysOnVehicle) = changes := by
  induction chained generalizing alight legs changes with
  | walk _ _ _ originEq _ =>
      obtain ⟨trip, leg, others, _, _, before, rfl⟩ := Leg.exists_of_ofChain_cons made
      cases before
      rw [Catalogue.changesAlong, originEq] at counted
      cases counted
      rfl
  | @transfer ride previous rest trip left call place boarding _ leftFound _ _ found _ _ _
      _ _ _ originEq hypothesis =>
      obtain ⟨known, leg, others, knownFound, _, before, rfl⟩ := Leg.exists_of_ofChain_cons made
      rw [found] at knownFound
      cases knownFound
      have leftKnown := built.trip?_index (Timetable.IsBuilt.mem_of_trip? leftFound)
      have shared := Catalogue.sharesVehicle_eq_ok found leftKnown
      rw [Catalogue.changesAlong, originEq] at counted
      obtain ⟨shares, sharesEq, counted⟩ := Except.bind_eq_ok.mp counted
      obtain ⟨here, hereEq, counted⟩ := Except.bind_eq_ok.mp counted
      obtain ⟨earlier, earlierCounted, counted⟩ := Except.bind_eq_ok.mp counted
      rw [shared] at sharesEq
      cases sharesEq
      cases hereEq
      cases counted
      have same := hypothesis before earlierCounted
      obtain ⟨known, leg', others, knownFound, _, _, rfl⟩ := Leg.exists_of_ofChain_cons before
      rw [leftFound] at knownFound
      cases knownFound
      have longer : Leg.noteStays ((left, leg') :: others) ≠ [] := by
        cases others <;> exact List.cons_ne_nil _ _
      rw [Leg.noteStays, List.dropLast_cons_of_ne_nil longer, List.countP_cons,
        same, Nat.add_comm]
      cases trip.sharesVehicle left <;> rfl

/-- All rides of a chain begin at one access station. -/
theorem Outing.Chained.access_eq
    {outing : Outing} {catalogue : Catalogue} {transfers : TransferTable}
    {admits : Trip → Bool} {ride root : Ride} {rest : List Ride}
    (chained : outing.Chained catalogue transfers admits (ride :: rest))
    (root_eq : (ride :: rest).getLast? = some root) :
    root.access = ride.access := by
  induction rest generalizing ride with
  | nil =>
      rw [List.getLast?_singleton, Option.some.injEq] at root_eq
      rw [root_eq]
  | cons previous rest hypothesis =>
      rw [List.getLast?_cons_cons] at root_eq
      cases chained with
      | transfer onward _ _ _ _ _ _ _ _ _ access _ =>
          rw [access]
          exact hypothesis onward root_eq

namespace Planner

/-- The changes of every ride are counted along its chain, and the criteria of every label
are those of its ride. -/
structure Tallied (planner : Planner) (catalogue : Catalogue) : Prop where
  counted : planner.Counted catalogue
  labelled : ∀ label ∈ planner.found,
    planner.rides.criteria catalogue label.ride label.criteria.arrival = .ok label.criteria

variable {planner before after : Planner} {catalogue : Catalogue}

theorem Grows.criteria
    (grows : before.Grows after) {handle : Nat} {arrival : Int} {criteria : Criteria}
    (worked : before.rides.criteria catalogue handle arrival = .ok criteria) :
    after.rides.criteria catalogue handle arrival = .ok criteria := by
  rw [RideStore.criteria_eq_ok] at worked ⊢
  obtain ⟨arrives, departs, chain, chained, counted⟩ := worked
  rw [RideStore.chain_eq_ok] at chained
  have kept := grows.chain? chained
  refine ⟨arrives, ?_, chain, RideStore.chain_eq_ok.mpr kept, counted⟩
  rw [RideStore.departure, RideStore.root?, chained] at departs
  rw [RideStore.departure, RideStore.root?, kept]
  exact departs

theorem tallied_fresh (catalogue : Catalogue) (request : Request) (settings : Settings) :
    (fresh catalogue request settings).Tallied catalogue where
  counted := counted_fresh catalogue request settings
  labelled label member := by cases member

namespace Tallied

theorem of_rides_eq
    (tallied : before.Tallied catalogue) (rides : after.rides = before.rides)
    (found : after.found = before.found) :
    after.Tallied catalogue where
  counted := by
    unfold Counted
    rw [rides]
    exact tallied.counted
  labelled := by
    rw [rides, found]
    exact tallied.labelled

theorem step
    {outing : Outing} {transfers : TransferTable}
    (step : outing.Step catalogue transfers before after)
    (tallied : before.Tallied catalogue) :
    after.Tallied catalogue := by
  cases step with
  | enter event quiet =>
      exact tallied.of_rides_eq rfl (before.found_enter_of_isQuiet quiet)
  | @cover trip position _ _ _ _ _ _ =>
      exact tallied.of_rides_eq rfl (before.found_cover trip position)
  | @board trip position approach limit ride approaches _ _ leads =>
      have grows := before.grows_board ride trip position
      refine ⟨tallied.counted.board approaches.trip_eq leads, ?_⟩
      intro label member
      rw [found_cover] at member
      exact grows.criteria (tallied.labelled label member)
  | pass _ _ => exact tallied.of_rides_eq rfl (before.found_enter_passing _ _ _)
  | lose _ _ _ => exact tallied.of_rides_eq rfl rfl
  | @find handle ride trip call place egress label reaches _ worked _ _ _ rideEq =>
      refine ⟨tallied.counted, ?_⟩
      intro other member
      rw [found_find] at member
      rcases List.mem_append.mp member with old | same
      · exact tallied.labelled other old
      · rw [List.mem_singleton.mp same, rideEq, (RideStore.criteria_eq_ok.mp worked).1]
        exact worked

end Tallied

theorem tallied_performAll
    (catalogue : Catalogue) (transfers : TransferTable) (request : Request)
    (settings : Settings) (tasks : List Task) :
    ((fresh catalogue request settings).performAll catalogue transfers tasks).Tallied
      catalogue := by
  let kept (now : Planner) : Prop := now.Tallied catalogue
  change kept _
  apply performAll_keeps
  · intro outing before after step tallied
    exact Tallied.step step tallied
  · intro planner other tallied
    exact tallied.of_rides_eq rfl rfl
  · exact tallied_fresh catalogue request settings

/-- A label of an outing says of its journey what its itinerary shows. -/
theorem Tallied.exists_tallies
    {outing : Outing} {timetable : Timetable} {transfers : TransferTable}
    {request : Request} {label : Label} {ride : Ride} {rest : List Ride} {trip : Trip}
    {call : Call} (built : timetable.IsBuilt)
    (allowed : ∀ trip, outing.admits trip = true → request.admits trip = true)
    (access : ∀ station ∈ outing.access, station ∈ request.access)
    (tallied : planner.Tallied timetable.catalogue) (member : label ∈ planner.found)
    (labels : outing.Labels timetable.catalogue transfers request planner.rides label ride
      rest trip call) :
    ∃ itinerary first last,
      Itinerary.ofLabel timetable.catalogue planner.rides label = .ok itinerary ∧
        itinerary.Tallies timetable.catalogue request label ride (ride :: rest) first last := by
  obtain ⟨itinerary, _, made, _, arrives, _⟩ := labels.exists_itinerary built allowed access
  obtain ⟨chain, legs, root, first, last, isMadeOf⟩ := Itinerary.exists_isMadeOf made
  have chain_eq := isMadeOf.chain_eq
  rw [labels.chain_eq, Option.some.injEq] at chain_eq
  subst chain_eq
  obtain ⟨_, departs, chain, chained, along⟩ :=
    RideStore.criteria_eq_ok.mp (tallied.labelled label member)
  rw [RideStore.chain_eq_ok, labels.chain_eq, Option.some.injEq] at chained
  subst chained
  obtain ⟨_, way, counted⟩ :=
    tallied.counted label.ride ride (RideStore.ride?_of_chain? labels.chain_eq)
  rw [labels.chain_eq, Option.some.injEq] at way
  rw [← way, along, Except.ok.injEq] at counted
  have changes_eq : ride.changes = itinerary.changes :=
    counted.symm.trans isMadeOf.changes_eq.symm
  have weighted_eq :
      itinerary.weightedArrival = wrapped (itinerary.chargedArrival request last) := by
    have walks := labels.chained.access_eq isMadeOf.root_eq
    rw [isMadeOf.weighted_eq, labels.arrival_eq, Outing.arrival, Outing.arrivalSum,
      Search.arrivalAt, Itinerary.chargedArrival, isMadeOf.access_eq, isMadeOf.egress_eq, walks,
      changes_eq, ← isMadeOf.arrival_eq, arrives, labels.scheduled_eq]
  refine ⟨itinerary, first, last, made, isMadeOf.first_eq, isMadeOf.last_eq, weighted_eq, ?_, ?_,
    isMadeOf.changes_eq, changes_eq, ?_, ?_⟩
  · rw [weighted_eq]
    exact wrapped_eq_iff _
  · obtain ⟨firstTrip, opening, opens, departure⟩ :=
      Leg.departure_of_ofChain isMadeOf.legs_eq isMadeOf.root_eq
    have first_eq := isMadeOf.first_eq
    rw [isMadeOf.noted, List.head?_reverse, Leg.getLast?_noteStays, opens, Option.map_some,
      Option.some.injEq] at first_eq
    rw [RideStore.departure_eq labels.chain_eq isMadeOf.root_eq, departure,
      Except.ok.injEq] at departs
    rw [← departs, ← first_eq]
  · rw [isMadeOf.changes_eq]
    exact along
  · rw [Itinerary.changesNoted, isMadeOf.noted, List.tail_reverse, List.countP_reverse,
      isMadeOf.changes_eq]
    exact labels.chained.countP_noteStays built isMadeOf.legs_eq along

/-- Every label on the frontier after a fresh planner has answered a request, from all
stations together or from one after the other, has an itinerary that tallies with it by
the weights of the request; the weighted arrival exactly if it is within 64 bits. -/
theorem exists_tallies_of_sweep
    {plan : NetworkPlan} {network : Network} (built : plan.build = .ok network)
    (first : Request) (settings : Settings) {request : Request} {task : Task}
    (asks : task.Asks request) {label : Label} :
    let catalogue := network.timetable.catalogue
    let after :=
      ((fresh catalogue first settings).perform catalogue network.transfers task).2
    label ∈ after.frontier.labels →
      ∃ itinerary ride chain opening last,
        Itinerary.ofLabel catalogue after.rides label = .ok itinerary ∧
          after.rides.ride? label.ride = some ride ∧
          after.rides.chain? label.ride = some chain ∧
          itinerary.Tallies catalogue request label ride chain opening last := by
  intro catalogue after member
  have tallied : after.Tallied catalogue :=
    tallied_performAll catalogue network.transfers first settings [task]
  obtain ⟨found, outing, _, _, _, access, admits, ride, rest, trip, call, labels⟩ :=
    owns_of_fresh first settings asks member
  have allowed : ∀ trip, outing.admits trip = true → request.admits trip = true := by
    rw [admits]
    exact fun _ admitted => admitted
  obtain ⟨itinerary, opening, last, made, tallies⟩ :=
    tallied.exists_tallies (Timetable.isBuilt_of_plan built) allowed access found labels
  exact ⟨itinerary, ride, ride :: rest, opening, last, made,
    RideStore.ride?_of_chain? labels.chain_eq, labels.chain_eq, tallies⟩

/-- A request that charges five minutes for a change of vehicle. -/
def chargingRequest : Request := { Sample.request 0 with weights := ⟨1, 1, 300000⟩ }

/-- The label of the journey that stays on a vehicle once and changes once. -/
def throughLabel : Label :=
  { round := 2, egress := Sample.target, alight := ⟨2, 1⟩, scheduled := Sample.clock 8 40
    ride := 2, criteria := ⟨31500, 1, 28800⟩ }

/-- What a fresh planner has found when it has answered that request on the through
network. -/
def throughSweep : Planner :=
  ((fresh Sample.through.timetable.catalogue (Sample.request 0) .standard).perform
    Sample.through.timetable.catalogue Sample.through.transfers (.sweep chargingRequest)).2

theorem exists_tallies_of_through :
    throughLabel ∈ throughSweep.frontier.labels ∧
      ∃ itinerary ride chain opening last,
        Itinerary.ofLabel Sample.through.timetable.catalogue throughSweep.rides throughLabel =
            .ok itinerary ∧
          throughSweep.rides.ride? throughLabel.ride = some ride ∧
          throughSweep.rides.chain? throughLabel.ride = some chain ∧
          itinerary.Tallies Sample.through.timetable.catalogue chargingRequest throughLabel ride
            chain opening last := by
  have built : Sample.throughPlan.build = .ok Sample.through := by decide +kernel
  have member : throughLabel ∈ throughSweep.frontier.labels := by decide +kernel
  refine ⟨member, ?_⟩
  unfold throughSweep at member ⊢
  exact exists_tallies_of_sweep built (Sample.request 0) .standard .sweep member

/-- The request with very large weights, a minute earlier and so in time for the line. -/
def dearRequest : Request := { Outing.dearRequest with start := Sample.instant 7 59 }

/-- What a fresh planner makes of that request on the network of one line. -/
def dearSweep : Except RoutingFault Unit × Planner :=
  (fresh Sample.line.timetable.catalogue dearRequest .standard).perform
    Sample.line.timetable.catalogue Sample.line.transfers (.sweep dearRequest)

/-- The request is valid and answered with the line, which is at the target by twenty past
eight.  With the charges the sum is beyond 64 bits, and the weighted arrival is another
number. -/
theorem weightedArrival_ne_of_dear :
    Sample.linePlan.build = .ok Sample.line ∧
      dearRequest.fault? = none ∧ dearSweep.1 = .ok () ∧
      dearSweep.2.frontier.labels.map (fun label =>
          (Itinerary.ofLabel Sample.line.timetable.catalogue dearSweep.2.rides label).map
            fun itinerary => (itinerary.weightedArrival,
              itinerary.legs.getLast?.map (itinerary.chargedArrival dearRequest))) =
        [.ok (-9214148664817891034, some 9232595408891660582)] := by
  decide +kernel

end Planner

end Transit
