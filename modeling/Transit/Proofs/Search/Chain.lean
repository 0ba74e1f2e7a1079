import Transit.Proofs.Search.Session

/-!
# Chains of rides

Every ride of an outing is the tip of a chain that leads back to a station of the
outing, each ride boarded after the one before it was left.  Every label that is found
during the outing is of such a ride.  `Outing.Traced` says so of a planner, and every
step keeps it.
-/

namespace Transit

namespace RideStore

variable {before after : RideStore} {handle : Nat} {way : List Ride}

/-- A way stays the same in a store that knows more rides, and with more steps. -/
theorem walk?_mono
    (kept : ∀ handle ride, before.ride? handle = some ride → after.ride? handle = some ride)
    {steps more : Nat} (enough : steps ≤ more)
    (found : before.walk? steps handle = some way) :
    after.walk? more handle = some way := by
  induction steps generalizing handle way more with
  | zero => cases found
  | succ steps hypothesis =>
      obtain ⟨more, rfl⟩ : ∃ fewer, more = fewer + 1 := ⟨more - 1, by omega⟩
      simp only [walk?, bind, Option.bind_eq_some_iff] at found ⊢
      obtain ⟨tip, known, rest⟩ := found
      refine ⟨tip, kept handle tip known, ?_⟩
      cases parent : tip.parent? with
      | none =>
          rw [parent] at rest
          exact rest
      | some earlier =>
          rw [parent] at rest
          simp only [Option.bind_eq_some_iff] at rest ⊢
          obtain ⟨front, walked, same⟩ := rest
          exact ⟨front, hypothesis (by omega) walked, same⟩

theorem chain?_push_of_root
    (rides : RideStore) {ride : Ride} (root : ride.parent? = none) :
    (rides.push ride).chain? rides.size = some [ride] := by
  have here : (rides.push ride).ride? rides.size = some ride := by
    rw [ride?_push, if_pos rfl]
  simp only [chain?, size_push, walk?, here, root, bind, Option.bind_some]
  rfl

theorem chain?_push_of_parent
    {rides : RideStore} {ride : Ride} {parent : Nat}
    (found : rides.chain? parent = some way) (tip : ride.parent? = some parent) :
    (rides.push ride).chain? rides.size = some (ride :: way) := by
  have here : (rides.push ride).ride? rides.size = some ride := by
    rw [ride?_push, if_pos rfl]
  have walked := walk?_push_of_eq_some ride found
  simp only [chain?, size_push, walk?, here, tip, walked, bind, Option.bind_some]
  rfl

end RideStore

namespace Planner

theorem Grows.chain?
    {before after : Planner} (grows : before.Grows after)
    {handle : Nat} {chain : List Ride}
    (found : before.rides.chain? handle = some chain) :
    after.rides.chain? handle = some chain :=
  RideStore.walk?_mono grows.ride grows.size found

end Planner

namespace Outing

/-- A chain of rides, the last ride first, as an outing may make it. -/
inductive Chained
    (outing : Outing) (catalogue : Catalogue) (transfers : TransferTable)
    (admits : Trip → Bool) : List Ride → Prop
  | walk {ride station reached trip} :
      outing.Offers catalogue station reached trip ride.board →
      ride.serviceDay = reached.date → ride.access = station →
      ride.origin? = none → ride.changes = 0 →
      Chained outing catalogue transfers admits [ride]
  | transfer {ride previous rest trip left call place boarding} :
      Chained outing catalogue transfers admits (previous :: rest) →
      catalogue.trip? previous.board.trip = some left →
      (call, place) ∈ previous.alightings left →
      ride.board ∈ transfers.destinations previous.serviceDay ⟨left.index, place⟩ →
      catalogue.trip? ride.board.trip = some trip →
      trip.calls[ride.board.call]? = some boarding →
      call.arrival ≤ boarding.departure →
      trip.service.activeOn previous.serviceDay = true → admits trip = true →
      ride.serviceDay = previous.serviceDay → ride.access = previous.access →
      ride.origin? = some ⟨left.index, place⟩ →
      Chained outing catalogue transfers admits (ride :: previous :: rest)

/-- A label of this outing, with the chain of its ride. -/
structure Labels
    (outing : Outing) (catalogue : Catalogue) (transfers : TransferTable)
    (request : Request) (rides : RideStore) (label : Label)
    (ride : Ride) (rest : List Ride) (trip : Trip) (call : Call) : Prop where
  chain_eq : rides.chain? label.ride = some (ride :: rest)
  chained : outing.Chained catalogue transfers request.admits (ride :: rest)
  trip_eq : catalogue.trip? ride.board.trip = some trip
  alighting : (call, label.alight.call) ∈ ride.alightings trip
  alight_trip : label.alight.trip = trip.index
  scheduled_eq : label.scheduled = call.arrival
  egress_mem : label.egress ∈ request.egress
  named : label.egress.stop.isNamed trip.feed call.stop = true
  arrival_eq : label.criteria.arrival = arrival request ride call label.egress

/-- Every ride of the outing has its chain, and every label found since `start` is of
such a ride. -/
structure Traced
    (outing : Outing) (catalogue : Catalogue) (transfers : TransferTable)
    (start planner : Planner) : Prop where
  request_eq : planner.request = start.request
  chained : ∀ handle ride, outing.base ≤ handle → planner.rides.ride? handle = some ride →
    ∃ rest, planner.rides.chain? handle = some (ride :: rest) ∧
      outing.Chained catalogue transfers start.request.admits (ride :: rest)
  labelled : ∀ label ∈ planner.found, label ∈ start.found ∨
    ∃ ride rest trip call, outing.Labels catalogue transfers start.request planner.rides
      label ride rest trip call

variable
  {outing : Outing} {catalogue : Catalogue} {transfers : TransferTable}
  {start before after : Planner}

theorem Labels.grows
    {request : Request} {label : Label} {ride : Ride} {rest : List Ride} {trip : Trip}
    {call : Call}
    (labels : outing.Labels catalogue transfers request before.rides label ride rest trip
      call)
    (grows : before.Grows after) :
    outing.Labels catalogue transfers request after.rides label ride rest trip call :=
  { labels with chain_eq := grows.chain? labels.chain_eq }

theorem traced_start (base : start.rides.size ≤ outing.base) :
    outing.Traced catalogue transfers start start where
  request_eq := rfl
  chained handle ride reached found := by
    have known := RideStore.lt_size_of_ride? found
    omega
  labelled label member := .inl member

/-- A planner with the same rides and labels is traced as well. -/
theorem Traced.of_found_eq
    (traced : outing.Traced catalogue transfers start before)
    (request : after.request = before.request) (rides : after.rides = before.rides)
    (found : after.found = before.found) :
    outing.Traced catalogue transfers start after where
  request_eq := request.trans traced.request_eq
  chained := by
    rw [rides]
    exact traced.chained
  labelled := by
    rw [rides, found]
    exact traced.labelled

/-- The ride that is stored has a chain, for it begins one or goes on from its parent's, which
may be that of another outing. -/
theorem Approaches.exists_chain_push
    {planner : Planner} {admits : Trip → Bool} {trip : Trip} {position : Position}
    {approach : Approach} {limit : Nat} {ride : Ride} (made : Outing → Prop)
    (approaches : outing.Approaches catalogue transfers planner trip position approach)
    (leads : approach.Leads catalogue planner.rides trip position limit ride)
    (allowed : ∀ trip, planner.request.admits trip = true → admits trip = true)
    (here : made outing)
    (parents : ∀ handle ride, outing.base ≤ handle → planner.rides.ride? handle = some ride →
      ∃ maker, made maker ∧ ∃ rest, planner.rides.chain? handle = some (ride :: rest) ∧
        maker.Chained catalogue transfers admits (ride :: rest)) :
    ∃ maker, made maker ∧ ∃ rest,
      (planner.rides.push ride).chain? planner.rides.size = some (ride :: rest) ∧
        maker.Chained catalogue transfers admits (ride :: rest) := by
  cases approaches with
  | walk offers =>
      cases leads
      exact ⟨outing, here, [], RideStore.chain?_push_of_root _ rfl,
        .walk offers rfl rfl rfl rfl⟩
  | @transfer parent origin _ _ previous left call boarding connects =>
      cases leads with
      | transfer previousFound leftFound =>
          rw [connects.ride_eq] at previousFound
          cases previousFound
          obtain ⟨maker, known, rest, chain, chained⟩ :=
            parents parent previous connects.base_le connects.ride_eq
          refine ⟨maker, known, previous :: rest, RideStore.chain?_push_of_parent chain rfl, ?_⟩
          have origin_eq : origin = ⟨left.index, origin.call⟩ := by
            rw [← connects.origin_trip]
          refine .transfer chained connects.trip_eq connects.alighting ?_
            connects.boarded_eq connects.boarding_eq connects.in_time connects.active
            (allowed trip connects.admitted) rfl rfl (congrArg some origin_eq)
          rw [← origin_eq]
          exact connects.destination_mem

theorem Traced.exists_chain_push
    (traced : outing.Traced catalogue transfers start before)
    {trip : Trip} {position : Position} {approach : Approach} {limit : Nat} {ride : Ride}
    (approaches : outing.Approaches catalogue transfers before trip position approach)
    (leads : approach.Leads catalogue before.rides trip position limit ride) :
    ∃ rest, (before.rides.push ride).chain? before.rides.size = some (ride :: rest) ∧
      outing.Chained catalogue transfers start.request.admits (ride :: rest) := by
  have allowed : ∀ trip, before.request.admits trip = true →
      start.request.admits trip = true := by
    rw [traced.request_eq]
    exact fun _ admitted => admitted
  obtain ⟨_, rfl, found⟩ :=
    approaches.exists_chain_push (· = outing) leads allowed rfl
      fun handle ride reached found => ⟨outing, rfl, traced.chained handle ride reached found⟩
  exact found

theorem Traced.step
    (step : outing.Step catalogue transfers before after)
    (traced : outing.Traced catalogue transfers start before) :
    outing.Traced catalogue transfers start after := by
  cases step with
  | enter event quiet =>
      exact traced.of_found_eq rfl rfl (before.found_enter_of_isQuiet quiet)
  | @cover trip position _ _ _ _ _ _ =>
      exact traced.of_found_eq rfl rfl (before.found_cover trip position)
  | @board trip position approach limit ride approaches _ _ leads =>
      have grows := before.grows_board ride trip position
      refine ⟨traced.request_eq, ?_, ?_⟩
      · intro handle known reached found
        rcases Planner.eq_or_ride?_of_board found with ⟨rfl, rfl⟩ | ⟨_, old⟩
        · exact traced.exists_chain_push approaches leads
        · obtain ⟨rest, chain, chained⟩ := traced.chained handle known reached old
          exact ⟨rest, grows.chain? chain, chained⟩
      · intro label member
        rw [Planner.found_cover] at member
        rcases traced.labelled label member with old | ⟨tip, rest, last, call, labels⟩
        · exact .inl old
        · exact .inr ⟨tip, rest, last, call, labels.grows grows⟩
  | pass _ _ =>
      exact traced.of_found_eq rfl rfl (before.found_enter_passing _ _ _)
  | lose _ _ _ => exact traced.of_found_eq rfl rfl rfl
  | @find handle ride trip call place egress label reaches _ worked egressEq alightEq
      scheduledEq rideEq =>
      refine ⟨traced.request_eq, traced.chained, ?_⟩
      intro other member
      rw [Planner.found_find] at member
      rcases List.mem_append.mp member with old | same
      · exact traced.labelled other old
      · rw [List.mem_singleton.mp same]
        obtain ⟨rest, chain, chained⟩ :=
          traced.chained handle ride reaches.base_le reaches.ride_eq
        have request := traced.request_eq
        have egressMember := reaches.egress_mem
        rw [request] at egressMember
        have arrives := (RideStore.criteria_eq_ok.mp worked).1
        rw [request] at arrives
        refine .inr ⟨ride, rest, trip, call, ?_⟩
        subst egressEq rideEq
        refine ⟨chain, chained, reaches.trip_eq, ?_, ?_, scheduledEq, egressMember,
          reaches.named, arrives⟩
        · rw [alightEq]
          exact reaches.alighting
        · rw [alightEq]

theorem Traced.reach
    (traced : outing.Traced catalogue transfers start before)
    (reach : outing.Reach catalogue transfers before after) :
    outing.Traced catalogue transfers start after := by
  induction reach with
  | refl => exact traced
  | tail _ step hypothesis => exact hypothesis.step step

end Outing

end Transit
