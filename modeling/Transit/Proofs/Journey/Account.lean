import Transit.Proofs.Journey.Hop
import Transit.Proofs.Search.Chain
import Transit.Proofs.Search.PlainBoarding

/-!
# The account of a journey

On a built timetable the chain of a label's ride is a journey by the timetable, and the
itinerary of the label is the account of it, leg by leg.
-/

namespace Transit

namespace Leg

/-- Between two calls of a sound trip there is a leg. -/
theorem exists_ofTrip
    {trip : Trip} (board alight : Position) {boarded left : Call}
    (sound : CallsSound trip.feed trip.calls)
    (boarded_eq : trip.calls[board.call]? = some boarded)
    (left_eq : trip.calls[alight.call]? = some left) :
    ∃ leg, ofTrip trip board alight = .ok leg ∧
      leg.Describes ⟨trip, board.call, alight.call⟩ := by
  obtain ⟨boardStop, boardMade⟩ := sound.named boarded (List.mem_of_getElem? boarded_eq)
  obtain ⟨alightStop, alightMade⟩ := sound.named left (List.mem_of_getElem? left_eq)
  have boardNamed := (Stop.make_eq_ok_iff _ _ _).mp boardMade
  have alightNamed := (Stop.make_eq_ok_iff _ _ _).mp alightMade
  unfold ofTrip
  rw [boarded_eq, left_eq]
  simp only [Option.elim, bind, Except.bind, pure, Except.pure, boardMade, alightMade,
    Except.mapError]
  refine ⟨_, rfl, rfl, rfl, rfl, rfl, rfl, ?_, ?_⟩
  · exact ⟨boarded, boarded_eq, (Stop.isNamed_iff _ _ _).mpr boardNamed, rfl⟩
  · exact ⟨left, left_eq, (Stop.isNamed_iff _ _ _).mpr alightNamed, rfl⟩

theorem ofChain_cons
    {catalogue : Catalogue} {ride : Ride} {rest : List Ride} {trip : Trip}
    {alight : Position} {leg : Leg} {legs : List (Trip × Leg)}
    (found : catalogue.trip? ride.board.trip = some trip)
    (made : ofTrip trip ride.board alight = .ok leg)
    (before : ofChain catalogue (ride.origin?.getD alight) rest = .ok legs) :
    ofChain catalogue alight (ride :: rest) = .ok ((trip, leg) :: legs) := by
  simp only [ofChain, Catalogue.trip_eq_ok.mpr found, bind, Except.bind, made, before]
  rfl

/-- Noting the stays changes nothing else. -/
theorem forall₂_noteStays
    {legs : List (Trip × Leg)} {hops : List Hop}
    (described : List.Forall₂ (fun pair hop => Describes pair.2 hop) legs hops) :
    List.Forall₂ Describes (noteStays legs) hops := by
  induction described with
  | nil => exact .nil
  | @cons pair hop legs hops first rest hypothesis =>
      obtain ⟨trip, leg⟩ := pair
      cases legs with
      | nil =>
          cases rest
          exact .cons first .nil
      | cons next legs => exact .cons { first with } hypothesis

end Leg

/-- The part of a trip that is ridden when a ride is left at a place. -/
def Ride.hop (ride : Ride) (trip : Trip) (place : Nat) : Hop := ⟨trip, ride.board.call, place⟩

/-- A hop that an outing may begin a journey with, at a station it leads to. -/
def Outing.Begins
    (outing : Outing) (station : Station) (reached : LocalTime) (hop : Hop) : Prop :=
  station ∈ outing.access ∧ station.localDeparture? outing.departure = some reached ∧
    hop.StartsAt station reached

namespace Outing

variable
  {outing : Outing} {timetable : Timetable} {transfers : TransferTable}
  {admits : Trip → Bool} {ride : Ride} {trip : Trip} {call : Call} {place : Nat}

/-- The rides of a chain, of which the last is left at a place, are a journey by the
timetable, and the legs of the chain are the account of it. -/
structure Accounts
    (outing : Outing) (catalogue : Catalogue) (transfers : TransferTable)
    (admits : Trip → Bool) (chain : List Ride) (ride : Ride) (trip : Trip) (place : Nat)
    (root : Ride) (reached : LocalTime) (legs : List (Trip × Leg)) (front : List Hop) :
    Prop where
  root_eq : chain.getLast? = some root
  legs_eq : Leg.ofChain catalogue ⟨trip.index, place⟩ chain = .ok legs
  described : List.Forall₂ (fun pair hop => Leg.Describes pair.2 hop) legs
    (front ++ [ride.hop trip place]).reverse
  length_eq : (front ++ [ride.hop trip place]).length = chain.length
  journey : Journey catalogue transfers ride.serviceDay admits
    (front ++ [ride.hop trip place])
  begins : ∃ first, (front ++ [ride.hop trip place]).head? = some first ∧
    outing.Begins root.access reached first ∧
    outing.Offers catalogue root.access reached first.trip first.start
  access_eq : root.access = ride.access
  day_eq : root.serviceDay = ride.serviceDay
  date_eq : reached.date = ride.serviceDay

/-- A ride that can be left at a call is a hop, if its trip may be ridden. -/
theorem runs_of_alighting
    (built : timetable.IsBuilt) {day : Date}
    (found : timetable.catalogue.trip? ride.board.trip = some trip)
    (alighting : (call, place) ∈ ride.alightings trip)
    (active : trip.service.activeOn day = true) (admitted : admits trip = true) :
    (ride.hop trip place).Runs timetable.catalogue day admits := by
  obtain ⟨called, forward, _⟩ := (Ride.mem_alightings _ _ _ _).mp alighting
  have known : timetable.catalogue.trip? trip.index = some trip := by
    rw [built.index_eq found]
    exact found
  exact ⟨known, forward, (List.getElem?_eq_some_iff.mp called).1, active, admitted⟩

/-- A ride that can be left at a call has a leg up to there. -/
theorem exists_leg
    (built : timetable.IsBuilt)
    (found : timetable.catalogue.trip? ride.board.trip = some trip)
    (alighting : (call, place) ∈ ride.alightings trip) :
    ∃ boarded leg, trip.calls[ride.board.call]? = some boarded ∧
      Leg.ofTrip trip ride.board ⟨trip.index, place⟩ = .ok leg ∧
      leg.Describes (ride.hop trip place) := by
  obtain ⟨called, forward, _⟩ := (Ride.mem_alightings _ _ _ _).mp alighting
  have sound := built.sound trip (Timetable.IsBuilt.mem_of_trip? found)
  have within := (List.getElem?_eq_some_iff.mp called).1
  have boarded := List.getElem?_eq_getElem (Nat.lt_trans forward within)
  obtain ⟨leg, made, described⟩ :=
    Leg.exists_ofTrip ride.board ⟨trip.index, place⟩ sound boarded called
  exact ⟨_, leg, boarded, made, described⟩

theorem accounts_walk
    (built : timetable.IsBuilt)
    (allowed : ∀ trip, outing.admits trip = true → admits trip = true)
    {station : Station} {reached : LocalTime} {known : Trip}
    (offers : outing.Offers timetable.catalogue station reached known ride.board)
    (day_eq : ride.serviceDay = reached.date) (access_eq : ride.access = station)
    (found : timetable.catalogue.trip? ride.board.trip = some trip)
    (alighting : (call, place) ∈ ride.alightings trip) :
    ∃ legs, outing.Accounts timetable.catalogue transfers admits [ride] ride trip place
      ride reached legs [] := by
  obtain ⟨boarded, leg, boardedAt, made, described⟩ := exists_leg built found alighting
  obtain ⟨knownFound, active, admitted, boarding, boardingAt, _, named, inTime⟩ :=
    offers.exists_call built
  rw [found] at knownFound
  cases knownFound
  have runs := runs_of_alighting built found alighting active (allowed trip admitted)
  rw [← day_eq] at runs
  refine ⟨[(trip, leg)], rfl, ?_, .cons described .nil, rfl, .singleton runs, ?_, rfl, rfl,
    day_eq.symm⟩
  · exact Leg.ofChain_cons found made rfl
  · have start_eq : (ride.hop trip place).start = ride.board := by
      rw [Hop.start, Ride.hop, built.index_eq found]
    refine ⟨_, rfl, ?_⟩
    rw [access_eq, start_eq]
    exact ⟨⟨offers.station_mem, offers.local_eq, boarding, boardingAt, named, inTime⟩, offers⟩

/-- A chain that goes on by a transfer is accounted for when the chain before is. -/
theorem Accounts.transfer
    (built : timetable.IsBuilt)
    {previous root : Ride} {rest : List Ride} {left : Trip} {leaving : Call} {last : Nat}
    {reached : LocalTime} {legs : List (Trip × Leg)} {front : List Hop} {boarding : Call}
    (accounts : outing.Accounts timetable.catalogue transfers admits (previous :: rest)
      previous left last root reached legs front)
    (leftAt : (leaving, last) ∈ previous.alightings left)
    (listed : ride.board ∈ transfers.destinations previous.serviceDay ⟨left.index, last⟩)
    (boardingAt : trip.calls[ride.board.call]? = some boarding)
    (inTime : leaving.arrival ≤ boarding.departure)
    (active : trip.service.activeOn previous.serviceDay = true)
    (admitted : admits trip = true) (day_eq : ride.serviceDay = previous.serviceDay)
    (access_eq : ride.access = previous.access)
    (origin_eq : ride.origin? = some ⟨left.index, last⟩)
    (found : timetable.catalogue.trip? ride.board.trip = some trip)
    (alighting : (call, place) ∈ ride.alightings trip) :
    ∃ legs, outing.Accounts timetable.catalogue transfers admits (ride :: previous :: rest)
      ride trip place root reached legs (front ++ [previous.hop left last]) := by
  obtain ⟨boarded, leg, boardedAt, made, described⟩ := exists_leg built found alighting
  have runs : (ride.hop trip place).Runs timetable.catalogue previous.serviceDay admits :=
    runs_of_alighting built found alighting active admitted
  have start_eq : (ride.hop trip place).start = ride.board := by
    rw [Hop.start, Ride.hop, built.index_eq found]
  have meets :
      (previous.hop left last).Meets (ride.hop trip place) transfers previous.serviceDay
        leaving boarding := by
    refine ⟨?_, ((Ride.mem_alightings _ _ _ _).mp leftAt).1, boardingAt, inTime⟩
    rw [start_eq]
    exact listed
  refine ⟨(trip, leg) :: legs, ?_, ?_, ?_, ?_, ?_, ?_, accounts.access_eq.trans access_eq.symm,
    accounts.day_eq.trans day_eq.symm, accounts.date_eq.trans day_eq.symm⟩
  · rw [List.getLast?_cons_cons]
    exact accounts.root_eq
  · apply Leg.ofChain_cons found made
    rw [origin_eq]
    exact accounts.legs_eq
  · rw [List.reverse_append, List.reverse_singleton, List.singleton_append]
    exact .cons described accounts.described
  · rw [List.length_append, accounts.length_eq]
    rfl
  · rw [day_eq]
    exact accounts.journey.concat runs meets
  · obtain ⟨first, head, begins⟩ := accounts.begins
    refine ⟨first, ?_, begins⟩
    rw [List.head?_append, head]
    rfl

/-- Every chain of an outing is accounted for. -/
theorem Chained.exists_accounts
    (built : timetable.IsBuilt)
    (allowed : ∀ trip, outing.admits trip = true → admits trip = true)
    {chain rest : List Ride} (chain_eq : chain = ride :: rest)
    (chained : outing.Chained timetable.catalogue transfers admits chain)
    (found : timetable.catalogue.trip? ride.board.trip = some trip)
    (alighting : (call, place) ∈ ride.alightings trip) :
    ∃ root reached legs front, outing.Accounts timetable.catalogue transfers admits chain
      ride trip place root reached legs front := by
  induction chained generalizing ride rest trip call place with
  | @walk root station reached known offers dayEq accessEq _ _ =>
      cases chain_eq
      obtain ⟨legs, accounts⟩ :=
        accounts_walk built allowed offers dayEq accessEq found alighting
      exact ⟨root, reached, legs, [], accounts⟩
  | @transfer tip previous others known left leaving last boarding _ leftFound leftAt listed
      knownFound boardingAt inTime active admitted dayEq accessEq originEq hypothesis =>
      cases chain_eq
      rw [found] at knownFound
      cases knownFound
      obtain ⟨root, reached, legs, front, accounts⟩ := hypothesis rfl leftFound leftAt
      obtain ⟨legs', accounts'⟩ :=
        accounts.transfer built leftAt listed boardingAt inTime active admitted dayEq
          accessEq originEq found alighting
      exact ⟨root, reached, legs', _, accounts'⟩

end Outing

theorem RideStore.ride?_of_chain?
    {rides : RideStore} {handle : Nat} {ride : Ride} {rest : List Ride}
    (found : rides.chain? handle = some (ride :: rest)) :
    rides.ride? handle = some ride := by
  unfold chain? at found
  cases size : rides.size with
  | zero =>
      rw [size] at found
      cases found
  | succ steps =>
      rw [size] at found
      simp only [walk?, bind, Option.bind_eq_some_iff] at found
      obtain ⟨tip, known, found⟩ := found
      cases parent : tip.parent? with
      | none =>
          rw [parent] at found
          cases found
          exact known
      | some earlier =>
          rw [parent] at found
          simp only [Option.bind_eq_some_iff] at found
          obtain ⟨way, _, same⟩ := found
          cases same
          exact known

/-- An itinerary is the account of a journey that answers a request by leaving the
origin at `departure`. -/
structure Itinerary.Answers
    (itinerary : Itinerary) (catalogue : Catalogue) (transfers : TransferTable)
    (request : Request) (departure : Instant) (hops : List Hop) : Prop where
  described : List.Forall₂ Leg.Describes itinerary.legs hops
  journey : Journey catalogue transfers itinerary.serviceDay request.admits hops
  access_mem : itinerary.access ∈ request.access
  starts : ∃ first reached, hops.head? = some first ∧
    itinerary.access.localDeparture? departure = some reached ∧
    itinerary.serviceDay = reached.date ∧ first.StartsAt itinerary.access reached
  egress_mem : itinerary.egress ∈ request.egress
  ends : ∃ last, hops.getLast? = some last ∧ last.EndsAt itinerary.egress itinerary.arrival

namespace Outing

variable
  {outing : Outing} {timetable : Timetable} {transfers : TransferTable} {request : Request}
  {admits : Trip → Bool} {rides : RideStore} {label : Label} {ride : Ride} {rest : List Ride}
  {trip : Trip} {call : Call}

/-- A label whose chain is accounted for has an itinerary, which is that account. -/
theorem Labels.exists_itinerary_of_accounts
    {root : Ride} {reached : LocalTime} {legs : List (Trip × Leg)} {front : List Hop}
    (labels : outing.Labels timetable.catalogue transfers request rides label ride rest trip
      call)
    (accounts : outing.Accounts timetable.catalogue transfers admits (ride :: rest) ride trip
      label.alight.call root reached legs front) :
    ∃ itinerary, Itinerary.ofLabel timetable.catalogue rides label = .ok itinerary ∧
      itinerary.access = root.access ∧ itinerary.egress = label.egress ∧
      itinerary.serviceDay = root.serviceDay ∧ itinerary.arrival = label.scheduled ∧
      List.Forall₂ Leg.Describes itinerary.legs
        (front ++ [ride.hop trip label.alight.call]) := by
  have alight_eq : label.alight = ⟨trip.index, label.alight.call⟩ := by
    rw [← labels.alight_trip]
  have noted := Leg.forall₂_noteStays accounts.described
  rw [List.reverse_append, List.reverse_singleton, List.singleton_append] at noted
  cases stays : Leg.noteStays legs with
  | nil =>
      rw [stays] at noted
      cases noted
  | cons last others =>
      rw [stays] at noted
      have lastDescribed := (List.forall₂_cons.mp noted).1
      obtain ⟨known, knownCall, _, arrival⟩ := lastDescribed.left
      have called := ((Ride.mem_alightings _ _ _ _).mp labels.alighting).1
      rw [Ride.hop] at knownCall
      rw [called] at knownCall
      cases knownCall
      have reversed := List.rel_reverse noted
      rw [List.reverse_cons, List.reverse_cons, List.reverse_reverse] at reversed
      obtain ⟨opening, opens⟩ : ∃ opening, (others.reverse ++ [last]).head? = some opening := by
        cases others.reverse with
        | nil => exact ⟨last, rfl⟩
        | cons opening _ => exact ⟨opening, rfl⟩
      let itinerary : Itinerary :=
        { access := root.access, egress := label.egress, serviceDay := root.serviceDay
          legs := others.reverse ++ [last], departure := opening.departure
          arrival := last.arrival, weightedArrival := label.criteria.arrival
          changes := label.criteria.changes, round := label.round }
      refine ⟨itinerary, ?_, rfl, rfl, rfl, ?_, reversed⟩
      · unfold Itinerary.ofLabel Itinerary.chainOf RideStore.chain
        rw [RideStore.ride?_of_chain? labels.chain_eq, labels.chain_eq, alight_eq]
        simp only [bind, Except.bind]
        rw [accounts.legs_eq]
        simp only [stays, List.reverse_cons, accounts.root_eq, opens, List.getLast?_concat]
        rfl
      · rw [labels.scheduled_eq]
        exact arrival

/-- The itinerary of a label answers the request for which the label was found, and has a
hop for each ride of the chain. -/
theorem Labels.exists_itinerary_along
    (built : timetable.IsBuilt)
    (allowed : ∀ trip, outing.admits trip = true → request.admits trip = true)
    (access : ∀ station ∈ outing.access, station ∈ request.access)
    (labels : outing.Labels timetable.catalogue transfers request rides label ride rest trip
      call) :
    ∃ itinerary hops,
      Itinerary.ofLabel timetable.catalogue rides label = .ok itinerary ∧
        hops.length = rest.length + 1 ∧
        itinerary.egress = label.egress ∧ itinerary.arrival = label.scheduled ∧
        itinerary.Answers timetable.catalogue transfers request outing.departure hops ∧
        ∃ first reached, hops.head? = some first ∧
          outing.Offers timetable.catalogue itinerary.access reached first.trip
            first.start := by
  obtain ⟨root, reached, legs, front, accounts⟩ :=
    labels.chained.exists_accounts built allowed rfl labels.trip_eq labels.alighting
  obtain ⟨first, head, ⟨station_mem, local_eq, startsAt⟩, offers⟩ := accounts.begins
  obtain ⟨itinerary, worked, access_eq, egress_eq, day_eq, arrival_eq, described⟩ :=
    labels.exists_itinerary_of_accounts accounts
  have called := ((Ride.mem_alightings _ _ _ _).mp labels.alighting).1
  rw [← access_eq] at station_mem local_eq startsAt offers
  refine ⟨itinerary, _, worked, accounts.length_eq, egress_eq, arrival_eq,
    ⟨described, ?_, access _ station_mem, ?_, ?_, ?_⟩, first, reached, head, offers⟩
  · rw [day_eq, accounts.day_eq]
    exact accounts.journey
  · refine ⟨first, reached, head, local_eq, ?_, startsAt⟩
    rw [day_eq, accounts.day_eq, accounts.date_eq]
  · rw [egress_eq]
    exact labels.egress_mem
  · refine ⟨_, List.getLast?_concat, call, called, ?_, ?_⟩
    · rw [egress_eq]
      exact labels.named
    · rw [arrival_eq, labels.scheduled_eq]

theorem Labels.exists_itinerary
    (built : timetable.IsBuilt)
    (allowed : ∀ trip, outing.admits trip = true → request.admits trip = true)
    (access : ∀ station ∈ outing.access, station ∈ request.access)
    (labels : outing.Labels timetable.catalogue transfers request rides label ride rest trip
      call) :
    ∃ itinerary hops,
      Itinerary.ofLabel timetable.catalogue rides label = .ok itinerary ∧
        itinerary.egress = label.egress ∧ itinerary.arrival = label.scheduled ∧
        itinerary.Answers timetable.catalogue transfers request outing.departure hops ∧
        ∃ first reached, hops.head? = some first ∧
          outing.Offers timetable.catalogue itinerary.access reached first.trip
            first.start := by
  obtain ⟨itinerary, hops, worked, _, answers⟩ :=
    labels.exists_itinerary_along built allowed access
  exact ⟨itinerary, hops, worked, answers⟩

end Outing

end Transit
