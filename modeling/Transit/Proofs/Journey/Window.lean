import Transit.Proofs.Journey.Attained
import Transit.Proofs.Journey.Dominance
import Transit.Proofs.Journey.Sample
import Transit.Proofs.Search.Settled

/-!
# Sweeps and their single departures

A sweep keeps its bounds from one departure to the next, so a ride of a later departure
can stand in the way of an earlier one.  It does no harm when journeys can go on from
it.  They cannot when they would leave the trip just where the search boarded it, when
the ride belongs to the last round, or when it runs on another day.

Apart from that a sweep is as good as each of its departures made by a fresh planner.
-/

namespace Transit

/-- A ride passes a place of the trip from which no journey of the day goes on: its
chain is longer than the rounds of the search, or it runs on another day. -/
def Planner.Strands
    (planner : Planner) (catalogue : Catalogue) (day : Date) (trip : Trip) (place : Nat) :
    Prop :=
  ∃ handle ride first, planner.PassedBy catalogue trip place handle ride first ∧
    (ride.serviceDay ≠ day ∨
      ∃ chain, planner.rides.chain? handle = some chain ∧
        planner.settings.rounds < chain.length)

/-- A planner stands in the way of a journey of the day: it boarded a trip, or an earlier
one of the pattern, where the journey leaves it, or a ride strands the journey where it
changes. -/
def Planner.Obstructs
    (planner : Planner) (catalogue : Catalogue) (day : Date) (hops : List Hop) : Prop :=
  (∃ hop ∈ hops, planner.BoardedAt catalogue hop.trip hop.alight) ∨
    ∃ hop ∈ hops.dropLast, planner.Strands catalogue day hop.trip hop.alight

/-- What a sweep keeps of its planner from one departure to the next. -/
structure Planner.Swept
    (planner : Planner) (timetable : Timetable) (transfers : TransferTable)
    (request : Request) : Prop where
  accounted : planner.Accounted timetable
  settled : planner.SettledBelow timetable.catalogue transfers request planner.rides.size
  allowed : ∀ handle ride, planner.rides.ride? handle = some ride →
    ∃ trip, ride.Allowed timetable.catalogue request request.access trip

namespace Planner

variable
  {timetable : Timetable} {transfers : TransferTable} {request : Request}
  {planner before after : Planner}

theorem swept_fresh
    (timetable : Timetable) (transfers : TransferTable) (request initial : Request)
    (settings : Settings) :
    (fresh timetable.catalogue initial settings).Swept timetable transfers request where
  accounted := accounted_fresh timetable initial settings
  settled handle _ inside _ := absurd inside (Nat.not_lt_zero handle)
  allowed handle _ found :=
    absurd (RideStore.lt_size_of_ride? found) (Nat.not_lt_zero handle)

/-- A planner with the same rides and the same bounds on trips is swept as well. -/
theorem Swept.of_rides_eq
    (swept : before.Swept timetable transfers request) (grows : before.Grows after)
    (rides : after.rides = before.rides)
    (covered : after.bounds.covered = before.bounds.covered) :
    after.Swept timetable transfers request where
  accounted := swept.accounted.of_covered_eq grows covered
  settled handle ride inside found := by
    rw [rides] at inside
    exact swept.settled.settled grows inside (Nat.le_refl _) found
  allowed handle ride found := by
    rw [rides] at found
    exact swept.allowed handle ride found

/-- Where nothing strands a journey of the day, rides can be transferred from. -/
theorem Swept.transferred
    (swept : planner.Swept timetable transfers request) {day : Date} {trip : Trip}
    {place handle : Nat} {ride : Ride} {first : Trip}
    (passed : planner.PassedBy timetable.catalogue trip place handle ride first)
    (free : ¬ planner.Strands timetable.catalogue day trip place) :
    ride.serviceDay = day ∧
      ride.Transferred timetable.catalogue transfers request planner.bounds := by
  have inside := RideStore.lt_size_of_ride? passed.ride_eq
  obtain ⟨chain, found, transferred⟩ :=
    (swept.settled handle ride inside passed.ride_eq).chained
  constructor
  · by_contra other
    exact free ⟨handle, ride, first, passed, .inl other⟩
  · apply transferred
    by_contra long
    exact free ⟨handle, ride, first, passed, .inr ⟨chain, found, Nat.lt_of_not_le long⟩⟩

end Planner

namespace Search

variable
  {timetable : Timetable} {transfers : TransferTable} {request : Request}
  {planner : Planner}

/-- A departure for stations of a request serves them and keeps what a sweep of the request
keeps. -/
theorem ensures_depart_swept
    (built : timetable.IsBuilt) (swept : planner.Swept timetable transfers request)
    {access : List Station} (within : ∀ station ∈ access, station ∈ request.access)
    {window : Span} (current : planner.request = { request with access, window })
    (departure : Instant) :
    Ensures (depart timetable.catalogue transfers access departure request.admits) planner
      (fun _ after => after.Swept timetable transfers request ∧
        ∀ station ∈ access,
          Outing.Served ⟨access, departure, request.admits, 0⟩ timetable.catalogue after
            station)
      (fun _ _ => True) := by
  let outing : Outing := ⟨access, departure, request.admits, planner.rides.size⟩
  have settled :
      planner.SettledBelow timetable.catalogue transfers planner.request
        planner.rides.size := by
    rw [current]
    exact fun handle ride inside found =>
      { swept.settled handle ride inside found with }
  have follows :=
    Outing.follows_depart_settled outing (Eq.refl planner.rides.size) settled
  apply Ensures.mono follows
  · rintro _ after ⟨reach, settledAfter, served⟩
    rw [current] at settledAfter
    have traced :=
      (Outing.traced_start (Nat.le_refl planner.rides.size)).reach reach
    refine ⟨⟨Outing.accounted_reach built reach swept.accounted, ?_, ?_⟩, served⟩
    · exact fun handle ride inside found => { settledAfter handle ride inside found with }
    · intro handle ride found
      rcases Nat.lt_or_ge handle planner.rides.size with old | new
      · exact swept.allowed handle ride (reach.grows.ride_of_lt old found)
      · obtain ⟨rest, _, chained⟩ := traced.chained handle ride new found
        rw [current] at chained
        have permits : ∀ trip, outing.admits trip = true → request.admits trip = true :=
          fun _ admitted => admitted
        obtain ⟨trip, _, allowed, _⟩ := chained.exists_allowed built permits rfl
        exact ⟨trip, { allowed with access_mem := within _ allowed.access_mem }⟩
  · intro _ _ _
    exact trivial

/-- After a sweep for stations of a request that succeeds, all its departures are served, and
what a sweep of the request keeps is kept. -/
theorem ensures_sweep_within
    (built : timetable.IsBuilt) (swept : planner.Swept timetable transfers request)
    {access : List Station} (within : ∀ station ∈ access, station ∈ request.access) :
    Ensures (sweep timetable.catalogue transfers { request with access }) planner
      (fun _ after => after.Swept timetable transfers request ∧
        ∀ step, planner.settings.step = .ok step →
          ∀ departure, request.Sweeps step departure → ∀ station ∈ access,
            Outing.Served ⟨access, departure, request.admits, 0⟩ timetable.catalogue after
              station)
      (fun _ _ => True) := by
  let visited (departure : Instant) (after : Planner) : Prop :=
    ∀ station ∈ access,
      Outing.Served ⟨access, departure, request.admits, 0⟩ timetable.catalogue after station
  apply (ensures_sweep (fun now => now.Swept timetable transfers request) (fun _ _ => True)
    visited (fun _ _ => trivial) (fun _ _ _ _ _ _ _ _ => trivial) ?_ ?_ ?_ ?_ swept).mono
  · rintro _ after ⟨sweptAfter, _, step, stepped, _, visits⟩
    refine ⟨sweptAfter, fun other same => ?_⟩
    rw [stepped, Except.ok.injEq] at same
    rw [← same]
    exact visits
  · intro _ _ _
    exact trivial
  · intro now window sweptNow
    exact sweptNow.of_rides_eq (now.grows_ask _) rfl rfl
  · intro now event sweptNow _
    exact sweptNow.of_rides_eq (now.grows_enter event) rfl rfl
  · intro departure before after grows served station member
    exact (served station member).grows grows
  · intro now window step departure sweptNow _ current _ _
    exact ensures_depart_swept built sweptNow within current departure

/-- After a sweep that succeeds all its departures are served. -/
theorem ensures_sweep_swept
    (built : timetable.IsBuilt) (transfers : TransferTable) (request initial : Request)
    (settings : Settings) :
    Ensures ((Task.sweep request).search timetable.catalogue transfers)
      (Planner.fresh timetable.catalogue initial settings)
      (fun _ after => after.Swept timetable transfers request ∧
        ∀ step, settings.step = .ok step → ∀ departure, request.Sweeps step departure →
          ∀ station ∈ request.access,
            Outing.Served ⟨request.access, departure, request.admits, 0⟩
              timetable.catalogue after station)
      (fun _ _ => True) := by
  have swept := Planner.swept_fresh timetable transfers request initial settings
  exact ensures_sweep_within built swept fun _ member => member

end Search

/-- What a station offers is covered once the station is served. -/
theorem Outing.Served.covers
    {outing : Outing} {timetable : Timetable} {planner : Planner} {station : Station}
    {reached : LocalTime} {trip : Trip} {position : Position}
    (built : timetable.IsBuilt)
    (served : outing.Served timetable.catalogue planner station)
    (offers : outing.Offers timetable.catalogue station reached trip position) :
    planner.bounds.Covers trip.index position.call := by
  obtain ⟨pattern, positions, later, listed, departing, usable⟩ := offers.first_usable
  obtain ⟨known, local_eq, boarded⟩ := served
  rw [offers.local_eq] at local_eq
  cases local_eq
  obtain ⟨found, _⟩ := offers.exists_call built
  exact boarded pattern positions later trip position listed departing usable
    (built.grouped.inside trip (Timetable.IsBuilt.mem_of_trip? found))

namespace Planner

/-- A departure of a fresh planner that succeeds has found nothing, or a label on the
frontier arrives at the bound. -/
theorem exists_label_of_depart
    {timetable : Timetable} {transfers : TransferTable} {request : Request}
    {settings : Settings} {access : List Station} {departure : Instant} {after : Planner}
    (built : timetable.IsBuilt)
    (performed :
      (fresh timetable.catalogue request settings).perform timetable.catalogue transfers
        (.depart access departure request.admits) = (.ok (), after)) :
    after.bounds.earliest = Bounds.latest ∨
      ∃ label ∈ after.frontier.labels, label.criteria.arrival = after.bounds.earliest ∧
        ∃ ride rest trip call,
          Outing.Labels ⟨access, departure, request.admits, 0⟩ timetable.catalogue transfers
            request after.rides label ride rest trip call := by
  let outing : Outing := ⟨access, departure, request.admits, 0⟩
  let start := fresh timetable.catalogue request settings
  have reach : outing.Reach timetable.catalogue transfers start after :=
    (of_perform_depart (Outing.follows_depart outing _ _ rfl) performed).1
  have fromStart : outing.Traced timetable.catalogue transfers start start :=
    Outing.traced_start (Nat.le_refl 0)
  have traced := fromStart.reach reach
  have session : start.performAll timetable.catalogue transfers
      [.depart access departure request.admits] = after := by
    rw [performAll, List.foldl_cons, List.foldl_nil, performed]
  have attained := isAttained_performAll built transfers request settings
    [.depart access departure request.admits]
  have pareto := isPareto_performAll timetable.catalogue transfers request settings
    [.depart access departure request.admits]
  rw [session] at attained pareto
  rcases pareto.exists_earliest attained with nothing | ⟨label, member, arrives⟩
  · exact .inl nothing
  right
  refine ⟨label, member, arrives, ?_⟩
  rcases traced.labelled label (pareto.mem_found member) with old | found
  · cases old
  · exact found

/-- Where only the walk at the end is charged for and no sum leaves 64 bits, a label arrives
when its itinerary does. -/
theorem arrival_eq_of_labels
    {timetable : Timetable} {transfers : TransferTable} {request : Request} {outing : Outing}
    {rides : RideStore} {label : Label} {ride : Ride} {rest : List Ride} {trip : Trip}
    {call : Call} (built : timetable.IsBuilt) (plain : request.IsPlain outing.access)
    (held : timetable.HoldsArrivals request 0)
    (permits : ∀ trip, outing.admits trip = true → request.admits trip = true)
    (labels : outing.Labels timetable.catalogue transfers request rides label ride rest trip
      call) :
    label.criteria.arrival = label.scheduled.seconds.toNat +
      request.weights.egressCharge label.egress.walk := by
  obtain ⟨known, _, allowed, _⟩ := labels.chained.exists_allowed built permits rfl
  have sum := Ride.arrivalSum_eq plain allowed call label.egress
  have called : call ∈ trip.calls :=
    List.mem_of_getElem? ((ride.mem_alightings trip call _).mp labels.alighting).1
  have fits := held trip (Timetable.IsBuilt.mem_of_trip? labels.trip_eq) call called label.egress
    labels.egress_mem labels.named
  rw [Int.add_zero, ← sum] at fits
  rw [labels.arrival_eq, Outing.arrival, wrapped_eq_of_isHeld fits, sum, labels.scheduled_eq]

/-- A departure of a fresh planner that succeeds has found nothing, or the bound is the
arrival of the journey of a label on the frontier. -/
theorem exists_journey_of_depart
    {timetable : Timetable} {transfers : TransferTable} {request : Request}
    {settings : Settings} {departure : Instant} {after : Planner}
    (built : timetable.IsBuilt) (plain : request.IsPlain request.access)
    (held : timetable.HoldsArrivals request 0)
    (performed :
      (fresh timetable.catalogue request settings).perform timetable.catalogue transfers
        (.depart request.access departure request.admits) = (.ok (), after)) :
    after.bounds.earliest = Bounds.latest ∨
      ∃ label ∈ after.frontier.labels, label.criteria.arrival = after.bounds.earliest ∧
        ∃ itinerary hops,
          Itinerary.ofLabel timetable.catalogue after.rides label = .ok itinerary ∧
          itinerary.Answers timetable.catalogue transfers request departure hops ∧
          after.bounds.earliest = itinerary.arrival.seconds.toNat +
            request.weights.egressCharge itinerary.egress.walk ∧
          ∃ first reached, hops.head? = some first ∧
            Outing.Offers ⟨request.access, departure, request.admits, 0⟩
              timetable.catalogue itinerary.access reached first.trip first.start := by
  rcases exists_label_of_depart built performed with nothing | ⟨label, member, arrives, ride,
    rest, trip, call, labels⟩
  · exact .inl nothing
  right
  have permits : ∀ trip : Trip, request.admits trip = true → request.admits trip = true :=
    fun _ admitted => admitted
  obtain ⟨itinerary, hops, worked, egress_eq, arrival_eq, answers, offered⟩ :=
    labels.exists_itinerary built permits fun _ listed => listed
  refine ⟨label, member, arrives, itinerary, hops, worked, answers, ?_, offered⟩
  rw [← arrives, egress_eq, arrival_eq]
  exact arrival_eq_of_labels built plain held permits labels

/-- A sweep that succeeds is as good as each of its departures made by a fresh planner,
unless it obstructs the journey of the best label of the departure.  No arrival at an egress
station may leave 64 bits, or it is noted as another one. -/
theorem earliest_le_of_sweep
    {plan : NetworkPlan} {network : Network} (built : plan.build = .ok network)
    (arrives : network.timetable.InOrder Call.arrival)
    (short : ∀ trip ∈ network.timetable.trips, trip.calls.length ≤ nowhere)
    {request : Request} (plain : request.IsPlain request.access)
    (held : network.timetable.HoldsArrivals request 0)
    (closed : ∀ day, network.transfers.IsClosed network.timetable day request.admits)
    {settings : Settings} {step : Span} (stepped : settings.step = .ok step)
    {departure : Instant} (departs : request.Sweeps step departure)
    {initial : Request} {swept alone : Planner}
    (sweeps :
      (fresh network.timetable.catalogue initial settings).perform network.timetable.catalogue
        network.transfers (.sweep request) = (.ok (), swept))
    (performed :
      (fresh network.timetable.catalogue request settings).perform network.timetable.catalogue
        network.transfers (.depart request.access departure request.admits) =
          (.ok (), alone)) :
    swept.bounds.earliest ≤ alone.bounds.earliest ∨
      ∃ label ∈ alone.frontier.labels, label.criteria.arrival = alone.bounds.earliest ∧
        ∃ itinerary hops,
          Itinerary.ofLabel network.timetable.catalogue alone.rides label = .ok itinerary ∧
          itinerary.Answers network.timetable.catalogue network.transfers request departure
            hops ∧
          swept.Obstructs network.timetable.catalogue itinerary.serviceDay hops := by
  have isBuilt := Timetable.isBuilt_of_plan built
  obtain ⟨keeps, serves⟩ :=
    of_perform_eq_ok
      (Search.ensures_sweep_swept isBuilt network.transfers request initial settings) sweeps
  have grows : (fresh network.timetable.catalogue initial settings).Grows swept := by
    have grown :=
      grows_perform (fresh network.timetable.catalogue initial settings)
        network.timetable.catalogue network.transfers (.sweep request)
    rw [sweeps] at grown
    exact grown
  rcases exists_journey_of_depart isBuilt plain held performed with nothing | ⟨label, member, best,
    itinerary, hops, worked, answers, bound, first, reached, head, offers⟩
  · left
    rw [nothing]
    exact grows.earliest
  by_cases obstructed :
      swept.Obstructs network.timetable.catalogue itinerary.serviceDay hops
  · exact .inr ⟨label, member, best, itinerary, hops, worked, answers, obstructed⟩
  left
  rw [bound]
  have orderly :
      Orderly network.timetable network.transfers request request.access
        itinerary.serviceDay :=
    ⟨isBuilt, arrives, short, closed itinerary.serviceDay, plain⟩
  have served := serves step stepped departure departs itinerary.access offers.station_mem
  have covers := served.covers isBuilt offers
  obtain ⟨last, last_eq, ends⟩ := answers.ends
  cases hops with
  | nil => cases head
  | cons hop rest =>
      cases head
      apply answers.journey.earliest_le orderly keeps.accounted
      · intro handle ride found
        exact (keeps.settled handle ride (RideStore.lt_size_of_ride? found) found).noted
      · exact keeps.allowed
      · intro other listed left
        exact obstructed (.inl ⟨other, listed, left⟩)
      · intro other listed handle ride trip passed
        exact keeps.transferred passed fun strands =>
          obstructed (.inr ⟨other, listed, strands⟩)
      · exact covers
      · exact last_eq
      · exact answers.egress_mem
      · exact ends

theorem isPlain_of_trial (trial : Sample.Trial) : trial.request.IsPlain trial.access := by
  apply Request.isPlain_of_neutral
  · rfl
  · change ∀ station ∈ [Sample.target], 0 ≤ Weights.neutral.egressCharge station.walk
    decide +kernel

/-- The express network, searched for three rounds. -/
def expressTrial : Sample.Trial := ⟨Sample.expressPlan, [Sample.origin], 3⟩

/-- On the express network the sweep is as good as its departure at eight, if it does not
obstruct its journey. -/
theorem earliest_le_of_sweep_express :
    expressTrial.swept.1 = .ok () ∧ expressTrial.alone.1 = .ok () ∧
      (expressTrial.swept.2.bounds.earliest ≤ expressTrial.alone.2.bounds.earliest ∨
        ∃ label ∈ expressTrial.alone.2.frontier.labels,
          label.criteria.arrival = expressTrial.alone.2.bounds.earliest ∧
          ∃ itinerary hops,
            Itinerary.ofLabel expressTrial.network.timetable.catalogue
              expressTrial.alone.2.rides label = .ok itinerary ∧
            itinerary.Answers expressTrial.network.timetable.catalogue
              expressTrial.network.transfers expressTrial.request (Sample.instant 8 0) hops ∧
            expressTrial.swept.2.Obstructs expressTrial.network.timetable.catalogue
              itinerary.serviceDay hops) := by
  have built : expressTrial.plan.build = .ok expressTrial.network := by decide +kernel
  have alone : ∀ first ∈ expressTrial.network.timetable.trips,
      ∀ second ∈ expressTrial.network.timetable.trips,
        first.Precedes second → first = second := by decide +kernel
  have short : ∀ trip ∈ expressTrial.network.timetable.trips,
      trip.calls.length ≤ nowhere := by decide +kernel
  have held : expressTrial.network.timetable.HoldsArrivals expressTrial.request 0 := by
    decide +kernel
  have stepped : expressTrial.settings.step = .ok ⟨300000⟩ := by decide +kernel
  have departs : expressTrial.request.Sweeps ⟨300000⟩ (Sample.instant 8 0) := .inl rfl
  have sweeps : expressTrial.swept.1 = .ok () := by decide +kernel
  have performed : expressTrial.alone.1 = .ok () := by decide +kernel
  refine ⟨sweeps, performed, ?_⟩
  have sweptEq : expressTrial.swept = (.ok (), expressTrial.swept.2) := by rw [← sweeps]
  have aloneEq : expressTrial.alone = (.ok (), expressTrial.alone.2) := by
    rw [← performed]
  unfold Sample.Trial.swept Sample.Trial.perform at sweptEq ⊢
  unfold Sample.Trial.alone Sample.Trial.perform at aloneEq ⊢
  exact earliest_le_of_sweep built (Timetable.inOrder_of_alone alone _) short
    (isPlain_of_trial expressTrial) held
    (fun _ => TransferTable.isClosed_of_alone _ alone _ _) stepped departs sweptEq aloneEq

/-- Everything succeeds and all departures are of one day at each station, but the sweep
is later than its departure at eight made by a fresh planner. -/
structure IsLateBySweeping (trial : Sample.Trial) : Prop where
  built : trial.plan.build = .ok trial.network
  plain : trial.request.IsPlain trial.access
  stepped : trial.settings.step = .ok ⟨300000⟩
  departs : trial.request.Sweeps ⟨300000⟩ (Sample.instant 8 0)
  day_eq : ∀ station ∈ trial.access,
    (station.localDeparture? (Sample.instant 8 0)).map LocalTime.date =
      (station.localDeparture? (Sample.instant 8 5)).map LocalTime.date
  sweeps : trial.swept.1 = .ok ()
  performed : trial.alone.1 = .ok ()
  later : trial.alone.2.bounds.earliest < trial.swept.2.bounds.earliest

/-- The express makes the last round; it is met where the journey leaves the line; it
meets a trip that is overtaken, or one that does not meet the last trip; or it runs on
the day before. -/
theorem isLateBySweeping :
    IsLateBySweeping ⟨Sample.expressPlan, [Sample.origin], 1⟩ ∧
      IsLateBySweeping ⟨Sample.meetingPlan, [Sample.origin], 3⟩ ∧
      IsLateBySweeping ⟨Sample.overtakingPlan, [Sample.origin], 3⟩ ∧
      IsLateBySweeping ⟨Sample.partingPlan, [Sample.origin], 3⟩ ∧
      IsLateBySweeping ⟨Sample.eveningPlan, [Sample.west, Sample.origin], 3⟩ := by
  have late : ∀ trial : Sample.Trial,
      trial.plan.build = .ok trial.network →
      trial.settings.step = .ok ⟨300000⟩ →
      (∀ station ∈ trial.access,
        (station.localDeparture? (Sample.instant 8 0)).map LocalTime.date =
          (station.localDeparture? (Sample.instant 8 5)).map LocalTime.date) →
      trial.swept.1 = .ok () → trial.alone.1 = .ok () →
      trial.alone.2.bounds.earliest < trial.swept.2.bounds.earliest →
      IsLateBySweeping trial :=
    fun trial built stepped day sweeps performed later =>
      ⟨built, isPlain_of_trial trial, stepped, .inl rfl, day, sweeps, performed, later⟩
  refine ⟨?_, ?_, ?_, ?_, ?_⟩ <;> apply late <;> decide +kernel

end Planner

end Transit
