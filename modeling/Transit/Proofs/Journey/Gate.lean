import Transit.Proofs.Journey.Answers
import Transit.Proofs.Journey.Attained

/-!
# Arrivals that are passed over

The bound that a weighted arrival has to beat is one number of seconds for all service
days.  An arrival is passed over only after a label was found that arrives no later by the
clock of its own service day.  That label is no later in time either unless its service
day is the later one, which cannot be when all departures of a sweep are of one day.
-/

namespace Transit

/-- A weighted arrival of a ride in seconds from the day that days are counted from. -/
def Ride.timeOf (ride : Ride) (arrival : Int) : Int :=
  ride.serviceDay.dayNumber * 86400 + arrival

/-- The service day of a ride is the date at its access station at one of the instants. -/
def Ride.IsDated (ride : Ride) (request : Request) (visits : Instant → Prop) : Prop :=
  ride.access ∈ request.access ∧ ∃ departure reached, visits departure ∧
    ride.access.localDeparture? departure = some reached ∧ ride.serviceDay = reached.date

namespace Planner

/-- A ride reaches an egress station of the request at a weighted arrival. -/
structure Arrives
    (planner : Planner) (catalogue : Catalogue) (request : Request)
    (handle : Nat) (egress : Station) (arrival : Int) (ride : Ride) : Prop where
  ride_eq : planner.rides.ride? handle = some ride
  egress_mem : egress ∈ request.egress
  reaches : ∃ trip call place, catalogue.trip? ride.board.trip = some trip ∧
    (call, place) ∈ ride.alightings trip ∧ egress.stop.isNamed trip.feed call.stop = true ∧
    arrival = Outing.arrival request ride call egress

/-- Among the events a label is found, on a stored ride, that arrives no later. -/
def Beats (planner : Planner) (events : List Event) (arrival : Int) (earlier : Ride)
    (label : Label) : Prop :=
  .arriving label ∈ events ∧ planner.rides.ride? label.ride = some earlier ∧
    label.criteria.arrival ≤ arrival

/-- What is known of an arrival that is passed over after some events. -/
def PassesOver
    (planner : Planner) (catalogue : Catalogue) (request : Request) (events : List Event)
    (handle : Nat) (egress : Station) (arrival : Int) : Prop :=
  ∃ ride, planner.Arrives catalogue request handle egress arrival ride ∧
    (arrival < Bounds.latest → ∃ earlier label, planner.Beats events arrival earlier label)

/-- Every label is of a stored ride. -/
def Held (planner : Planner) : Prop :=
  ∀ label ∈ planner.found, ∃ ride, planner.rides.ride? label.ride = some ride

/-- Every ride is of a service day on which the instants fall. -/
def Dated (planner : Planner) (request : Request) (visits : Instant → Prop) : Prop :=
  ∀ handle ride, planner.rides.ride? handle = some ride → ride.IsDated request visits

/-- Every arrival that is passed over is so after the events before it. -/
def Watched (planner : Planner) (catalogue : Catalogue) (request : Request) : Prop :=
  ∀ front back handle egress arrival,
    planner.journal.toList = front ++ .passing handle egress arrival :: back →
      planner.PassesOver catalogue request front handle egress arrival

/-- What the bound and the events of a search tell of the arrivals that it passes over. -/
structure Gated
    (planner : Planner) (catalogue : Catalogue) (request : Request)
    (visits : Instant → Prop) : Prop where
  stocked : planner.Stocked catalogue
  attained : planner.IsAttained
  held : planner.Held
  dated : planner.Dated request visits
  watched : planner.Watched catalogue request

variable
  {planner before after : Planner} {catalogue : Catalogue} {request : Request}
  {visits : Instant → Prop}

theorem gated_fresh
    {timetable : Timetable} (built : timetable.IsBuilt) (first request : Request)
    (settings : Settings) (visits : Instant → Prop) :
    (fresh timetable.catalogue first settings).Gated timetable.catalogue request visits where
  stocked := stocked_fresh built first settings
  attained := .inl rfl
  held _ member := by cases member
  dated handle _ found :=
    absurd (RideStore.lt_size_of_ride? found) (Nat.not_lt_zero handle)
  watched front _ _ _ _ split := by
    cases front with
    | nil => cases split
    | cons _ _ => cases split

theorem mem_found {label : Label} :
    label ∈ planner.found ↔ .arriving label ∈ planner.journal.toList := by
  unfold found
  rw [List.mem_filterMap]
  constructor
  · rintro ⟨event, member, same⟩
    cases event <;> cases same
    exact member
  · intro member
    exact ⟨_, member, rfl⟩

theorem PassesOver.grows
    {events : List Event} {handle : Nat} {egress : Station} {arrival : Int}
    (passed : before.PassesOver catalogue request events handle egress arrival)
    (grows : before.Grows after) :
    after.PassesOver catalogue request events handle egress arrival := by
  obtain ⟨ride, arrives, beaten⟩ := passed
  refine ⟨ride, { arrives with ride_eq := grows.ride handle ride arrives.ride_eq }, ?_⟩
  intro finite
  obtain ⟨earlier, label, entered, found, sooner⟩ := beaten finite
  exact ⟨earlier, label, entered, grows.ride label.ride earlier found, sooner⟩

theorem Held.of_found_eq
    (held : before.Held) (grows : before.Grows after) (found : after.found = before.found) :
    after.Held := by
  intro label member
  rw [found] at member
  obtain ⟨ride, known⟩ := held label member
  exact ⟨ride, grows.ride label.ride ride known⟩

theorem Watched.of_journal_eq
    (watched : before.Watched catalogue request) (grows : before.Grows after)
    (journal : after.journal = before.journal) : after.Watched catalogue request := by
  intro front back handle egress arrival split
  rw [journal] at split
  exact (watched front back handle egress arrival split).grows grows

/-- One more event is watched if it is no arrival passed over, or one as it should be. -/
theorem Watched.concat
    {event : Event} (watched : before.Watched catalogue request) (grows : before.Grows after)
    (journal : after.journal = before.journal.push event)
    (new : ∀ handle egress arrival, event = .passing handle egress arrival →
      after.PassesOver catalogue request before.journal.toList handle egress arrival) :
    after.Watched catalogue request := by
  intro front back handle egress arrival split
  rw [journal, Array.toList_push] at split
  -- The arrival is the event that was added, or was passed over before it.
  rcases List.eq_nil_or_concat back with rfl | ⟨shorter, last, rfl⟩
  · obtain ⟨same, ends⟩ := List.append_inj' split rfl
    rw [← same]
    exact new handle egress arrival (List.cons.inj ends).1
  · rw [List.concat_eq_append, ← List.cons_append, ← List.append_assoc] at split
    have earlier := (List.append_inj' split rfl).1
    exact (watched front shorter handle egress arrival earlier).grows grows

theorem Watched.enter
    {event : Event} (watched : planner.Watched catalogue request) (quiet : event.IsQuiet) :
    (planner.enter event).Watched catalogue request := by
  apply watched.concat (planner.grows_enter event) rfl
  rintro _ _ _ rfl
  exact quiet.elim

theorem Gated.ask
    (gated : planner.Gated catalogue request visits) (other : Request) :
    (planner.ask other).Gated catalogue request visits where
  stocked := gated.stocked.of_rides_eq (planner.grows_ask other) rfl
  attained := gated.attained
  held := gated.held
  dated := gated.dated
  watched := gated.watched.of_journal_eq (planner.grows_ask other) rfl

theorem Gated.enter
    (gated : planner.Gated catalogue request visits) {event : Event} (quiet : event.IsQuiet) :
    (planner.enter event).Gated catalogue request visits := by
  have grows := planner.grows_enter event
  have found := planner.found_enter_of_isQuiet quiet
  exact ⟨gated.stocked.of_rides_eq grows rfl, gated.attained.of_found_eq found rfl,
    gated.held.of_found_eq grows found, gated.dated, gated.watched.enter quiet⟩

end Planner

namespace Outing

variable
  {outing : Outing} {timetable : Timetable} {catalogue : Catalogue} {transfers : TransferTable}
  {before after : Planner} {request : Request} {visits : Instant → Prop}

theorem held_step
    (step : outing.Step catalogue transfers before after) (held : before.Held) :
    after.Held := by
  have grows := step.grows
  cases step with
  | enter event quiet =>
      exact held.of_found_eq grows (before.found_enter_of_isQuiet quiet)
  | cover _ _ _ _ => exact held.of_found_eq grows (before.found_cover _ _)
  | board _ _ _ _ => exact held.of_found_eq grows ((before.store _).found_cover _ _)
  | pass _ _ => exact held.of_found_eq grows (before.found_enter_passing _ _ _)
  | lose _ _ _ => exact held.of_found_eq grows rfl
  | @find handle ride _ _ _ _ label reaches _ _ _ _ _ rideEq =>
      intro known member
      rw [Planner.found_find] at member
      rcases List.mem_append.mp member with old | same
      · exact held known old
      · rw [List.mem_singleton.mp same, rideEq]
        exact ⟨ride, reaches.ride_eq⟩

/-- A ride that is stored is of the day of its outing, or of the day of its parent. -/
theorem dated_step
    (access : ∀ station ∈ outing.access, station ∈ request.access)
    (visited : visits outing.departure)
    (step : outing.Step catalogue transfers before after) (dated : before.Dated request visits) :
    after.Dated request visits := by
  cases step with
  | enter _ _ => exact dated
  | cover _ _ _ _ => exact dated
  | board approaches _ _ leads =>
      intro handle known stored
      rcases Planner.eq_or_ride?_of_board stored with ⟨_, rfl⟩ | ⟨_, old⟩
      · cases leads with
        | walk station serviceDay =>
            cases approaches with
            | walk offers =>
                exact ⟨access _ offers.station_mem, outing.departure, _, visited,
                  offers.local_eq, rfl⟩
        | transfer previousFound _ =>
            obtain ⟨member, day⟩ := dated _ _ previousFound
            exact ⟨member, day⟩
      · exact dated handle known old
  | pass _ _ => exact dated
  | lose _ _ _ => exact dated
  | find _ _ _ _ _ _ _ => exact dated

/-- An arrival that does not improve the bound comes after a label that attains it. -/
theorem watched_step
    (egress_eq : before.request.egress = request.egress)
    (weights_eq : before.request.weights = request.weights)
    (attained : before.IsAttained) (held : before.Held)
    (step : outing.Step catalogue transfers before after)
    (watched : before.Watched catalogue request) :
    after.Watched catalogue request := by
  have grows := step.grows
  cases step with
  | enter event quiet => exact watched.enter quiet
  | cover _ _ _ _ => exact watched.concat grows rfl (by rintro _ _ _ ⟨⟩)
  | board _ _ _ _ => exact watched.concat grows rfl (by rintro _ _ _ ⟨⟩)
  | @pass handle ride trip call place egress reaches later =>
      apply watched.concat grows rfl
      rintro _ _ _ ⟨⟩
      have arrival_eq :
          arrival before.request ride call egress = arrival request ride call egress := by
        rw [arrival, arrival, arrivalSum, arrivalSum, Search.arrivalAt, Search.arrivalAt,
          weights_eq]
      have member := reaches.egress_mem
      rw [egress_eq] at member
      refine ⟨ride, ⟨reaches.ride_eq, member, trip, call, place, reaches.trip_eq,
        reaches.alighting, reaches.named, arrival_eq⟩, ?_⟩
      intro finite
      have bound : before.bounds.earliest ≤ arrival before.request ride call egress := by
        simpa [Bounds.improves] using later
      rcases attained with none | ⟨label, labelMember, arrives⟩
      · omega
      · obtain ⟨earlier, found⟩ := held label labelMember
        exact ⟨earlier, label, Planner.mem_found.mp labelMember, found, by omega⟩
  | lose _ _ _ => exact watched.of_journal_eq grows rfl
  | find _ _ _ _ _ _ _ => exact watched.concat grows rfl (by rintro _ _ _ ⟨⟩)

theorem gated_step
    (built : timetable.IsBuilt)
    (egress_eq : before.request.egress = request.egress)
    (weights_eq : before.request.weights = request.weights)
    (access : ∀ station ∈ outing.access, station ∈ request.access)
    (visited : visits outing.departure)
    (step : outing.Step timetable.catalogue transfers before after)
    (gated : before.Gated timetable.catalogue request visits) :
    after.Gated timetable.catalogue request visits where
  stocked := gated.stocked.step built step
  attained := isAttained_step gated.stocked step gated.attained
  held := held_step step gated.held
  dated := dated_step access visited step gated.dated
  watched := watched_step egress_eq weights_eq gated.attained gated.held step gated.watched

theorem gated_reach
    (built : timetable.IsBuilt)
    (egress_eq : before.request.egress = request.egress)
    (weights_eq : before.request.weights = request.weights)
    (access : ∀ station ∈ outing.access, station ∈ request.access)
    (visited : visits outing.departure)
    (reach : outing.Reach timetable.catalogue transfers before after)
    (gated : before.Gated timetable.catalogue request visits) :
    after.Gated timetable.catalogue request visits := by
  induction reach with
  | refl => exact gated
  | tail prior step hypothesis =>
      have same := Reach.request_eq prior
      rw [← same] at egress_eq weights_eq
      exact gated_step built egress_eq weights_eq access visited step hypothesis

end Outing

namespace Search

variable
  {timetable : Timetable} {transfers : TransferTable} {request asked : Request}
  {visits : Instant → Prop} {planner : Planner}

/-- A sweep for stations of a request keeps watch for the request. -/
theorem sweep_gated
    (built : timetable.IsBuilt) (egress_eq : asked.egress = request.egress)
    (weights_eq : asked.weights = request.weights)
    (access : ∀ station ∈ asked.access, station ∈ request.access)
    (visited : ∀ step departure, planner.settings.step = .ok step →
      asked.Sweeps step departure → visits departure)
    (gated : planner.Gated timetable.catalogue request visits) :
    Ensures (sweep timetable.catalogue transfers asked) planner
      (fun _ after => after.Gated timetable.catalogue request visits)
      (fun _ after => after.Gated timetable.catalogue request visits) := by
  apply sweep_keeps (fun now => now.Gated timetable.catalogue request visits) ?_ ?_ ?_ gated
  · intro now window gatedNow
    exact gatedNow.ask _
  · intro now event gatedNow quiet
    exact gatedNow.enter quiet
  · intro now window step departure gatedNow current stepped swept
    apply ensures_depart
    intro after reach
    apply Outing.gated_reach built _ _ access (visited step departure stepped swept) reach
      gatedNow
    · rw [current]
      exact egress_eq
    · rw [current]
      exact weights_eq

/-- A task that answers a request keeps watch for it, station by station if need be. -/
theorem task_gated
    (built : timetable.IsBuilt) {task : Task} (asks : task.Asks request)
    (visited : ∀ step departure, planner.settings.step = .ok step →
      request.Sweeps step departure → visits departure)
    (gated : planner.Gated timetable.catalogue request visits) :
    Ensures (task.search timetable.catalogue transfers) planner
      (fun _ after => after.Gated timetable.catalogue request visits)
      (fun _ after => after.Gated timetable.catalogue request visits) := by
  cases asks with
  | sweep => exact sweep_gated built rfl rfl (fun _ member => member) visited gated
  | sweepEach =>
      let kept (now : Planner) : Prop :=
        planner.Grows now ∧ now.Gated timetable.catalogue request visits
      have each : Ensures (sweepEach timetable.catalogue transfers request) planner
          (fun _ => kept) (fun _ => kept) := by
        apply ensures_sweepEach
        · rintro station member now ⟨grows, gatedNow⟩
          have alone : ∀ known ∈ (request.fromStation station).access,
              known ∈ request.access := by
            intro known listed
            rw [List.mem_singleton.mp listed]
            exact member
          have visitedNow : ∀ step departure, now.settings.step = .ok step →
              (request.fromStation station).Sweeps step departure → visits departure := by
            rw [grows.settings]
            exact visited
          have egress_eq : (request.fromStation station).egress = request.egress := rfl
          have weights_eq : (request.fromStation station).weights = request.weights := rfl
          apply ((sweep_grows (request.fromStation station) now).and
            (sweep_gated built egress_eq weights_eq alone visitedNow gatedNow)).weaken
          rintro after ⟨further, gatedAfter⟩
          exact ⟨grows.trans further, gatedAfter⟩
        · exact ⟨.refl planner, gated⟩
      apply each.weaken
      rintro after ⟨_, gatedAfter⟩
      exact gatedAfter

end Search

/-- All departures of a request are on one day at all of its access stations. -/
def Request.IsOfDay (request : Request) (settings : Settings) (day : Date) : Prop :=
  ∀ step departure station reached, settings.step = .ok step → request.Sweeps step departure →
    station ∈ request.access → station.localDeparture? departure = some reached →
    reached.date = day

namespace Planner

/-- An arrival that a sweep passes over, if it is one at all, comes after a label that was
found before and arrives no later by the clock of its own service day.  The label is no
later in time unless its service day is the later one, and in any case if all departures
are of one day. -/
theorem exists_earlier_label_of_passing
    {plan : NetworkPlan} {network : Network} (built : plan.build = .ok network)
    (first : Request) (settings : Settings) {request : Request} {task : Task}
    (asks : task.Asks request) {front back : List Event} {handle : Nat} {egress : Station}
    {arrival : Int} :
    let catalogue := network.timetable.catalogue
    let after := ((fresh catalogue first settings).perform catalogue network.transfers task).2
    after.journal.toList = front ++ .passing handle egress arrival :: back →
      ∃ ride, after.Arrives catalogue request handle egress arrival ride ∧
        (arrival < Bounds.latest →
          ∃ label earlier, .arriving label ∈ front ∧
            after.rides.ride? label.ride = some earlier ∧
            label.criteria.arrival ≤ arrival ∧
            (earlier.timeOf label.criteria.arrival ≤ ride.timeOf arrival ∨
              ride.serviceDay < earlier.serviceDay) ∧
            ((∃ day, request.IsOfDay settings day) →
              earlier.timeOf label.criteria.arrival ≤ ride.timeOf arrival)) := by
  intro catalogue after split
  let visits (departure : Instant) : Prop :=
    ∃ step, settings.step = .ok step ∧ request.Sweeps step departure
  have isBuilt := Timetable.isBuilt_of_plan built
  let kept (now : Planner) : Prop := now.Gated catalogue request visits
  have gated : kept after := by
    apply perform_of_ensures
    apply Search.task_gated isBuilt asks
    · intro step departure stepped swept
      exact ⟨step, stepped, swept⟩
    · exact gated_fresh isBuilt first request settings visits
  obtain ⟨ride, arrives, beaten⟩ := gated.watched front back handle egress arrival split
  refine ⟨ride, arrives, ?_⟩
  intro finite
  obtain ⟨earlier, label, entered, found, sooner⟩ := beaten finite
  refine ⟨label, earlier, entered, found, sooner, ?_, ?_⟩
  · by_cases later : ride.serviceDay < earlier.serviceDay
    · exact .inr later
    · left
      rw [Date.lt_iff] at later
      unfold Ride.timeOf
      omega
  · rintro ⟨day, ofDay⟩
    have dated : ∀ handle known, after.rides.ride? handle = some known →
        known.serviceDay = day := by
      intro handle known stored
      obtain ⟨member, departure, reached, ⟨step, stepped, swept⟩, local_eq, day_eq⟩ :=
        gated.dated handle known stored
      rw [day_eq]
      exact ofDay step departure known.access reached stepped swept member local_eq
    unfold Ride.timeOf
    rw [dated label.ride earlier found, dated handle ride arrives.ride_eq]
    omega

/-- A quarter of an hour around midnight, swept from its end. -/
def midnightRequest : Request :=
  { Sample.request 15 with start := ⟨Sample.day.dayNumber * 86400 - 600, 0⟩ }

/-- The sweep of that request, with departures at its end and at its start. -/
def midnightSweep : Except RoutingFault Unit × Planner :=
  (fresh Sample.midnight.timetable.catalogue midnightRequest ⟨3, 15⟩).perform
    Sample.midnight.timetable.catalogue Sample.midnight.transfers (.sweep midnightRequest)

/-- The ride of the evening before arrives by 86100 of its day, after the label of the
morning with its 600. -/
theorem exists_earlier_label_of_midnight :
    ∃ front back, midnightSweep.2.journal.toList =
        front ++ .passing 1 Sample.target 86100 :: back ∧
      ∃ label earlier, .arriving label ∈ front ∧
        midnightSweep.2.rides.ride? label.ride = some earlier ∧
        label.criteria.arrival ≤ 86100 := by
  have built : Sample.midnightPlan.build = .ok Sample.midnight := by decide +kernel
  have split : midnightSweep.2.journal.toList =
      midnightSweep.2.journal.toList.take 10 ++
        .passing 1 Sample.target 86100 :: midnightSweep.2.journal.toList.drop 11 := by
    decide +kernel
  refine ⟨_, _, split, ?_⟩
  unfold midnightSweep at split ⊢
  obtain ⟨_, _, beaten⟩ :=
    exists_earlier_label_of_passing built midnightRequest ⟨3, 15⟩ .sweep split
  obtain ⟨label, earlier, entered, found, sooner, _⟩ := beaten (by decide +kernel)
  exact ⟨label, earlier, entered, found, sooner⟩

/-- A request for the night trip, whose arrival is charged up to the latest number that an
arrival can be. -/
def nightRequest : Request :=
  { Sample.request 0 with
    egress := [{ Sample.target with walk := 1000 }]
    start := ⟨Sample.day.dayNumber * 86400, 0⟩
    weights := { Weights.neutral with egress := Float.ofNat 9223372036854774784 } }

def nightSweep : Except RoutingFault Unit × Planner :=
  (fresh Sample.night.timetable.catalogue nightRequest .standard).perform
    Sample.night.timetable.catalogue Sample.night.transfers (.sweep nightRequest)

/-- Around midnight an arrival is passed over though every label of the sweep is later in
time, for its service day is the day after.  And an arrival at the latest number of all is
passed over though there is no label. -/
theorem passes_over_earliest_arrivals :
    (Sample.midnightPlan.build = .ok Sample.midnight ∧ midnightSweep.1 = .ok () ∧
      .passing 1 Sample.target 86100 ∈ midnightSweep.2.journal.toList ∧
      ∃ ride ∈ midnightSweep.2.rides.ride? 1, ∀ label ∈ midnightSweep.2.found,
        ∃ earlier ∈ midnightSweep.2.rides.ride? label.ride,
          ride.timeOf 86100 < earlier.timeOf label.criteria.arrival) ∧
    Sample.nightPlan.build = .ok Sample.night ∧ nightSweep.1 = .ok () ∧
      .passing 0 { Sample.target with walk := 1000 } Bounds.latest ∈
        nightSweep.2.journal.toList ∧
      nightSweep.2.found = [] := by
  decide +kernel

end Planner

end Transit
