import Transit.Proofs.Journey.Answers
import Transit.Proofs.Journey.Hindrance
import Transit.Proofs.Search.Refusal

/-!
# Sweeping one station after another

When the access stations are swept one after the other, all sweeps share one planner.  The
first sweep is that of a fresh planner.  Every later one meets what the sweeps before it
covered, by rides with other walks, so that it may miss a journey which a sweep of its own
station alone finds.  Where it does, the planner hinders the journey.
-/

namespace Transit

namespace Search

variable
  {timetable : Timetable} {transfers : TransferTable} {request : Request} {planner : Planner}

/-- The departures of one station of a request are served. -/
def StationServed
    (timetable : Timetable) (request : Request) (planner : Planner) (station : Station) : Prop :=
  ∀ step, planner.settings.step = .ok step → ∀ departure, request.Sweeps step departure →
    Outing.Served ⟨[station], departure, request.admits, 0⟩ timetable.catalogue planner station

theorem StationServed.grows
    {before after : Planner} {station : Station}
    (served : StationServed timetable request before station) (grows : before.Grows after) :
    StationServed timetable request after station := by
  intro step stepped departure swept
  rw [grows.settings] at stepped
  exact (served step stepped departure swept).grows grows

/-- After the sweep of one station its departures are served. -/
theorem ensures_sweep_fromStation
    (built : timetable.IsBuilt) (swept : planner.Swept timetable transfers request)
    {station : Station} (member : station ∈ request.access) :
    Ensures (sweep timetable.catalogue transfers (request.fromStation station)) planner
      (fun _ after => planner.Grows after ∧ after.Swept timetable transfers request ∧
        StationServed timetable request after station)
      (fun _ _ => True) := by
  have within : ∀ known ∈ [station], known ∈ request.access := by
    intro known listed
    rw [List.mem_singleton.mp listed]
    exact member
  apply ((sweep_grows (request.fromStation station) planner).and
    (ensures_sweep_within built swept within)).mono
  · rintro _ after ⟨grows, sweptAfter, served⟩
    refine ⟨grows, sweptAfter, ?_⟩
    intro step stepped departure departs
    rw [grows.settings] at stepped
    exact served step stepped departure departs station List.mem_cons_self
  · intro _ _ _
    exact trivial

/-- After the sweeps of some stations the departures of all of them are served. -/
theorem ensures_forM_fromStation
    (built : timetable.IsBuilt) (swept : planner.Swept timetable transfers request)
    {stations : List Station} (within : ∀ station ∈ stations, station ∈ request.access) :
    Ensures
      (stations.forM fun station =>
        sweep timetable.catalogue transfers (request.fromStation station)) planner
      (fun _ after => planner.Grows after ∧ after.Swept timetable transfers request ∧
        ∀ station ∈ stations, StationServed timetable request after station)
      (fun _ _ => True) := by
  induction stations generalizing planner with
  | nil => exact ⟨.refl planner, swept, by simp⟩
  | cons station rest hypothesis =>
      change Ensures (sweep timetable.catalogue transfers (request.fromStation station) >>=
        fun _ => rest.forM fun station =>
          sweep timetable.catalogue transfers (request.fromStation station)) planner _ _
      rw [ensures_bind]
      apply (ensures_sweep_fromStation built swept
        (within station List.mem_cons_self)).imp
      rintro _ middle ⟨grows, sweptMiddle, served⟩
      apply (hypothesis sweptMiddle fun later member =>
        within later (List.mem_cons_of_mem station member)).imp
      rintro _ after ⟨further, sweptAfter, others⟩
      refine ⟨grows.trans further, sweptAfter, ?_⟩
      intro known member
      rcases List.mem_cons.mp member with rfl | member
      · exact served.grows further
      · exact others known member

theorem sound_of_sweepEach
    {catalogue : Catalogue} {after : Planner}
    (swept : sweepEach catalogue transfers request planner = .ok () after) :
    request.fault? = none := by
  unfold sweepEach at swept
  obtain ⟨_, _, checked, _⟩ := bind_eq_ok.mp swept
  exact (check_eq_ok.mp checked).1

theorem sweepEach_eq {catalogue : Catalogue} (sound : request.fault? = none) :
    sweepEach catalogue transfers request planner =
      (request.access.forM fun station =>
        sweep catalogue transfers (request.fromStation station)) planner := by
  unfold sweepEach check
  rw [sound]
  rfl

/-- Sweeping station after station begins with the sweeps of the first stations. -/
theorem sweepEach_append
    {catalogue : Catalogue} {front back : List Station} {after : Planner}
    (someFront : front ≠ []) (split : request.access = front ++ back)
    (swept : sweepEach catalogue transfers request planner = .ok () after) :
    ∃ middle,
      sweepEach catalogue transfers { request with access := front } planner =
          .ok () middle ∧
        middle.Grows after := by
  have sound := sound_of_sweepEach swept
  have soundFront : { request with access := front }.fault? = none := by
    rw [Request.fault?_eq_none_iff] at sound ⊢
    exact ⟨someFront, sound.2⟩
  let turn (station : Station) : Search Unit :=
    sweep catalogue transfers (request.fromStation station)
  have parts : (front ++ back).forM turn = (front.forM turn >>= fun _ => back.forM turn) :=
    List.forM_append
  rw [sweepEach_eq sound, split] at swept
  change (front ++ back).forM turn planner = _ at swept
  rw [parts] at swept
  obtain ⟨_, middle, first, rest⟩ := bind_eq_ok.mp swept
  refine ⟨middle, ?_, ?_⟩
  · rw [sweepEach_eq soundFront]
    exact first
  · have grows : Ensures (back.forM turn) middle
        (fun _ => middle.Grows) (fun _ => middle.Grows) := by
      apply ensures_forM
      · intro station _ now grown
        apply (sweep_grows (request.fromStation station) now).weaken
        intro later further
        exact grown.trans further
      · exact .refl middle
    exact grows.of_ok rest

end Search

/-- An outing that leads to more stations offers what the other offers there. -/
theorem Outing.Offers.of_subset
    {outing other : Outing} {catalogue : Catalogue} {station : Station} {reached : LocalTime}
    {trip : Trip} {position : Position}
    (offers : outing.Offers catalogue station reached trip position)
    (access : ∀ station ∈ outing.access, station ∈ other.access)
    (departure : outing.departure = other.departure) (admits : outing.admits = other.admits) :
    other.Offers catalogue station reached trip position := by
  obtain ⟨member, local_eq, usable⟩ := offers
  rw [departure] at local_eq
  rw [admits] at usable
  exact ⟨access station member, local_eq, usable⟩

namespace Planner

open Search

/-- What a sweep of a fresh planner found is nothing, or the bound is the arrival of a label
whose journey begins with what one of its departures offers. -/
theorem exists_journey_of_sweep
    {timetable : Timetable} (built : timetable.IsBuilt) (transfers : TransferTable)
    (first request : Request) (settings : Settings) :
    let catalogue := timetable.catalogue
    let after := ((fresh catalogue first settings).perform catalogue transfers
      (.sweep request)).2
    after.bounds.earliest = Bounds.latest ∨
      ∃ label ∈ after.frontier.labels, label.criteria.arrival = after.bounds.earliest ∧
        ∃ itinerary hops departure step opening reached,
          Itinerary.ofLabel catalogue after.rides label = .ok itinerary ∧
            itinerary.Answers catalogue transfers request departure hops ∧
            settings.step = .ok step ∧ request.Sweeps step departure ∧
            hops.head? = some opening ∧
            Outing.Offers ⟨request.access, departure, request.admits, 0⟩ catalogue
              itinerary.access reached opening.trip opening.start := by
  intro catalogue after
  have pareto : after.IsPareto :=
    isPareto_performAll catalogue transfers first settings [.sweep request]
  have attained : after.IsAttained :=
    isAttained_performAll built transfers first settings [.sweep request]
  rcases pareto.exists_earliest attained with nothing | ⟨label, member, arrives⟩
  · exact .inl nothing
  right
  refine ⟨label, member, arrives, ?_⟩
  obtain ⟨_, outing, step, stepped, departs, access, admits, ride, rest, trip, call, labels⟩ :=
    owns_of_fresh first settings .sweep member
  have allowed : ∀ trip, outing.admits trip = true → request.admits trip = true := by
    rw [admits]
    exact fun _ admitted => admitted
  obtain ⟨itinerary, hops, worked, _, _, answers, opening, reached, head, offers⟩ :=
    labels.exists_itinerary built allowed access
  exact ⟨itinerary, hops, outing.departure, step, opening, reached, worked, answers, stepped,
    departs, head, offers.of_subset access rfl admits⟩

/-- A planner that served the departures of a station is as good as the sweep of that
station alone by another planner, or hinders the journey of the best label found alone. -/
theorem earliest_le_or_hinders_of_served
    {timetable : Timetable} (built : timetable.IsBuilt) (transfers : TransferTable)
    (short : ∀ trip ∈ timetable.trips, trip.calls.length ≤ nowhere)
    {first : Request} (other : Request) {request : Request} {settings : Settings}
    {station : Station} {planner : Planner}
    (grown : (fresh timetable.catalogue first settings).Grows planner)
    (swept : planner.Swept timetable transfers request)
    (served : StationServed timetable request planner station) :
    let catalogue := timetable.catalogue
    let alone := ((fresh catalogue other settings).perform catalogue transfers
      (.sweep (request.fromStation station))).2
    planner.bounds.earliest ≤ alone.bounds.earliest ∨
      ∃ label ∈ alone.frontier.labels,
        label.criteria.arrival = alone.bounds.earliest ∧
        ∃ itinerary hops departure,
          Itinerary.ofLabel catalogue alone.rides label = .ok itinerary ∧
          itinerary.Answers catalogue transfers (request.fromStation station) departure hops ∧
          planner.Hinders catalogue transfers request itinerary.serviceDay itinerary.egress
            label.criteria.arrival hops := by
  intro catalogue alone
  rcases exists_journey_of_sweep built transfers other (request.fromStation station)
    settings with nothing | ⟨label, member, arrives, itinerary, hops, departure, step, opening,
    reached, worked, answers, stepped, departs, head, offers⟩
  · left
    have found : alone.bounds.earliest = Bounds.latest := nothing
    rw [found]
    exact grown.earliest
  have steppedNow : planner.settings.step = .ok step := by
    rw [grown.settings]
    exact stepped
  have atStation : itinerary.access = station := List.mem_singleton.mp offers.station_mem
  rw [atStation] at offers
  have covers := (served step steppedNow departure departs).covers built offers
  obtain ⟨last, last_eq, ends⟩ := answers.ends
  cases hops with
  | nil => cases head
  | cons hop rest =>
      cases head
      rcases answers.journey.earliest_le_or_hinders swept built short covers last_eq
        answers.egress_mem ends label.criteria.arrival with bound | hinders
      · left
        have target : label.criteria.arrival = alone.bounds.earliest := arrives
        rw [← target]
        exact bound
      · exact .inr ⟨label, member, arrives, itinerary, opening :: rest, departure, worked,
          answers, hinders⟩

/-- Sweeping station after station is as good as the sweep of the first station alone by
another planner, and as good as that of a later station unless the planner, as it is after
the sweep of that station, hinders the journey of the best label found alone. -/
theorem earliest_le_or_hinders_of_sweepEach
    {plan : NetworkPlan} {network : Network} (built : plan.build = .ok network)
    (short : ∀ trip ∈ network.timetable.trips, trip.calls.length ≤ nowhere)
    (first other request : Request) (settings : Settings)
    {earlier later : List Station} {station : Station}
    (split : request.access = earlier ++ station :: later) :
    let catalogue := network.timetable.catalogue
    let start := fresh catalogue first settings
    let alone := ((fresh catalogue other settings).perform catalogue network.transfers
      (.sweep (request.fromStation station))).2
    ∀ together,
      start.perform catalogue network.transfers (.sweepEach request) = (.ok (), together) →
      (earlier = [] → together.bounds.earliest ≤ alone.bounds.earliest) ∧
      ∃ middle,
        start.perform catalogue network.transfers
            (.sweepEach { request with access := earlier ++ [station] }) = (.ok (), middle) ∧
        (together.bounds.earliest ≤ alone.bounds.earliest ∨
          ∃ label ∈ alone.frontier.labels,
            label.criteria.arrival = alone.bounds.earliest ∧
            ∃ itinerary hops departure,
              Itinerary.ofLabel catalogue alone.rides label = .ok itinerary ∧
              itinerary.Answers catalogue network.transfers (request.fromStation station)
                departure hops ∧
              middle.Hinders catalogue network.transfers request itinerary.serviceDay
                itinerary.egress label.criteria.arrival hops) := by
  intro catalogue start alone together performed
  have isBuilt := Timetable.isBuilt_of_plan built
  rw [perform_eq_ok] at performed
  have longer : earlier ++ [station] ≠ [] := by simp
  have split' : request.access = (earlier ++ [station]) ++ later := by simp [split]
  obtain ⟨middle, performedMiddle, grows⟩ := sweepEach_append longer split' performed
  have sound := sound_of_sweepEach performedMiddle
  have sweeps := performedMiddle
  rw [sweepEach_eq sound] at sweeps
  have within : ∀ known ∈ earlier ++ [station], known ∈ request.access := by
    intro known listed
    rw [split']
    exact List.mem_append_left later listed
  obtain ⟨grown, swept, served⟩ :=
    (ensures_forM_fromStation isBuilt
      (swept_fresh network.timetable network.transfers request first settings) within).of_ok
      sweeps
  refine ⟨?_, middle, perform_eq_ok.mpr performedMiddle, ?_⟩
  · -- Before its sweep the planner is fresh, as the other one is.
    rintro rfl
    obtain ⟨_, last, once, done⟩ := bind_eq_ok.mp sweeps
    cases done
    have same : (fresh catalogue other settings).perform catalogue network.transfers
        (.sweep (request.fromStation station)) = (.ok (), middle) :=
      perform_eq_ok.mpr (sweep_ask other once)
    have alone_eq : alone = middle := congrArg Prod.snd same
    rw [alone_eq]
    exact grows.earliest
  · have stationServed := served station (List.mem_append_right earlier List.mem_cons_self)
    rcases earliest_le_or_hinders_of_served isBuilt network.transfers short other grown swept
      stationServed with bound | hindered
    · exact .inl (Int.le_trans grows.earliest bound)
    · exact .inr hindered

/-- What a fresh planner makes of a task on the network of a plan. -/
def onPlan (plan : NetworkPlan) (settings : Settings) (request : Request) (task : Task) :
    Except RoutingFault Unit × Planner :=
  (fresh (Sample.networkOf plan).timetable.catalogue request settings).perform
    (Sample.networkOf plan).timetable.catalogue (Sample.networkOf plan).transfers task

/-- A request from these stations at eight. -/
def requestFrom (access : List Station) : Request := { Sample.request 0 with access }

/-- A request on which walks to the stop count twice, from the longer walk on. -/
def walkingRequest : Request :=
  { requestFrom [Sample.walkAway, Sample.origin] with weights := ⟨2, 1, 0⟩ }

/-- The long walk is swept first and hinders the journey without a walk. -/
theorem hinders_of_walkAway :
    (onPlan Sample.expressPlan .standard walkingRequest (.sweepEach walkingRequest)).1 =
        .ok () ∧
      ∃ (middle : Planner) (label : Label) (itinerary : Itinerary) (hops : List Hop)
        (departure : Instant),
        itinerary.Answers (Sample.networkOf Sample.expressPlan).timetable.catalogue
          (Sample.networkOf Sample.expressPlan).transfers
          (walkingRequest.fromStation Sample.origin) departure hops ∧
        middle.Hinders (Sample.networkOf Sample.expressPlan).timetable.catalogue
          (Sample.networkOf Sample.expressPlan).transfers walkingRequest itinerary.serviceDay
          itinerary.egress label.criteria.arrival hops := by
  have built : Sample.expressPlan.build = .ok (Sample.networkOf Sample.expressPlan) := by
    decide +kernel
  have short : ∀ trip ∈ (Sample.networkOf Sample.expressPlan).timetable.trips,
      trip.calls.length ≤ nowhere := by
    decide +kernel
  have split : walkingRequest.access = [Sample.walkAway] ++ Sample.origin :: [] := rfl
  have succeeded :
      (onPlan Sample.expressPlan .standard walkingRequest (.sweepEach walkingRequest)).1 =
        .ok () := by decide +kernel
  have performed :
      onPlan Sample.expressPlan .standard walkingRequest (.sweepEach walkingRequest) =
        (.ok (), (onPlan Sample.expressPlan .standard walkingRequest
          (.sweepEach walkingRequest)).2) := by rw [← succeeded]
  have late :
      ¬ (onPlan Sample.expressPlan .standard walkingRequest
            (.sweepEach walkingRequest)).2.bounds.earliest ≤
          (onPlan Sample.expressPlan .standard walkingRequest
            (.sweep (walkingRequest.fromStation Sample.origin))).2.bounds.earliest := by
    decide +kernel
  refine ⟨succeeded, ?_⟩
  unfold onPlan at performed late
  have swept := earliest_le_or_hinders_of_sweepEach built short walkingRequest walkingRequest
    walkingRequest .standard split _ performed
  obtain ⟨_, middle, _, bound | ⟨label, _, _, itinerary, hops, departure, _, answers, hinders⟩⟩ :=
    swept
  · exact absurd bound late
  · exact ⟨middle, label, itinerary, hops, departure, answers, hinders⟩

/-- Sweeping one station after the other succeeds, but finds only what is later than what a
sweep of the second station finds alone. -/
structure IsLateByStations
    (plan : NetworkPlan) (settings : Settings) (request : Request) (station : Station) :
    Prop where
  built : plan.build = .ok (Sample.networkOf plan)
  listed : station ∈ request.access
  together : (onPlan plan settings request (.sweepEach request)).1 = .ok ()
  alone : (onPlan plan settings request (.sweep (request.fromStation station))).1 = .ok ()
  later :
    (onPlan plan settings request (.sweep (request.fromStation station))).2.bounds.earliest <
      (onPlan plan settings request (.sweepEach request)).2.bounds.earliest

/-- The sweep of the first station boards the trips after a longer walk; its express meets a
trip that is overtaken; it meets the line where the journey leaves it; it makes the last
round; it runs on the day before; it meets a trip that does not meet the last one; or its
arrival, for which a long walk is rewarded, cuts off the line before it meets the last
trip. -/
theorem isLateByStations :
    IsLateByStations Sample.expressPlan ⟨3, 5⟩ walkingRequest Sample.origin ∧
      IsLateByStations Sample.overtakingPlan ⟨3, 5⟩
        (requestFrom [Sample.walkAway, Sample.origin]) Sample.origin ∧
      IsLateByStations Sample.meetingPlan ⟨3, 5⟩
        (requestFrom [Sample.walkAway, Sample.origin]) Sample.origin ∧
      IsLateByStations Sample.expressPlan ⟨1, 5⟩
        (requestFrom [Sample.walkAway, Sample.origin]) Sample.origin ∧
      IsLateByStations Sample.eveningPlan ⟨3, 5⟩
        (requestFrom [Sample.west, Sample.origin]) Sample.origin ∧
      IsLateByStations Sample.partingPlan ⟨3, 5⟩
        (requestFrom [Sample.walkAway, Sample.origin]) Sample.origin ∧
      IsLateByStations Sample.detourPlan ⟨3, 5⟩
        { requestFrom [Sample.aside, Sample.origin] with
          egress := [{ Sample.target with walk := 3600000 }]
          weights := { Weights.neutral with egress := -1 } } Sample.origin := by
  refine ⟨?_, ?_, ?_, ?_, ?_, ?_, ?_⟩ <;> constructor <;> decide +kernel

end Planner

end Transit
