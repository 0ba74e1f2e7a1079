import Transit.Proofs.Chronology.Forward
import Transit.Proofs.Journey.Complete
import Transit.Proofs.Journey.Window
import Transit.Proofs.Search.Lineage
import Transit.Proofs.Search.MoreRounds

/-!
# Leaving earlier

Two fresh planners depart from one station on one day, the first of them earlier.  The first
covers what the second boards, unless it begins the pattern by another boarding that leaves
before the second planner is there, on a later trip or at a later call.  From there on trips
stand in for those of a journey of the second planner.  The first planner therefore arrives
no later, unless it misses that journey.
-/

namespace Transit

/-- By the clocks of a station the later of two departures reaches it no earlier on a day,
unless the clocks are put back in between. -/
theorem Station.second_le_of_before
    {station : Station} {early late : Instant} {sooner reached : LocalTime}
    (whole : early.nanosecond < 1000000000) (wholeLate : late.nanosecond < 1000000000)
    (before : early.second < late.second ∨
      early.second = late.second ∧ early.nanosecond ≤ late.nanosecond)
    (steady : ∀ span, station.span? = some span →
      station.zone.offsetAt (early.move span) ≤ station.zone.offsetAt (late.move span))
    (earlyLocal : station.localDeparture? early = some sooner)
    (lateLocal : station.localDeparture? late = some reached)
    (sameDay : reached.date = sooner.date) :
    sooner.second ≤ reached.second := by
  unfold localDeparture? reached? at earlyLocal lateLocal
  cases walked : station.span? with
  | none =>
      rw [walked] at earlyLocal
      cases earlyLocal
  | some span =>
      rw [walked] at earlyLocal lateLocal
      simp only [bind, Option.bind_some, Option.bind_eq_some_iff, Instant.add?_eq_some_iff,
        Zone.localTime?_eq_some_iff] at earlyLocal lateLocal
      obtain ⟨_, ⟨_, rfl⟩, _, rfl⟩ := earlyLocal
      obtain ⟨_, ⟨_, rfl⟩, _, rfl⟩ := lateLocal
      have later := Instant.second_move_le_of_before whole wholeLate before span
      have ahead := steady span walked
      simp only [Instant.dateAt, Date.mk.injEq] at sameDay
      dsimp only [Instant.secondOfDayAt]
      omega

/-- An outing begins the pattern of a hop by another boarding, which leaves before the given
second of the day, on a later trip or at a later call. -/
def Outing.Forestalls
    (outing : Outing) (catalogue : Catalogue) (station : Station) (second : Nat)
    (hop : Hop) : Prop :=
  ∃ (reached : LocalTime) (trip : Trip) (position : Position) (call : Call),
    outing.Offers catalogue station reached trip position ∧
    trip.pattern = hop.trip.pattern ∧ trip.calls[position.call]? = some call ∧
    call.departure.seconds.toNat < second ∧
    (hop.trip.index < trip.index ∨ hop.board < position.call)

/-- Why a planner may arrive later than a journey of the day, when it left for an outing
before the journey begins at a station, after the given second. -/
inductive Planner.Misses
    (planner : Planner) (catalogue : Catalogue) (transfers : TransferTable) (day : Date)
    (admits : Trip → Bool) (outing : Outing) (station : Station) (second : Nat)
    (hops : List Hop) : Prop
  /-- The outing begins the pattern of the first hop further on. -/
  | forestalled {hop} :
      hops.head? = some hop → outing.Forestalls catalogue station second hop →
      Misses planner catalogue transfers day admits outing station second hops
  /-- The trip, or an earlier one of its pattern, was boarded where the journey leaves it. -/
  | boarded {hop} :
      hop ∈ hops → planner.BoardedAt catalogue hop.trip hop.alight →
      Misses planner catalogue transfers day admits outing station second hops
  /-- From a trip that stands in for a hop the journey does not go on. -/
  | parted {hop next} :
      [hop, next] <:+: hops → hop.IsParted next catalogue transfers day admits →
      Misses planner catalogue transfers day admits outing station second hops
  /-- A trip that stands in for the last hop arrives later. -/
  | overtaken {hop} :
      hops.getLast? = some hop → hop.IsOvertaken catalogue day admits →
      Misses planner catalogue transfers day admits outing station second hops

namespace Outing

variable
  {early late : Outing} {timetable : Timetable} {planner : Planner} {station : Station}
  {reached sooner : LocalTime} {hop : Hop}

/-- A station that an earlier outing was served by has the first hop of a later one covered,
unless the earlier outing forestalls it. -/
theorem Served.covers_of_earlier
    (built : timetable.IsBuilt) (accounted : planner.Accounted timetable)
    (served : early.Served timetable.catalogue planner station)
    (station_mem : station ∈ early.access)
    (local_eq : station.localDeparture? early.departure = some sooner)
    (sameDay : reached.date = sooner.date) (order : sooner.second ≤ reached.second)
    (admits_eq : late.admits = early.admits)
    (offers : late.Offers timetable.catalogue station reached hop.trip hop.start)
    (free : ¬ early.Forestalls timetable.catalogue station reached.second hop) :
    planner.bounds.Covers hop.trip.index hop.board := by
  obtain ⟨first, boarding, offersEarly, pattern, same | ⟨call, called, before⟩⟩ :=
    offers.exists_earlier built station_mem local_eq sameDay order admits_eq
  · cases same
    exact served.covers built offersEarly
  · have notLater : ¬ (hop.trip.index < first.index ∨ hop.board < boarding.call) :=
      fun later => free ⟨sooner, first, boarding, call, offersEarly, pattern, called, before,
        later⟩
    rw [not_or, Nat.not_lt, Nat.not_lt] at notLater
    obtain ⟨found, _⟩ := offers.exists_call built
    obtain ⟨firstFound, _⟩ := offersEarly.exists_call built
    have firstMember := Timetable.IsBuilt.mem_of_trip? firstFound
    have member := Timetable.IsBuilt.mem_of_trip? found
    have precedes : first.Precedes hop.trip := by
      refine ⟨notLater.1, ?_⟩
      rw [built.grouped.patternEnd_eq first firstMember hop.trip member pattern]
      exact built.grouped.inside hop.trip member
    obtain ⟨limit, limitAt, below⟩ := served.covers built offersEarly
    exact accounted.covers_of_precedes built firstMember member precedes
      ⟨limit, limitAt, below.trans notLater.2⟩

end Outing

namespace Planner

variable
  {timetable : Timetable} {transfers : TransferTable} {request : Request}
  {settings : Settings} {access : List Station} {departure : Instant} {after : Planner}

/-- A departure of a fresh planner that succeeds has found nothing, or the bound is the
arrival of the journey of a label on the frontier, and the planner had enough rounds for
it. -/
theorem exists_short_journey_of_depart
    (built : timetable.IsBuilt) (plain : request.IsPlain access)
    (held : timetable.HoldsArrivals request 0)
    (performed :
      (fresh timetable.catalogue request settings).perform timetable.catalogue transfers
        (.depart access departure request.admits) = (.ok (), after)) :
    after.bounds.earliest = Bounds.latest ∨
      ∃ label ∈ after.frontier.labels, label.criteria.arrival = after.bounds.earliest ∧
        ∃ itinerary hops,
          Itinerary.ofLabel timetable.catalogue after.rides label = .ok itinerary ∧
          itinerary.Answers timetable.catalogue transfers { request with access } departure
            hops ∧
          after.bounds.earliest = itinerary.arrival.seconds.toNat +
            request.weights.egressCharge itinerary.egress.walk ∧
          hops.length ≤ settings.rounds + 1 ∧
          ∃ first reached, hops.head? = some first ∧
            Outing.Offers ⟨access, departure, request.admits, 0⟩
              timetable.catalogue itinerary.access reached first.trip first.start := by
  rcases exists_label_of_depart built performed with nothing | ⟨label, member, arrives, ride,
    rest, trip, call, labels⟩
  · exact .inl nothing
  right
  have permits : ∀ trip : Trip, request.admits trip = true → request.admits trip = true :=
    fun _ admitted => admitted
  have shallow := (Search.depart_shallow request settings access departure request.admits).of_ok
    (perform_eq_ok.mp performed)
  have labels' : Outing.Labels ⟨access, departure, request.admits, 0⟩ timetable.catalogue
      transfers { request with access } after.rides label ride rest trip call :=
    { labels with }
  obtain ⟨itinerary, hops, worked, length, egress_eq, arrival_eq, answers, offered⟩ :=
    labels'.exists_itinerary_along built permits fun _ listed => listed
  refine ⟨label, member, arrives, itinerary, hops, worked, answers, ?_, ?_, offered⟩
  · rw [← arrives, egress_eq, arrival_eq]
    exact arrival_eq_of_labels built plain held permits labels
  · have stored := RideStore.lt_size_of_ride? (RideStore.ride?_of_chain? labels.chain_eq)
    obtain ⟨chain, found, few⟩ := shallow label.ride stored
    rw [labels.chain_eq] at found
    cases found
    rw [length]
    exact few

/-- A journey that a planner does not miss is firm. -/
theorem firm_of_not_misses
    {catalogue : Catalogue} {outing : Outing} {station : Station} {second : Nat}
    {itinerary : Itinerary} {hops : List Hop}
    (answers : itinerary.Answers catalogue transfers { request with access } departure hops)
    (meets : ¬ after.Misses catalogue transfers itinerary.serviceDay request.admits outing
      station second hops) :
    Journey.Firm catalogue transfers request itinerary.serviceDay hops itinerary.egress
      itinerary.arrival where
  journey := answers.journey
  joined := by
    rw [List.isChain_iff_forall_rel_of_append_cons_cons]
    rintro hop next front rest rfl parted
    exact meets (.parted ⟨front, rest, by simp⟩ parted)
  egress_mem := answers.egress_mem
  ends := by
    obtain ⟨last, last_eq, ends⟩ := answers.ends
    exact ⟨last, last_eq, ends, fun overtaken => meets (.overtaken last_eq overtaken)⟩

/-- A planner that made an earlier departure is as good as a journey of a later one within
its rounds, if it does not miss the journey. -/
theorem earliest_le_of_not_misses
    (built : timetable.IsBuilt)
    (short : ∀ trip ∈ timetable.trips, trip.calls.length ≤ nowhere)
    {station : Station} (plain : request.IsPlain [station]) {early late : Instant}
    {sooner reached : LocalTime} (earlyLocal : station.localDeparture? early = some sooner)
    (sameDay : reached.date = sooner.date) (order : sooner.second ≤ reached.second)
    (performed :
      (fresh timetable.catalogue request settings).perform timetable.catalogue transfers
        (.depart [station] early request.admits) = (.ok (), after))
    {hop : Hop} {rest : List Hop} {egress : Station} {arrival : ServiceTime}
    (firm : Journey.Firm timetable.catalogue transfers request reached.date (hop :: rest) egress
      arrival)
    (few : (hop :: rest).length ≤ settings.rounds + 1)
    (offers : Outing.Offers ⟨[station], late, request.admits, 0⟩ timetable.catalogue station
      reached hop.trip hop.start)
    (meets : ¬ after.Misses timetable.catalogue transfers reached.date request.admits
      ⟨[station], early, request.admits, 0⟩ station reached.second (hop :: rest)) :
    after.bounds.earliest ≤
      arrival.seconds.toNat + request.weights.egressCharge egress.walk := by
  let outing : Outing := ⟨[station], early, request.admits, 0⟩
  have day : ∀ other ∈ outing.access, ∀ shown,
      other.localDeparture? outing.departure = some shown → shown.date = reached.date := by
    intro other member shown local_eq
    rw [List.mem_singleton.mp member] at local_eq
    have same : shown = sooner := Option.some.inj (local_eq.symm.trans earlyLocal)
    rw [same, sameDay]
  have begins : ∀ now : Planner, now.Accounted timetable →
      (∀ other ∈ outing.access, outing.Served timetable.catalogue now other) →
        now.bounds.Covers hop.trip.index hop.board := by
    intro now accounted served
    have sameAdmits : request.admits = outing.admits := rfl
    apply (served station List.mem_cons_self).covers_of_earlier built accounted
      List.mem_cons_self earlyLocal sameDay order sameAdmits offers
    exact fun forestalled => meets (.forestalled rfl forestalled)
  have follows := Outing.follows_depart_firm built plain short settings rfl rfl day firm
    (Nat.le_of_succ_le_succ few) begins
  rcases (of_perform_depart follows performed).2 with inTime | ⟨other, member, boarded⟩
  · exact inTime
  · exact absurd (.boarded member boarded) meets

/-- On a network that was built a departure from one station succeeds, if there is a local
time for it. -/
theorem perform_depart_ok_of_station
    {plan : NetworkPlan} {network : Network} (built : plan.build = .ok network)
    (someEgress : request.egress ≠ []) (settings : Settings) {station : Station}
    {reached : LocalTime} (local_eq : station.localDeparture? departure = some reached) :
    ((fresh network.timetable.catalogue request settings).perform network.timetable.catalogue
      network.transfers (.depart [station] departure request.admits)).1 = .ok () := by
  have isBuilt := Timetable.isBuilt_of_plan built
  have resolved : network.transfers.IsResolved network.timetable.catalogue :=
    fun _ _ _ listed => Timetable.exists_call_of_destination built listed
  apply (perform_depart_ok_iff isBuilt resolved (stocked_fresh isBuilt request settings)
    [station] departure request.admits).mpr
  refine ⟨List.cons_ne_nil station [], someEgress, ?_⟩
  intro other member
  rw [List.mem_singleton.mp member]
  exact ⟨reached, local_eq⟩

/-- Leaving earlier never means arriving later, on any network that was built and at any
station, by local times of one day, with no charges for the walk there and for changes and no
arrival at an egress station that leaves 64 bits, unless the planner that left earlier misses
the journey of a best label of the other. -/
theorem earliest_le_or_misses
    {plan : NetworkPlan} {network : Network} (built : plan.build = .ok network)
    (short : ∀ trip ∈ network.timetable.trips, trip.calls.length ≤ nowhere)
    {request : Request} {station : Station} (plain : request.IsPlain [station])
    (held : network.timetable.HoldsArrivals request 0)
    (someEgress : request.egress ≠ []) (settings : Settings) {early late : Instant}
    {sooner reached : LocalTime} (earlyLocal : station.localDeparture? early = some sooner)
    (lateLocal : station.localDeparture? late = some reached)
    (sameDay : reached.date = sooner.date) (order : sooner.second ≤ reached.second) :
    let catalogue := network.timetable.catalogue
    let perform (departure : Instant) := (fresh catalogue request settings).perform catalogue
      network.transfers (.depart [station] departure request.admits)
    (perform early).1 = .ok () ∧ (perform late).1 = .ok () ∧
      ((perform early).2.bounds.earliest ≤ (perform late).2.bounds.earliest ∨
        ∃ label ∈ (perform late).2.frontier.labels,
          label.criteria.arrival = (perform late).2.bounds.earliest ∧
          ∃ itinerary hops,
            Itinerary.ofLabel catalogue (perform late).2.rides label = .ok itinerary ∧
            itinerary.Answers catalogue network.transfers { request with access := [station] }
              late hops ∧
            (perform early).2.Misses catalogue network.transfers reached.date request.admits
              ⟨[station], early, request.admits, 0⟩ station reached.second hops) := by
  intro catalogue perform
  have isBuilt := Timetable.isBuilt_of_plan built
  have earlyOk : (perform early).1 = .ok () :=
    perform_depart_ok_of_station built someEgress settings earlyLocal
  have lateOk : (perform late).1 = .ok () :=
    perform_depart_ok_of_station built someEgress settings lateLocal
  have earlyEq : perform early = (.ok (), (perform early).2) := Prod.ext earlyOk rfl
  have lateEq : perform late = (.ok (), (perform late).2) := Prod.ext lateOk rfl
  refine ⟨earlyOk, lateOk, ?_⟩
  rcases exists_short_journey_of_depart isBuilt plain held lateEq with nothing | ⟨label, member, best,
    itinerary, hops, worked, answers, bound, few, first, known, head, offers⟩
  · left
    rw [nothing]
    exact (grows_perform (fresh catalogue request settings) catalogue network.transfers
      (.depart [station] early request.admits)).earliest
  have here : itinerary.access = station := List.mem_singleton.mp offers.station_mem
  have clock : known = reached := by
    have local_eq := offers.local_eq
    rw [here] at local_eq
    exact Option.some.inj (local_eq.symm.trans lateLocal)
  have day : itinerary.serviceDay = reached.date := by
    obtain ⟨_, _, _, local_eq, date_eq, _⟩ := answers.starts
    rw [here, lateLocal] at local_eq
    cases local_eq
    exact date_eq
  rw [here, clock] at offers
  by_cases misses : (perform early).2.Misses catalogue network.transfers reached.date
      request.admits ⟨[station], early, request.admits, 0⟩ station reached.second hops
  · exact .inr ⟨label, member, best, itinerary, hops, worked, answers, misses⟩
  left
  have firm := firm_of_not_misses answers (by rw [day]; exact misses)
  rw [day] at firm
  rw [bound]
  cases hops with
  | nil => cases head
  | cons hop rest =>
      cases head
      exact earliest_le_of_not_misses isBuilt short plain earlyLocal sameDay order earlyEq firm
        few offers misses

/-- On the express network the departures at eight and five minutes later both find the last
trip, the first without the express. -/
theorem earliest_le_or_misses_on_express :
    let early := expressTrial.leaving Sample.origin (Sample.instant 8 0)
    let late := expressTrial.leaving Sample.origin (Sample.instant 8 5)
    early.1 = .ok () ∧ late.1 = .ok () ∧
      early.2.bounds.earliest = 31800 ∧ late.2.bounds.earliest = 31800 ∧
      (early.2.bounds.earliest ≤ late.2.bounds.earliest ∨
        ∃ label ∈ late.2.frontier.labels, label.criteria.arrival = late.2.bounds.earliest ∧
          ∃ itinerary hops,
            Itinerary.ofLabel expressTrial.network.timetable.catalogue late.2.rides label =
              .ok itinerary ∧
            itinerary.Answers expressTrial.network.timetable.catalogue
              expressTrial.network.transfers
              { expressTrial.request with access := [Sample.origin] } (Sample.instant 8 5)
              hops ∧
            early.2.Misses expressTrial.network.timetable.catalogue
              expressTrial.network.transfers Sample.day expressTrial.request.admits
              ⟨[Sample.origin], Sample.instant 8 0, expressTrial.request.admits, 0⟩
              Sample.origin 29100 hops) := by
  have built : expressTrial.plan.build = .ok expressTrial.network := by decide +kernel
  have short : ∀ trip ∈ expressTrial.network.timetable.trips,
      trip.calls.length ≤ nowhere := by decide +kernel
  have held : expressTrial.network.timetable.HoldsArrivals expressTrial.request 0 := by
    decide +kernel
  have earlyLocal :
      Sample.origin.localDeparture? (Sample.instant 8 0) = some ⟨Sample.day, 28800⟩ := by
    decide +kernel
  have lateLocal :
      Sample.origin.localDeparture? (Sample.instant 8 5) = some ⟨Sample.day, 29100⟩ := by
    decide +kernel
  have steady : ∀ span, Sample.origin.span? = some span →
      Sample.origin.zone.offsetAt ((Sample.instant 8 0).move span) ≤
        Sample.origin.zone.offsetAt ((Sample.instant 8 5).move span) :=
    fun _ _ => Int.le_refl 0
  have order : 28800 ≤ 29100 :=
    Station.second_le_of_before (by decide +kernel) (by decide +kernel)
      (.inl (by decide +kernel)) steady earlyLocal lateLocal rfl
  obtain ⟨earlyOk, lateOk, compared⟩ :=
    earliest_le_or_misses built short (isPlain_of_trial expressTrial) held
      (List.cons_ne_nil Sample.target []) expressTrial.settings earlyLocal lateLocal rfl order
  have arrivals : (expressTrial.leaving Sample.origin (Sample.instant 8 0)).2.bounds.earliest =
        31800 ∧
      (expressTrial.leaving Sample.origin (Sample.instant 8 5)).2.bounds.earliest = 31800 := by
    decide +kernel
  unfold Sample.Trial.leaving Sample.Trial.perform at arrivals ⊢
  dsimp only at earlyOk lateOk compared arrivals ⊢
  exact ⟨earlyOk, lateOk, arrivals.1, arrivals.2, compared⟩

/-- Everything succeeds and both departures are of one day at the station, but the earlier
one arrives later. -/
structure IsLateByLeavingEarlier
    (trial : Sample.Trial) (station : Station) (early late : Instant) : Prop where
  built : trial.plan.build = .ok trial.network
  sound : trial.request.fault? = none
  plain : trial.request.IsPlain [station]
  before : early.second < late.second
  day_eq : (station.localDeparture? early).map LocalTime.date =
    (station.localDeparture? late).map LocalTime.date
  earlyPerformed : (trial.leaving station early).1 = .ok ()
  latePerformed : (trial.leaving station late).1 = .ok ()
  later : (trial.leaving station late).2.bounds.earliest <
    (trial.leaving station early).2.bounds.earliest

/-- The first trip of a line is overtaken on its way, or at the stop where it is boarded; a
line comes back to that stop; only a later trip meets the last one; the planner boards a
trip where the journey leaves it; or the clocks are put back. -/
theorem isLateByLeavingEarlier :
    IsLateByLeavingEarlier ⟨Sample.fasterPlan, [Sample.origin], 3⟩ Sample.origin
        (Sample.instant 8 0) (Sample.instant 8 5) ∧
      IsLateByLeavingEarlier ⟨Sample.waitingPlan, [Sample.origin], 3⟩ Sample.origin
        (Sample.instant 8 0) (Sample.instant 8 5) ∧
      IsLateByLeavingEarlier ⟨Sample.returningPlan, [Sample.origin], 3⟩ Sample.origin
        (Sample.instant 8 0) (Sample.instant 8 5) ∧
      IsLateByLeavingEarlier ⟨Sample.meetingSecondPlan, [Sample.origin], 3⟩ Sample.origin
        (Sample.instant 8 0) (Sample.instant 8 5) ∧
      IsLateByLeavingEarlier ⟨Sample.slowFirstPlan, [Sample.origin], 3⟩ Sample.origin
        (Sample.instant 8 0) (Sample.instant 8 5) ∧
      IsLateByLeavingEarlier ⟨Sample.longDayPlan, [Sample.berlin], 3⟩ Sample.berlin
        ⟨Sample.longDay.dayNumber * 86400 + 3000, 0⟩
        ⟨Sample.longDay.dayNumber * 86400 + 4200, 0⟩ := by
  have late : ∀ (trial : Sample.Trial) (station : Station) (early late : Instant),
      trial.access = [station] → trial.plan.build = .ok trial.network →
      trial.request.fault? = none → early.second < late.second →
      (station.localDeparture? early).map LocalTime.date =
        (station.localDeparture? late).map LocalTime.date →
      (trial.leaving station early).1 = .ok () → (trial.leaving station late).1 = .ok () →
      (trial.leaving station late).2.bounds.earliest <
        (trial.leaving station early).2.bounds.earliest →
      IsLateByLeavingEarlier trial station early late := by
    intro trial station early late access built sound before day earlyPerformed latePerformed later
    refine ⟨built, sound, ?_, before, day, earlyPerformed, latePerformed, later⟩
    rw [← access]
    exact isPlain_of_trial trial
  refine ⟨?_, ?_, ?_, ?_, ?_, ?_⟩ <;> apply late <;> decide +kernel

end Planner

end Transit
