import Transit.Proofs.Journey.Dominance
import Transit.Proofs.Journey.Sample

/-!
# Completeness of one departure

On a network whose trips do not overtake each other, a departure of a fresh planner is
as good as every journey within its number of rounds, provided that the journey leaves
no trip at a place at which the search boarded that trip or an earlier one of its
pattern.  A boarding covers the trip from its own call on, but a ride can be left only
after that call, and a later boarding further up the trip is ridden only up to it.

The proof follows the journey round by round: when a round begins, the bound is early
enough, or some hop of the journey is covered whose rest fits into the rounds left.
-/

namespace Transit

/-- No trip calls at a stop twice. -/
def Timetable.CallsOnce (timetable : Timetable) : Prop :=
  ∀ trip ∈ timetable.trips, (trip.calls.map Call.stop).Nodup

/-- A journey from a station of an outing to an egress station of a request. -/
structure Outing.Takes
    (outing : Outing) (catalogue : Catalogue) (transfers : TransferTable)
    (request : Request) (day : Date) (hops : List Hop) (egress : Station)
    (arrival : ServiceTime) : Prop where
  journey : Journey catalogue transfers day request.admits hops
  starts : ∃ first station reached, hops.head? = some first ∧
    outing.Begins station reached first
  egress_mem : egress ∈ request.egress
  ends : ∃ last, hops.getLast? = some last ∧ last.EndsAt egress arrival

instance
    (outing : Outing) (catalogue : Catalogue) (transfers : TransferTable)
    (request : Request) (day : Date) (hops : List Hop) (egress : Station)
    (arrival : ServiceTime) :
    Decidable (outing.Takes catalogue transfers request day hops egress arrival) :=
  decidable_of_iff
    (Journey catalogue transfers day request.admits hops ∧
      (∃ first ∈ hops.head?, ∃ station ∈ outing.access,
        ∃ reached ∈ station.localDeparture? outing.departure,
          first.StartsAt station reached) ∧
      egress ∈ request.egress ∧ ∃ last ∈ hops.getLast?, last.EndsAt egress arrival) <| by
    constructor
    · rintro ⟨journey, ⟨first, head, station, member, reached, local_eq, starts⟩, egress_mem,
        ends⟩
      exact ⟨journey, ⟨first, station, reached, head, member, local_eq, starts⟩, egress_mem,
        ends⟩
    · rintro ⟨journey, ⟨first, station, reached, head, member, local_eq, starts⟩, egress_mem,
        ends⟩
      exact ⟨journey, ⟨first, head, station, member, reached, local_eq, starts⟩, egress_mem,
        ends⟩

namespace Outing

variable
  {outing : Outing} {timetable : Timetable} {transfers : TransferTable}
  {planner : Planner} {request : Request} {day : Date}

/-- Where no trip overtakes another, a station that is served has the first hop of every
journey covered. -/
theorem covers_first
    (built : timetable.IsBuilt) (departs : timetable.InOrder Call.departure)
    (once : timetable.CallsOnce) (accounted : planner.Accounted timetable)
    {station : Station} {reached : LocalTime} {hop : Hop}
    (served : outing.Served timetable.catalogue planner station)
    (begins : outing.Begins station reached hop)
    (runs : hop.Runs timetable.catalogue reached.date outing.admits) :
    planner.bounds.Covers hop.trip.index hop.board := by
  obtain ⟨_, local_eq, call, called, named, inTime⟩ := begins
  have before : hop.board + 1 < hop.trip.calls.length := by
    have forward := runs.forward
    have within := runs.within
    omega
  obtain ⟨first, early, boarding, found, pattern, boarded, boardedAt, covers, sooner⟩ :=
    served.exists_earlier built local_eq runs.found called before named inTime runs.active
      runs.admitted
  have firstMember := Timetable.IsBuilt.mem_of_trip? found
  have member := Timetable.IsBuilt.mem_of_trip? runs.found
  -- Both trips call at the stop of the station, which each of them does only once.
  have place : early = hop.board := by
    have firstStop : (hop.trip.calls.map Call.stop)[early]? = some station.stop.name := by
      rw [← (built.route_eq_of_pattern_eq firstMember member pattern).2, List.getElem?_map,
        boarded, Option.map_some, ((Stop.isNamed_iff _ _ _).mp boardedAt).2]
    have hopStop : (hop.trip.calls.map Call.stop)[hop.board]? = some station.stop.name := by
      rw [List.getElem?_map, called, Option.map_some, ((Stop.isNamed_iff _ _ _).mp named).2]
    have inside := (List.getElem?_eq_some_iff.mp firstStop).1
    exact (List.getElem?_inj inside (once hop.trip member)).mp (firstStop.trans hopStop.symm)
  rw [place] at boarded covers
  rcases built.precedes_or_precedes firstMember member pattern with precedes | precedes
  · exact accounted.covers_of_precedes built firstMember member precedes covers
  · have departsLater := departs hop.trip member first firstMember precedes hop.board call
      boarding called boarded
    rw [ServiceTime.le_iff] at departsLater
    have order := precedes.1
    have index : first.index = hop.trip.index := by omega
    rw [index] at covers
    exact covers

/-- A planner of the outing, with what is known of its rides before a round that begins
with those from a base on. -/
structure Riding
    (outing : Outing) (timetable : Timetable) (transfers : TransferTable)
    (request : Request) (day : Date) (base : Nat) (planner : Planner) : Prop where
  request_eq : planner.request = request
  accounted : planner.Accounted timetable
  allowed : ∀ handle ride, planner.rides.ride? handle = some ride →
    ride.serviceDay = day ∧
      ∃ trip, ride.Allowed timetable.catalogue request outing.access trip
  noted : ∀ handle ride, handle < base → planner.rides.ride? handle = some ride →
    ride.Noted timetable.catalogue request planner.bounds
  transferred : ∀ handle ride, handle < base → planner.rides.ride? handle = some ride →
    ride.Transferred timetable.catalogue transfers request planner.bounds

/-- The bound is early enough, or the search boarded where the journey leaves a trip, or
a hop of the journey is covered whose rest fits into the rounds left. -/
inductive Promises
    (catalogue : Catalogue) (hops : List Hop) (target : Int) (left : Nat)
    (planner : Planner) : Prop
  | kept : planner.bounds.earliest ≤ target → Promises catalogue hops target left planner
  | boarded (hop : Hop) : hop ∈ hops → planner.BoardedAt catalogue hop.trip hop.alight →
      Promises catalogue hops target left planner
  | covered (front : List Hop) (hop : Hop) (rest : List Hop) : hops = front ++ hop :: rest →
      rest.length ≤ left → planner.bounds.Covers hop.trip.index hop.board →
      Promises catalogue hops target left planner

theorem Promises.grows
    {catalogue : Catalogue} {hops : List Hop} {target : Int} {left : Nat}
    {before after : Planner}
    (promises : Promises catalogue hops target left before) (grows : before.Grows after) :
    Promises catalogue hops target left after := by
  cases promises with
  | kept bound => exact .kept (Int.le_trans grows.earliest bound)
  | boarded hop member boarded => exact .boarded hop member (boarded.grows grows)
  | covered front hop rest split few covers =>
      exact .covered front hop rest split few (grows.covers covers)

section Rounds

variable
  {hops : List Hop} {egress : Station} {arrival : ServiceTime} {base left : Nat}
  {now middle after : Planner}

/-- When a round has begun, all rides are noted. -/
theorem Riding.noted_of_hears
    (riding : outing.Riding timetable transfers request day base now)
    (heard : outing.Hears timetable.catalogue transfers base now middle)
    {handle : Nat} {ride : Ride} (found : middle.rides.ride? handle = some ride) :
    ride.Noted timetable.catalogue request middle.bounds := by
  by_cases old : handle < base
  · rw [heard.rides_eq] at found
    exact (riding.noted handle ride old found).grows heard.reach.grows
  · have noted := heard.noted handle ride (Nat.le_of_not_lt old) found
    rw [riding.request_eq] at noted
    exact noted

/-- When a round is done, the rides with which it began are transferred from. -/
theorem Riding.transferred_of_onward
    (riding : outing.Riding timetable transfers request day base now)
    (hearing : outing.Riding timetable transfers request day 0 middle)
    (heard : outing.Hears timetable.catalogue transfers base now middle)
    (onward : outing.Onward timetable.catalogue transfers base middle after)
    {handle : Nat} {ride : Ride} (found : middle.rides.ride? handle = some ride) :
    ride.Transferred timetable.catalogue transfers request after.bounds := by
  by_cases old : handle < base
  · rw [heard.rides_eq] at found
    exact (riding.transferred handle ride old found).grows
      (heard.reach.grows.trans onward.reach.grows)
  · have transferred := onward.transferred handle ride (Nat.le_of_not_lt old) found
    rw [hearing.request_eq] at transferred
    exact transferred

section Firm

variable
  (built : timetable.IsBuilt) (plain : request.IsPlain outing.access)
  (short : ∀ trip ∈ timetable.trips, trip.calls.length ≤ nowhere)
  (firm : Journey.Firm timetable.catalogue transfers request day hops egress arrival)

include built plain short firm

/-- When the rounds are over, the bound is early enough or the search boarded where the
journey leaves a trip. -/
theorem Riding.stops
    (riding : outing.Riding timetable transfers request day base now)
    (reached : outing.Riding timetable transfers request day 0 after)
    (promises : Promises timetable.catalogue hops
      (arrival.seconds.toNat + request.weights.egressCharge egress.walk) left now)
    (heard : outing.Hears timetable.catalogue transfers base now after)
    (ended : left = 0 ∨ now.rides.size ≤ base) :
    after.bounds.earliest ≤
        arrival.seconds.toNat + request.weights.egressCharge egress.walk ∨
      ∃ hop ∈ hops, after.BoardedAt timetable.catalogue hop.trip hop.alight := by
  have grows := heard.reach.grows
  by_cases clear : ∃ hop ∈ hops, after.BoardedAt timetable.catalogue hop.trip hop.alight
  · exact .inr clear
  left
  cases promises.grows grows with
  | kept bound => exact bound
  | boarded hop member boarded => exact absurd ⟨hop, member, boarded⟩ clear
  | covered front hop rest split few covers =>
      rw [split] at firm
      apply firm.suffix.earliest_le built plain short reached.accounted reached.allowed
      · intro handle ride found
        exact riding.noted_of_hears heard found
      · intro changes handle ride found
        -- A hop that changes needs a round, so the search ended for want of rides.
        have noRides := ended.resolve_left fun none =>
          changes (List.length_eq_zero_iff.mp (by omega))
        rw [heard.rides_eq] at found
        have inside := RideStore.lt_size_of_ride? found
        exact (riding.transferred handle ride (by omega) found).grows grows
      · intro other member boarded
        refine clear ⟨other, ?_, boarded⟩
        rw [split]
        exact List.mem_append_right front member
      · exact covers

/-- A round takes the journey one hop further. -/
theorem Riding.goes
    (riding : outing.Riding timetable transfers request day base now)
    (hearing : outing.Riding timetable transfers request day 0 middle)
    (reached : outing.Riding timetable transfers request day 0 after)
    (promises : Promises timetable.catalogue hops
      (arrival.seconds.toNat + request.weights.egressCharge egress.walk) (left + 1) now)
    (heard : outing.Hears timetable.catalogue transfers base now middle)
    (onward : outing.Onward timetable.catalogue transfers base middle after) :
    Promises timetable.catalogue hops
      (arrival.seconds.toNat + request.weights.egressCharge egress.walk) left after := by
  have grows := onward.reach.grows
  cases promises.grows heard.reach.grows with
  | kept bound => exact .kept (Int.le_trans grows.earliest bound)
  | boarded hop member boarded => exact .boarded hop member (boarded.grows grows)
  | covered front hop rest split few covers =>
      have member : hop ∈ hops := by
        rw [split]
        simp
      by_cases boarded : middle.BoardedAt timetable.catalogue hop.trip hop.alight
      · exact .boarded hop member (boarded.grows grows)
      obtain ⟨handle, ride, first, passed, allowed⟩ :=
        hearing.accounted.exists_passing short
          (fun handle ride found => (hearing.allowed handle ride found).2)
          (firm.journey.runs hop member) covers boarded
      have sameDay := (hearing.allowed handle ride passed.ride_eq).1
      rw [split] at firm
      cases rest with
      | nil =>
          have noted := riding.noted_of_hears heard passed.ride_eq
          have bound :=
            passed.earliest_le_of_firm built plain firm.suffix allowed sameDay noted
          exact .kept (Int.le_trans grows.earliest bound)
      | cons next others =>
          have transferred :=
            riding.transferred_of_onward hearing heard onward passed.ride_eq
          have passedAfter :
              after.PassedBy timetable.catalogue hop.trip hop.alight handle ride first :=
            { passed with ride_eq := grows.ride handle ride passed.ride_eq }
          rcases passedAfter.covers_next_of_firm built plain firm.suffix reached.accounted
            allowed sameDay transferred with bound | coversNext
          · exact .kept bound
          · refine .covered (front ++ [hop]) next others ?_ (by simpa using few) coversNext
            rw [split, List.append_assoc]
            rfl

end Firm

/-- After a round the rides of the round are noted and transferred from as well. -/
theorem Riding.next
    (riding : outing.Riding timetable transfers request day base now)
    (hearing : outing.Riding timetable transfers request day 0 middle)
    (reached : outing.Riding timetable transfers request day 0 after)
    (heard : outing.Hears timetable.catalogue transfers base now middle)
    (onward : outing.Onward timetable.catalogue transfers base middle after) :
    outing.Riding timetable transfers request day middle.rides.size after := by
  have grows := onward.reach.grows
  refine { reached with noted := ?_, transferred := ?_ }
  · intro handle ride inside found
    exact (riding.noted_of_hears heard (grows.ride_of_lt inside found)).grows grows
  · intro handle ride inside found
    exact riding.transferred_of_onward hearing heard onward (grows.ride_of_lt inside found)

end Rounds

/-- What a departure makes of a fresh planner is accounted for, and its rides are on
trips that may be ridden on the day. -/
theorem riding_of_reach
    (built : timetable.IsBuilt) (settings : Settings)
    (base_eq : outing.base = 0) (admits_eq : outing.admits = request.admits)
    (sameDay : ∀ station ∈ outing.access, ∀ reached,
      station.localDeparture? outing.departure = some reached → reached.date = day)
    {after : Planner}
    (reach : outing.Reach timetable.catalogue transfers
      (Planner.fresh timetable.catalogue request settings) after) :
    outing.Riding timetable transfers request day 0 after := by
  have traced0 : outing.Traced timetable.catalogue transfers
      (Planner.fresh timetable.catalogue request settings)
      (Planner.fresh timetable.catalogue request settings) :=
    traced_start (Nat.zero_le _)
  have traced := traced0.reach reach
  refine ⟨traced.request_eq, ?_, ?_, ?_, ?_⟩
  · exact accounted_reach built reach
      (Planner.accounted_fresh timetable request settings)
  · intro handle ride found
    obtain ⟨rest, _, chained⟩ :=
      traced.chained handle ride (by rw [base_eq]; exact Nat.zero_le _) found
    have permits : ∀ trip, outing.admits trip = true → request.admits trip = true := by
      intro trip admitted
      rw [← admits_eq]
      exact admitted
    obtain ⟨trip, reached, allowed, local_eq, day_eq⟩ :=
      chained.exists_allowed built permits rfl
    exact ⟨day_eq.trans (sameDay _ allowed.access_mem reached local_eq), trip, allowed⟩
  · intro handle _ impossible
    exact absurd impossible (Nat.not_lt_zero handle)
  · intro handle _ impossible
    exact absurd impossible (Nat.not_lt_zero handle)

/-- What a departure makes of a fresh planner bounds the arrival of a firm journey within the
rounds whose first boarding it covers, unless the search boarded a trip where the journey
leaves it. -/
theorem follows_depart_firm
    (built : timetable.IsBuilt) (plain : request.IsPlain outing.access)
    (short : ∀ trip ∈ timetable.trips, trip.calls.length ≤ nowhere) (settings : Settings)
    (base_eq : outing.base = 0) (admits_eq : outing.admits = request.admits)
    (sameDay : ∀ station ∈ outing.access, ∀ reached,
      station.localDeparture? outing.departure = some reached → reached.date = day)
    {hop : Hop} {rest : List Hop} {egress : Station} {arrival : ServiceTime}
    (firm : Journey.Firm timetable.catalogue transfers request day (hop :: rest) egress arrival)
    (few : rest.length ≤ settings.rounds)
    (begins : ∀ now : Planner, now.Accounted timetable →
      (∀ station ∈ outing.access, outing.Served timetable.catalogue now station) →
      now.bounds.Covers hop.trip.index hop.board) :
    outing.Follows timetable.catalogue transfers
      (Search.depart timetable.catalogue transfers outing.access outing.departure
        outing.admits)
      (Planner.fresh timetable.catalogue request settings)
      (fun _ after =>
        after.bounds.earliest ≤
            arrival.seconds.toNat + request.weights.egressCharge egress.walk ∨
          ∃ other ∈ hop :: rest,
            after.BoardedAt timetable.catalogue other.trip other.alight) := by
  let start := Planner.fresh timetable.catalogue request settings
  have riding : ∀ after, outing.Reach timetable.catalogue transfers start after →
      outing.Riding timetable transfers request day 0 after :=
    fun after => riding_of_reach built settings base_eq admits_eq sameDay
  have base_le : outing.base ≤ 0 := Nat.le_of_eq base_eq
  apply follows_depart_of
  intro now handles reach _ served current
  -- What is kept from round to round.
  let kept (left base : Nat) (now : Planner) : Prop :=
    outing.Reach timetable.catalogue transfers start now ∧
      outing.Riding timetable transfers request day base now ∧
      Promises timetable.catalogue (hop :: rest)
        (arrival.seconds.toNat + request.weights.egressCharge egress.walk) left now
  have first : kept settings.rounds 0 now :=
    ⟨reach, riding now reach,
      .covered [] hop rest rfl few (begins now (riding now reach).accounted served)⟩
  have rounds_eq : start.settings.rounds = settings.rounds := rfl
  rw [rounds_eq]
  apply follows_rounds kept
  · rintro left base before after ⟨reached, rides, promises⟩ heard ended
    exact rides.stops built plain short firm (riding after (reached.trans heard.reach))
      promises heard ended
  · rintro left base before middle after ⟨reached, rides, promises⟩ heard onward
    have hearing := reached.trans heard.reach
    have further := hearing.trans (onward.reach.of_onward (Nat.le_trans base_le (Nat.zero_le _)))
    exact ⟨further, rides.next (riding middle hearing) (riding after further) heard onward,
      rides.goes built plain short firm (riding middle hearing) (riding after further) promises
        heard onward⟩
  · exact current
  · exact base_le
  · exact Nat.le_trans base_le (Nat.zero_le _)
  · exact first

/-- What a departure makes of a fresh planner bounds the arrival of every journey within
the rounds, unless the search boarded a trip where the journey leaves it. -/
theorem follows_depart_fresh
    (orderly : Orderly timetable transfers request outing.access day)
    (departs : timetable.InOrder Call.departure) (once : timetable.CallsOnce) (settings : Settings)
    (base_eq : outing.base = 0) (admits_eq : outing.admits = request.admits)
    (sameDay : ∀ station ∈ outing.access, ∀ reached,
      station.localDeparture? outing.departure = some reached → reached.date = day)
    {hops : List Hop} {egress : Station} {arrival : ServiceTime}
    (takes : outing.Takes timetable.catalogue transfers request day hops egress arrival)
    (few : hops.length ≤ settings.rounds + 1) :
    outing.Follows timetable.catalogue transfers
      (Search.depart timetable.catalogue transfers outing.access outing.departure
        outing.admits)
      (Planner.fresh timetable.catalogue request settings)
      (fun _ after =>
        after.bounds.earliest ≤
            arrival.seconds.toNat + request.weights.egressCharge egress.walk ∨
          ∃ hop ∈ hops, after.BoardedAt timetable.catalogue hop.trip hop.alight) := by
  obtain ⟨hop, station, reached, head, begins⟩ := takes.starts
  obtain ⟨last, last_eq, ends⟩ := takes.ends
  cases hops with
  | nil => cases head
  | cons opening rest =>
      cases head
      have date := sameDay station begins.1 reached begins.2.1
      have runs := takes.journey.runs hop List.mem_cons_self
      rw [← date, ← admits_eq] at runs
      apply follows_depart_firm orderly.built orderly.plain orderly.short settings base_eq
        admits_eq sameDay
      · exact takes.journey.firm_of_orderly orderly last_eq takes.egress_mem ends
      · rw [List.length_cons] at few
        exact Nat.le_of_succ_le_succ few
      · intro now accounted served
        exact covers_first orderly.built departs once accounted (served station begins.1)
          begins runs

end Outing

namespace Planner

/-- A departure of a fresh planner that succeeds is as good as every journey within its
rounds, if no trip was boarded where the journey leaves it or a later one of its
pattern. -/
theorem earliest_le_of_journey
    {plan : NetworkPlan} {network : Network} (built : plan.build = .ok network)
    (arrives : network.timetable.InOrder Call.arrival) (departs : network.timetable.InOrder Call.departure)
    (once : network.timetable.CallsOnce)
    (short : ∀ trip ∈ network.timetable.trips, trip.calls.length ≤ nowhere)
    {request : Request} {access : List Station} (plain : request.IsPlain access)
    {day : Date} (closed : network.transfers.IsClosed network.timetable day request.admits)
    {departure : Instant}
    (sameDay : ∀ station ∈ access, ∀ reached,
      station.localDeparture? departure = some reached → reached.date = day)
    {settings : Settings} {after : Planner}
    (performed :
      (fresh network.timetable.catalogue request settings).perform network.timetable.catalogue
        network.transfers (.depart access departure request.admits) = (.ok (), after))
    {hops : List Hop} {egress : Station} {arrival : ServiceTime}
    (takes : Outing.Takes ⟨access, departure, request.admits, 0⟩ network.timetable.catalogue
      network.transfers request day hops egress arrival)
    (few : hops.length ≤ settings.rounds + 1)
    (clear : ∀ hop ∈ hops,
      ¬ after.BoardedAt network.timetable.catalogue hop.trip hop.alight) :
    after.bounds.earliest ≤
      arrival.seconds.toNat + request.weights.egressCharge egress.walk := by
  have orderly : Orderly network.timetable network.transfers request access day :=
    ⟨Timetable.isBuilt_of_plan built, arrives, short, closed, plain⟩
  have follows :=
    Outing.follows_depart_fresh orderly departs once settings rfl rfl sameDay takes few
  rcases (of_perform_depart follows performed).2 with bound | ⟨hop, member, boarded⟩
  · exact bound
  · exact absurd boarded (clear hop member)

/-- The departure at eight from the origin of a network. -/
def departAtEight (network : Network) : Except RoutingFault Unit × Planner :=
  (fresh network.timetable.catalogue (Sample.request 0) .standard).perform
    network.timetable.catalogue network.transfers
    (.depart [Sample.origin] (Sample.instant 8 0) (Sample.request 0).admits)

theorem isPlain_of_sample : (Sample.request 0).IsPlain [Sample.origin] := by
  apply Request.isPlain_of_neutral
  · rfl
  · decide +kernel

theorem eq_day_of_localDeparture
    (station : Station) (member : station ∈ [Sample.origin]) (reached : LocalTime)
    (local_eq : station.localDeparture? (Sample.instant 8 0) = some reached) :
    reached.date = Sample.day := by
  have known : Sample.origin.localDeparture? (Sample.instant 8 0) = some ⟨Sample.day, 28800⟩ := by
    decide +kernel
  rw [List.mem_singleton.mp member, known] at local_eq
  cases local_eq
  rfl

/-- On the express network the line and the last trip are found. -/
theorem earliest_le_of_express :
    (departAtEight Sample.express).1 = .ok () ∧
      (departAtEight Sample.express).2.bounds.earliest ≤
        (Sample.clock 8 50).seconds.toNat +
          (Sample.request 0).weights.egressCharge Sample.target.walk := by
  have alone : ∀ first ∈ Sample.express.timetable.trips,
      ∀ second ∈ Sample.express.timetable.trips,
        first.Precedes second → first = second := by decide +kernel
  have once : Sample.express.timetable.CallsOnce := by
    unfold Timetable.CallsOnce
    decide +kernel
  have short : ∀ trip ∈ Sample.express.timetable.trips, trip.calls.length ≤ nowhere := by
    decide +kernel
  have built : Sample.expressPlan.build = .ok Sample.express := by decide +kernel
  have succeeded : (departAtEight Sample.express).1 = .ok () := by decide +kernel
  have takes :
      Outing.Takes ⟨[Sample.origin], Sample.instant 8 0, (Sample.request 0).admits, 0⟩
        Sample.express.timetable.catalogue Sample.express.transfers (Sample.request 0)
        Sample.day (Sample.hopsOf Sample.express [(1, 0, 2), (2, 0, 1)]) Sample.target
        (Sample.clock 8 50) := by decide +kernel
  have few :
      (Sample.hopsOf Sample.express [(1, 0, 2), (2, 0, 1)]).length ≤
        Settings.standard.rounds + 1 := by decide +kernel
  have clear : ∀ hop ∈ Sample.hopsOf Sample.express [(1, 0, 2), (2, 0, 1)],
      ¬ (departAtEight Sample.express).2.BoardedAt Sample.express.timetable.catalogue
        hop.trip hop.alight := by decide +kernel
  refine ⟨succeeded, ?_⟩
  have performed : departAtEight Sample.express = (.ok (), (departAtEight Sample.express).2) := by
    rw [← succeeded]
  unfold departAtEight at performed clear ⊢
  exact earliest_le_of_journey built (Timetable.inOrder_of_alone alone _)
    (Timetable.inOrder_of_alone alone _) once short isPlain_of_sample
    (TransferTable.isClosed_of_alone _ alone Sample.day _) eq_day_of_localDeparture
    performed takes few clear

/-- On the crossing network the slow trip leads to the line first, at its second call.
The ride from the quick trip goes up to that call only and cannot be left there, so that
the last trip is not found, though a journey takes it. -/
theorem arrival_lt_earliest_of_crossing :
    let network := Sample.crossing
    let request := Sample.request 0
    let hops := Sample.hopsOf network [(1, 0, 1), (2, 0, 1), (3, 0, 1)]
    Sample.crossingPlan.build = .ok network ∧
      network.timetable.InOrder Call.arrival ∧ network.timetable.InOrder Call.departure ∧
      network.timetable.CallsOnce ∧ request.IsPlain [Sample.origin] ∧
      network.transfers.IsClosed network.timetable Sample.day request.admits ∧
      (departAtEight network).1 = .ok () ∧
      Outing.Takes ⟨[Sample.origin], Sample.instant 8 0, request.admits, 0⟩
        network.timetable.catalogue network.transfers request Sample.day hops Sample.target
        (Sample.clock 8 20) ∧
      hops.length ≤ Settings.standard.rounds + 1 ∧
      (Sample.clock 8 20).seconds.toNat +
          request.weights.egressCharge Sample.target.walk <
        (departAtEight network).2.bounds.earliest := by
  intro network request hops
  have alone : ∀ first ∈ network.timetable.trips, ∀ second ∈ network.timetable.trips,
      first.Precedes second → first = second := by decide +kernel
  have once : network.timetable.CallsOnce := by
    unfold Timetable.CallsOnce
    decide +kernel
  refine ⟨by decide +kernel, Timetable.inOrder_of_alone alone _,
    Timetable.inOrder_of_alone alone _, once, isPlain_of_sample,
    TransferTable.isClosed_of_alone _ alone _ _, ?_, ?_, ?_, ?_⟩
  · decide +kernel
  · decide +kernel
  · decide +kernel
  · decide +kernel

end Planner

end Transit
