import Transit.Proofs.Journey.Account
import Transit.Proofs.Journey.Held
import Transit.Proofs.Search.Coverage

/-!
# Trips that stand in

Where a journey rides a trip, a search may ride an earlier trip of the pattern instead,
which then stands in for it.  This does no harm as long as the journey can go on from there,
and if it is no later in the end.  Only the last arrival counts: a search that gives up a
ride for a bound that the ride does not beat has a bound that is no later than all that the
stand-ins would have led to.
-/

namespace Transit

/-- Walks to these stations and changes are not charged for, and no walk from an egress
station is rewarded. -/
structure Request.IsPlain (request : Request) (access : List Station) : Prop where
  access_eq : ∀ station ∈ access, request.weights.accessCharge station.walk = 0
  change_eq : ∀ changes, request.weights.changeCharge changes = 0
  egress_nonneg : ∀ station ∈ request.egress, 0 ≤ request.weights.egressCharge station.walk

theorem Request.isPlain_of_neutral
    {request : Request} (access : List Station) (weights : request.weights = .neutral)
    (nonneg : ∀ station ∈ request.egress,
      0 ≤ request.weights.egressCharge station.walk) :
    request.IsPlain access where
  access_eq station _ := by rw [weights, Weights.accessCharge_neutral]
  change_eq changes := by rw [weights, Weights.changeCharge_neutral]
  egress_nonneg := nonneg

/-- A ride on a trip that may be ridden, from one of the stations. -/
structure Ride.Allowed
    (ride : Ride) (catalogue : Catalogue) (request : Request) (access : List Station)
    (trip : Trip) : Prop where
  trip_eq : catalogue.trip? ride.board.trip = some trip
  active : trip.service.activeOn ride.serviceDay = true
  admitted : request.admits trip = true
  access_mem : ride.access ∈ access

namespace Ride

variable
  {ride : Ride} {timetable : Timetable} {transfers : TransferTable} {request : Request}
  {access : List Station} {trip : Trip}

theorem arrivalAt_eq
    (plain : request.IsPlain access) (allowed : ride.Allowed timetable.catalogue request access trip)
    (call : Call) :
    Search.arrivalAt request ride call = call.arrival.seconds.toNat := by
  rw [Search.arrivalAt, plain.access_eq _ allowed.access_mem, plain.change_eq, Int.add_zero,
    Int.add_zero]

theorem arrivalSum_eq
    (plain : request.IsPlain access) (allowed : ride.Allowed timetable.catalogue request access trip)
    (call : Call) (egress : Station) :
    Outing.arrivalSum request ride call egress =
      call.arrival.seconds.toNat + request.weights.egressCharge egress.walk := by
  rw [Outing.arrivalSum, arrivalAt_eq plain allowed]

/-- The calls at which a ride can be left stand in the order of their places. -/
theorem pairwise_alightings (ride : Ride) (trip : Trip) :
    (ride.alightings trip).Pairwise fun first second => first.2 < second.2 := by
  have whole : trip.calls.zipIdx.Pairwise fun first second => first.2 < second.2 := by
    rw [← List.pairwise_map (f := Prod.snd) (R := (· < ·)), List.zipIdx_map_snd]
    exact List.pairwise_lt_range'
  exact (whole.sublist (List.take_sublist _ _)).sublist (List.drop_sublist _ _)

/-- A ride that is transferred from is transferred from at every call at which it can be
left, unless the bound is no later than the arrival there. -/
theorem Transferred.continued
    (built : timetable.IsBuilt) {bounds : Bounds}
    (transferred : ride.Transferred timetable.catalogue transfers request bounds)
    (found : timetable.catalogue.trip? ride.board.trip = some trip)
    {call : Call} {place : Nat} (alighting : (call, place) ∈ ride.alightings trip) :
    bounds.earliest ≤ Search.arrivalAt request ride call ∨
      ride.Continued timetable.catalogue transfers request call ⟨trip.index, place⟩
        (transfers.destinations ride.serviceDay ⟨trip.index, place⟩) bounds := by
  obtain ⟨front, back, split, continued, reached⟩ := transferred trip found
  rw [split] at alighting
  rcases List.mem_append.mp alighting with inFront | inBack
  · exact .inr (continued call place inFront)
  · cases back with
    | nil => cases inBack
    | cons first rest =>
        obtain ⟨stopped, stoppedPlace⟩ := first
        have bound := reached stopped stoppedPlace rfl
        have ordered := ride.pairwise_alightings trip
        rw [split, List.pairwise_append, List.pairwise_cons] at ordered
        have order : stoppedPlace ≤ place := by
          rcases List.mem_cons.mp inBack with same | later
          · cases same
            exact Nat.le_refl _
          · exact Nat.le_of_lt (ordered.2.1.1 _ later)
        have known : ∀ call place, (call, place) ∈ (stopped, stoppedPlace) :: rest →
            trip.calls[place]? = some call := by
          intro call place member
          have listed : (call, place) ∈ ride.alightings trip := by
            rw [split]
            exact List.mem_append_right front member
          exact ((ride.mem_alightings trip call place).mp listed).1
        have sound := built.sound trip (Timetable.IsBuilt.mem_of_trip? found)
        have times := sound.arrival_le_arrival (known _ _ List.mem_cons_self)
          (known call place inBack) order
        left
        refine Int.le_trans bound ?_
        unfold Search.arrivalAt
        omega

end Ride

/-- An earlier trip of the pattern, or the trip itself, may be ridden on the day. -/
structure Trip.StandsIn
    (first : Trip) (catalogue : Catalogue) (day : Date) (admits : Trip → Bool) (hop : Hop) :
    Prop where
  found : catalogue.trip? first.index = some first
  precedes : first.Precedes hop.trip
  active : first.service.activeOn day = true
  admitted : admits first = true

/-- After an arrival at a position, a hop can begin on its trip, or on an earlier one of the
pattern, by a transfer of the day. -/
def Hop.IsMet
    (hop : Hop) (catalogue : Catalogue) (transfers : TransferTable) (day : Date)
    (admits : Trip → Bool) (origin : Position) (arrival : ServiceTime) : Prop :=
  ∃ trip boarding, catalogue.trip? trip.index = some trip ∧ trip.Precedes hop.trip ∧
    ⟨trip.index, hop.board⟩ ∈ transfers.destinations day origin ∧
    trip.calls[hop.board]? = some boarding ∧ arrival ≤ boarding.departure ∧
    trip.service.activeOn day = true ∧ admits trip = true

namespace Hop

/-- A trip that stands in for a hop arrives later than the hop does. -/
def IsOvertaken
    (hop : Hop) (catalogue : Catalogue) (day : Date) (admits : Trip → Bool) : Prop :=
  ∃ (first : Trip) (call other : Call), first.StandsIn catalogue day admits hop ∧
    first.calls[hop.alight]? = some call ∧ hop.trip.calls[hop.alight]? = some other ∧
    other.arrival < call.arrival

/-- From a trip that stands in for a hop no transfer leads on in time, neither to the next
trip nor to one that stands in for that. -/
def IsParted
    (hop next : Hop) (catalogue : Catalogue) (transfers : TransferTable) (day : Date)
    (admits : Trip → Bool) : Prop :=
  ∃ (first : Trip) (call : Call), first.StandsIn catalogue day admits hop ∧
    first.calls[hop.alight]? = some call ∧
    ¬ next.IsMet catalogue transfers day admits ⟨first.index, hop.alight⟩ call.arrival

end Hop

namespace Journey

/-- A journey that is as good with any trips that stand in for its own. -/
structure Firm
    (catalogue : Catalogue) (transfers : TransferTable) (request : Request) (day : Date)
    (hops : List Hop) (egress : Station) (arrival : ServiceTime) : Prop where
  journey : Journey catalogue transfers day request.admits hops
  joined : hops.IsChain fun hop next =>
    ¬ hop.IsParted next catalogue transfers day request.admits
  egress_mem : egress ∈ request.egress
  ends : ∃ last, hops.getLast? = some last ∧ last.EndsAt egress arrival ∧
    ¬ last.IsOvertaken catalogue day request.admits

variable
  {timetable : Timetable} {transfers : TransferTable} {request : Request} {day : Date}
  {hop next : Hop} {rest : List Hop} {egress : Station} {arrival : ServiceTime}
  {first : Trip} {planner : Planner}

theorem Firm.suffix
    {catalogue : Catalogue} {front : List Hop}
    (firm : Firm catalogue transfers request day (front ++ hop :: rest) egress arrival) :
    Firm catalogue transfers request day (hop :: rest) egress arrival where
  journey :=
    { runs := fun other member => firm.journey.runs other (List.mem_append_right front member)
      meets := firm.journey.meets.right_of_append }
  joined := firm.joined.right_of_append
  egress_mem := firm.egress_mem
  ends := by
    obtain ⟨last, last_eq, ends⟩ := firm.ends
    rw [List.getLast?_append_of_ne_nil _ (List.cons_ne_nil hop rest)] at last_eq
    exact ⟨last, last_eq, ends⟩

theorem Firm.tail
    {catalogue : Catalogue}
    (firm : Firm catalogue transfers request day (hop :: next :: rest) egress arrival) :
    Firm catalogue transfers request day (next :: rest) egress arrival := by
  rw [← List.singleton_append] at firm
  exact firm.suffix

/-- From a trip that stands in for a hop of a firm journey the journey goes on. -/
theorem Firm.isMet
    {catalogue : Catalogue}
    (firm : Firm catalogue transfers request day (hop :: next :: rest) egress arrival)
    (standsIn : first.StandsIn catalogue day request.admits hop)
    {call : Call} (called : first.calls[hop.alight]? = some call) :
    next.IsMet catalogue transfers day request.admits ⟨first.index, hop.alight⟩
      call.arrival := by
  by_contra apart
  exact (List.isChain_cons_cons.mp firm.joined).1 ⟨first, call, standsIn, called, apart⟩

/-- A trip that stands in for the last hop of a firm journey is there no later. -/
theorem Firm.arrival_le
    {catalogue : Catalogue}
    (firm : Firm catalogue transfers request day [hop] egress arrival)
    (standsIn : first.StandsIn catalogue day request.admits hop)
    {call : Call} (called : first.calls[hop.alight]? = some call) :
    call.arrival.seconds.toNat ≤ arrival.seconds.toNat := by
  obtain ⟨last, last_eq, ⟨other, otherCalled, _, rfl⟩, ordered⟩ := firm.ends
  have same : hop = last := by simpa using last_eq
  subst same
  by_contra later
  have overtaken : other.arrival < call.arrival := by
    rw [ServiceTime.lt_iff]
    exact Nat.lt_of_not_le later
  exact ordered ⟨first, call, other, standsIn, called, otherCalled, overtaken⟩

/-- Of a trip that stands in for a hop both calls are known. -/
theorem Firm.exists_calls
    (built : timetable.IsBuilt)
    (firm : Firm timetable.catalogue transfers request day (hop :: rest) egress arrival)
    (standsIn : first.StandsIn timetable.catalogue day request.admits hop) :
    ∃ boarding call, first.calls[hop.board]? = some boarding ∧
      first.calls[hop.alight]? = some call ∧
      boarding.departure.seconds.toNat ≤ call.arrival.seconds.toNat := by
  have runs := firm.journey.runs hop List.mem_cons_self
  have firstMember := Timetable.IsBuilt.mem_of_trip? standsIn.found
  have within : hop.alight < first.calls.length := by
    rw [built.length_eq_of_precedes firstMember (Timetable.IsBuilt.mem_of_trip? runs.found)
      standsIn.precedes]
    exact runs.within
  have called := List.getElem?_eq_getElem within
  have boarded := List.getElem?_eq_getElem (runs.forward.trans within)
  have rides := (built.sound first firstMember).departure_le_arrival boarded called runs.forward
  exact ⟨_, _, boarded, called, rides⟩

/-- Wherever a trip that stands in for a hop of a firm journey leaves, it leaves no later
than the journey ends. -/
theorem Firm.departure_le
    (built : timetable.IsBuilt)
    (firm : Firm timetable.catalogue transfers request day (hop :: rest) egress arrival)
    (standsIn : first.StandsIn timetable.catalogue day request.admits hop)
    {boarding : Call} (boarded : first.calls[hop.board]? = some boarding) :
    boarding.departure.seconds.toNat ≤ arrival.seconds.toNat := by
  induction rest generalizing hop first boarding with
  | nil =>
      obtain ⟨known, call, knownAt, called, rides⟩ := firm.exists_calls built standsIn
      rw [boarded] at knownAt
      cases knownAt
      exact rides.trans (firm.arrival_le standsIn called)
  | cons next others hypothesis =>
      obtain ⟨known, call, knownAt, called, rides⟩ := firm.exists_calls built standsIn
      rw [boarded] at knownAt
      cases knownAt
      obtain ⟨sooner, departing, found, precedes, _, departs, inTime, active, admitted⟩ :=
        firm.isMet standsIn called
      have further := hypothesis firm.tail ⟨found, precedes, active, admitted⟩ departs
      rw [ServiceTime.le_iff] at inTime
      omega

end Journey

namespace Planner

variable
  {planner : Planner} {timetable : Timetable} {transfers : TransferTable}
  {request : Request} {access : List Station} {day : Date} {admits : Trip → Bool} {hop next : Hop}
  {rest : List Hop} {egress : Station} {arrival : ServiceTime} {handle : Nat} {ride : Ride}
  {first : Trip}

/-- Some ride passes the place at which a hop ends, if its boarding is covered and no
trip was boarded at that place. -/
theorem Accounted.passes
    (accounted : planner.Accounted timetable)
    (short : ∀ trip ∈ timetable.trips, trip.calls.length ≤ nowhere)
    (runs : hop.Runs timetable.catalogue day admits)
    (covers : planner.bounds.Covers hop.trip.index hop.board)
    (clear : ¬ planner.BoardedAt timetable.catalogue hop.trip hop.alight) :
    planner.Passes timetable.catalogue hop.trip hop.alight := by
  obtain ⟨limit, limitAt, reached⟩ := covers
  have member := Timetable.IsBuilt.mem_of_trip? runs.found
  have forward := runs.forward
  have within := runs.within
  have bounded := short hop.trip member
  exact (accounted.passed hop.trip member limit limitAt hop.alight (by omega)
    (by omega)).resolve_right clear

/-- Some ride that may be ridden takes the place of a hop, if its boarding is covered and
no trip was boarded where it ends. -/
theorem Accounted.exists_passing
    (accounted : planner.Accounted timetable)
    (short : ∀ trip ∈ timetable.trips, trip.calls.length ≤ nowhere)
    (allowed : ∀ handle ride, planner.rides.ride? handle = some ride →
      ∃ trip, ride.Allowed timetable.catalogue request access trip)
    (runs : hop.Runs timetable.catalogue day admits)
    (covers : planner.bounds.Covers hop.trip.index hop.board)
    (clear : ¬ planner.BoardedAt timetable.catalogue hop.trip hop.alight) :
    ∃ handle ride first,
      planner.PassedBy timetable.catalogue hop.trip hop.alight handle ride first ∧
        ride.Allowed timetable.catalogue request access first := by
  obtain ⟨handle, ride, first, passed⟩ := accounted.passes short runs covers clear
  obtain ⟨trip, permitted⟩ := allowed handle ride passed.ride_eq
  have same := permitted.trip_eq
  rw [passed.trip_eq] at same
  cases same
  exact ⟨handle, ride, first, passed, permitted⟩

/-- A ride that passes the place at which a hop ends can be left there. -/
theorem PassedBy.exists_call
    (built : timetable.IsBuilt)
    (passed : planner.PassedBy timetable.catalogue hop.trip hop.alight handle ride first)
    (runs : hop.Runs timetable.catalogue day admits) :
    ∃ call, (call, hop.alight) ∈ ride.alightings first ∧
      first.calls[hop.alight]? = some call := by
  have firstMember := Timetable.IsBuilt.mem_of_trip? passed.trip_eq
  have member := Timetable.IsBuilt.mem_of_trip? runs.found
  have inside : hop.alight < first.calls.length := by
    rw [built.length_eq_of_precedes firstMember member passed.precedes]
    exact runs.within
  have firstCalled := List.getElem?_eq_getElem inside
  refine ⟨first.calls[hop.alight], ?_, firstCalled⟩
  rw [Ride.mem_alightings]
  exact ⟨firstCalled, passed.after_board, passed.before_limit⟩

/-- A ride of the day that takes the place of a hop is on a trip that stands in for it. -/
theorem PassedBy.standsIn
    (built : timetable.IsBuilt)
    (passed : planner.PassedBy timetable.catalogue hop.trip hop.alight handle ride first)
    (allowed : ride.Allowed timetable.catalogue request access first)
    (sameDay : ride.serviceDay = day) :
    first.StandsIn timetable.catalogue day request.admits hop where
  found := built.trip?_index (Timetable.IsBuilt.mem_of_trip? passed.trip_eq)
  precedes := passed.precedes
  active := by
    rw [← sameDay]
    exact allowed.active
  admitted := allowed.admitted

/-- A noted ride that takes the place of the last hop of a journey bounds the arrival there
by its own. -/
theorem PassedBy.exists_arrival
    (built : timetable.IsBuilt) (plain : request.IsPlain access)
    (passed : planner.PassedBy timetable.catalogue hop.trip hop.alight handle ride first)
    (allowed : ride.Allowed timetable.catalogue request access first)
    (noted : ride.Noted timetable.catalogue request planner.bounds)
    (runs : hop.Runs timetable.catalogue day admits) (egress_mem : egress ∈ request.egress)
    (ends : hop.EndsAt egress arrival) :
    ∃ call, first.calls[hop.alight]? = some call ∧
      planner.bounds.earliest ≤
        call.arrival.seconds.toNat + request.weights.egressCharge egress.walk := by
  obtain ⟨other, otherCalled, named, _⟩ := ends
  obtain ⟨call, alighting, called⟩ := passed.exists_call built runs
  obtain ⟨feed, stop⟩ :=
    built.stop_eq_of_precedes (Timetable.IsBuilt.mem_of_trip? passed.trip_eq)
      (Timetable.IsBuilt.mem_of_trip? runs.found) passed.precedes called otherCalled
  have namedFirst : egress.stop.isNamed first.feed call.stop = true := by
    rw [feed, stop]
    exact named
  have bound := noted first passed.trip_eq call hop.alight alighting egress egress_mem namedFirst
  have sum := Outing.arrival_le_arrivalSum (plain.egress_nonneg egress egress_mem) ride call
  rw [Ride.arrivalSum_eq plain allowed] at sum
  exact ⟨call, called, Int.le_trans bound sum⟩

theorem PassedBy.earliest_le_of_firm
    (built : timetable.IsBuilt) (plain : request.IsPlain access)
    (firm : Journey.Firm timetable.catalogue transfers request day [hop] egress arrival)
    (passed : planner.PassedBy timetable.catalogue hop.trip hop.alight handle ride first)
    (allowed : ride.Allowed timetable.catalogue request access first)
    (sameDay : ride.serviceDay = day)
    (noted : ride.Noted timetable.catalogue request planner.bounds) :
    planner.bounds.earliest ≤
      arrival.seconds.toNat + request.weights.egressCharge egress.walk := by
  obtain ⟨last, last_eq, ends, _⟩ := firm.ends
  have same : hop = last := by simpa using last_eq
  subst same
  obtain ⟨call, called, bound⟩ := passed.exists_arrival built plain allowed noted
    (firm.journey.runs hop List.mem_cons_self) firm.egress_mem ends
  have sooner := firm.arrival_le (passed.standsIn built allowed sameDay) called
  omega

/-- After a ride that takes the place of a hop of a firm journey was transferred from, the
next hop is covered, unless the bound is no later than the journey. -/
theorem PassedBy.covers_next_of_firm
    (built : timetable.IsBuilt) (plain : request.IsPlain access)
    (firm : Journey.Firm timetable.catalogue transfers request day (hop :: next :: rest)
      egress arrival)
    (accounted : planner.Accounted timetable)
    (passed : planner.PassedBy timetable.catalogue hop.trip hop.alight handle ride first)
    (allowed : ride.Allowed timetable.catalogue request access first)
    (sameDay : ride.serviceDay = day)
    (transferred : ride.Transferred timetable.catalogue transfers request planner.bounds) :
    planner.bounds.earliest ≤
        arrival.seconds.toNat + request.weights.egressCharge egress.walk ∨
      planner.bounds.Covers next.trip.index next.board := by
  have standsIn := passed.standsIn built allowed sameDay
  obtain ⟨call, alighting, called⟩ :=
    passed.exists_call built (firm.journey.runs hop List.mem_cons_self)
  obtain ⟨sooner, departing, found, precedes, listed, departs, inTime, active, admitted⟩ :=
    firm.isMet standsIn called
  have soonerMember := Timetable.IsBuilt.mem_of_trip? found
  rcases transferred.continued built passed.trip_eq alighting with bound | continued
  · left
    have leaves := firm.tail.departure_le built ⟨found, precedes, active, admitted⟩ departs
    have charge := plain.egress_nonneg egress firm.egress_mem
    rw [Ride.arrivalAt_eq plain allowed] at bound
    rw [ServiceTime.le_iff] at inTime
    omega
  · right
    have nextMember :=
      Timetable.IsBuilt.mem_of_trip? (firm.journey.runs next (by simp)).found
    apply accounted.covers_of_precedes built soonerMember nextMember precedes
    rw [← sameDay] at listed active
    exact continued ⟨sooner.index, next.board⟩ listed listed sooner departing found departs
      inTime active admitted (built.grouped.inside sooner soonerMember)

end Planner

namespace Journey

variable
  {planner : Planner} {timetable : Timetable} {transfers : TransferTable} {request : Request}
  {access : List Station} {day : Date} {hop : Hop} {rest : List Hop} {egress : Station}
  {arrival : ServiceTime}

/-- A planner that covers the first boarding of a firm journey is as good as the journey, if
the rides that take the place of its hops are transferred from, those that take the place of
the last hop are as good, and no trip was boarded where the journey leaves it. -/
theorem Firm.earliest_le_of_ready
    (built : timetable.IsBuilt) (plain : request.IsPlain access)
    (short : ∀ trip ∈ timetable.trips, trip.calls.length ≤ nowhere)
    (accounted : planner.Accounted timetable)
    (allowed : ∀ handle ride, planner.rides.ride? handle = some ride →
      ∃ trip, ride.Allowed timetable.catalogue request access trip)
    (firm : Firm timetable.catalogue transfers request day (hop :: rest) egress arrival)
    (clear : ∀ other ∈ hop :: rest,
      ¬ planner.BoardedAt timetable.catalogue other.trip other.alight)
    (ready : ∀ other ∈ (hop :: rest).dropLast, ∀ handle ride first,
      planner.PassedBy timetable.catalogue other.trip other.alight handle ride first →
        ride.serviceDay = day ∧
          ride.Transferred timetable.catalogue transfers request planner.bounds)
    (lands : ∀ last, (hop :: rest).getLast? = some last → ∀ handle ride first,
      planner.PassedBy timetable.catalogue last.trip last.alight handle ride first →
        ride.Allowed timetable.catalogue request access first →
        planner.bounds.earliest ≤
          arrival.seconds.toNat + request.weights.egressCharge egress.walk)
    (covers : planner.bounds.Covers hop.trip.index hop.board) :
    planner.bounds.earliest ≤
      arrival.seconds.toNat + request.weights.egressCharge egress.walk := by
  induction rest generalizing hop with
  | nil =>
      obtain ⟨handle, ride, first, passed, permitted⟩ :=
        accounted.exists_passing short allowed (firm.journey.runs hop List.mem_cons_self) covers
          (clear hop List.mem_cons_self)
      exact lands hop rfl handle ride first passed permitted
  | cons next others hypothesis =>
      obtain ⟨handle, ride, first, passed, permitted⟩ :=
        accounted.exists_passing short allowed (firm.journey.runs hop List.mem_cons_self) covers
          (clear hop List.mem_cons_self)
      obtain ⟨sameDay, transferred⟩ := ready hop (by simp) handle ride first passed
      rcases passed.covers_next_of_firm built plain firm accounted permitted sameDay
        transferred with bound | coversNext
      · exact bound
      · apply hypothesis firm.tail
        · intro other member
          exact clear other (List.mem_cons_of_mem hop member)
        · intro other member
          apply ready other
          rw [List.dropLast_cons_cons]
          exact List.mem_cons_of_mem hop member
        · intro last last_eq
          apply lands last
          rw [List.getLast?_cons_cons]
          exact last_eq
        · exact coversNext

/-- A planner that has noted its rides of the day and transferred from them is as good as
every firm journey whose first boarding it covers, if it boarded no trip where the journey
leaves it. -/
theorem Firm.earliest_le
    (built : timetable.IsBuilt) (plain : request.IsPlain access)
    (short : ∀ trip ∈ timetable.trips, trip.calls.length ≤ nowhere)
    (accounted : planner.Accounted timetable)
    (allowed : ∀ handle ride, planner.rides.ride? handle = some ride →
      ride.serviceDay = day ∧ ∃ trip, ride.Allowed timetable.catalogue request access trip)
    (noted : ∀ handle ride, planner.rides.ride? handle = some ride →
      ride.Noted timetable.catalogue request planner.bounds)
    (transferred : rest ≠ [] → ∀ handle ride, planner.rides.ride? handle = some ride →
      ride.Transferred timetable.catalogue transfers request planner.bounds)
    (firm : Firm timetable.catalogue transfers request day (hop :: rest) egress arrival)
    (clear : ∀ other ∈ hop :: rest,
      ¬ planner.BoardedAt timetable.catalogue other.trip other.alight)
    (covers : planner.bounds.Covers hop.trip.index hop.board) :
    planner.bounds.earliest ≤
      arrival.seconds.toNat + request.weights.egressCharge egress.walk := by
  apply firm.earliest_le_of_ready built plain short accounted
    (fun handle ride found => (allowed handle ride found).2) clear ?_ ?_ covers
  · intro other member handle ride first passed
    have some : rest ≠ [] := by
      rintro rfl
      cases member
    exact ⟨(allowed handle ride passed.ride_eq).1, transferred some handle ride passed.ride_eq⟩
  · intro last last_eq handle ride first passed permitted
    obtain ⟨front, split⟩ := List.getLast?_eq_some_iff.mp last_eq
    rw [split] at firm
    exact passed.earliest_le_of_firm built plain firm.suffix permitted
      (allowed handle ride passed.ride_eq).1 (noted handle ride passed.ride_eq)

end Journey

end Transit
