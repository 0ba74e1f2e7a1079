import Transit.Proofs.Journey.StandIn

/-!
# Rides that take the place of a journey

Where the trips of a pattern run in order and transfers can be made from earlier trips
as well, a ride on an earlier trip of the pattern is as good as the ride of a journey.
A planner whose rides are noted and transferred from therefore has a bound no later than
the arrival of every journey that begins with a covered boarding, provided that some
ride passes every place at which the journey leaves a trip.
-/

namespace Transit

/-- Of two trips of a pattern the later one is nowhere earlier, by the given time of a
call. -/
def Timetable.InOrder (timetable : Timetable) (time : Call → ServiceTime) : Prop :=
  ∀ first ∈ timetable.trips, ∀ second ∈ timetable.trips, first.Precedes second →
    ∀ (place : Nat) (call other : Call), first.calls[place]? = some call →
      second.calls[place]? = some other → time call ≤ time other

/-- Calls at one place are found side by side. -/
instance (timetable : Timetable) (time : Call → ServiceTime) :
    Decidable (timetable.InOrder time) :=
  decidable_of_iff
    (∀ first ∈ timetable.trips, ∀ second ∈ timetable.trips, first.Precedes second →
      ∀ pair ∈ first.calls.zip second.calls, time pair.1 ≤ time pair.2) <| by
    constructor
    · intro ordered first firstMember second secondMember precedes place call other called
        otherCalled
      apply ordered first firstMember second secondMember precedes (call, other)
      exact List.mem_iff_getElem?.mpr
        ⟨place, List.getElem?_zip_eq_some.mpr ⟨called, otherCalled⟩⟩
    · rintro ordered first firstMember second secondMember precedes ⟨call, other⟩ member
      obtain ⟨place, found⟩ := List.mem_iff_getElem?.mp member
      obtain ⟨called, otherCalled⟩ := List.getElem?_zip_eq_some.mp found
      exact ordered first firstMember second secondMember precedes place call other called
        otherCalled

/-- Wherever a later trip of a pattern can be left for another pattern, an earlier trip
can be left for a trip of that pattern that is no later. -/
def TransferTable.IsClosed
    (transfers : TransferTable) (timetable : Timetable) (day : Date) (admits : Trip → Bool) :
    Prop :=
  ∀ early ∈ timetable.trips, ∀ late ∈ timetable.trips, ∀ next ∈ timetable.trips,
    early.Precedes late → early ≠ late →
    early.service.activeOn day = true → admits early = true →
    ∀ (place board : Nat) (call : Call),
      ⟨next.index, board⟩ ∈ transfers.destinations day ⟨late.index, place⟩ →
      early.calls[place]? = some call →
      ∃ sooner ∈ timetable.trips, ∃ boarding : Call, sooner.Precedes next ∧
        sooner.service.activeOn day = true ∧ admits sooner = true ∧
        ⟨sooner.index, board⟩ ∈ transfers.destinations day ⟨early.index, place⟩ ∧
        sooner.calls[board]? = some boarding ∧ call.arrival ≤ boarding.departure

/-- Where every pattern has one trip only, its trips are in order. -/
theorem Timetable.inOrder_of_alone
    {timetable : Timetable}
    (alone : ∀ first ∈ timetable.trips, ∀ second ∈ timetable.trips,
      first.Precedes second → first = second)
    (time : Call → ServiceTime) : timetable.InOrder time := by
  intro first firstMember second secondMember precedes place call other called otherCalled
  rw [alone first firstMember second secondMember precedes, otherCalled] at called
  cases called
  exact (ServiceTime.le_iff _ _).mpr (Nat.le_refl _)

/-- Where every pattern has one trip only, there are no earlier trips to transfer from. -/
theorem TransferTable.isClosed_of_alone
    {timetable : Timetable} (transfers : TransferTable)
    (alone : ∀ first ∈ timetable.trips, ∀ second ∈ timetable.trips,
      first.Precedes second → first = second)
    (day : Date) (admits : Trip → Bool) : transfers.IsClosed timetable day admits := by
  intro early earlyMember late lateMember _ _ precedes different
  exact absurd (alone early earlyMember late lateMember precedes) different

/-- The data of a search whose rides take the place of journeys: the trips of a pattern
run in order and have no more calls than a boundary tells apart, earlier trips can be
transferred from as well, and only the walk at the end of a journey is charged for. -/
structure Orderly
    (timetable : Timetable) (transfers : TransferTable) (request : Request)
    (access : List Station) (day : Date) : Prop where
  built : timetable.IsBuilt
  arrives : timetable.InOrder Call.arrival
  short : ∀ trip ∈ timetable.trips, trip.calls.length ≤ nowhere
  closed : transfers.IsClosed timetable day request.admits
  plain : request.IsPlain access

namespace Planner

variable
  {planner : Planner} {timetable : Timetable} {transfers : TransferTable}
  {request : Request} {access : List Station} {day : Date} {admits : Trip → Bool} {hop : Hop}

/-- Where trips arrive in order, a noted ride that takes the place of the last hop of a
journey bounds the arrival. -/
theorem PassedBy.earliest_le
    (orderly : Orderly timetable transfers request access day)
    {handle : Nat} {ride : Ride} {first : Trip}
    (passed : planner.PassedBy timetable.catalogue hop.trip hop.alight handle ride first)
    (allowed : ride.Allowed timetable.catalogue request access first)
    (noted : ride.Noted timetable.catalogue request planner.bounds)
    (runs : hop.Runs timetable.catalogue day admits)
    {egress : Station} {arrival : ServiceTime} (egress_mem : egress ∈ request.egress)
    (ends : hop.EndsAt egress arrival) :
    planner.bounds.earliest ≤
      arrival.seconds.toNat + request.weights.egressCharge egress.walk := by
  obtain ⟨call, called, bound⟩ := passed.exists_arrival orderly.built orderly.plain allowed
    noted runs egress_mem ends
  obtain ⟨other, otherCalled, _, rfl⟩ := ends
  have sooner := orderly.arrives first (Timetable.IsBuilt.mem_of_trip? passed.trip_eq) hop.trip
    (Timetable.IsBuilt.mem_of_trip? runs.found) passed.precedes hop.alight call other called
    otherCalled
  rw [ServiceTime.le_iff] at sooner
  omega

end Planner

namespace Journey

variable
  {planner : Planner} {timetable : Timetable} {transfers : TransferTable}
  {request : Request} {access : List Station} {day : Date} {hop : Hop} {rest hops : List Hop}

/-- A journey goes on from every trip that stands in for a hop, if transfers can be made
from earlier trips as well. -/
theorem isMet_of_orderly
    (orderly : Orderly timetable transfers request access day) {next : Hop}
    (runs : hop.Runs timetable.catalogue day request.admits)
    (nextRuns : next.Runs timetable.catalogue day request.admits)
    {leaving boarding : Call} (meets : hop.Meets next transfers day leaving boarding)
    {first : Trip} (standsIn : first.StandsIn timetable.catalogue day request.admits hop)
    {call : Call} (called : first.calls[hop.alight]? = some call) :
    next.IsMet timetable.catalogue transfers day request.admits ⟨first.index, hop.alight⟩
      call.arrival := by
  have firstMember := Timetable.IsBuilt.mem_of_trip? standsIn.found
  have member := Timetable.IsBuilt.mem_of_trip? runs.found
  have nextMember := Timetable.IsBuilt.mem_of_trip? nextRuns.found
  -- The transfer table has the transfer from the trip itself, or one to a trip that runs
  -- before the next one.
  by_cases same : first = hop.trip
  · subst same
    rw [meets.left_eq] at called
    cases called
    exact ⟨next.trip, boarding, nextRuns.found, orderly.built.precedes_refl nextMember,
      meets.listed, meets.boarded_eq, meets.in_time, nextRuns.active, nextRuns.admitted⟩
  · obtain ⟨sooner, soonerMember, departing, precedes, active, admitted, listed, departs,
      inTime⟩ :=
      orderly.closed first firstMember hop.trip member next.trip nextMember standsIn.precedes
        same standsIn.active standsIn.admitted hop.alight next.board call meets.listed called
    exact ⟨sooner, departing, orderly.built.trip?_index soonerMember, precedes, listed,
      departs, inTime, active, admitted⟩

/-- Where trips arrive in order and transfers can be made from earlier trips as well, every
journey is firm. -/
theorem firm_of_orderly
    (orderly : Orderly timetable transfers request access day)
    (journey : Journey timetable.catalogue transfers day request.admits hops)
    {last : Hop} (last_eq : hops.getLast? = some last)
    {egress : Station} {arrival : ServiceTime} (egress_mem : egress ∈ request.egress)
    (ends : last.EndsAt egress arrival) :
    Firm timetable.catalogue transfers request day hops egress arrival where
  journey := journey
  joined := by
    rw [List.isChain_iff_forall_rel_of_append_cons_cons]
    rintro hop next front rest split ⟨first, call, standsIn, called, apart⟩
    obtain ⟨leaving, boarding, meets⟩ :=
      List.isChain_iff_forall_rel_of_append_cons_cons.mp journey.meets split
    have runs := journey.runs hop (by simp [split])
    have nextRuns := journey.runs next (by simp [split])
    exact apart (isMet_of_orderly orderly runs nextRuns meets standsIn called)
  egress_mem := egress_mem
  ends := by
    refine ⟨last, last_eq, ends, ?_⟩
    rintro ⟨first, call, other, standsIn, called, otherCalled, later⟩
    have runs := journey.runs last (List.mem_of_getLast? last_eq)
    have sooner := orderly.arrives first (Timetable.IsBuilt.mem_of_trip? standsIn.found)
      last.trip (Timetable.IsBuilt.mem_of_trip? runs.found) standsIn.precedes last.alight call
      other called otherCalled
    rw [ServiceTime.le_iff] at sooner
    rw [ServiceTime.lt_iff] at later
    omega

/-- Where every ride is noted, a journey whose first boarding is covered bounds the
arrivals, if the rides that take the place of its hops are transferred from. -/
theorem earliest_le
    (orderly : Orderly timetable transfers request access day)
    (accounted : planner.Accounted timetable)
    (noted : ∀ handle ride, planner.rides.ride? handle = some ride →
      ride.Noted timetable.catalogue request planner.bounds)
    (allowed : ∀ handle ride, planner.rides.ride? handle = some ride →
      ∃ trip, ride.Allowed timetable.catalogue request access trip)
    (journey : Journey timetable.catalogue transfers day request.admits (hop :: rest))
    (clear : ∀ other ∈ hop :: rest,
      ¬ planner.BoardedAt timetable.catalogue other.trip other.alight)
    (ready : ∀ other ∈ (hop :: rest).dropLast, ∀ handle ride first,
      planner.PassedBy timetable.catalogue other.trip other.alight handle ride first →
        ride.serviceDay = day ∧
          ride.Transferred timetable.catalogue transfers request planner.bounds)
    (covers : planner.bounds.Covers hop.trip.index hop.board)
    {last : Hop} (last_eq : (hop :: rest).getLast? = some last)
    {egress : Station} {arrival : ServiceTime} (egress_mem : egress ∈ request.egress)
    (ends : last.EndsAt egress arrival) :
    planner.bounds.earliest ≤
      arrival.seconds.toNat + request.weights.egressCharge egress.walk := by
  have firm := journey.firm_of_orderly orderly last_eq egress_mem ends
  apply firm.earliest_le_of_ready orderly.built orderly.plain orderly.short accounted allowed
    clear ready ?_ covers
  intro final final_eq handle ride first passed permitted
  have same : final = last := Option.some.inj (final_eq.symm.trans last_eq)
  subst same
  exact passed.earliest_le orderly permitted (noted handle ride passed.ride_eq)
    (journey.runs final (List.mem_of_getLast? final_eq)) egress_mem ends

end Journey

namespace Outing

variable
  {outing : Outing} {timetable : Timetable} {transfers : TransferTable}
  {request : Request} {ride : Ride} {rest : List Ride}

/-- The rides of an outing are on trips that may be ridden, all on the day of the
station at which their chain begins. -/
theorem Chained.exists_allowed
    (built : timetable.IsBuilt)
    (allowed : ∀ trip, outing.admits trip = true → request.admits trip = true)
    {chain : List Ride} (chain_eq : chain = ride :: rest)
    (chained : outing.Chained timetable.catalogue transfers request.admits chain) :
    ∃ trip reached, ride.Allowed timetable.catalogue request outing.access trip ∧
      ride.access.localDeparture? outing.departure = some reached ∧
      ride.serviceDay = reached.date := by
  induction chained generalizing ride rest with
  | @walk root station reached known offers dayEq accessEq _ _ =>
      cases chain_eq
      obtain ⟨found, active, admitted, _⟩ := offers.exists_call built
      refine ⟨known, reached, ⟨found, ?_, allowed known admitted, ?_⟩, ?_, dayEq⟩
      · rw [dayEq]
        exact active
      · rw [accessEq]
        exact offers.station_mem
      · rw [accessEq]
        exact offers.local_eq
  | @transfer tip previous others known left leaving last boarding _ _ _ _ found _ _ active
      admitted dayEq accessEq _ hypothesis =>
      cases chain_eq
      obtain ⟨_, reached, before, local_eq, sameDay⟩ := hypothesis rfl
      refine ⟨known, reached, ⟨found, ?_, admitted, ?_⟩, ?_, dayEq.trans sameDay⟩
      · rw [dayEq]
        exact active
      · rw [accessEq]
        exact before.access_mem
      · rw [accessEq]
        exact local_eq

end Outing

end Transit
