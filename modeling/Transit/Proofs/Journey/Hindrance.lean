import Transit.Proofs.Journey.Window

/-!
# What hinders a journey

Let the first boarding of a journey be covered by a planner whose rides are settled.  Some
ride then takes the place of each hop in turn, and its transfers cover the hop after, until
the last such ride notes its arrival.  This fails where the journey leaves a trip just as
the planner boarded it, where the ride makes no transfers or none that the journey needs,
or where the ride arrives too late.  Nothing is assumed of the weights, of the order of the
trips in a pattern, or of the transfer table.
-/

namespace Transit

/-- What a planner did keeps it from arriving by `target` the way a journey goes. -/
inductive Planner.Hinders
    (planner : Planner) (catalogue : Catalogue) (transfers : TransferTable)
    (request : Request) (day : Date) (egress : Station) (target : Int) : List Hop → Prop
  /-- The trip, or an earlier one of its pattern, was boarded where the journey leaves it. -/
  | boarded {hop rest} :
      planner.BoardedAt catalogue hop.trip hop.alight →
      Hinders planner catalogue transfers request day egress target (hop :: rest)
  /-- The ride that takes the place of the hop is of the last round, or of another day. -/
  | stranded {hop next rest} :
      planner.Strands catalogue day hop.trip hop.alight →
      Hinders planner catalogue transfers request day egress target (hop :: next :: rest)
  /-- That ride is no earlier than the bound where the journey changes. -/
  | cut {hop next rest handle ride first call} :
      planner.PassedBy catalogue hop.trip hop.alight handle ride first →
      first.calls[hop.alight]? = some call →
      planner.bounds.earliest ≤ Search.arrivalAt request ride call →
      Hinders planner catalogue transfers request day egress target (hop :: next :: rest)
  /-- That ride is on another trip, from which the journey cannot go on. -/
  | parted {hop next rest handle ride first call} :
      planner.PassedBy catalogue hop.trip hop.alight handle ride first →
      first.calls[hop.alight]? = some call →
      ¬ next.IsMet catalogue transfers day request.admits ⟨first.index, hop.alight⟩
        call.arrival →
      Hinders planner catalogue transfers request day egress target (hop :: next :: rest)
  /-- The ride that takes the place of the last hop arrives later. -/
  | late {hop handle ride first call} :
      planner.PassedBy catalogue hop.trip hop.alight handle ride first →
      first.calls[hop.alight]? = some call →
      target < Outing.arrival request ride call egress →
      Hinders planner catalogue transfers request day egress target [hop]
  /-- The rest of the journey is hindered. -/
  | later {hop rest} :
      Hinders planner catalogue transfers request day egress target rest →
      Hinders planner catalogue transfers request day egress target (hop :: rest)

namespace Planner

variable
  {planner : Planner} {timetable : Timetable} {transfers : TransferTable}
  {request : Request} {day : Date} {hop next : Hop}

/-- A ride that takes the place of the last hop arrives by the target, or hinders. -/
theorem Swept.earliest_le_or_hinders
    (swept : planner.Swept timetable transfers request) (built : timetable.IsBuilt)
    {handle : Nat} {ride : Ride} {first : Trip}
    (passed : planner.PassedBy timetable.catalogue hop.trip hop.alight handle ride first)
    (runs : hop.Runs timetable.catalogue day request.admits)
    {egress : Station} (egress_mem : egress ∈ request.egress) {arrival : ServiceTime}
    (ends : hop.EndsAt egress arrival) (target : Int) :
    planner.bounds.earliest ≤ target ∨
      planner.Hinders timetable.catalogue transfers request day egress target [hop] := by
  obtain ⟨call, alighting, callAt⟩ := passed.exists_call built runs
  obtain ⟨other, called, named, _⟩ := ends
  obtain ⟨feed, stop⟩ :=
    built.stop_eq_of_precedes (Timetable.IsBuilt.mem_of_trip? passed.trip_eq)
      (Timetable.IsBuilt.mem_of_trip? runs.found) passed.precedes callAt called
  have namedFirst : egress.stop.isNamed first.feed call.stop = true := by
    rw [feed, stop]
    exact named
  have inside := RideStore.lt_size_of_ride? passed.ride_eq
  have bound := (swept.settled handle ride inside passed.ride_eq).noted first passed.trip_eq
    call hop.alight alighting egress egress_mem namedFirst
  by_cases late : target < Outing.arrival request ride call egress
  · exact .inr (.late passed callAt late)
  · exact .inl (by omega)

/-- A ride that takes the place of a hop leads to the hop after it, or hinders. -/
theorem Swept.covers_or_hinders
    (swept : planner.Swept timetable transfers request) (built : timetable.IsBuilt)
    {handle : Nat} {ride : Ride} {first : Trip}
    (passed : planner.PassedBy timetable.catalogue hop.trip hop.alight handle ride first)
    (runs : hop.Runs timetable.catalogue day request.admits)
    (nextRuns : next.Runs timetable.catalogue day request.admits) (rest : List Hop)
    (egress : Station) (target : Int) :
    planner.bounds.Covers next.trip.index next.board ∨
      planner.Hinders timetable.catalogue transfers request day egress target
        (hop :: next :: rest) := by
  by_cases strands : planner.Strands timetable.catalogue day hop.trip hop.alight
  · exact .inr (.stranded strands)
  obtain ⟨sameDay, transferred⟩ := swept.transferred passed strands
  obtain ⟨call, alighting, callAt⟩ := passed.exists_call built runs
  rcases transferred.continued built passed.trip_eq alighting with bound | continued
  · exact .inr (.cut passed callAt bound)
  by_cases met : next.IsMet timetable.catalogue transfers day request.admits
      ⟨first.index, hop.alight⟩ call.arrival
  · left
    obtain ⟨trip, boarding, found, precedes, listed, boardingAt, inTime, active, admitted⟩ :=
      met
    have member := Timetable.IsBuilt.mem_of_trip? found
    rw [← sameDay] at listed active
    apply swept.accounted.covers_of_precedes built member
      (Timetable.IsBuilt.mem_of_trip? nextRuns.found) precedes
    exact continued ⟨trip.index, next.board⟩ listed listed trip boarding found boardingAt
      inTime active admitted (built.grouped.inside trip member)
  · exact .inr (.parted passed callAt met)

end Planner

namespace Journey

variable
  {planner : Planner} {timetable : Timetable} {transfers : TransferTable}
  {request : Request} {day : Date} {hop : Hop} {rest : List Hop}

/-- A planner with settled rides that covers the first boarding of a journey has a bound by
the target, or hinders the journey. -/
theorem earliest_le_or_hinders
    (swept : planner.Swept timetable transfers request) (built : timetable.IsBuilt)
    (short : ∀ trip ∈ timetable.trips, trip.calls.length ≤ nowhere)
    (journey : Journey timetable.catalogue transfers day request.admits (hop :: rest))
    (covers : planner.bounds.Covers hop.trip.index hop.board)
    {last : Hop} (last_eq : (hop :: rest).getLast? = some last)
    {egress : Station} (egress_mem : egress ∈ request.egress) {arrival : ServiceTime}
    (ends : last.EndsAt egress arrival) (target : Int) :
    planner.bounds.earliest ≤ target ∨
      planner.Hinders timetable.catalogue transfers request day egress target
        (hop :: rest) := by
  -- What is carried along the journey is that the planner covers the boarding of the hop.
  induction rest generalizing hop with
  | nil =>
      have end_eq : hop = last := by simpa using last_eq
      subst end_eq
      have runs := journey.runs hop List.mem_cons_self
      by_cases boarded : planner.BoardedAt timetable.catalogue hop.trip hop.alight
      · exact .inr (.boarded boarded)
      obtain ⟨_, _, _, passed⟩ := swept.accounted.passes short runs covers boarded
      exact swept.earliest_le_or_hinders built passed runs egress_mem ends target
  | cons next others hypothesis =>
      have runs := journey.runs hop List.mem_cons_self
      have nextRuns := journey.runs next (by simp)
      by_cases boarded : planner.BoardedAt timetable.catalogue hop.trip hop.alight
      · exact .inr (.boarded boarded)
      obtain ⟨_, _, _, passed⟩ := swept.accounted.passes short runs covers boarded
      rcases swept.covers_or_hinders built passed runs nextRuns others egress target with
        coversNext | hinders
      · rw [List.getLast?_cons_cons] at last_eq
        exact (hypothesis journey.tail coversNext last_eq).imp_right .later
      · exact .inr hinders

end Journey

end Transit
