import Transit.Proofs.Timetable.Boardings
import Transit.Proofs.Timetable.Checks
import Transit.Proofs.Timetable.Patterns
import Transit.Schedule.Network

/-!
# Built timetables

`Timetable.IsBuilt` gathers what building a timetable makes sure of: its trips are
grouped by pattern and have passed their checks, and its boardings are those of its
trips.  What a search reads of the timetable follows from these three.
-/

namespace Transit

/-- Settling loses no transfer and adds none. -/
@[simp]
theorem TransferTable.mem_settle (table : TransferTable) (transfer : Transfer) :
    transfer ∈ table.settle.transfers ↔ transfer ∈ table.transfers := by
  simp [settle]

/-- Seconds of the departure at a position, zero where no trip calls. -/
def Catalogue.departsAt (catalogue : Catalogue) (position : Position) : Nat :=
  ((catalogue.call? position).map fun call => call.departure.seconds.toNat).getD 0

/-- Order of boardings: by departure, of one departure by trip, and of one trip by call. -/
def Catalogue.LeavesBefore (catalogue : Catalogue) (first second : Position) : Prop :=
  catalogue.departsAt first < catalogue.departsAt second ∨
    catalogue.departsAt first = catalogue.departsAt second ∧ first.Before second

instance (catalogue : Catalogue) (first second : Position) :
    Decidable (catalogue.LeavesBefore first second) :=
  inferInstanceAs (Decidable (_ ∨ _))

namespace Catalogue.LeavesBefore

variable {catalogue : Catalogue} {first second : Position}

theorem ne (before : catalogue.LeavesBefore first second) : first ≠ second := by
  rintro rfl
  rcases before with earlier | ⟨_, trips | ⟨_, calls⟩⟩
  · exact Nat.lt_irrefl _ earlier
  · exact Nat.lt_irrefl _ trips
  · exact Nat.lt_irrefl _ calls

theorem asymm (before : catalogue.LeavesBefore first second) :
    ¬ catalogue.LeavesBefore second first := by
  unfold LeavesBefore Position.Before at *
  omega

theorem departsAt_le (before : catalogue.LeavesBefore first second) :
    catalogue.departsAt first ≤ catalogue.departsAt second := by
  rcases before with earlier | ⟨same, _⟩
  · exact Nat.le_of_lt earlier
  · exact Nat.le_of_eq same

/-- Of two boardings that leave at the same time the first is not on a later trip. -/
theorem lt_or_trip_le (before : catalogue.LeavesBefore first second) :
    catalogue.departsAt first < catalogue.departsAt second ∨
      catalogue.departsAt first = catalogue.departsAt second ∧ first.trip ≤ second.trip := by
  rcases before with earlier | ⟨same, trips | ⟨one, _⟩⟩
  · exact .inl earlier
  · exact .inr ⟨same, Nat.le_of_lt trips⟩
  · exact .inr ⟨same, Nat.le_of_eq one⟩

end Catalogue.LeavesBefore

/-- What is built of a plan: the timetable of its trips, and the table of its transfers. -/
theorem NetworkPlan.parts_of_build
    {plan : NetworkPlan} {network : Network} (built : plan.build = .ok network) :
    Timetable.build plan.trips = .ok network.timetable ∧
      ∃ transfers, plan.transfers.mapM (·.resolve network.timetable) = .ok transfers ∧
        network.transfers = TransferTable.settle ⟨transfers⟩ := by
  unfold build at built
  obtain ⟨timetable, timetableBuilt, built⟩ := Except.bind_eq_ok.mp built
  obtain ⟨transfers, resolved, built⟩ := Except.bind_eq_ok.mp built
  cases built
  exact ⟨timetableBuilt, transfers, resolved, rfl⟩

namespace Timetable

/-- What building makes sure of. -/
structure IsBuilt (timetable : Timetable) : Prop where
  grouped : IsGrouped timetable.trips
  sound : ∀ trip ∈ timetable.trips, CallsSound trip.feed trip.calls
  indexed : indexBoardings timetable.trips = .ok timetable.boardings

theorem isBuilt_of_build
    {trips : List ScheduledTrip} {timetable : Timetable}
    (built : build trips = .ok timetable) :
    timetable.IsBuilt := by
  unfold build at built
  obtain ⟨_, checked, built⟩ := Except.bind_eq_ok.mp built
  obtain ⟨boardings, indexed, built⟩ := Except.bind_eq_ok.mp built
  cases built
  refine ⟨isGrouped_enumerate trips, ?_, Except.mapError_eq_ok.mp indexed⟩
  intro trip member
  obtain ⟨scheduled, scheduledMember, feed, calls⟩ := exists_scheduled member
  rw [feed, calls]
  exact ScheduledTrip.callsSound_of_check
    (ScheduledTrip.check_of_checkAll checked scheduled scheduledMember)

theorem isBuilt_of_plan
    {plan : NetworkPlan} {network : Network} (built : plan.build = .ok network) :
    network.timetable.IsBuilt :=
  isBuilt_of_build (NetworkPlan.parts_of_build built).1

/-- The position of a call that is given by name has that call. -/
theorem exists_call_of_position
    {timetable : Timetable} {feed name : String} {place : Nat} {position : Position}
    (found : timetable.position feed name place = .ok position) :
    ∃ trip call, timetable.catalogue.trip? position.trip = some trip ∧
      trip.calls[position.call]? = some call := by
  unfold Timetable.position at found
  cases indexed : timetable.tripIndex? feed name with
  | none =>
      rw [indexed] at found
      cases found
  | some index =>
      rw [indexed] at found
      dsimp only at found
      split at found
      case isTrue exists_call =>
        cases found
        obtain ⟨call, called⟩ := Option.isSome_iff_exists.mp exists_call
        obtain ⟨trip, known, called⟩ := Option.bind_eq_some_iff.mp called
        exact ⟨trip, call, known, called⟩
      case isFalse => cases found

/-- Every transfer of a network leads to a call. -/
theorem exists_call_of_destination
    {plan : NetworkPlan} {network : Network} (built : plan.build = .ok network)
    {day : Date} {origin destination : Position}
    (listed : destination ∈ network.transfers.destinations day origin) :
    ∃ trip call, network.timetable.catalogue.trip? destination.trip = some trip ∧
      trip.calls[destination.call]? = some call := by
  obtain ⟨_, transfers, resolved, settled⟩ := NetworkPlan.parts_of_build built
  rw [settled, TransferTable.mem_destinations, TransferTable.mem_settle] at listed
  obtain ⟨named, _, made⟩ := (Except.mem_of_mapM resolved _).mp listed
  unfold NamedTransfer.resolve at made
  obtain ⟨_, _, made⟩ := Except.bind_eq_ok.mp made
  obtain ⟨position, found, made⟩ := Except.bind_eq_ok.mp made
  cases made
  exact exists_call_of_position found

/-- All boardings of a timetable, trip by trip and call by call, and what the stops list of
them. -/
structure Lists (timetable : Timetable) (all : List Boarding) : Prop where
  mem_iff : ∀ boarding, boarding ∈ all ↔
    ∃ trip ∈ timetable.trips, ∃ call, boarding.IsOf trip call
  ordered : all.Pairwise fun first second => first.position.Before second.position
  boardings?_eq : ∀ stop boardings, timetable.catalogue.boardings? stop = some boardings ↔
    stop ∈ all.map Boarding.stop ∧
      boardings = boardingsByPattern (all.filter (·.stop = stop))

namespace IsBuilt

variable
  {timetable : Timetable} {stop : Stop} {boardings : Boardings}
  {pattern : String} {positions : List Position}

theorem mem_of_trip?
    {index : Nat} {trip : Trip} (found : timetable.catalogue.trip? index = some trip) :
    trip ∈ timetable.trips :=
  List.mem_of_getElem? found

theorem index_eq
    (built : timetable.IsBuilt) {index : Nat} {trip : Trip}
    (found : timetable.catalogue.trip? index = some trip) :
    trip.index = index :=
  built.grouped.index_eq found

theorem trip?_index
    (built : timetable.IsBuilt) {trip : Trip} (member : trip ∈ timetable.trips) :
    timetable.catalogue.trip? trip.index = some trip := by
  obtain ⟨index, found⟩ := List.mem_iff_getElem?.mp member
  rw [built.grouped.index_eq found]
  exact found

/-- The index of a trip is its place. -/
theorem pairwise_index (built : timetable.IsBuilt) :
    timetable.trips.Pairwise fun first second => first.index < second.index := by
  rw [List.pairwise_iff_getElem]
  intro first second firstIn secondIn before
  rw [built.grouped.index_getElem firstIn, built.grouped.index_getElem secondIn]
  exact before

/-- The boardings at the stops come from the boardings of all trips, which come trip by trip
and call by call. -/
theorem exists_boardings (built : timetable.IsBuilt) :
    ∃ all : List Boarding,
      (∀ boarding, boarding ∈ all ↔
        ∃ trip ∈ timetable.trips, ∃ call, boarding.IsOf trip call) ∧
        (all.Pairwise fun first second => first.position.Before second.position) ∧
        ∀ stop boardings, (stop, boardings) ∈ timetable.boardings ↔
          stop ∈ all.map Boarding.stop ∧
            boardings = boardingsByPattern (all.filter (·.stop = stop)) := by
  have indexed := built.indexed
  unfold indexBoardings at indexed
  obtain ⟨lists, listed, same⟩ := Except.bind_eq_ok.mp indexed
  refine ⟨lists.flatten, mem_boardings_of_trips listed,
    pairwise_boardings_of_trips listed built.pairwise_index, ?_⟩
  intro stop boardings
  have filtered :
      ((lists.flatten.map fun boarding => (boarding.stop, boarding)).filter
          (·.1 = stop)).map Prod.snd =
        lists.flatten.filter (·.stop = stop) := by
    rw [List.filter_map, List.map_map]
    exact List.map_id _
  rw [(Except.ok.inj same).symm, List.mem_map]
  constructor
  · rintro ⟨⟨key, members⟩, member, same⟩
    cases same
    obtain ⟨seen, rfl⟩ := Grouping.mem_ofPairs.mp member
    rw [List.map_map] at seen
    rw [filtered]
    exact ⟨seen, rfl⟩
  · rintro ⟨seen, rfl⟩
    refine ⟨(stop, lists.flatten.filter (·.stop = stop)), ?_, rfl⟩
    rw [Grouping.mem_ofPairs, filtered, List.map_map]
    exact ⟨seen, rfl⟩

/-- The boardings found at a stop are all boardings there, by pattern. -/
theorem exists_lists (built : timetable.IsBuilt) : ∃ all, timetable.Lists all := by
  obtain ⟨all, mem_all, ordered, entry_iff⟩ := built.exists_boardings
  refine ⟨all, mem_all, ordered, ?_⟩
  intro stop boardings
  change (timetable.boardings.find? fun entry => entry.1 = stop).map Prod.snd = _ ↔ _
  rw [← entry_iff, Option.map_eq_some_iff]
  constructor
  · rintro ⟨⟨known, entries⟩, found, rfl⟩
    have at' : known = stop := by simpa using List.find?_some found
    subst at'
    exact List.mem_of_find?_eq_some found
  · intro member
    cases found : timetable.boardings.find? fun entry => entry.1 = stop with
    | none =>
        have missing := List.find?_eq_none.mp found _ member
        simp at missing
    | some entry =>
        -- Every entry is determined by its stop, so the first one of the stop is it.
        obtain ⟨known, entries⟩ := entry
        have at' : known = stop := by simpa using List.find?_some found
        subst at'
        have first := (entry_iff known entries).mp (List.mem_of_find?_eq_some found)
        have second := (entry_iff known boardings).mp member
        exact ⟨(known, entries), rfl, first.2.trans second.2.symm⟩

theorem departsAt_eq
    {trip : Trip} {call : Call} (position : Position)
    (found : timetable.catalogue.trip? position.trip = some trip)
    (called : trip.calls[position.call]? = some call) :
    timetable.catalogue.departsAt position = call.departure.seconds.toNat := by
  simp [Catalogue.departsAt, Catalogue.call?, found, called]

/-- A trip of the pattern can be boarded at every position listed at a stop. -/
theorem exists_of_mem_positions
    (built : timetable.IsBuilt)
    (atStop : timetable.catalogue.boardings? stop = some boardings)
    (listed : (pattern, positions) ∈ boardings)
    {position : Position} (member : position ∈ positions) :
    ∃ trip call, timetable.catalogue.trip? position.trip = some trip ∧
      trip.pattern = pattern ∧ trip.calls[position.call]? = some call ∧
      position.call + 1 < trip.calls.length ∧
      stop.isNamed trip.feed call.stop = true := by
  obtain ⟨all, lists⟩ := built.exists_lists
  obtain ⟨_, rfl⟩ := (lists.boardings?_eq stop boardings).mp atStop
  obtain ⟨boarding, boardingMember, rfl, rfl⟩ := (mem_positions listed position).mp member
  obtain ⟨known, here⟩ := List.mem_filter.mp boardingMember
  obtain ⟨trip, tripMember, call, isOf⟩ := (lists.mem_iff boarding).mp known
  refine ⟨trip, call, ?_, isOf.pattern_eq.symm, isOf.call_eq, isOf.before_last, ?_⟩
  · rw [isOf.trip_eq]
    exact built.trip?_index tripMember
  · have same : boarding.stop = stop := by simpa using here
    rw [Stop.isNamed_iff, ← same]
    exact (Stop.make_eq_ok_iff _ _ _).mp isOf.stop_eq

/-- The positions listed at a stop are in order. -/
theorem positions_ordered
    (built : timetable.IsBuilt)
    (atStop : timetable.catalogue.boardings? stop = some boardings)
    (listed : (pattern, positions) ∈ boardings) :
    positions.Pairwise timetable.catalogue.LeavesBefore := by
  obtain ⟨all, lists⟩ := built.exists_lists
  obtain ⟨_, rfl⟩ := (lists.boardings?_eq stop boardings).mp atStop
  apply Timetable.positions_ordered listed (lists.ordered.filter fun boarding => boarding.stop = stop)
  intro boarding member
  obtain ⟨trip, tripMember, call, isOf⟩ := (lists.mem_iff boarding).mp (List.mem_filter.mp member).1
  rw [departsAt_eq boarding.position (by rw [isOf.trip_eq]; exact built.trip?_index tripMember) isOf.call_eq,
    isOf.departure_eq]

/-- A trip can be boarded at all of its calls but the last. -/
theorem exists_positions
    (built : timetable.IsBuilt)
    {trip : Trip} {place : Nat} {call : Call}
    (member : trip ∈ timetable.trips) (called : trip.calls[place]? = some call)
    (before : place + 1 < trip.calls.length)
    (named : stop.isNamed trip.feed call.stop = true) :
    ∃ boardings positions, timetable.catalogue.boardings? stop = some boardings ∧
      (trip.pattern, positions) ∈ boardings ∧ ⟨trip.index, place⟩ ∈ positions := by
  obtain ⟨all, lists⟩ := built.exists_lists
  have made := (Stop.make_eq_ok_iff trip.feed call.stop stop).mpr
    ((Stop.isNamed_iff _ _ _).mp named)
  let boarding : Boarding := ⟨stop, trip.pattern, ⟨trip.index, place⟩, call.departure⟩
  have known : boarding ∈ all :=
    (lists.mem_iff boarding).mpr ⟨trip, member, call, called, before, made, rfl, rfl, rfl⟩
  have here : boarding ∈ all.filter (·.stop = stop) :=
    List.mem_filter.mpr ⟨known, by simp [boarding]⟩
  have seen : trip.pattern ∈ (all.filter (·.stop = stop)).map Boarding.pattern :=
    List.mem_map.mpr ⟨boarding, here, rfl⟩
  have listed := mem_boardingsByPattern.mpr ⟨seen, rfl⟩
  refine ⟨_, _, (lists.boardings?_eq stop _).mpr ⟨List.mem_map.mpr ⟨boarding, known, rfl⟩, rfl⟩,
    listed, ?_⟩
  exact (mem_positions listed _).mpr ⟨boarding, here, rfl, rfl⟩

end IsBuilt

end Timetable

end Transit
