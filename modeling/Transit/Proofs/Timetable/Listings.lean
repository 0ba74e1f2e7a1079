import Transit.Proofs.Journey.Sample
import Transit.Proofs.Timetable.Build

/-!
# What the stops list

A stop lists under the name of a pattern exactly the positions at which trips of the
pattern can be boarded there.  Each of them stands there once, in the order of the
departures, and of the trips and calls where departures are equal.  A stop at which no trip
can be boarded lists nothing.
-/

namespace Transit

/-- A trip calls at a stop and goes on from there. -/
def Trip.BoardsAt (trip : Trip) (stop : Stop) (place : Nat) : Prop :=
  place + 1 < trip.calls.length ∧
    ∃ call ∈ trip.calls[place]?, stop.isNamed trip.feed call.stop = true

instance (trip : Trip) (stop : Stop) (place : Nat) : Decidable (trip.BoardsAt stop place) :=
  inferInstanceAs (Decidable (_ ∧ _))

namespace Timetable

/-- At a position a trip of a pattern can be boarded at a stop. -/
def Boards (timetable : Timetable) (stop : Stop) (pattern : String) (position : Position) :
    Prop :=
  ∃ trip ∈ timetable.catalogue.trip? position.trip,
    trip.pattern = pattern ∧ trip.BoardsAt stop position.call

instance (timetable : Timetable) (stop : Stop) (pattern : String) (position : Position) :
    Decidable (timetable.Boards stop pattern position) :=
  inferInstanceAs (Decidable (∃ trip ∈ timetable.catalogue.trip? position.trip, _))

/-- The positions that a stop lists under the name of a pattern, none if there is no such
list. -/
def positionsAt (timetable : Timetable) (stop : Stop) (pattern : String) : List Position :=
  ((timetable.boardings? stop).bind (Grouping.find? pattern)).getD []

theorem boardingsByPattern_ne_nil {boardings : List Boarding} (some_boarding : boardings ≠ []) :
    boardingsByPattern boardings ≠ [] := by
  obtain ⟨boarding, member⟩ := List.exists_mem_of_ne_nil boardings some_boarding
  have listed := mem_boardingsByPattern.mpr ⟨List.mem_map.mpr ⟨boarding, member, rfl⟩, rfl⟩
  exact List.ne_nil_of_mem listed

/-- No pattern has two lists, and the lists stand in the order of the patterns' names. -/
theorem pairwise_boardingsByPattern (boardings : List Boarding) :
    ((boardingsByPattern boardings).map Prod.fst).Pairwise (· < ·) := by
  let groups := Grouping.ofPairs (boardings.map fun boarding => (boarding.pattern, boarding))
  let byName (first second : String × List Boarding) : Bool := first.1 ≤ second.1
  have names : (boardingsByPattern boardings).map Prod.fst =
      (Order.arrange byName groups).map Prod.fst := by
    rw [boardingsByPattern, List.map_map]
    rfl
  have total : ∀ first second, byName first second = true ∨ byName second first = true := by
    intro first second
    simpa [byName] using String.le_total first.1 second.1
  have transitive : ∀ first second third, byName first second = true →
      byName second third = true → byName first third = true := by
    intro first second third
    simpa [byName] using String.le_trans
  have distinct : groups.Pairwise fun first second => first.1 ≠ second.1 :=
    List.pairwise_map.mp (Grouping.nodup_ofPairs _)
  have apart : (Order.arrange byName groups).Pairwise fun first second => first.1 ≠ second.1 :=
    distinct.perm (Order.arrange_perm byName groups).symm Ne.symm
  rw [names, List.pairwise_map]
  apply (apart.and (Order.pairwise_arrange total transitive groups)).imp
  rintro first second ⟨different, precedes⟩
  exact Std.lt_of_le_of_ne (by simpa [byName] using precedes) different

namespace IsBuilt

variable
  {timetable : Timetable} {stop : Stop} {boardings : Boardings}
  {pattern : String} {positions : List Position}

/-- A stop that lists anything has a list for some pattern, and one list for each. -/
theorem boardings_named
    (built : timetable.IsBuilt)
    (atStop : timetable.catalogue.boardings? stop = some boardings) :
    boardings ≠ [] ∧ (boardings.map Prod.fst).Pairwise (· < ·) := by
  obtain ⟨all, lists⟩ := built.exists_lists
  obtain ⟨seen, rfl⟩ := (lists.boardings?_eq stop boardings).mp atStop
  obtain ⟨boarding, member, here⟩ := List.mem_map.mp seen
  have found : boarding ∈ all.filter (·.stop = stop) :=
    List.mem_filter.mpr ⟨member, by simpa using here⟩
  exact ⟨boardingsByPattern_ne_nil (List.ne_nil_of_mem found), pairwise_boardingsByPattern _⟩

theorem positions_ne_nil
    (built : timetable.IsBuilt)
    (atStop : timetable.catalogue.boardings? stop = some boardings)
    (listed : (pattern, positions) ∈ boardings) : positions ≠ [] := by
  obtain ⟨all, lists⟩ := built.exists_lists
  obtain ⟨_, rfl⟩ := (lists.boardings?_eq stop boardings).mp atStop
  obtain ⟨known, _⟩ := mem_boardingsByPattern.mp listed
  obtain ⟨boarding, member, named⟩ := List.mem_map.mp known
  exact List.ne_nil_of_mem ((mem_positions listed _).mpr ⟨boarding, member, named, rfl⟩)

/-- A stop has boardings if and only if a trip can be boarded there. -/
theorem exists_boardings?_iff (built : timetable.IsBuilt) :
    (∃ boardings, timetable.boardings? stop = some boardings) ↔
      ∃ trip ∈ timetable.trips, ∃ place, trip.BoardsAt stop place := by
  constructor
  · rintro ⟨boardings, atStop⟩
    obtain ⟨⟨pattern, positions⟩, listed⟩ :=
      List.exists_mem_of_ne_nil boardings (built.boardings_named atStop).1
    obtain ⟨position, member⟩ :=
      List.exists_mem_of_ne_nil positions (built.positions_ne_nil atStop listed)
    obtain ⟨trip, call, known, _, called, before, at'⟩ :=
      built.exists_of_mem_positions atStop listed member
    exact ⟨trip, mem_of_trip? known, position.call, before, call, called, at'⟩
  · rintro ⟨trip, member, place, before, call, called, at'⟩
    obtain ⟨boardings, _, atStop, _⟩ := built.exists_positions member called before at'
    exact ⟨boardings, atStop⟩

theorem positionsAt_eq
    (built : timetable.IsBuilt)
    (atStop : timetable.catalogue.boardings? stop = some boardings)
    (listed : (pattern, positions) ∈ boardings) :
    timetable.positionsAt stop pattern = positions := by
  have distinct : (boardings.map Prod.fst).Nodup :=
    (built.boardings_named atStop).2.imp Std.ne_of_lt
  have here : timetable.boardings? stop = some boardings := atStop
  rw [positionsAt, here, Option.bind_some, Grouping.find?_of_mem distinct listed,
    Option.getD_some]

/-- A stop lists a position if and only if a trip can be boarded there. -/
theorem mem_positionsAt (built : timetable.IsBuilt) (position : Position) :
    position ∈ timetable.positionsAt stop pattern ↔ timetable.Boards stop pattern position := by
  constructor
  · intro member
    cases lists : (timetable.boardings? stop).bind (Grouping.find? pattern) with
    | none =>
        rw [positionsAt, lists] at member
        cases member
    | some positions =>
        rw [positionsAt, lists, Option.getD_some] at member
        obtain ⟨boardings, atStop, found⟩ := Option.bind_eq_some_iff.mp lists
        obtain ⟨trip, call, known, named, called, before, at'⟩ :=
          built.exists_of_mem_positions atStop (Grouping.mem_of_find? found) member
        exact ⟨trip, known, named, before, call, called, at'⟩
  · rintro ⟨trip, known, rfl, before, call, called, at'⟩
    obtain ⟨boardings, positions, atStop, listed, member⟩ :=
      built.exists_positions (mem_of_trip? known) called before at'
    rw [built.positionsAt_eq atStop listed]
    rw [built.index_eq known] at member
    exact member

theorem pairwise_positionsAt (built : timetable.IsBuilt) :
    (timetable.positionsAt stop pattern).Pairwise timetable.catalogue.LeavesBefore := by
  cases lists : (timetable.boardings? stop).bind (Grouping.find? pattern) with
  | none =>
      rw [positionsAt, lists]
      exact .nil
  | some positions =>
      obtain ⟨boardings, atStop, found⟩ := Option.bind_eq_some_iff.mp lists
      rw [positionsAt, lists, Option.getD_some]
      exact built.positions_ordered atStop (Grouping.mem_of_find? found)

end IsBuilt

/-- What a stop lists is exact. -/
structure ListsAt (timetable : Timetable) (stop : Stop) : Prop where
  /-- Every position is listed once where it can be boarded, and nowhere else. -/
  count_eq : ∀ pattern position, (timetable.positionsAt stop pattern).count position =
    if timetable.Boards stop pattern position then 1 else 0
  /-- There is one list for a pattern at most. -/
  named : ∀ boardings, timetable.boardings? stop = some boardings →
    (boardings.map Prod.fst).Pairwise (· < ·)
  /-- Every list has an entry and is in order. -/
  ordered : ∀ boardings pattern positions, timetable.boardings? stop = some boardings →
    (pattern, positions) ∈ boardings →
      positions = timetable.positionsAt stop pattern ∧ positions ≠ [] ∧
        positions.Pairwise timetable.catalogue.LeavesBefore
  /-- There is no list where no trip calls on its way. -/
  none_iff : timetable.boardings? stop = none ↔
    ∀ trip ∈ timetable.trips, ∀ place, ¬ trip.BoardsAt stop place

/-- The stops of a timetable that was built list exactly what can be boarded there. -/
theorem listsAt_of_build
    {given : List ScheduledTrip} {timetable : Timetable}
    (built : build given = .ok timetable) (stop : Stop) :
    timetable.ListsAt stop := by
  have isBuilt := isBuilt_of_build built
  refine ⟨?_, ?_, ?_, ?_⟩
  · intro pattern position
    have distinct : (timetable.positionsAt stop pattern).Nodup :=
      isBuilt.pairwise_positionsAt.imp Catalogue.LeavesBefore.ne
    rw [distinct.count]
    simp only [isBuilt.mem_positionsAt position]
  · intro boardings atStop
    exact (isBuilt.boardings_named atStop).2
  · intro boardings pattern positions atStop listed
    exact ⟨(isBuilt.positionsAt_eq atStop listed).symm, isBuilt.positions_ne_nil atStop listed,
      isBuilt.positions_ordered atStop listed⟩
  · rw [Option.eq_none_iff_forall_ne_some]
    have served : (∃ boardings, timetable.boardings? stop = some boardings) ↔ _ :=
      isBuilt.exists_boardings?_iff
    constructor
    · intro nothing trip member place boards
      obtain ⟨boardings, atStop⟩ := served.mpr ⟨trip, member, place, boards⟩
      exact nothing boardings atStop
    · intro unserved boardings atStop
      obtain ⟨trip, member, place, boards⟩ := served.mp ⟨boardings, atStop⟩
      exact unserved trip member place boards

/-- At the stop where a ring begins and ends its trips are listed once, where they begin. -/
theorem listsAt_of_ring :
    let timetable := Sample.ring.timetable
    build Sample.ringPlan.trips = .ok timetable ∧
      timetable.positionsAt Sample.origin.stop "f:p0" = [⟨0, 0⟩, ⟨1, 0⟩] ∧
      timetable.positionsAt Sample.origin.stop "f:p1" = [⟨2, 0⟩] ∧
      timetable.ListsAt Sample.origin.stop := by
  have built : build Sample.ringPlan.trips = .ok Sample.ring.timetable := by decide +kernel
  refine ⟨built, ?_, ?_, listsAt_of_build built Sample.origin.stop⟩
  · decide +kernel
  · decide +kernel

end Timetable

end Transit
