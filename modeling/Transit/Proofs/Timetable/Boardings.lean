import Transit.Proofs.Order.Arrange
import Transit.Proofs.Order.Grouping
import Transit.Proofs.Order.Results
import Transit.Schedule.Timetable

/-!
# The boardings of a timetable

A timetable lists at every stop, pattern by pattern, exactly the positions at which a
trip of the pattern can be boarded there, and lists them in the order in which a search
tries them.
-/

namespace Transit

/-- Strict order by trip and then by call. -/
def Position.Before (first second : Position) : Prop :=
  first.trip < second.trip ∨ first.trip = second.trip ∧ first.call < second.call

instance (first second : Position) : Decidable (first.Before second) :=
  inferInstanceAs (Decidable (_ ∨ _))

namespace Timetable

/-- A boarding is one at a call of the trip, but not at its last. -/
structure Boarding.IsOf (boarding : Boarding) (trip : Trip) (call : Call) : Prop where
  call_eq : trip.calls[boarding.position.call]? = some call
  before_last : boarding.position.call + 1 < trip.calls.length
  stop_eq : Stop.make trip.feed call.stop = .ok boarding.stop
  pattern_eq : boarding.pattern = trip.pattern
  trip_eq : boarding.position.trip = trip.index
  departure_eq : boarding.departure = call.departure

theorem mem_boardingsOf
    {trip : Trip} {boardings : List Boarding} (listed : boardingsOf trip = .ok boardings)
    (boarding : Boarding) :
    boarding ∈ boardings ↔ ∃ call, boarding.IsOf trip call := by
  rw [Except.mem_of_mapM listed]
  constructor
  · rintro ⟨⟨call, place⟩, member, made⟩
    obtain ⟨stop, stopMade, same⟩ := Except.bind_eq_ok.mp made
    cases same
    rw [List.mem_zipIdx_iff_getElem?, List.getElem?_dropLast] at member
    split at member
    case isTrue inside => exact ⟨call, member, by dsimp only; omega, stopMade, rfl, rfl, rfl⟩
    case isFalse => cases member
  · rintro ⟨call, callFound, before, stopMade, pattern, index, departure⟩
    refine ⟨(call, boarding.position.call), ?_, ?_⟩
    · rw [List.mem_zipIdx_iff_getElem?, List.getElem?_dropLast, if_pos (by omega)]
      exact callFound
    · rw [Except.bind_eq_ok]
      refine ⟨boarding.stop, stopMade, ?_⟩
      rw [← pattern, ← index, ← departure]
      rfl

/-- The boardings of a trip come in the order of its calls. -/
theorem pairwise_boardingsOf
    {trip : Trip} {boardings : List Boarding} (listed : boardingsOf trip = .ok boardings) :
    boardings.Pairwise fun first second => first.position.Before second.position := by
  have numbered : trip.calls.dropLast.zipIdx.Pairwise fun first second =>
      first.2 < second.2 := by
    rw [← List.pairwise_map, List.zipIdx_map_snd]
    exact List.pairwise_lt_range' 1
  apply Except.pairwise_of_mapM listed numbered
  rintro ⟨call, place⟩ ⟨later, other⟩ first second before made madeLater
  obtain ⟨_, _, same⟩ := Except.bind_eq_ok.mp made
  obtain ⟨_, _, sameLater⟩ := Except.bind_eq_ok.mp madeLater
  cases same
  cases sameLater
  exact .inr ⟨rfl, before⟩

theorem mem_boardings_of_trips
    {trips : List Trip} {lists : List (List Boarding)}
    (listed : trips.mapM boardingsOf = .ok lists) (boarding : Boarding) :
    boarding ∈ lists.flatten ↔ ∃ trip ∈ trips, ∃ call, boarding.IsOf trip call := by
  rw [List.mem_flatten]
  constructor
  · rintro ⟨boardings, listMember, member⟩
    obtain ⟨trip, tripMember, made⟩ := (Except.mem_of_mapM listed boardings).mp listMember
    exact ⟨trip, tripMember, (mem_boardingsOf made boarding).mp member⟩
  · rintro ⟨trip, tripMember, isOf⟩
    obtain ⟨boardings, listMember, made⟩ := Except.exists_of_mapM listed tripMember
    exact ⟨boardings, listMember, (mem_boardingsOf made boarding).mpr isOf⟩

/-- The boardings of all trips come trip by trip. -/
theorem pairwise_boardings_of_trips
    {trips : List Trip} {lists : List (List Boarding)}
    (listed : trips.mapM boardingsOf = .ok lists)
    (numbered : trips.Pairwise fun first second => first.index < second.index) :
    lists.flatten.Pairwise fun first second => first.position.Before second.position := by
  rw [List.pairwise_flatten]
  constructor
  · intro boardings member
    obtain ⟨trip, _, made⟩ := (Except.mem_of_mapM listed boardings).mp member
    exact pairwise_boardingsOf made
  · apply Except.pairwise_of_mapM listed numbered
    intro first second one other before made madeLater boarding member later laterMember
    obtain ⟨_, isOf⟩ := (mem_boardingsOf made boarding).mp member
    obtain ⟨_, isOfLater⟩ := (mem_boardingsOf madeLater later).mp laterMember
    left
    rw [isOf.trip_eq, isOfLater.trip_eq]
    exact before

theorem Boarding.mayPrecede_iff (first second : Boarding) :
    first.mayPrecede second = true ↔
      first.departure.seconds.toNat < second.departure.seconds.toNat ∨
        first.departure.seconds.toNat = second.departure.seconds.toNat ∧
          first.position.trip ≤ second.position.trip := by
  have departure_eq :
      first.departure = second.departure ↔
        first.departure.seconds.toNat = second.departure.seconds.toNat := by
    constructor
    · intro same
      rw [same]
    · intro same
      cases firstTime : first.departure
      cases secondTime : second.departure
      rw [firstTime, secondTime] at same
      exact congrArg ServiceTime.mk (UInt32.toNat_inj.mp same)
  simp [mayPrecede, ServiceTime.lt_iff, departure_eq]

/-- The boardings under the name of a pattern, in the order of their departures. -/
theorem mem_boardingsByPattern
    {boardings : List Boarding} {pattern : String} {positions : List Position} :
    (pattern, positions) ∈ boardingsByPattern boardings ↔
      pattern ∈ boardings.map Boarding.pattern ∧
        positions = (Order.arrange Boarding.mayPrecede
          (boardings.filter (·.pattern = pattern))).map Boarding.position := by
  have filtered :
      ((boardings.map fun boarding => (boarding.pattern, boarding)).filter
          (·.1 = pattern)).map Prod.snd =
        boardings.filter (·.pattern = pattern) := by
    rw [List.filter_map, List.map_map]
    exact List.map_id _
  simp only [boardingsByPattern, List.mem_map, Order.mem_arrange, Prod.mk.injEq]
  constructor
  · rintro ⟨⟨name, members⟩, member, rfl, rfl⟩
    obtain ⟨known, rfl⟩ := Grouping.mem_ofPairs.mp member
    rw [filtered]
    simpa using known
  · rintro ⟨known, rfl⟩
    refine ⟨(pattern, boardings.filter (·.pattern = pattern)), ?_, rfl, rfl⟩
    rw [Grouping.mem_ofPairs, filtered]
    simpa using known

/-- The positions under a pattern are those of its boardings. -/
theorem mem_positions
    {boardings : List Boarding} {pattern : String} {positions : List Position}
    (listed : (pattern, positions) ∈ boardingsByPattern boardings) (position : Position) :
    position ∈ positions ↔
      ∃ boarding ∈ boardings, boarding.pattern = pattern ∧ boarding.position = position := by
  rw [mem_boardingsByPattern] at listed
  rw [listed.2]
  simp [and_assoc]

/-- The positions under a pattern are in the order of their departures, and those of one
departure in the order of their trips and calls. -/
theorem positions_ordered
    {boardings : List Boarding} {pattern : String} {positions : List Position}
    (listed : (pattern, positions) ∈ boardingsByPattern boardings)
    (came : boardings.Pairwise fun first second => first.position.Before second.position)
    {departs : Position → Nat}
    (departures : ∀ boarding ∈ boardings,
      departs boarding.position = boarding.departure.seconds.toNat) :
    positions.Pairwise fun first second =>
      departs first < departs second ∨ departs first = departs second ∧ first.Before second := by
  rw [mem_boardingsByPattern] at listed
  rw [listed.2, List.pairwise_map]
  have total : ∀ first second : Boarding,
      first.mayPrecede second = true ∨ second.mayPrecede first = true := by
    intro first second
    rw [Boarding.mayPrecede_iff, Boarding.mayPrecede_iff]
    omega
  have transitive : ∀ first second third : Boarding,
      first.mayPrecede second = true → second.mayPrecede third = true →
        first.mayPrecede third = true := by
    intro first second third
    rw [Boarding.mayPrecede_iff, Boarding.mayPrecede_iff, Boarding.mayPrecede_iff]
    omega
  have ordered := Order.pairwise_arrange_of_pairwise total transitive
    (came.filter fun boarding => boarding.pattern = pattern)
  apply ordered.imp_of_mem
  rintro first second firstMember secondMember ⟨precedes, tied⟩
  have known : ∀ boarding,
      boarding ∈ Order.arrange Boarding.mayPrecede (boardings.filter (·.pattern = pattern)) →
      departs boarding.position = boarding.departure.seconds.toNat := by
    intro boarding member
    rw [Order.mem_arrange] at member
    exact departures boarding (List.mem_filter.mp member).1
  rw [Boarding.mayPrecede_iff] at precedes tied
  rw [known first firstMember, known second secondMember]
  rcases precedes with earlier | ⟨same, trips⟩
  · exact .inl earlier
  · refine .inr ⟨same, ?_⟩
    rcases Nat.lt_or_eq_of_le trips with before | one
    · exact .inl before
    · exact tied (.inr ⟨same.symm, Nat.le_of_eq one.symm⟩)

end Timetable

end Transit
