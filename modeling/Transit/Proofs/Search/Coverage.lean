import Transit.Proofs.Search.PlainBoarding
import Transit.Proofs.Search.Session

/-!
# What is covered

A call beyond the one from which a trip is covered has been passed by a ride on the trip
or on an earlier trip of its pattern, or one of these trips was boarded at the call
itself.  A boarding does not ride to the call it starts from, so the latter is not the
same as being passed.

The proof needs to know what the boundary of each trip is: no later than that of any
earlier trip of its pattern, and a call at which one of these trips was boarded.
-/

namespace Transit

namespace Timetable.IsBuilt

variable {timetable : Timetable} {first second third : Trip}

theorem precedes_refl (built : timetable.IsBuilt) (member : first ∈ timetable.trips) :
    first.Precedes first :=
  ⟨Nat.le_refl _, built.grouped.inside first member⟩

theorem precedes_trans
    (built : timetable.IsBuilt)
    (firstMember : first ∈ timetable.trips) (secondMember : second ∈ timetable.trips)
    (left : first.Precedes second) (right : second.Precedes third) :
    first.Precedes third := by
  have same :=
    (built.grouped.route_eq first firstMember second secondMember left).2.1
  refine ⟨Nat.le_trans left.1 right.1, ?_⟩
  rw [← same]
  exact right.2

theorem pattern_eq_of_precedes
    (built : timetable.IsBuilt)
    (firstMember : first ∈ timetable.trips) (secondMember : second ∈ timetable.trips)
    (precedes : first.Precedes second) :
    first.pattern = second.pattern :=
  (built.grouped.route_eq first firstMember second secondMember precedes).1.symm

/-- Of two trips of a pattern one precedes the other. -/
theorem precedes_or_precedes
    (built : timetable.IsBuilt)
    (firstMember : first ∈ timetable.trips) (secondMember : second ∈ timetable.trips)
    (same : first.pattern = second.pattern) :
    first.Precedes second ∨ second.Precedes first := by
  have ends := built.grouped.patternEnd_eq first firstMember second secondMember same
  have firstInside := built.grouped.inside first firstMember
  have secondInside := built.grouped.inside second secondMember
  unfold Trip.Precedes
  omega

/-- Every trip of a pattern makes as many calls as any other. -/
theorem length_eq_of_precedes
    (built : timetable.IsBuilt)
    (firstMember : first ∈ timetable.trips) (secondMember : second ∈ timetable.trips)
    (precedes : first.Precedes second) :
    first.calls.length = second.calls.length := by
  have same :=
    (built.grouped.route_eq first firstMember second secondMember precedes).2.2.2
  have lengths := congrArg List.length same
  rw [List.length_map, List.length_map] at lengths
  exact lengths.symm

/-- The trips of a pattern call at the same stop at the same place. -/
theorem stop_eq_of_precedes
    (built : timetable.IsBuilt)
    (firstMember : first ∈ timetable.trips) (secondMember : second ∈ timetable.trips)
    (precedes : first.Precedes second) {place : Nat} {call other : Call}
    (called : first.calls[place]? = some call)
    (otherCalled : second.calls[place]? = some other) :
    first.feed = second.feed ∧ call.stop = other.stop := by
  obtain ⟨_, _, feed, stops⟩ :=
    built.grouped.route_eq first firstMember second secondMember precedes
  have atPlace := congrArg (fun list => list[place]?) stops
  simp only [List.getElem?_map, called, otherCalled, Option.map_some, Option.some.injEq]
    at atPlace
  exact ⟨feed.symm, atPlace.symm⟩

/-- The trips of a pattern are of one feed and call at the same stops. -/
theorem route_eq_of_pattern_eq
    (built : timetable.IsBuilt)
    (firstMember : first ∈ timetable.trips) (secondMember : second ∈ timetable.trips)
    (same : first.pattern = second.pattern) :
    first.feed = second.feed ∧ first.calls.map Call.stop = second.calls.map Call.stop := by
  rcases built.precedes_or_precedes firstMember secondMember same with precedes | precedes
  · obtain ⟨_, _, feed, stops⟩ :=
      built.grouped.route_eq first firstMember second secondMember precedes
    exact ⟨feed.symm, stops.symm⟩
  · exact (built.grouped.route_eq second secondMember first firstMember precedes).2.2

/-- Where one trip of a pattern calls, every other one does. -/
theorem exists_call_of_pattern_eq
    (built : timetable.IsBuilt)
    (firstMember : first ∈ timetable.trips) (secondMember : second ∈ timetable.trips)
    (same : first.pattern = second.pattern) {place : Nat} {call : Call}
    (called : second.calls[place]? = some call) :
    ∃ other, first.calls[place]? = some other ∧ first.feed = second.feed ∧
      other.stop = call.stop := by
  obtain ⟨feed, stops⟩ := built.route_eq_of_pattern_eq firstMember secondMember same
  have atPlace := congrArg (fun stops => stops[place]?) stops
  simp only [List.getElem?_map, called, Option.map_some] at atPlace
  obtain ⟨other, otherCalled, stop⟩ := Option.map_eq_some_iff.mp atPlace
  exact ⟨other, otherCalled, feed, stop⟩

end Timetable.IsBuilt

namespace Planner

variable {planner before after : Planner} {catalogue : Catalogue} {trip : Trip} {place : Nat}

/-- The trip or an earlier one of its pattern was boarded at a place. -/
def BoardedAt
    (planner : Planner) (catalogue : Catalogue) (trip : Trip) (place : Nat) : Prop :=
  ∃ first, catalogue.trip? first.index = some first ∧ first.Precedes trip ∧
    .boarding ⟨first.index, place⟩ ∈ planner.journal.toList

/-- Earlier trips have lower indices, so there are only so many to look at. -/
instance : Decidable (planner.BoardedAt catalogue trip place) :=
  decidable_of_iff
    (∃ index < trip.index + 1, ∃ first ∈ catalogue.trip? index, first.index = index ∧
      first.Precedes trip ∧ .boarding ⟨index, place⟩ ∈ planner.journal.toList) <| by
    constructor
    · rintro ⟨_, _, first, found, rfl, precedes, entered⟩
      exact ⟨first, found, precedes, entered⟩
    · rintro ⟨first, found, precedes, entered⟩
      exact ⟨first.index, Nat.lt_succ_of_le precedes.1, first, found, rfl, precedes, entered⟩

/-- A ride on the trip or on an earlier one of its pattern passes a place: the ride can
be left there. -/
structure PassedBy
    (planner : Planner) (catalogue : Catalogue) (trip : Trip) (place : Nat)
    (handle : Nat) (ride : Ride) (first : Trip) : Prop where
  ride_eq : planner.rides.ride? handle = some ride
  trip_eq : catalogue.trip? ride.board.trip = some first
  precedes : first.Precedes trip
  after_board : ride.board.call < place
  before_limit : place < ride.limit

/-- Some ride passes a place of the trip. -/
def Passes
    (planner : Planner) (catalogue : Catalogue) (trip : Trip) (place : Nat) : Prop :=
  ∃ handle ride first, planner.PassedBy catalogue trip place handle ride first

theorem BoardedAt.grows
    (boarded : before.BoardedAt catalogue trip place) (grows : before.Grows after) :
    after.BoardedAt catalogue trip place := by
  obtain ⟨first, found, precedes, entered⟩ := boarded
  exact ⟨first, found, precedes, grows.journal.subset entered⟩

theorem Passes.grows
    (passes : before.Passes catalogue trip place) (grows : before.Grows after) :
    after.Passes catalogue trip place := by
  obtain ⟨handle, ride, first, passed⟩ := passes
  exact ⟨handle, ride, first,
    { passed with ride_eq := grows.ride handle ride passed.ride_eq }⟩

/-- What the bounds say of the trips is accounted for by rides and boardings. -/
structure Accounted (planner : Planner) (timetable : Timetable) : Prop where
  length_eq : planner.bounds.covered.length = timetable.trips.length
  falling : ∀ first ∈ timetable.trips, ∀ second ∈ timetable.trips, first.Precedes second →
    ∀ known limit, planner.bounds.coveredFrom? first.index = some known →
      planner.bounds.coveredFrom? second.index = some limit → limit ≤ known
  boundary : ∀ trip ∈ timetable.trips, ∀ limit,
    planner.bounds.coveredFrom? trip.index = some limit →
      limit = nowhere ∨ planner.BoardedAt timetable.catalogue trip limit
  passed : ∀ trip ∈ timetable.trips, ∀ limit,
    planner.bounds.coveredFrom? trip.index = some limit →
      ∀ place, limit < place → place < nowhere →
        planner.Passes timetable.catalogue trip place ∨
          planner.BoardedAt timetable.catalogue trip place

variable {timetable : Timetable}

theorem accounted_fresh
    (timetable : Timetable) (request : Request) (settings : Settings) :
    (fresh timetable.catalogue request settings).Accounted timetable := by
  have untouched : ∀ index limit,
      (fresh timetable.catalogue request settings).bounds.coveredFrom? index = some limit →
        limit = nowhere := by
    intro index limit known
    have member := List.mem_of_getElem? known
    exact List.eq_of_mem_replicate member
  refine ⟨List.length_replicate, ?_, ?_, ?_⟩
  · intro first _ second _ _ known limit knownAt limitAt
    rw [untouched _ _ knownAt, untouched _ _ limitAt]
  · intro trip _ limit limitAt
    exact .inl (untouched _ _ limitAt)
  · intro trip _ limit limitAt place beyond inside
    rw [untouched _ _ limitAt] at beyond
    exact absurd inside (Nat.lt_asymm beyond)

namespace Accounted

theorem exists_limit
    (accounted : planner.Accounted timetable) (built : timetable.IsBuilt)
    (member : trip ∈ timetable.trips) :
    ∃ limit, planner.bounds.coveredFrom? trip.index = some limit := by
  have found := built.trip?_index member
  have inside : trip.index < timetable.trips.length :=
    (List.getElem?_eq_some_iff.mp found).1
  rw [← accounted.length_eq] at inside
  exact ⟨_, List.getElem?_eq_getElem inside⟩

/-- What covers a trip covers the later trips of its pattern. -/
theorem covers_of_precedes
    (accounted : planner.Accounted timetable) (built : timetable.IsBuilt)
    {first : Trip} (firstMember : first ∈ timetable.trips) (member : trip ∈ timetable.trips)
    (precedes : first.Precedes trip) (covers : planner.bounds.Covers first.index place) :
    planner.bounds.Covers trip.index place := by
  obtain ⟨known, knownAt, reached⟩ := covers
  obtain ⟨limit, limitAt⟩ := accounted.exists_limit built member
  have below :=
    accounted.falling first firstMember trip member precedes known limit knownAt limitAt
  exact ⟨limit, limitAt, Nat.le_trans below reached⟩

/-- A planner with the same bounds on trips is accounted for as well. -/
theorem of_covered_eq
    (accounted : before.Accounted timetable) (grows : before.Grows after)
    (covered : after.bounds.covered = before.bounds.covered) :
    after.Accounted timetable := by
  have same : ∀ index,
      after.bounds.coveredFrom? index = before.bounds.coveredFrom? index := by
    intro index
    rw [Bounds.coveredFrom?, covered]
    rfl
  refine ⟨by rw [covered]; exact accounted.length_eq, ?_, ?_, ?_⟩
  · intro first firstMember second secondMember precedes known limit knownAt limitAt
    rw [same] at knownAt limitAt
    exact accounted.falling first firstMember second secondMember precedes known limit
      knownAt limitAt
  · intro trip member limit limitAt
    rw [same] at limitAt
    exact (accounted.boundary trip member limit limitAt).imp_right fun boarded =>
      boarded.grows grows
  · intro trip member limit limitAt place beyond inside
    rw [same] at limitAt
    exact (accounted.passed trip member limit limitAt place beyond inside).imp
      (fun passes => passes.grows grows) fun boarded => boarded.grows grows

/-- Along a pattern the bounds fall, so that covering has its closed form. -/
theorem pairwise_covered
    (accounted : planner.Accounted timetable) (built : timetable.IsBuilt)
    (member : trip ∈ timetable.trips) :
    ((planner.bounds.covered.take trip.patternEnd).drop trip.index).Pairwise
      fun earlier later => later ≤ earlier := by
  rw [List.pairwise_iff_getElem]
  intro early late earlyInside lateInside order
  rw [List.length_drop, List.length_take] at earlyInside lateInside
  simp only [List.getElem_drop, List.getElem_take]
  have known : ∀ step, step < min trip.patternEnd planner.bounds.covered.length - trip.index →
      ∃ other ∈ timetable.trips, other.index = trip.index + step ∧ trip.Precedes other := by
    intro step inside
    have present : trip.index + step < timetable.trips.length := by
      rw [← accounted.length_eq]
      omega
    have found := List.getElem?_eq_getElem present
    have index := built.grouped.index_eq found
    refine ⟨_, List.getElem_mem present, index, ?_⟩
    rw [Trip.Precedes, index]
    omega
  obtain ⟨first, firstMember, firstIndex, firstAfter⟩ := known early earlyInside
  obtain ⟨second, secondMember, secondIndex, secondAfter⟩ := known late lateInside
  have same := (built.grouped.route_eq trip member first firstMember firstAfter).2.1
  have precedes : first.Precedes second := by
    refine ⟨by omega, ?_⟩
    rw [same]
    exact secondAfter.2
  apply accounted.falling first firstMember second secondMember precedes
  · rw [Bounds.coveredFrom?, firstIndex]
    exact List.getElem?_eq_getElem _
  · rw [Bounds.coveredFrom?, secondIndex]
    exact List.getElem?_eq_getElem _

/-- After a boarding the trip and the later ones of its pattern are covered from there,
and every trip from where it was before. -/
theorem coveredFrom?_cover_eq
    (accounted : planner.Accounted timetable) (built : timetable.IsBuilt)
    (member : trip ∈ timetable.trips) (position : Position)
    {other : Trip} (otherMember : other ∈ timetable.trips) {limit : Nat}
    (limitAt : (planner.cover trip position).bounds.coveredFrom? other.index = some limit) :
    ∃ known, planner.bounds.coveredFrom? other.index = some known ∧
      (trip.Precedes other ∧ limit = min position.call known ∨
        ¬ trip.Precedes other ∧ limit = known) := by
  change (planner.bounds.cover trip.index trip.patternEnd position.call).coveredFrom?
    other.index = some limit at limitAt
  obtain ⟨known, knownAt⟩ := accounted.exists_limit built otherMember
  rw [Bounds.coveredFrom?_cover _ _ (accounted.pairwise_covered built member), knownAt,
    Option.map_some, Option.some.injEq] at limitAt
  refine ⟨known, knownAt, ?_⟩
  by_cases precedes : trip.index ≤ other.index ∧ other.index < trip.patternEnd
  · rw [if_pos precedes] at limitAt
    exact .inl ⟨precedes, limitAt.symm⟩
  · rw [if_neg precedes] at limitAt
    exact .inr ⟨precedes, limitAt.symm⟩

/-- A boarding keeps the account if rides pass everything from the boarding to the
boundary before. -/
theorem cover
    (accounted : planner.Accounted timetable) (built : timetable.IsBuilt)
    (member : trip ∈ timetable.trips) {position : Position}
    (index : position.trip = trip.index) {boundary : Nat}
    (boundaryAt : planner.bounds.coveredFrom? trip.index = some boundary)
    (passes : ∀ place, position.call < place → place < boundary →
      planner.Passes timetable.catalogue trip place) :
    (planner.cover trip position).Accounted timetable := by
  have grows := planner.grows_cover trip position
  have found := built.trip?_index member
  have entered : (planner.cover trip position).BoardedAt timetable.catalogue trip
      position.call := by
    refine ⟨trip, found, built.precedes_refl member, ?_⟩
    rw [← index]
    simp
  -- A boarding of a trip counts for the later trips of its pattern.
  have later : ∀ other, trip.Precedes other → ∀ place,
      (planner.cover trip position).BoardedAt timetable.catalogue trip place →
        (planner.cover trip position).BoardedAt timetable.catalogue other place := by
    rintro other precedes place ⟨first, firstFound, firstPrecedes, journal⟩
    have firstMember := Timetable.IsBuilt.mem_of_trip? firstFound
    exact ⟨first, firstFound,
      built.precedes_trans firstMember member firstPrecedes precedes, journal⟩
  refine ⟨?_, ?_, ?_, ?_⟩
  · rw [Planner.cover_bounds, Bounds.length_cover]
    exact accounted.length_eq
  · intro first firstMember second secondMember precedes known limit knownAt limitAt
    obtain ⟨firstBefore, firstAt, firstCase⟩ :=
      accounted.coveredFrom?_cover_eq built member position firstMember knownAt
    obtain ⟨secondBefore, secondAt, secondCase⟩ :=
      accounted.coveredFrom?_cover_eq built member position secondMember limitAt
    have order := accounted.falling first firstMember second secondMember precedes
      firstBefore secondBefore firstAt secondAt
    rcases firstCase with ⟨inFirst, rfl⟩ | ⟨_, rfl⟩
    · have inSecond := built.precedes_trans member firstMember inFirst precedes
      rcases secondCase with ⟨_, rfl⟩ | ⟨outside, _⟩
      · omega
      · exact absurd inSecond outside
    · rcases secondCase with ⟨_, rfl⟩ | ⟨_, rfl⟩
      · omega
      · exact order
  · intro other otherMember limit limitAt
    obtain ⟨known, knownAt, lowered⟩ :=
      accounted.coveredFrom?_cover_eq built member position otherMember limitAt
    have before := (accounted.boundary other otherMember known knownAt).imp_right
      fun boarded => boarded.grows grows
    rcases lowered with ⟨precedes, rfl⟩ | ⟨_, rfl⟩
    · rcases Nat.le_total position.call known with below | above
      · rw [Nat.min_eq_left below]
        exact .inr (later other precedes _ entered)
      · rw [Nat.min_eq_right above]
        exact before
    · exact before
  · intro other otherMember limit limitAt place beyond inside
    obtain ⟨known, knownAt, lowered⟩ :=
      accounted.coveredFrom?_cover_eq built member position otherMember limitAt
    by_cases old : known < place
    · exact (accounted.passed other otherMember known knownAt place old inside).imp
        (fun passes => passes.grows grows) fun boarded => boarded.grows grows
    · rcases lowered with ⟨precedes, rfl⟩ | ⟨_, rfl⟩
      · have below := accounted.falling trip member other otherMember precedes boundary known
          boundaryAt knownAt
        have after : position.call < place := by omega
        rcases Nat.lt_or_eq_of_le (show place ≤ boundary by omega) with before | rfl
        · obtain ⟨handle, ride, first, passed⟩ := passes place after before
          have firstMember := Timetable.IsBuilt.mem_of_trip? passed.trip_eq
          have carried : planner.Passes timetable.catalogue other place :=
            ⟨handle, ride, first,
              { passed with
                precedes :=
                  built.precedes_trans firstMember member passed.precedes precedes }⟩
          exact .inl (carried.grows grows)
        · -- The boundary itself is not ridden to, but it is where a boarding was.
          rcases accounted.boundary trip member place boundaryAt with rfl | boarded
          · exact absurd inside (Nat.lt_irrefl _)
          · exact .inr (later other precedes place (boarded.grows grows))
      · exact absurd beyond old

end Accounted

end Planner

namespace Outing

variable
  {outing : Outing} {timetable : Timetable} {transfers : TransferTable}
  {planner before after : Planner}

theorem Approaches.trip_eq
    {catalogue : Catalogue} {trip : Trip} {position : Position} {approach : Approach}
    (approaches : outing.Approaches catalogue transfers planner trip position approach) :
    catalogue.trip? position.trip = some trip := by
  cases approaches with
  | walk offers =>
      obtain ⟨_, _, _, _, _, usable⟩ := offers.first_usable
      exact (Catalogue.firstUsable_eq_some usable).2.1
  | transfer connects => exact connects.boarded_eq

theorem accounted_step
    (built : timetable.IsBuilt)
    (step : outing.Step timetable.catalogue transfers before after)
    (accounted : before.Accounted timetable) :
    after.Accounted timetable := by
  cases step with
  | enter event _ => exact accounted.of_covered_eq (before.grows_enter event) rfl
  | @cover trip position approach limit approaches known above near =>
      have found := approaches.trip_eq
      apply accounted.cover built (Timetable.IsBuilt.mem_of_trip? found)
        (built.index_eq found).symm known
      intro place after' before'
      omega
  | @board trip position approach limit ride approaches known far leads =>
      have found := approaches.trip_eq
      have member := Timetable.IsBuilt.mem_of_trip? found
      have stored : (before.store ride).Accounted timetable :=
        accounted.of_covered_eq (before.grows_store ride) rfl
      apply stored.cover built member (built.index_eq found).symm known
      intro place after' before'
      have newest : (before.store ride).rides.ride? before.rides.size = some ride := by
        rw [Planner.store_rides, RideStore.ride?_push, if_pos rfl]
      refine ⟨before.rides.size, ride, trip, newest, ?_, built.precedes_refl member, ?_, ?_⟩
      · cases leads <;> exact found
      · cases leads <;> exact after'
      · cases leads <;> exact before'
  | pass _ _ => exact accounted.of_covered_eq (before.grows_enter _) rfl
  | lose _ _ _ => exact accounted.of_covered_eq (before.grows_tighten _) rfl
  | find _ _ _ _ _ _ _ => exact accounted.of_covered_eq (before.grows_find _) rfl

theorem accounted_reach
    (built : timetable.IsBuilt)
    (reach : outing.Reach timetable.catalogue transfers before after)
    (accounted : before.Accounted timetable) :
    after.Accounted timetable := by
  induction reach with
  | refl => exact accounted
  | tail _ step hypothesis => exact accounted_step built step hypothesis

end Outing

end Transit
