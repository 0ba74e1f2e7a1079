import Transit.Proofs.Journey.Sample
import Transit.Proofs.Timetable.Checks
import Transit.Proofs.Timetable.Patterns
import Transit.Proofs.Order.Results

/-!
# The numbers of trips and patterns

Building a timetable numbers the given trips.  The numbers of a pattern's trips are a range,
the ranges of the patterns follow each other without a gap, and a range holds all trips of
one feed that make the same calls, in the order in which they start.  Patterns are told apart
by their names, and trips by their feeds and names.
-/

namespace Transit

/-- The trip as it was scheduled, without its place. -/
def Trip.scheduled (trip : Trip) : ScheduledTrip :=
  { feed := trip.feed, name := trip.name, route? := trip.route?, block? := trip.block?,
    service := trip.service, calls := trip.calls }

namespace ScheduledTrip

@[simp]
theorem scheduled_indexed (trip : ScheduledTrip) (index patternEnd : Nat) (pattern : String) :
    (trip.indexed index patternEnd pattern).scheduled = trip := rfl

/-- Strict order by first departure and then by name. -/
def StartsBefore (first second : ScheduledTrip) : Prop :=
  first.startSeconds < second.startSeconds ∨
    first.startSeconds = second.startSeconds ∧ first.name < second.name

theorem mayPrecede_iff (first second : ScheduledTrip) :
    first.mayPrecede second = true ↔
      first.startSeconds < second.startSeconds ∨
        first.startSeconds = second.startSeconds ∧ first.name ≤ second.name := by
  simp [mayPrecede]

/-- Trips of one feed with names of their own are arranged strictly. -/
theorem pairwise_arrange_startsBefore {trips : List ScheduledTrip}
    (distinct : trips.Pairwise fun first second => first.name ≠ second.name) :
    (Order.arrange mayPrecede trips).Pairwise StartsBefore := by
  have total : ∀ first second : ScheduledTrip,
      first.mayPrecede second = true ∨ second.mayPrecede first = true := by
    intro first second
    rw [mayPrecede_iff, mayPrecede_iff]
    rcases Nat.lt_trichotomy first.startSeconds second.startSeconds with earlier | same | later
    · exact .inl (.inl earlier)
    · rcases String.le_total first.name second.name with names | names
      · exact .inl (.inr ⟨same, names⟩)
      · exact .inr (.inr ⟨same.symm, names⟩)
    · exact .inr (.inl later)
  have transitive : ∀ first second third : ScheduledTrip,
      first.mayPrecede second = true → second.mayPrecede third = true →
        first.mayPrecede third = true := by
    intro first second third
    rw [mayPrecede_iff, mayPrecede_iff, mayPrecede_iff]
    rintro (earlier | ⟨same, names⟩) (later | ⟨alike, further⟩)
    · exact .inl (earlier.trans later)
    · exact .inl (alike ▸ earlier)
    · exact .inl (same ▸ later)
    · exact .inr ⟨same.trans alike, String.le_trans names further⟩
  apply (Order.pairwise_arrange_of_pairwise total transitive distinct).imp
  rintro first second ⟨precedes, tied⟩
  rw [mayPrecede_iff] at precedes tied
  rcases precedes with earlier | ⟨same, names⟩
  · exact .inl earlier
  · refine .inr ⟨same, ?_⟩
    by_cases back : second.name ≤ first.name
    · exact Std.lt_of_le_of_ne names (tied (.inr ⟨same.symm, back⟩))
    · exact String.not_le.mp back

end ScheduledTrip

namespace Pattern

/-- A trip's number lies in the range of a pattern. -/
def Holds (pattern : Pattern) (index : Nat) : Prop :=
  pattern.first ≤ index ∧ index < pattern.finish

instance (pattern : Pattern) (index : Nat) : Decidable (pattern.Holds index) :=
  inferInstanceAs (Decidable (_ ∧ _))

/-- The ranges of patterns have trips and follow each other without a gap, from a start up to
a finish. -/
def Tile : (start : Nat) → List Pattern → (finish : Nat) → Prop
  | start, [], finish => start = finish
  | start, pattern :: rest, finish =>
      pattern.first = start ∧ start < pattern.finish ∧ Tile pattern.finish rest finish

variable {start finish index : Nat} {patterns : List Pattern}

theorem Tile.start_le_first (tile : Tile start patterns finish) :
    ∀ pattern ∈ patterns, start ≤ pattern.first := by
  induction patterns generalizing start with
  | nil => simp
  | cons pattern rest hypothesis =>
      obtain ⟨begins, more, tile⟩ := tile
      refine List.forall_mem_cons.mpr ⟨Nat.le_of_eq begins.symm, fun later member => ?_⟩
      exact Nat.le_trans (Nat.le_of_lt more) (hypothesis tile later member)

/-- Every number from the start to the finish lies in the range of one pattern. -/
theorem Tile.existsUnique (tile : Tile start patterns finish) (after : start ≤ index)
    (before : index < finish) :
    ∃! pattern, pattern ∈ patterns ∧ pattern.Holds index := by
  induction patterns generalizing start with
  | nil =>
      have whole : start = finish := tile
      omega
  | cons pattern rest hypothesis =>
      obtain ⟨begins, _, tile⟩ := tile
      by_cases here : index < pattern.finish
      · refine ⟨pattern, ⟨List.mem_cons_self, Nat.le_trans (Nat.le_of_eq begins) after, here⟩, ?_⟩
        rintro other ⟨member, holds⟩
        rcases List.mem_cons.mp member with same | later
        · exact same
        · have apart := tile.start_le_first other later
          exact absurd holds.1 (by omega)
      · obtain ⟨other, ⟨member, holds⟩, unique⟩ := hypothesis tile (Nat.le_of_not_lt here)
        refine ⟨other, ⟨List.mem_cons_of_mem pattern member, holds⟩, ?_⟩
        rintro another ⟨anotherMember, anotherHolds⟩
        rcases List.mem_cons.mp anotherMember with same | later
        · exact absurd (same ▸ anotherHolds.2) here
        · exact unique another ⟨later, anotherHolds⟩

end Pattern

namespace Timetable

section Blocks

variable {groups : Grouping (String × List String) ScheduledTrip}

/-- Every enumerated pattern is that of a block. -/
theorem getElem?_patterns (number index block : Nat) (pattern : Pattern) :
    (enumerate number index groups).2[block]? = some pattern ↔
      ∃ feed stops members, groups[block]? = some ((feed, stops), members) ∧
        pattern =
          { name := s!"{feed}:p{number + block}", feed, stops
            first := index + blockStart groups block
            finish := index + blockStart groups (block + 1) } := by
  induction groups generalizing number index block with
  | nil => simp [enumerate]
  | cons group rest hypothesis =>
      obtain ⟨⟨feed, stops⟩, members⟩ := group
      cases block with
      | zero =>
          rw [blockStart_cons]
          simp [enumerate, blockStart, eq_comm]
      | succ block =>
          rw [enumerate, List.getElem?_cons_succ, hypothesis, blockStart_cons, blockStart_cons,
            List.getElem?_cons_succ]
          simp only [Nat.add_assoc, Nat.add_comm 1 block]

theorem tile_patterns (number index : Nat)
    (some_member : ∀ key members, (key, members) ∈ groups → members ≠ []) :
    Pattern.Tile index (enumerate number index groups).2
      (index + (enumerate number index groups).1.length) := by
  induction groups generalizing number index with
  | nil => exact rfl
  | cons group rest hypothesis =>
      obtain ⟨⟨feed, stops⟩, members⟩ := group
      have here := List.length_pos_iff.mpr (some_member (feed, stops) members List.mem_cons_self)
      have later := hypothesis (number + 1) (index + members.length)
        fun key members member => some_member key members (List.mem_cons_of_mem _ member)
      rw [enumerate, List.length_append, List.length_map, List.length_zipIdx,
        (Order.arrange_perm _ members).length_eq, ← Nat.add_assoc]
      exact ⟨rfl, Nat.lt_add_of_pos_right here, later⟩

/-- The enumerated trips are those of the groups. -/
theorem scheduled_enumerate (number index : Nat) :
    ((enumerate number index groups).1.map Trip.scheduled).Perm (groups.flatMap Prod.snd) := by
  induction groups generalizing number index with
  | nil => exact .refl _
  | cons group rest hypothesis =>
      obtain ⟨⟨feed, stops⟩, members⟩ := group
      rw [enumerate, List.map_append, List.map_map, List.flatMap_cons]
      refine List.Perm.append ?_ (hypothesis (number + 1) _)
      -- Without their places the trips are the members as they are arranged.
      have arranged :=
        List.zipIdx_map_fst index (Order.arrange ScheduledTrip.mayPrecede members)
      exact (List.Perm.of_eq arranged).trans (Order.arrange_perm _ members)

variable
  {first second : Trip} {block : Nat} {feed feed' : String} {stops stops' : List String}
  {members members' : List ScheduledTrip} {scheduled scheduled' : ScheduledTrip}

/-- A trip in the range of a pattern is one of the pattern's block. -/
theorem exists_inBlock_of_holds
    {pattern : Pattern} (member : first ∈ (enumerate 0 0 groups).1)
    (found : (enumerate 0 0 groups).2[block]? = some pattern)
    (holds : pattern.Holds first.index) :
    ∃ members scheduled,
      InBlock groups first block pattern.feed pattern.stops members scheduled ∧
        pattern.name = s!"{pattern.feed}:p{block}" ∧
        pattern.finish = blockStart groups (block + 1) := by
  obtain ⟨feed, stops, members, block_eq, rfl⟩ := (getElem?_patterns 0 0 block pattern).mp found
  obtain ⟨place, placed⟩ := List.mem_iff_getElem?.mp member
  obtain ⟨_, other, feed', stops', members', scheduled, inBlock⟩ := exists_inBlock placed
  simp only [Pattern.Holds, Nat.zero_add] at holds
  obtain rfl := block_unique holds ⟨inBlock.start_le, inBlock.lt_end⟩
  have same := inBlock.block_eq.symm.trans block_eq
  cases same
  exact ⟨members, scheduled, inBlock, by rw [Nat.zero_add], Nat.zero_add _⟩

/-- The block of a trip has a pattern, and the trip is in its range. -/
theorem InBlock.exists_pattern
    (inside : InBlock groups first block feed stops members scheduled) :
    ∃ pattern, (enumerate 0 0 groups).2[block]? = some pattern ∧
      pattern.Holds first.index := by
  have found := (getElem?_patterns 0 0 block _).mpr ⟨feed, stops, members, inside.block_eq, rfl⟩
  refine ⟨_, found, ?_⟩
  simp only [Pattern.Holds, Nat.zero_add]
  exact ⟨inside.start_le, inside.lt_end⟩

/-- The trips of a block start one after the other, if they have names of their own. -/
theorem InBlock.startsBefore
    (inside : InBlock groups first block feed stops members scheduled)
    (inside' : InBlock groups second block feed' stops' members' scheduled')
    (distinct : members.Pairwise fun one other => one.name ≠ other.name)
    (before : first.index < second.index) :
    first.scheduled.StartsBefore second.scheduled := by
  have same := inside.block_eq.symm.trans inside'.block_eq
  cases same
  obtain ⟨firstIn, found⟩ := List.getElem?_eq_some_iff.mp inside.placed
  obtain ⟨secondIn, found'⟩ := List.getElem?_eq_some_iff.mp inside'.placed
  rw [inside.trip_eq, inside'.trip_eq, ScheduledTrip.scheduled_indexed,
    ScheduledTrip.scheduled_indexed, ← found, ← found']
  apply List.pairwise_iff_getElem.mp (ScheduledTrip.pairwise_arrange_startsBefore distinct)
  have start := inside.start_le
  omega

end Blocks

section Group

variable
  {given : List ScheduledTrip} {first second : Trip} {block other : Nat}
  {feed feed' : String} {stops stops' : List String}
  {members members' : List ScheduledTrip} {scheduled scheduled' : ScheduledTrip}

theorem InBlock.route_eq
    (inside : InBlock (group given) first block feed stops members scheduled) :
    first.feed = feed ∧ first.calls.map Call.stop = stops := by
  obtain ⟨_, route⟩ :=
    route_of_mem_group (List.mem_of_getElem? inside.block_eq) inside.member
  rw [inside.trip_eq]
  exact Prod.mk.inj route

/-- No two groups are of one feed and the same stops. -/
theorem InBlock.block_eq_of_route
    (inside : InBlock (group given) first block feed stops members scheduled)
    (inside' : InBlock (group given) second other feed' stops' members' scheduled')
    (route : first.feed = second.feed ∧
      first.calls.map Call.stop = second.calls.map Call.stop) :
    block = other := by
  have keys : ((group given).map Prod.fst).Nodup := Grouping.nodup_ofPairs _
  obtain ⟨rfl, rfl⟩ := inside.route_eq
  obtain ⟨rfl, rfl⟩ := inside'.route_eq
  obtain ⟨blockIn, _⟩ := List.getElem?_eq_some_iff.mp inside.block_eq
  apply (List.getElem?_inj (by rw [List.length_map]; exact blockIn) keys).mp
  rw [List.getElem?_map, List.getElem?_map, inside.block_eq, inside'.block_eq, Option.map_some,
    Option.map_some, route.1, route.2]

/-- The trips of a group have names of their own. -/
theorem pairwise_name_of_group
    (distinct : (given.map fun trip => (trip.feed, trip.name)).Nodup)
    (known : ((feed, stops), members) ∈ group given) :
    members.Pairwise fun one other => one.name ≠ other.name := by
  obtain ⟨_, rfl⟩ := mem_group.mp known
  have apart := (List.pairwise_map.mp distinct).filter
    fun trip => decide (trip.route = (feed, stops))
  apply apart.imp_of_mem
  intro one other member otherMember different same
  have routes : one.route = (feed, stops) ∧ other.route = (feed, stops) := by
    simpa using And.intro (List.mem_filter.mp member).2 (List.mem_filter.mp otherMember).2
  have feeds : one.feed = other.feed := congrArg Prod.fst (routes.1.trans routes.2.symm)
  exact different (Prod.ext feeds same)

end Group

/-- Patterns have names of their own. -/
theorem nodup_patternNames (groups : Grouping (String × List String) ScheduledTrip) :
    ((enumerate 0 0 groups).2.map Pattern.name).Nodup := by
  apply List.pairwise_map.mpr
  rw [List.pairwise_iff_getElem]
  intro first second firstIn secondIn before same
  obtain ⟨feed, _, _, _, pattern⟩ :=
    (getElem?_patterns 0 0 first _).mp (List.getElem?_eq_getElem firstIn)
  obtain ⟨feed', _, _, _, pattern'⟩ :=
    (getElem?_patterns 0 0 second _).mp (List.getElem?_eq_getElem secondIn)
  rw [pattern, pattern'] at same
  have equal := patternName_injective same
  omega

/-- Where trips have names of their own, each is found by its name. -/
theorem tripIndex?_eq_some_iff
    {timetable : Timetable}
    (distinct : (timetable.trips.map fun trip => (trip.feed, trip.name)).Nodup)
    (feed name : String) (index : Nat) :
    timetable.tripIndex? feed name = some index ↔
      ∃ trip, timetable.trips[index]? = some trip ∧ trip.feed = feed ∧ trip.name = name := by
  rw [tripIndex?, List.findIdx?_eq_some_iff_getElem]
  constructor
  · rintro ⟨inside, found, _⟩
    exact ⟨_, List.getElem?_eq_getElem inside, by simpa using found⟩
  · rintro ⟨trip, found, rfl, rfl⟩
    obtain ⟨inside, rfl⟩ := List.getElem?_eq_some_iff.mp found
    refine ⟨inside, by simp, ?_⟩
    intro earlier before same
    have apart := List.pairwise_iff_getElem.mp (List.pairwise_map.mp distinct) earlier index
      (Nat.lt_trans before inside) inside before
    exact apart (by simpa using same)

/-- A timetable holds given trips, numbered pattern by pattern. -/
structure Represents (timetable : Timetable) (given : List ScheduledTrip) : Prop where
  /-- The trips are the given ones, each of them once. -/
  trips_perm : (timetable.trips.map Trip.scheduled).Perm given
  /-- A trip's index is its place. -/
  index_eq : ∀ (place : Nat) (trip : Trip),
    timetable.trips[place]? = some trip → trip.index = place
  /-- The patterns' ranges are not empty and follow each other, from the first trip to the
  last. -/
  tiled : Pattern.Tile 0 timetable.patterns timetable.trips.length
  /-- Every index is in one range. -/
  existsUnique : ∀ index < timetable.trips.length,
    ∃! pattern, pattern ∈ timetable.patterns ∧ pattern.Holds index
  /-- Trips are in one range if they are of one feed and call at the same stops. -/
  together_iff : ∀ first ∈ timetable.trips, ∀ second ∈ timetable.trips,
    (∃ pattern ∈ timetable.patterns, pattern.Holds first.index ∧ pattern.Holds second.index) ↔
      first.feed = second.feed ∧ first.calls.map Call.stop = second.calls.map Call.stop
  /-- A trip tells the pattern in whose range it is, and where the range ends. -/
  told : ∀ pattern ∈ timetable.patterns, ∀ trip ∈ timetable.trips, pattern.Holds trip.index →
    trip.patternEnd = pattern.finish ∧ trip.pattern = pattern.name ∧
      trip.feed = pattern.feed ∧ trip.calls.map Call.stop = pattern.stops
  /-- The trips of a range start one after the other. -/
  ordered : ∀ pattern ∈ timetable.patterns, ∀ first ∈ timetable.trips,
    ∀ second ∈ timetable.trips, pattern.Holds first.index → pattern.Holds second.index →
      first.index < second.index → first.scheduled.StartsBefore second.scheduled
  /-- No two patterns have one name. -/
  named : (timetable.patterns.map Pattern.name).Nodup
  /-- A trip is found by its feed and its name, and nothing else is. -/
  tripIndex?_iff : ∀ feed name index, timetable.tripIndex? feed name = some index ↔
    ∃ trip, timetable.trips[index]? = some trip ∧ trip.feed = feed ∧ trip.name = name

/-- The trips of groups of given trips are the given ones. -/
theorem scheduled_enumerate_group (given : List ScheduledTrip) :
    ((enumerate 0 0 (group given)).1.map Trip.scheduled).Perm given := by
  have values : ((given.map fun trip => (trip.route, trip)).map Prod.snd) = given := by
    rw [List.map_map]
    exact List.map_id given
  have grouped := Grouping.flatMap_snd_ofPairs (given.map fun trip => (trip.route, trip))
  rw [values] at grouped
  exact (scheduled_enumerate 0 0).trans grouped

theorem tile_enumerate_group (given : List ScheduledTrip) :
    Pattern.Tile 0 (enumerate 0 0 (group given)).2 (enumerate 0 0 (group given)).1.length := by
  have some_member : ∀ key members, (key, members) ∈ group given → members ≠ [] := by
    intro key members known
    obtain ⟨⟨trip, member, route⟩, rfl⟩ := mem_group.mp known
    exact List.ne_nil_of_mem (List.mem_filter.mpr ⟨member, by simpa using route⟩)
  have tile := tile_patterns 0 0 some_member
  rw [Nat.zero_add] at tile
  exact tile

/-- Trips are in the range of one pattern if they are of one feed and call at the same
stops. -/
theorem together_iff_of_group
    {given : List ScheduledTrip} {first second : Trip}
    (firstMember : first ∈ (enumerate 0 0 (group given)).1)
    (secondMember : second ∈ (enumerate 0 0 (group given)).1) :
    (∃ pattern ∈ (enumerate 0 0 (group given)).2,
      pattern.Holds first.index ∧ pattern.Holds second.index) ↔
      first.feed = second.feed ∧ first.calls.map Call.stop = second.calls.map Call.stop := by
  constructor
  · rintro ⟨pattern, member, holds, holds'⟩
    obtain ⟨block, found⟩ := List.mem_iff_getElem?.mp member
    obtain ⟨_, _, inBlock, _⟩ := exists_inBlock_of_holds firstMember found holds
    obtain ⟨_, _, inBlock', _⟩ := exists_inBlock_of_holds secondMember found holds'
    obtain ⟨feed, stops⟩ := inBlock.route_eq
    obtain ⟨feed', stops'⟩ := inBlock'.route_eq
    exact ⟨feed.trans feed'.symm, stops.trans stops'.symm⟩
  · intro route
    obtain ⟨place, placed⟩ := List.mem_iff_getElem?.mp firstMember
    obtain ⟨place', placed'⟩ := List.mem_iff_getElem?.mp secondMember
    obtain ⟨_, block, _, _, _, _, inBlock⟩ := exists_inBlock placed
    obtain ⟨_, other, _, _, _, _, inBlock'⟩ := exists_inBlock placed'
    obtain rfl := inBlock.block_eq_of_route inBlock' route
    obtain ⟨pattern, found, holds⟩ := inBlock.exists_pattern
    obtain ⟨pattern', found', holds'⟩ := inBlock'.exists_pattern
    cases found.symm.trans found'
    exact ⟨pattern, List.mem_of_getElem? found, holds, holds'⟩

/-- A timetable that was built holds the trips it was built of. -/
theorem represents_of_build
    {given : List ScheduledTrip} {timetable : Timetable}
    (built : build given = .ok timetable) :
    timetable.Represents given := by
  unfold build at built
  obtain ⟨_, checked, built⟩ := Except.bind_eq_ok.mp built
  obtain ⟨boardings, _, built⟩ := Except.bind_eq_ok.mp built
  cases built
  obtain ⟨distinct, _⟩ := ScheduledTrip.nodup_of_checkAll checked
  have perm := scheduled_enumerate_group given
  have tiled := tile_enumerate_group given
  refine ⟨perm, fun place trip found => (exists_inBlock found).1, tiled,
    fun index inside => tiled.existsUnique (Nat.zero_le index) inside,
    fun first firstMember second secondMember =>
      together_iff_of_group firstMember secondMember, ?_, ?_, nodup_patternNames _, ?_⟩
  · intro pattern member trip tripMember holds
    obtain ⟨block, found⟩ := List.mem_iff_getElem?.mp member
    obtain ⟨_, _, inBlock, name, finish⟩ := exists_inBlock_of_holds tripMember found holds
    exact ⟨inBlock.patternEnd_eq.trans finish.symm, inBlock.pattern_eq.trans name.symm,
      inBlock.route_eq⟩
  · intro pattern member first firstMember second secondMember holds holds' before
    obtain ⟨block, found⟩ := List.mem_iff_getElem?.mp member
    obtain ⟨_, _, inBlock, _⟩ := exists_inBlock_of_holds firstMember found holds
    obtain ⟨_, _, inBlock', _⟩ := exists_inBlock_of_holds secondMember found holds'
    have known := List.mem_of_getElem? inBlock.block_eq
    exact inBlock.startsBefore inBlock' (pairwise_name_of_group distinct known) before
  · apply tripIndex?_eq_some_iff
    have names := (perm.map fun trip => (trip.feed, trip.name)).nodup_iff.mpr distinct
    rw [List.map_map] at names
    exact names

/-- The trips of a ring are numbered in the order in which they start, and before the trip
that leaves it. -/
theorem represents_ring :
    build Sample.ringPlan.trips = .ok Sample.ring.timetable ∧
      Sample.ring.timetable.trips.map Trip.name = ["early", "late", "out"] ∧
      Sample.ring.timetable.patterns.map (fun pattern => (pattern.first, pattern.finish)) =
        [(0, 2), (2, 3)] ∧
      Sample.ring.timetable.Represents Sample.ringPlan.trips := by
  have built : build Sample.ringPlan.trips = .ok Sample.ring.timetable := by decide +kernel
  refine ⟨built, ?_, ?_, represents_of_build built⟩
  · decide +kernel
  · decide +kernel

end Timetable

end Transit
