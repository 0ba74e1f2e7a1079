import Transit.Proofs.Order.Arrange
import Transit.Proofs.Order.Grouping
import Transit.Schedule.Timetable

/-!
# The trips of a timetable

The trips of a pattern stand together, and a pattern is known by its name.  That is
what `Timetable.IsGrouped` says of a list of trips.  Trips are numbered group after
group, so the trips of a block begin where the trips of the blocks before it end.
-/

namespace Transit

/-- A trip and a later one of the same pattern, or the same trip. -/
def Trip.Precedes (first second : Trip) : Prop :=
  first.index ≤ second.index ∧ second.index < first.patternEnd

instance (first second : Trip) : Decidable (first.Precedes second) :=
  inferInstanceAs (Decidable (_ ∧ _))

namespace Timetable

/-- The trips of a pattern stand together and a pattern is known by its name. -/
structure IsGrouped (trips : List Trip) : Prop where
  index_eq : ∀ {place : Nat} {trip : Trip}, trips[place]? = some trip → trip.index = place
  inside : ∀ trip ∈ trips, trip.index < trip.patternEnd
  patternEnd_le : ∀ trip ∈ trips, trip.patternEnd ≤ trips.length
  route_eq : ∀ first ∈ trips, ∀ second ∈ trips, first.Precedes second →
    second.pattern = first.pattern ∧ second.patternEnd = first.patternEnd ∧
      second.feed = first.feed ∧ second.calls.map Call.stop = first.calls.map Call.stop
  patternEnd_eq : ∀ first ∈ trips, ∀ second ∈ trips,
    first.pattern = second.pattern → first.patternEnd = second.patternEnd

/-- A trip of a list has its place as its index. -/
theorem IsGrouped.index_getElem
    {trips : List Trip} (grouped : IsGrouped trips) {index : Nat} (known : index < trips.length) :
    trips[index].index = index :=
  grouped.index_eq (List.getElem?_eq_getElem known)

/-- The characters of a pattern's name. -/
theorem toList_patternName (feed : String) (number : Nat) :
    s!"{feed}:p{number}".toList = feed.toList ++ ':' :: 'p' :: Nat.toDigits 10 number := by
  simp [toString, Nat.toList_repr]

/-- A pattern's number can be read off its name. -/
theorem patternName_injective
    {feed other : String} {number another : Nat}
    (same : s!"{feed}:p{number}" = s!"{other}:p{another}") :
    number = another := by
  have digits : ∀ (feed : String) (number : Nat),
      (s!"{feed}:p{number}".toList.reverse.takeWhile Char.isDigit).reverse =
        Nat.toDigits 10 number := by
    intro feed number
    have digit : ∀ character ∈ (Nat.toDigits 10 number).reverse,
        character.isDigit = true := by
      intro character member
      exact Nat.isDigit_of_mem_toDigits (by decide) (by decide) (List.mem_reverse.mp member)
    rw [toList_patternName, List.reverse_append, List.reverse_cons, List.reverse_cons,
      List.append_assoc, List.append_assoc, List.takeWhile_append_of_pos digit]
    simp
  have equal : Nat.toDigits 10 number = Nat.toDigits 10 another := by
    rw [← digits feed number, ← digits other another, same]
  calc
    number = Nat.ofDigitChars 10 (Nat.toDigits 10 number) 0 :=
      Nat.ofDigitChars_ten_toDigits.symm
    _ = Nat.ofDigitChars 10 (Nat.toDigits 10 another) 0 := by rw [equal]
    _ = another := Nat.ofDigitChars_ten_toDigits

section Blocks

variable {groups : Grouping (String × List String) ScheduledTrip}

/-- Where the trips of a block begin. -/
def blockStart (groups : Grouping (String × List String) ScheduledTrip) (block : Nat) : Nat :=
  ((groups.take block).flatMap Prod.snd).length

theorem blockStart_succ
    {block : Nat} {key : String × List String} {members : List ScheduledTrip}
    (found : groups[block]? = some (key, members)) :
    blockStart groups (block + 1) = blockStart groups block + members.length := by
  simp [blockStart, List.take_add_one, found]

theorem blockStart_mono {first second : Nat} (before : first ≤ second) :
    blockStart groups first ≤ blockStart groups second := by
  have grown : groups.take first <+: groups.take second :=
    List.take_prefix_take_left before
  obtain ⟨rest, split⟩ := grown
  rw [blockStart, blockStart, ← split, List.flatMap_append, List.length_append]
  exact Nat.le_add_right _ _

/-- Blocks do not overlap. -/
theorem block_unique
    {index block other : Nat}
    (inside : blockStart groups block ≤ index ∧ index < blockStart groups (block + 1))
    (inside' : blockStart groups other ≤ index ∧ index < blockStart groups (other + 1)) :
    block = other := by
  rcases Nat.lt_trichotomy block other with earlier | same | later
  · have gap : blockStart groups (block + 1) ≤ blockStart groups other :=
      blockStart_mono earlier
    omega
  · exact same
  · have gap : blockStart groups (other + 1) ≤ blockStart groups block :=
      blockStart_mono later
    omega

theorem blockStart_cons
    (key : String × List String) (members : List ScheduledTrip) (block : Nat) :
    blockStart ((key, members) :: groups) (block + 1) =
      members.length + blockStart groups block := by
  simp [blockStart]

/-- Every enumerated trip is a member of a block, and every member of a block is
enumerated. -/
theorem getElem?_enumerate (number index place : Nat) (trip : Trip) :
    (enumerate number index groups).1[place]? = some trip ↔
      ∃ block feed stops members offset scheduled,
        groups[block]? = some ((feed, stops), members) ∧
          (Order.arrange ScheduledTrip.mayPrecede members)[offset]? = some scheduled ∧
          place = blockStart groups block + offset ∧
          trip = scheduled.indexed (index + place)
            (index + blockStart groups block + members.length) s!"{feed}:p{number + block}" := by
  induction groups generalizing number index place with
  | nil => simp [enumerate]
  | cons group rest hypothesis =>
      obtain ⟨⟨feed, stops⟩, members⟩ := group
      have size : (Order.arrange ScheduledTrip.mayPrecede members).length = members.length :=
        (Order.arrange_perm _ members).length_eq
      rw [enumerate, List.getElem?_append]
      simp only [List.length_map, List.length_zipIdx, size]
      by_cases here : place < members.length
      · rw [if_pos here, List.getElem?_map, List.getElem?_zipIdx, Option.map_map,
          Option.map_eq_some_iff]
        constructor
        · rintro ⟨scheduled, found, rfl⟩
          exact ⟨0, feed, stops, members, place, scheduled, rfl, found, by simp [blockStart],
            by simp [blockStart]⟩
        · rintro ⟨block, feed', stops', members', offset, scheduled, found, member, at', rfl⟩
          cases block with
          | zero =>
              cases found
              have same : place = offset := by simpa [blockStart] using at'
              subst same
              exact ⟨scheduled, member, by simp [blockStart]⟩
          | succ block =>
              rw [blockStart_cons] at at'
              omega
      · have reached := Nat.le_of_not_lt here
        rw [if_neg here, hypothesis]
        constructor
        · rintro ⟨block, feed', stops', members', offset, scheduled, found, member, at', rfl⟩
          refine ⟨block + 1, feed', stops', members', offset, scheduled, found, member, ?_, ?_⟩
          · rw [blockStart_cons]
            omega
          · rw [blockStart_cons, Nat.add_right_comm number 1 block]
            congr 1 <;> omega
        · rintro ⟨block, feed', stops', members', offset, scheduled, found, member, at', rfl⟩
          cases block with
          | zero =>
              cases found
              have inside := (List.getElem?_eq_some_iff.mp member).1
              rw [size] at inside
              have same : place = offset := by simpa [blockStart] using at'
              omega
          | succ block =>
              rw [blockStart_cons] at at' ⊢
              refine ⟨block, feed', stops', members', offset, scheduled, found, member, ?_, ?_⟩
              · omega
              · rw [Nat.add_right_comm number 1 block]
                congr 1 <;> omega

theorem length_enumerate (number index : Nat) :
    (enumerate number index groups).1.length = blockStart groups groups.length := by
  induction groups generalizing number index with
  | nil => rfl
  | cons group rest hypothesis =>
      obtain ⟨⟨feed, stops⟩, members⟩ := group
      rw [enumerate, List.length_append, List.length_map, List.length_zipIdx,
        (Order.arrange_perm _ members).length_eq, hypothesis, List.length_cons,
        blockStart_cons]

/-- A trip has the number and the name of its place in a block. -/
structure InBlock
    (groups : Grouping (String × List String) ScheduledTrip) (trip : Trip) (block : Nat)
    (feed : String) (stops : List String) (members : List ScheduledTrip)
    (scheduled : ScheduledTrip) : Prop where
  block_eq : groups[block]? = some ((feed, stops), members)
  placed : (Order.arrange ScheduledTrip.mayPrecede members)[
    trip.index - blockStart groups block]? = some scheduled
  start_le : blockStart groups block ≤ trip.index
  lt_end : trip.index < blockStart groups (block + 1)
  trip_eq : trip =
    scheduled.indexed trip.index (blockStart groups (block + 1)) s!"{feed}:p{block}"

theorem exists_inBlock
    {place : Nat} {trip : Trip}
    (found : (enumerate 0 0 groups).1[place]? = some trip) :
    trip.index = place ∧
      ∃ block feed stops members scheduled,
        InBlock groups trip block feed stops members scheduled := by
  obtain ⟨block, feed, stops, members, offset, scheduled, known, member, rfl, rfl⟩ :=
    (getElem?_enumerate 0 0 place trip).mp found
  have inside := (List.getElem?_eq_some_iff.mp member).1
  rw [(Order.arrange_perm _ members).length_eq] at inside
  refine ⟨Nat.zero_add _, block, feed, stops, members, scheduled, known, ?_, ?_, ?_, ?_⟩
  · simpa [ScheduledTrip.indexed] using member
  · simp [ScheduledTrip.indexed]
  · rw [blockStart_succ known]
    simp only [ScheduledTrip.indexed]
    omega
  · rw [blockStart_succ known, Nat.zero_add]
    simp [ScheduledTrip.indexed]

variable
  {first second : Trip} {block other : Nat} {feed feed' : String}
  {stops stops' : List String} {members members' : List ScheduledTrip}
  {scheduled scheduled' : ScheduledTrip}

theorem InBlock.member
    (inside : InBlock groups first block feed stops members scheduled) :
    scheduled ∈ members :=
  (Order.mem_arrange _ _ _).mp (List.mem_of_getElem? inside.placed)

theorem InBlock.pattern_eq
    (inside : InBlock groups first block feed stops members scheduled) :
    first.pattern = s!"{feed}:p{block}" := by
  rw [inside.trip_eq]
  rfl

theorem InBlock.patternEnd_eq
    (inside : InBlock groups first block feed stops members scheduled) :
    first.patternEnd = blockStart groups (block + 1) := by
  rw [inside.trip_eq]
  rfl

theorem InBlock.block_eq_of_precedes
    (inside : InBlock groups first block feed stops members scheduled)
    (inside' : InBlock groups second other feed' stops' members' scheduled')
    (precedes : first.Precedes second) :
    block = other := by
  obtain ⟨order, before⟩ := precedes
  rw [inside.patternEnd_eq] at before
  exact block_unique ⟨Nat.le_trans inside.start_le order, before⟩
    ⟨inside'.start_le, inside'.lt_end⟩

end Blocks

/-- A group holds all trips of its key, in the order in which they were given. -/
theorem mem_group
    {trips : List ScheduledTrip} {key : String × List String} {members : List ScheduledTrip} :
    (key, members) ∈ group trips ↔
      (∃ trip ∈ trips, trip.route = key) ∧
        members = trips.filter fun trip => trip.route = key := by
  have filtered :
      ((trips.map fun trip => (trip.route, trip)).filter (·.1 = key)).map Prod.snd =
        trips.filter fun trip => trip.route = key := by
    rw [List.filter_map, List.map_map]
    exact List.map_id _
  rw [group, Grouping.mem_ofPairs, filtered]
  simp

/-- The trips of a group have the feed and the stops of its key. -/
theorem route_of_mem_group
    {trips : List ScheduledTrip} {key : String × List String}
    {members : List ScheduledTrip} {scheduled : ScheduledTrip}
    (known : (key, members) ∈ group trips) (member : scheduled ∈ members) :
    scheduled ∈ trips ∧ scheduled.route = key := by
  obtain ⟨_, rfl⟩ := mem_group.mp known
  simpa using member

theorem isGrouped_enumerate (trips : List ScheduledTrip) :
    IsGrouped (enumerate 0 0 (group trips)).1 where
  index_eq found := (exists_inBlock found).1
  inside trip member := by
    obtain ⟨place, found⟩ := List.mem_iff_getElem?.mp member
    obtain ⟨_, block, feed, stops, members, scheduled, inBlock⟩ := exists_inBlock found
    rw [inBlock.patternEnd_eq]
    exact inBlock.lt_end
  patternEnd_le trip member := by
    obtain ⟨place, found⟩ := List.mem_iff_getElem?.mp member
    obtain ⟨_, block, feed, stops, members, scheduled, inBlock⟩ := exists_inBlock found
    rw [inBlock.patternEnd_eq, length_enumerate]
    exact blockStart_mono (List.getElem?_eq_some_iff.mp inBlock.block_eq).1
  route_eq first firstMember second secondMember precedes := by
    obtain ⟨place, found⟩ := List.mem_iff_getElem?.mp firstMember
    obtain ⟨place', found'⟩ := List.mem_iff_getElem?.mp secondMember
    obtain ⟨_, block, feed, stops, members, scheduled, inBlock⟩ := exists_inBlock found
    obtain ⟨_, other, feed', stops', members', scheduled', inBlock'⟩ := exists_inBlock found'
    obtain rfl := inBlock.block_eq_of_precedes inBlock' precedes
    have same := inBlock.block_eq.symm.trans inBlock'.block_eq
    cases same
    have known := List.mem_of_getElem? inBlock.block_eq
    obtain ⟨_, route⟩ := route_of_mem_group known inBlock.member
    obtain ⟨_, route'⟩ := route_of_mem_group known inBlock'.member
    have routes : scheduled'.route = scheduled.route := route'.trans route.symm
    obtain ⟨sameFeed, sameStops⟩ := Prod.mk.inj routes
    refine ⟨inBlock'.pattern_eq.trans inBlock.pattern_eq.symm,
      inBlock'.patternEnd_eq.trans inBlock.patternEnd_eq.symm, ?_, ?_⟩
    · rw [inBlock.trip_eq, inBlock'.trip_eq]
      exact sameFeed
    · rw [inBlock.trip_eq, inBlock'.trip_eq]
      exact sameStops
  patternEnd_eq first firstMember second secondMember same := by
    obtain ⟨place, found⟩ := List.mem_iff_getElem?.mp firstMember
    obtain ⟨place', found'⟩ := List.mem_iff_getElem?.mp secondMember
    obtain ⟨_, block, feed, stops, members, scheduled, inBlock⟩ := exists_inBlock found
    obtain ⟨_, other, feed', stops', members', scheduled', inBlock'⟩ := exists_inBlock found'
    rw [inBlock.pattern_eq, inBlock'.pattern_eq] at same
    obtain rfl := patternName_injective same
    exact inBlock.patternEnd_eq.trans inBlock'.patternEnd_eq.symm

/-- Every trip is one that was scheduled. -/
theorem exists_scheduled
    {trips : List ScheduledTrip} {trip : Trip}
    (member : trip ∈ (enumerate 0 0 (group trips)).1) :
    ∃ scheduled ∈ trips, trip.feed = scheduled.feed ∧ trip.calls = scheduled.calls := by
  obtain ⟨place, found⟩ := List.mem_iff_getElem?.mp member
  obtain ⟨_, block, feed, stops, members, scheduled, inBlock⟩ := exists_inBlock found
  obtain ⟨scheduledMember, _⟩ :=
    route_of_mem_group (List.mem_of_getElem? inBlock.block_eq) inBlock.member
  refine ⟨scheduled, scheduledMember, ?_, ?_⟩
  · rw [inBlock.trip_eq]
    rfl
  · rw [inBlock.trip_eq]
    rfl

end Timetable

end Transit
