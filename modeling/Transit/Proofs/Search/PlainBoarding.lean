import Transit.Proofs.Search.FirstBoarding
import Transit.Proofs.Timetable.Listings

/-!
# Boarding by a plain search

At a station a search bisects the boardings that are listed there for a pattern and scans
on from the place it finds.  A plain search goes through all calls of all trips instead and
takes, of those that suit, the one that leaves before all others.  On a timetable that was
built both board the same trips at the same calls.
-/

namespace Transit

namespace Timetable

/-- A trip of a pattern can be boarded at a stop when it is reached, runs on that day and is
admitted. -/
structure Suits (timetable : Timetable) (stop : Stop) (pattern : String) (reached : LocalTime)
    (admits : Trip → Bool) (trip : Trip) (position : Position) : Prop where
  trip_eq : timetable.catalogue.trip? position.trip = some trip
  pattern_eq : trip.pattern = pattern
  boards : trip.BoardsAt stop position.call
  in_time : reached.second ≤ timetable.catalogue.departsAt position
  active : trip.service.activeOn reached.date = true
  admitted : admits trip = true

theorem suits_iff
    {timetable : Timetable} {stop : Stop} {pattern : String} {reached : LocalTime}
    {admits : Trip → Bool} {trip : Trip} {position : Position} :
    timetable.Suits stop pattern reached admits trip position ↔
      timetable.catalogue.trip? position.trip = some trip ∧ trip.pattern = pattern ∧
        trip.BoardsAt stop position.call ∧
        reached.second ≤ timetable.catalogue.departsAt position ∧
        trip.service.activeOn reached.date = true ∧ admits trip = true :=
  ⟨fun ⟨trip_eq, pattern_eq, boards, in_time, active, admitted⟩ =>
      ⟨trip_eq, pattern_eq, boards, in_time, active, admitted⟩,
    fun ⟨trip_eq, pattern_eq, boards, in_time, active, admitted⟩ =>
      ⟨trip_eq, pattern_eq, boards, in_time, active, admitted⟩⟩

instance (timetable : Timetable) (stop : Stop) (pattern : String) (reached : LocalTime)
    (admits : Trip → Bool) (trip : Trip) (position : Position) :
    Decidable (timetable.Suits stop pattern reached admits trip position) :=
  decidable_of_iff _ suits_iff.symm

/-- What suits when the stop is reached suits when it was reached before on that day. -/
theorem Suits.sooner
    {timetable : Timetable} {stop : Stop} {pattern : String} {reached early : LocalTime}
    {admits : Trip → Bool} {trip : Trip} {position : Position}
    (suits : timetable.Suits stop pattern reached admits trip position)
    (sameDay : reached.date = early.date) (order : early.second ≤ reached.second) :
    timetable.Suits stop pattern early admits trip position :=
  { suits with
    in_time := Nat.le_trans order suits.in_time
    active := by
      rw [← sameDay]
      exact suits.active }

/-- All calls of all trips that suit, each with its trip. -/
def suiting (timetable : Timetable) (stop : Stop) (pattern : String) (reached : LocalTime)
    (admits : Trip → Bool) : List (Trip × Position) :=
  (timetable.trips.flatMap fun trip =>
    (List.range trip.calls.length).map fun place => (trip, ⟨trip.index, place⟩)).filter
      fun (trip, position) => timetable.Suits stop pattern reached admits trip position

/-- Of all calls that suit the one that leaves before the others. -/
def firstSuiting? (timetable : Timetable) (stop : Stop) (pattern : String)
    (reached : LocalTime) (admits : Trip → Bool) : Option (Trip × Position) :=
  let all := timetable.suiting stop pattern reached admits
  all.find? fun one => ∀ other ∈ all,
    one.2 = other.2 ∨ timetable.catalogue.LeavesBefore one.2 other.2

namespace IsBuilt

variable
  {timetable : Timetable} {stop : Stop} {pattern : String} {reached : LocalTime}
  {admits : Trip → Bool} {trip : Trip} {position : Position}

theorem mem_suiting (built : timetable.IsBuilt) :
    (trip, position) ∈ timetable.suiting stop pattern reached admits ↔
      timetable.Suits stop pattern reached admits trip position := by
  rw [suiting, List.mem_filter, decide_eq_true_eq]
  refine ⟨And.right, fun suits => ⟨?_, suits⟩⟩
  have index := built.index_eq suits.trip_eq
  obtain ⟨before, _⟩ := suits.boards
  refine List.mem_flatMap.mpr ⟨trip, mem_of_trip? suits.trip_eq, List.mem_map.mpr ?_⟩
  refine ⟨position.call, List.mem_range.mpr (Nat.lt_of_succ_lt before), ?_⟩
  rw [index]

/-- What the plain search finds suits and comes before all others that suit. -/
theorem suits_of_firstSuiting?
    (built : timetable.IsBuilt)
    (found : timetable.firstSuiting? stop pattern reached admits = some (trip, position)) :
    timetable.Suits stop pattern reached admits trip position ∧
      ∀ another other, timetable.Suits stop pattern reached admits another other →
        position = other ∨ timetable.catalogue.LeavesBefore position other := by
  unfold firstSuiting? at found
  have first := List.find?_some found
  rw [decide_eq_true_eq] at first
  refine ⟨built.mem_suiting.mp (List.mem_of_find?_eq_some found), ?_⟩
  intro another other suits
  exact first (another, other) (built.mem_suiting.mpr suits)

/-- The plain search finds a boarding if and only if it suits and comes before all others
that suit. -/
theorem firstSuiting?_eq_some_iff (built : timetable.IsBuilt) :
    timetable.firstSuiting? stop pattern reached admits = some (trip, position) ↔
      timetable.Suits stop pattern reached admits trip position ∧
        ∀ another other, timetable.Suits stop pattern reached admits another other →
          position = other ∨ timetable.catalogue.LeavesBefore position other := by
  refine ⟨built.suits_of_firstSuiting?, ?_⟩
  rintro ⟨suits, first⟩
  cases found : timetable.firstSuiting? stop pattern reached admits with
  | none =>
      have missing := List.find?_eq_none.mp found _ (built.mem_suiting.mpr suits)
      rw [decide_eq_true_eq] at missing
      refine absurd ?_ missing
      rintro ⟨another, other⟩ member
      exact first another other (built.mem_suiting.mp member)
  | some known =>
      obtain ⟨another, other⟩ := known
      obtain ⟨otherSuits, otherFirst⟩ := built.suits_of_firstSuiting? found
      -- Two boardings of which each comes before all others are one.
      have same : position = other := by
        rcases first another other otherSuits with same | before
        · exact same
        · rcases otherFirst trip position suits with same | after
          · exact same.symm
          · exact absurd after before.asymm
      subst same
      have same := otherSuits.trip_eq.symm.trans suits.trip_eq
      cases same
      rfl

theorem exists_trip_of_mem_positionsAt
    (built : timetable.IsBuilt) (member : position ∈ timetable.positionsAt stop pattern) :
    ∃ trip, timetable.catalogue.trip? position.trip = some trip := by
  obtain ⟨trip, found, _⟩ := (built.mem_positionsAt position).mp member
  exact ⟨trip, found⟩

theorem suits_iff_mem_positionsAt (built : timetable.IsBuilt) :
    timetable.Suits stop pattern reached admits trip position ↔
      (position ∈ (timetable.positionsAt stop pattern).filter fun known =>
          reached.second ≤ timetable.catalogue.departsAt known) ∧
        timetable.catalogue.trip? position.trip = some trip ∧
          trip.service.activeOn reached.date = true ∧ admits trip = true := by
  rw [List.mem_filter, built.mem_positionsAt, decide_eq_true_eq]
  constructor
  · intro suits
    exact ⟨⟨⟨trip, suits.trip_eq, suits.pattern_eq, suits.boards⟩, suits.in_time⟩,
      suits.trip_eq, suits.active, suits.admitted⟩
  · rintro ⟨⟨⟨known, found, named, boards⟩, inTime⟩, trip_eq, active, admitted⟩
    have same := found.symm.trans trip_eq
    cases same
    exact ⟨trip_eq, named, boards, inTime, active, admitted⟩

/-- Where a call suits, the scan of what is listed finds it or one that leaves before. -/
theorem exists_firstUsable_of_suits
    (built : timetable.IsBuilt)
    (suits : timetable.Suits stop pattern reached admits trip position) :
    ∃ first early,
      timetable.catalogue.firstUsable reached.date admits
          ((timetable.positionsAt stop pattern).filter fun known =>
            reached.second ≤ timetable.catalogue.departsAt known) =
        .ok (some (first, early)) ∧
      (early = position ∨ timetable.catalogue.LeavesBefore early position) := by
  obtain ⟨member, found, active, admitted⟩ := built.suits_iff_mem_positionsAt.mp suits
  refine Catalogue.exists_firstUsable ?_ (built.pairwise_positionsAt.filter _) member found
    active admitted
  intro known knownMember
  exact built.exists_trip_of_mem_positionsAt (List.mem_filter.mp knownMember).1

/-- The scan of what is listed finds what the plain search finds. -/
theorem firstUsable_positionsAt (built : timetable.IsBuilt) :
    timetable.catalogue.firstUsable reached.date admits
        ((timetable.positionsAt stop pattern).filter fun known =>
          reached.second ≤ timetable.catalogue.departsAt known) =
      .ok (timetable.firstSuiting? stop pattern reached admits) := by
  obtain ⟨first, scanned⟩ := Catalogue.exists_firstUsable_eq_ok
    (fun known member => built.exists_trip_of_mem_positionsAt (List.mem_filter.mp member).1)
    reached.date admits
  rw [scanned]
  congr 1
  symm
  cases first with
  | none =>
      cases found : timetable.firstSuiting? stop pattern reached admits with
      | none => rfl
      | some other =>
          obtain ⟨suits, _⟩ := built.suits_of_firstSuiting? found
          obtain ⟨_, _, some_found, _⟩ := built.exists_firstUsable_of_suits suits
          rw [scanned] at some_found
          cases some_found
  | some boarding =>
      obtain ⟨trip, position⟩ := boarding
      rw [built.firstSuiting?_eq_some_iff]
      refine ⟨built.suits_iff_mem_positionsAt.mpr (Catalogue.firstUsable_eq_some scanned), ?_⟩
      intro another other suits
      obtain ⟨_, _, same, before⟩ := built.exists_firstUsable_of_suits suits
      rw [scanned] at same
      cases same
      exact before

/-- The plain search finds nothing if and only if nothing suits. -/
theorem firstSuiting?_eq_none_iff (built : timetable.IsBuilt) :
    timetable.firstSuiting? stop pattern reached admits = none ↔
      ∀ trip position, ¬ timetable.Suits stop pattern reached admits trip position := by
  constructor
  · intro nothing trip position suits
    obtain ⟨_, _, found, _⟩ := built.exists_firstUsable_of_suits suits
    rw [built.firstUsable_positionsAt, nothing] at found
    cases found
  · intro nothing
    cases found : timetable.firstSuiting? stop pattern reached admits with
    | none => rfl
    | some boarding =>
        exact absurd (built.suits_of_firstSuiting? found).1 (nothing boarding.1 boarding.2)

/-- Bisecting a list that stands at a stop leaves a list of which the scan finds what the
plain search finds. -/
theorem exists_departingFrom
    (built : timetable.IsBuilt) {positions : List Position}
    (listed : (pattern, positions) ∈ (timetable.boardings? stop).getD [])
    (reached : LocalTime) (admits : Trip → Bool) :
    ∃ later, timetable.catalogue.departingFrom reached.second positions = .ok later ∧
      timetable.catalogue.firstUsable reached.date admits later =
        .ok (timetable.firstSuiting? stop pattern reached admits) := by
  cases atStop : timetable.boardings? stop with
  | none =>
      rw [atStop] at listed
      cases listed
  | some boardings =>
      rw [atStop] at listed
      have same := built.positionsAt_eq atStop listed
      subst same
      exact ⟨_, built.departingFrom_eq_ok atStop listed reached.second,
        built.firstUsable_positionsAt⟩

/-- A stop has a list for a pattern if and only if a trip of it can be boarded there. -/
theorem mem_names_iff (built : timetable.IsBuilt) :
    pattern ∈ ((timetable.boardings? stop).getD []).map Prod.fst ↔
      ∃ position, timetable.Boards stop pattern position := by
  constructor
  · intro named
    obtain ⟨⟨name, positions⟩, listed, rfl⟩ := List.mem_map.mp named
    cases atStop : timetable.boardings? stop with
    | none =>
        rw [atStop] at listed
        cases listed
    | some boardings =>
        rw [atStop] at listed
        obtain ⟨position, member⟩ :=
          List.exists_mem_of_ne_nil positions (built.positions_ne_nil atStop listed)
        refine ⟨position, (built.mem_positionsAt position).mp ?_⟩
        rw [built.positionsAt_eq atStop listed]
        exact member
  · rintro ⟨position, trip, found, rfl, before, call, called, named⟩
    obtain ⟨boardings, positions, atStop, listed, _⟩ :=
      built.exists_positions (mem_of_trip? found) called before named
    have here : timetable.boardings? stop = some boardings := atStop
    rw [here]
    exact List.mem_map.mpr ⟨_, listed, rfl⟩

/-- What the plain search finds of a pattern is found in the list of the pattern. -/
theorem exists_listed
    (built : timetable.IsBuilt)
    (found : timetable.firstSuiting? stop pattern reached admits = some (trip, position)) :
    ∃ positions later, (pattern, positions) ∈ (timetable.boardings? stop).getD [] ∧
      timetable.catalogue.departingFrom reached.second positions = .ok later ∧
      timetable.catalogue.firstUsable reached.date admits later =
        .ok (some (trip, position)) := by
  obtain ⟨suits, _⟩ := built.suits_of_firstSuiting? found
  have named : pattern ∈ ((timetable.boardings? stop).getD []).map Prod.fst :=
    built.mem_names_iff.mpr ⟨position, trip, suits.trip_eq, suits.pattern_eq, suits.boards⟩
  obtain ⟨⟨_, positions⟩, listed, rfl⟩ := List.mem_map.mp named
  obtain ⟨later, departing, usable⟩ := built.exists_departingFrom listed reached admits
  rw [found] at usable
  exact ⟨positions, later, listed, departing, usable⟩

end IsBuilt

end Timetable

namespace Outing

variable
  {outing : Outing} {timetable : Timetable} {station : Station} {reached : LocalTime}
  {trip : Trip} {position : Position}

/-- What a station offers is what the plain search finds of the pattern. -/
theorem Offers.firstSuiting?_eq
    (built : timetable.IsBuilt)
    (offers : outing.Offers timetable.catalogue station reached trip position) :
    timetable.firstSuiting? station.stop trip.pattern reached outing.admits =
      some (trip, position) := by
  obtain ⟨pattern, positions, later, listed, departing, usable⟩ := offers.first_usable
  obtain ⟨known, departingKnown, found⟩ :=
    built.exists_departingFrom listed reached outing.admits
  rw [departing] at departingKnown
  cases departingKnown
  rw [usable] at found
  have found := (Except.ok.inj found).symm
  rw [(built.suits_of_firstSuiting? found).1.pattern_eq]
  exact found

theorem Offers.suits
    (built : timetable.IsBuilt)
    (offers : outing.Offers timetable.catalogue station reached trip position) :
    timetable.Suits station.stop trip.pattern reached outing.admits trip position :=
  (built.suits_of_firstSuiting? (offers.firstSuiting?_eq built)).1

/-- What a station offers can be boarded there in time. -/
theorem Offers.exists_call
    (built : timetable.IsBuilt)
    (offers : outing.Offers timetable.catalogue station reached trip position) :
    timetable.catalogue.trip? position.trip = some trip ∧
      trip.service.activeOn reached.date = true ∧ outing.admits trip = true ∧
      ∃ call, trip.calls[position.call]? = some call ∧
        position.call + 1 < trip.calls.length ∧
        station.stop.isNamed trip.feed call.stop = true ∧
        reached.second ≤ call.departure.seconds.toNat := by
  have suits := offers.suits built
  obtain ⟨before, call, called, named⟩ := suits.boards
  have inTime := suits.in_time
  rw [Timetable.IsBuilt.departsAt_eq position suits.trip_eq called] at inTime
  exact ⟨suits.trip_eq, suits.active, suits.admitted, call, called, before, named, inTime⟩

/-- What the plain search finds is what a station offers. -/
theorem offers_of_firstSuiting?
    (built : timetable.IsBuilt) {pattern : String} (station_mem : station ∈ outing.access)
    (local_eq : station.localDeparture? outing.departure = some reached)
    (found : timetable.firstSuiting? station.stop pattern reached outing.admits =
      some (trip, position)) :
    outing.Offers timetable.catalogue station reached trip position where
  station_mem := station_mem
  local_eq := local_eq
  first_usable := by
    obtain ⟨positions, later, listed, departing, usable⟩ := built.exists_listed found
    exact ⟨pattern, positions, later, listed, departing, usable⟩

/-- What a station offers of a pattern is also what it offers to an earlier outing of the
day, unless that one is offered another boarding which leaves before. -/
theorem Offers.exists_earlier
    (built : timetable.IsBuilt) {early : Outing} {sooner : LocalTime}
    (offers : outing.Offers timetable.catalogue station reached trip position)
    (station_mem : station ∈ early.access)
    (local_eq : station.localDeparture? early.departure = some sooner)
    (sameDay : reached.date = sooner.date) (order : sooner.second ≤ reached.second)
    (admits_eq : outing.admits = early.admits) :
    ∃ first boarding, early.Offers timetable.catalogue station sooner first boarding ∧
      first.pattern = trip.pattern ∧
      ((first, boarding) = (trip, position) ∨
        ∃ call, first.calls[boarding.call]? = some call ∧
          call.departure.seconds.toNat < reached.second) := by
  have chosen := offers.firstSuiting?_eq built
  rw [admits_eq] at chosen
  cases found : timetable.firstSuiting? station.stop trip.pattern sooner early.admits with
  | none =>
      have suits := (built.suits_of_firstSuiting? chosen).1.sooner sameDay order
      exact absurd suits (built.firstSuiting?_eq_none_iff.mp found trip position)
  | some first =>
      obtain ⟨first, boarding⟩ := first
      obtain ⟨suits, before⟩ := built.suits_of_firstSuiting? found
      refine ⟨first, boarding, offers_of_firstSuiting? built station_mem local_eq found,
        suits.pattern_eq, ?_⟩
      by_cases late : reached.second ≤ timetable.catalogue.departsAt boarding
      · -- Among what leaves in time for the later outing it comes first as well.
        have suitsLate : timetable.Suits station.stop trip.pattern reached early.admits first
            boarding :=
          { suits with
            in_time := late
            active := by
              rw [sameDay]
              exact suits.active }
        have same := built.firstSuiting?_eq_some_iff.mpr ⟨suitsLate, fun another other known =>
          before another other (known.sooner sameDay order)⟩
        rw [chosen] at same
        exact .inl (Option.some.inj same).symm
      · obtain ⟨_, call, called, _⟩ := suits.boards
        rw [Timetable.IsBuilt.departsAt_eq boarding suits.trip_eq called] at late
        exact .inr ⟨call, called, Nat.lt_of_not_le late⟩

/-- What the plain search finds is covered once the station is served. -/
theorem Served.covers_first
    (built : timetable.IsBuilt) {planner : Planner} {pattern : String}
    (served : outing.Served timetable.catalogue planner station)
    (local_eq : station.localDeparture? outing.departure = some reached)
    (found : timetable.firstSuiting? station.stop pattern reached outing.admits =
      some (trip, position)) :
    planner.bounds.Covers trip.index position.call := by
  obtain ⟨known, known_eq, boarded⟩ := served
  have clock := local_eq.symm.trans known_eq
  cases clock
  obtain ⟨positions, later, listed, departing, usable⟩ := built.exists_listed found
  have member :=
    Timetable.IsBuilt.mem_of_trip? (built.suits_of_firstSuiting? found).1.trip_eq
  exact boarded pattern positions later trip position listed departing usable
    (built.grouped.inside trip member)

/-- A station that is served has an earlier boarding of the pattern covered, for every
trip that could be boarded there. -/
theorem Served.exists_earlier
    (built : timetable.IsBuilt) {planner : Planner}
    (served : outing.Served timetable.catalogue planner station)
    (local_eq : station.localDeparture? outing.departure = some reached)
    {place : Nat} {call : Call}
    (found : timetable.catalogue.trip? trip.index = some trip)
    (called : trip.calls[place]? = some call) (before : place + 1 < trip.calls.length)
    (named : station.stop.isNamed trip.feed call.stop = true)
    (inTime : reached.second ≤ call.departure.seconds.toNat)
    (active : trip.service.activeOn reached.date = true)
    (admitted : outing.admits trip = true) :
    ∃ first early boarding, timetable.catalogue.trip? first.index = some first ∧
      first.pattern = trip.pattern ∧ first.calls[early]? = some boarding ∧
      station.stop.isNamed first.feed boarding.stop = true ∧
      planner.bounds.Covers first.index early ∧
      (boarding.departure.seconds.toNat < call.departure.seconds.toNat ∨
        boarding.departure.seconds.toNat = call.departure.seconds.toNat ∧
          first.index ≤ trip.index) := by
  have leaves := Timetable.IsBuilt.departsAt_eq ⟨trip.index, place⟩ found called
  rw [← leaves] at inTime ⊢
  have suits : timetable.Suits station.stop trip.pattern reached outing.admits trip
      ⟨trip.index, place⟩ :=
    ⟨found, rfl, ⟨before, call, called, named⟩, inTime, active, admitted⟩
  cases chosen : timetable.firstSuiting? station.stop trip.pattern reached outing.admits with
  | none => exact absurd suits (built.firstSuiting?_eq_none_iff.mp chosen trip _)
  | some first =>
      obtain ⟨first, early⟩ := first
      obtain ⟨firstSuits, comesFirst⟩ := built.suits_of_firstSuiting? chosen
      obtain ⟨_, boarding, boarded, boardedAt⟩ := firstSuits.boards
      have index := built.index_eq firstSuits.trip_eq
      refine ⟨first, early.call, boarding, ?_, firstSuits.pattern_eq, boarded, boardedAt,
        served.covers_first built local_eq chosen, ?_⟩
      · rw [index]
        exact firstSuits.trip_eq
      · rw [index, ← Timetable.IsBuilt.departsAt_eq early firstSuits.trip_eq boarded]
        rcases comesFirst trip _ suits with same | leavesBefore
        · rw [same]
          exact .inr ⟨rfl, Nat.le_refl _⟩
        · exact leavesBefore.lt_or_trip_le

end Outing

namespace Search

/-- Board at an access station what the plain search finds of each pattern. -/
def boardFirsts (timetable : Timetable) (station : Station) (reached : LocalTime)
    (admits : Trip → Bool) : List String → Search (List Nat)
  | [] => return []
  | pattern :: rest => do
      let handle? ←
        match timetable.firstSuiting? station.stop pattern reached admits with
        | some (trip, position) =>
            board timetable.catalogue trip position (.walk station reached.date)
        | none => pure none
      return handle?.toList ++ (← boardFirsts timetable station reached admits rest)

end Search

namespace Timetable

variable
  {timetable : Timetable} {station : Station} {reached : LocalTime} {admits : Trip → Bool}

/-- Bisecting what a stop lists for each pattern boards what the plain search finds. -/
theorem boardPatterns_eq_boardFirsts
    (built : timetable.IsBuilt) {boardings : Boardings}
    (listed : ∀ entry ∈ boardings, entry ∈ (timetable.boardings? station.stop).getD []) :
    Search.boardPatterns timetable.catalogue station reached admits boardings =
      Search.boardFirsts timetable station reached admits (boardings.map Prod.fst) := by
  induction boardings with
  | nil => rfl
  | cons entry rest hypothesis =>
      obtain ⟨pattern, positions⟩ := entry
      obtain ⟨later, departing, usable⟩ :=
        built.exists_departingFrom (listed _ List.mem_cons_self) reached admits
      have scanned : ∀ next : Option (Trip × Position) → Search (List Nat),
          (do
            let later ← Search.ofExcept
              (timetable.catalogue.departingFrom reached.second positions)
            let first ← Search.ofExcept
              (timetable.catalogue.firstUsable reached.date admits later)
            next first) =
          next (timetable.firstSuiting? station.stop pattern reached admits) := by
        intro next
        simp only [departing, usable, Search.ofExcept, pure_bind]
      rw [Search.boardPatterns, List.map_cons, Search.boardFirsts,
        ← hypothesis fun entry member => listed entry (List.mem_cons_of_mem _ member)]
      refine (scanned _).trans ?_
      cases timetable.firstSuiting? station.stop pattern reached admits with
      | none => rfl
      | some boarding => rfl

/-- How a station is boarded is a plain search of the timetable. -/
structure ScansPlainly (timetable : Timetable) (station : Station) (reached : LocalTime)
    (admits : Trip → Bool) : Prop where
  /-- There is a list for the patterns of which a trip can be boarded. -/
  listed_iff : ∀ pattern,
    pattern ∈ ((timetable.boardings? station.stop).getD []).map Prod.fst ↔
      ∃ position, timetable.Boards station.stop pattern position
  /-- Bisecting a list never fails, and the first usable entry from there on is what the
  plain search finds. -/
  scanned : ∀ pattern positions,
    (pattern, positions) ∈ (timetable.boardings? station.stop).getD [] →
      ∃ later, timetable.catalogue.departingFrom reached.second positions = .ok later ∧
        timetable.catalogue.firstUsable reached.date admits later =
          .ok (timetable.firstSuiting? station.stop pattern reached admits)
  /-- This is boarded, pattern by pattern. -/
  boarded : Search.boardPatterns timetable.catalogue station reached admits
      ((timetable.boardings? station.stop).getD []) =
    Search.boardFirsts timetable station reached admits
      (((timetable.boardings? station.stop).getD []).map Prod.fst)
  /-- The plain search finds what suits and leaves before all else that suits. -/
  some_iff : ∀ pattern trip position,
    timetable.firstSuiting? station.stop pattern reached admits = some (trip, position) ↔
      timetable.Suits station.stop pattern reached admits trip position ∧
        ∀ another other,
          timetable.Suits station.stop pattern reached admits another other →
            position = other ∨ timetable.catalogue.LeavesBefore position other
  /-- It finds nothing only where nothing suits. -/
  none_iff : ∀ pattern,
    timetable.firstSuiting? station.stop pattern reached admits = none ↔
      ∀ trip position, ¬ timetable.Suits station.stop pattern reached admits trip position

/-- On a timetable that was built every station is boarded as by a plain search. -/
theorem scansPlainly_of_build
    {given : List ScheduledTrip} (built : build given = .ok timetable) (station : Station)
    (reached : LocalTime) (admits : Trip → Bool) :
    timetable.ScansPlainly station reached admits := by
  have isBuilt := isBuilt_of_build built
  refine ⟨?_, ?_, ?_, ?_, ?_⟩
  · intro pattern
    exact isBuilt.mem_names_iff
  · intro pattern positions listed
    exact isBuilt.exists_departingFrom listed reached admits
  · exact boardPatterns_eq_boardFirsts isBuilt fun entry member => member
  · intro pattern trip position
    exact isBuilt.firstSuiting?_eq_some_iff
  · intro pattern
    exact isBuilt.firstSuiting?_eq_none_iff

/-- On the ring the first trip is too early, and the second one suits. -/
theorem scansPlainly_ring :
    let timetable := Sample.ring.timetable
    let reached : LocalTime := ⟨Sample.day, 28860⟩
    build Sample.ringPlan.trips = .ok timetable ∧
      timetable.ScansPlainly Sample.origin reached (fun _ => true) ∧
      (timetable.firstSuiting? Sample.origin.stop "f:p0" reached fun _ => true).map Prod.snd =
        some ⟨1, 0⟩ := by
  have built : build Sample.ringPlan.trips = .ok Sample.ring.timetable := by decide +kernel
  refine ⟨built, scansPlainly_of_build built _ _ _, ?_⟩
  decide +kernel

end Timetable

end Transit
