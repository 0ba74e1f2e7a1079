import Transit.Proofs.Journey.Sample
import Transit.Proofs.Search.Coverage

/-!
# What is ridden

A ride reaches the calls of its trip after its boarding and before its limit.  Of two
rides on one trip the later one ends before the earlier one began, for a boarding covers
the trip from there on, so no call of a trip is reached twice in the life of a planner.

The calls beyond the boundary of a trip are those that a ride on the trip or on an earlier
one of its pattern reaches, and those at which one of these trips was boarded.

Both hold on every built timetable with any transfer table, after every session.
-/

namespace Transit

namespace Planner

variable {planner before after : Planner}

/-- The rides on a trip lie apart: each has a call to ride to, the trip is covered from
its boarding on, and every later ride on the trip ends there. -/
structure Parted (planner : Planner) : Prop where
  nonempty : ∀ handle ride, planner.rides.ride? handle = some ride →
    ride.board.call + 1 < ride.limit
  covered : ∀ handle ride, planner.rides.ride? handle = some ride →
    planner.bounds.Covers ride.board.trip ride.board.call
  apart : ∀ first second one other, first < second →
    planner.rides.ride? first = some one → planner.rides.ride? second = some other →
    one.board.trip = other.board.trip → other.limit ≤ one.board.call

theorem parted_fresh (catalogue : Catalogue) (request : Request) (settings : Settings) :
    (fresh catalogue request settings).Parted where
  nonempty handle ride found := by cases RideStore.lt_size_of_ride? found
  covered handle ride found := by cases RideStore.lt_size_of_ride? found
  apart first second one other _ found := by cases RideStore.lt_size_of_ride? found

namespace Parted

/-- While no ride is stored, the bounds may only fall. -/
theorem of_rides_eq
    (parted : before.Parted) (grows : before.Grows after)
    (rides : after.rides = before.rides) :
    after.Parted where
  nonempty handle ride found := by
    rw [rides] at found
    exact parted.nonempty handle ride found
  covered handle ride found := by
    rw [rides] at found
    exact grows.covers (parted.covered handle ride found)
  apart first second one other order oneFound otherFound := by
    rw [rides] at oneFound otherFound
    exact parted.apart first second one other order oneFound otherFound

/-- A new ride goes up to the boundary of its trip, which no ride on the trip began
before. -/
theorem board
    (parted : planner.Parted) {trip : Trip} {ride : Ride}
    (index : ride.board.trip = trip.index) (inside : trip.index < trip.patternEnd)
    (known : planner.bounds.coveredFrom? trip.index = some ride.limit)
    (far : ride.board.call + 1 < ride.limit) :
    ((planner.store ride).cover trip ride.board).Parted := by
  have grows := planner.grows_board ride trip ride.board
  refine ⟨?_, ?_, ?_⟩
  · intro handle found stored
    rcases eq_or_ride?_of_board stored with ⟨_, rfl⟩ | ⟨_, old⟩
    · exact far
    · exact parted.nonempty handle found old
  · intro handle found stored
    rcases eq_or_ride?_of_board stored with ⟨_, rfl⟩ | ⟨_, old⟩
    · rw [index]
      exact Bounds.exists_coveredFrom?_cover_self _ inside known
    · exact grows.covers (parted.covered handle found old)
  · intro first second one other order oneStored otherStored same
    rcases eq_or_ride?_of_board otherStored with ⟨rfl, rfl⟩ | ⟨before, otherOld⟩
    · rcases eq_or_ride?_of_board oneStored with ⟨rfl, _⟩ | ⟨_, oneOld⟩
      · exact absurd order (Nat.lt_irrefl _)
      · obtain ⟨limit, limitAt, reached⟩ := parted.covered first one oneOld
        rw [same, index, known, Option.some.injEq] at limitAt
        rw [limitAt]
        exact reached
    · rcases eq_or_ride?_of_board oneStored with ⟨rfl, _⟩ | ⟨_, oneOld⟩
      · exact absurd order (Nat.lt_asymm before)
      · exact parted.apart first second one other order oneOld otherOld same

/-- The places that two rides on a trip reach are different ones. -/
theorem disjoint
    (parted : planner.Parted) {first second : Nat} {one other : Ride}
    (different : first ≠ second)
    (oneFound : planner.rides.ride? first = some one)
    (otherFound : planner.rides.ride? second = some other)
    (same : one.board.trip = other.board.trip) (trip : Trip) :
    ((one.alightings trip).map Prod.snd).Disjoint ((other.alightings trip).map Prod.snd) := by
  rintro place oneReaches otherReaches
  obtain ⟨⟨_, _⟩, oneMember, rfl⟩ := List.mem_map.mp oneReaches
  obtain ⟨⟨_, _⟩, otherMember, rfl⟩ := List.mem_map.mp otherReaches
  obtain ⟨_, afterOne, beforeOne⟩ := (Ride.mem_alightings _ _ _ _).mp oneMember
  obtain ⟨_, afterOther, beforeOther⟩ := (Ride.mem_alightings _ _ _ _).mp otherMember
  rcases Nat.lt_or_gt_of_ne different with order | order
  · have ends := parted.apart first second one other order oneFound otherFound same
    omega
  · have ends := parted.apart second first other one order otherFound oneFound same.symm
    omega

theorem step
    {outing : Outing} {timetable : Timetable} {transfers : TransferTable}
    (built : timetable.IsBuilt)
    (step : outing.Step timetable.catalogue transfers before after)
    (parted : before.Parted) :
    after.Parted := by
  cases step with
  | enter event _ => exact parted.of_rides_eq (before.grows_enter event) rfl
  | @cover trip position _ _ _ _ _ _ =>
      exact parted.of_rides_eq (before.grows_cover trip position) rfl
  | @board trip position approach limit ride approaches known far leads =>
      have found := approaches.trip_eq
      have board_eq : ride.board = position := by cases leads <;> rfl
      have limit_eq : ride.limit = limit := by cases leads <;> rfl
      subst board_eq limit_eq
      exact parted.board (built.index_eq found).symm
        (built.grouped.inside trip (Timetable.IsBuilt.mem_of_trip? found)) known far
  | pass _ _ => exact parted.of_rides_eq (before.grows_enter _) rfl
  | lose _ _ _ => exact parted.of_rides_eq (before.grows_tighten _) rfl
  | find _ _ _ _ _ _ _ => exact parted.of_rides_eq (before.grows_find _) rfl

end Parted

section Sessions

variable
  {timetable : Timetable} (transfers : TransferTable) (request : Request)
  (settings : Settings) (tasks : List Task)

theorem parted_performAll (built : timetable.IsBuilt) :
    ((fresh timetable.catalogue request settings).performAll timetable.catalogue transfers
      tasks).Parted := by
  apply performAll_keeps
  · intro outing before after step parted
    exact parted.step built step
  · intro planner other parted
    exact parted.of_rides_eq (planner.grows_ask other) rfl
  · exact parted_fresh timetable.catalogue request settings

theorem accounted_performAll (built : timetable.IsBuilt) :
    ((fresh timetable.catalogue request settings).performAll timetable.catalogue transfers
      tasks).Accounted timetable := by
  let kept (now : Planner) : Prop := now.Accounted timetable
  change kept _
  apply performAll_keeps
  · intro outing before after step accounted
    exact Outing.accounted_step built step accounted
  · intro planner other accounted
    exact accounted.of_covered_eq (planner.grows_ask other) rfl
  · exact accounted_fresh timetable request settings

end Sessions

/-- After every session each ride has a call to ride to, and its trip is covered from no
later than its boarding.  Of two rides on one trip the one that was stored later ends
where the other began or before, so that the places they reach are different ones. -/
theorem alightings_disjoint_of_session
    {trips : List ScheduledTrip} {timetable : Timetable}
    (built : Timetable.build trips = .ok timetable) (transfers : TransferTable)
    (request : Request) (settings : Settings) (tasks : List Task) :
    let planner := (fresh timetable.catalogue request settings).performAll
      timetable.catalogue transfers tasks
    (∀ handle ride, planner.rides.ride? handle = some ride →
      ride.board.call + 1 < ride.limit ∧
        ∃ limit, planner.bounds.coveredFrom? ride.board.trip = some limit ∧
          limit ≤ ride.board.call) ∧
    (∀ first second one other, first < second →
      planner.rides.ride? first = some one → planner.rides.ride? second = some other →
      one.board.trip = other.board.trip →
        other.limit ≤ one.board.call ∧
          ∀ trip, ((one.alightings trip).map Prod.snd).Disjoint
            ((other.alightings trip).map Prod.snd)) := by
  intro planner
  have parted : planner.Parted :=
    parted_performAll transfers request settings tasks (Timetable.isBuilt_of_build built)
  refine ⟨?_, ?_⟩
  · intro handle ride found
    exact ⟨parted.nonempty handle ride found, parted.covered handle ride found⟩
  · intro first second one other order oneFound otherFound same
    exact ⟨parted.apart first second one other order oneFound otherFound same,
      parted.disjoint (Nat.ne_of_lt order) oneFound otherFound same⟩

/-- The departure at eight from the origin of a network, as a session. -/
def eightSession (network : Network) : Planner :=
  (fresh network.timetable.catalogue (Sample.request 0) .standard).performAll
    network.timetable.catalogue network.transfers
    [.depart [Sample.origin] (Sample.instant 8 0) fun _ => true]

/-- The relay's line is boarded at its third call first.  The ride that boards it at its
first call goes up to there. -/
theorem alightings_disjoint_of_relay :
    ∃ one other, (eightSession Sample.relay).rides.ride? 2 = some one ∧
      (eightSession Sample.relay).rides.ride? 3 = some other ∧
      one.board = ⟨2, 2⟩ ∧ other.board = ⟨2, 0⟩ ∧ other.limit ≤ one.board.call ∧
      ∀ trip, ((one.alightings trip).map Prod.snd).Disjoint
        ((other.alightings trip).map Prod.snd) := by
  have built : Timetable.build Sample.relayPlan.trips = .ok Sample.relay.timetable := by
    decide +kernel
  have found : ∃ one ∈ (eightSession Sample.relay).rides.ride? 2,
      ∃ other ∈ (eightSession Sample.relay).rides.ride? 3,
        one.board = ⟨2, 2⟩ ∧ other.board = ⟨2, 0⟩ := by
    decide +kernel
  obtain ⟨one, oneFound, other, otherFound, oneBoard, otherBoard⟩ := found
  have same : one.board.trip = other.board.trip := by rw [oneBoard, otherBoard]
  obtain ⟨ends, disjoint⟩ :=
    (alightings_disjoint_of_session built Sample.relay.transfers (Sample.request 0) .standard
      [.depart [Sample.origin] (Sample.instant 8 0) fun _ => true]).2 2 3 one other
        (by decide) oneFound otherFound same
  exact ⟨one, other, oneFound, otherFound, oneBoard, otherBoard, ends, disjoint⟩

/-- After every session each place beyond the boundary of a trip is accounted for: a ride
on the trip or on an earlier one of its pattern reaches it, or one of these trips was
boarded there.  Places are numbers below `nowhere`, as no trip has more calls. -/
theorem passed_or_boarded_of_session
    {trips : List ScheduledTrip} {timetable : Timetable}
    (built : Timetable.build trips = .ok timetable) (transfers : TransferTable)
    (request : Request) (settings : Settings) (tasks : List Task) :
    let planner := (fresh timetable.catalogue request settings).performAll
      timetable.catalogue transfers tasks
    ∀ trip ∈ timetable.trips, ∃ limit,
      planner.bounds.coveredFrom? trip.index = some limit ∧
        ∀ place < nowhere, limit < place →
          (∃ handle ride, ∃ first ∈ timetable.trips,
            planner.rides.ride? handle = some ride ∧ ride.board.trip = first.index ∧
              first.pattern = trip.pattern ∧ first.index ≤ trip.index ∧
              ride.board.call < place ∧ place < ride.limit) ∨
          ∃ first ∈ timetable.trips,
            first.pattern = trip.pattern ∧ first.index ≤ trip.index ∧
              .boarding ⟨first.index, place⟩ ∈ planner.journal.toList := by
  intro planner trip member
  have isBuilt := Timetable.isBuilt_of_build built
  have accounted : planner.Accounted timetable :=
    accounted_performAll transfers request settings tasks isBuilt
  obtain ⟨limit, limitAt⟩ := accounted.exists_limit isBuilt member
  refine ⟨limit, limitAt, ?_⟩
  intro place inside beyond
  rcases accounted.passed trip member limit limitAt place beyond inside with
    ⟨handle, ride, first, passed⟩ | ⟨first, found, precedes, entered⟩
  · have firstMember := Timetable.IsBuilt.mem_of_trip? passed.trip_eq
    exact .inl ⟨handle, ride, first, firstMember, passed.ride_eq,
      (isBuilt.index_eq passed.trip_eq).symm,
      isBuilt.pattern_eq_of_precedes firstMember member passed.precedes, passed.precedes.1,
      passed.after_board, passed.before_limit⟩
  · have firstMember := Timetable.IsBuilt.mem_of_trip? found
    exact .inr ⟨first, firstMember,
      isBuilt.pattern_eq_of_precedes firstMember member precedes, precedes.1, entered⟩

/-- The line of the crossing network is covered from its first call on.  No ride reaches
its second call, but the line was boarded there. -/
theorem passed_or_boarded_of_crossing :
    ∃ line ∈ Sample.crossing.timetable.trips, line.name = "line" ∧
      (eightSession Sample.crossing).bounds.coveredFrom? line.index = some 0 ∧
      ((∃ handle ride, ∃ first ∈ Sample.crossing.timetable.trips,
        (eightSession Sample.crossing).rides.ride? handle = some ride ∧
          ride.board.trip = first.index ∧ first.pattern = line.pattern ∧
          first.index ≤ line.index ∧ ride.board.call < 1 ∧ 1 < ride.limit) ∨
      ∃ first ∈ Sample.crossing.timetable.trips,
        first.pattern = line.pattern ∧ first.index ≤ line.index ∧
          .boarding ⟨first.index, 1⟩ ∈ (eightSession Sample.crossing).journal.toList) := by
  have built : Timetable.build Sample.crossingPlan.trips = .ok Sample.crossing.timetable := by
    decide +kernel
  have listed : ∃ line ∈ Sample.crossing.timetable.trips, line.name = "line" ∧
      (eightSession Sample.crossing).bounds.coveredFrom? line.index = some 0 := by
    decide +kernel
  unfold eightSession at listed ⊢
  obtain ⟨line, member, name, boundary⟩ := listed
  obtain ⟨limit, limitAt, accounts⟩ :=
    passed_or_boarded_of_session built Sample.crossing.transfers (Sample.request 0) .standard
      [.depart [Sample.origin] (Sample.instant 8 0) fun _ => true] line member
  rw [boundary] at limitAt
  cases limitAt
  have inside : 1 < nowhere := by
    unfold nowhere
    omega
  exact ⟨line, member, name, boundary, accounts 1 inside Nat.zero_lt_one⟩

end Planner

end Transit
