import Transit.Proofs.Search.Capped
import Transit.Proofs.Search.Ridden
import Transit.Proofs.Search.Stocked
import Mathlib.Data.List.Perm.Subperm

/-!
# The budget of a search

No call of a trip is boarded by two rides in the life of a planner.  So a trip has at most
as many rides as calls, and a planner at most as many rides as the timetable has calls.

This bounds the rounds of a departure whatever its cap and whatever the transfers, cyclic
ones included: every round but the last has rides, and they are new.  A cap that is no
less than the number of calls is never reached, and makes no difference.
-/

namespace Transit

namespace Trip

/-- The positions at which a trip calls. -/
def places (trip : Trip) : List Position :=
  (List.range trip.calls.length).map fun place => ⟨trip.index, place⟩

@[simp]
theorem length_places (trip : Trip) : trip.places.length = trip.calls.length := by
  simp [places]

theorem mem_places {trip : Trip} {position : Position} :
    position ∈ trip.places ↔
      position.trip = trip.index ∧ position.call < trip.calls.length := by
  rw [places, List.mem_map]
  constructor
  · rintro ⟨place, member, rfl⟩
    exact ⟨rfl, List.mem_range.mp member⟩
  · rintro ⟨same, inside⟩
    exact ⟨position.call, List.mem_range.mpr inside, by rw [← same]⟩

end Trip

/-- The number of calls of all trips. -/
def Timetable.callCount (timetable : Timetable) : Nat :=
  (timetable.trips.map fun trip => trip.calls.length).sum

theorem Timetable.length_places (timetable : Timetable) :
    (timetable.trips.flatMap Trip.places).length = timetable.callCount := by
  simp [List.length_flatMap, callCount]

namespace RideStore

/-- The positions at which the rides were boarded. -/
def boards (rides : RideStore) : List Position :=
  rides.rides.toList.map Ride.board

/-- How many rides are on a trip. -/
def countOn (rides : RideStore) (trip : Trip) : Nat :=
  rides.boards.countP fun board => board.trip = trip.index

@[simp]
theorem length_boards (rides : RideStore) : rides.boards.length = rides.size := by
  simp [boards, size]

theorem mem_boards {rides : RideStore} {board : Position} :
    board ∈ rides.boards ↔ ∃ handle ride, rides.ride? handle = some ride ∧ ride.board = board := by
  rw [boards, List.mem_map]
  constructor
  · rintro ⟨ride, member, rfl⟩
    obtain ⟨handle, found⟩ := Array.mem_iff_getElem?.mp (Array.mem_toList_iff.mp member)
    exact ⟨handle, ride, found, rfl⟩
  · rintro ⟨handle, ride, found, rfl⟩
    exact ⟨ride, Array.mem_toList_iff.mpr (Array.mem_of_getElem? found), rfl⟩

end RideStore

namespace Planner

variable {planner : Planner} {timetable : Timetable}

/-- No two rides board the same call. -/
theorem Parted.nodup_boards (parted : planner.Parted) : planner.rides.boards.Nodup := by
  rw [RideStore.boards, List.Nodup, List.pairwise_map, List.pairwise_iff_getElem]
  intro first second firstInside secondInside order same
  have oneFound : planner.rides.ride? first =
      some planner.rides.rides.toList[first] := by
    rw [Array.getElem_toList]
    exact Array.getElem?_eq_getElem _
  have otherFound : planner.rides.ride? second =
      some planner.rides.rides.toList[second] := by
    rw [Array.getElem_toList]
    exact Array.getElem?_eq_getElem _
  have ends := parted.apart first second _ _ order oneFound otherFound
    (congrArg Position.trip same)
  have reaches := parted.nonempty second _ otherFound
  rw [same] at ends
  omega

/-- Rides are boarded at calls of the timetable. -/
theorem Stocked.exists_places
    (stocked : planner.Stocked timetable.catalogue) (built : timetable.IsBuilt)
    {board : Position} (member : board ∈ planner.rides.boards) :
    ∃ trip ∈ timetable.trips, board ∈ trip.places := by
  obtain ⟨handle, ride, found, rfl⟩ := RideStore.mem_boards.mp member
  obtain ⟨call, called⟩ := stocked.called handle ride found
  obtain ⟨trip, known, calls⟩ := Catalogue.call_eq_ok.mp called
  refine ⟨trip, Timetable.IsBuilt.mem_of_trip? known, Trip.mem_places.mpr ⟨?_, ?_⟩⟩
  · exact (built.index_eq known).symm
  · exact (List.getElem?_eq_some_iff.mp calls).1

/-- A planner within its budget: no call is boarded twice, and all that are boarded are
calls of the timetable. -/
structure Budgeted (planner : Planner) (timetable : Timetable) : Prop where
  parted : planner.Parted
  stocked : planner.Stocked timetable.catalogue

namespace Budgeted

/-- A trip has at most as many rides as calls. -/
theorem countOn_le
    (budgeted : planner.Budgeted timetable) (built : timetable.IsBuilt) {trip : Trip}
    (member : trip ∈ timetable.trips) :
    planner.rides.countOn trip ≤ trip.calls.length := by
  have nodup := budgeted.parted.nodup_boards.filter fun board => decide (board.trip = trip.index)
  have inside : planner.rides.boards.filter (fun board => board.trip = trip.index) ⊆
      trip.places := by
    intro board filtered
    obtain ⟨boarded, same⟩ := List.mem_filter.mp filtered
    obtain ⟨other, otherMember, place⟩ := budgeted.stocked.exists_places built boarded
    have index := (Trip.mem_places.mp place).1
    have known := built.trip?_index otherMember
    rw [← index, of_decide_eq_true same, built.trip?_index member, Option.some.injEq] at known
    rw [known]
    exact place
  calc
    planner.rides.countOn trip =
        (planner.rides.boards.filter fun board => board.trip = trip.index).length :=
      List.countP_eq_length_filter
    _ ≤ trip.places.length := (List.subperm_of_subset nodup inside).length_le
    _ = trip.calls.length := trip.length_places

/-- There are at most as many rides as calls. -/
theorem size_le (budgeted : planner.Budgeted timetable) (built : timetable.IsBuilt) :
    planner.rides.size ≤ timetable.callCount := by
  have inside : planner.rides.boards ⊆ timetable.trips.flatMap Trip.places := by
    intro board member
    exact List.mem_flatMap.mpr (budgeted.stocked.exists_places built member)
  calc
    planner.rides.size = planner.rides.boards.length := planner.rides.length_boards.symm
    _ ≤ (timetable.trips.flatMap Trip.places).length :=
      (List.subperm_of_subset budgeted.parted.nodup_boards inside).length_le
    _ = timetable.callCount := timetable.length_places

theorem reach
    {outing : Outing} {transfers : TransferTable} {after : Planner} (built : timetable.IsBuilt)
    (reach : outing.Reach timetable.catalogue transfers planner after)
    (budgeted : planner.Budgeted timetable) :
    after.Budgeted timetable := by
  induction reach with
  | refl => exact budgeted
  | tail _ step hypothesis =>
      exact ⟨hypothesis.parted.step built step, hypothesis.stocked.step built step⟩

/-- A search that follows the steps of an outing stays within the budget. -/
theorem of_follows
    {outing : Outing} {transfers : TransferTable} {after : Planner} {Value : Type}
    {search : Search Value} {gives : Value → Planner → Prop} {value : Value}
    (built : timetable.IsBuilt) (budgeted : planner.Budgeted timetable)
    (follows : outing.Follows timetable.catalogue transfers search planner gives)
    (outcome : search planner = .ok value after) :
    after.Budgeted timetable ∧ gives value after := by
  obtain ⟨reach, given⟩ := Search.Ensures.of_ok follows outcome
  exact ⟨budgeted.reach built reach, given⟩

end Budgeted

end Planner

namespace Search

variable
  {timetable : Timetable} {transfers : TransferTable} {planner : Planner}

/-- Two caps make no difference if the rides that are left in the budget are too few to
reach either. -/
theorem rounds_eq_of_callCount_lt
    (built : timetable.IsBuilt) (budgeted : planner.Budgeted timetable)
    {left left' round : Nat} {handles : List Nat}
    (enough : handles = [] ∨
      timetable.callCount < left + planner.rides.size ∧
        timetable.callCount < left' + planner.rides.size) :
    rounds timetable.catalogue transfers left round handles planner =
      rounds timetable.catalogue transfers left' round handles planner := by
  induction left generalizing planner left' round handles with
  | zero =>
      have within := budgeted.size_le built
      rcases enough with rfl | ⟨few, _⟩
      · rw [rounds_of_nil, rounds_of_nil]
      · omega
  | succ left hypothesis =>
      have within := budgeted.size_le built
      cases handles with
      | nil => rw [rounds_of_nil, rounds_of_nil]
      | cons handle rest =>
          obtain ⟨few, few'⟩ := enough.resolve_left (List.cons_ne_nil handle rest)
          obtain ⟨less, rfl⟩ : ∃ less, left' = less + 1 := ⟨left' - 1, by omega⟩
          rw [rounds_succ, rounds_succ]
          apply bind_congr_of_ok
          intro _ middle heard
          obtain ⟨middleBudgeted, _⟩ := budgeted.of_follows built
            (follows_heard transfers round (handle :: rest)) heard
          have rides := ((hear_tells round (handle :: rest)).of_ok heard).rides_eq
          apply bind_congr_of_ok
          intro next stored transferred
          obtain ⟨storedBudgeted, _⟩ := middleBudgeted.of_follows built
            (follows_transferred (handle :: rest)) transferred
          have count := (transferAll_stores (handle :: rest)).of_ok transferred
          apply hypothesis storedBudgeted
          -- A next round with rides has stored one at least.
          cases next with
          | nil => exact .inl rfl
          | cons first others =>
              rw [List.length_cons, rides] at count
              exact .inr (by omega)

/-- Two caps that are no less than the number of calls make no difference to a departure. -/
theorem departWithin_eq_of_callCount_le
    (built : timetable.IsBuilt) (budgeted : planner.Budgeted timetable) {cap cap' : Nat}
    (enough : timetable.callCount ≤ cap) (enough' : timetable.callCount ≤ cap')
    (access : List Station) (departure : Instant) (admits : Trip → Bool) :
    departWithin timetable.catalogue transfers cap access departure admits planner =
      departWithin timetable.catalogue transfers cap' access departure admits planner := by
  apply bind_congr_of_ok
  intro handles middle embarked
  let outing : Outing := ⟨access, departure, admits, planner.rides.size⟩
  obtain ⟨middleBudgeted, _⟩ := budgeted.of_follows built
    (Outing.follows_embark outing timetable.catalogue transfers) embarked
  have count := (embark_stores access departure admits).of_ok embarked
  apply rounds_eq_of_callCount_lt built middleBudgeted
  cases handles with
  | nil => exact .inl rfl
  | cons first others =>
      rw [List.length_cons] at count
      exact .inr (by omega)

/-- Settings whose caps are no less than the number of calls make no difference. -/
theorem depart_relates_of_callCount_le
    (built : timetable.IsBuilt) (budgeted : planner.Budgeted timetable) {settings : Settings}
    (enough : timetable.callCount ≤ planner.settings.rounds)
    (enough' : timetable.callCount ≤ settings.rounds)
    (access : List Station) (departure : Instant) (admits : Trip → Bool) :
    (Likeness.withSettings settings).Relates
      (depart timetable.catalogue transfers access departure admits planner)
      (depart timetable.catalogue transfers access departure admits (planner.set settings)) := by
  rw [depart_eq_departWithin, departWithin_eq_of_callCount_le built budgeted enough enough']
  exact depart_set access departure admits planner settings

end Search

namespace Planner

variable {timetable : Timetable}

theorem budgeted_performAll
    (built : timetable.IsBuilt) (transfers : TransferTable) (request : Request)
    (settings : Settings) (tasks : List Task) :
    ((fresh timetable.catalogue request settings).performAll timetable.catalogue transfers
      tasks).Budgeted timetable :=
  ⟨parted_performAll transfers request settings tasks built,
    stocked_performAll built transfers request settings tasks⟩

/-- Planners that are led to alike results by a task differ in their settings alone. -/
theorem perform_of_relates
    {catalogue : Catalogue} {transfers : TransferTable} {one other : Planner} {task : Task}
    {settings : Settings}
    (related : (Likeness.withSettings settings).Relates (task.search catalogue transfers one)
      (task.search catalogue transfers other)) :
    (other.perform catalogue transfers task).1 = (one.perform catalogue transfers task).1 ∧
      (other.perform catalogue transfers task).2 =
        (one.perform catalogue transfers task).2.set settings := by
  unfold Planner.perform EStateM.run
  revert related
  generalize task.search catalogue transfers one = first
  generalize task.search catalogue transfers other = second
  rintro (same | same)
  · exact ⟨rfl, same⟩
  · exact ⟨rfl, same⟩

/-- A search is bounded by the timetable, whatever the cap on its rounds and whatever the
transfers.  After every session a trip has at most as many rides as calls.  A departure, on
any planner, announces rounds zero, one and so on: of the rounds of transfers there are no
more than rides stored, nor are there of the rounds with rides, from which alone transfers
are tried.  On fresh planners all caps that are no less than the number of calls lead to
the same value or fault, and to planners that differ in the cap alone. -/
theorem search_bounded_by_timetable
    {trips : List ScheduledTrip} {timetable : Timetable}
    (built : Timetable.build trips = .ok timetable) (transfers : TransferTable)
    (request : Request) (settings : Settings) (tasks : List Task) :
    let catalogue := timetable.catalogue
    (∀ trip ∈ timetable.trips,
      ((fresh catalogue request settings).performAll catalogue transfers tasks).rides.countOn
        trip ≤ trip.calls.length) ∧
    (∀ (planner : Planner) (access : List Station) (departure : Instant) (admits : Trip → Bool),
      let after := (planner.perform catalogue transfers (.depart access departure admits)).2
      ∃ rounds, after.announced = planner.announced ++ rounds ∧
        rounds.map Prod.fst = List.range rounds.length ∧
        rounds.length - 1 ≤ after.rides.size - planner.rides.size ∧
        rounds.countP (0 < ·.2) ≤ after.rides.size - planner.rides.size) ∧
    (∀ (access : List Station) (departure : Instant) (admits : Trip → Bool),
      ∀ cap ≥ timetable.callCount, ∀ cap' ≥ timetable.callCount,
        let perform (cap : Nat) := (fresh catalogue request { settings with rounds := cap }).perform
          catalogue transfers (.depart access departure admits)
        (perform cap').1 = (perform cap).1 ∧
          (perform cap').2 = (perform cap).2.set { settings with rounds := cap' }) := by
  intro catalogue
  have isBuilt := Timetable.isBuilt_of_build built
  refine ⟨?_, ?_, ?_⟩
  · intro trip member
    exact (budgeted_performAll isBuilt transfers request settings tasks).countOn_le isBuilt member
  · intro planner access departure admits after
    have ensured : Search.Ensures
        ((Task.depart access departure admits).search catalogue transfers) planner
        (fun _ now => planner.Tells now 0 planner.settings.rounds 0)
        (fun _ now => planner.Tells now 0 planner.settings.rounds 0) :=
      Search.depart_tells access departure admits
    have told : planner.Tells after 0 planner.settings.rounds 0 := perform_of_ensures ensured
    obtain ⟨rounds, announced, numbers, length, count⟩ := told.announces
    rw [← List.range_eq_range'] at numbers
    exact ⟨rounds, announced, numbers, by omega, by omega⟩
  · intro access departure admits cap enough cap' enough' perform
    have budgeted : (fresh catalogue request { settings with rounds := cap }).Budgeted timetable :=
      budgeted_performAll isBuilt transfers request _ []
    exact perform_of_relates
      (Search.depart_relates_of_callCount_le isBuilt budgeted enough enough' access departure
        admits)

/-- Two trips that take no time until the last call, with transfers from each of them to
both. -/
def loopPlan : NetworkPlan where
  trips :=
    [ Sample.trip "there" [Sample.call "A" (Sample.clock 8 0), Sample.call "B" (Sample.clock 8 0)],
      Sample.trip "back"
        [ Sample.call "B" (Sample.clock 8 0), Sample.call "C" (Sample.clock 8 0),
          Sample.call "A" (Sample.clock 8 0), Sample.call "D" (Sample.clock 8 10) ] ]
  transfers :=
    [ Sample.transfer "there" 1 "back" 0, Sample.transfer "there" 1 "there" 0,
      Sample.transfer "back" 1 "there" 0, Sample.transfer "back" 1 "back" 0 ]

def loop : Network := Sample.networkOf loopPlan

/-- A fresh planner for the loop, with a cap on its rounds. -/
def freshOnLoop (cap : Nat) : Planner :=
  fresh loop.timetable.catalogue (Sample.request 0) { Settings.standard with rounds := cap }

/-- What it makes of the departure at eight. -/
def eightOnLoop (cap : Nat) : Except RoutingFault Unit × Planner :=
  (freshOnLoop cap).perform loop.timetable.catalogue loop.transfers
    (.depart [Sample.origin] (Sample.instant 8 0) fun _ => true)

/-- On the loop both trips are boarded at the origin, and the second once more by a transfer
from the first.  A cap of six, the number of calls, finds that as well as no cap to speak
of. -/
theorem search_bounded_on_loop :
    (eightOnLoop 6).1 = .ok () ∧ (eightOnLoop 6).2.rides.size = 3 ∧
      (∀ trip ∈ loop.timetable.trips,
        (eightSession loop).rides.countOn trip ≤ trip.calls.length) ∧
      (∃ rounds, (eightOnLoop 6).2.announced = (freshOnLoop 6).announced ++ rounds ∧
        rounds.map Prod.fst = List.range rounds.length ∧
        rounds.length - 1 ≤ (eightOnLoop 6).2.rides.size - (freshOnLoop 6).rides.size ∧
        rounds.countP (0 < ·.2) ≤ (eightOnLoop 6).2.rides.size - (freshOnLoop 6).rides.size) ∧
      (eightOnLoop 18446744073709551615).1 = (eightOnLoop 6).1 ∧
        (eightOnLoop 18446744073709551615).2 =
          (eightOnLoop 6).2.set { Settings.standard with rounds := 18446744073709551615 } := by
  have built : Timetable.build loopPlan.trips = .ok loop.timetable := by decide +kernel
  have count : loop.timetable.callCount = 6 := by decide +kernel
  have worked : (eightOnLoop 6).1 = .ok () ∧ (eightOnLoop 6).2.rides.size = 3 := by
    decide +kernel
  obtain ⟨countOn, announces, caps⟩ := search_bounded_by_timetable built loop.transfers
    (Sample.request 0) .standard [.depart [Sample.origin] (Sample.instant 8 0) fun _ => true]
  refine ⟨worked.1, worked.2, ?_, ?_, ?_⟩
  · unfold eightSession
    exact countOn
  · unfold eightOnLoop
    exact announces (freshOnLoop 6) [Sample.origin] (Sample.instant 8 0) fun _ => true
  · unfold eightOnLoop freshOnLoop
    exact caps [Sample.origin] (Sample.instant 8 0) (fun _ => true) 6 (Nat.le_of_eq count)
      18446744073709551615 (by rw [count]; omega)

end Planner

end Transit
