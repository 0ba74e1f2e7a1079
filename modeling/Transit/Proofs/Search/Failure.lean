import Transit.Proofs.Journey.Sample
import Transit.Proofs.Search.Coverage
import Transit.Proofs.Search.Journal

/-!
# What a failed departure leaves behind

A departure that fails keeps what it did before the fault.  The boardings that were
entered by then tell how much that is: without one, nothing has happened but for the
journal, so that the planner answers as if it had not been asked; with one, some trip is
covered where it was not before.  Labels and the earliest arrival only change once the
rounds have begun, which they do not if a station lacks a local time.
-/

namespace Transit

namespace Planner

variable {planner before middle after : Planner}

/-- The positions that were boarded, in order. -/
def boarded (planner : Planner) : List Position :=
  planner.journal.toList.filterMap fun
    | .boarding position => some position
    | _ => none

theorem mem_boarded {position : Position} :
    position ∈ planner.boarded ↔ .boarding position ∈ planner.journal.toList := by
  unfold boarded
  rw [List.mem_filterMap]
  constructor
  · rintro ⟨event, entered, same⟩
    cases event with
    | boarding known =>
        cases same
        exact entered
    | _ => cases same
  · intro entered
    exact ⟨_, entered, rfl⟩

theorem boarded_enter_of_isQuiet {event : Event} (quiet : event.IsQuiet) :
    (planner.enter event).boarded = planner.boarded := by
  cases event <;> simp_all [boarded, Event.IsQuiet]

theorem boarded_enter_passing (handle : Nat) (egress : Station) (arrival : Int) :
    (planner.enter (.passing handle egress arrival)).boarded = planner.boarded := by
  simp [boarded]

theorem boarded_cover (planner : Planner) (trip : Trip) (position : Position) :
    (planner.cover trip position).boarded = planner.boarded ++ [position] := by
  simp [boarded]

theorem boarded_find (planner : Planner) (label : Label) :
    (planner.find label).boarded = planner.boarded := by
  simp [boarded]

theorem Grows.boarded (grows : before.Grows after) : before.boarded <+: after.boarded :=
  grows.journal.filterMap _

/-- Some trip is covered from some call on, where it was not before. -/
def Marks (before after : Planner) : Prop :=
  ∃ trip call, after.bounds.Covers trip call ∧ ¬ before.bounds.Covers trip call

theorem Marks.of_grows_left (grows : before.Grows middle) (marks : middle.Marks after) :
    before.Marks after := by
  obtain ⟨trip, call, covers, fresh⟩ := marks
  exact ⟨trip, call, covers, fun early => fresh (grows.covers early)⟩

theorem Marks.of_grows_right (marks : before.Marks middle) (grows : middle.Grows after) :
    before.Marks after := by
  obtain ⟨trip, call, covers, fresh⟩ := marks
  exact ⟨trip, call, grows.covers covers, fresh⟩

theorem Matches.not_marks (matched : before.Matches after) : ¬ before.Marks after := by
  rintro ⟨trip, call, covers, fresh⟩
  rw [← matched.bounds] at covers
  exact fresh covers

end Planner

namespace Outing

open Search

variable
  {outing : Outing} {catalogue : Catalogue} {transfers : TransferTable}
  {before after : Planner}

theorem Reaches.lt_size
    {handle : Nat} {ride : Ride} {trip : Trip} {call : Call} {place : Nat} {egress : Station}
    (reaches : outing.Reaches catalogue before handle ride trip call place egress) :
    outing.base < before.rides.size :=
  Nat.lt_of_le_of_lt reaches.base_le (RideStore.lt_size_of_ride? reaches.ride_eq)

/-- An outing that has boarded no trip has only noted events. -/
theorem Reach.matches_of_boarded_eq
    (base_le : before.rides.size ≤ outing.base)
    (reach : outing.Reach catalogue transfers before after)
    (same : after.boarded = before.boarded) :
    before.Matches after := by
  induction reach with
  | refl => exact .refl before
  | @tail middle last prior step hypothesis =>
      have front := (Reach.grows prior).boarded
      have back := step.grows.boarded
      have unchanged : middle.boarded = before.boarded := by
        rw [same] at back
        exact back.eq_of_length (Nat.le_antisymm back.length_le front.length_le)
      have matched := hypothesis unchanged
      -- No ride is of this outing yet, so that none can arrive anywhere.
      have noRide : ¬ outing.base < middle.rides.size := by
        rw [← matched.rides]
        omega
      have noBoarding : ∀ position, last.boarded ≠ middle.boarded ++ [position] := by
        intro position longer
        rw [same, unchanged] at longer
        simp at longer
      cases step with
      | enter event _ => exact matched.trans (middle.matches_enter event)
      | cover _ _ _ _ => exact absurd (middle.boarded_cover _ _) (noBoarding _)
      | board _ _ _ _ => exact absurd ((middle.store _).boarded_cover _ _) (noBoarding _)
      | pass reaches _ => exact absurd reaches.lt_size noRide
      | lose reaches _ _ => exact absurd reaches.lt_size noRide
      | find reaches _ _ _ _ _ _ => exact absurd reaches.lt_size noRide

theorem marks_cover
    {timetable : Timetable} {trip : Trip} {position : Position} {approach : Approach}
    {limit : Nat} (built : timetable.IsBuilt)
    (approaches :
      outing.Approaches timetable.catalogue transfers before trip position approach)
    (known : before.bounds.coveredFrom? trip.index = some limit)
    (above : position.call < limit) :
    before.Marks (before.cover trip position) := by
  refine ⟨trip.index, position.call, ?_, ?_⟩
  · have member := Timetable.IsBuilt.mem_of_trip? approaches.trip_eq
    exact covers_cover position (built.grouped.inside trip member) known
  · rintro ⟨lower, found, reached⟩
    rw [known, Option.some.injEq] at found
    omega

/-- An outing that has boarded a trip has left a mark. -/
theorem Reach.boarded_eq_or_marks
    {timetable : Timetable} (built : timetable.IsBuilt)
    (reach : outing.Reach timetable.catalogue transfers before after) :
    after.boarded = before.boarded ∨ before.Marks after := by
  induction reach with
  | refl => exact .inl rfl
  | @tail middle last prior step hypothesis =>
      have grown : before.Grows middle := Reach.grows prior
      have carry : last.boarded = middle.boarded →
          last.boarded = before.boarded ∨ before.Marks last := by
        intro unchanged
        rcases hypothesis with same | marks
        · exact .inl (unchanged.trans same)
        · exact .inr (marks.of_grows_right step.grows)
      cases step with
      | enter event quiet => exact carry (Planner.boarded_enter_of_isQuiet quiet)
      | cover approaches known above _ =>
          exact .inr (.of_grows_left grown (marks_cover built approaches known above))
      | board approaches known far _ =>
          have marks := marks_cover built approaches known (Nat.lt_of_succ_lt far)
          exact .inr (.of_grows_left grown marks)
      | pass _ _ => exact carry (Planner.boarded_enter_passing _ _ _)
      | lose _ _ _ => exact carry rfl
      | find _ _ _ _ _ _ _ => exact carry (middle.boarded_find _)

/-- While no ride of an outing is stored, no label is found. -/
theorem Reach.frontier_eq
    (reach : outing.Reach catalogue transfers before after)
    (above : after.rides.size ≤ outing.base) :
    after.frontier = before.frontier ∧ after.bounds.earliest = before.bounds.earliest := by
  induction reach with
  | refl => exact ⟨rfl, rfl⟩
  | @tail middle last _ step hypothesis =>
      have below : middle.rides.size ≤ outing.base := Nat.le_trans step.grows.size above
      have kept := hypothesis below
      have noRide : ¬ outing.base < middle.rides.size := Nat.not_lt_of_le below
      cases step with
      | enter _ _ => exact kept
      | cover _ _ _ _ => exact kept
      | board _ _ _ _ => exact kept
      | pass _ _ => exact kept
      | lose reaches _ _ => exact absurd reaches.lt_size noRide
      | find reaches _ _ _ _ _ _ => exact absurd reaches.lt_size noRide

end Outing

namespace Search

variable
  {catalogue : Catalogue} {transfers : TransferTable} {planner : Planner}
  {access : List Station} {departure : Instant} {admits : Trip → Bool}

/-- A departure without stations does nothing. -/
theorem ensures_depart_of_nil (none : access = [] ∨ planner.request.egress = []) :
    Ensures (depart catalogue transfers access departure admits) planner
      (fun _ _ => False) (fun _ after => after = planner) := by
  unfold depart
  by_cases noAccess : access.isEmpty = true
  · rw [if_pos noAccess, ensures_bind]
    rfl
  · have noEgress : planner.request.egress.isEmpty = true := by
      rcases none with rfl | none
      · exact absurd rfl noAccess
      · exact List.isEmpty_iff.mpr none
    rw [if_neg noAccess, ensures_bind, ensures_get, if_pos noEgress, ensures_bind]
    rfl

/-- A departure at which a station has no local time finds no label. -/
theorem ensures_depart_of_unreached
    {station : Station} (member : station ∈ access)
    (unreached : station.localDeparture? departure = none) :
    Ensures (depart catalogue transfers access departure admits) planner
      (fun _ _ => False)
      (fun _ after =>
        after.frontier = planner.frontier ∧
          after.bounds.earliest = planner.bounds.earliest) := by
  have boards : ∀ now base, Outing.Follows ⟨access, departure, admits, base⟩ catalogue transfers
      (boardStations catalogue departure admits access) now
      (fun handles after => handles = now.newRides after ∧
        ∀ station ∈ access,
          Outing.Served ⟨access, departure, admits, base⟩ catalogue after station) :=
    fun _ _ => Outing.follows_boardStations fun _ known => known
  have fails : Ensures (boardStations catalogue departure admits access) planner
      (fun _ _ => False)
      (fun _ after =>
        after.frontier = planner.frontier ∧
          after.bounds.earliest = planner.bounds.earliest) := by
    unfold Ensures
    cases outcome : boardStations catalogue departure admits access planner with
    | ok handles after =>
        obtain ⟨_, _, served⟩ := Ensures.of_ok (boards planner 0) outcome
        obtain ⟨reached, known, _⟩ := served station member
        have absent : station.localDeparture? departure = some reached := known
        rw [unreached] at absent
        cases absent
    | error fault after =>
        -- The base is out of the reach of all rides that were stored.
        have reach := Ensures.of_error (boards planner after.rides.size) outcome
        exact Outing.Reach.frontier_eq reach (Nat.le_refl _)
  unfold depart
  by_cases noAccess : access.isEmpty = true
  · rw [if_pos noAccess, ensures_bind]
    exact ⟨rfl, rfl⟩
  rw [if_neg noAccess, ensures_bind, ensures_get]
  by_cases noEgress : planner.request.egress.isEmpty = true
  · rw [if_pos noEgress, ensures_bind]
    exact ⟨rfl, rfl⟩
  rw [if_neg noEgress, ensures_bind]
  exact fails.imp fun _ _ impossible => impossible.elim

end Search

namespace Planner

/-- What a departure that fails ensures holds of its fault and the planner afterwards. -/
theorem of_failed_depart
    {catalogue : Catalogue} {transfers : TransferTable} {planner after : Planner}
    {access : List Station} {departure : Instant} {admits : Trip → Bool} {fault : RoutingFault}
    {done : Unit → Planner → Prop} {left : RoutingFault → Planner → Prop}
    (ensured : Search.Ensures
      (Search.depart catalogue transfers access departure admits) planner done left)
    (failed : planner.perform catalogue transfers (.depart access departure admits) =
      (.error fault, after)) :
    left fault after := by
  have task : Search.Ensures
      ((Task.depart access departure admits).search catalogue transfers) planner done left :=
    ensured
  exact of_perform_eq_error task failed

/-- What a failed departure leaves behind, on any transfer table and any planner.  Without
stations it leaves all as it was, and if a station has no local time, the labels and the
earliest arrival.  Else it leaves no trace exactly if it had boarded no trip when it
failed, and then the planner answers whatever it is asked as if it had not departed. -/
theorem matches_iff_of_failed_depart
    {trips : List ScheduledTrip} {timetable : Timetable}
    (built : Timetable.build trips = .ok timetable) (transfers : TransferTable)
    {planner after : Planner} {access : List Station} {departure : Instant}
    {admits : Trip → Bool} {fault : RoutingFault}
    (failed : planner.perform timetable.catalogue transfers (.depart access departure admits) =
      (.error fault, after)) :
    (access = [] ∨ planner.request.egress = [] → after = planner) ∧
      ((∃ station ∈ access, station.localDeparture? departure = none) →
        after.frontier = planner.frontier ∧
          after.bounds.earliest = planner.bounds.earliest) ∧
      (planner.Matches after ↔ after.boarded = planner.boarded) ∧
      (after.boarded = planner.boarded → ∀ later,
        after.answers timetable.catalogue transfers later =
          planner.answers timetable.catalogue transfers later) := by
  have isBuilt := Timetable.isBuilt_of_build built
  let outing : Outing := ⟨access, departure, admits, planner.rides.size⟩
  have reach : outing.Reach timetable.catalogue transfers planner after :=
    of_failed_depart (Outing.follows_depart outing _ _ rfl) failed
  have quiet : after.boarded = planner.boarded → planner.Matches after :=
    reach.matches_of_boarded_eq (Nat.le_refl _)
  refine ⟨?_, ?_, ⟨?_, quiet⟩, ?_⟩
  · intro none
    exact of_failed_depart (Search.ensures_depart_of_nil none) failed
  · rintro ⟨station, member, unreached⟩
    exact of_failed_depart (Search.ensures_depart_of_unreached member unreached) failed
  · intro matched
    rcases reach.boarded_eq_or_marks isBuilt with same | marks
    · exact same
    · exact absurd marks matched.not_marks
  · intro same later
    exact (quiet same).symm.answers_eq later

/-- What a planner makes of a departure at eight on the network of one line. -/
def onLine (planner : Planner) (transfers : TransferTable) (access : List Station) :
    Except RoutingFault Unit × Planner :=
  planner.perform Sample.line.timetable.catalogue transfers
    (.depart access (Sample.instant 8 0) fun _ => true)

def freshOnLine : Planner :=
  fresh Sample.line.timetable.catalogue (Sample.request 0) .standard

/-- A planner that has found a label before keeps all it knows when it is sent to a station
that it cannot reach. -/
theorem matches_iff_of_failed_depart_far :
    let planner := (freshOnLine.onLine .empty [Sample.origin]).2
    let failed := planner.onLine .empty [Sample.far, Sample.origin]
    failed.1 = .error (.request (.departure Sample.far.stop)) ∧
      planner.frontier.size = 1 ∧ failed.2.frontier = planner.frontier ∧
      planner.Matches failed.2 ∧
      ∀ later, failed.2.answers Sample.line.timetable.catalogue .empty later =
        planner.answers Sample.line.timetable.catalogue .empty later := by
  intro planner failed
  have built : Timetable.build Sample.linePlan.trips = .ok Sample.line.timetable := by
    decide +kernel
  have outcome : failed.1 = .error (.request (.departure Sample.far.stop)) := by decide +kernel
  have same : failed.2.boarded = planner.boarded := by decide +kernel
  have performed : failed = (.error (.request (.departure Sample.far.stop)), failed.2) := by
    rw [← outcome]
  have unreached : Sample.far.localDeparture? (Sample.instant 8 0) = none := by decide +kernel
  obtain ⟨_, labels, traceless, alike⟩ := matches_iff_of_failed_depart built .empty performed
  have one : planner.frontier.size = 1 := by decide +kernel
  exact ⟨outcome, one, (labels ⟨Sample.far, List.mem_cons_self, unreached⟩).1,
    traceless.mpr same, alike same⟩

/-- A transfer to a trip that is not there. -/
def strayTransfers : TransferTable := ⟨[⟨Sample.day, ⟨0, 1⟩, ⟨7, 0⟩⟩]⟩

/-- A departure that fails over an unknown trip after a label was found. -/
def failedOnTransfer : Except RoutingFault Unit × Planner :=
  freshOnLine.onLine strayTransfers [Sample.origin]

/-- A departure that fails over its second station after the first was boarded. -/
def failedOnStation : Except RoutingFault Unit × Planner :=
  freshOnLine.onLine .empty [Sample.origin, Sample.far]

/-- Failed departures that leave a trace.  One leaves a label and the bound of its arrival,
and fails no more when it is repeated.  The other hides the trip it boarded from the
departure that follows. -/
theorem failed_departs_leave_traces :
    Timetable.build Sample.linePlan.trips = .ok Sample.line.timetable ∧
      failedOnTransfer.1 = .error (.unknownTrip 7) ∧
      freshOnLine.ranked = [] ∧ failedOnTransfer.2.ranked ≠ [] ∧
      failedOnTransfer.2.bounds.earliest < freshOnLine.bounds.earliest ∧
      (failedOnTransfer.2.onLine strayTransfers [Sample.origin]).1 = .ok () ∧
      failedOnStation.1 = .error (.request (.departure Sample.far.stop)) ∧
      (freshOnLine.onLine .empty [Sample.origin]).2.ranked ≠ [] ∧
      (failedOnStation.2.onLine .empty [Sample.origin]).2.ranked = [] := by
  decide +kernel

end Planner

end Transit
