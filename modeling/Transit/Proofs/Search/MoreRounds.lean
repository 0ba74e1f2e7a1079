import Transit.Proofs.Search.Budget
import Transit.Proofs.Search.Replay

/-!
# More rounds

A departure with a higher cap on its rounds goes through the same rounds first, on the same
rides and under the same bounds, and then through some more.  What it finds in these is of
later rounds, so that the labels of the lower cap are exactly those of its rounds, and in
the same order.
-/

namespace Transit

namespace Search

variable
  {catalogue : Catalogue} {transfers : TransferTable} {planner low high : Planner}

theorem follows_rounds_ofAll (left round : Nat) (handles : List Nat) :
    Outing.ofAll.Follows catalogue transfers (rounds catalogue transfers left round handles)
      planner (fun _ _ => True) := by
  induction left generalizing planner round handles with
  | zero =>
      rw [rounds_zero]
      exact follows_heard transfers round handles
  | succ left hypothesis =>
      cases handles with
      | nil =>
          rw [rounds_of_nil]
          exact follows_heard transfers round []
      | cons handle rest =>
          rw [rounds_succ]
          apply (follows_heard transfers round (handle :: rest)).bind
          intro _ middle _ _
          apply (follows_transferred (handle :: rest)).bind
          intro next stored _ _
          exact hypothesis (round + 1) next

/-- What comes after a round grows the planner, and finds labels of later rounds. -/
theorem later_rounds_extend
    {left round : Nat} {handles next : List Nat} {stored : Planner}
    (transferred : transferAll catalogue transfers handles low = .ok next stored)
    (ended : rounds catalogue transfers left (round + 1) next stored = .ok () high) :
    low.Grows high ∧ low.FindsIn high (round + 1) (round + (left + 1)) := by
  have reach := (Ensures.of_ok (follows_transferred handles) transferred).1
  have further := (Ensures.of_ok (follows_rounds_ofAll left (round + 1) next) ended).1
  have found := ((transferAll_keeps_told handles).of_ok transferred).2
  have finds := ((rounds_tell left (round + 1) next).of_ok ended).finds
  rw [Nat.add_right_comm] at finds
  exact ⟨reach.grows.trans further.grows, (Planner.FindsIn.of_found_eq found).trans finds⟩

/-- Rounds that may go on longer find the same, and then labels of later rounds alone. -/
theorem rounds_extend
    {left left' round : Nat} {handles : List Nat} (fewer : left ≤ left')
    (lowEnd : rounds catalogue transfers left round handles planner = .ok () low)
    (highEnd : rounds catalogue transfers left' round handles planner = .ok () high) :
    low.Grows high ∧ low.FindsIn high (round + left + 1) (round + left') := by
  have same : low = high → low.Grows high ∧ low.FindsIn high (round + left + 1) (round + left') := by
    rintro rfl
    exact ⟨.refl low, .of_found_eq rfl⟩
  induction left generalizing planner left' round handles with
  | zero =>
      rw [rounds_zero] at lowEnd
      cases left' with
      | zero =>
          rw [rounds_zero, lowEnd] at highEnd
          cases highEnd
          exact same rfl
      | succ more =>
          cases handles with
          | nil =>
              rw [rounds_of_nil, lowEnd] at highEnd
              cases highEnd
              exact same rfl
          | cons handle rest =>
              rw [rounds_succ] at highEnd
              obtain ⟨_, heard, heardEnd, onward⟩ := bind_eq_ok.mp highEnd
              rw [lowEnd] at heardEnd
              cases heardEnd
              obtain ⟨next, stored, transferred, later⟩ := bind_eq_ok.mp onward
              exact later_rounds_extend transferred later
  | succ left hypothesis =>
      obtain ⟨more, rfl⟩ : ∃ more, left' = more + 1 := ⟨left' - 1, by omega⟩
      cases handles with
      | nil =>
          rw [rounds_of_nil] at lowEnd highEnd
          rw [lowEnd] at highEnd
          cases highEnd
          exact same rfl
      | cons handle rest =>
          rw [rounds_succ] at lowEnd highEnd
          obtain ⟨_, heard, heardEnd, onward⟩ := bind_eq_ok.mp lowEnd
          obtain ⟨next, stored, transferred, lowLater⟩ := bind_eq_ok.mp onward
          obtain ⟨_, heard', heardEnd', onward'⟩ := bind_eq_ok.mp highEnd
          rw [heardEnd] at heardEnd'
          cases heardEnd'
          obtain ⟨next', stored', transferred', highLater⟩ := bind_eq_ok.mp onward'
          rw [transferred] at transferred'
          cases transferred'
          rw [show round + (left + 1) + 1 = round + 1 + left + 1 by omega,
            show round + (more + 1) = round + 1 + more by omega] at same ⊢
          exact hypothesis (Nat.le_of_succ_le_succ fewer) lowLater highLater same

/-- A departure with a higher cap finds the same, and then labels beyond the lower one. -/
theorem departWithin_extend
    {cap cap' : Nat} (fewer : cap ≤ cap') {access : List Station} {departure : Instant}
    {admits : Trip → Bool}
    (lowEnd : departWithin catalogue transfers cap access departure admits planner =
      .ok () low)
    (highEnd : departWithin catalogue transfers cap' access departure admits planner =
      .ok () high) :
    low.Grows high ∧ low.FindsIn high (cap + 1) cap' := by
  obtain ⟨handles, middle, embarked, lowRounds⟩ := bind_eq_ok.mp lowEnd
  obtain ⟨handles', middle', embarked', highRounds⟩ := bind_eq_ok.mp highEnd
  rw [embarked] at embarked'
  cases embarked'
  have further := rounds_extend fewer lowRounds highRounds
  rw [Nat.zero_add, Nat.zero_add] at further
  exact further

/-- A departure under other settings ends as one with their cap, but for the settings. -/
theorem exists_departWithin
    {access : List Station} {departure : Instant} {admits : Trip → Bool}
    {settings : Settings} {after : Planner}
    (ended : depart catalogue transfers access departure admits (planner.set settings) =
      .ok () after) :
    ∃ high, departWithin catalogue transfers settings.rounds access departure admits planner =
        .ok () high ∧
      after = high.set settings := by
  have related : (Likeness.withSettings settings).Relates
      (departWithin catalogue transfers settings.rounds access departure admits planner)
      (depart catalogue transfers access departure admits (planner.set settings)) :=
    depart_set access departure admits planner settings
  rw [ended] at related
  generalize departWithin catalogue transfers settings.rounds access departure admits planner =
    outcome at related
  cases related with
  | ok same => exact ⟨_, rfl, same⟩

end Search

namespace Planner

/-- What is found first, if it is of the rounds up to a cap and what comes next of later
rounds, is what a restriction of all to these rounds leaves. -/
theorem FindsIn.found_eq_filter
    {before low high : Planner} {cap cap' : Nat} (none : before.found = [])
    (early : before.FindsIn low 0 cap) (late : low.FindsIn high (cap + 1) cap') :
    low.found = high.found.filter (fun label => label.round ≤ cap) := by
  obtain ⟨labels, lowFound, inside⟩ := early
  obtain ⟨more, highFound, beyond⟩ := late
  rw [none, List.nil_append] at lowFound
  have kept : labels.filter (fun label => label.round ≤ cap) = labels := by
    rw [List.filter_eq_self]
    intro label member
    exact decide_eq_true (inside label member).2
  have dropped : more.filter (fun label => label.round ≤ cap) = [] := by
    rw [List.filter_eq_nil_iff]
    intro label member
    have past : cap < label.round := (beyond label member).1
    simpa using past
  rw [highFound, lowFound, List.filter_append, kept, dropped, List.append_nil]

theorem FindsIn.round_le
    {before after : Planner} {first last : Nat} (none : before.found = [])
    (finds : before.FindsIn after first last) {label : Label} (member : label ∈ after.found) :
    label.round ≤ last := by
  obtain ⟨labels, found, inside⟩ := finds
  rw [found, none, List.nil_append] at member
  exact (inside label member).2

/-- On a built timetable with resolved transfers a departure succeeds exactly if it has
stations and all access stations have a local time.  The cap plays no part in this. -/
theorem perform_depart_ok_iff
    {timetable : Timetable} {transfers : TransferTable} {planner : Planner}
    (built : timetable.IsBuilt) (resolved : transfers.IsResolved timetable.catalogue)
    (stocked : planner.Stocked timetable.catalogue) (access : List Station)
    (departure : Instant) (admits : Trip → Bool) :
    (planner.perform timetable.catalogue transfers (.depart access departure admits)).1 =
        .ok () ↔
      access ≠ [] ∧ planner.request.egress ≠ [] ∧
        ∀ station ∈ access, ∃ reached, station.localDeparture? departure = some reached := by
  constructor
  · intro worked
    obtain ⟨someAccess, someEgress, stations⟩ :=
      (Search.ensures_depart_served access departure admits).of_ok
        (perform_eq_ok.mp (Prod.ext worked rfl))
    refine ⟨someAccess, someEgress, ?_⟩
    intro station member
    obtain ⟨reached, local_eq, _⟩ := stations station member
    exact ⟨reached, local_eq⟩
  · rintro ⟨someAccess, someEgress, known⟩
    let refuses (_ : RoutingFault) : Prop := False
    have completes : Search.Completes timetable.catalogue refuses
        (Search.depart timetable.catalogue transfers access departure admits) planner
        (fun _ _ => ∀ station ∈ access,
          ∃ reached, station.localDeparture? departure = some reached) := by
      apply Search.completes_depart built resolved stocked someAccess someEgress
      intro station member unreached
      obtain ⟨reached, local_eq⟩ := known station member
      rw [unreached] at local_eq
      cases local_eq
    cases outcome : (planner.perform timetable.catalogue transfers
        (.depart access departure admits)).1 with
    | ok _ => rfl
    | error fault =>
        exact (Search.Ensures.of_error completes
          (perform_eq_error.mp (Prod.ext outcome rfl))).elim

/-- On a network that was built, a fresh planner with a higher cap on its rounds succeeds at a
departure exactly if one with the lower cap does.  The labels found under the lower cap are
then those of the rounds up to the cap among the labels found under the higher one, in the
same order and with the same alightings, stations and criteria.  No label is of a round
beyond the cap, and the earliest arrival under the higher cap is no later. -/
theorem found_of_more_rounds
    {plan : NetworkPlan} {network : Network} (built : plan.build = .ok network)
    (request : Request) (settings : Settings) (access : List Station) (departure : Instant)
    (admits : Trip → Bool) {cap cap' : Nat} (fewer : cap ≤ cap') :
    let catalogue := network.timetable.catalogue
    let perform (cap : Nat) := (fresh catalogue request { settings with rounds := cap }).perform
      catalogue network.transfers (.depart access departure admits)
    ((perform cap).1 = .ok () ↔ (perform cap').1 = .ok ()) ∧
      ((perform cap).1 = .ok () →
        (perform cap).2.found =
            (perform cap').2.found.filter (fun label => label.round ≤ cap) ∧
          (∀ label ∈ (perform cap).2.found, label.round ≤ cap) ∧
          (∀ label ∈ (perform cap').2.found, label.round ≤ cap') ∧
          (perform cap').2.bounds.earliest ≤ (perform cap).2.bounds.earliest) := by
  intro catalogue perform
  have isBuilt := Timetable.isBuilt_of_plan built
  have resolved : network.transfers.IsResolved catalogue :=
    fun _ _ _ listed => Timetable.exists_call_of_destination built listed
  have succeeds (cap : Nat) :=
    perform_depart_ok_iff isBuilt resolved
      (stocked_fresh isBuilt request { settings with rounds := cap }) access departure admits
  have alike : (perform cap).1 = .ok () ↔ (perform cap').1 = .ok () :=
    (succeeds cap).trans (succeeds cap').symm
  refine ⟨alike, fun worked => ?_⟩
  let start := fresh catalogue request { settings with rounds := cap }
  have lowEnd : Search.departWithin catalogue network.transfers cap access departure admits
      start = .ok () (perform cap).2 := by
    have performed := perform_eq_ok.mp (Prod.ext worked rfl : perform cap = (.ok (), _))
    exact (Search.depart_eq_departWithin access departure admits).symm.trans performed
  obtain ⟨high, highEnd, high_eq⟩ : ∃ high,
      Search.departWithin catalogue network.transfers cap' access departure admits start =
        .ok () high ∧
      (perform cap').2 = high.set { settings with rounds := cap' } := by
    have performed : Search.depart catalogue network.transfers access departure admits
        (start.set { settings with rounds := cap' }) = .ok () (perform cap').2 :=
      perform_eq_ok.mp (Prod.ext (alike.mp worked) rfl : perform cap' = (.ok (), _))
    exact Search.exists_departWithin performed
  have early : start.FindsIn (perform cap).2 0 cap :=
    ((Search.departWithin_tells access departure admits cap).of_ok lowEnd).finds
  have all : start.FindsIn high 0 cap' :=
    ((Search.departWithin_tells access departure admits cap').of_ok highEnd).finds
  obtain ⟨grows, late⟩ := Search.departWithin_extend fewer lowEnd highEnd
  rw [high_eq]
  exact ⟨early.found_eq_filter rfl late, fun _ => early.round_le rfl, fun _ => all.round_le rfl,
    grows.earliest⟩

/-- A slow trip to the target, and two ways to change to faster ones. -/
def hastePlan : NetworkPlan where
  trips :=
    [ Sample.trip "slow" [Sample.call "A" (Sample.clock 8 0), Sample.call "D" (Sample.clock 9 30)],
      Sample.trip "first" [Sample.call "A" (Sample.clock 8 0), Sample.call "B" (Sample.clock 8 10)],
      Sample.trip "second"
        [ Sample.call "B" (Sample.clock 8 15), Sample.call "C" (Sample.clock 8 30),
          Sample.call "D" (Sample.clock 9 0) ],
      Sample.trip "third"
        [Sample.call "C" (Sample.clock 8 35), Sample.call "D" (Sample.clock 8 50)] ]
  transfers := [Sample.transfer "first" 1 "second" 0, Sample.transfer "second" 1 "third" 0]

def haste : Network := Sample.networkOf hastePlan

/-- What a fresh planner with a cap on its rounds makes of the departure at eight. -/
def eightOnHaste (cap : Nat) : Except RoutingFault Unit × Planner :=
  (fresh haste.timetable.catalogue (Sample.request 0) ⟨cap, 5⟩).perform
    haste.timetable.catalogue haste.transfers
    (.depart [Sample.origin] (Sample.instant 8 0) fun _ => true)

/-- One round of transfers finds two labels, and a second round one more, of an earlier
arrival. -/
theorem found_of_more_rounds_on_haste :
    (eightOnHaste 1).1 = .ok () ∧ (eightOnHaste 2).1 = .ok () ∧
      (eightOnHaste 1).2.found.map Label.round = [0, 1] ∧
      (eightOnHaste 2).2.found.map Label.round = [0, 1, 2] ∧
      (eightOnHaste 1).2.found =
        (eightOnHaste 2).2.found.filter (fun label => label.round ≤ 1) ∧
      (eightOnHaste 2).2.bounds.earliest ≤ (eightOnHaste 1).2.bounds.earliest := by
  have built : hastePlan.build = .ok haste := by decide +kernel
  have worked : (eightOnHaste 1).1 = .ok () := by decide +kernel
  have rounds : (eightOnHaste 1).2.found.map Label.round = [0, 1] ∧
      (eightOnHaste 2).2.found.map Label.round = [0, 1, 2] := by
    decide +kernel
  obtain ⟨alike, extended⟩ := found_of_more_rounds built (Sample.request 0) ⟨0, 5⟩
    [Sample.origin] (Sample.instant 8 0) (fun _ => true) (by decide : 1 ≤ 2)
  unfold eightOnHaste at worked rounds ⊢
  dsimp only at alike extended
  obtain ⟨restricted, _, _, earliest⟩ := extended worked
  exact ⟨worked, alike.mp worked, rounds.1, rounds.2, restricted, earliest⟩

end Planner

end Transit
