import Transit.Proofs.Search.Failure
import Transit.Proofs.Search.Refusal

/-!
# Searching again

A departure that succeeds covers what its stations offer.  What is covered stays covered,
and what the stations offer is chosen by the clock alone, so that the same departure, made
again at any later time, boards nothing: its first round has no rides and is its last.

`Task.IsDone` says of a planner that it has nothing left to find by a task.  A task that
succeeds leaves such a planner, every session keeps it so, and the task finds nothing on it.
-/

namespace Transit

namespace Search

variable
  {catalogue : Catalogue} {transfers : TransferTable} {timetable : Timetable}
  {planner : Planner}

/-- Boarding a trip where it is covered does nothing. -/
theorem board_of_covers
    {trip : Trip} {position : Position} (approach : Approach)
    (covers : planner.bounds.Covers trip.index position.call) :
    board catalogue trip position approach planner = .ok none planner := by
  obtain ⟨limit, known, reached⟩ := covers
  refine bind_eq_ok.mpr ⟨planner, planner, rfl, ?_⟩
  rw [known]
  dsimp only
  rw [if_pos reached]
  rfl

/-- Patterns that were boarded are not boarded again. -/
theorem boardPatterns_of_boarded
    (built : timetable.IsBuilt) {outing : Outing} {station : Station} {reached : LocalTime}
    {boardings : Boardings}
    (offered : ∀ entry ∈ boardings,
      entry ∈ (timetable.catalogue.boardings? station.stop).getD [])
    (boarded : outing.Boarded timetable.catalogue reached boardings planner) :
    boardPatterns timetable.catalogue station reached outing.admits boardings planner =
      .ok [] planner := by
  induction boardings with
  | nil => rfl
  | cons entry rest hypothesis =>
      obtain ⟨pattern, positions⟩ := entry
      obtain ⟨later, first, departing, usable, calls⟩ :=
        exists_firstBoarding built (offered (pattern, positions) List.mem_cons_self) reached
          outing.admits
      have others :
          boardPatterns timetable.catalogue station reached outing.admits rest planner =
            .ok [] planner := by
        apply hypothesis
        · intro entry member
          exact offered entry (List.mem_cons_of_mem _ member)
        · intro name list later trip position member
          exact boarded name list later trip position (List.mem_cons_of_mem _ member)
      unfold boardPatterns
      rw [departing]
      refine bind_eq_ok.mpr ⟨later, planner, rfl, ?_⟩
      rw [usable]
      refine bind_eq_ok.mpr ⟨first, planner, rfl, ?_⟩
      cases first with
      | none =>
          refine bind_eq_ok.mpr ⟨none, planner, rfl, ?_⟩
          exact bind_eq_ok.mpr ⟨[], planner, others, rfl⟩
      | some boarding =>
          obtain ⟨trip, position⟩ := boarding
          obtain ⟨found, _⟩ := calls trip position rfl
          have inside := built.grouped.inside trip (Timetable.IsBuilt.mem_of_trip? found)
          have covers := boarded pattern positions later trip position List.mem_cons_self
            departing usable inside
          refine bind_eq_ok.mpr ⟨none, planner, board_of_covers _ covers, ?_⟩
          exact bind_eq_ok.mpr ⟨[], planner, others, rfl⟩

/-- Stations that are served are not boarded at again. -/
theorem boardStations_of_served
    (built : timetable.IsBuilt) {outing : Outing} {stations : List Station}
    (served : ∀ station ∈ stations, outing.Served timetable.catalogue planner station) :
    boardStations timetable.catalogue outing.departure outing.admits stations planner =
      .ok [] planner := by
  induction stations with
  | nil => rfl
  | cons station rest hypothesis =>
      obtain ⟨reached, local_eq, boarded⟩ := served station List.mem_cons_self
      have patterns := boardPatterns_of_boarded built (fun _ member => member) boarded
      have others := hypothesis fun later member =>
        served later (List.mem_cons_of_mem station member)
      unfold boardStations
      rw [local_eq]
      refine bind_eq_ok.mpr ⟨[], planner, patterns, ?_⟩
      exact bind_eq_ok.mpr ⟨[], planner, others, rfl⟩

/-- A round without rides is the last one. -/
theorem rounds_nil_eq_ok (left round : Nat) :
    rounds catalogue transfers left round [] planner =
      .ok () (planner.enter (.round round 0)) := by
  cases left <;> rfl

/-- A departure whose stations are served boards nothing. -/
theorem depart_of_served
    (built : timetable.IsBuilt) (outing : Outing) (someAccess : outing.access ≠ [])
    (someEgress : planner.request.egress ≠ [])
    (served : ∀ station ∈ outing.access,
      outing.Served timetable.catalogue planner station) :
    depart timetable.catalogue transfers outing.access outing.departure outing.admits planner =
      .ok () ((planner.enter (.departing outing.departure outing.access.length)).enter
        (.round 0 0)) := by
  unfold depart
  rw [if_neg (by simpa using someAccess)]
  refine bind_eq_ok.mpr ⟨planner, planner, rfl, ?_⟩
  rw [if_neg (by simpa using someEgress)]
  refine bind_eq_ok.mpr ⟨[], planner, boardStations_of_served built served, ?_⟩
  refine bind_eq_ok.mpr ⟨[], planner, rfl, ?_⟩
  refine bind_eq_ok.mpr ⟨(), planner.enter _, rfl, ?_⟩
  exact bind_eq_ok.mpr ⟨planner.enter _, planner.enter _, rfl, rounds_nil_eq_ok _ 0⟩

end Search

/-- Nothing was found between two planners: the labels, the rides and the bounds are the
same. -/
structure Planner.FindsNothing (before after : Planner) : Prop where
  frontier : after.frontier = before.frontier
  rides : after.rides = before.rides
  bounds : after.bounds = before.bounds

namespace Planner.FindsNothing

variable {before middle after : Planner}

theorem refl (planner : Planner) : planner.FindsNothing planner :=
  ⟨rfl, rfl, rfl⟩

theorem trans (left : before.FindsNothing middle) (right : middle.FindsNothing after) :
    before.FindsNothing after :=
  ⟨right.frontier.trans left.frontier, right.rides.trans left.rides,
    right.bounds.trans left.bounds⟩

theorem enter (found : before.FindsNothing after) (event : Event) :
    before.FindsNothing (after.enter event) :=
  ⟨found.frontier, found.rides, found.bounds⟩

theorem ask (found : before.FindsNothing after) (request : Request) :
    before.FindsNothing (after.ask request) :=
  ⟨found.frontier, found.rides, found.bounds⟩

end Planner.FindsNothing

theorem Outing.Served.of_bounds_eq
    {outing : Outing} {catalogue : Catalogue} {before after : Planner} {station : Station}
    (served : outing.Served catalogue before station) (same : after.bounds = before.bounds) :
    outing.Served catalogue after station := by
  obtain ⟨reached, local_eq, boarded⟩ := served
  refine ⟨reached, local_eq, ?_⟩
  unfold Boarded
  rw [same]
  exact boarded

/-- The departures of a sweep have been made: the request is sound, its grid is in range,
and at each departure of the grid the stations are served. -/
structure Request.IsDone (request : Request) (catalogue : Catalogue) (planner : Planner) :
    Prop where
  sound : request.fault? = none
  departed : ∃ step, planner.settings.step = .ok step ∧
    (∀ times < Search.departuresIn request.window step, ∃ departure,
      request.start.add? (Search.windowAfter request step times).window = some departure) ∧
    ∀ departure, request.Sweeps step departure → ∀ station ∈ request.access,
      Outing.Served ⟨request.access, departure, request.admits, 0⟩ catalogue planner station

/-- The departures of a task have been made. -/
def Task.IsDone (catalogue : Catalogue) (planner : Planner) : Task → Prop
  | depart access departure admits =>
      access ≠ [] ∧ planner.request.egress ≠ [] ∧ ∀ station ∈ access,
        Outing.Served ⟨access, departure, admits, 0⟩ catalogue planner station
  | sweep request => request.IsDone catalogue planner
  | sweepEach request =>
      request.fault? = none ∧
        ∀ station ∈ request.access, (request.fromStation station).IsDone catalogue planner

theorem Request.IsDone.grows
    {request : Request} {catalogue : Catalogue} {before after : Planner}
    (done : request.IsDone catalogue before) (grows : before.Grows after) :
    request.IsDone catalogue after := by
  obtain ⟨step, stepped, reached, served⟩ := done.departed
  refine ⟨done.sound, step, ?_, reached, ?_⟩
  · rw [grows.settings]
    exact stepped
  · intro departure swept station member
    exact (served departure swept station member).grows grows

/-- What has been made stays made while there are egress stations. -/
theorem Task.IsDone.grows
    {task : Task} {catalogue : Catalogue} {before after : Planner}
    (done : task.IsDone catalogue before) (grows : before.Grows after)
    (egress : before.request.egress ≠ [] → after.request.egress ≠ []) :
    task.IsDone catalogue after := by
  cases task with
  | depart access departure admits =>
      obtain ⟨someAccess, someEgress, served⟩ := done
      exact ⟨someAccess, egress someEgress,
        fun station member => (served station member).grows grows⟩
  | sweep request => exact Request.IsDone.grows done grows
  | sweepEach request =>
      exact ⟨done.1, fun station member => (done.2 station member).grows grows⟩

namespace Search

variable
  {catalogue : Catalogue} {transfers : TransferTable} {timetable : Timetable}
  {planner : Planner} {request : Request}

/-- A departure that succeeds has stations and serves them. -/
theorem ensures_depart_served
    (access : List Station) (departure : Instant) (admits : Trip → Bool) :
    Ensures (depart catalogue transfers access departure admits) planner
      (fun _ after => access ≠ [] ∧ planner.request.egress ≠ [] ∧ ∀ station ∈ access,
        Outing.Served ⟨access, departure, admits, 0⟩ catalogue after station)
      (fun _ _ => True) := by
  by_cases none : access = [] ∨ planner.request.egress = []
  · apply (ensures_depart_of_nil none).mono
    · intro _ _ impossible
      exact impossible.elim
    · intro _ _ _
      exact trivial
  obtain ⟨someAccess, someEgress⟩ := not_or.mp none
  let outing : Outing := ⟨access, departure, admits, planner.rides.size⟩
  let serves (now : Planner) : Prop :=
    ∀ station ∈ access, outing.Served catalogue now station
  have lasts : ∀ before after, Planner.Grows before after → serves before → serves after :=
    fun before after grows served station member => (served station member).grows grows
  have follows :
      outing.Follows catalogue transfers
        (depart catalogue transfers outing.access outing.departure outing.admits) planner
        (fun _ => serves) := by
    apply Outing.follows_depart_of
    intro now handles reach _ served current
    apply Outing.follows_rounds (fun _ _ => serves)
    · intro _ _ before after holds heard _
      exact lasts before after heard.reach.grows holds
    · intro _ _ before middle after holds heard onward
      exact lasts before after (heard.reach.grows.trans onward.reach.grows) holds
    · exact current
    · exact Nat.le_refl _
    · exact reach.grows.size
    · exact served
  apply Ensures.mono follows
  · rintro _ after ⟨_, served⟩
    exact ⟨someAccess, someEgress, served⟩
  · intro _ _ _
    exact trivial

/-- A sweep that succeeds has made its departures. -/
theorem ensures_sweep_isDone :
    Ensures (sweep catalogue transfers request) planner
      (fun _ after => planner.Grows after ∧ request.IsDone catalogue after)
      (fun _ _ => True) := by
  let visited (departure : Instant) (after : Planner) : Prop :=
    ∀ station ∈ request.access,
      Outing.Served ⟨request.access, departure, request.admits, 0⟩ catalogue after station
  apply ((sweep_grows request planner).and
    (ensures_sweep (fun _ => True) (fun _ _ => True) visited (fun _ _ => trivial)
      (fun _ _ _ _ _ _ _ _ => trivial) (fun _ _ _ => trivial) (fun _ _ _ _ => trivial)
      ?_ ?_ trivial)).mono
  · rintro _ after ⟨grows, _, sound, step, stepped, reached, visits⟩
    refine ⟨grows, sound, step, ?_, reached, visits⟩
    rw [grows.settings]
    exact stepped
  · intro _ _ _
    exact trivial
  · intro departure before after grows served station member
    exact (served station member).grows grows
  · intro now window step departure _ _ _ _ _
    apply (ensures_depart_served request.access departure request.admits).imp
    rintro _ after ⟨_, _, served⟩
    exact ⟨trivial, served⟩

/-- The sweeps of one station after another have made their departures, if all succeed. -/
theorem ensures_sweepEach_isDone :
    Ensures (sweepEach catalogue transfers request) planner
      (fun _ after => request.fault? = none ∧
        ∀ station ∈ request.access, (request.fromStation station).IsDone catalogue after)
      (fun _ _ => True) := by
  have sweeps : ∀ (stations : List Station) (now : Planner),
      Ensures
        (stations.forM fun station => sweep catalogue transfers (request.fromStation station))
        now
        (fun _ after => now.Grows after ∧
          ∀ station ∈ stations, (request.fromStation station).IsDone catalogue after)
        (fun _ _ => True) := by
    intro stations
    induction stations with
    | nil => exact fun now => ⟨.refl now, by simp⟩
    | cons station rest hypothesis =>
        intro now
        change Ensures (sweep catalogue transfers (request.fromStation station) >>=
          fun _ => rest.forM fun station =>
            sweep catalogue transfers (request.fromStation station)) now _ _
        rw [ensures_bind]
        apply ensures_sweep_isDone.imp
        rintro _ middle ⟨grows, done⟩
        apply (hypothesis middle).imp
        rintro _ after ⟨further, others⟩
        refine ⟨grows.trans further, ?_⟩
        intro known member
        rcases List.mem_cons.mp member with rfl | member
        · exact done.grows further
        · exact others known member
  unfold sweepEach check
  cases sound : request.fault? with
  | some fault => exact trivial
  | none =>
      rw [ensures_bind, ensures_pure]
      apply (sweeps request.access planner).imp
      rintro _ after ⟨_, done⟩
      exact ⟨rfl, done⟩

/-- A task that succeeds has made its departures. -/
theorem ensures_task_isDone (task : Task) :
    Ensures (task.search catalogue transfers) planner
      (fun _ after => task.IsDone catalogue after) (fun _ _ => True) := by
  cases task with
  | depart access departure admits =>
      apply ((ensures_depart_served access departure admits).and
        (departing_keeps_request planner access departure admits)).mono
      · rintro _ after ⟨⟨someAccess, someEgress, served⟩, _, same⟩
        rw [← same] at someEgress
        exact ⟨someAccess, someEgress, served⟩
      · intro _ _ _
        exact trivial
  | sweep request =>
      apply ensures_sweep_isDone.imp
      rintro _ after ⟨_, done⟩
      exact done
  | sweepEach request => exact ensures_sweepEach_isDone

/-- A sweep that is refused changes nothing, and any other asks for egress stations. -/
theorem sweep_keeps_egress (some : planner.request.egress ≠ []) :
    Ensures (sweep catalogue transfers request) planner
      (fun _ after => after.request.egress ≠ []) (fun _ after => after.request.egress ≠ []) := by
  cases sound : request.fault? with
  | some fault =>
      unfold sweep check
      rw [sound, ensures_bind, ensures_throw]
      exact some
  | none =>
      obtain ⟨_, someEgress, _⟩ := (Request.fault?_eq_none_iff request).mp sound
      apply sweep_keeps (fun now => now.request.egress ≠ [])
      · exact fun _ _ _ => someEgress
      · exact fun _ _ kept _ => kept
      · intro now window step departure kept _ _ _
        apply (departing_keeps_request now _ _ _).weaken
        rintro after ⟨_, same⟩
        rw [same]
        exact kept
      · exact some

theorem task_keeps_egress (task : Task) (some : planner.request.egress ≠ []) :
    Ensures (task.search catalogue transfers) planner
      (fun _ after => after.request.egress ≠ []) (fun _ after => after.request.egress ≠ []) := by
  cases task with
  | depart access departure admits =>
      apply (departing_keeps_request planner access departure admits).weaken
      rintro after ⟨_, same⟩
      rw [same]
      exact some
  | sweep request => exact sweep_keeps_egress some
  | sweepEach request =>
      exact ensures_sweepEach (fun _ _ _ kept => sweep_keeps_egress kept) some

/-- A departure whose stations are served finds nothing. -/
theorem ensures_depart_of_served
    (built : timetable.IsBuilt) {access : List Station} {departure : Instant}
    {admits : Trip → Bool} (someAccess : access ≠ []) (someEgress : planner.request.egress ≠ [])
    (served : ∀ station ∈ access,
      Outing.Served ⟨access, departure, admits, 0⟩ timetable.catalogue planner station) :
    Ensures (depart timetable.catalogue transfers access departure admits) planner
      (fun _ => planner.FindsNothing) (fun _ _ => False) := by
  let outing : Outing := ⟨access, departure, admits, 0⟩
  have departed :
      depart timetable.catalogue transfers access departure admits planner =
        .ok () ((planner.enter (.departing departure access.length)).enter (.round 0 0)) :=
    depart_of_served built outing someAccess someEgress served
  unfold Ensures
  rw [departed]
  exact ((Planner.FindsNothing.refl planner).enter _).enter _

/-- A sweep whose departures have been made finds nothing. -/
theorem ensures_sweep_of_isDone
    (built : timetable.IsBuilt) (done : request.IsDone timetable.catalogue planner) :
    Ensures (sweep timetable.catalogue transfers request) planner
      (fun _ => planner.FindsNothing) (fun _ _ => False) := by
  obtain ⟨someAccess, someEgress, _⟩ := (Request.fault?_eq_none_iff request).mp done.sound
  obtain ⟨step, stepped, reached, served⟩ := done.departed
  apply (ensures_sweep planner.FindsNothing (fun _ _ => False) (fun _ _ => True)
    ?_ ?_ ?_ ?_ ?_ ?_ (.refl planner)).imp
  · rintro _ after ⟨found, _⟩
    exact found
  · rintro reason (faulty | failed)
    · rw [done.sound] at faulty
      cases faulty
    · rw [stepped] at failed
      cases failed
  · intro now other times _ _ same before unreached
    rw [stepped, Except.ok.injEq] at same
    rw [← same] at before unreached
    obtain ⟨departure, found⟩ := reached times before
    rw [unreached] at found
    cases found
  · exact fun _ _ found => found.ask _
  · exact fun _ event found _ => found.enter event
  · exact fun _ _ _ _ _ => trivial
  · intro now window other departure found _ current same swept
    rw [stepped, Except.ok.injEq] at same
    rw [← same] at swept
    have egress : now.request.egress ≠ [] := by
      rw [current]
      exact someEgress
    apply (ensures_depart_of_served built someAccess egress fun station member =>
      (served departure swept station member).of_bounds_eq found.bounds).imp
    intro _ after foundAfter
    exact ⟨found.trans foundAfter, trivial⟩

/-- A task whose departures have been made finds nothing. -/
theorem ensures_task_of_isDone
    (built : timetable.IsBuilt) {task : Task}
    (done : task.IsDone timetable.catalogue planner) :
    Ensures (task.search timetable.catalogue transfers) planner
      (fun _ => planner.FindsNothing) (fun _ _ => False) := by
  cases task with
  | depart access departure admits =>
      obtain ⟨someAccess, someEgress, served⟩ := done
      exact ensures_depart_of_served built someAccess someEgress served
  | sweep request => exact ensures_sweep_of_isDone built done
  | sweepEach request =>
      obtain ⟨sound, sweeps⟩ := done
      change Ensures (sweepEach timetable.catalogue transfers request) planner _ _
      unfold sweepEach check
      rw [sound, ensures_bind, ensures_pure]
      apply (ensures_forM (fun now => planner.Grows now ∧ planner.FindsNothing now) ?_
        ⟨.refl planner, .refl planner⟩).imp
      · rintro _ after ⟨_, found⟩
        exact found
      · rintro station member now ⟨grows, found⟩
        apply ((sweep_grows (request.fromStation station) now).and
          (ensures_sweep_of_isDone built ((sweeps station member).grows grows))).mono
        · rintro _ after ⟨further, foundAfter⟩
          exact ⟨grows.trans further, found.trans foundAfter⟩
        · rintro _ _ ⟨_, impossible⟩
          exact impossible

end Search

namespace Planner

theorem perform_keeps_egress
    {planner : Planner} (catalogue : Catalogue) (transfers : TransferTable) (task : Task)
    (some : planner.request.egress ≠ []) :
    (planner.perform catalogue transfers task).2.request.egress ≠ [] := by
  let kept (now : Planner) : Prop := now.request.egress ≠ []
  change kept _
  exact perform_of_ensures (Search.task_keeps_egress task some)

/-- What has been made stays made in every session. -/
theorem isDone_performAll
    {planner : Planner} {task : Task} {catalogue : Catalogue} (transfers : TransferTable)
    (tasks : List Task) (done : task.IsDone catalogue planner) :
    task.IsDone catalogue (planner.performAll catalogue transfers tasks) := by
  induction tasks generalizing planner with
  | nil => exact done
  | cons next rest hypothesis =>
      apply hypothesis
      exact done.grows (planner.grows_perform catalogue transfers next)
        (perform_keeps_egress catalogue transfers next)

/-- A task that succeeded once succeeds again whenever it is asked for, whatever was asked
for in between, and then finds nothing: the labels, the rides and the bounds stay as they
were. -/
theorem perform_again_finds_nothing
    {trips : List ScheduledTrip} {timetable : Timetable}
    (built : Timetable.build trips = .ok timetable) {transfers : TransferTable}
    {planner : Planner} {task : Task}
    (worked : (planner.perform timetable.catalogue transfers task).1 = .ok ())
    (between : List Task) :
    let later := (planner.perform timetable.catalogue transfers task).2.performAll
      timetable.catalogue transfers between
    let again := later.perform timetable.catalogue transfers task
    again.1 = .ok () ∧ again.2.frontier = later.frontier ∧
      again.2.rides = later.rides ∧ again.2.bounds = later.bounds := by
  intro later again
  have done : task.IsDone timetable.catalogue
      (planner.perform timetable.catalogue transfers task).2 :=
    of_perform_eq_ok (Search.ensures_task_isDone task) (Prod.ext worked rfl)
  have found : Search.Ensures (task.search timetable.catalogue transfers) later
      (fun _ => later.FindsNothing) (fun _ _ => False) :=
    Search.ensures_task_of_isDone (Timetable.isBuilt_of_build built)
      (isDone_performAll transfers between done)
  cases outcome : again.1 with
  | ok _ =>
      have nothing := of_perform_eq_ok found (Prod.ext outcome rfl)
      exact ⟨rfl, nothing.frontier, nothing.rides, nothing.bounds⟩
  | error fault => exact (of_perform_eq_error found (Prod.ext outcome rfl)).elim

/-- The departure at eight from the origin. -/
def eightTask : Task := .depart [Sample.origin] (Sample.instant 8 0) fun _ => true

/-- What a fresh planner makes of that departure on the express network. -/
def eightOnExpress : Except RoutingFault Unit × Planner :=
  (fresh Sample.express.timetable.catalogue (Sample.request 0) .standard).perform
    Sample.express.timetable.catalogue Sample.express.transfers eightTask

/-- That planner, after a window of five minutes was swept and a request was refused. -/
def sweptSinceEight : Planner :=
  eightOnExpress.2.performAll Sample.express.timetable.catalogue Sample.express.transfers
    [.sweep (Sample.request 5), .sweep endlessRequest]

theorem perform_again_finds_nothing_on_express :
    eightOnExpress.1 = .ok () ∧ sweptSinceEight.frontier.labels ≠ [] ∧
      let again := sweptSinceEight.perform Sample.express.timetable.catalogue
        Sample.express.transfers eightTask
      again.1 = .ok () ∧ again.2.frontier = sweptSinceEight.frontier ∧
        again.2.rides = sweptSinceEight.rides ∧ again.2.bounds = sweptSinceEight.bounds := by
  have built : Timetable.build Sample.expressPlan.trips = .ok Sample.express.timetable := by
    decide +kernel
  have worked : eightOnExpress.1 = .ok () := by decide +kernel
  have labelled : sweptSinceEight.frontier.labels ≠ [] := by decide +kernel
  refine ⟨worked, labelled, ?_⟩
  unfold eightOnExpress at worked
  unfold sweptSinceEight eightOnExpress
  exact perform_again_finds_nothing built worked _

end Planner

end Transit
