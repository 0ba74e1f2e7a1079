import Transit.Proofs.Search.Depart
import Mathlib.Tactic.Ring

/-!
# Sweeps and sessions

A sweep departs at the instants of its grid, `Request.Sweeps`, and between two of them
only its window is shortened.  A session is any sequence of tasks that one planner
performs, failed ones included.  What holds of a planner and is kept by every step of
every outing holds after every session.
-/

namespace Transit

/-- The instants at which a sweep departs: from the end of the window on back by steps,
and the start. -/
def Request.Sweeps (request : Request) (step : Span) (departure : Instant) : Prop :=
  departure = request.start ∨
    ∃ times < Search.departuresIn request.window step,
      request.start.add? ⟨request.window.milliseconds - times * step.milliseconds⟩ =
        some departure

/-- The planner after a session. -/
def Planner.performAll
    (planner : Planner) (catalogue : Catalogue) (transfers : TransferTable)
    (tasks : List Task) : Planner :=
  tasks.foldl (fun now task => (now.perform catalogue transfers task).2) planner

/-- The planner with another request. -/
@[simps]
def Planner.ask (planner : Planner) (request : Request) : Planner :=
  { planner with request }

theorem Planner.grows_ask (planner : Planner) (request : Request) :
    planner.Grows (planner.ask request) :=
  { Grows.refl planner with }

namespace Search

variable {catalogue : Catalogue} {transfers : TransferTable}

/-- A departure keeps what holds wherever its outing leads. -/
theorem ensures_depart
    {planner : Planner} {access : List Station} {departure : Instant} {admits : Trip → Bool}
    {kept : Planner → Prop}
    (lasts : ∀ after,
      Outing.Reach ⟨access, departure, admits, planner.rides.size⟩ catalogue transfers
        planner after → kept after) :
    Ensures (depart catalogue transfers access departure admits) planner
      (fun _ => kept) (fun _ => kept) := by
  have follows :=
    Outing.follows_depart ⟨access, departure, admits, planner.rides.size⟩ catalogue transfers
      (Eq.refl planner.rides.size)
  apply Ensures.mono follows
  · rintro _ after ⟨reach, _⟩
    exact lasts after reach
  · intro _ after reach
    exact lasts after reach

theorem departing_keeps_request
    (planner : Planner) (access : List Station) (departure : Instant)
    (admits : Trip → Bool) :
    Ensures (depart catalogue transfers access departure admits) planner
      (fun _ after => planner.Grows after ∧ after.request = planner.request)
      (fun _ after => planner.Grows after ∧ after.request = planner.request) := by
  apply ensures_depart
  intro after reach
  exact ⟨reach.grows, reach.request_eq⟩

section Sweep

variable
  {request : Request} {step : Span}
  (kept : Planner → Prop) (failed : RoutingFault → Planner → Prop)
  (visited : Instant → Planner → Prop)

/-- The shortened window of a sweep after some departures. -/
def windowAfter (request : Request) (step : Span) (times : Nat) : Request :=
  { request with window := ⟨request.window.milliseconds - times * step.milliseconds⟩ }

/-- Before the first departure the whole window is left. -/
theorem windowAfter_zero (request : Request) (step : Span) :
    windowAfter request step 0 = request := by
  simp [windowAfter]

theorem windowAfter_succ (request : Request) (step : Span) (times : Nat) :
    { windowAfter request step times with
        window := (windowAfter request step times).window - step } =
      windowAfter request step (times + 1) := by
  have shorter :
      request.window.milliseconds - times * step.milliseconds - step.milliseconds =
        request.window.milliseconds - ((times + 1 : Nat) : Int) * step.milliseconds := by
    push_cast
    ring
  change
    { request with
        window := ⟨request.window.milliseconds - times * step.milliseconds -
          step.milliseconds⟩ } = _
  rw [shorter]
  rfl

theorem ensures_sweepWindow
    (ends : ∀ planner times, kept planner → times < departuresIn request.window step →
      request.start.add? (windowAfter request step times).window = none →
      failed (.request .windowEnd) planner)
    (asked : ∀ planner window, kept planner → kept (planner.ask { request with window }))
    (lasting : ∀ departure before after, Planner.Grows before after →
      visited departure before → visited departure after)
    (departs : ∀ planner window departure, kept planner →
      planner.request = { request with window } → request.Sweeps step departure →
      Ensures (depart catalogue transfers request.access departure request.admits) planner
        (fun _ after => kept after ∧ visited departure after) failed)
    {times gone : Nat} {planner : Planner}
    (total : gone + times = departuresIn request.window step)
    (current : planner.request = windowAfter request step gone)
    (holds : kept planner) :
    Ensures (sweepWindow catalogue transfers step times) planner
      (fun _ after => planner.Grows after ∧ kept after ∧
        (∃ window, after.request = { request with window }) ∧
        ∀ later, gone ≤ later → later < departuresIn request.window step →
          ∃ departure,
            request.start.add? (windowAfter request step later).window = some departure ∧
              visited departure after)
      failed := by
  induction times generalizing planner gone with
  | zero =>
      refine ⟨.refl planner, holds, ⟨_, current⟩, ?_⟩
      intro later reached before
      omega
  | succ times hypothesis =>
      unfold sweepWindow
      simp only [ensures_bind, ensures_get]
      have start_eq : planner.request.start = request.start := by rw [current]; rfl
      have window_eq : planner.request.window = (windowAfter request step gone).window := by
        rw [current]
      have access_eq : planner.request.access = request.access := by rw [current]; rfl
      have admits_eq : planner.request.admits = request.admits := by rw [current]; rfl
      rw [start_eq, window_eq, access_eq, admits_eq]
      cases added : request.start.add? (windowAfter request step gone).window with
      | none => exact ends planner gone holds (by omega) added
      | some departure =>
          simp only [ensures_bind, ensures_modify]
          have swept : request.Sweeps step departure := .inr ⟨gone, by omega, added⟩
          have departed := departs planner _ departure holds current swept
          apply (departed.and (departing_keeps_request planner _ _ _)).mono
          · rintro _ middle ⟨⟨keptMiddle, visitedMiddle⟩, grows, same⟩
            have shortened :
                { middle with
                    request := { middle.request with window := middle.request.window - step } } =
                  middle.ask (windowAfter request step (gone + 1)) := by
              rw [Planner.ask, same, current, windowAfter_succ]
            rw [shortened]
            have longer : gone + 1 + times = departuresIn request.window step := by omega
            apply (hypothesis longer rfl (asked middle _ keptMiddle)).imp
            rintro _ after ⟨further, keptAfter, shorter, others⟩
            have onward := (middle.grows_ask _).trans further
            refine ⟨grows.trans onward, keptAfter, shorter, ?_⟩
            intro later reached before
            rcases Nat.lt_or_eq_of_le reached with after' | rfl
            · exact others later after' before
            · exact ⟨departure, added,
                lasting departure middle after onward visitedMiddle⟩
          · rintro _ after ⟨failedAfter, _⟩
            exact failedAfter

/-- A sweep keeps what every departure of its grid keeps.  If it succeeds, nothing keeps
the request from being answered, all departures of the grid exist, and all are visited.
If it fails, the request is at fault, or a departure of the grid is out of range or
fails. -/
theorem ensures_sweep
    {planner : Planner}
    (refuses : ∀ reason,
      request.fault? = some reason ∨ planner.settings.step = .error reason →
        failed (.request reason) planner)
    (ends : ∀ now step times, kept now → request.fault? = none →
      planner.settings.step = .ok step → times < departuresIn request.window step →
      request.start.add? (windowAfter request step times).window = none →
      failed (.request .windowEnd) now)
    (asked : ∀ planner window, kept planner → kept (planner.ask { request with window }))
    (entered : ∀ planner event, kept planner → event.IsQuiet → kept (planner.enter event))
    (lasting : ∀ departure before after, Planner.Grows before after →
      visited departure before → visited departure after)
    (departs : ∀ now window step departure, kept now → request.fault? = none →
      now.request = { request with window } → planner.settings.step = .ok step →
      request.Sweeps step departure →
      Ensures (depart catalogue transfers request.access departure request.admits) now
        (fun _ after => kept after ∧ visited departure after) failed)
    (holds : kept planner) :
    Ensures (sweep catalogue transfers request) planner
      (fun _ after => kept after ∧ request.fault? = none ∧
        ∃ step, planner.settings.step = .ok step ∧
          (∀ times < departuresIn request.window step, ∃ departure,
            request.start.add? (windowAfter request step times).window = some departure) ∧
          ∀ departure, request.Sweeps step departure → visited departure after)
      failed := by
  unfold sweep check
  simp only [ensures_bind, ensures_get, ensures_ofExcept, ensures_modify]
  cases faulty : request.fault? with
  | some reason => exact refuses reason (.inl faulty)
  | none =>
      rw [ensures_pure]
      cases stepFound : planner.settings.step with
      | error fault =>
          refine ⟨fun _ impossible => ?_, fun _ same => ?_⟩
          · cases impossible
          · cases same
            exact refuses fault (.inr stepFound)
      | ok step =>
          refine ⟨fun value same => ?_, fun _ impossible => ?_⟩
          case refine_2 => cases impossible
          cases same
          have firstKept : kept (planner.ask request) := asked planner request.window holds
          have start : (planner.ask request).request = windowAfter request step 0 :=
            (windowAfter_zero request step).symm
          have departs' : ∀ now window departure, kept now →
              now.request = { request with window } → request.Sweeps step departure →
              Ensures (depart catalogue transfers request.access departure request.admits)
                now (fun _ after => kept after ∧ visited departure after) failed :=
            fun now window departure keptNow same swept =>
              departs now window step departure keptNow faulty same stepFound swept
          apply (ensures_sweepWindow kept failed visited
            (fun now times keptNow => ends now step times keptNow faulty stepFound) asked
            lasting departs' (Nat.zero_add _) start firstKept).imp
          rintro _ middle ⟨_, keptMiddle, ⟨window, shorter⟩, others⟩
          have departed := departs' middle window request.start keptMiddle shorter (.inl rfl)
          apply (departed.and (departing_keeps_request middle _ _ _)).mono
          · rintro _ after ⟨⟨keptAfter, visitedAfter⟩, grows, _⟩
            have quiet : Event.IsQuiet (.swept (departuresIn request.window step + 1)
              after.frontier.size after.rides.size) := trivial
            refine ⟨entered after _ keptAfter quiet, rfl, step, rfl, ?_, ?_⟩
            · intro times before
              obtain ⟨departure, added, _⟩ := others times (Nat.zero_le times) before
              exact ⟨departure, added⟩
            · intro departure swept
              have onward := after.grows_enter
                (.swept (departuresIn request.window step + 1)
                  after.frontier.size after.rides.size)
              rcases swept with rfl | ⟨times, before, found⟩
              · exact lasting _ after _ onward visitedAfter
              · obtain ⟨same, added, visitedMiddle⟩ := others times (Nat.zero_le times) before
                have found' : request.start.add? (windowAfter request step times).window =
                    some departure := found
                rw [added, Option.some.injEq] at found'
                rw [← found']
                exact lasting same middle _ (grows.trans onward) visitedMiddle
          · rintro _ after ⟨failedAfter, _⟩
            exact failedAfter

/-- A sweep keeps what every departure of its grid keeps, whether it fails or not. -/
theorem sweep_keeps
    {planner : Planner}
    (asked : ∀ planner window, kept planner → kept (planner.ask { request with window }))
    (entered : ∀ planner event, kept planner → event.IsQuiet → kept (planner.enter event))
    (departs : ∀ now window step departure, kept now →
      now.request = { request with window } → planner.settings.step = .ok step →
      request.Sweeps step departure →
      Ensures (depart catalogue transfers request.access departure request.admits) now
        (fun _ => kept) (fun _ => kept))
    (holds : kept planner) :
    Ensures (sweep catalogue transfers request) planner
      (fun _ => kept) (fun _ => kept) := by
  apply (ensures_sweep kept (fun _ => kept) (fun _ _ => True) (fun _ _ => holds)
    (fun _ _ _ keptNow _ _ _ _ => keptNow) asked entered (fun _ _ _ _ _ => trivial) ?_
    holds).imp
  · rintro _ after ⟨keptAfter, _⟩
    exact keptAfter
  · intro now window step departure keptNow _ current stepped swept
    apply (departs now window step departure keptNow current stepped swept).imp
    intro _ after keptAfter
    exact ⟨keptAfter, trivial⟩

end Sweep

section Success

variable {request : Request} {planner : Planner}

theorem check_eq_ok {after : Planner} :
    check request planner = .ok () after ↔ request.fault? = none ∧ planner = after := by
  unfold check
  cases request.fault? with
  | none =>
      constructor
      · rintro ⟨⟩
        exact ⟨rfl, rfl⟩
      · rintro ⟨_, rfl⟩
        rfl
  | some reason => exact ⟨nofun, nofun⟩

/-- A sweep that succeeds is of a sound request and has a step. -/
theorem sound_of_sweep
    {after : Planner} (swept : sweep catalogue transfers request planner = .ok () after) :
    request.fault? = none ∧ ∃ step, planner.settings.step = .ok step := by
  unfold sweep at swept
  obtain ⟨_, _, checked, rest⟩ := bind_eq_ok.mp swept
  obtain ⟨sound, rfl⟩ := check_eq_ok.mp checked
  refine ⟨sound, ?_⟩
  change (ofExcept (planner.settings.step.mapError .request) >>= _) planner = _ at rest
  cases stepped : planner.settings.step with
  | ok step => exact ⟨step, rfl⟩
  | error reason =>
      rw [stepped] at rest
      cases rest

theorem sweep_eq
    {step : Span} (sound : request.fault? = none)
    (stepped : planner.settings.step = .ok step) :
    sweep catalogue transfers request planner =
      (do
        sweepWindow catalogue transfers step (departuresIn request.window step)
        depart catalogue transfers request.access request.start request.admits
        let now ← get
        record (.swept (departuresIn request.window step + 1) now.frontier.size
          now.rides.size) : Search Unit) (planner.ask request) := by
  unfold sweep check
  rw [sound]
  change (ofExcept (planner.settings.step.mapError .request) >>= _) planner = _
  rw [stepped]
  rfl

/-- What a planner was asked before makes no difference to a sweep that succeeds. -/
theorem sweep_ask
    {after : Planner} (other : Request)
    (swept : sweep catalogue transfers request planner = .ok () after) :
    sweep catalogue transfers request (planner.ask other) = .ok () after := by
  obtain ⟨sound, step, stepped⟩ := sound_of_sweep swept
  have steppedOther : (planner.ask other).settings.step = .ok step := stepped
  rw [sweep_eq sound stepped] at swept
  rw [sweep_eq sound steppedOther]
  exact swept

end Success

/-- Sweeping one station after another keeps what each of the sweeps keeps. -/
theorem ensures_sweepEach
    {request : Request} {planner : Planner} {kept : Planner → Prop}
    (sweeps : ∀ station ∈ request.access, ∀ now, kept now →
      Ensures (sweep catalogue transfers (request.fromStation station)) now
        (fun _ => kept) (fun _ => kept))
    (holds : kept planner) :
    Ensures (sweepEach catalogue transfers request) planner
      (fun _ => kept) (fun _ => kept) := by
  unfold sweepEach check
  cases request.fault? with
  | some fault => exact holds
  | none =>
      rw [ensures_bind, ensures_pure]
      apply ensures_forM
      · intro station member now keptNow
        exact sweeps station member now keptNow
      · exact holds

section Steps

variable {kept : Planner → Prop}

theorem depart_keeps
    (steps : ∀ outing before after, Outing.Step outing catalogue transfers before after →
      kept before → kept after)
    (access : List Station) (departure : Instant) (admits : Trip → Bool)
    {planner : Planner} (holds : kept planner) :
    Ensures (depart catalogue transfers access departure admits) planner
      (fun _ => kept) (fun _ => kept) := by
  apply ensures_depart
  intro after reach
  induction reach with
  | refl => exact holds
  | tail _ step hypothesis => exact steps _ _ _ step hypothesis

theorem task_keeps
    (steps : ∀ outing before after, Outing.Step outing catalogue transfers before after →
      kept before → kept after)
    (asked : ∀ planner request, kept planner → kept (Planner.ask planner request))
    (task : Task) {planner : Planner} (holds : kept planner) :
    Ensures (task.search catalogue transfers) planner (fun _ => kept) (fun _ => kept) := by
  have sweeps : ∀ request now, kept now →
      Ensures (sweep catalogue transfers request) now (fun _ => kept) (fun _ => kept) := by
    intro request now keptNow
    apply sweep_keeps kept (fun _ _ holds => asked _ _ holds) ?_ ?_ keptNow
    · intro later event keptLater quiet
      exact steps ⟨[], request.start, request.admits, 0⟩ _ _
        (.enter later event quiet) keptLater
    · intro later window step departure keptLater _ _ _
      exact depart_keeps steps request.access departure request.admits keptLater
  cases task with
  | depart access departure admits => exact depart_keeps steps access departure admits holds
  | sweep request => exact sweeps request planner holds
  | sweepEach request =>
      exact ensures_sweepEach (fun station _ now keptNow => sweeps _ now keptNow) holds

end Steps

/-- A planner grows by every task. -/
theorem task_grows (task : Task) (planner : Planner) :
    Ensures (task.search catalogue transfers) planner
      (fun _ => planner.Grows) (fun _ => planner.Grows) := by
  apply task_keeps
  · intro outing before after step grows
    exact grows.trans step.grows
  · intro now asked grows
    exact grows.trans (now.grows_ask asked)
  · exact .refl planner

theorem sweep_grows (request : Request) (planner : Planner) :
    Ensures (sweep catalogue transfers request) planner
      (fun _ => planner.Grows) (fun _ => planner.Grows) :=
  task_grows (.sweep request) planner

end Search

namespace Planner

variable {catalogue : Catalogue} {transfers : TransferTable} {planner : Planner}

/-- What a task ensures on both sides holds of the planner afterwards. -/
theorem perform_of_ensures
    {kept : Planner → Prop} {task : Task}
    (ensured : Search.Ensures (task.search catalogue transfers) planner
      (fun _ => kept) (fun _ => kept)) :
    kept (planner.perform catalogue transfers task).2 := by
  unfold Search.Ensures at ensured
  unfold perform EStateM.run
  cases outcome : task.search catalogue transfers planner with
  | ok value after =>
      rw [outcome] at ensured
      exact ensured
  | error fault after =>
      rw [outcome] at ensured
      exact ensured

/-- A departure leaves the request as it is. -/
theorem request_perform_depart
    (planner : Planner) (catalogue : Catalogue) (transfers : TransferTable)
    (access : List Station) (departure : Instant) (admits : Trip → Bool) :
    (planner.perform catalogue transfers (.depart access departure admits)).2.request =
      planner.request := by
  have ensured : Search.Ensures
      ((Task.depart access departure admits).search catalogue transfers) planner
      (fun _ after => after.request = planner.request)
      (fun _ after => after.request = planner.request) :=
    (Search.departing_keeps_request planner access departure admits).weaken
      fun _ kept => kept.2
  exact perform_of_ensures ensured

theorem perform_eq_ok {after : Planner} {task : Task} :
    planner.perform catalogue transfers task = (.ok (), after) ↔
      task.search catalogue transfers planner = .ok () after := by
  unfold perform EStateM.run
  cases task.search catalogue transfers planner with
  | ok value now => simp
  | error fault now => simp

theorem perform_eq_error {after : Planner} {task : Task} {fault : RoutingFault} :
    planner.perform catalogue transfers task = (.error fault, after) ↔
      task.search catalogue transfers planner = .error fault after := by
  unfold perform EStateM.run
  cases task.search catalogue transfers planner with
  | ok value now => simp
  | error known now => simp

/-- What a task that succeeds ensures holds of the planner afterwards. -/
theorem of_perform_eq_ok
    {done : Planner → Prop} {failed : RoutingFault → Planner → Prop} {task : Task}
    {after : Planner}
    (ensured : Search.Ensures (task.search catalogue transfers) planner
      (fun _ => done) failed)
    (performed : planner.perform catalogue transfers task = (.ok (), after)) :
    done after :=
  ensured.of_ok (perform_eq_ok.mp performed)

/-- What a task that fails ensures holds of its fault and the planner afterwards. -/
theorem of_perform_eq_error
    {done : Unit → Planner → Prop} {failed : RoutingFault → Planner → Prop} {task : Task}
    {fault : RoutingFault} {after : Planner}
    (ensured : Search.Ensures (task.search catalogue transfers) planner done failed)
    (performed : planner.perform catalogue transfers task = (.error fault, after)) :
    failed fault after :=
  ensured.of_error (perform_eq_error.mp performed)

/-- A departure that succeeds leads along the steps of its outing, and gives what it
should. -/
theorem of_perform_depart
    {outing : Outing} {gives : Planner → Prop} {after : Planner}
    (follows : outing.Follows catalogue transfers
      (Search.depart catalogue transfers outing.access outing.departure outing.admits) planner
      (fun _ => gives))
    (performed : planner.perform catalogue transfers
      (.depart outing.access outing.departure outing.admits) = (.ok (), after)) :
    outing.Reach catalogue transfers planner after ∧ gives after := by
  have ensured : Search.Ensures
      ((Task.depart outing.access outing.departure outing.admits).search catalogue transfers)
      planner (fun _ after => outing.Reach catalogue transfers planner after ∧ gives after)
      (fun _ after => outing.Reach catalogue transfers planner after) :=
    follows
  exact of_perform_eq_ok ensured performed

/-- What is kept by every step and by every change of the request holds after a
session, whether its tasks succeed or fail. -/
theorem performAll_keeps
    {kept : Planner → Prop}
    (steps : ∀ outing before after, Outing.Step outing catalogue transfers before after →
      kept before → kept after)
    (asked : ∀ planner request, kept planner → kept (Planner.ask planner request))
    (tasks : List Task) (holds : kept planner) :
    kept (planner.performAll catalogue transfers tasks) := by
  induction tasks generalizing planner with
  | nil => exact holds
  | cons task rest hypothesis =>
      exact hypothesis (perform_of_ensures (Search.task_keeps steps asked task holds))

theorem grows_perform
    (planner : Planner) (catalogue : Catalogue) (transfers : TransferTable) (task : Task) :
    planner.Grows (planner.perform catalogue transfers task).2 :=
  perform_of_ensures (Search.task_grows task planner)

theorem grows_performAll (tasks : List Task) :
    planner.Grows (planner.performAll catalogue transfers tasks) := by
  induction tasks generalizing planner with
  | nil => exact .refl planner
  | cons task rest hypothesis =>
      exact (planner.grows_perform catalogue transfers task).trans hypothesis

theorem performAll_append (first second : List Task) :
    planner.performAll catalogue transfers (first ++ second) =
      (planner.performAll catalogue transfers first).performAll catalogue transfers
        second := by
  rw [performAll, List.foldl_append]
  rfl

end Planner

end Transit
