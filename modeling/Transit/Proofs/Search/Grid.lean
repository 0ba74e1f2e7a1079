import Transit.Proofs.Search.Journal
import Transit.Proofs.Search.Refusal

/-!
# A sweep departs along its grid

A sweep keeps its place in the request of the planner: it departs at the end of the window,
and shortens the window by a step, for as long as there is a window.  A departure does not
look at the window.  So a sweep does what single departures do that are asked for one after
the other, with the whole window in the request: at the end of the window, by steps back
from there to the last that is no earlier than the start, and at the start.
-/

namespace Transit

/-- The instants at which a sweep departs, in order. -/
def Request.grid (request : Request) (step : Span) : List Instant :=
  (List.range (Search.departuresIn request.window step)).map
      (fun times => request.start.move (Search.windowAfter request step times).window) ++
    [request.start]

/-- The tasks to depart at one instant after the other, as a request says. -/
def Request.departs (request : Request) (instants : List Instant) : List Task :=
  instants.map fun departure => .depart request.access departure request.admits

namespace Request

variable {request : Request} {settings : Settings}

theorem length_grid (request : Request) (step : Span) :
    (request.grid step).length =
      (request.window.milliseconds / step.milliseconds).toNat + 2 := by
  simp [grid, Search.departuresIn]

theorem getLast?_grid (request : Request) (step : Span) :
    (request.grid step).getLast? = some request.start :=
  List.getLast?_concat

/-- Every departure of the grid is one by a part of the window. -/
theorem exists_of_mem_grid
    (shown : request.start.OnClock) (has : settings.HasStep)
    (forward : 0 ≤ request.window.milliseconds) {departure : Instant}
    (member : departure ∈ request.grid settings.stepSpan) :
    ∃ span : Span, 0 ≤ span.milliseconds ∧
      span.milliseconds ≤ request.window.milliseconds ∧ request.start.move span = departure := by
  rcases List.mem_append.mp member with inWindow | last
  · obtain ⟨times, before, rfl⟩ := List.mem_map.mp inWindow
    obtain ⟨nonnegative, shorter⟩ := window_windowAfter has forward (List.mem_range.mp before)
    exact ⟨_, nonnegative, shorter, rfl⟩
  · rw [List.mem_singleton.mp last]
    exact ⟨.zero, Int.le_refl 0, forward, Instant.move_zero shown⟩

/-- The departures of a sweep whose grid is in range are the instants of the grid. -/
theorem sweeps_iff_mem_grid
    {step : Span} {departure : Instant}
    (inRange : ∀ times < Search.departuresIn request.window step,
      (request.start.move (Search.windowAfter request step times).window).InRange) :
    request.Sweeps step departure ↔ departure ∈ request.grid step := by
  rw [Sweeps, grid, List.mem_append, List.mem_singleton, List.mem_map, or_comm]
  simp only [Instant.add?_eq_some_iff, List.mem_range]
  apply or_congr_left
  constructor
  · rintro ⟨times, before, _, same⟩
    exact ⟨times, before, same⟩
  · rintro ⟨times, before, same⟩
    exact ⟨times, before, inRange times before, same⟩

/-- No departure of the grid is earlier than the start or later than the end of the
window. -/
theorem le_of_mem_grid
    (shown : request.start.OnClock) (has : settings.HasStep)
    (forward : 0 ≤ request.window.milliseconds) {departure : Instant}
    (member : departure ∈ request.grid settings.stepSpan) :
    request.start ≤ departure ∧ departure ≤ request.start.move request.window := by
  obtain ⟨span, nonnegative, shorter, rfl⟩ := exists_of_mem_grid shown has forward member
  exact ⟨Instant.le_move shown nonnegative, Instant.move_le_move nonnegative shorter⟩

/-- The grid leads back in time. -/
theorem pairwise_grid
    (shown : request.start.OnClock) (has : settings.HasStep)
    (forward : 0 ≤ request.window.milliseconds) :
    (request.grid settings.stepSpan).Pairwise fun earlier later => later ≤ earlier := by
  have positive := has.positive
  rw [grid, List.pairwise_append]
  refine ⟨?_, List.pairwise_singleton _ _, ?_⟩
  · rw [List.pairwise_map]
    apply List.pairwise_lt_range.imp_of_mem
    intro first second _ secondIn before
    obtain ⟨nonnegative, _⟩ :=
      window_windowAfter has forward (List.mem_range.mp secondIn)
    apply Instant.move_le_move nonnegative
    have less : (first : Int) * settings.stepSpan.milliseconds ≤
        second * settings.stepSpan.milliseconds :=
      Int.mul_le_mul_of_nonneg_right (by omega) (Int.le_of_lt positive)
    unfold Search.windowAfter
    dsimp only
    omega
  · intro departure inWindow start last
    rw [List.mem_singleton.mp last]
    exact (le_of_mem_grid shown has forward (List.mem_append_left _ inWindow)).1

/-- When the grid is used up there is no window left, and what is missing is a step at most. -/
theorem window_after_grid (has : settings.HasStep) (forward : 0 ≤ request.window.milliseconds) :
    let left := Search.windowAfter request settings.stepSpan
      (Search.departuresIn request.window settings.stepSpan)
    left.window.milliseconds < 0 ∧ -settings.stepSpan.milliseconds ≤ left.window.milliseconds := by
  have positive := has.positive
  have whole : 0 ≤ request.window.milliseconds / settings.stepSpan.milliseconds :=
    Int.ediv_nonneg forward (Int.le_of_lt positive)
  have count :
      (Search.departuresIn request.window settings.stepSpan : Int) =
        request.window.milliseconds / settings.stepSpan.milliseconds + 1 := by
    unfold Search.departuresIn
    omega
  have parts := Int.mul_ediv_add_emod request.window.milliseconds settings.stepSpan.milliseconds
  have rest := Int.emod_lt_of_pos request.window.milliseconds positive
  have above := Int.emod_nonneg request.window.milliseconds (Int.ne_of_gt positive)
  unfold Search.windowAfter
  dsimp only
  rw [count, Int.add_mul, Int.one_mul, Int.mul_comm]
  omega

end Request

namespace Likeness

/-- The likeness of planners of which the second has another window. -/
def withWindow (window : Span) : Likeness (fun _ => True) where
  alike one other := other = one.ask { one.request with window }
  eq_with := by
    rintro one _ rfl
    rfl
  change := by
    rintro one _ rfl _ _ _
    rfl
  enter := by
    rintro one _ rfl _ _
    rfl

end Likeness

namespace Search

open Likeness

variable
  {catalogue : Catalogue} {transfers : TransferTable} {request : Request} {step : Span}
  {planner after : Planner}

theorem withWindow_respects_depart
    (window : Span) (access : List Station) (departure : Instant) (admits : Trip → Bool) :
    (withWindow window).Respects (depart catalogue transfers access departure admits) := by
  rw [depart_eq_embark]
  apply (respects_embark (fun _ _ => trivial) access departure admits).bind
  intro handles
  apply respects_get_bind
  · rintro one _ rfl
    rfl
  · intro now
    exact respects_rounds (fun _ => trivial) now.settings.rounds 0 handles

/-- A departure that succeeds does the same with another window in the request. -/
theorem depart_ask_window
    {access : List Station} {departure : Instant} {admits : Trip → Bool}
    (departed : depart catalogue transfers access departure admits planner = .ok () after)
    (window : Span) :
    depart catalogue transfers access departure admits
        (planner.ask { planner.request with window }) =
      .ok () (after.ask { planner.request with window }) := by
  have related : (withWindow window).Relates
      (depart catalogue transfers access departure admits planner)
      (depart catalogue transfers access departure admits
        (planner.ask { planner.request with window })) :=
    withWindow_respects_depart window access departure admits planner _ rfl
  obtain ⟨_, same⟩ :=
    (departing_keeps_request planner access departure admits).of_ok departed
  rw [departed] at related
  revert related
  generalize depart catalogue transfers access departure admits
    (planner.ask { planner.request with window }) = outcome
  rintro ⟨alike⟩
  rw [alike, same]

/-- Depart at one instant after the other, as a request says. -/
def departAll (catalogue : Catalogue) (transfers : TransferTable) (request : Request)
    (instants : List Instant) : Search Unit :=
  instants.forM fun departure =>
    depart catalogue transfers request.access departure request.admits

theorem departAll_cons (departure : Instant) (rest : List Instant) :
    departAll catalogue transfers request (departure :: rest) =
      depart catalogue transfers request.access departure request.admits >>= fun _ =>
        departAll catalogue transfers request rest :=
  rfl

theorem departAll_append (front back : List Instant) :
    departAll catalogue transfers request (front ++ back) =
      departAll catalogue transfers request front >>= fun _ =>
        departAll catalogue transfers request back :=
  List.forM_append

/-- Departures that succeed are tasks that succeed. -/
theorem performAll_of_departAll
    {instants : List Instant}
    (departed : departAll catalogue transfers request instants planner = .ok () after) :
    planner.performAll catalogue transfers (request.departs instants) = after ∧
      ∀ answer ∈ planner.answers catalogue transfers (request.departs instants),
        answer.outcome = .ok () := by
  induction instants generalizing planner with
  | nil =>
      cases departed
      exact ⟨rfl, by simp [Request.departs, Planner.answers]⟩
  | cons departure rest hypothesis =>
      rw [departAll_cons, bind_eq_ok] at departed
      obtain ⟨_, middle, first, others⟩ := departed
      have performed : planner.perform catalogue transfers
          (.depart request.access departure request.admits) = (.ok (), middle) :=
        Planner.perform_eq_ok.mpr first
      obtain ⟨onward, answered⟩ := hypothesis others
      constructor
      · rw [Request.departs, List.map_cons, Planner.performAll, List.foldl_cons, performed]
        exact onward
      · rw [Request.departs, List.map_cons, Planner.answers, performed, List.forall_mem_cons]
        refine ⟨?_, answered⟩
        rw [Planner.answer, performed]

/-- Depart at the end of the window and shorten the window by a step. -/
def sweepTurn (catalogue : Catalogue) (transfers : TransferTable) (step : Span) :
    Search Unit := do
  let request := (← get).request
  match request.start.add? request.window with
  | none => throw (.request .windowEnd)
  | some departure => do
      depart catalogue transfers request.access departure request.admits
      modify fun planner =>
        { planner with
          request := { planner.request with window := planner.request.window - step } }

theorem sweepWindow_succ (times : Nat) :
    sweepWindow catalogue transfers step (times + 1) =
      sweepTurn catalogue transfers step >>= fun _ =>
        sweepWindow catalogue transfers step times := by
  rw [sweepWindow, sweepTurn, bind_assoc]
  refine bind_congr fun now => ?_
  dsimp only
  cases now.request.start.add? now.request.window with
  | none => rfl
  | some departure => simp only [bind_assoc]

/-- A turn that succeeds departs at the end of the window, and leaves a window that is shorter
by a step. -/
theorem exists_of_sweepTurn
    (turned : sweepTurn catalogue transfers step planner = .ok () after) :
    ∃ departure middle,
      planner.request.start.add? planner.request.window = some departure ∧
        depart catalogue transfers planner.request.access departure planner.request.admits
            planner = .ok () middle ∧
          after =
            middle.ask { planner.request with window := planner.request.window - step } := by
  rw [sweepTurn, bind_eq_ok] at turned
  obtain ⟨_, _, ⟨⟩, turned⟩ := turned
  dsimp only at turned
  cases added : planner.request.start.add? planner.request.window with
  | none =>
      rw [added] at turned
      cases turned
  | some departure =>
      rw [added] at turned
      obtain ⟨_, middle, departed, shortened⟩ := bind_eq_ok.mp turned
      obtain ⟨_, same⟩ := (departing_keeps_request planner _ departure _).of_ok departed
      refine ⟨departure, middle, rfl, departed, ?_⟩
      cases shortened
      rw [← same]
      rfl

/-- Departing while the window is shortened is departing at the instants of the grid with the
whole window in the request. -/
theorem departAll_of_sweepWindow
    {times gone : Nat} (current : planner.request = windowAfter request step gone)
    (swept : sweepWindow catalogue transfers step times planner = .ok () after) :
    after.request = windowAfter request step (gone + times) ∧
      (∀ later, gone ≤ later → later < gone + times →
        (request.start.move (windowAfter request step later).window).InRange) ∧
      departAll catalogue transfers request
          ((List.range' gone times).map fun later =>
            request.start.move (windowAfter request step later).window) (planner.ask request) =
        .ok () (after.ask request) := by
  induction times generalizing planner gone with
  | zero =>
      cases swept
      refine ⟨current, ?_, rfl⟩
      intro later reached before
      omega
  | succ times hypothesis =>
      rw [sweepWindow_succ] at swept
      obtain ⟨_, _, turned, swept⟩ := bind_eq_ok.mp swept
      obtain ⟨departure, middle, added, departed, rfl⟩ := exists_of_sweepTurn turned
      rw [current] at added departed swept
      obtain ⟨inRange, rfl⟩ := Instant.add?_eq_some_iff.mp added
      rw [windowAfter_succ] at swept
      obtain ⟨left, others, onward⟩ := hypothesis rfl swept
      refine ⟨?_, ?_, ?_⟩
      · rw [left, Nat.add_assoc, Nat.add_comm 1]
      · intro later reached before
        rcases Nat.lt_or_eq_of_le reached with after' | rfl
        · exact others later after' (by omega)
        · exact inRange
      · have asked : planner.ask { planner.request with window := request.window } =
            planner.ask request := by
          rw [current]
          rfl
        have first := depart_ask_window departed request.window
        rw [asked, current] at first
        rw [List.range'_succ, List.map_cons, departAll_cons, bind_eq_ok]
        exact ⟨(), _, first, onward⟩

/-- A sweep that succeeds ends as the departures of its grid do, with the whole window in the
request, and then notes its end. -/
theorem exists_of_sweep
    (sound : request.fault? = none) (stepped : planner.settings.step = .ok step)
    (swept : sweep catalogue transfers request planner = .ok () after) :
    ∃ last : Planner,
      (∀ times < departuresIn request.window step,
        (request.start.move (windowAfter request step times).window).InRange) ∧
      last.request = windowAfter request step (departuresIn request.window step) ∧
      departAll catalogue transfers request (request.grid step) (planner.ask request) =
        .ok () (last.ask request) ∧
      after = last.enter
        (.swept (request.grid step).length last.frontier.size last.rides.size) := by
  rw [sweep_eq sound stepped] at swept
  obtain ⟨_, middle, inWindow, swept⟩ := bind_eq_ok.mp swept
  obtain ⟨_, last, departed, swept⟩ := bind_eq_ok.mp swept
  obtain ⟨left, inRange, others⟩ :=
    departAll_of_sweepWindow (windowAfter_zero request step).symm inWindow
  rw [Nat.zero_add] at left inRange
  obtain ⟨_, same⟩ := (departing_keeps_request middle _ _ _).of_ok departed
  refine ⟨last, fun times before => inRange times (Nat.zero_le times) before,
    same.trans left, ?_, ?_⟩
  · have asked : middle.ask { middle.request with window := request.window } =
        middle.ask request := by
      rw [left]
      rfl
    have final := depart_ask_window departed request.window
    rw [asked, left] at final
    rw [Request.grid, List.range_eq_range', departAll_append, bind_eq_ok]
    refine ⟨(), _, others, ?_⟩
    rw [departAll_cons, bind_eq_ok]
    exact ⟨(), _, final, rfl⟩
  · cases swept
    rw [Request.length_grid]
    rfl

/-- Sweep on as long as there is a window, for at most so many turns. -/
def sweepWhile (catalogue : Catalogue) (transfers : TransferTable) (step : Span) :
    (turns : Nat) → Search Unit
  | 0 => return ()
  | turns + 1 => do
      if (← get).request.window.milliseconds < 0 then return ()
      else do
        sweepTurn catalogue transfers step
        sweepWhile catalogue transfers step turns

/-- The departures of a sweep, which are counted beforehand, are those that are made as long as
there is a window. -/
theorem sweepWhile_eq_sweepWindow
    {settings : Settings} {times gone turns : Nat} (has : settings.HasStep)
    (forward : 0 ≤ request.window.milliseconds)
    (current : planner.request = windowAfter request settings.stepSpan gone)
    (total : gone + times = departuresIn request.window settings.stepSpan)
    (enough : times ≤ turns) :
    sweepWhile catalogue transfers settings.stepSpan turns planner =
      sweepWindow catalogue transfers settings.stepSpan times planner := by
  induction times generalizing planner gone turns with
  | zero =>
      cases turns with
      | zero => rfl
      | succ turns =>
          have used : planner.request.window.milliseconds < 0 := by
            rw [current, ← Nat.add_zero gone, total]
            exact (Request.window_after_grid has forward).1
          change (if planner.request.window.milliseconds < 0 then pure () else _ : Search Unit)
            planner = _
          rw [if_pos used]
          rfl
  | succ times hypothesis =>
      obtain ⟨turns, rfl⟩ : ∃ fewer, turns = fewer + 1 := ⟨turns - 1, by omega⟩
      have lasts : ¬ planner.request.window.milliseconds < 0 := by
        have before : gone < departuresIn request.window settings.stepSpan := by omega
        have nonnegative := (Request.window_windowAfter has forward before).1
        rw [current]
        exact Int.not_lt.mpr nonnegative
      change (if planner.request.window.milliseconds < 0 then pure () else _ : Search Unit)
        planner = _
      rw [if_neg lasts, sweepWindow_succ]
      apply bind_congr_of_ok
      intro _ middle turned
      obtain ⟨_, departed, _, _, rfl⟩ := exists_of_sweepTurn turned
      have shorter : (departed.ask
          { planner.request with
            window := planner.request.window - settings.stepSpan }).request =
          windowAfter request settings.stepSpan (gone + 1) := by
        rw [Planner.ask_request, current, windowAfter_succ]
      exact hypothesis shorter (by omega) (by omega)

end Search

namespace Planner

open Search

variable {catalogue : Catalogue} {transfers : TransferTable} {planner : Planner}

/-- A sweep that succeeds does what departing at the instants of its grid does, one after the
other and with the whole window in the request: all those departures succeed, and leave the
same labels, rides and bounds, and the same journal but for the end of the sweep.

The grid has an instant for every step that fits into the window, one for its beginning, and
the start.  It leads back in time from the end of the window to the start, where it ends, and
is all there is to depart at for as long as there is a window.  What is missing from the window
in the end is a step at most. -/
theorem sweep_eq_departs
    {request : Request}
    (worked : (planner.perform catalogue transfers (.sweep request)).1 = .ok ())
    (shown : request.start.OnClock) :
    ∃ step, planner.settings.step = .ok step ∧ 0 < step.milliseconds ∧
      0 ≤ request.window.milliseconds ∧
      let after := (planner.perform catalogue transfers (.sweep request)).2
      let grid := request.grid step
      let tasks := request.departs grid
      let replayed := (planner.ask request).performAll catalogue transfers tasks
      (∀ answer ∈ (planner.ask request).answers catalogue transfers tasks,
        answer.outcome = .ok ()) ∧
      after.frontier = replayed.frontier ∧ after.rides = replayed.rides ∧
      after.bounds = replayed.bounds ∧
      after.journal = replayed.journal.push
        (.swept grid.length replayed.frontier.size replayed.rides.size) ∧
      (∃ left : Span, left.milliseconds < 0 ∧ -step.milliseconds ≤ left.milliseconds ∧
        after.request = { request with window := left }) ∧
      grid.length = (request.window.milliseconds / step.milliseconds).toNat + 2 ∧
      (∀ times < departuresIn request.window step,
        (request.start.move (windowAfter request step times).window).InRange) ∧
      grid.Pairwise (fun earlier later => later ≤ earlier) ∧
      (∀ departure ∈ grid,
        request.start ≤ departure ∧ departure ≤ request.start.move request.window) ∧
      grid.getLast? = some request.start ∧
      ∀ turns ≥ departuresIn request.window step,
        sweepWhile catalogue transfers step turns (planner.ask request) =
          sweepWindow catalogue transfers step (departuresIn request.window step)
            (planner.ask request) := by
  obtain ⟨after, performed⟩ : ∃ after,
      planner.perform catalogue transfers (.sweep request) = (.ok (), after) :=
    ⟨_, Prod.ext worked rfl⟩
  have searched := perform_eq_ok.mp performed
  obtain ⟨sound, step, stepped⟩ := sound_of_sweep searched
  obtain ⟨has, rfl⟩ := Request.hasStep_of_step stepped
  obtain ⟨_, _, forward, _⟩ := (Request.fault?_eq_none_iff request).mp sound
  obtain ⟨last, inRange, left, departed, rfl⟩ := exists_of_sweep sound stepped searched
  obtain ⟨replayed, answered⟩ := performAll_of_departAll departed
  refine ⟨planner.settings.stepSpan, stepped, has.positive, forward, ?_⟩
  rw [performed]
  dsimp only
  rw [replayed]
  obtain ⟨used, missing⟩ := Request.window_after_grid has forward
  refine ⟨answered, rfl, rfl, rfl, rfl, ⟨_, used, missing, left⟩, request.length_grid _, inRange,
    Request.pairwise_grid shown has forward, ?_, request.getLast?_grid _, ?_⟩
  · intro departure member
    exact Request.le_of_mem_grid shown has forward member
  · intro turns enough
    exact sweepWhile_eq_sweepWindow has forward (windowAfter_zero request _).symm (Nat.zero_add _) enough

/-- A fresh planner that goes by steps of two minutes, on the express network. -/
def byTwoOnExpress : Planner :=
  fresh Sample.express.timetable.catalogue (Sample.request 0) ⟨3, 2⟩

/-- What it makes of a window of five minutes. -/
def sweptByTwo : Except RoutingFault Unit × Planner :=
  byTwoOnExpress.perform Sample.express.timetable.catalogue Sample.express.transfers
    (.sweep (Sample.request 5))

/-- The departures in steps of two minutes back from five past eight, and the one at eight,
which no step leads to. -/
def departsByTwo : List Task :=
  (Sample.request 5).departs
    [Sample.instant 8 5, Sample.instant 8 3, Sample.instant 8 1, Sample.instant 8 0]

theorem sweep_eq_departs_on_express :
    sweptByTwo.1 = .ok () ∧ sweptByTwo.2.rides.size = 3 ∧
      let replayed := (byTwoOnExpress.ask (Sample.request 5)).performAll
        Sample.express.timetable.catalogue Sample.express.transfers departsByTwo
      sweptByTwo.2.frontier = replayed.frontier ∧ sweptByTwo.2.rides = replayed.rides ∧
        sweptByTwo.2.bounds = replayed.bounds := by
  have worked : sweptByTwo.1 = .ok () := by decide +kernel
  have stored : sweptByTwo.2.rides.size = 3 := by decide +kernel
  have shown : (Sample.request 5).start.OnClock := by decide
  have two : byTwoOnExpress.settings.step = .ok ⟨120000⟩ := by decide +kernel
  have grid : (Sample.request 5).grid ⟨120000⟩ =
      [Sample.instant 8 5, Sample.instant 8 3, Sample.instant 8 1, Sample.instant 8 0] := by
    decide +kernel
  refine ⟨worked, stored, ?_⟩
  unfold sweptByTwo at worked ⊢
  obtain ⟨step, stepped, _, _, _, labels, rides, bounds, _⟩ := sweep_eq_departs worked shown
  rw [two] at stepped
  cases stepped
  rw [grid] at labels rides bounds
  exact ⟨labels, rides, bounds⟩

end Planner

end Transit
