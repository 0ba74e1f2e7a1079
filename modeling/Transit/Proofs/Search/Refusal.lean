import Transit.Proofs.Chronology.Forward
import Transit.Proofs.Journey.Sample
import Transit.Proofs.Search.Completes

/-!
# When a sweep fails

On a network that was built, a sweep fails exactly if its request cannot be answered as it
is: it lacks stations, its window or its weights are not sound, the settings have no step,
the window ends past the last instant, or a departure of the grid has no local time at one
of the stations.  Which searches came before makes no difference, and no look-up fails.

The fault names one of these reasons, unless it is the last of them and the stop is reached at
an instant that there is.  Only the date there is missing then, which is not refused as it
ought to be: the search comes to a halt over it.
-/

namespace Transit

namespace Settings

/-- The step between two departures, as the settings give it. -/
def stepSpan (settings : Settings) : Span := ⟨settings.stepMinutes * 60000⟩

@[simp]
theorem milliseconds_stepSpan (settings : Settings) :
    settings.stepSpan.milliseconds = settings.stepMinutes * 60000 := rfl

/-- The step is positive, and a span can be that long. -/
def HasStep (settings : Settings) : Prop :=
  0 < settings.stepMinutes ∧ settings.stepSpan.milliseconds ≤ Span.bound

variable {settings : Settings}

theorem HasStep.positive (has : settings.HasStep) : 0 < settings.stepSpan.milliseconds := by
  have minutes := has.1
  rw [milliseconds_stepSpan]
  omega

theorem step_eq_ok (has : settings.HasStep) : settings.step = .ok settings.stepSpan := by
  have positive := has.positive
  have above : -Span.bound ≤ settings.stepSpan.milliseconds := by
    unfold Span.bound
    omega
  have span : Span.ofMinutes? settings.stepMinutes = some settings.stepSpan :=
    if_pos ⟨above, has.2⟩
  rw [step, span]
  exact if_pos positive

theorem step_eq_error (lacks : ¬ settings.HasStep) :
    settings.step = .error (.step settings.stepMinutes) := by
  rw [step]
  cases found : Span.ofMinutes? settings.stepMinutes with
  | none => rfl
  | some span =>
      rw [Span.ofMinutes?, Span.ofMilliseconds?, ite_eq_iff] at found
      obtain ⟨⟨_, inside⟩, same⟩ | ⟨_, impossible⟩ := found
      · cases same
        apply if_neg
        intro positive
        have minutes : 0 < settings.stepMinutes * 60000 := positive
        exact lacks ⟨by omega, inside⟩
      · cases impossible

end Settings

/-- The reasons for which a sweep of a request cannot be answered.  A departure at which
the grid leaves the origin has no local time at a station if the walk there is no span, leads
out of the range of time, or ends on a date that the calendar does not have. -/
inductive Request.IsRefused (request : Request) (settings : Settings) : RequestFault → Prop
  | noAccess : request.access = [] → IsRefused request settings .noAccess
  | noEgress : request.egress = [] → IsRefused request settings .noEgress
  | negativeWindow : request.window.milliseconds < 0 →
      IsRefused request settings .negativeWindow
  | weights : request.weights.areFinite = false → IsRefused request settings .weights
  | step : ¬ settings.HasStep → IsRefused request settings (.step settings.stepMinutes)
  | windowEnd : (request.start.move request.window).IsPastEnd →
      IsRefused request settings .windowEnd
  | departure {departure : Instant} {station : Station} :
      request.Sweeps settings.stepSpan departure → station ∈ request.access →
      station.localDeparture? departure = none →
      IsRefused request settings (.departure station.stop)

/-- A departure of the grid reaches the stop of an access station at an instant at which the
clocks there show a date that the calendar does not have. -/
def Request.LeavesCalendar (request : Request) (settings : Settings) (stop : Stop) : Prop :=
  ∃ departure station reached,
    request.Sweeps settings.stepSpan departure ∧ station ∈ request.access ∧
    station.stop = stop ∧ station.reached? departure = some reached ∧
    station.zone.localTime? reached = none

/-- What a sweep of a request can fail by: a refusal for one of the reasons, or a halt over a
date. -/
def Request.IsFailure (request : Request) (settings : Settings) (fault : RoutingFault) : Prop :=
  (∃ reason, fault = .request reason ∧ request.IsRefused settings reason) ∨
    ∃ stop, fault = .offCalendar stop ∧ request.LeavesCalendar settings stop

namespace Request

variable {request : Request} {settings : Settings}

theorem LeavesCalendar.isRefused
    {stop : Stop} (leaves : request.LeavesCalendar settings stop) :
    request.IsRefused settings (.departure stop) := by
  obtain ⟨departure, station, reached, swept, member, rfl, arrived, shown⟩ := leaves
  refine .departure swept member ?_
  rw [Station.localDeparture?, arrived]
  exact shown

/-- By universal time the calendar has a date for every instant. -/
theorem not_leavesCalendar_of_universal
    {stop : Stop} (universal : ∀ station ∈ request.access, station.zone = .universal) :
    ¬ request.LeavesCalendar settings stop := by
  rintro ⟨departure, station, reached, _, member, _, arrived, shown⟩
  obtain ⟨span, _, added⟩ := Option.bind_eq_some_iff.mp arrived
  obtain ⟨inRange, rfl⟩ := Instant.add?_eq_some_iff.mp added
  rw [universal station member] at shown
  have known := (Zone.localTime?_eq_some_iff .universal (departure.move span) _).mpr
    ⟨inRange, rfl⟩
  rw [shown] at known
  cases known

/-- There is a reason to refuse the request, also where it is not refused. -/
theorem IsFailure.exists_isRefused
    {fault : RoutingFault} (failure : request.IsFailure settings fault) :
    ∃ reason, request.IsRefused settings reason := by
  obtain ⟨reason, _, refused⟩ | ⟨stop, _, leaves⟩ := failure
  · exact ⟨reason, refused⟩
  · exact ⟨.departure stop, leaves.isRefused⟩

/-- A station without a local time is a failure of the sweep. -/
theorem isFailure_unreached
    {departure : Instant} {station : Station}
    (swept : request.Sweeps settings.stepSpan departure) (member : station ∈ request.access)
    (absent : station.localDeparture? departure = none) :
    request.IsFailure settings (Search.unreached station departure) := by
  unfold Search.unreached
  cases arrived : station.reached? departure with
  | none => exact .inl ⟨.departure station.stop, rfl, .departure swept member absent⟩
  | some reached =>
      rw [Station.localDeparture?, arrived] at absent
      exact .inr ⟨station.stop, rfl, departure, station, reached, swept, member, rfl, arrived,
        absent⟩

theorem isRefused_of_fault?
    {reason : RequestFault} (faulty : request.fault? = some reason) :
    request.IsRefused settings reason := by
  unfold fault? at faulty
  simp only [ite_eq_iff, Option.some.injEq, reduceCtorEq, and_false, or_false,
    List.isEmpty_iff, Bool.not_eq_true'] at faulty
  obtain ⟨noAccess, rfl⟩ | ⟨_, ⟨noEgress, rfl⟩ | ⟨_, ⟨negative, rfl⟩ | ⟨_, infinite, rfl⟩⟩⟩ :=
    faulty
  · exact .noAccess noAccess
  · exact .noEgress noEgress
  · exact .negativeWindow negative
  · exact .weights infinite

/-- A request is without fault if it has stations, a window and finite weights. -/
theorem fault?_eq_none_iff (request : Request) :
    request.fault? = none ↔
      request.access ≠ [] ∧ request.egress ≠ [] ∧ 0 ≤ request.window.milliseconds ∧
        request.weights.areFinite = true := by
  unfold fault?
  simp only [ite_eq_iff, reduceCtorEq, and_false, false_or, List.isEmpty_iff, Int.not_lt,
    Bool.not_eq_true', Bool.not_eq_false, and_true]

theorem isRefused_of_step
    {reason : RequestFault} (failed : settings.step = .error reason) :
    request.IsRefused settings reason := by
  by_cases has : settings.HasStep
  · rw [Settings.step_eq_ok has] at failed
    cases failed
  · rw [Settings.step_eq_error has] at failed
    cases failed
    exact .step has

theorem hasStep_of_step
    {step : Span} (stepped : settings.step = .ok step) :
    settings.HasStep ∧ step = settings.stepSpan := by
  by_cases has : settings.HasStep
  · rw [Settings.step_eq_ok has] at stepped
    cases stepped
    exact ⟨has, rfl⟩
  · rw [Settings.step_eq_error has] at stepped
    cases stepped

/-- The windows of a grid are shorter than the whole one, but not negative. -/
theorem window_windowAfter
    {times : Nat} (has : settings.HasStep) (forward : 0 ≤ request.window.milliseconds)
    (before : times < Search.departuresIn request.window settings.stepSpan) :
    0 ≤ (Search.windowAfter request settings.stepSpan times).window.milliseconds ∧
      (Search.windowAfter request settings.stepSpan times).window.milliseconds ≤
        request.window.milliseconds := by
  have positive := has.positive
  have fits : (times : Int) ≤ request.window.milliseconds / settings.stepSpan.milliseconds := by
    have whole : 0 ≤ request.window.milliseconds / settings.stepSpan.milliseconds :=
      Int.ediv_nonneg forward (Int.le_of_lt positive)
    unfold Search.departuresIn at before
    omega
  have used := (Int.le_ediv_iff_mul_le positive).mp fits
  have gone : 0 ≤ (times : Int) * settings.stepSpan.milliseconds :=
    Int.mul_nonneg (Int.natCast_nonneg times) (Int.le_of_lt positive)
  unfold Search.windowAfter
  dsimp only
  omega

/-- A departure of the grid is out of range only if the end of the window is. -/
theorem isPastEnd_of_windowAfter
    {times : Nat} (inRange : request.start.InRange) (has : settings.HasStep)
    (forward : 0 ≤ request.window.milliseconds)
    (before : times < Search.departuresIn request.window settings.stepSpan)
    (unreached :
      request.start.add? (Search.windowAfter request settings.stepSpan times).window = none) :
    (request.start.move request.window).IsPastEnd := by
  obtain ⟨nonnegative, shorter⟩ := window_windowAfter has forward before
  by_contra inside
  obtain ⟨departure, reached⟩ :=
    Instant.exists_add?_of_le inRange nonnegative shorter inside
  rw [unreached] at reached
  cases reached

/-- Nothing stands in the way of a sweep of the request. -/
structure IsAnswerable (request : Request) (settings : Settings) : Prop where
  sound : request.fault? = none
  hasStep : settings.HasStep
  reached : ∀ times < Search.departuresIn request.window settings.stepSpan, ∃ departure,
    request.start.add? (Search.windowAfter request settings.stepSpan times).window =
      some departure
  localTime : ∀ departure, request.Sweeps settings.stepSpan departure →
    ∀ station ∈ request.access, ∃ reached, station.localDeparture? departure = some reached

theorem IsAnswerable.not_isRefused
    {reason : RequestFault} (inRange : request.start.InRange)
    (answerable : request.IsAnswerable settings) : ¬ request.IsRefused settings reason := by
  obtain ⟨someAccess, someEgress, forward, finite⟩ :=
    (fault?_eq_none_iff request).mp answerable.sound
  intro refused
  cases refused with
  | noAccess none => exact someAccess none
  | noEgress none => exact someEgress none
  | negativeWindow negative => omega
  | weights infinite =>
      rw [finite] at infinite
      cases infinite
  | step lacks => exact lacks answerable.hasStep
  | windowEnd pastEnd =>
      obtain ⟨departure, reached⟩ := answerable.reached 0 (Nat.succ_pos _)
      have whole : (Search.windowAfter request settings.stepSpan 0).window = request.window := by
        simp [Search.windowAfter]
      rw [whole, (Instant.add?_eq_none_iff inRange forward).mpr pastEnd] at reached
      cases reached
  | departure swept member unreached =>
      obtain ⟨reached, known⟩ := answerable.localTime _ swept _ member
      rw [unreached] at known
      cases known

end Request

namespace Search

variable {timetable : Timetable} {transfers : TransferTable} {request : Request}
  {planner : Planner}

/-- A sweep of a stocked planner is answerable, or fails by one of its failures. -/
theorem ensures_sweep_answerable
    (built : timetable.IsBuilt) (resolved : transfers.IsResolved timetable.catalogue)
    (inRange : request.start.InRange) (stocked : planner.Stocked timetable.catalogue) :
    Ensures (sweep timetable.catalogue transfers request) planner
      (fun _ _ => request.IsAnswerable planner.settings)
      (fun fault _ => request.IsFailure planner.settings fault) := by
  let reaches (departure : Instant) : Prop := ∀ station ∈ request.access,
    ∃ reached, station.localDeparture? departure = some reached
  apply (ensures_sweep (fun now => now.Stocked timetable.catalogue) (fun fault _ =>
      request.IsFailure planner.settings fault)
    (fun departure _ => reaches departure) ?_ ?_ ?_ ?_ ?_ ?_ stocked).imp
  · rintro _ after ⟨_, sound, step, stepped, reached, localTime⟩
    obtain ⟨has, rfl⟩ := Request.hasStep_of_step stepped
    exact ⟨sound, has, reached, localTime⟩
  · rintro reason (faulty | failed)
    · exact .inl ⟨reason, rfl, Request.isRefused_of_fault? faulty⟩
    · exact .inl ⟨reason, rfl, Request.isRefused_of_step failed⟩
  · intro now step times _ sound stepped before unreached
    obtain ⟨has, rfl⟩ := Request.hasStep_of_step stepped
    obtain ⟨_, _, forward, _⟩ := (Request.fault?_eq_none_iff request).mp sound
    exact .inl ⟨.windowEnd, rfl,
      .windowEnd (Request.isPastEnd_of_windowAfter inRange has forward before unreached)⟩
  · intro now window stockedNow
    exact stockedNow.of_rides_eq (now.grows_ask _) rfl
  · intro now event stockedNow _
    exact stockedNow.of_rides_eq (now.grows_enter event) rfl
  · intro _ _ _ _ known
    exact known
  · intro now window step departure stockedNow sound current stepped swept
    obtain ⟨_, rfl⟩ := Request.hasStep_of_step stepped
    obtain ⟨someAccess, someEgress, _⟩ := (Request.fault?_eq_none_iff request).mp sound
    have egress : now.request.egress ≠ [] := by
      rw [current]
      exact someEgress
    apply Ensures.imp (completes_depart built resolved stockedNow someAccess egress ?_)
    · rintro _ after ⟨_, stockedAfter, known⟩
      exact ⟨stockedAfter, known⟩
    · intro station member absent
      exact Request.isFailure_unreached swept member absent

end Search

namespace Planner

/-- After every session on a network that was built, a sweep fails exactly if there is a
reason to refuse its request.  The fault then says a reason, unless a date at an access stop is
off the calendar, and only then is it no refusal.  In particular it says of no trip or position
that it is not known.  The start of the request is in range, as all instants are that can be
read or computed. -/
theorem perform_sweep_fails_iff
    {plan : NetworkPlan} {network : Network} (built : plan.build = .ok network)
    (first : Request) (settings : Settings) (tasks : List Task)
    {request : Request} (inRange : request.start.InRange) :
    let catalogue := network.timetable.catalogue
    let planner := (fresh catalogue first settings).performAll catalogue network.transfers tasks
    let outcome := (planner.perform catalogue network.transfers (.sweep request)).1
    ((∃ fault, outcome = .error fault) ↔ ∃ reason, request.IsRefused settings reason) ∧
      ∀ fault, outcome = .error fault →
        (∃ reason, fault = .request reason ∧ request.IsRefused settings reason) ∨
          ∃ stop, fault = .offCalendar stop ∧ request.LeavesCalendar settings stop := by
  intro catalogue planner outcome
  have isBuilt := Timetable.isBuilt_of_plan built
  have resolved : network.transfers.IsResolved catalogue :=
    fun _ _ _ listed => Timetable.exists_call_of_destination built listed
  have stocked : planner.Stocked catalogue :=
    stocked_performAll isBuilt network.transfers first settings tasks
  have same : planner.settings = settings := (grows_performAll tasks).settings
  have ensured : Search.Ensures ((Task.sweep request).search catalogue network.transfers)
      planner (fun _ _ => request.IsAnswerable planner.settings)
      (fun fault _ => request.IsFailure planner.settings fault) :=
    Search.ensures_sweep_answerable isBuilt resolved inRange stocked
  rw [same] at ensured
  have failure : ∀ fault, outcome = .error fault → request.IsFailure settings fault := by
    intro fault failed
    exact of_perform_eq_error ensured (Prod.ext failed rfl)
  refine ⟨⟨?_, ?_⟩, failure⟩
  · rintro ⟨fault, failed⟩
    exact (failure fault failed).exists_isRefused
  · rintro ⟨reason, holds⟩
    cases result : outcome with
    | error fault => exact ⟨fault, rfl⟩
    | ok _ =>
        have answerable : request.IsAnswerable settings :=
          of_perform_eq_ok ensured (Prod.ext result rfl)
        exact absurd holds (answerable.not_isRefused inRange)

/-- A request whose window ends a minute after the last second that there is. -/
def endlessRequest : Request :=
  { Sample.request 1 with start := ⟨Instant.last.second, 0⟩ }

/-- A planner that has failed at that request and answered another one since. -/
def usedPlanner : Planner :=
  (fresh Sample.relay.timetable.catalogue (Sample.request 0) .standard).performAll
    Sample.relay.timetable.catalogue Sample.relay.transfers
    [.sweep endlessRequest, .sweep (Sample.request 0)]

theorem perform_sweep_fails_of_windowEnd :
    ∃ reason, endlessRequest.IsRefused .standard reason ∧
      (usedPlanner.perform Sample.relay.timetable.catalogue Sample.relay.transfers
        (.sweep endlessRequest)).1 = .error (.request reason) := by
  have built : Sample.relayPlan.build = .ok Sample.relay := by decide +kernel
  have inRange : endlessRequest.start.InRange := by decide +kernel
  have pastEnd : (endlessRequest.start.move endlessRequest.window).IsPastEnd := by
    decide +kernel
  unfold usedPlanner
  obtain ⟨fails, refuses⟩ :=
    perform_sweep_fails_iff built (Sample.request 0) .standard
      [.sweep endlessRequest, .sweep (Sample.request 0)] inRange
  obtain ⟨fault, failed⟩ := fails.mpr ⟨.windowEnd, .windowEnd pastEnd⟩
  obtain ⟨reason, rfl, refused⟩ | ⟨stop, rfl, leaves⟩ := refuses fault failed
  · exact ⟨reason, refused, failed⟩
  · exact absurd leaves (Request.not_leavesCalendar_of_universal fun station member => by
      rw [List.mem_singleton.mp member]
      rfl)

/-- The origin where the clocks are nine hours ahead. -/
def ahead : Station := { Sample.origin with zone := .fixed "Asia/Tokyo" 32400 }

/-- The origin after an hour's walk. -/
def hourAway : Station := { Sample.origin with walk := 3600000 }

/-- A departure half an hour before the end of time, when the clocks that are ahead show no date
any more and an hour's walk leads to no instant. -/
def lastRequest : Request :=
  { Sample.request 0 with
    start := ⟨Instant.last.second - 1799, 0⟩
    access := [ahead, hourAway] }

/-- At the first station only the date is missing and at the second one the instant as well;
the sweep ought to be refused for both, and comes to a halt over the first. -/
theorem perform_sweep_halts_off_calendar :
    Sample.relayPlan.build = .ok Sample.relay ∧ lastRequest.start.InRange ∧
      lastRequest.fault? = none ∧ Settings.standard.step = .ok ⟨60000⟩ ∧
      lastRequest.IsRefused .standard (.departure Sample.origin.stop) ∧
      ((fresh Sample.relay.timetable.catalogue lastRequest .standard).perform
        Sample.relay.timetable.catalogue Sample.relay.transfers (.sweep lastRequest)).1 =
          .error (.offCalendar Sample.origin.stop) ∧
      (RoutingFault.offCalendar Sample.origin.stop).halts = true := by
  have absent : hourAway.localDeparture? lastRequest.start = none := by decide +kernel
  have refused : lastRequest.IsRefused .standard (.departure hourAway.stop) :=
    .departure (.inl rfl) (by decide +kernel) absent
  exact ⟨by decide +kernel, by decide +kernel, by decide +kernel, by decide +kernel, refused,
    by decide +kernel, rfl⟩

end Planner

end Transit
