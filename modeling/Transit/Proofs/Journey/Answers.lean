import Transit.Proofs.Frontier.Pareto
import Transit.Proofs.Journey.Account
import Transit.Proofs.Journey.Sample

/-!
# The itineraries of a session

Every label that a sweep finds belongs to one of its departures, and stays the label of
that departure while later searches go on.  The itinerary of a label on the frontier
therefore answers the request of the sweep that found it, whatever came before and
after.
-/

namespace Transit

/-- A label was found by a departure of the sweep of a request. -/
def Request.Owns
    (request : Request) (catalogue : Catalogue) (transfers : TransferTable)
    (settings : Settings) (rides : RideStore) (label : Label) : Prop :=
  ∃ (outing : Outing) (step : Span), settings.step = .ok step ∧ request.Sweeps step outing.departure ∧
    (∀ station ∈ outing.access, station ∈ request.access) ∧ outing.admits = request.admits ∧
    ∃ ride rest trip call,
      outing.Labels catalogue transfers request rides label ride rest trip call

/-- The task answers the request. -/
inductive Task.Asks (request : Request) : Task → Prop
  | sweep : Asks request (.sweep request)
  | sweepEach : Asks request (.sweepEach request)

/-- Every label found since `start` belongs to a request. -/
structure Request.OwnsNew
    (request : Request) (catalogue : Catalogue) (transfers : TransferTable)
    (start planner : Planner) : Prop where
  grows : start.Grows planner
  owned : ∀ label ∈ planner.found, label ∈ start.found ∨
    request.Owns catalogue transfers start.settings planner.rides label

namespace Request

variable
  {request : Request} {catalogue : Catalogue} {transfers : TransferTable}
  {settings : Settings} {start before after : Planner} {label : Label}

theorem Owns.grows
    (owns : request.Owns catalogue transfers settings before.rides label)
    (grows : before.Grows after) :
    request.Owns catalogue transfers settings after.rides label := by
  obtain ⟨outing, step, stepped, swept, access, admits, ride, rest, trip, call, labels⟩ :=
    owns
  exact ⟨outing, step, stepped, swept, access, admits, ride, rest, trip, call,
    labels.grows grows⟩

/-- What the sweep of one station finds belongs to the request for all stations. -/
theorem Owns.of_fromStation
    {rides : RideStore} {station : Station} (member : station ∈ request.access)
    (owns : (request.fromStation station).Owns catalogue transfers settings rides label) :
    request.Owns catalogue transfers settings rides label := by
  obtain ⟨outing, step, stepped, swept, access, admits, ride, rest, trip, call, labels⟩ :=
    owns
  refine ⟨outing, step, stepped, swept, ?_, admits, ride, rest, trip, call, ?_⟩
  · intro known knownMember
    have same : known = station := List.mem_singleton.mp (access known knownMember)
    rw [same]
    exact member
  · exact { labels with }

theorem OwnsNew.refl (planner : Planner) :
    request.OwnsNew catalogue transfers planner planner where
  grows := .refl planner
  owned _ member := .inl member

theorem OwnsNew.trans
    {middle : Planner}
    (first : request.OwnsNew catalogue transfers start middle)
    (second : request.OwnsNew catalogue transfers middle after) :
    request.OwnsNew catalogue transfers start after where
  grows := first.grows.trans second.grows
  owned label member := by
    rcases second.owned label member with old | owns
    · rcases first.owned label old with older | owns
      · exact .inl older
      · exact .inr (owns.grows second.grows)
    · rw [first.grows.settings] at owns
      exact .inr owns

/-- Nothing new is found while the labels stay the same. -/
theorem OwnsNew.of_found_eq
    (grows : before.Grows after) (found : after.found = before.found) :
    request.OwnsNew catalogue transfers before after where
  grows := grows
  owned label member := by
    rw [found] at member
    exact .inl member

end Request

namespace Search

variable
  {request : Request} {catalogue : Catalogue} {transfers : TransferTable}
  {planner : Planner}

/-- What a departure of a sweep finds belongs to the request of the sweep. -/
theorem depart_owns
    {window : Span} {departure : Instant} {step : Span}
    (current : planner.request = { request with window })
    (stepped : planner.settings.step = .ok step)
    (swept : request.Sweeps step departure) :
    Ensures (depart catalogue transfers request.access departure request.admits) planner
      (fun _ => request.OwnsNew catalogue transfers planner)
      (fun _ => request.OwnsNew catalogue transfers planner) := by
  let outing : Outing := ⟨request.access, departure, request.admits, planner.rides.size⟩
  apply ensures_depart
  intro after reach
  have traced := (Outing.traced_start (Nat.le_refl _)).reach reach
  refine ⟨reach.grows, ?_⟩
  intro label member
  rcases traced.labelled label member with old | ⟨ride, rest, trip, call, labels⟩
  · exact .inl old
  · rw [current] at labels
    exact .inr ⟨outing, step, stepped, swept, fun _ known => known, rfl, ride, rest, trip,
      call, { labels with }⟩

theorem sweep_owns (planner : Planner) :
    Ensures (sweep catalogue transfers request) planner
      (fun _ => request.OwnsNew catalogue transfers planner)
      (fun _ => request.OwnsNew catalogue transfers planner) := by
  apply sweep_keeps (request.OwnsNew catalogue transfers planner) ?_ ?_ ?_ (.refl planner)
  · intro now window owned
    exact owned.trans (.of_found_eq (now.grows_ask _) rfl)
  · intro now event owned quiet
    exact owned.trans (.of_found_eq (now.grows_enter event)
      (now.found_enter_of_isQuiet quiet))
  · intro now window step departure owned current stepped swept
    have settings : now.settings.step = .ok step := by
      rw [owned.grows.settings]
      exact stepped
    apply (depart_owns current settings swept).weaken
    intro after further
    exact owned.trans further

theorem task_owns {task : Task} (asks : task.Asks request) (planner : Planner) :
    Ensures (task.search catalogue transfers) planner
      (fun _ => request.OwnsNew catalogue transfers planner)
      (fun _ => request.OwnsNew catalogue transfers planner) := by
  cases asks with
  | sweep => exact sweep_owns planner
  | sweepEach =>
      apply ensures_sweepEach
      · intro station member now owned
        apply (sweep_owns now).weaken
        intro after further
        apply owned.trans
        refine ⟨further.grows, ?_⟩
        intro label labelMember
        rcases further.owned label labelMember with old | owns
        · exact .inl old
        · exact .inr (owns.of_fromStation member)
      · exact .refl planner

end Search

namespace Planner

variable
  {catalogue : Catalogue} {transfers : TransferTable} {start : Planner}

/-- Every label on the frontier when a fresh planner has answered a request belongs to that
request. -/
theorem owns_of_fresh
    (first : Request) (settings : Settings) {request : Request} {task : Task}
    (asks : task.Asks request) {label : Label}
    (member : label ∈
      ((fresh catalogue first settings).perform catalogue transfers task).2.frontier.labels) :
    let after := ((fresh catalogue first settings).perform catalogue transfers task).2
    label ∈ after.found ∧
      request.Owns catalogue transfers settings after.rides label := by
  intro after
  have pareto : after.IsPareto :=
    isPareto_performAll catalogue transfers first settings [task]
  have owned : request.OwnsNew catalogue transfers (fresh catalogue first settings) after :=
    perform_of_ensures (Search.task_owns asks _)
  have found := pareto.mem_found member
  rcases owned.owned label found with old | owns
  · cases old
  · exact ⟨found, owns⟩

/-- Every label of a session was found by one of its tasks, and belongs to the request
of that task. -/
theorem exists_task_of_found
    {tasks : List Task} (asks : ∀ task ∈ tasks, ∃ request, Task.Asks request task)
    {label : Label} (member : label ∈ (start.performAll catalogue transfers tasks).found) :
    label ∈ start.found ∨
      ∃ earlier task later request,
        tasks = earlier ++ task :: later ∧ Task.Asks request task ∧
          label ∉ (start.performAll catalogue transfers earlier).found ∧
          label ∈ (start.performAll catalogue transfers (earlier ++ [task])).found ∧
          request.Owns catalogue transfers start.settings
            (start.performAll catalogue transfers tasks).rides label := by
  induction tasks using List.reverseRecOn with
  | nil => exact .inl member
  | append_singleton tasks task hypothesis =>
      obtain ⟨request, asked⟩ := asks task (by simp)
      have owned :
          request.OwnsNew catalogue transfers (start.performAll catalogue transfers tasks)
            (start.performAll catalogue transfers (tasks ++ [task])) := by
        rw [performAll_append]
        exact perform_of_ensures (Search.task_owns asked _)
      by_cases old : label ∈ (start.performAll catalogue transfers tasks).found
      · have asksBefore : ∀ known ∈ tasks, ∃ request, Task.Asks request known :=
          fun known before => asks known (List.mem_append_left _ before)
        rcases hypothesis asksBefore old with first | ⟨earlier, found, later, request, split,
          asked, absent, present, owns⟩
        · exact .inl first
        · refine .inr ⟨earlier, found, later ++ [task], request, ?_, asked, absent, present,
            owns.grows owned.grows⟩
          rw [split, List.append_assoc, List.cons_append]
      · rcases owned.owned label member with first | owns
        · exact absurd first old
        · rw [(grows_performAll tasks).settings] at owns
          exact .inr ⟨tasks, task, [], request, rfl, asked, old, member, owns⟩

/-- Every label on the frontier after a session of sweeps, failed ones included, has an
itinerary, and the itinerary is the account of a journey that answers the request of the
sweep that found the label, at one of its departures. -/
theorem exists_itinerary_of_session
    {plan : NetworkPlan} {network : Network} (built : plan.build = .ok network)
    (request : Request) (settings : Settings) {tasks : List Task}
    (asks : ∀ task ∈ tasks, ∃ asked, Task.Asks asked task) {label : Label}
    (member : label ∈ ((fresh network.timetable.catalogue request settings).performAll
      network.timetable.catalogue network.transfers tasks).frontier.labels) :
    let catalogue := network.timetable.catalogue
    let session := (fresh catalogue request settings).performAll catalogue network.transfers
    ∃ earlier task later asked step departure itinerary hops,
      tasks = earlier ++ task :: later ∧ Task.Asks asked task ∧
        label ∉ (session earlier).found ∧ label ∈ (session (earlier ++ [task])).found ∧
        settings.step = .ok step ∧ asked.Sweeps step departure ∧
        Itinerary.ofLabel catalogue (session tasks).rides label = .ok itinerary ∧
        itinerary.egress = label.egress ∧ itinerary.arrival = label.scheduled ∧
        itinerary.Answers catalogue network.transfers asked departure hops := by
  intro catalogue session
  have pareto : (session tasks).IsPareto :=
    isPareto_performAll catalogue network.transfers request settings tasks
  rw [pareto.labels_eq] at member
  have found := (Label.mem_pareto.mp member).1
  rcases exists_task_of_found asks found with old | ⟨earlier, task, later, asked, split,
    asks, absent, present, outing, step, stepped, swept, access, admits, ride, rest, trip,
    call, labels⟩
  · cases old
  · have allowed : ∀ trip, outing.admits trip = true → asked.admits trip = true := by
      rw [admits]
      exact fun _ admitted => admitted
    obtain ⟨itinerary, hops, worked, egress, arrival, answers, _⟩ :=
      labels.exists_itinerary (Timetable.isBuilt_of_plan built) allowed access
    exact ⟨earlier, task, later, asked, step, outing.departure, itinerary, hops, split, asks,
      absent, present, stepped, swept, worked, egress, arrival, answers⟩

/-- The session that sweeps the express network once. -/
def expressSession : Planner :=
  (fresh Sample.express.timetable.catalogue (Sample.request 5) .standard).performAll
    Sample.express.timetable.catalogue Sample.express.transfers [.sweep (Sample.request 5)]

/-- The label of the journey that takes the express, changes to the line, and changes
again where the line ends. -/
def expressLabel : Label :=
  { round := 2, egress := Sample.target, alight := ⟨2, 1⟩, scheduled := Sample.clock 8 50
    ride := 2, criteria := ⟨31800, 2, 29100⟩ }

theorem exists_itinerary_of_express :
    expressLabel ∈ expressSession.frontier.labels ∧
      ∃ asked departure itinerary hops,
        Itinerary.ofLabel Sample.express.timetable.catalogue expressSession.rides
            expressLabel = .ok itinerary ∧
          itinerary.Answers Sample.express.timetable.catalogue Sample.express.transfers asked
            departure hops := by
  have built : Sample.expressPlan.build = .ok Sample.express := by decide +kernel
  have member : expressLabel ∈ expressSession.frontier.labels := by decide +kernel
  have asks : ∀ task ∈ [Task.sweep (Sample.request 5)], ∃ asked, Task.Asks asked task := by
    intro task listed
    rw [List.mem_singleton.mp listed]
    exact ⟨Sample.request 5, .sweep⟩
  unfold expressSession at member ⊢
  obtain ⟨_, _, _, asked, _, departure, itinerary, hops, _, _, _, _, _, _, worked, _, _,
    answers⟩ := exists_itinerary_of_session built (Sample.request 5) .standard asks member
  exact ⟨member, asked, departure, itinerary, hops, worked, answers⟩

end Planner

end Transit
