import Transit.Proofs.Search.Session

/-!
# Searches on planners that are alike

A search looks at the request, the bounds and the rides of its planner.  The settings and
the journal it does not look at, apart from the number of rounds at the start of a
departure, and the window of the request only between the departures of a sweep.  So
planners that differ in these alone are led to the same value or the same fault, and to
planners that differ in these alone again.

A `Likeness` says in what way two planners may differ, and which events they may enter
without becoming unlike.  `Respects` says that a search keeps to a likeness.  There is one
law for each search, whatever the likeness, and the likenesses that matter are read off it.
-/

namespace Transit

namespace Event

/-- What is entered when trips are boarded, at stations or by transfers. -/
def IsBoarding : Event → Prop
  | .departing _ _ | .boarding _ | .transferring _ _ => True
  | _ => False

/-- What is entered when the rides of a round are searched for arrivals. -/
def IsArrival (round : Nat) : Event → Prop
  | .arriving label => label.round = round
  | .passing _ _ _ => True
  | _ => False

/-- What is entered when a round begins. -/
def IsAnnouncement : Event → Prop
  | .round _ _ | .riding _ _ _ _ => True
  | _ => False

end Event

/-- A likeness of planners.  They differ in the window, the settings and the journal at most,
they stay alike when what they have found changes in the same way, and when both enter an
event of the given kind. -/
structure Likeness (entered : Event → Prop) where
  alike : Planner → Planner → Prop
  eq_with : ∀ {one other}, alike one other →
    other =
      { one with
        request := { one.request with window := other.request.window }
        settings := other.settings, journal := other.journal }
  change : ∀ {one other}, alike one other → ∀ bounds rides frontier,
    alike { one with bounds, rides, frontier } { other with bounds, rides, frontier }
  enter : ∀ {one other}, alike one other → ∀ event, entered event →
    alike (one.enter event) (other.enter event)

namespace Likeness

variable {entered : Event → Prop} {Value : Type}

/-- Two results give the same value or the same fault, and planners that are alike. -/
inductive Relates (likeness : Likeness entered) :
    EStateM.Result RoutingFault Planner Value → EStateM.Result RoutingFault Planner Value → Prop
  | ok {value one other} :
      likeness.alike one other → Relates likeness (.ok value one) (.ok value other)
  | error {fault one other} :
      likeness.alike one other → Relates likeness (.error fault one) (.error fault other)

/-- A search does the same on planners that are alike. -/
def Respects (likeness : Likeness entered) (search : Search Value) : Prop :=
  ∀ one other, likeness.alike one other → likeness.Relates (search one) (search other)

section Laws

variable {likeness : Likeness entered} {Other : Type}

theorem respects_pure (value : Value) : likeness.Respects (pure value) :=
  fun _ _ alike => .ok alike

theorem respects_throw (fault : RoutingFault) :
    likeness.Respects (throw fault : Search Value) :=
  fun _ _ alike => .error alike

theorem respects_throw_bind {fault : RoutingFault} {next : Other → Search Value} :
    likeness.Respects ((throw fault : Search Other) >>= next) :=
  fun _ _ alike => .error alike

theorem respects_modify
    {change : Planner → Planner}
    (changes : ∀ one other, likeness.alike one other →
      likeness.alike (change one) (change other)) :
    likeness.Respects (modify change) :=
  fun one other alike => .ok (changes one other alike)

theorem Respects.bind
    {search : Search Other} {next : Other → Search Value}
    (first : likeness.Respects search) (rest : ∀ value, likeness.Respects (next value)) :
    likeness.Respects (search >>= next) := by
  intro one other alike
  change likeness.Relates (EStateM.bind search next one) (EStateM.bind search next other)
  unfold EStateM.bind
  have related := first one other alike
  revert related
  generalize search one = left
  generalize search other = right
  rintro (alikeMiddle | alikeMiddle)
  · exact rest _ _ _ alikeMiddle
  · exact .error alikeMiddle

/-- What follows a look at the planner does the same if alike planners show it the same. -/
theorem respects_get_bind
    {next : Planner → Search Value}
    (same : ∀ one other, likeness.alike one other → next other = next one)
    (rest : ∀ planner, likeness.Respects (next planner)) :
    likeness.Respects (get >>= next) := by
  intro one other alike
  change likeness.Relates (next one one) (next other other)
  rw [same one other alike]
  exact rest one one other alike

/-- What follows a look at the planner may look at anything but the window, the settings and
the journal. -/
theorem respects_look
    {next : Planner → Search Value}
    (blind : ∀ (planner : Planner) (window : Span) settings journal,
      next { planner with request := { planner.request with window }, settings, journal } =
        next planner)
    (rest : ∀ planner, likeness.Respects (next planner)) :
    likeness.Respects (get >>= next) := by
  apply respects_get_bind
  · intro one other alike
    rw [likeness.eq_with alike]
    exact blind one other.request.window other.settings other.journal
  · exact rest

theorem respects_ofExcept (result : Except RoutingFault Value) :
    likeness.Respects (Search.ofExcept result) := by
  cases result with
  | ok value => exact respects_pure value
  | error fault => exact respects_throw fault

theorem respects_forM
    {Entry : Type} {turn : Entry → Search Unit}
    (turns : ∀ entry, likeness.Respects (turn entry)) (entries : List Entry) :
    likeness.Respects (entries.forM turn) := by
  induction entries with
  | nil => exact respects_pure ()
  | cons entry rest hypothesis => exact (turns entry).bind fun _ => hypothesis

theorem respects_record {event : Event} (known : entered event) :
    likeness.Respects (Search.record event) :=
  fun _ _ alike => .ok (likeness.enter alike event known)

/-- Alike planners stay alike when the same is done to their bounds. -/
theorem alike_bounds {one other : Planner} (alike : likeness.alike one other)
    (change : Bounds → Bounds) :
    likeness.alike { one with bounds := change one.bounds }
      { other with bounds := change other.bounds } := by
  have changed := likeness.change alike (change one.bounds) one.rides one.frontier
  rw [likeness.eq_with alike] at changed ⊢
  exact changed

theorem respects_ride (handle : Nat) : likeness.Respects (Search.ride handle) := by
  refine respects_look (fun _ _ _ _ => rfl) ?_
  intro planner
  cases planner.rides.ride? handle with
  | none => exact respects_throw _
  | some known => exact respects_pure known

theorem respects_store (ride : Ride) : likeness.Respects (Search.store ride) := by
  intro one other alike
  have changed := likeness.change alike one.bounds (one.rides.push ride) one.frontier
  rw [likeness.eq_with alike] at changed ⊢
  exact .ok changed

end Laws

section Kept

variable
  {kept : Planner → Prop}
  (changes : ∀ planner bounds rides frontier, kept planner →
    kept { planner with bounds, rides, frontier })
  (enters : ∀ planner event, entered event → kept planner → kept (planner.enter event))

/-- The likeness of equal planners that have a property which lasts. -/
def ofKept : Likeness entered where
  alike one other := one = other ∧ kept one
  eq_with := by
    rintro one _ ⟨rfl, _⟩
    rfl
  change := by
    rintro one _ ⟨rfl, holds⟩ bounds rides frontier
    exact ⟨rfl, changes one bounds rides frontier holds⟩
  enter := by
    rintro one _ ⟨rfl, holds⟩ event known
    exact ⟨rfl, enters one event known holds⟩

include changes enters

/-- A search keeps a property that lasts if it respects every likeness. -/
theorem keeps_of_respects
    {search : Search Value} {planner : Planner}
    (respects : ∀ likeness : Likeness entered, likeness.Respects search)
    (holds : kept planner) :
    Search.Ensures search planner (fun _ => kept) (fun _ => kept) := by
  have related := respects (ofKept changes enters) planner planner ⟨rfl, holds⟩
  unfold Search.Ensures
  cases outcome : search planner with
  | ok value after =>
      rw [outcome] at related
      cases related with
      | ok alike => exact alike.2
  | error fault after =>
      rw [outcome] at related
      cases related with
      | error alike => exact alike.2

end Kept

section Boarding

variable
  {likeness : Likeness entered} {catalogue : Catalogue} {transfers : TransferTable}
  (boards : ∀ event : Event, event.IsBoarding → entered event)

include boards

theorem respects_cover (trip : Trip) (position : Position) :
    likeness.Respects (Search.cover trip position) := by
  apply Respects.bind
  · apply respects_modify
    intro one other alike
    exact alike_bounds alike fun bounds =>
      bounds.cover trip.index trip.patternEnd position.call
  · intro _
    exact respects_record (boards _ trivial)

omit boards in
theorem respects_rideAfter
    (trip : Trip) (board : Position) (limit : Nat) (approach : Approach) :
    likeness.Respects (Search.rideAfter catalogue trip board limit approach) := by
  cases approach with
  | walk station serviceDay => exact respects_pure _
  | transfer parent origin =>
      apply (respects_ride parent).bind
      intro previous
      apply (respects_ofExcept _).bind
      intro left
      exact respects_pure _

theorem respects_board (trip : Trip) (position : Position) (approach : Approach) :
    likeness.Respects (Search.board catalogue trip position approach) := by
  refine respects_look (fun _ _ _ _ => rfl) ?_
  intro planner
  cases planner.bounds.coveredFrom? trip.index with
  | none => exact respects_throw _
  | some limit =>
      dsimp only
      split
      · exact respects_pure none
      split
      · exact (respects_cover boards trip position).bind fun _ => respects_pure none
      · apply (respects_rideAfter trip position limit approach).bind
        intro ride
        apply (respects_store ride).bind
        intro handle
        exact (respects_cover boards trip position).bind fun _ => respects_pure (some handle)

theorem respects_boardPatterns
    (station : Station) (reached : LocalTime) (admits : Trip → Bool) (boardings : Boardings) :
    likeness.Respects (Search.boardPatterns catalogue station reached admits boardings) := by
  induction boardings with
  | nil => exact respects_pure []
  | cons entry rest hypothesis =>
      obtain ⟨pattern, positions⟩ := entry
      apply (respects_ofExcept _).bind
      intro later
      apply (respects_ofExcept _).bind
      have others : ∀ handle? : Option Nat, likeness.Respects (do
          return handle?.toList ++
            (← Search.boardPatterns catalogue station reached admits rest)) :=
        fun _ => hypothesis.bind fun _ => respects_pure _
      rintro (_ | ⟨trip, position⟩)
      · exact others none
      · exact (respects_board boards trip position _).bind others

theorem respects_boardStations
    (departure : Instant) (admits : Trip → Bool) (stations : List Station) :
    likeness.Respects (Search.boardStations catalogue departure admits stations) := by
  induction stations with
  | nil => exact respects_pure []
  | cons station rest hypothesis =>
      unfold Search.boardStations
      cases station.localDeparture? departure with
      | none => exact respects_throw _
      | some reached =>
          apply (respects_boardPatterns boards station reached admits _).bind
          intro handles
          exact hypothesis.bind fun _ => respects_pure _

omit boards in
theorem respects_byDeparture (handles : List Nat) :
    likeness.Respects (Search.byDeparture catalogue handles) := by
  refine respects_look (fun _ _ _ _ => rfl) ?_
  intro planner
  exact (respects_ofExcept _).bind fun _ => respects_pure _

theorem respects_embark
    (access : List Station) (departure : Instant) (admits : Trip → Bool) :
    likeness.Respects (Search.embark catalogue access departure admits) := by
  unfold Search.embark
  split
  · exact respects_throw_bind
  refine respects_look (fun _ _ _ _ => rfl) ?_
  intro planner
  dsimp only
  split
  · exact respects_throw_bind
  apply (respects_boardStations boards departure admits access).bind
  intro handles
  apply (respects_byDeparture handles).bind
  intro ordered
  apply (respects_record (boards (.departing departure access.length) trivial)).bind
  intro _
  exact respects_pure ordered

theorem respects_transferTo
    (handle : Nat) (ride : Ride) (call : Call) (origin : Position)
    (destinations : List Position) :
    likeness.Respects (Search.transferTo catalogue handle ride call origin destinations) := by
  induction destinations with
  | nil => exact respects_pure []
  | cons destination rest hypothesis =>
      apply (respects_ofExcept _).bind
      intro trip
      apply (respects_ofExcept _).bind
      intro boarding
      refine respects_look (fun _ _ _ _ => rfl) ?_
      intro planner
      have others : ∀ handle? : Option Nat, likeness.Respects (do
          return handle?.toList ++
            (← Search.transferTo catalogue handle ride call origin rest)) :=
        fun _ => hypothesis.bind fun _ => respects_pure _
      dsimp only
      split
      · apply (respects_record (boards (.transferring origin destination) trivial)).bind
        intro _
        exact (respects_board boards trip destination _).bind others
      · exact others none

theorem respects_transferFrom
    (handle : Nat) (ride : Ride) (trip : Trip) (alightings : List (Call × Nat)) :
    likeness.Respects
      (Search.transferFrom catalogue transfers handle ride trip alightings) := by
  induction alightings with
  | nil => exact respects_pure []
  | cons alighting rest hypothesis =>
      obtain ⟨call, place⟩ := alighting
      refine respects_look (fun _ _ _ _ => rfl) ?_
      intro planner
      split
      · apply (respects_transferTo boards handle ride call _ _).bind
        intro handles
        exact hypothesis.bind fun _ => respects_pure _
      · exact respects_pure []

theorem respects_transferAll (handles : List Nat) :
    likeness.Respects (Search.transferAll catalogue transfers handles) := by
  induction handles with
  | nil => exact respects_pure []
  | cons handle rest hypothesis =>
      apply (respects_ride handle).bind
      intro ride
      apply (respects_ofExcept _).bind
      intro trip
      apply (respects_transferFrom boards handle ride trip _).bind
      intro stored
      exact hypothesis.bind fun _ => respects_pure _

end Boarding

section Rounds

variable {likeness : Likeness entered} {catalogue : Catalogue} {transfers : TransferTable}

theorem respects_announce
    (announces : ∀ event : Event, event.IsAnnouncement → entered event) (round : Nat)
    (handles : List Nat) :
    likeness.Respects (Search.announce catalogue round handles) := by
  apply (respects_record (announces (.round round handles.length) trivial)).bind
  intro _
  apply respects_forM
  intro handle
  apply (respects_ride handle).bind
  intro ride
  cases catalogue.trip? ride.board.trip with
  | none => exact respects_pure ()
  | some trip => exact respects_record (announces _ trivial)

theorem respects_arrive
    {round : Nat} (arrives : ∀ event : Event, event.IsArrival round → entered event)
    (handle : Nat) (ride : Ride) (trip : Trip) (call : Call) (place : Nat)
    (egress : Station) :
    likeness.Respects
      (Search.arrive catalogue round handle ride trip call place egress) := by
  refine respects_look (fun _ _ _ _ => rfl) ?_
  intro planner
  refine respects_look (fun _ _ _ _ => rfl) ?_
  intro now
  split
  · apply (respects_modify fun one other alike =>
        alike_bounds alike fun bounds => bounds.tighten _).bind
    intro _
    refine respects_look (fun _ _ _ _ => rfl) ?_
    intro later
    apply (respects_ofExcept _).bind
    intro criteria
    apply (respects_modify ?_).bind
    · intro _
      exact respects_record (arrives _ rfl)
    · intro one other alike
      have changed := likeness.change alike one.bounds one.rides
        (one.frontier.insert
          { round, egress, alight := ⟨trip.index, place⟩, scheduled := call.arrival
            ride := handle, criteria })
      rw [likeness.eq_with alike] at changed ⊢
      exact changed
  · exact respects_record (arrives _ trivial)

theorem respects_arrivals
    {round : Nat} (arrives : ∀ event : Event, event.IsArrival round → entered event)
    (handles : List Nat) :
    likeness.Respects (Search.arrivals catalogue round handles) := by
  apply respects_forM
  intro handle
  apply (respects_ride handle).bind
  intro ride
  apply (respects_ofExcept _).bind
  intro trip
  refine respects_look (fun _ _ _ _ => rfl) ?_
  intro planner
  apply respects_forM
  rintro ⟨call, place⟩
  apply respects_forM
  intro egress
  exact respects_arrive arrives handle ride trip call place egress

/-- The rounds of a departure do the same on planners that are alike, if these may enter
whatever happens. -/
theorem respects_rounds (enters : ∀ event, entered event) (left round : Nat)
    (handles : List Nat) :
    likeness.Respects (Search.rounds catalogue transfers left round handles) := by
  induction left generalizing round handles with
  | zero =>
      unfold Search.rounds
      apply (respects_announce (fun event _ => enters event) round handles).bind
      intro _
      exact (respects_arrivals (fun event _ => enters event) handles).bind fun _ =>
        respects_pure ()
  | succ left hypothesis =>
      unfold Search.rounds
      apply (respects_announce (fun event _ => enters event) round handles).bind
      intro _
      apply (respects_arrivals (fun event _ => enters event) handles).bind
      intro _
      cases handles with
      | nil => exact respects_pure ()
      | cons handle rest =>
          exact (respects_transferAll (fun event _ => enters event) (handle :: rest)).bind
            fun next => hypothesis (round + 1) next

end Rounds

end Likeness

end Transit
