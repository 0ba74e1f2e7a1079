import Transit.Journey.Itinerary
import Transit.Proofs.Search.Likeness

/-!
# Nothing depends on the journal

Planners that differ at most in their journals do the same: a search gives the same value
or the same fault on either, and leaves planners behind that differ at most in their
journals again.  So what a planner will answer is settled by what it keeps besides its
journal, however it came there.
-/

namespace Transit

namespace Planner

/-- Two planners differ at most in their journals. -/
structure Matches (one other : Planner) : Prop where
  request : one.request = other.request
  settings : one.settings = other.settings
  bounds : one.bounds = other.bounds
  rides : one.rides = other.rides
  frontier : one.frontier = other.frontier

namespace Matches

variable {one other third : Planner}

theorem refl (planner : Planner) : planner.Matches planner :=
  ⟨rfl, rfl, rfl, rfl, rfl⟩

theorem symm (matched : one.Matches other) : other.Matches one :=
  ⟨matched.request.symm, matched.settings.symm, matched.bounds.symm, matched.rides.symm,
    matched.frontier.symm⟩

theorem trans (left : one.Matches other) (right : other.Matches third) : one.Matches third :=
  ⟨left.request.trans right.request, left.settings.trans right.settings,
    left.bounds.trans right.bounds, left.rides.trans right.rides,
    left.frontier.trans right.frontier⟩

/-- A planner that matches another is that one with its own journal. -/
theorem eq_with (matched : one.Matches other) : other = { one with journal := other.journal } := by
  obtain ⟨request, settings, bounds, rides, frontier⟩ := matched
  rw [request, settings, bounds, rides, frontier]

end Matches

theorem matches_enter (planner : Planner) (event : Event) :
    planner.Matches (planner.enter event) :=
  ⟨rfl, rfl, rfl, rfl, rfl⟩

end Planner

namespace Search

open Likeness

variable {catalogue : Catalogue} {transfers : TransferTable} {Value Other : Type}

/-- Two results give the same value or the same fault, and planners that match. -/
inductive Agree :
    EStateM.Result RoutingFault Planner Value → EStateM.Result RoutingFault Planner Value → Prop
  | ok {value one other} : Planner.Matches one other → Agree (.ok value one) (.ok value other)
  | error {fault one other} :
      Planner.Matches one other → Agree (.error fault one) (.error fault other)

/-- A search does the same on planners that match. -/
def IgnoresJournal (search : Search Value) : Prop :=
  ∀ one other : Planner, one.Matches other → Agree (search one) (search other)

/-- Planners that match are alike, whatever they enter. -/
def matching : Likeness (fun _ => True) where
  alike := Planner.Matches
  eq_with matched := by
    obtain ⟨request, settings, bounds, rides, frontier⟩ := matched
    rw [request, bounds, rides, frontier]
  change matched _ _ _ := ⟨matched.request, matched.settings, rfl, rfl, rfl⟩
  enter matched _ _ :=
    ⟨matched.request, matched.settings, matched.bounds, matched.rides, matched.frontier⟩

theorem ignoresJournal_of_respects {search : Search Value} (respects : matching.Respects search) :
    IgnoresJournal search := by
  intro one other matched
  have related := respects one other matched
  revert related
  generalize search one = first
  generalize search other = second
  rintro (matchedAfter | matchedAfter)
  · exact .ok matchedAfter
  · exact .error matchedAfter

/-- What follows a look at the planner may look at anything but the journal. -/
theorem matching_respects_look
    {next : Planner → Search Value}
    (blind : ∀ planner journal, next { planner with journal } = next planner)
    (rest : ∀ planner, matching.Respects (next planner)) :
    matching.Respects (get >>= next) := by
  apply respects_get_bind
  · intro one other matched
    rw [Planner.Matches.eq_with matched]
    exact blind one other.journal
  · exact rest

theorem matching_respects_depart
    (access : List Station) (departure : Instant) (admits : Trip → Bool) :
    matching.Respects (depart catalogue transfers access departure admits) := by
  rw [depart_eq_embark]
  apply (respects_embark (fun _ _ => trivial) access departure admits).bind
  intro handles
  refine matching_respects_look (fun _ _ => rfl) ?_
  intro now
  exact respects_rounds (fun _ => trivial) now.settings.rounds 0 handles

theorem matching_respects_check (request : Request) : matching.Respects (check request) := by
  unfold check
  cases request.fault? with
  | none => exact respects_pure ()
  | some fault => exact respects_throw _

theorem matching_respects_sweepWindow (step : Span) (times : Nat) :
    matching.Respects (sweepWindow catalogue transfers step times) := by
  induction times with
  | zero => exact respects_pure ()
  | succ times hypothesis =>
      refine matching_respects_look (fun _ _ => rfl) ?_
      intro planner
      dsimp only
      cases planner.request.start.add? planner.request.window with
      | none => exact respects_throw _
      | some departure =>
          apply (matching_respects_depart _ departure _).bind
          intro _
          apply (respects_modify ?_).bind
          · intro _
            exact hypothesis
          · intro one other matched
            refine ⟨?_, matched.settings, matched.bounds, matched.rides, matched.frontier⟩
            exact congrArg (fun request : Request =>
              { request with window := request.window - step }) matched.request

theorem matching_respects_sweep (request : Request) :
    matching.Respects (sweep catalogue transfers request) := by
  apply (matching_respects_check request).bind
  intro _
  refine matching_respects_look (fun _ _ => rfl) ?_
  intro planner
  apply (respects_ofExcept _).bind
  intro step
  apply (respects_modify ?_).bind
  · intro _
    apply (matching_respects_sweepWindow step _).bind
    intro _
    apply (matching_respects_depart _ _ _).bind
    intro _
    refine respects_look (fun _ _ _ _ => rfl) ?_
    intro now
    exact respects_record trivial
  · intro one other matched
    exact ⟨rfl, matched.settings, matched.bounds, matched.rides, matched.frontier⟩

theorem ignoresJournal_task (task : Task) : IgnoresJournal (task.search catalogue transfers) := by
  apply ignoresJournal_of_respects
  cases task with
  | depart access departure admits => exact matching_respects_depart access departure admits
  | sweep request => exact matching_respects_sweep request
  | sweepEach request =>
      apply (matching_respects_check request).bind
      intro _
      apply respects_forM
      intro station
      exact matching_respects_sweep (request.fromStation station)

end Search

namespace Planner

variable {catalogue : Catalogue} {transfers : TransferTable} {one other : Planner}

/-- Planners that match do a task alike. -/
theorem Matches.perform
    (matched : one.Matches other) (catalogue : Catalogue) (transfers : TransferTable)
    (task : Task) :
    (one.perform catalogue transfers task).1 = (other.perform catalogue transfers task).1 ∧
      (one.perform catalogue transfers task).2.Matches
        (other.perform catalogue transfers task).2 := by
  have agree : Search.Agree (task.search catalogue transfers one)
      (task.search catalogue transfers other) :=
    Search.ignoresJournal_task task one other matched
  unfold Planner.perform EStateM.run
  revert agree
  generalize task.search catalogue transfers one = first
  generalize task.search catalogue transfers other = second
  rintro (matchedAfter | matchedAfter)
  · exact ⟨rfl, matchedAfter⟩
  · exact ⟨rfl, matchedAfter⟩

/-- What a planner tells about a task: whether it succeeded, and afterwards the labels as
they were found and in the order of presentation, the itineraries in that order, and the
earliest arrival. -/
structure Answer where
  outcome : Except RoutingFault Unit
  labels : List Label
  ranked : List Label
  itineraries : List (Except RoutingFault Itinerary)
  earliest : Int
deriving DecidableEq

/-- The answer of a planner to a task. -/
def answer (planner : Planner) (catalogue : Catalogue) (transfers : TransferTable)
    (task : Task) : Answer :=
  let (outcome, after) := planner.perform catalogue transfers task
  { outcome, labels := after.frontier.labels, ranked := after.ranked
    itineraries := after.ranked.map (Itinerary.ofLabel catalogue after.rides)
    earliest := after.bounds.earliest }

/-- The answers of a planner to one task after the other. -/
def answers (planner : Planner) (catalogue : Catalogue) (transfers : TransferTable) :
    List Task → List Answer
  | [] => []
  | task :: rest =>
      planner.answer catalogue transfers task ::
        (planner.perform catalogue transfers task).2.answers catalogue transfers rest

/-- Planners that match answer alike, whatever they are asked and however often. -/
theorem Matches.answers_eq (matched : one.Matches other) (tasks : List Task) :
    one.answers catalogue transfers tasks = other.answers catalogue transfers tasks := by
  induction tasks generalizing one other with
  | nil => rfl
  | cons task rest hypothesis =>
      obtain ⟨outcome, after⟩ := matched.perform catalogue transfers task
      have first : one.answer catalogue transfers task = other.answer catalogue transfers task := by
        simp only [answer, ranked, outcome, after.frontier, after.rides, after.bounds]
      rw [answers, answers, first, hypothesis after]

end Planner

end Transit
