import Transit.Proofs.Search.Session

/-!
# The moments of a session

Between two tasks, and while it works on one, a planner goes through moments: each differs
from the one before by one step of an outing, or by the request that is asked.
`Planner.Evolves` says that a planner may become another one in this way.  It may become what
every session leaves, whether the tasks succeed or fail, and on the way there it goes through
a moment for every label it finds, at which this label is the newest.
-/

namespace Transit.Planner

/-- What happens between two moments. -/
inductive Moves (catalogue : Catalogue) (transfers : TransferTable) : Planner → Planner → Prop
  | step {outing before after} :
      Outing.Step outing catalogue transfers before after →
      Moves catalogue transfers before after
  | ask (planner request) : Moves catalogue transfers planner (planner.ask request)

/-- What a planner may become from one moment to the next, and so on. -/
def Evolves (catalogue : Catalogue) (transfers : TransferTable) (before after : Planner) : Prop :=
  Relation.ReflTransGen (Moves catalogue transfers) before after

variable
  {catalogue : Catalogue} {transfers : TransferTable} {start before after now : Planner}
  {label : Label}

theorem Moves.grows (moves : Moves catalogue transfers before after) : before.Grows after := by
  cases moves with
  | step step => exact step.grows
  | ask _ request => exact before.grows_ask request

/-- A label that has been found was found before or is the newest. -/
theorem Moves.mem_found
    (moves : Moves catalogue transfers before after) (member : label ∈ after.found) :
    label ∈ before.found ∨ after.found.getLast? = some label := by
  have known (same : after.found = before.found) : label ∈ before.found := by rwa [← same]
  cases moves with
  | ask _ _ => exact .inl member
  | step step =>
      cases step with
      | enter event quiet => exact .inl (known (before.found_enter_of_isQuiet quiet))
      | @cover trip position _ _ _ _ _ _ => exact .inl (known (before.found_cover trip position))
      | @board trip position _ _ ride _ _ _ _ =>
          exact .inl (known ((before.store ride).found_cover trip position))
      | pass _ _ => exact .inl (known (before.found_enter_passing _ _ _))
      | lose _ _ _ => exact .inl member
      | @find _ _ _ _ _ _ newest _ _ _ _ _ _ _ =>
          have longer := before.found_find newest
          rw [longer] at member
          rcases List.mem_append.mp member with old | new
          · exact .inl old
          · rw [List.mem_singleton.mp new, longer]
            exact .inr List.getLast?_concat

namespace Evolves

theorem refl (planner : Planner) : Evolves catalogue transfers planner planner :=
  Relation.ReflTransGen.refl

theorem trans (first : Evolves catalogue transfers start before)
    (second : Evolves catalogue transfers before after) :
    Evolves catalogue transfers start after :=
  Relation.ReflTransGen.trans first second

/-- What every step and every request keeps is kept from moment to moment. -/
theorem keeps
    {kept : Planner → Prop}
    (steps : ∀ outing before after, Outing.Step outing catalogue transfers before after →
      kept before → kept after)
    (asked : ∀ planner request, kept planner → kept (Planner.ask planner request))
    (evolves : Evolves catalogue transfers before after) (holds : kept before) :
    kept after := by
  induction evolves with
  | refl => exact holds
  | tail _ moves hypothesis =>
      cases moves with
      | step step => exact steps _ _ _ step hypothesis
      | ask _ request => exact asked _ request hypothesis

theorem grows (evolves : Evolves catalogue transfers before after) : before.Grows after := by
  induction evolves with
  | refl => exact .refl before
  | tail _ moves hypothesis => exact hypothesis.trans moves.grows

/-- There was a moment at which a label that was found since was the newest. -/
theorem exists_newest
    (evolves : Evolves catalogue transfers start now) (member : label ∈ now.found) :
    label ∈ start.found ∨
      ∃ moment, Evolves catalogue transfers start moment ∧
        Evolves catalogue transfers moment now ∧ moment.found.getLast? = some label := by
  induction evolves with
  | refl => exact .inl member
  | @tail before after reached moves hypothesis =>
      rcases moves.mem_found member with old | newest
      · rcases hypothesis old with older | ⟨moment, since, onward, newest⟩
        · exact .inl older
        · exact .inr ⟨moment, since, onward.tail moves, newest⟩
      · exact .inr ⟨after, reached.tail moves, .refl after, newest⟩

end Evolves

/-- A session goes from moment to moment, whether its tasks succeed or fail. -/
theorem evolves_performAll (planner : Planner) (tasks : List Task) :
    Evolves catalogue transfers planner (planner.performAll catalogue transfers tasks) := by
  apply performAll_keeps
  · intro outing before after step evolves
    exact evolves.tail (.step step)
  · intro now request evolves
    exact evolves.tail (.ask now request)
  · exact .refl planner

end Transit.Planner
