import Transit.Text.Blank

/-!
# Stops

The name of a stop is unique only within the feed that uses it, so a stop is known
by the name of its feed together with its own.  Neither name may be blank.
-/

namespace Transit

/-- Why two names are no stop. -/
inductive StopFault where
  | feed
  | stop
deriving DecidableEq

/-- The wording of a fault. -/
def StopFault.message : StopFault → String
  | .feed => "invalid stop id: feed id must not be empty"
  | .stop => "invalid stop id: stop id must not be empty"

/-- A stop with the feed that names it. -/
structure Stop where
  feed : String
  name : String
  feed_named : ¬ Text.IsBlankText feed
  name_named : ¬ Text.IsBlankText name
deriving DecidableEq

namespace Stop

/-- The stop of two names; of two blank names the feed's is at fault. -/
def make (feed name : String) : Except StopFault Stop :=
  if feedBlank : Text.IsBlankText feed then .error .feed
  else if nameBlank : Text.IsBlankText name then .error .stop
  else .ok ⟨feed, name, feedBlank, nameBlank⟩

/-- Whether this is the stop that `feed` calls `name`. -/
def isNamed (stop : Stop) (feed name : String) : Bool :=
  stop.feed == feed && stop.name == name

/-- Order by feed and then by name, both by code points. -/
def mayPrecede (first second : Stop) : Bool :=
  first.feed < second.feed || (first.feed == second.feed && first.name ≤ second.name)

/-- Feed and name joined by a colon. -/
def text (stop : Stop) : String := s!"{stop.feed}:{stop.name}"

/-- The form for inspection. -/
def describe (stop : Stop) : String := s!"FeedStopId({stop.text})"

@[simp]
theorem isNamed_iff (stop : Stop) (feed name : String) :
    stop.isNamed feed name = true ↔ stop.feed = feed ∧ stop.name = name := by
  simp [isNamed]

/-- Making a stop gives the stop of those names and nothing else. -/
theorem make_eq_ok_iff (feed name : String) (stop : Stop) :
    make feed name = .ok stop ↔ stop.feed = feed ∧ stop.name = name := by
  constructor
  · intro made
    unfold make at made
    split at made
    case isTrue => cases made
    case isFalse =>
      split at made
      case isTrue => cases made
      case isFalse =>
        cases made
        exact ⟨rfl, rfl⟩
  · rintro ⟨rfl, rfl⟩
    simp [make, stop.feed_named, stop.name_named]

/-- Two names make a stop unless one of them is blank. -/
theorem exists_make_eq_ok_iff (feed name : String) :
    (∃ stop, make feed name = .ok stop) ↔
      ¬ Text.IsBlankText feed ∧ ¬ Text.IsBlankText name := by
  constructor
  · rintro ⟨stop, made⟩
    obtain ⟨rfl, rfl⟩ := (make_eq_ok_iff feed name stop).mp made
    exact ⟨stop.feed_named, stop.name_named⟩
  · rintro ⟨feedNamed, nameNamed⟩
    exact ⟨⟨feed, name, feedNamed, nameNamed⟩, (make_eq_ok_iff feed name _).mpr ⟨rfl, rfl⟩⟩

end Stop

end Transit
