/-!
# Grouping by key

A grouping gathers values under keys.  The keys stand in the order in which they
were first seen, and under each key the values stand in the order in which they
were added.
-/

namespace Transit

universe u v

/-- Values gathered under keys, both in order of arrival. -/
abbrev Grouping (Key : Type u) (Value : Type v) := List (Key × List Value)

namespace Grouping

variable {Key : Type u} {Value : Type v} [DecidableEq Key]

/-- Add a value under a key, opening the key's group at the end if it is new. -/
def add (key : Key) (value : Value) : Grouping Key Value → Grouping Key Value
  | [] => [(key, [value])]
  | (known, values) :: rest =>
      if known = key then (known, values ++ [value]) :: rest
      else (known, values) :: add key value rest

/-- The values under a key, if the key has been seen. -/
def find? (key : Key) : Grouping Key Value → Option (List Value)
  | [] => none
  | (known, values) :: rest =>
      if known = key then some values else find? key rest

/-- Group pairs of a key and a value. -/
def ofPairs (pairs : List (Key × Value)) : Grouping Key Value :=
  pairs.foldl (fun groups pair => groups.add pair.1 pair.2) []

@[simp]
theorem find?_nil (key : Key) : find? key ([] : Grouping Key Value) = none := rfl

/-- Adding a value lengthens the group of its key and no other. -/
theorem find?_add (groups : Grouping Key Value) (key other : Key) (value : Value) :
    (groups.add key value).find? other =
      if other = key then some ((groups.find? key).getD [] ++ [value])
      else groups.find? other := by
  induction groups with
  | nil =>
      by_cases same : other = key
      · simp [add, find?, same]
      · simp [add, find?, same, Ne.symm same]
  | cons group rest hypothesis =>
      obtain ⟨known, values⟩ := group
      by_cases here : known = key
      · subst here
        by_cases same : other = known
        · simp [add, find?, same]
        · simp [add, find?, same, Ne.symm same]
      · by_cases same : known = other
        · subst same
          simp [add, find?, here]
        · simp [add, find?, here, same, hypothesis]

end Grouping

end Transit
