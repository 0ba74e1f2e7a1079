/-!
# Bounds of a search

Two kinds of bound cut a search down, and both only ever tighten.  The first is the
earliest weighted arrival found so far.  The second says for every trip from which
call on it is covered: boarding a trip covers the calls from there on, for the trip
itself and for the later trips of its pattern.
-/

namespace Transit

/-- The call from which a trip is covered that has not been boarded. -/
def nowhere : Nat := 18446744073709551615

/-- The bounds of a search over indexed trips. -/
structure Bounds where
  /-- The earliest weighted arrival so far. -/
  earliest : Int
  /-- For each trip, the first call that is covered. -/
  covered : List Nat
deriving DecidableEq

namespace Bounds

/-- The weighted arrival that any arrival is meant to beat. -/
def latest : Int := 9223372036854775807

/-- Nothing is found and nothing covered. -/
def fresh (tripCount : Nat) : Bounds := ⟨latest, List.replicate tripCount nowhere⟩

/-- Whether an arrival is earlier than all so far. -/
def improves (bounds : Bounds) (arrival : Int) : Bool := arrival < bounds.earliest

/-- The bounds after an arrival. -/
def tighten (bounds : Bounds) (arrival : Int) : Bounds :=
  { bounds with earliest := min arrival bounds.earliest }

/-- The first covered call of a trip, if the trip is known. -/
def coveredFrom? (bounds : Bounds) (trip : Nat) : Option Nat := bounds.covered[trip]?

/-- Lower a run of calls to `call`, up to the first that is as low already. -/
def lower (call : Nat) : List Nat → List Nat
  | [] => []
  | known :: rest => if call < known then call :: lower call rest else known :: rest

/-- Cover a trip from `call` on, and with it the later trips of its pattern, whose
first trip afterwards is `patternEnd`.  A trip that is covered as far stops the walk,
for then the trips after it are covered as far too. -/
def cover (bounds : Bounds) (trip patternEnd call : Nat) : Bounds :=
  let reach := bounds.covered.take patternEnd
  { bounds with
    covered := reach.take trip ++ lower call (reach.drop trip) ++ bounds.covered.drop patternEnd }

@[simp]
theorem lower_nil (call : Nat) : lower call [] = [] := rfl

@[simp]
theorem length_lower (call : Nat) (calls : List Nat) :
    (lower call calls).length = calls.length := by
  induction calls with
  | nil => rfl
  | cons known rest hypothesis =>
      simp only [lower]
      split <;> simp [hypothesis]

/-- Lowering a run that never rises lowers every call of it. -/
theorem lower_eq_map_min (call : Nat) {calls : List Nat}
    (falling : calls.Pairwise (fun earlier later => later ≤ earlier)) :
    lower call calls = calls.map (min call) := by
  induction calls with
  | nil => rfl
  | cons known rest hypothesis =>
      obtain ⟨below, inner⟩ := List.pairwise_cons.mp falling
      simp only [lower, List.map_cons]
      split
      case isTrue higher =>
        rw [hypothesis inner, Nat.min_eq_left (Nat.le_of_lt higher)]
      case isFalse low =>
        have reached : known ≤ call := Nat.le_of_not_lt low
        have unchanged : rest.map (min call) = rest :=
          calc
            rest.map (min call) = rest.map id := List.map_congr_left fun later member =>
              Nat.min_eq_right (Nat.le_trans (below later member) reached)
            _ = rest := List.map_id rest
        rw [unchanged, Nat.min_eq_right reached]

/-- No trip is forgotten. -/
@[simp]
theorem length_cover (bounds : Bounds) (trip patternEnd call : Nat) :
    (bounds.cover trip patternEnd call).covered.length = bounds.covered.length := by
  simp only [cover, List.length_append, length_lower, List.length_take, List.length_drop]
  omega

@[simp]
theorem earliest_cover (bounds : Bounds) (trip patternEnd call : Nat) :
    (bounds.cover trip patternEnd call).earliest = bounds.earliest := rfl

@[simp]
theorem covered_tighten (bounds : Bounds) (arrival : Int) :
    (bounds.tighten arrival).covered = bounds.covered := rfl

/-- An arrival that does not improve leaves the bounds as they are. -/
theorem tighten_of_not_improves {bounds : Bounds} {arrival : Int}
    (notEarlier : bounds.improves arrival = false) : bounds.tighten arrival = bounds := by
  have reached : bounds.earliest ≤ arrival := by simpa [improves] using notEarlier
  simp [tighten, Int.min_eq_right reached]

theorem earliest_tighten_of_improves {bounds : Bounds} {arrival : Int}
    (earlier : bounds.improves arrival = true) : (bounds.tighten arrival).earliest = arrival := by
  have below : arrival < bounds.earliest := by simpa [improves] using earlier
  exact Int.min_eq_left (Int.le_of_lt below)

end Bounds

end Transit
