import Transit.Journey.Bounds
import Mathlib.Data.List.Basic

/-!
# Covering trips

Covering only ever lowers the call from which a trip is covered.  Where the trips of a
pattern are covered the earlier the later they run, the walk that stops early lowers
every trip of the pattern from the boarded one on to the minimum, and no other trip.
-/

namespace Transit.Bounds

theorem exists_lower_le
    (call : Nat) {calls : List Nat} {place known : Nat}
    (found : calls[place]? = some known) :
    ∃ lowered, (lower call calls)[place]? = some lowered ∧ lowered ≤ known := by
  induction calls generalizing place with
  | nil => simp at found
  | cons first rest hypothesis =>
      by_cases higher : call < first
      · rw [lower, if_pos higher]
        cases place with
        | zero =>
            have same : first = known := by simpa using found
            exact ⟨call, rfl, by omega⟩
        | succ place =>
            have inner : rest[place]? = some known := by simpa using found
            simpa using hypothesis inner
      · rw [lower, if_neg higher]
        exact ⟨known, found, Nat.le_refl known⟩

/-- The trips before the boarded one, the rest of its pattern, and the trips after. -/
theorem covered_split (calls : List Nat) (trip patternEnd : Nat) :
    (calls.take patternEnd).take trip ++ (calls.take patternEnd).drop trip ++
        calls.drop patternEnd =
      calls := by
  rw [List.take_append_drop, List.take_append_drop]

/-- A trip stays known, and is covered no later than before. -/
theorem exists_coveredFrom?_cover_le
    {bounds : Bounds} {index known : Nat}
    (trip patternEnd call : Nat)
    (found : bounds.coveredFrom? index = some known) :
    ∃ lowered,
      (bounds.cover trip patternEnd call).coveredFrom? index = some lowered ∧
        lowered ≤ known := by
  unfold coveredFrom? at found ⊢
  rw [← covered_split bounds.covered trip patternEnd] at found
  unfold cover
  simp only [List.append_assoc] at found ⊢
  by_cases before : index < ((bounds.covered.take patternEnd).take trip).length
  · rw [List.getElem?_append_left before] at found ⊢
    exact ⟨known, found, Nat.le_refl known⟩
  · have reached := Nat.le_of_not_lt before
    rw [List.getElem?_append_right reached] at found ⊢
    generalize index - ((bounds.covered.take patternEnd).take trip).length = place at found ⊢
    by_cases inside : place < ((bounds.covered.take patternEnd).drop trip).length
    · rw [List.getElem?_append_left inside] at found
      rw [List.getElem?_append_left (by rw [length_lower]; exact inside)]
      exact exists_lower_le call found
    · have beyond := Nat.le_of_not_lt inside
      rw [List.getElem?_append_right beyond] at found
      rw [List.getElem?_append_right (by rw [length_lower]; exact beyond), length_lower]
      exact ⟨known, found, Nat.le_refl known⟩

/-- A boarded trip is covered from the boarding on. -/
theorem exists_coveredFrom?_cover_self
    {bounds : Bounds} {trip patternEnd known : Nat} (call : Nat)
    (inside : trip < patternEnd)
    (found : bounds.coveredFrom? trip = some known) :
    ∃ lowered,
      (bounds.cover trip patternEnd call).coveredFrom? trip = some lowered ∧
        lowered ≤ call := by
  unfold coveredFrom? at found ⊢
  obtain ⟨present, same⟩ := List.getElem?_eq_some_iff.mp found
  have length : ((bounds.covered.take patternEnd).take trip).length = trip := by
    rw [List.length_take, List.length_take]
    omega
  have taken : trip < (bounds.covered.take patternEnd).length := by
    rw [List.length_take]
    omega
  have split :
      (bounds.covered.take patternEnd).drop trip =
        known :: (bounds.covered.take patternEnd).drop (trip + 1) := by
    rw [List.drop_eq_getElem_cons taken, List.getElem_take, same]
  unfold cover
  dsimp only
  rw [split, List.append_assoc, List.getElem?_append_right (by omega), length, Nat.sub_self]
  by_cases higher : call < known
  · rw [lower, if_pos higher]
    exact ⟨call, rfl, Nat.le_refl call⟩
  · rw [lower, if_neg higher]
    exact ⟨known, rfl, Nat.le_of_not_lt higher⟩

/-- The closed form of covering a pattern whose trips are covered the earlier the later
they run. -/
theorem coveredFrom?_cover
    {bounds : Bounds} {trip patternEnd : Nat} (call index : Nat)
    (falling :
      ((bounds.covered.take patternEnd).drop trip).Pairwise
        (fun earlier later => later ≤ earlier)) :
    (bounds.cover trip patternEnd call).coveredFrom? index =
      (bounds.coveredFrom? index).map fun known =>
        if trip ≤ index ∧ index < patternEnd then min call known else known := by
  unfold coveredFrom? cover
  dsimp only
  rw [lower_eq_map_min call falling]
  simp only [List.getElem?_append, List.getElem?_take, List.getElem?_drop,
    List.getElem?_map, List.length_append, List.length_map, List.length_take,
    List.length_drop]
  by_cases known : index < bounds.covered.length
  · rw [List.getElem?_eq_getElem known, Option.map_some]
    by_cases inside : trip ≤ index ∧ index < patternEnd
    · obtain ⟨reached, before⟩ := inside
      have place : trip + (index - min trip (min patternEnd bounds.covered.length)) = index := by
        omega
      rw [if_pos (show index < min trip (min patternEnd bounds.covered.length) +
          (min patternEnd bounds.covered.length - trip) by omega),
        if_neg (show ¬ index < min trip (min patternEnd bounds.covered.length) by omega),
        place, if_pos before, if_pos ⟨reached, before⟩, List.getElem?_eq_getElem known]
      rfl
    · rw [if_neg inside]
      by_cases first : index < min trip (min patternEnd bounds.covered.length)
      · rw [if_pos (by omega), if_pos first, if_pos (by omega), if_pos (by omega)]
      · have place :
            patternEnd +
                (index - (min trip (min patternEnd bounds.covered.length) +
                  (min patternEnd bounds.covered.length - trip))) =
              index := by
          omega
        rw [if_neg (by omega), place, List.getElem?_eq_getElem known]
  · have missing : bounds.covered[index]? = none :=
      List.getElem?_eq_none (Nat.le_of_not_lt known)
    rw [missing, Option.map_none, if_neg (by omega)]
    exact List.getElem?_eq_none (by omega)

end Transit.Bounds
