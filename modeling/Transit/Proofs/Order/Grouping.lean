import Transit.Order.Grouping
import Mathlib.Data.List.Induction

/-!
# The groups of pairs

Grouping pairs opens one group for every key, and gathers in it the values of all pairs
of that key, in the order of the pairs.
-/

namespace Transit.Grouping

universe u v

variable {Key : Type u} {Value : Type v} [DecidableEq Key]

theorem map_fst_add (groups : Grouping Key Value) (key : Key) (value : Value) :
    (groups.add key value).map Prod.fst =
      if key ∈ groups.map Prod.fst then groups.map Prod.fst
      else groups.map Prod.fst ++ [key] := by
  induction groups with
  | nil => simp [add]
  | cons group rest hypothesis =>
      obtain ⟨known, values⟩ := group
      by_cases same : known = key
      · simp [add, same]
      · rw [add, if_neg same, List.map_cons, hypothesis]
        by_cases seen : key ∈ rest.map Prod.fst
        · simp [seen]
        · simp [seen, Ne.symm same]

theorem mem_of_find? {groups : Grouping Key Value} {key : Key} {values : List Value}
    (found : groups.find? key = some values) :
    (key, values) ∈ groups := by
  induction groups with
  | nil => cases found
  | cons group rest hypothesis =>
      obtain ⟨known, gathered⟩ := group
      by_cases same : known = key
      · rw [find?, if_pos same] at found
        cases found
        rw [same]
        exact List.mem_cons_self
      · rw [find?, if_neg same] at found
        exact List.mem_cons_of_mem _ (hypothesis found)

/-- Where every key has one group, that group is found. -/
theorem find?_of_mem
    {groups : Grouping Key Value} {key : Key} {values : List Value}
    (distinct : (groups.map Prod.fst).Nodup) (member : (key, values) ∈ groups) :
    groups.find? key = some values := by
  induction groups with
  | nil => cases member
  | cons group rest hypothesis =>
      obtain ⟨known, gathered⟩ := group
      rw [List.map_cons, List.nodup_cons] at distinct
      obtain ⟨fresh, distinct⟩ := distinct
      rcases List.mem_cons.mp member with same | later
      · cases same
        rw [find?, if_pos rfl]
      · have other : known ≠ key := by
          rintro rfl
          exact fresh (List.mem_map.mpr ⟨(known, values), later, rfl⟩)
        rw [find?, if_neg other]
        exact hypothesis distinct later

theorem ofPairs_concat (pairs : List (Key × Value)) (pair : Key × Value) :
    ofPairs (pairs ++ [pair]) = (ofPairs pairs).add pair.1 pair.2 := by
  rw [ofPairs, List.foldl_append]
  rfl

theorem nodup_ofPairs (pairs : List (Key × Value)) :
    ((ofPairs pairs).map Prod.fst).Nodup := by
  induction pairs using List.reverseRecOn with
  | nil => exact .nil
  | append_singleton pairs pair hypothesis =>
      rw [ofPairs_concat, map_fst_add]
      by_cases seen : pair.1 ∈ (ofPairs pairs).map Prod.fst
      · rw [if_pos seen]
        exact hypothesis
      · rw [if_neg seen]
        apply List.nodup_append.mpr
        refine ⟨hypothesis, by simp, ?_⟩
        intro key known other same
        rw [List.mem_singleton.mp same]
        rintro rfl
        exact seen known

/-- The keys of the groups are those of the pairs, each where it is first seen. -/
theorem map_fst_ofPairs [BEq Key] [LawfulBEq Key] (pairs : List (Key × Value)) :
    (ofPairs pairs).map Prod.fst = (pairs.map Prod.fst).eraseDups := by
  induction pairs using List.reverseRecOn with
  | nil => rfl
  | append_singleton pairs pair hypothesis =>
      rw [ofPairs_concat, map_fst_add, hypothesis, List.map_append, List.eraseDups_append]
      by_cases seen : pair.1 ∈ pairs.map Prod.fst
      · rw [if_pos (List.mem_eraseDups.mpr seen)]
        simp [List.removeAll, seen]
      · rw [if_neg fun known => seen (List.mem_eraseDups.mp known)]
        simp [List.removeAll, seen, List.eraseDups_cons]

theorem find?_ofPairs (pairs : List (Key × Value)) (key : Key) :
    (ofPairs pairs).find? key =
      if key ∈ pairs.map Prod.fst then
        some ((pairs.filter (·.1 = key)).map Prod.snd)
      else none := by
  induction pairs using List.reverseRecOn with
  | nil => rfl
  | append_singleton pairs pair hypothesis =>
      rw [ofPairs_concat, find?_add, List.map_append, List.filter_append]
      by_cases same : key = pair.1
      · subst same
        rw [hypothesis]
        by_cases seen : pair.1 ∈ pairs.map Prod.fst
        · simp [seen]
        · have unused : pairs.filter (·.1 = pair.1) = [] := by
            rw [List.filter_eq_nil_iff]
            intro other member
            have different : other.1 ≠ pair.1 := fun equal =>
              seen (List.mem_map.mpr ⟨other, member, equal⟩)
            simpa using different
          simp [seen, unused]
      · rw [if_neg same, hypothesis]
        by_cases seen : key ∈ pairs.map Prod.fst
        · rw [if_pos seen, if_pos (List.mem_append_left _ seen)]
          simp [Ne.symm same]
        · rw [if_neg seen, if_neg (by simp [same] at seen ⊢; exact seen)]

/-- The groups are those of the keys of pairs, with the values of all pairs of the key. -/
theorem mem_ofPairs {pairs : List (Key × Value)} {key : Key} {values : List Value} :
    (key, values) ∈ ofPairs pairs ↔
      key ∈ pairs.map Prod.fst ∧ values = (pairs.filter (·.1 = key)).map Prod.snd := by
  have found_iff :
      (key, values) ∈ ofPairs pairs ↔ (ofPairs pairs).find? key = some values :=
    ⟨find?_of_mem (nodup_ofPairs pairs), mem_of_find?⟩
  rw [found_iff, find?_ofPairs]
  by_cases seen : key ∈ pairs.map Prod.fst
  · simp [seen, eq_comm]
  · simp [seen]

theorem flatMap_snd_add (groups : Grouping Key Value) (key : Key) (value : Value) :
    ((groups.add key value).flatMap Prod.snd).Perm (value :: groups.flatMap Prod.snd) := by
  induction groups with
  | nil => exact .refl _
  | cons group rest hypothesis =>
      obtain ⟨known, values⟩ := group
      rw [add]
      split
      · rw [List.flatMap_cons, List.append_assoc, List.singleton_append]
        exact List.perm_middle
      · rw [List.flatMap_cons]
        exact (hypothesis.append_left values).trans List.perm_middle

/-- Grouping loses no value and repeats none. -/
theorem flatMap_snd_ofPairs (pairs : List (Key × Value)) :
    ((ofPairs pairs).flatMap Prod.snd).Perm (pairs.map Prod.snd) := by
  induction pairs using List.reverseRecOn with
  | nil => exact .refl _
  | append_singleton pairs pair hypothesis =>
      rw [ofPairs_concat, List.map_append]
      apply (flatMap_snd_add _ pair.1 pair.2).trans
      exact (hypothesis.cons pair.2).trans (List.perm_append_singleton _ _).symm

end Transit.Grouping
