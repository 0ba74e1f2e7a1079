import Transit.Order.Arrange
import Mathlib.Data.List.Sort
import Mathlib.Data.List.TakeWhile

/-!
# The laws of stable arrangement

Arranging is insertion sort, so that its laws are those of `List.insertionSort`: it only
reorders, and for a total and transitive comparison the result is in order.  Entries that the
comparison does not tell apart stay in the order they came in, since a sublist that is in
order already is a sublist of the result.
-/

namespace Transit.Order

universe u

variable {Entry : Type u} {mayPrecede : Entry → Entry → Bool} {entries : List Entry}

theorem insert_eq_orderedInsert
    (mayPrecede : Entry → Entry → Bool) (entry : Entry) (entries : List Entry) :
    insert mayPrecede entry entries =
      entries.orderedInsert (fun first second => mayPrecede first second = true) entry := by
  induction entries with
  | nil => rfl
  | cons next rest hypothesis => rw [insert, hypothesis, List.orderedInsert_cons]

theorem arrange_eq_insertionSort
    (mayPrecede : Entry → Entry → Bool) (entries : List Entry) :
    arrange mayPrecede entries =
      entries.insertionSort fun first second => mayPrecede first second = true := by
  induction entries with
  | nil => rfl
  | cons entry rest hypothesis =>
      rw [arrange, hypothesis, insert_eq_orderedInsert, List.insertionSort_cons]

/-- Arranging only reorders. -/
theorem arrange_perm (mayPrecede : Entry → Entry → Bool) (entries : List Entry) :
    (arrange mayPrecede entries).Perm entries := by
  rw [arrange_eq_insertionSort]
  exact List.perm_insertionSort _ entries

@[simp]
theorem mem_arrange (mayPrecede : Entry → Entry → Bool) (entries : List Entry)
    (entry : Entry) : entry ∈ arrange mayPrecede entries ↔ entry ∈ entries :=
  (arrange_perm mayPrecede entries).mem_iff

/-- Entries of which none may precede a later one are turned around. -/
theorem arrange_eq_reverse
    (backward : entries.Pairwise fun earlier later => mayPrecede earlier later = false) :
    arrange mayPrecede entries = entries.reverse := by
  induction entries with
  | nil => rfl
  | cons entry rest hypothesis =>
      obtain ⟨last, inner⟩ := List.pairwise_cons.mp backward
      have follows : ∀ next ∈ rest.reverse, ¬ mayPrecede entry next = true := by
        intro next member
        rw [last next (List.mem_reverse.mp member)]
        exact Bool.false_ne_true
      rw [arrange, hypothesis inner, insert_eq_orderedInsert, List.orderedInsert_eq_take_drop,
        List.takeWhile_eq_self_iff.mpr (by simpa using follows),
        List.dropWhile_eq_nil_iff.mpr (by simpa using follows), List.reverse_cons]

section Ordered

variable
  (total : ∀ first second, mayPrecede first second ∨ mayPrecede second first)
  (transitive : ∀ first second third, mayPrecede first second →
    mayPrecede second third → mayPrecede first third)
include total transitive

/-- For a total and transitive comparison the arranged list is in order. -/
theorem pairwise_arrange (entries : List Entry) :
    (arrange mayPrecede entries).Pairwise
      (fun first second => mayPrecede first second) := by
  have : Std.Total fun first second => mayPrecede first second = true := ⟨total⟩
  have : IsTrans Entry fun first second => mayPrecede first second = true := ⟨transitive⟩
  rw [arrange_eq_insertionSort]
  exact List.pairwise_insertionSort _ entries

/-- The entries of a class that the comparison does not tell apart stay as they came in. -/
theorem filter_arrange_of_tied
    {tied : Entry → Bool}
    (alike : ∀ first second, tied first → tied second → mayPrecede first second)
    (entries : List Entry) :
    (arrange mayPrecede entries).filter tied = entries.filter tied := by
  have : Std.Total fun first second => mayPrecede first second = true := ⟨total⟩
  have : IsTrans Entry fun first second => mayPrecede first second = true := ⟨transitive⟩
  have ordered : (entries.filter tied).Pairwise
      fun first second => mayPrecede first second = true := by
    rw [List.pairwise_filter]
    exact List.pairwise_of_forall fun first second here there => alike first second here there
  have within : (entries.filter tied).Sublist (arrange mayPrecede entries) := by
    rw [arrange_eq_insertionSort]
    exact List.sublist_insertionSort ordered List.filter_sublist
  have inside := within.filter tied
  simp only [List.filter_filter, Bool.and_self] at inside
  exact (inside.eq_of_length ((arrange_perm mayPrecede entries).filter tied).length_eq.symm).symm

/-- For a total and transitive comparison the arranged list is in order, and ties are in the
order they came in. -/
theorem pairwise_arrange_of_pairwise
    {came : Entry → Entry → Prop} (order : entries.Pairwise came) :
    (arrange mayPrecede entries).Pairwise fun first second =>
      mayPrecede first second ∧ (mayPrecede second first → came first second) := by
  rw [List.pairwise_iff_forall_sublist]
  intro first second within
  have precedes : mayPrecede first second := by
    have ordered := (pairwise_arrange total transitive entries).sublist within
    exact List.rel_of_pairwise_cons ordered (List.mem_singleton_self second)
  refine ⟨precedes, fun back => ?_⟩
  -- Both entries are of the class that ties with the first.
  let tied (entry : Entry) : Bool := mayPrecede first entry && mayPrecede entry first
  have alike : ∀ one other, tied one → tied other → mayPrecede one other := by
    intro one other here there
    simp only [tied, Bool.and_eq_true] at here there
    exact transitive _ _ _ here.2 there.1
  have reflexive : mayPrecede first first := (total first first).elim id id
  have kept := within.filter tied
  rw [filter_arrange_of_tied total transitive alike] at kept
  have both : [first, second].filter tied = [first, second] := by
    simp [tied, precedes, back, reflexive]
  rw [both] at kept
  have came_in := order.sublist (kept.trans List.filter_sublist)
  exact List.rel_of_pairwise_cons came_in (List.mem_singleton_self second)

end Ordered

end Transit.Order
