/-!
# Stable arrangement

`arrange` puts the entries of a list into the order of a comparison and leaves
entries that the comparison does not tell apart in the order they came in.  It is
plain insertion, a recursion over the list, so that it runs without Mathlib and is
evaluated in proofs; its laws are those of `List.insertionSort`, which it is equal to.
`dropRepeats` removes neighbouring equals, which on an arranged list removes all
repeats.
-/

namespace Transit.Order

universe u

variable {Entry : Type u}

/-- Put an entry before the first one it may precede. -/
def insert (mayPrecede : Entry → Entry → Bool) (entry : Entry) : List Entry → List Entry
  | [] => [entry]
  | next :: rest =>
      if mayPrecede entry next then entry :: next :: rest
      else next :: insert mayPrecede entry rest

/-- The entries in the order of `mayPrecede`, ties in the order they came in. -/
def arrange (mayPrecede : Entry → Entry → Bool) : List Entry → List Entry
  | [] => []
  | entry :: rest => insert mayPrecede entry (arrange mayPrecede rest)

/-- Keep the first of every run of equal neighbours. -/
def dropRepeats [DecidableEq Entry] : List Entry → List Entry
  | [] => []
  | [entry] => [entry]
  | entry :: next :: rest =>
      if entry = next then dropRepeats (next :: rest)
      else entry :: dropRepeats (next :: rest)

/-- Dropping repeats only leaves entries out. -/
theorem dropRepeats_sublist [DecidableEq Entry] (entries : List Entry) :
    (dropRepeats entries).Sublist entries := by
  induction entries with
  | nil => exact .slnil
  | cons entry rest hypothesis =>
      cases rest with
      | nil => exact .refl _
      | cons next rest =>
          simp only [dropRepeats]
          split
          · exact hypothesis.cons entry
          · exact hypothesis.cons_cons entry

/-- Dropping repeats loses no entry. -/
@[simp]
theorem mem_dropRepeats [DecidableEq Entry] (entries : List Entry) (entry : Entry) :
    entry ∈ dropRepeats entries ↔ entry ∈ entries := by
  refine ⟨fun member => (dropRepeats_sublist entries).subset member, fun member => ?_⟩
  induction entries with
  | nil => cases member
  | cons known rest hypothesis =>
      cases rest with
      | nil => exact member
      | cons next rest =>
          simp only [dropRepeats]
          split
          case isTrue same =>
            subst same
            rcases List.mem_cons.mp member with rfl | member
            · exact hypothesis List.mem_cons_self
            · exact hypothesis member
          case isFalse =>
            rcases List.mem_cons.mp member with rfl | member
            · exact List.mem_cons_self
            · exact List.mem_cons_of_mem known (hypothesis member)

/-- In an ordered list equal entries are neighbours, so that dropping repeats leaves each entry
once. -/
theorem pairwise_dropRepeats [DecidableEq Entry] {precedes : Entry → Entry → Prop}
    (antisymm : ∀ first second, precedes first second → precedes second first → first = second)
    {entries : List Entry} (ordered : entries.Pairwise precedes) :
    (dropRepeats entries).Pairwise fun first second => precedes first second ∧ first ≠ second := by
  induction entries with
  | nil => exact .nil
  | cons entry rest hypothesis =>
      obtain ⟨above, inner⟩ := List.pairwise_cons.mp ordered
      cases rest with
      | nil => exact List.pairwise_singleton _ entry
      | cons next rest =>
          simp only [dropRepeats]
          split
          case isTrue => exact hypothesis inner
          case isFalse different =>
            refine List.pairwise_cons.mpr ⟨fun later member => ?_, hypothesis inner⟩
            rw [mem_dropRepeats] at member
            refine ⟨above later member, ?_⟩
            rintro rfl
            rcases List.mem_cons.mp member with same | member
            · exact different same
            · have before := above next List.mem_cons_self
              have after := (List.pairwise_cons.mp inner).1 entry member
              exact different (antisymm entry next before after)

/-- Without their repeats, ordered lists of the same entries are the same. -/
theorem dropRepeats_eq_of_mem_iff [DecidableEq Entry] {precedes : Entry → Entry → Prop}
    (antisymm : ∀ first second, precedes first second → precedes second first → first = second)
    {entries others : List Entry}
    (ordered : entries.Pairwise precedes) (ordered' : others.Pairwise precedes)
    (same : ∀ entry, entry ∈ entries ↔ entry ∈ others) :
    dropRepeats entries = dropRepeats others := by
  have strict := pairwise_dropRepeats antisymm ordered
  have strict' := pairwise_dropRepeats antisymm ordered'
  have perm : (dropRepeats entries).Perm (dropRepeats others) := by
    apply (List.perm_ext_iff_of_nodup (strict.imp And.right) (strict'.imp And.right)).mpr
    intro entry
    rw [mem_dropRepeats, mem_dropRepeats, same]
  exact perm.eq_of_pairwise
    (fun first second _ _ before after => antisymm first second before.1 after.1) strict strict'

end Transit.Order
