import Transit.Proofs.Search.Session

/-!
# The frontier is the Pareto set of all labels found

A label enters the frontier only when its arrival is earlier than the bound, and the
bound is no later than any label found before.  The arrivals of the labels found
therefore fall strictly, so that no label covers a later one, and dropping what each new
label covers leaves the labels that no other label covers.

This holds for every catalogue and every transfer table, after every session.
-/

namespace Transit

namespace Label

/-- The labels of a list that no other label of the list covers. -/
def pareto (labels : List Label) : List Label :=
  labels.filter fun label =>
    ∀ other ∈ labels, other ≠ label → ¬ other.criteria.Covers label.criteria

theorem mem_pareto {labels : List Label} {label : Label} :
    label ∈ pareto labels ↔
      label ∈ labels ∧
        ∀ other ∈ labels, other ≠ label → ¬ other.criteria.Covers label.criteria := by
  simp [pareto]

/-- A label that arrives earlier than all others joins their Pareto set and drops from
it what it covers. -/
theorem pareto_concat
    {labels : List Label} {label : Label}
    (earlier : ∀ known ∈ labels, label.criteria.arrival < known.criteria.arrival) :
    pareto (labels ++ [label]) =
      (pareto labels).filter (fun known => ¬ label.criteria.Covers known.criteria) ++
        [label] := by
  have last :
      ∀ other ∈ labels ++ [label], other ≠ label →
        ¬ other.criteria.Covers label.criteria := by
    intro other member different covers
    rcases List.mem_append.mp member with known | same
    · have before := earlier other known
      have after := covers.1
      omega
    · exact different (List.mem_singleton.mp same)
  rw [pareto, List.filter_append, pareto, List.filter_filter]
  congr 1
  · apply List.filter_congr
    intro known member
    have different : label ≠ known := by
      rintro rfl
      exact Int.lt_irrefl _ (earlier label member)
    rw [← Bool.decide_and, decide_eq_decide]
    constructor
    · intro uncovered
      refine ⟨uncovered label (by simp) different, ?_⟩
      intro other otherMember
      exact uncovered other (List.mem_append_left _ otherMember)
    · rintro ⟨notByLast, uncovered⟩ other otherMember otherDifferent
      rcases List.mem_append.mp otherMember with before | same
      · exact uncovered other before otherDifferent
      · rw [List.mem_singleton.mp same]
        exact notByLast
  · rw [List.filter_cons_of_pos (by simpa using last), List.filter_nil]

end Label

namespace Planner

/-- What ties the frontier and the bound to the labels found. -/
structure IsPareto (planner : Planner) : Prop where
  falling : planner.found.Pairwise fun earlier later =>
    later.criteria.arrival < earlier.criteria.arrival
  bound : ∀ label ∈ planner.found, planner.bounds.earliest ≤ label.criteria.arrival
  labels_eq : planner.frontier.labels = Label.pareto planner.found
  covered : ∀ label ∈ planner.found, ∃ kept ∈ planner.frontier.labels,
    kept.criteria.Covers label.criteria

theorem IsPareto.mem_found
    {planner : Planner} (pareto : planner.IsPareto) {label : Label}
    (member : label ∈ planner.frontier.labels) : label ∈ planner.found := by
  rw [pareto.labels_eq] at member
  exact (Label.mem_pareto.mp member).1

theorem isPareto_fresh
    (catalogue : Catalogue) (request : Request) (settings : Settings) :
    (fresh catalogue request settings).IsPareto where
  falling := .nil
  bound _ member := by cases member
  labels_eq := rfl
  covered _ member := by cases member

/-- A planner with the same labels and no later bound is as good. -/
theorem IsPareto.of_found_eq
    {before after : Planner} (pareto : before.IsPareto)
    (found : after.found = before.found) (frontier : after.frontier = before.frontier)
    (earliest : after.bounds.earliest ≤ before.bounds.earliest) :
    after.IsPareto where
  falling := by
    rw [found]
    exact pareto.falling
  bound label member := by
    rw [found] at member
    exact Int.le_trans earliest (pareto.bound label member)
  labels_eq := by
    rw [found, frontier]
    exact pareto.labels_eq
  covered label member := by
    rw [found] at member
    rw [frontier]
    exact pareto.covered label member

/-- Finding a label earlier than the bound keeps the frontier the Pareto set. -/
theorem IsPareto.find
    {planner : Planner} (pareto : planner.IsPareto) {label : Label}
    (improves : planner.bounds.improves label.criteria.arrival = true) :
    (planner.find label).IsPareto := by
  have below : label.criteria.arrival < planner.bounds.earliest := by
    simpa [Bounds.improves] using improves
  have earlier : ∀ known ∈ planner.found,
      label.criteria.arrival < known.criteria.arrival :=
    fun known member => Int.lt_of_lt_of_le below (pareto.bound known member)
  refine ⟨?_, ?_, ?_, ?_⟩
  · rw [found_find, List.pairwise_append]
    refine ⟨pareto.falling, List.pairwise_singleton _ _, ?_⟩
    intro known member later same
    rw [List.mem_singleton.mp same]
    exact earlier known member
  · intro known member
    rw [found_find] at member
    have bound_eq : (planner.find label).bounds.earliest = label.criteria.arrival :=
      Bounds.earliest_tighten_of_improves improves
    rw [bound_eq]
    rcases List.mem_append.mp member with before | same
    · exact Int.le_of_lt (earlier known before)
    · rw [List.mem_singleton.mp same]
  · rw [found_find, Label.pareto_concat earlier, ← pareto.labels_eq]
    rfl
  · intro known member
    rw [found_find] at member
    rcases List.mem_append.mp member with before | same
    · obtain ⟨kept, keptMember, covers⟩ := pareto.covered known before
      by_cases dropped : label.criteria.Covers kept.criteria
      · refine ⟨label, (Frontier.mem_insert _ _ _).mpr (.inr rfl), ?_⟩
        exact dropped.trans covers
      · exact ⟨kept, (Frontier.mem_insert _ _ _).mpr (.inl ⟨keptMember, dropped⟩), covers⟩
    · rw [List.mem_singleton.mp same]
      exact ⟨label, (Frontier.mem_insert _ _ _).mpr (.inr rfl), .refl _⟩

theorem IsPareto.step
    {outing : Outing} {catalogue : Catalogue} {transfers : TransferTable}
    {before after : Planner}
    (step : outing.Step catalogue transfers before after) (pareto : before.IsPareto) :
    after.IsPareto := by
  cases step with
  | enter event quiet =>
      exact pareto.of_found_eq (before.found_enter_of_isQuiet quiet) rfl (Int.le_refl _)
  | @cover trip position _ _ _ _ _ _ =>
      exact pareto.of_found_eq (before.found_cover trip position) rfl (Int.le_refl _)
  | @board trip position _ _ ride _ _ _ _ =>
      exact pareto.of_found_eq ((before.store ride).found_cover trip position) rfl
        (Int.le_refl _)
  | pass _ _ =>
      exact pareto.of_found_eq (before.found_enter_passing _ _ _) rfl (Int.le_refl _)
  | lose _ _ _ =>
      exact pareto.of_found_eq rfl rfl (Int.min_le_right _ _)
  | find _ improves worked _ _ _ _ =>
      apply pareto.find
      rw [(RideStore.criteria_eq_ok.mp worked).1]
      exact improves

theorem isPareto_performAll
    (catalogue : Catalogue) (transfers : TransferTable)
    (request : Request) (settings : Settings) (tasks : List Task) :
    ((fresh catalogue request settings).performAll catalogue transfers tasks).IsPareto := by
  apply performAll_keeps
  · intro outing before after step pareto
    exact pareto.step step
  · intro planner other pareto
    exact pareto.of_found_eq rfl rfl (Int.le_refl _)
  · exact isPareto_fresh catalogue request settings

/-- After every session the frontier holds, in the order in which they were found,
exactly the labels that no other label found so far covers.  None of them covers
another, and every label ever found is covered by one of them. -/
theorem frontier_eq_pareto_of_session
    (catalogue : Catalogue) (transfers : TransferTable)
    (request : Request) (settings : Settings) (tasks : List Task) :
    let planner := (fresh catalogue request settings).performAll catalogue transfers tasks
    planner.found.Nodup ∧
      planner.frontier.labels =
        planner.found.filter (fun label =>
          ∀ other ∈ planner.found, other ≠ label →
            ¬ other.criteria.Covers label.criteria) ∧
      planner.frontier.labels.Pairwise (fun one other =>
        ¬ one.criteria.Covers other.criteria ∧ ¬ other.criteria.Covers one.criteria) ∧
      ∀ label ∈ planner.found, ∃ kept ∈ planner.frontier.labels,
        kept.criteria.Covers label.criteria := by
  intro planner
  have pareto : planner.IsPareto :=
    isPareto_performAll catalogue transfers request settings tasks
  have distinct : planner.found.Nodup := by
    apply pareto.falling.imp
    rintro earlier _ below rfl
    exact Int.lt_irrefl _ below
  refine ⟨distinct, pareto.labels_eq, ?_, pareto.covered⟩
  rw [pareto.labels_eq]
  have apart : (Label.pareto planner.found).Pairwise (· ≠ ·) := distinct.filter _
  apply apart.imp_of_mem
  intro one other oneMember otherMember different
  rw [Label.mem_pareto] at oneMember otherMember
  constructor
  · exact otherMember.2 one oneMember.1 different
  · exact oneMember.2 other otherMember.1 different.symm

end Planner

end Transit
