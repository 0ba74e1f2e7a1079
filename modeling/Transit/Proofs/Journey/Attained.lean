import Transit.Proofs.Frontier.Pareto
import Transit.Proofs.Search.Stocked

/-!
# The bound is attained

On a built timetable the criteria of every ride can be worked out, so that the bound is
never tightened without a label.  After every session the bound is as it was at first, or a
label on the frontier arrives at the bound.
-/

namespace Transit

namespace Planner

/-- No arrival was found, or a label that was found arrives at the bound. -/
def IsAttained (planner : Planner) : Prop :=
  planner.bounds.earliest = Bounds.latest ∨
    ∃ label ∈ planner.found, label.criteria.arrival = planner.bounds.earliest

theorem IsAttained.of_found_eq
    {before after : Planner} (attained : before.IsAttained)
    (found : after.found = before.found)
    (earliest : after.bounds.earliest = before.bounds.earliest) : after.IsAttained := by
  unfold IsAttained
  rw [found, earliest]
  exact attained

/-- The frontier has a label that arrives at the bound, if any label does. -/
theorem IsPareto.exists_earliest
    {planner : Planner} (pareto : planner.IsPareto) (attained : planner.IsAttained) :
    planner.bounds.earliest = Bounds.latest ∨
      ∃ label ∈ planner.frontier.labels,
        label.criteria.arrival = planner.bounds.earliest := by
  apply attained.imp_right
  rintro ⟨label, member, arrives⟩
  obtain ⟨kept, keptMember, covers⟩ := pareto.covered label member
  have bound := pareto.bound kept (pareto.mem_found keptMember)
  have sooner := covers.1
  exact ⟨kept, keptMember, by omega⟩

end Planner

namespace Outing

theorem isAttained_step
    {outing : Outing} {catalogue : Catalogue} {transfers : TransferTable}
    {before after : Planner} (stocked : before.Stocked catalogue)
    (step : outing.Step catalogue transfers before after)
    (attained : before.IsAttained) : after.IsAttained := by
  cases step with
  | enter event quiet =>
      exact attained.of_found_eq (before.found_enter_of_isQuiet quiet) rfl
  | @cover trip position _ _ _ _ _ _ =>
      exact attained.of_found_eq (before.found_cover trip position) rfl
  | @board trip position _ _ ride _ _ _ _ =>
      exact attained.of_found_eq ((before.store ride).found_cover trip position) rfl
  | pass _ _ => exact attained.of_found_eq (before.found_enter_passing _ _ _) rfl
  | lose reaches _ broken =>
      obtain ⟨criteria, worked⟩ := stocked.exists_criteria reaches.ride_eq _
      rw [worked] at broken
      cases broken
  | @find _ _ _ _ _ _ label _ improves worked _ _ _ _ =>
      right
      refine ⟨label, ?_, ?_⟩
      · rw [Planner.found_find]
        exact List.mem_append_right _ (List.mem_singleton.mpr rfl)
      · rw [← (RideStore.criteria_eq_ok.mp worked).1] at improves
        exact (Bounds.earliest_tighten_of_improves improves).symm

end Outing

/-- On a built timetable the bound is attained after every session. -/
theorem Planner.isAttained_performAll
    {timetable : Timetable} (built : timetable.IsBuilt) (transfers : TransferTable)
    (request : Request) (settings : Settings) (tasks : List Task) :
    ((fresh timetable.catalogue request settings).performAll timetable.catalogue transfers
      tasks).IsAttained := by
  let kept (now : Planner) : Prop := now.Stocked timetable.catalogue ∧ now.IsAttained
  have holds : kept ((fresh timetable.catalogue request settings).performAll
      timetable.catalogue transfers tasks) := by
    apply performAll_keeps
    · rintro outing before after step ⟨stocked, attained⟩
      exact ⟨stocked.step built step, Outing.isAttained_step stocked step attained⟩
    · rintro planner other ⟨stocked, attained⟩
      exact ⟨stocked.of_rides_eq (planner.grows_ask other) rfl, attained⟩
    · exact ⟨stocked_fresh built request settings, .inl rfl⟩
  exact holds.2

end Transit
