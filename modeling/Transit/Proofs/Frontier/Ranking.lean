import Transit.Proofs.Journey.Attained
import Transit.Proofs.Journey.Sample
import Transit.Proofs.Order.Arrange

/-!
# The bound, the frontier and the ranking are in one order

Every label arrives earlier than the bound it finds, and makes its own arrival the bound.
On a built timetable no bound is left without its label, so that the last label of the
frontier is the one that arrives at the bound.  What a new label drops from the frontier
arrives later than the label itself, which stands last.

Arrivals therefore fall strictly along the frontier, and of the three criteria only the
arrival decides the order of presentation, which is the frontier read backward.
-/

namespace Transit

/-- Labels with falling arrivals are presented in the opposite order. -/
theorem Label.ranked_eq_reverse
    {labels : List Label}
    (falling : labels.Pairwise fun earlier later =>
      later.criteria.arrival < earlier.criteria.arrival) :
    Label.ranked labels = labels.reverse := by
  apply Order.arrange_eq_reverse
  apply falling.imp
  intro earlier later below
  have notBefore : ¬ earlier.criteria.arrival < later.criteria.arrival := by omega
  have different : earlier.criteria.arrival ≠ later.criteria.arrival := by omega
  simp [Criteria.mayPrecede, notBefore, different]

namespace Planner

/-- The bound is no later than it is at first, and earlier once there is a label. -/
structure IsBelow (planner : Planner) : Prop where
  earliest_le : planner.bounds.earliest ≤ Bounds.latest
  earliest_lt : planner.frontier.labels ≠ [] → planner.bounds.earliest < Bounds.latest

namespace IsBelow

variable {planner before after : Planner}

/-- A planner with the same labels and no later bound is as good. -/
theorem of_frontier_eq (below : before.IsBelow) (frontier : after.frontier = before.frontier)
    (earliest : after.bounds.earliest ≤ before.bounds.earliest) : after.IsBelow where
  earliest_le := Int.le_trans earliest below.earliest_le
  earliest_lt := by
    rw [frontier]
    exact fun some => Int.lt_of_le_of_lt earliest (below.earliest_lt some)

theorem find (below : planner.IsBelow) {label : Label}
    (improves : planner.bounds.improves label.criteria.arrival = true) :
    (planner.find label).IsBelow := by
  have arrives : (planner.find label).bounds.earliest = label.criteria.arrival :=
    Bounds.earliest_tighten_of_improves improves
  have earlier : label.criteria.arrival < planner.bounds.earliest := by
    simpa [Bounds.improves] using improves
  have lower : (planner.find label).bounds.earliest < Bounds.latest := by
    rw [arrives]
    exact Int.lt_of_lt_of_le earlier below.earliest_le
  exact ⟨Int.le_of_lt lower, fun _ => lower⟩

theorem step
    {outing : Outing} {catalogue : Catalogue} {transfers : TransferTable}
    (step : outing.Step catalogue transfers before after) (below : before.IsBelow) :
    after.IsBelow := by
  cases step with
  | enter _ _ => exact below.of_frontier_eq rfl (Int.le_refl _)
  | cover _ _ _ _ => exact below.of_frontier_eq rfl (Int.le_refl _)
  | board _ _ _ _ => exact below.of_frontier_eq rfl (Int.le_refl _)
  | pass _ _ => exact below.of_frontier_eq rfl (Int.le_refl _)
  | lose _ _ _ => exact below.of_frontier_eq rfl (Int.min_le_right _ _)
  | find _ improves worked _ _ _ _ =>
      apply below.find
      rw [(RideStore.criteria_eq_ok.mp worked).1]
      exact improves

end IsBelow

theorem isBelow_performAll
    (catalogue : Catalogue) (transfers : TransferTable)
    (request : Request) (settings : Settings) (tasks : List Task) :
    ((fresh catalogue request settings).performAll catalogue transfers tasks).IsBelow := by
  apply performAll_keeps
  · intro outing before after step below
    exact below.step step
  · intro planner other below
    exact below.of_frontier_eq rfl (Int.le_refl _)
  · exact ⟨Int.le_refl _, fun some => absurd rfl some⟩

section Last

variable {planner : Planner}

/-- Along the frontier arrivals fall, as they do along all labels found. -/
theorem IsPareto.labels_falling (pareto : planner.IsPareto) :
    planner.frontier.labels.Pairwise fun earlier later =>
      later.criteria.arrival < earlier.criteria.arrival := by
  rw [pareto.labels_eq]
  exact pareto.falling.filter _

/-- The last label of the frontier arrives at the bound. -/
theorem IsPareto.arrival_last (pareto : planner.IsPareto) (attained : planner.IsAttained)
    (below : planner.IsBelow) {front : List Label} {last : Label}
    (split : planner.frontier.labels = front ++ [last]) :
    last.criteria.arrival = planner.bounds.earliest := by
  have falling := pareto.labels_falling
  rw [split, List.pairwise_append] at falling
  have lower : planner.bounds.earliest < Bounds.latest :=
    below.earliest_lt (by rw [split]; exact List.concat_ne_nil last front)
  have bound : planner.bounds.earliest ≤ last.criteria.arrival := by
    have member : last ∈ Label.pareto planner.found := by
      rw [← pareto.labels_eq, split]
      exact List.mem_concat_self
    exact pareto.bound last (Label.mem_pareto.mp member).1
  rcases pareto.exists_earliest attained with fresh | ⟨label, member, arrives⟩
  · exact absurd fresh (Int.ne_of_lt lower)
  · rw [split] at member
    rcases List.mem_append.mp member with inFront | same
    · have later := falling.2.2 label inFront last (List.mem_singleton.mpr rfl)
      omega
    · rw [← List.mem_singleton.mp same]
      exact arrives

/-- The bound is the arrival of the last label, and as it was at first when there is
none. -/
theorem IsPareto.earliest_eq (pareto : planner.IsPareto) (attained : planner.IsAttained)
    (below : planner.IsBelow) :
    planner.bounds.earliest =
      (planner.frontier.labels.getLast?.map fun label => label.criteria.arrival).getD
        Bounds.latest := by
  rcases List.eq_nil_or_concat' planner.frontier.labels with none | ⟨front, last, split⟩
  · rw [none]
    rcases pareto.exists_earliest attained with fresh | ⟨label, member, _⟩
    · exact fresh
    · rw [none] at member
      cases member
  · rw [← pareto.arrival_last attained below split, split, List.getLast?_concat]
    rfl

end Last

/-- After every session on a built timetable, failed tasks included, arrivals fall strictly
in the order in which the labels were found, the bound is the arrival of the last label and
as it was at first exactly when there is none, and the labels are presented in the order
opposite to that in which they were found. -/
theorem ranked_eq_reverse_of_session
    {trips : List ScheduledTrip} {timetable : Timetable}
    (built : Timetable.build trips = .ok timetable) (transfers : TransferTable)
    (request : Request) (settings : Settings) (tasks : List Task) :
    let planner := (fresh timetable.catalogue request settings).performAll
      timetable.catalogue transfers tasks
    planner.frontier.labels.Pairwise (fun earlier later =>
        later.criteria.arrival < earlier.criteria.arrival) ∧
      planner.bounds.earliest =
        (planner.frontier.labels.getLast?.map fun label => label.criteria.arrival).getD
          Bounds.latest ∧
      (planner.bounds.earliest = Bounds.latest ↔ planner.frontier.labels = []) ∧
      planner.ranked = planner.frontier.labels.reverse := by
  intro planner
  have pareto : planner.IsPareto :=
    isPareto_performAll timetable.catalogue transfers request settings tasks
  have attained : planner.IsAttained :=
    isAttained_performAll (Timetable.isBuilt_of_build built) transfers request settings tasks
  have below : planner.IsBelow :=
    isBelow_performAll timetable.catalogue transfers request settings tasks
  have earliest := pareto.earliest_eq attained below
  refine ⟨pareto.labels_falling, earliest, ⟨?_, ?_⟩, Label.ranked_eq_reverse pareto.labels_falling⟩
  · intro fresh
    by_contra some
    exact Int.ne_of_lt (below.earliest_lt some) fresh
  · intro none
    rw [earliest, none]
    rfl

/-- Two departures from different stations of the detour network, and one from nowhere
between them. -/
def detours : List Task :=
  [.depart [Sample.aside] (Sample.instant 8 5) fun _ => true,
    .depart [] (Sample.instant 8 2) fun _ => true,
    .depart [Sample.origin] (Sample.instant 8 0) fun _ => true]

/-- The slow trip is found first, and the journey with a change, which departs earlier and
arrives earlier, second.  Both are kept, and presented in the opposite order. -/
theorem ranked_detours :
    let network := Sample.networkOf Sample.detourPlan
    let planner := (fresh network.timetable.catalogue (Sample.request 5) ⟨3, 5⟩).performAll
      network.timetable.catalogue network.transfers detours
    planner.frontier.labels.map (fun label => label.criteria.arrival) = [32400, 31800] ∧
      planner.bounds.earliest = 31800 ∧
      planner.ranked = planner.frontier.labels.reverse := by
  intro network planner
  have built : Timetable.build Sample.detourPlan.trips = .ok network.timetable := by
    decide +kernel
  obtain ⟨_, _, _, backward⟩ :=
    ranked_eq_reverse_of_session built network.transfers (Sample.request 5) ⟨3, 5⟩ detours
  have arrivals :
      planner.frontier.labels.map (fun label => label.criteria.arrival) = [32400, 31800] := by
    decide +kernel
  have bound : planner.bounds.earliest = 31800 := by decide +kernel
  exact ⟨arrivals, bound, backward⟩

end Planner

end Transit
