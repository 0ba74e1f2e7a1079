import Transit.Proofs.Timetable.Acceptance
import Transit.Proofs.Timetable.Numbering

/-!
# The order in which trips are given

The trips of a pattern may be given in any order, and those of other patterns may stand
between them: as long as the patterns begin in the same order, the timetable is the same.
Inside a pattern the order of the trips is that of their first departures and names, in which
no two trips of one pattern are equal.
-/

namespace Transit

namespace ScheduledTrip

theorem StartsBefore.asymm {first second : ScheduledTrip} (before : first.StartsBefore second) :
    ¬ second.StartsBefore first := by
  rintro (later | ⟨_, names⟩)
  · rcases before with earlier | ⟨same, _⟩
    · exact Nat.lt_asymm earlier later
    · exact Nat.ne_of_lt later same.symm
  · rcases before with earlier | ⟨_, names'⟩
    · omega
    · exact String.lt_asymm names names'

/-- Trips with names of their own are arranged in one way. -/
theorem arrange_eq_of_perm
    {trips others : List ScheduledTrip} (perm : trips.Perm others)
    (distinct : trips.Pairwise fun first second => first.name ≠ second.name) :
    Order.arrange mayPrecede trips = Order.arrange mayPrecede others := by
  have arranged : (Order.arrange mayPrecede trips).Perm (Order.arrange mayPrecede others) :=
    (Order.arrange_perm _ trips).trans (perm.trans (Order.arrange_perm _ others).symm)
  have antisymm : ∀ first second : ScheduledTrip, first ∈ Order.arrange mayPrecede trips →
      second ∈ Order.arrange mayPrecede others → first.StartsBefore second →
        second.StartsBefore first → first = second :=
    fun _ _ _ _ before after => absurd after before.asymm
  exact arranged.eq_of_pairwise antisymm (pairwise_arrange_startsBefore distinct)
    (pairwise_arrange_startsBefore (distinct.perm perm Ne.symm))

theorem FitTogether.perm
    {trips others : List ScheduledTrip} (fit : FitTogether trips) (perm : trips.Perm others) :
    FitTogether others where
  sound trip member := fit.sound trip (perm.mem_iff.mpr member)
  distinct := (perm.map _).nodup_iff.mp fit.distinct

end ScheduledTrip

namespace Timetable

/-- The feeds and stops of the patterns of given trips, in the order in which the patterns
begin. -/
def routes (given : List ScheduledTrip) : List (String × List String) :=
  (given.map ScheduledTrip.route).eraseDups

variable {given others : List ScheduledTrip}

theorem map_fst_group (given : List ScheduledTrip) : (group given).map Prod.fst = routes given := by
  rw [group, Grouping.map_fst_ofPairs, List.map_map, routes]
  rfl

/-- The groups are told by the routes and what trips are of each. -/
theorem group_eq (given : List ScheduledTrip) :
    group given =
      (routes given).map fun route => (route, given.filter fun trip => trip.route = route) := by
  rw [← map_fst_group, List.map_map]
  calc
    group given = (group given).map id := (List.map_id _).symm
    _ = _ := by
      apply List.map_congr_left
      rintro ⟨route, members⟩ known
      exact Prod.ext rfl (mem_group.mp known).2

/-- Groups of the same keys in the same order, whose members are arranged alike, are numbered
alike. -/
theorem enumerate_eq_of_forall₂
    {groups groups' : Grouping (String × List String) ScheduledTrip}
    (alike : List.Forall₂ (fun group group' => group.1 = group'.1 ∧
      Order.arrange ScheduledTrip.mayPrecede group.2 =
        Order.arrange ScheduledTrip.mayPrecede group'.2) groups groups')
    (number index : Nat) :
    enumerate number index groups = enumerate number index groups' := by
  induction alike generalizing number index with
  | nil => rfl
  | @cons group group' rest rest' here _ hypothesis =>
      obtain ⟨⟨feed, stops⟩, members⟩ := group
      obtain ⟨_, members'⟩ := group'
      obtain ⟨rfl, arranged⟩ := here
      have size : members.length = members'.length := by
        rw [← (Order.arrange_perm ScheduledTrip.mayPrecede members).length_eq, arranged,
          (Order.arrange_perm _ members').length_eq]
      simp only [enumerate, arranged, size, hypothesis]

theorem enumerate_eq_of_perm
    (perm : given.Perm others) (order : routes given = routes others)
    (distinct : (given.map fun trip => (trip.feed, trip.name)).Nodup) :
    enumerate 0 0 (group given) = enumerate 0 0 (group others) := by
  apply enumerate_eq_of_forall₂
  have names : ∀ route ∈ routes given,
      (given.filter fun trip => trip.route = route).Pairwise
        fun first second => first.name ≠ second.name := by
    intro route member
    have known : (route, given.filter fun trip => trip.route = route) ∈ group given := by
      rw [group_eq]
      exact List.mem_map.mpr ⟨route, member, rfl⟩
    exact pairwise_name_of_group distinct known
  rw [group_eq given, group_eq others, ← order, List.forall₂_map_left_iff,
    List.forall₂_map_right_iff, List.forall₂_same]
  intro route member
  exact ⟨rfl, ScheduledTrip.arrange_eq_of_perm (perm.filter _) (names route member)⟩

/-- Trips that are given in another order make no timetable, or the same one, if their
patterns begin in the same order. -/
theorem build_eq_of_reordered
    (perm : given.Perm others) (order : routes given = routes others) :
    (∃ fault fault', build given = .error fault ∧ build others = .error fault') ∨
      ∃ timetable, build given = .ok timetable ∧ build others = .ok timetable := by
  by_cases fit : ScheduledTrip.FitTogether given
  · have passed := ScheduledTrip.checkAll_nil_eq_ok_iff.mpr fit
    have passed' := ScheduledTrip.checkAll_nil_eq_ok_iff.mpr (fit.perm perm)
    have same : build given = build others := by
      rw [build, build, passed, passed', enumerate_eq_of_perm perm order fit.distinct]
    obtain ⟨timetable, built⟩ := exists_build_iff.mpr fit
    exact .inr ⟨timetable, built, same.symm.trans built⟩
  · have misfit : ¬ ScheduledTrip.FitTogether others := fun fit' => fit (fit'.perm perm.symm)
    obtain ⟨fault, refused⟩ := exists_fault_of_misfit fit
    obtain ⟨fault', refused'⟩ := exists_fault_of_misfit misfit
    exact .inl ⟨fault, fault', refused, refused'⟩

/-- The trips of a ring may change places, also with the trip that leaves it, as long as one of
them is given first. -/
theorem build_eq_of_reordered_ring :
    let others := [Sample.ringPlan.trips[1], Sample.ringPlan.trips[2], Sample.ringPlan.trips[0]]
    Sample.ringPlan.trips.Perm others ∧ routes Sample.ringPlan.trips = routes others ∧
      build others = .ok Sample.ring.timetable := by
  intro others
  have perm : Sample.ringPlan.trips.Perm others := by decide +kernel
  have order : routes Sample.ringPlan.trips = routes others := by decide +kernel
  have built : build Sample.ringPlan.trips = .ok Sample.ring.timetable := by decide +kernel
  refine ⟨perm, order, ?_⟩
  rcases build_eq_of_reordered perm order with ⟨fault, _, refused, _⟩ | ⟨timetable, made, same⟩
  · cases built.symm.trans refused
  · cases built.symm.trans made
    exact same

end Timetable

end Transit
