import Transit.Proofs.Bounds.Cover
import Transit.Proofs.Timetable.Patterns
import Mathlib.Order.Nat

/-!
# What a sequence of marks covers

Covering a trip stops at the first later trip of the pattern that is covered as far
already.  Stopping there is right only where the trips of every pattern are covered the
earlier the later they run, and that is what every mark before has to have kept.

Trips that are laid out in contiguous patterns, and are covered by marks from fresh
bounds, have a closed form that knows nothing of the walk: a trip is covered from the
least call that is marked for it or for an earlier trip of its pattern.
-/

namespace Transit

namespace Bounds

/-- Trips in contiguous patterns, each pattern known by the trip that follows its
last. -/
structure Layout (tripCount : Nat) where
  /-- The trip after the last of a trip's pattern. -/
  finish : Nat → Nat
  inside : ∀ {trip : Nat}, trip < tripCount → trip < finish trip ∧ finish trip ≤ tripCount
  alike : ∀ {first second : Nat}, first < tripCount → first ≤ second →
    second < finish first → finish second = finish first

/-- A trip is to be covered from a call on, which is at most the call of a trip that
is covered nowhere. -/
structure Mark (tripCount : Nat) where
  trip : Fin tripCount
  call : Nat
  call_le : call ≤ nowhere

namespace Layout

variable {tripCount : Nat}

/-- The trip after the last of the pattern of a listed trip. -/
def finishOf (trips : List Trip) (index : Nat) : Nat :=
  (trips[index]?.map Trip.patternEnd).getD index

theorem finishOf_eq {trips : List Trip} {index : Nat} (known : index < trips.length) :
    finishOf trips index = trips[index].patternEnd := by
  rw [finishOf, List.getElem?_eq_getElem known, Option.map_some, Option.getD_some]

/-- The patterns of the trips of a timetable. -/
def ofGrouped {trips : List Trip} (grouped : Timetable.IsGrouped trips) : Layout trips.length where
  finish := finishOf trips
  inside := by
    intro index known
    have before := grouped.inside _ (List.getElem_mem known)
    rw [grouped.index_getElem known] at before
    rw [finishOf_eq known]
    exact ⟨before, grouped.patternEnd_le _ (List.getElem_mem known)⟩
  alike := by
    intro first second known ordered before
    have member := List.getElem_mem known
    rw [finishOf_eq known] at before ⊢
    have present : second < trips.length :=
      Nat.lt_of_lt_of_le before (grouped.patternEnd_le _ member)
    have precedes : trips[first].Precedes trips[second] := by
      rw [Trip.Precedes, grouped.index_getElem known, grouped.index_getElem present]
      exact ⟨ordered, before⟩
    rw [finishOf_eq present]
    exact (grouped.route_eq _ member _ (List.getElem_mem present) precedes).2.1

/-- Whether a mark covers a trip: it is made for the trip or for an earlier one of its
pattern. -/
def Covers (layout : Layout tripCount) (mark : Mark tripCount) (trip : Nat) : Prop :=
  layout.finish mark.trip = layout.finish trip ∧ mark.trip ≤ trip

instance (layout : Layout tripCount) (mark : Mark tripCount) (trip : Nat) :
    Decidable (layout.Covers mark trip) :=
  inferInstanceAs (Decidable (_ ∧ _))

/-- A mark covers the trips from its own to the end of its pattern. -/
theorem covers_iff (layout : Layout tripCount) (mark : Mark tripCount) {trip : Nat}
    (known : trip < tripCount) :
    layout.Covers mark trip ↔ mark.trip ≤ trip ∧ trip < layout.finish mark.trip := by
  constructor
  · rintro ⟨same, ordered⟩
    exact ⟨ordered, same ▸ (layout.inside known).1⟩
  · rintro ⟨ordered, before⟩
    exact ⟨(layout.alike mark.trip.isLt ordered before).symm, ordered⟩

/-- What covers a trip covers the later trips of its pattern. -/
theorem Covers.of_le {layout : Layout tripCount} {mark : Mark tripCount} {first second : Nat}
    (covers : layout.Covers mark first) (known : first < tripCount)
    (ordered : first ≤ second) (before : second < layout.finish first) :
    layout.Covers mark second :=
  ⟨covers.1.trans (layout.alike known ordered before).symm, Nat.le_trans covers.2 ordered⟩

/-- In a timetable a mark covers the trips that the marked one precedes. -/
theorem ofGrouped_covers_iff {trips : List Trip} (grouped : Timetable.IsGrouped trips)
    (mark : Mark trips.length) {index : Nat} (known : index < trips.length) :
    (ofGrouped grouped).Covers mark index ↔ trips[mark.trip].Precedes trips[index] := by
  have finish : (ofGrouped grouped).finish mark.trip = trips[mark.trip].patternEnd :=
    finishOf_eq mark.trip.isLt
  have marked : trips[mark.trip].index = mark.trip := grouped.index_getElem mark.trip.isLt
  rw [covers_iff _ mark known, finish, Trip.Precedes, marked, grouped.index_getElem known]

/-- The least call marked for a trip or for an earlier trip of its pattern. -/
def least (layout : Layout tripCount) (marks : List (Mark tripCount)) (trip : Nat) : Nat :=
  ((marks.filter fun mark => layout.Covers mark trip).map Mark.call).min?.getD nowhere

/-- The bounds after marks, each made up to the end of its trip's pattern. -/
def coverAll (layout : Layout tripCount) (marks : List (Mark tripCount)) : Bounds :=
  marks.foldl
    (fun bounds mark => bounds.cover mark.trip (layout.finish mark.trip) mark.call)
    (fresh tripCount)

variable (layout : Layout tripCount) (marks : List (Mark tripCount))

/-- What is below the least call is below all calls that are marked. -/
theorem le_least_iff (trip bound : Nat) :
    bound ≤ layout.least marks trip ↔
      bound ≤ nowhere ∧ ∀ mark ∈ marks, layout.Covers mark trip → bound ≤ mark.call := by
  unfold least
  cases calls : ((marks.filter fun mark => layout.Covers mark trip).map Mark.call).min? with
  | none =>
      have unmarked : ∀ mark ∈ marks, ¬ layout.Covers mark trip := by
        simpa [List.filter_eq_nil_iff] using calls
      exact ⟨fun below => ⟨below, fun mark member covers => absurd covers (unmarked mark member)⟩,
        fun below => below.1⟩
  | some call =>
      have lowest : ∀ bound : Nat, bound ≤ call ↔
          ∀ mark ∈ marks, layout.Covers mark trip → bound ≤ mark.call := by
        intro bound
        rw [List.le_min?_iff calls]
        simp only [List.mem_map, List.mem_filter, decide_eq_true_eq]
        exact ⟨fun below mark member covers => below mark.call ⟨mark, ⟨member, covers⟩, rfl⟩,
          fun below _ ⟨mark, ⟨member, covers⟩, same⟩ => same ▸ below mark member covers⟩
      obtain ⟨mark, -, same⟩ := List.mem_map.mp (List.min?_mem calls)
      rw [Option.getD_some, lowest]
      exact ⟨fun below => ⟨Nat.le_trans ((lowest bound).mpr below) (same ▸ mark.call_le), below⟩,
        fun below => below.2⟩

/-- Without marks a trip is covered nowhere. -/
@[simp]
theorem least_nil (trip : Nat) : layout.least [] trip = nowhere := rfl

/-- One more mark lowers the least call of the trips that it covers. -/
theorem least_concat (mark : Mark tripCount) (trip : Nat) :
    layout.least (marks ++ [mark]) trip =
      if layout.Covers mark trip then min mark.call (layout.least marks trip)
      else layout.least marks trip := by
  apply eq_of_forall_le_iff
  intro bound
  rw [le_least_iff]
  simp only [List.forall_mem_append, List.forall_mem_singleton]
  split
  case isTrue covers =>
    rw [Nat.le_min, le_least_iff]
    exact ⟨fun ⟨below, all, last⟩ => ⟨last covers, below, all⟩,
      fun ⟨last, below, all⟩ => ⟨below, all, fun _ => last⟩⟩
  case isFalse apart =>
    rw [le_least_iff]
    exact ⟨fun ⟨below, all, _⟩ => ⟨below, all⟩,
      fun ⟨below, all⟩ => ⟨below, all, fun covers => absurd covers apart⟩⟩

/-- The least call is the same in whichever order the marks are made. -/
theorem least_eq_of_perm {marks others : List (Mark tripCount)} (perm : marks.Perm others)
    (trip : Nat) : layout.least marks trip = layout.least others trip := by
  apply eq_of_forall_le_iff
  intro bound
  rw [le_least_iff, le_least_iff]
  simp only [perm.mem_iff]

/-- More marks never raise the least call. -/
theorem least_append_le (more : List (Mark tripCount)) (trip : Nat) :
    layout.least (marks ++ more) trip ≤ layout.least marks trip := by
  obtain ⟨below, all⟩ := (layout.le_least_iff (marks ++ more) trip _).mp (Nat.le_refl _)
  exact (layout.le_least_iff marks trip _).mpr
    ⟨below, fun mark member => all mark (List.mem_append_left more member)⟩

/-- The later a trip of a pattern, the lower its least call. -/
theorem least_le_least {first second : Nat} (known : first < tripCount)
    (ordered : first ≤ second) (before : second < layout.finish first) :
    layout.least marks second ≤ layout.least marks first := by
  obtain ⟨below, all⟩ := (layout.le_least_iff marks second _).mp (Nat.le_refl _)
  exact (layout.le_least_iff marks first _).mpr
    ⟨below, fun mark member covers =>
      all mark member (covers.of_le known ordered before)⟩

@[simp]
theorem coverAll_nil : layout.coverAll [] = fresh tripCount := rfl

theorem coverAll_concat (mark : Mark tripCount) :
    layout.coverAll (marks ++ [mark]) =
      (layout.coverAll marks).cover mark.trip (layout.finish mark.trip) mark.call :=
  List.foldl_concat _ _ _ _

/-- The bounds that cover every trip from its least call on. -/
def leastBounds (layout : Layout tripCount) (marks : List (Mark tripCount)) : Bounds :=
  ⟨latest, (List.range tripCount).map (layout.least marks)⟩

theorem coveredFrom?_leastBounds (trip : Nat) :
    (layout.leastBounds marks).coveredFrom? trip =
      if trip < tripCount then some (layout.least marks trip) else none := by
  rw [coveredFrom?, leastBounds, List.getElem?_map]
  split
  case isTrue known => rw [List.getElem?_range known, Option.map_some]
  case isFalse unknown =>
    rw [List.getElem?_eq_none (by rw [List.length_range]; exact Nat.le_of_not_lt unknown),
      Option.map_none]

/-- In a pattern the least calls fall from each trip on, which is what the next mark's
walk relies on. -/
theorem pairwise_leastBounds {trip : Nat} (known : trip < tripCount) :
    (((layout.leastBounds marks).covered.take (layout.finish trip)).drop trip).Pairwise
      (fun earlier later => later ≤ earlier) := by
  rw [List.pairwise_iff_getElem]
  intro first second firstIn secondIn ordered
  simp only [leastBounds, List.length_drop, List.length_take, List.length_map,
    List.length_range] at firstIn secondIn
  simp only [leastBounds, List.getElem_drop, List.getElem_take, List.getElem_map,
    List.getElem_range]
  have inside : layout.finish (trip + first) = layout.finish trip :=
    layout.alike known (Nat.le_add_right trip first) (by omega)
  exact layout.least_le_least marks (by omega) (by omega) (by omega)

/-- One more mark is a step from least calls to least calls. -/
theorem cover_leastBounds (mark : Mark tripCount) :
    (layout.leastBounds marks).cover mark.trip (layout.finish mark.trip) mark.call =
      layout.leastBounds (marks ++ [mark]) := by
  have calls : ∀ trip : Nat,
      ((layout.leastBounds marks).cover mark.trip (layout.finish mark.trip)
          mark.call).coveredFrom? trip =
        (layout.leastBounds (marks ++ [mark])).coveredFrom? trip := by
    intro trip
    rw [coveredFrom?_cover mark.call trip (layout.pairwise_leastBounds marks mark.trip.isLt),
      coveredFrom?_leastBounds, coveredFrom?_leastBounds]
    by_cases known : trip < tripCount
    · rw [if_pos known, if_pos known, Option.map_some, least_concat]
      simp only [layout.covers_iff mark known]
    · rw [if_neg known, if_neg known, Option.map_none]
  exact congrArg (Bounds.mk latest) (List.ext_getElem? calls)

/-- After any marks every trip is covered from its least call on. -/
theorem coverAll_eq_leastBounds : layout.coverAll marks = layout.leastBounds marks := by
  induction marks using List.reverseRecOn with
  | nil =>
      have alike : layout.least [] = Function.const Nat nowhere := funext layout.least_nil
      rw [coverAll_nil, fresh, leastBounds, alike, List.map_const, List.length_range]
  | append_singleton marks mark hypothesis =>
      rw [coverAll_concat, hypothesis, cover_leastBounds]

/-- A trip's first covered call is the least call marked for it or for an earlier trip of
its pattern, and `nowhere` when there is none.  So more marks never raise it, a later trip
of a pattern is covered as far as an earlier one, a mark changes no other pattern, and the
order of the marks does not matter. -/
theorem coverAll_least :
    (∀ trip < tripCount,
      (layout.coverAll marks).coveredFrom? trip = some (layout.least marks trip)) ∧
      (∀ (more : List (Mark tripCount)) (trip known lowered : Nat),
        (layout.coverAll marks).coveredFrom? trip = some known →
          (layout.coverAll (marks ++ more)).coveredFrom? trip = some lowered →
            lowered ≤ known) ∧
      (∀ first second earlier later : Nat, first ≤ second →
        layout.finish first = layout.finish second →
          (layout.coverAll marks).coveredFrom? first = some earlier →
            (layout.coverAll marks).coveredFrom? second = some later → later ≤ earlier) ∧
      (∀ (mark : Mark tripCount) (trip : Nat), layout.finish mark.trip ≠ layout.finish trip →
        (layout.coverAll (marks ++ [mark])).coveredFrom? trip =
          (layout.coverAll marks).coveredFrom? trip) ∧
      ∀ others : List (Mark tripCount), marks.Perm others →
        layout.coverAll others = layout.coverAll marks := by
  simp only [coverAll_eq_leastBounds, coveredFrom?_leastBounds, Option.ite_none_right_eq_some,
    Option.some.injEq]
  refine ⟨fun trip known => ⟨known, trivial⟩, ?_, ?_, ?_, ?_⟩
  · rintro more trip known lowered ⟨-, rfl⟩ ⟨-, rfl⟩
    exact layout.least_append_le marks more trip
  · rintro first second earlier later ordered same ⟨known, rfl⟩ ⟨present, rfl⟩
    have before : second < layout.finish first := same ▸ (layout.inside present).1
    exact layout.least_le_least marks known ordered before
  · intro mark trip apart
    have uncovered : ¬ layout.Covers mark trip := fun covers => apart covers.1
    rw [least_concat, if_neg uncovered]
  · intro others perm
    have alike : layout.least others = layout.least marks :=
      funext fun trip => (layout.least_eq_of_perm perm trip).symm
    rw [leastBounds, leastBounds, alike]

/-- A pattern of three trips and one of two. -/
def threeAndTwo : Layout 5 where
  finish trip := if trip < 3 then 3 else 5
  inside := by
    intro trip known
    split <;> omega
  alike := by
    intro first second _ ordered before
    split at before <;> split <;> omega

/-- The second mark stops at the second trip, which is covered from an earlier call. -/
example : (threeAndTwo.coverAll [⟨1, 4, by decide⟩, ⟨0, 6, by decide⟩, ⟨3, 2, by decide⟩]).covered =
    [6, 4, 4, 2, 2] := by
  decide

end Layout

end Bounds

end Transit
