import Transit.Proofs.Search.Boarding
import Transit.Proofs.Timetable.Build

/-!
# The first boarding of a pattern

At a station a search boards the first usable trip of each pattern.  On a built
timetable bisection finds exactly the boardings that leave in time, and the boarding
chosen among them comes before every other one that could be used.
-/

namespace Transit

namespace Catalogue

variable {catalogue : Catalogue}

/-- Bisection counts the positions that depart too early. -/
theorem bisect_eq_ok
    {target steps : Nat} {positions : List Position}
    (known : ∀ position ∈ positions,
      catalogue.departure position = .ok (catalogue.departsAt position))
    (ordered : positions.Pairwise fun first second =>
      catalogue.departsAt first ≤ catalogue.departsAt second)
    (enough : positions.length ≤ steps) :
    catalogue.bisect target steps positions =
      .ok (positions.countP fun position => catalogue.departsAt position < target) := by
  induction steps generalizing positions with
  | zero =>
      have none : positions = [] := List.length_eq_zero_iff.mp (Nat.le_zero.mp enough)
      subst none
      rfl
  | succ steps hypothesis =>
      have split := List.take_append_drop (positions.length / 2) positions
      unfold bisect
      dsimp only
      cases rest : positions.drop (positions.length / 2) with
      | nil =>
          have short := List.drop_eq_nil_iff.mp rest
          have none : positions = [] := List.length_eq_zero_iff.mp (by omega)
          subst none
          rfl
      | cons middle later =>
          dsimp only
          rw [rest] at split
          have half : (positions.take (positions.length / 2)).length = positions.length / 2 := by
            rw [List.length_take]
            omega
          have whole := congrArg List.length split
          rw [List.length_append, half, List.length_cons] at whole
          have member : middle ∈ positions := by
            rw [← split]
            simp
          have inLater : ∀ position ∈ later, position ∈ positions := by
            intro position laterMember
            rw [← split]
            simp [laterMember]
          rw [← split, List.pairwise_append, List.pairwise_cons] at ordered
          obtain ⟨front, ⟨above, back⟩, across⟩ := ordered
          rw [known middle member]
          simp only [bind, Except.bind]
          by_cases early : target ≤ catalogue.departsAt middle
          · rw [if_pos early, hypothesis
              (fun position member => known position (List.mem_of_mem_take member)) front
              (by omega)]
            have none :
                (middle :: later).countP
                  (fun position => catalogue.departsAt position < target) = 0 := by
              rw [List.countP_eq_zero]
              intro position laterMember
              rcases List.mem_cons.mp laterMember with rfl | laterMember
              · simpa using early
              · have order := above position laterMember
                simp only [decide_eq_true_eq]
                omega
            conv => rhs; rw [← split]
            rw [List.countP_append, none, Nat.add_zero]
          · have late : catalogue.departsAt middle < target := Nat.lt_of_not_le early
            rw [if_neg early, hypothesis
              (fun position member => known position (inLater position member)) back
              (by omega)]
            have all :
                (positions.take (positions.length / 2)).countP
                  (fun position => catalogue.departsAt position < target) =
                    positions.length / 2 := by
              refine (List.countP_eq_length.mpr ?_).trans half
              intro position earlier
              have order := across position earlier middle List.mem_cons_self
              simp only [decide_eq_true_eq]
              omega
            conv => rhs; rw [← split]
            rw [List.countP_append, all, List.countP_cons_of_pos (by simpa using late)]
            simp only [pure, Except.pure]
            congr 1
            omega

/-- Dropping what departs too early leaves what leaves in time. -/
theorem departingFrom_eq_ok
    {target : Nat} {positions : List Position}
    (known : ∀ position ∈ positions,
      catalogue.departure position = .ok (catalogue.departsAt position))
    (ordered : positions.Pairwise fun first second =>
      catalogue.departsAt first ≤ catalogue.departsAt second) :
    catalogue.departingFrom target positions =
      .ok (positions.filter fun position => target ≤ catalogue.departsAt position) := by
  have dropped :
      positions.drop (positions.countP fun position => catalogue.departsAt position < target) =
        positions.filter fun position => target ≤ catalogue.departsAt position := by
    clear known
    induction positions with
    | nil => rfl
    | cons first rest hypothesis =>
        obtain ⟨above, ordered⟩ := List.pairwise_cons.mp ordered
        by_cases late : catalogue.departsAt first < target
        · rw [List.countP_cons_of_pos (by simpa using late), List.drop_succ_cons,
            hypothesis ordered, List.filter_cons_of_neg (by simpa using late)]
        · have none :
              (first :: rest).countP
                (fun position => catalogue.departsAt position < target) = 0 := by
            rw [List.countP_eq_zero]
            intro position member
            rcases List.mem_cons.mp member with rfl | member
            · simpa using late
            · have order := above position member
              simp only [decide_eq_true_eq]
              omega
          have all :
              (first :: rest).filter
                (fun position => target ≤ catalogue.departsAt position) = first :: rest := by
            rw [List.filter_eq_self]
            intro position member
            have few := List.countP_eq_zero.mp none position member
            simpa using few
          rw [none, all, List.drop_zero]
  unfold departingFrom
  rw [bisect_eq_ok known ordered (Nat.le_refl _)]
  simp only [bind, Except.bind, pure, Except.pure]
  rw [dropped]

theorem firstUsable_eq_some
    {day : Date} {admits : Trip → Bool} {positions : List Position}
    {trip : Trip} {position : Position}
    (found : catalogue.firstUsable day admits positions = .ok (some (trip, position))) :
    position ∈ positions ∧ catalogue.trip? position.trip = some trip ∧
      trip.service.activeOn day = true ∧ admits trip = true := by
  induction positions with
  | nil => cases found
  | cons first rest hypothesis =>
      unfold firstUsable at found
      obtain ⟨known, knownFound, found⟩ := Except.bind_eq_ok.mp found
      by_cases usable : (known.service.activeOn day && admits known) = true
      · rw [if_pos usable] at found
        cases found
        rw [Bool.and_eq_true] at usable
        exact ⟨List.mem_cons_self, Catalogue.trip_eq_ok.mp knownFound, usable⟩
      · rw [if_neg usable] at found
        obtain ⟨member, facts⟩ := hypothesis found
        exact ⟨List.mem_cons_of_mem first member, facts⟩

/-- The first usable position is looked for without a fault where every trip is known. -/
theorem exists_firstUsable_eq_ok
    {positions : List Position}
    (known : ∀ position ∈ positions, ∃ trip, catalogue.trip? position.trip = some trip)
    (day : Date) (admits : Trip → Bool) :
    ∃ first, catalogue.firstUsable day admits positions = .ok first := by
  induction positions with
  | nil => exact ⟨none, rfl⟩
  | cons position rest hypothesis =>
      obtain ⟨trip, found⟩ := known position List.mem_cons_self
      unfold firstUsable
      rw [Catalogue.trip_eq_ok.mpr found]
      simp only [bind, Except.bind]
      by_cases usable : (trip.service.activeOn day && admits trip) = true
      · rw [if_pos usable]
        exact ⟨some (trip, position), rfl⟩
      · rw [if_neg usable]
        exact hypothesis fun later member => known later (List.mem_cons_of_mem position member)

/-- A usable position is the first usable one, or comes after it. -/
theorem exists_firstUsable
    {day : Date} {admits : Trip → Bool} {positions : List Position}
    {precedes : Position → Position → Prop} {trip : Trip} {position : Position}
    (known : ∀ position ∈ positions, ∃ trip, catalogue.trip? position.trip = some trip)
    (ordered : positions.Pairwise precedes) (member : position ∈ positions)
    (found : catalogue.trip? position.trip = some trip)
    (active : trip.service.activeOn day = true) (admitted : admits trip = true) :
    ∃ first early, catalogue.firstUsable day admits positions = .ok (some (first, early)) ∧
      (early = position ∨ precedes early position) := by
  induction positions with
  | nil => cases member
  | cons next rest hypothesis =>
      obtain ⟨before, ordered⟩ := List.pairwise_cons.mp ordered
      obtain ⟨other, otherFound⟩ := known next List.mem_cons_self
      unfold firstUsable
      rw [Catalogue.trip_eq_ok.mpr otherFound]
      simp only [bind, Except.bind]
      by_cases usable : (other.service.activeOn day && admits other) = true
      · rw [if_pos usable]
        refine ⟨other, next, rfl, ?_⟩
        rcases List.mem_cons.mp member with rfl | later
        · exact .inl rfl
        · exact .inr (before position later)
      · rw [if_neg usable]
        rcases List.mem_cons.mp member with rfl | later
        · rw [found] at otherFound
          cases otherFound
          simp [active, admitted] at usable
        · exact hypothesis (fun other member => known other (List.mem_cons_of_mem next member))
            ordered later

end Catalogue

/-- The departures listed at a stop are known, and in order. -/
theorem Timetable.IsBuilt.departingFrom_eq_ok
    {timetable : Timetable} (built : timetable.IsBuilt) {stop : Stop} {boardings : Boardings}
    {pattern : String} {positions : List Position}
    (atStop : timetable.catalogue.boardings? stop = some boardings)
    (listed : (pattern, positions) ∈ boardings) (target : Nat) :
    timetable.catalogue.departingFrom target positions =
      .ok (positions.filter fun position =>
        target ≤ timetable.catalogue.departsAt position) := by
  apply Catalogue.departingFrom_eq_ok
  · intro position member
    obtain ⟨trip, call, found, _, called, _⟩ :=
      built.exists_of_mem_positions atStop listed member
    have worked := Catalogue.call_eq_ok.mpr ⟨trip, found, called⟩
    rw [departsAt_eq position found called, Catalogue.departure, worked]
    rfl
  · exact (built.positions_ordered atStop listed).imp Catalogue.LeavesBefore.departsAt_le

end Transit
