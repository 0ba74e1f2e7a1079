import Mathlib.Data.List.Basic

/-!
# Results that may be faults

A sequence of results is a value only if all of its parts are.
-/

namespace Transit.Except

theorem bind_eq_ok
    {Fault First Second : Type}
    {result : Except Fault First} {next : First → Except Fault Second} {value : Second} :
    (result >>= next) = .ok value ↔
      ∃ first, result = .ok first ∧ next first = .ok value := by
  cases result with
  | ok first => simp [bind, Except.bind]
  | error fault => simp [bind, Except.bind]

theorem bind_eq_error
    {Fault First Second : Type}
    {result : Except Fault First} {next : First → Except Fault Second} {fault : Fault} :
    (result >>= next) = .error fault ↔
      result = .error fault ∨ ∃ first, result = .ok first ∧ next first = .error fault := by
  cases result with
  | ok first => simp [bind, Except.bind]
  | error known => simp [bind, Except.bind]

theorem mapError_eq_ok
    {Fault Other Value : Type}
    {result : Except Fault Value} {change : Fault → Other} {value : Value} :
    result.mapError change = .ok value ↔ result = .ok value := by
  cases result with
  | ok first => simp [Except.mapError]
  | error fault => simp [Except.mapError]

/-- The values of a list of results are those of its entries. -/
theorem mem_of_mapM
    {Fault Entry Value : Type}
    {turn : Entry → Except Fault Value} {entries : List Entry} {values : List Value}
    (worked : entries.mapM turn = .ok values) (value : Value) :
    value ∈ values ↔ ∃ entry ∈ entries, turn entry = .ok value := by
  induction entries generalizing values with
  | nil =>
      cases worked
      simp
  | cons first rest hypothesis =>
      rw [List.mapM_cons] at worked
      obtain ⟨head, headWorked, worked⟩ := bind_eq_ok.mp worked
      obtain ⟨tail, tailWorked, worked⟩ := bind_eq_ok.mp worked
      cases worked
      rw [List.mem_cons, hypothesis tailWorked]
      simp [headWorked, eq_comm]

/-- Every entry of a list of results has its value. -/
theorem exists_of_mapM
    {Fault Entry Value : Type}
    {turn : Entry → Except Fault Value} {entries : List Entry} {values : List Value}
    (worked : entries.mapM turn = .ok values) {entry : Entry} (member : entry ∈ entries) :
    ∃ value ∈ values, turn entry = .ok value := by
  induction entries generalizing values with
  | nil => cases member
  | cons first rest hypothesis =>
      rw [List.mapM_cons] at worked
      obtain ⟨head, headWorked, worked⟩ := bind_eq_ok.mp worked
      obtain ⟨tail, tailWorked, worked⟩ := bind_eq_ok.mp worked
      cases worked
      rcases List.mem_cons.mp member with rfl | later
      · exact ⟨head, List.mem_cons_self, headWorked⟩
      · obtain ⟨value, valueMember, valueWorked⟩ := hypothesis tailWorked later
        exact ⟨value, List.mem_cons_of_mem _ valueMember, valueWorked⟩

/-- What holds between entries of a list holds between their values. -/
theorem pairwise_of_mapM
    {Fault Entry Value : Type}
    {turn : Entry → Except Fault Value} {entries : List Entry} {values : List Value}
    {before : Entry → Entry → Prop} {follows : Value → Value → Prop}
    (worked : entries.mapM turn = .ok values) (ordered : entries.Pairwise before)
    (kept : ∀ first second one other, before first second →
      turn first = .ok one → turn second = .ok other → follows one other) :
    values.Pairwise follows := by
  induction entries generalizing values with
  | nil =>
      cases worked
      exact .nil
  | cons first rest hypothesis =>
      rw [List.mapM_cons] at worked
      obtain ⟨head, headWorked, worked⟩ := bind_eq_ok.mp worked
      obtain ⟨tail, tailWorked, worked⟩ := bind_eq_ok.mp worked
      cases worked
      obtain ⟨above, ordered⟩ := List.pairwise_cons.mp ordered
      refine List.pairwise_cons.mpr ⟨fun value member => ?_, hypothesis tailWorked ordered⟩
      obtain ⟨later, laterMember, laterWorked⟩ := (mem_of_mapM tailWorked value).mp member
      exact kept first later head value (above later laterMember) headWorked laterWorked

/-- A list of results is a value if all of its entries are. -/
theorem exists_mapM
    {Fault Entry Value : Type}
    {turn : Entry → Except Fault Value} {entries : List Entry}
    (worked : ∀ entry ∈ entries, ∃ value, turn entry = .ok value) :
    ∃ values, entries.mapM turn = .ok values := by
  induction entries with
  | nil => exact ⟨[], rfl⟩
  | cons first rest hypothesis =>
      obtain ⟨head, headWorked⟩ := worked first List.mem_cons_self
      obtain ⟨tail, tailWorked⟩ :=
        hypothesis fun entry member => worked entry (List.mem_cons_of_mem first member)
      refine ⟨head :: tail, ?_⟩
      rw [List.mapM_cons, headWorked, tailWorked]
      rfl

/-- A list of results is a fault if one entry is, after entries that are values. -/
theorem mapM_eq_error_iff
    {Fault Entry Value : Type}
    {turn : Entry → Except Fault Value} {entries : List Entry} {fault : Fault} :
    entries.mapM turn = .error fault ↔
      ∃ earlier entry later, entries = earlier ++ entry :: later ∧
        (∀ other ∈ earlier, ∃ value, turn other = .ok value) ∧ turn entry = .error fault := by
  induction entries with
  | nil => simp [pure, Except.pure]
  | cons first rest hypothesis =>
      rw [List.mapM_cons, bind_eq_error]
      constructor
      · rintro (failed | ⟨head, headWorked, failed⟩)
        · exact ⟨[], first, rest, rfl, nofun, failed⟩
        · rcases bind_eq_error.mp failed with failed | ⟨_, _, impossible⟩
          · obtain ⟨earlier, entry, later, rfl, worked, failed⟩ := hypothesis.mp failed
            exact ⟨first :: earlier, entry, later, rfl,
              List.forall_mem_cons.mpr ⟨⟨head, headWorked⟩, worked⟩, failed⟩
          · cases impossible
      · rintro ⟨earlier, entry, later, split, worked, failed⟩
        cases earlier with
        | nil =>
            cases split
            exact .inl failed
        | cons _ earlier =>
            cases split
            obtain ⟨⟨head, headWorked⟩, worked⟩ := List.forall_mem_cons.mp worked
            have refused := hypothesis.mpr ⟨earlier, entry, later, rfl, worked, failed⟩
            exact .inr ⟨head, headWorked, bind_eq_error.mpr (.inl refused)⟩

end Transit.Except
