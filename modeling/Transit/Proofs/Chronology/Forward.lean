import Transit.Chronology.Instant

/-!
# Moving in time

A move by a span that is not negative leads no earlier, and the further the longer the
span is.  From an instant in range it leaves the range only past the last second that
there is, so that every shorter move stays in range if a longer one does.

Of two instants outside of leap seconds the earlier one stays no later when both are moved,
in either direction.
-/

namespace Transit.Instant

/-- The instant lies after the last second of the last date. -/
def IsPastEnd (instant : Instant) : Prop := last.second < instant.second

instance (instant : Instant) : Decidable instant.IsPastEnd :=
  inferInstanceAs (Decidable (last.second < instant.second))

variable {instant : Instant} {span longer : Span}

/-- A move forward goes by the whole seconds of the nanoseconds of the second and the
span together; this holds within and out of leap seconds. -/
theorem second_move (forward : 0 ≤ span.milliseconds) :
    (instant.move span).second = instant.second +
      ((instant.nanosecond % 1000000000 : Nat) + span.milliseconds * 1000000) / 1000000000 := by
  have whole := Int.tdiv_eq_ediv_of_nonneg (b := 1000) forward
  have part := Int.tmod_eq_emod_of_nonneg (b := 1000) forward
  unfold move
  simp only [whole, part]
  split
  case isTrue leap =>
    dsimp only
    omega
  case isFalse =>
    have ahead : ¬ span.milliseconds / 1000 < 0 := by omega
    simp only [ahead, and_false, if_false]
    omega

theorem second_le_second_move (forward : 0 ≤ span.milliseconds) :
    instant.second ≤ (instant.move span).second := by
  rw [second_move forward]
  omega

theorem second_move_mono
    (forward : 0 ≤ span.milliseconds) (shorter : span.milliseconds ≤ longer.milliseconds) :
    (instant.move span).second ≤ (instant.move longer).second := by
  rw [second_move forward, second_move (Int.le_trans forward shorter)]
  omega

/-- Clocks show the nanoseconds of a second, and of the leap second after it if there is one. -/
def OnClock (instant : Instant) : Prop := instant.nanosecond < 2000000000

instance (instant : Instant) : Decidable instant.OnClock :=
  inferInstanceAs (Decidable (_ < _))

/-- Every move leads to an instant that a clock shows. -/
theorem onClock_move (instant : Instant) (span : Span) : (instant.move span).OnClock := by
  unfold OnClock move
  dsimp only
  split
  case isTrue =>
    dsimp only
    omega
  case isFalse =>
    dsimp only
    omega

/-- Instants are ordered by their seconds and then by their nanoseconds, so that a leap second
comes after the whole second that it counts with. -/
instance : LE Instant :=
  ⟨fun first second => first.second < second.second ∨
    first.second = second.second ∧ first.nanosecond ≤ second.nanosecond⟩

theorem le_iff (first second : Instant) :
    first ≤ second ↔ first.second < second.second ∨
      first.second = second.second ∧ first.nanosecond ≤ second.nanosecond :=
  Iff.rfl

instance (first second : Instant) : Decidable (first ≤ second) :=
  decidable_of_iff _ (le_iff first second).symm

/-- The longer a move forward, the later it leads. -/
theorem move_le_move
    (forward : 0 ≤ span.milliseconds) (shorter : span.milliseconds ≤ longer.milliseconds) :
    instant.move span ≤ instant.move longer := by
  have whole := Int.tdiv_eq_ediv_of_nonneg (b := 1000) forward
  have part := Int.tmod_eq_emod_of_nonneg (b := 1000) forward
  have wholeLonger := Int.tdiv_eq_ediv_of_nonneg (b := 1000) (Int.le_trans forward shorter)
  have partLonger := Int.tmod_eq_emod_of_nonneg (b := 1000) (Int.le_trans forward shorter)
  have ahead : ¬ span.milliseconds / 1000 < 0 := by omega
  have aheadLonger : ¬ longer.milliseconds / 1000 < 0 := by omega
  rw [le_iff]
  unfold move
  simp only [whole, part, wholeLonger, partLonger, ahead, aheadLonger, and_false, if_false]
  -- Either move may stay within a leap second, the longer one only if the shorter does.
  split <;> split
  all_goals
    dsimp only
    omega

/-- An instant stays where it is when it is moved by nothing. -/
theorem move_zero (shown : instant.OnClock) : instant.move .zero = instant := by
  obtain ⟨second, nanosecond⟩ := instant
  unfold OnClock at shown
  dsimp only at shown
  simp only [move, Span.zero, Int.zero_tdiv, Int.zero_tmod, Int.zero_mul, Int.add_zero,
    Int.lt_irrefl, and_false, if_false, true_and]
  split
  · rw [Int.toNat_natCast]
  · rw [mk.injEq]
    omega

/-- A move forward leads no earlier. -/
theorem le_move (shown : instant.OnClock) (forward : 0 ≤ span.milliseconds) :
    instant ≤ instant.move span := by
  have moved : instant.move .zero ≤ instant.move span := move_le_move (Int.le_refl 0) forward
  rw [move_zero shown] at moved
  exact moved

/-- An instant after one in range is in range unless it is past the end. -/
theorem inRange_iff_of_le
    {first second : Instant} (inRange : first.InRange) (later : first.second ≤ second.second) :
    second.InRange ↔ ¬ second.IsPastEnd := by
  unfold InRange dateAt Date.InRange at *
  unfold IsPastEnd last
  simp only [Date.le_iff] at *
  omega

/-- A move forward fails just if it leads past the end. -/
theorem add?_eq_none_iff
    (inRange : instant.InRange) (forward : 0 ≤ span.milliseconds) :
    instant.add? span = none ↔ (instant.move span).IsPastEnd := by
  rw [add?, ite_eq_right_iff]
  simp only [reduceCtorEq, imp_false,
    inRange_iff_of_le inRange (second_le_second_move forward), Decidable.not_not]

/-- A shorter move forward succeeds if a longer one does. -/
theorem exists_add?_of_le
    (inRange : instant.InRange) (forward : 0 ≤ span.milliseconds)
    (shorter : span.milliseconds ≤ longer.milliseconds)
    (inside : ¬ (instant.move longer).IsPastEnd) :
    ∃ moved, instant.add? span = some moved := by
  rw [← Option.ne_none_iff_exists', ne_eq, add?_eq_none_iff inRange forward]
  intro pastEnd
  exact inside (Int.lt_of_lt_of_le pastEnd (second_move_mono forward shorter))

/-- Outside of leap seconds a move in either direction goes by the nanoseconds. -/
theorem second_move_of_whole (whole : instant.nanosecond < 1000000000) (span : Span) :
    (instant.move span).second = instant.second +
      (instant.nanosecond + span.milliseconds * 1000000) / 1000000000 := by
  have parts := Int.mul_tdiv_add_tmod span.milliseconds 1000
  have noLeap : ¬ 1000000000 ≤ instant.nanosecond := Nat.not_le_of_lt whole
  unfold move
  simp only [noLeap, false_and, if_false]
  rw [Nat.mod_eq_of_lt whole]
  generalize span.milliseconds.tdiv 1000 = seconds at parts ⊢
  generalize span.milliseconds.tmod 1000 = rest at parts ⊢
  omega

theorem second_move_le_of_before
    {first second : Instant} (whole : first.nanosecond < 1000000000)
    (wholeSecond : second.nanosecond < 1000000000)
    (before : first.second < second.second ∨
      first.second = second.second ∧ first.nanosecond ≤ second.nanosecond) (span : Span) :
    (first.move span).second ≤ (second.move span).second := by
  rw [second_move_of_whole whole, second_move_of_whole wholeSecond]
  omega

theorem add?_eq_some_iff {moved : Instant} :
    instant.add? span = some moved ↔
      (instant.move span).InRange ∧ instant.move span = moved := by
  unfold add?
  simp

end Transit.Instant
