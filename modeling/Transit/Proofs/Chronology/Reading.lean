import Mathlib.Algebra.Group.Nat.Defs
import Mathlib.Data.List.Induction
import Transit.Chronology.InstantText
import Transit.Proofs.Chronology.Forward

/-!
# Instants that are read

Instants come from texts and from moves of other instants.  A text gives at most nine digits
of a second's fraction, and a leap second on top of it, so that what is read is shown by a
clock, as is all that moves lead to.
-/

namespace Transit

namespace Text

theorem digitValue_le {digit : Char} (isDigit : digit.isDigit = true) : digitValue digit ≤ 9 := by
  obtain ⟨_, last⟩ := Char.isDigit_iff_toNat.mp isDigit
  exact Nat.sub_le_of_le_add last

theorem numeralValue_lt {digits : List Char} (all : ∀ digit ∈ digits, digit.isDigit = true) :
    numeralValue digits < 10 ^ digits.length := by
  induction digits using List.reverseRecOn with
  | nil => decide
  | append_singleton digits last ih =>
    have before := ih fun digit member => all digit (List.mem_append_left _ member)
    have one := digitValue_le (all last (List.mem_append_right _ (List.mem_singleton_self last)))
    rw [numeralValue_concat, List.length_append, List.length_singleton, Nat.pow_succ]
    omega

theorem length_spanDigits_le (limit : Nat) (characters : List Char) :
    (spanDigits limit characters).1.length ≤ limit := by
  fun_induction spanDigits limit characters <;> simp_all

namespace Scan

variable {Value Result : Type} {scan : Scan Value} {next : Value → Scan Result}
  {holds : Value → Prop} {result : Result → Prop}

/-- Whatever the scanner takes off a text is as said. -/
def Yields (scan : Scan Value) (holds : Value → Prop) : Prop :=
  ∀ characters value rest, scan.run characters = some (value, rest) → holds value

theorem Yields.bind
    (first : scan.Yields holds) (second : ∀ value, holds value → (next value).Yields result) :
    (scan >>= next).Yields result := by
  intro characters value rest scanned
  rw [StateT.run_bind] at scanned
  obtain ⟨⟨between, left⟩, taken, scanned⟩ := Option.bind_eq_some_iff.mp scanned
  exact second between (first _ _ _ taken) left value rest scanned

theorem yields_bind (second : ∀ value, (next value).Yields result) :
    (scan >>= next).Yields result := by
  have any : scan.Yields fun _ => True := fun _ _ _ _ => trivial
  exact any.bind fun value _ => second value

theorem yields_pure {value : Value} (fact : holds value) : Yields (pure value) holds := by
  intro characters _ _ scanned
  cases scanned
  exact fact

theorem yields_failure : Yields (failure : Scan Value) holds := by
  intro _ _ _ scanned
  cases scanned

/-- A number is below the power of ten with as many zeros as it has digits. -/
theorem yields_number (limit : Nat) :
    (number limit).Yields fun taken => taken.1 < 10 ^ taken.2 ∧ taken.2 ≤ limit := by
  refine yields_bind fun characters => ?_
  have taken : Yields (do
      set (spanDigits limit characters).2
      return (numeralValue (spanDigits limit characters).1,
        (spanDigits limit characters).1.length))
      fun taken => taken.1 < 10 ^ taken.2 ∧ taken.2 ≤ limit :=
    yields_bind fun _ => yields_pure
      ⟨numeralValue_lt fun _ => isDigit_of_mem_spanDigits, length_spanDigits_le limit characters⟩
  dsimp only
  split
  · exact yields_bind fun _ => taken
  · exact taken

end Scan

end Text

namespace Instant

open Text

theorem yields_scanFraction : scanFraction.Yields (· < 1000000000) := by
  refine Scan.yields_bind fun next => ?_
  split
  · refine Scan.yields_bind fun _ => (Scan.yields_number 9).bind ?_
    rintro ⟨value, digits⟩ ⟨small, few⟩
    refine Scan.yields_bind fun _ => Scan.yields_pure ?_
    calc value * 10 ^ (9 - digits)
      _ < 10 ^ digits * 10 ^ (9 - digits) :=
        Nat.mul_lt_mul_of_pos_right small (Nat.pow_pos (by decide))
      _ = 10 ^ 9 := by rw [← Nat.pow_add, Nat.add_sub_cancel' few]
  · exact Scan.yields_pure (by decide)

theorem yields_scanClock : scanClock.Yields (·.2 < 2000000000) := by
  refine Scan.yields_bind fun hour => Scan.yields_bind fun _ => Scan.yields_bind fun minute =>
    Scan.yields_bind fun _ => Scan.yields_bind fun second => yields_scanFraction.bind ?_
  intro fraction below
  split
  case isFalse => exact Scan.yields_failure
  case isTrue =>
    dsimp only
    split
    case isTrue => exact Scan.yields_pure (Nat.add_lt_add_left below 1000000000)
    case isFalse => exact Scan.yields_pure (Nat.lt_trans below (by decide))

theorem yields_scan : scan.Yields OnClock := by
  refine Scan.yields_bind fun date => Scan.yields_bind fun _ => yields_scanClock.bind ?_
  rintro ⟨second, nanosecond⟩ below
  refine Scan.yields_bind fun offset => ?_
  dsimp only
  split
  · exact Scan.yields_pure below
  · exact Scan.yields_failure

/-- An instant that is read from a text is one that a clock shows. -/
theorem onClock_of_ofText?
    {text : String} {instant : Instant} (read : ofText? text = some instant) :
    instant.OnClock := by
  have yields : Scan.Yields (do let instant ← scan; Scan.blanks; return instant) OnClock :=
    yields_scan.bind fun _ shown => Scan.yields_bind fun _ => Scan.yields_pure shown
  unfold ofText? Scan.whole? at read
  split at read
  case h_1 value taken =>
    cases read
    exact yields _ _ _ taken
  case h_2 => cases read

end Instant

end Transit
