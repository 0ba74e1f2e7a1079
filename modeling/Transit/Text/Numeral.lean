/-!
# Decimal numerals

Whole numbers as runs of ASCII digits: the value of a run, and the written form
of a number with leading zeros up to a given width.
-/

namespace Transit.Text

/-- How far a digit lies above `0`; only meant for the ten ASCII digits. -/
def digitValue (digit : Char) : Nat :=
  digit.toNat - '0'.toNat

/-- The number a run of ASCII digits stands for, most significant digit first. -/
def numeralValue (digits : List Char) : Nat :=
  digits.foldl (fun value digit => 10 * value + digitValue digit) 0

/-- The digits a text begins with, at most `limit` of them, and what follows them. -/
def spanDigits : (limit : Nat) → List Char → List Char × List Char
  | 0, characters => ([], characters)
  | _ + 1, [] => ([], [])
  | limit + 1, first :: rest =>
      if first.isDigit then
        let (digits, others) := spanDigits limit rest
        (first :: digits, others)
      else
        ([], first :: rest)

/-- The decimal form of a number, filled with zeros in front up to `width`. -/
def padded (width number : Nat) : String :=
  let digits := Nat.toDigits 10 number
  String.ofList (List.replicate (width - digits.length) '0' ++ digits)

@[simp]
theorem numeralValue_nil : numeralValue [] = 0 := rfl

theorem numeralValue_concat (digits : List Char) (last : Char) :
    numeralValue (digits ++ [last]) = 10 * numeralValue digits + digitValue last := by
  simp [numeralValue]

/-- The value of a run is that of the digits the library reads. -/
theorem numeralValue_eq_ofDigitChars (digits : List Char) :
    numeralValue digits = Nat.ofDigitChars 10 digits 0 := rfl

theorem toList_padded (width number : Nat) :
    (padded width number).toList =
      List.replicate (width - (Nat.toDigits 10 number).length) '0' ++ Nat.toDigits 10 number :=
  String.toList_ofList

/-- Zeros in front do not change the number that is written. -/
@[simp]
theorem numeralValue_padded (width number : Nat) :
    numeralValue (padded width number).toList = number := by
  rw [numeralValue_eq_ofDigitChars, toList_padded, Nat.ofDigitChars_append,
    Nat.ofDigitChars_replicate_zero, Nat.mul_zero, Nat.ofDigitChars_ten_toDigits]

theorem isDigit_of_mem_padded {width number : Nat} {character : Char}
    (member : character ∈ (padded width number).toList) : character.isDigit = true := by
  rw [toList_padded] at member
  rcases List.mem_append.mp member with zero | digit
  · rw [List.eq_of_mem_replicate zero]
    decide
  · exact Nat.isDigit_of_mem_toDigits (by decide) (by decide) digit

/-- A number is written with its digits, but with no fewer than `width`. -/
theorem length_padded (width number : Nat) :
    (padded width number).toList.length = max width (Nat.toDigits 10 number).length := by
  rw [toList_padded, List.length_append, List.length_replicate]
  omega

/-- Nothing is lost when the leading digits are split off. -/
theorem spanDigits_append (limit : Nat) (characters : List Char) :
    (spanDigits limit characters).1 ++ (spanDigits limit characters).2 = characters := by
  fun_induction spanDigits limit characters <;> simp_all

/-- What is split off holds digits only. -/
theorem isDigit_of_mem_spanDigits {limit : Nat} {characters : List Char} {digit : Char}
    (member : digit ∈ (spanDigits limit characters).1) : digit.isDigit = true := by
  fun_induction spanDigits limit characters <;> simp_all
  rcases member with rfl | member <;> simp_all

end Transit.Text
