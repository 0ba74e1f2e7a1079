import Transit.Text.Numeral

/-!
# The shortest decimal form of a floating-point number

A binary floating-point number is an integer times a power of two, and the real
numbers that round to it form an interval around it.  Its shortest decimal form is
the number of that interval which is a multiple of the largest power of ten; of two
such numbers it is the nearer one, and of two as near the larger.

All of this is exact arithmetic on natural numbers.  A decimal `digits * 10 ^ exponent`
is compared with the number on a common scale.
-/

namespace Transit.Text

/-- The size of a finite floating-point number other than zero: `mantissa * 2 ^ exponent`. -/
structure Binary where
  mantissa : Nat
  exponent : Int
  /-- Whether the next smaller number lies only half as far away as the next larger. -/
  isBoundary : Bool
deriving DecidableEq

/-- A decimal: `digits * 10 ^ exponent`. -/
structure Decimal where
  digits : Nat
  exponent : Int
deriving DecidableEq

namespace Binary

/-- The size of a finite number from its 64 bits. -/
def ofBits (bits : Nat) : Binary :=
  let fraction : Nat := bits % Nat.pow 2 52
  let exponent : Nat := bits / Nat.pow 2 52 % Nat.pow 2 11
  if exponent = 0 then ⟨fraction, -1074, false⟩
  else ⟨Nat.pow 2 52 + fraction, (exponent : Int) - 1075, fraction == 0 && exponent != 1⟩

/-- The nearest multiple of `10 ^ exponent` that rounds to the number, if there is one. -/
def nearestMultiple? (number : Binary) (exponent : Int) : Option Decimal :=
  let unit := Nat.pow 2 number.exponent.toNat * Nat.pow 10 (-exponent).toNat
  let value := number.mantissa * unit
  let step := Nat.pow 2 (-number.exponent).toNat * Nat.pow 10 exponent.toNat
  let below := value / step
  let closed := number.mantissa % 2 == 0
  let isWithin (distance reach : Nat) := distance < reach || (closed && distance == reach)
  let fromBelow := value - below * step
  let toAbove := (below + 1) * step - value
  let belowRounds := 0 < below && isWithin (4 * fromBelow) (if number.isBoundary then unit else 2 * unit)
  let aboveRounds := isWithin (4 * toAbove) (2 * unit)
  if aboveRounds && (!belowRounds || toAbove ≤ fromBelow) then some ⟨below + 1, exponent⟩
  else if belowRounds then some ⟨below, exponent⟩
  else none

/-- The first power of ten, going down from `exponent`, of which a multiple rounds to
the number. -/
def descend (number : Binary) : (steps : Nat) → (exponent : Int) → Decimal
  | 0, exponent => ⟨0, exponent⟩
  | steps + 1, exponent =>
      (number.nearestMultiple? exponent).getD (number.descend steps (exponent - 1))

/-- The shortest decimal that rounds to the number.  The largest number is below
`10 ^ 309`, and every number is found at the latest at the power `-342`. -/
def shortest (number : Binary) : Decimal := number.descend 652 309

end Binary

/-- How decimals are laid out: from `least` up to `most`, the power of ten of the first
digit is shown by the place of the point, outside of it by an exponent. -/
structure Layout where
  least : Int
  most : Int

namespace Layout

/-- A decimal with its point or its exponent.  A whole number shows one zero after the
point. -/
def text (layout : Layout) (decimal : Decimal) : String :=
  let digits := Nat.toDigits 10 decimal.digits
  let power := decimal.exponent + (digits.length : Int) - 1
  if layout.least ≤ power ∧ power ≤ layout.most then
    let point := (power + 1).toNat
    let filled := List.replicate (-power).toNat '0' ++ digits ++
      List.replicate decimal.exponent.toNat '0'
    let wholePart := if 0 ≤ power then filled.take point else ['0']
    let fraction := if 0 ≤ power then filled.drop point else filled.drop 1
    String.ofList wholePart ++ "." ++ if fraction.isEmpty then "0" else String.ofList fraction
  else
    let fraction := digits.drop 1
    String.ofList (digits.take 1) ++ (if fraction.isEmpty then "" else "." ++ String.ofList fraction) ++
      s!"e{power}"

end Layout

/-- The shortest form of a floating-point number in a layout. -/
def shortestText (layout : Layout) (number : Float) : String :=
  if number.isNaN then "NaN"
  else
    let bits := number.toBits.toNat
    let sign := if bits < Nat.pow 2 63 then "" else "-"
    let size :=
      if number.isInf then "inf"
      else if bits % Nat.pow 2 63 = 0 then "0.0"
      else layout.text (Binary.ofBits bits).shortest
    sign ++ size

end Transit.Text
