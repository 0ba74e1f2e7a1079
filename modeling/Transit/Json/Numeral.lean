import Transit.Text.Numeral

/-!
# Numbers in JSON documents

A number in a document is a numeral: a sign, digits, perhaps a fraction, perhaps an
exponent.  It stands for a whole number if it has neither fraction nor exponent and
fits into 64 bits, otherwise for a binary floating-point number.

The floating-point number is found from at most 64 bits of the digits: once another
digit would not fit, digits before the point only count towards the exponent and
digits after it are ignored.  The result is the rounded product or quotient of those
bits and a power of ten.  A numeral too large for this is no number.
-/

namespace Transit.Json

/-- A number as it is written. -/
structure Numeral where
  isNegative : Bool
  whole : List Char
  fraction : List Char
  /-- Sign and digits of the exponent; the sign is true for a negative one. -/
  exponent? : Option (Bool × List Char)
deriving DecidableEq

/-- The number a numeral stands for. -/
inductive Number where
  | whole (value : Int)
  | real (value : Float)

namespace Numeral

/-- The largest number of 64 bits. -/
def largestWord : Nat := 18446744073709551615

/-- The largest exponent that is counted. -/
def largestExponent : Int := 2147483647

/-- The largest power of ten that is a finite floating-point number. -/
def largestPower : Nat := 308

/-- Take digits into 64 bits while they fit; gives the bits and the digits left. -/
def accumulate (word : Nat) : List Char → Nat × List Char
  | [] => (word, [])
  | digit :: rest =>
      let longer := 10 * word + Text.digitValue digit
      if longer ≤ largestWord then accumulate longer rest else (word, digit :: rest)

/-- A power of ten, as the nearest floating-point number. -/
def powerOfTen (exponent : Nat) : Float := Float.ofScientific 1 false exponent

/-- A number times a power of ten, which is applied in at most `steps` parts; nothing
if the result is too large. -/
def scale? : (steps : Nat) → (number : Float) → (exponent : Int) → Option Float
  | 0, number, _ => some number
  | steps + 1, number, exponent =>
      if exponent.natAbs ≤ largestPower then
        if 0 ≤ exponent then
          let product := number * powerOfTen exponent.natAbs
          if product.isInf then none else some product
        else
          some (number / powerOfTen exponent.natAbs)
      else if number == 0 then some number
      else if 0 ≤ exponent then none
      else scale? steps (number / powerOfTen largestPower) (exponent + largestPower)

/-- Bits and exponent of a numeral without its written exponent. -/
def significand (numeral : Numeral) : Nat × Int :=
  let (word, dropped) := accumulate 0 numeral.whole
  let (longer, ignored) := accumulate word numeral.fraction
  (longer, (dropped.length : Int) - ((numeral.fraction.length - ignored.length : Nat) : Int))

/-- The size of the floating-point number a numeral stands for, if it is finite.  The
first division by the largest power leaves less than one and the second nothing, so
three steps are enough. -/
def magnitude? (numeral : Numeral) : Option Float :=
  let (word, shift) := numeral.significand
  match numeral.exponent? with
  | none => scale? 3 (Float.ofNat word) shift
  | some (isNegative, digits) =>
      let exponent : Int := Text.numeralValue digits
      if largestExponent < exponent then
        if word == 0 || isNegative then some 0 else none
      else
        let exponent := if isNegative then shift - exponent else shift + exponent
        let exponent := max (-largestExponent - 1) (min exponent largestExponent)
        scale? 3 (Float.ofNat word) exponent

/-- The floating-point number a numeral stands for, if it is finite. -/
def real? (numeral : Numeral) : Option Float :=
  numeral.magnitude?.map fun size => if numeral.isNegative then -size else size

/-- The number a numeral stands for, if it is not too large.  Zero with a minus sign
is a floating-point number. -/
def number? (numeral : Numeral) : Option Number :=
  let size := Text.numeralValue numeral.whole
  if numeral.fraction.isEmpty && numeral.exponent?.isNone then
    if numeral.isNegative && 0 < size && size ≤ 9223372036854775808 then some (.whole (-size))
    else if !numeral.isNegative && size ≤ largestWord then some (.whole size)
    else numeral.real?.map .real
  else
    numeral.real?.map .real

end Numeral

end Transit.Json
