/-!
# Weights

Journeys are compared by a weighted arrival: walking to the access stop, walking
from the egress stop and changing vehicles count more or less than the time they
take.  The weights are binary floating-point numbers, the charges whole seconds.

A charge is computed in floating point, cut to a whole number towards zero and held
within 64 bits.  The walk to the access stop and the changes are charged in
milliseconds and divided afterwards, the walk from the egress stop is divided first.

A weighted arrival is held in 64 bits as well, and a sum that leaves them comes round.
That is how it is when additions are not checked.  When they are, the program halts at
the first sum that leaves the 64 bits, and up to there nothing is different.
-/

namespace Transit

/-- The largest whole number a charge is held to; the least is one below its negative. -/
def largestCharge : Int := 9223372036854775807

/-- A number cut towards zero and held within 64 bits; zero for what is no number. -/
def wholePart (number : Float) : Int :=
  if number < 0 then
    -min ((-number).toUInt64.toNat : Int) (largestCharge + 1)
  else
    min (number.toUInt64.toNat : Int) largestCharge

/-- A sum as it is held in 64 bits: what leaves them at one end comes in at the other. -/
def wrapped (sum : Int) : Int := sum.bmod 18446744073709551616

/-- How often the walks count, and the milliseconds charged for a change of vehicles. -/
structure Weights where
  access : Float
  egress : Float
  change : Float

namespace Weights

/-- Walks count once and changes cost nothing. -/
def neutral : Weights := ⟨1, 1, 0⟩

/-- Whether all weights are numbers of finite size. -/
def areFinite (weights : Weights) : Bool :=
  weights.access.isFinite && weights.egress.isFinite && weights.change.isFinite

/-- Seconds charged for a walk to the access stop beyond its own length. -/
def accessCharge (weights : Weights) (walk : Int) : Int :=
  (wholePart (Float.ofInt walk * (weights.access - 1))).tdiv 1000

/-- Seconds charged for a number of changes. -/
def changeCharge (weights : Weights) (changes : Nat) : Int :=
  (wholePart (Float.ofNat changes * weights.change)).tdiv 1000

/-- Seconds charged for a walk from the egress stop. -/
def egressCharge (weights : Weights) (walk : Int) : Int :=
  wholePart (Float.ofInt (walk.tdiv 1000) * weights.egress)

end Weights

open Float.Model in
/-- A product with zero is no number or a zero. -/
theorem unpackedFloat_mul_zero (number : UnpackedFloat) :
    UnpackedFloat.mul .binary64 number (.zero .positive) = .notANumber ∨
      ∃ sign, UnpackedFloat.mul .binary64 number (.zero .positive) = .zero sign := by
  cases number with
  | infinity sign => exact .inl rfl
  | notANumber => exact .inl rfl
  | zero sign => exact .inr ⟨_, rfl⟩
  | finite sign mantissa exponent positive => exact .inr ⟨_, rfl⟩

open Float.Model in
/-- Nothing is charged at no weight, even if the number that is weighed is none. -/
theorem wholePart_mul_zero (number : Float) : wholePart (number * 0) = 0 := by
  have zero : (0 : Float).toModel = .pack (.zero .positive) := by decide +kernel
  have unpacked : (Float.Model.pack (.zero .positive)).unpack = .zero .positive := by rfl
  have product :
      number * 0 = .ofModel
        (.pack (UnpackedFloat.mul .binary64 number.toModel.unpack (.zero .positive))) := by
    rw [← unpacked, ← zero]
    rfl
  rw [product]
  rcases unpackedFloat_mul_zero number.toModel.unpack with none | ⟨sign, zeroed⟩
  · rw [none]
    decide +kernel
  · rw [zeroed]
    cases sign with
    | positive => decide +kernel
    | negative => decide +kernel

namespace Weights

@[simp]
theorem accessCharge_neutral (walk : Int) : neutral.accessCharge walk = 0 := by
  have weight : neutral.access - 1 = 0 := by decide +kernel
  rw [accessCharge, weight, wholePart_mul_zero]
  rfl

@[simp]
theorem changeCharge_neutral (changes : Nat) : neutral.changeCharge changes = 0 := by
  have charged := wholePart_mul_zero (Float.ofNat changes)
  rw [changeCharge, neutral, charged]
  rfl

end Weights

end Transit
