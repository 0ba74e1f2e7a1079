import Transit.Proofs.Search.Step

/-!
# Sums within 64 bits

A weighted arrival is held in 64 bits.  Its first addends are small enough never to leave
them, so that only the last one can, the charge for the walk from the egress station.  What
is noted is then the sum itself if the sum is held, and something else if it is not; a sum
that is not too small is never noted as more than it is.
-/

namespace Transit

/-- A number within the 64 bits that charges are held to. -/
def IsHeld (number : Int) : Prop := -(largestCharge + 1) ≤ number ∧ number ≤ largestCharge

instance (number : Int) : Decidable (IsHeld number) := inferInstanceAs (Decidable (_ ∧ _))

/-- The most that a charge in milliseconds comes to in seconds. -/
def largestDivided : Int := largestCharge / 1000

/-- The last second that a time can be. -/
def latestSecond : Int := 4294967295

theorem isHeld_wholePart (number : Float) : IsHeld (wholePart number) := by
  unfold IsHeld wholePart largestCharge
  split <;> omega

/-- A number that is held comes to at most the largest divided charge, whatever its sign. -/
theorem IsHeld.tdiv_mem {number : Int} (held : IsHeld number) :
    -largestDivided ≤ number.tdiv 1000 ∧ number.tdiv 1000 ≤ largestDivided := by
  have least : (-(largestCharge + 1)).tdiv 1000 = -largestDivided := by decide
  have most : largestCharge.tdiv 1000 = largestDivided := by decide
  rw [← least, ← most]
  exact ⟨Int.tdiv_le_tdiv (by decide) held.1, Int.tdiv_le_tdiv (by decide) held.2⟩

theorem ServiceTime.seconds_mem (time : ServiceTime) :
    0 ≤ (time.seconds.toNat : Int) ∧ (time.seconds.toNat : Int) ≤ latestSecond := by
  have bound := time.seconds.toNat_lt
  unfold latestSecond
  omega

theorem wrapped_eq_of_isHeld {sum : Int} (held : IsHeld sum) : wrapped sum = sum := by
  unfold IsHeld largestCharge at held
  exact Int.bmod_eq_of_le_mul_two (by omega) (by omega)

theorem isHeld_wrapped (sum : Int) : IsHeld (wrapped sum) := by
  have least := Int.le_bmod (x := sum) (m := 18446744073709551616) (by decide)
  have most := Int.bmod_lt (x := sum) (m := 18446744073709551616) (by decide)
  unfold IsHeld wrapped largestCharge
  omega

/-- A sum is noted as it is exactly if it is held. -/
theorem wrapped_eq_iff (sum : Int) : wrapped sum = sum ↔ IsHeld sum := by
  refine ⟨fun same => ?_, wrapped_eq_of_isHeld⟩
  rw [← same]
  exact isHeld_wrapped sum

/-- What is not too small does not become more. -/
theorem wrapped_le {sum : Int} (least : -(largestCharge + 1) ≤ sum) : wrapped sum ≤ sum := by
  unfold largestCharge at least
  unfold wrapped
  rw [Int.bmod_def]
  split <;> omega

namespace Search

/-- The addends of a weighted arrival before the last one, and how far they reach. -/
theorem arrivalAt_mem (request : Request) (ride : Ride) (call : Call) :
    let walked := call.arrival.seconds.toNat + request.weights.accessCharge ride.access.walk
    (-largestDivided ≤ walked ∧ walked ≤ latestSecond + largestDivided) ∧
      -(2 * largestDivided) ≤ arrivalAt request ride call ∧
      arrivalAt request ride call ≤ latestSecond + 2 * largestDivided := by
  have time := call.arrival.seconds_mem
  have access : -largestDivided ≤ request.weights.accessCharge ride.access.walk ∧
      request.weights.accessCharge ride.access.walk ≤ largestDivided :=
    (isHeld_wholePart _).tdiv_mem
  have change : -largestDivided ≤ request.weights.changeCharge ride.changes ∧
      request.weights.changeCharge ride.changes ≤ largestDivided :=
    (isHeld_wholePart _).tdiv_mem
  unfold arrivalAt
  omega

end Search

/-- On a timetable no arrival at an egress station leaves 64 bits, with a charge for the way
before and the one for the walk from there. -/
def Timetable.HoldsArrivals (timetable : Timetable) (request : Request) (charge : Int) : Prop :=
  ∀ trip ∈ timetable.trips, ∀ call ∈ trip.calls, ∀ egress ∈ request.egress,
    egress.stop.isNamed trip.feed call.stop = true →
      IsHeld (call.arrival.seconds.toNat + charge + request.weights.egressCharge egress.walk)

instance (timetable : Timetable) (request : Request) (charge : Int) :
    Decidable (timetable.HoldsArrivals request charge) :=
  inferInstanceAs (Decidable (∀ trip ∈ timetable.trips, ∀ call ∈ trip.calls, _))

/-- Where the walk from an egress station is not rewarded, no more is noted than the sum. -/
theorem Outing.arrival_le_arrivalSum
    {request : Request} {egress : Station}
    (unrewarded : 0 ≤ request.weights.egressCharge egress.walk) (ride : Ride) (call : Call) :
    arrival request ride call egress ≤ arrivalSum request ride call egress := by
  obtain ⟨_, least, _⟩ := Search.arrivalAt_mem request ride call
  apply wrapped_le
  unfold arrivalSum
  unfold largestDivided largestCharge at *
  omega

end Transit
