import Transit.Proofs.Journey.Held
import Transit.Proofs.Journey.Sample
import Transit.Proofs.Search.Refusal

/-!
# The room for charges

Every charge is held within 64 bits.  The charges for the walk to the access stop and for the
changes are divided by a thousand after they have been cut, so that both together take up two
thousandths of the range, and there is room for them next to any time.  The charge for the walk
from the egress stop is divided before it is weighed, and can take up all of the range.  A
weighted arrival is therefore within 64 bits up to its last addend, and with it as long as the
last addend leaves room for the others.  No larger charge would do: next to it there are weights
for the other walk and the changes by which the sum leaves the range.
-/

namespace Transit

/-- A charge for a walk from the egress stop leaves room for every time, and for the other
charges however large they are. -/
structure Weights.LeavesRoom (weights : Weights) (walk : Int) : Prop where
  least_le : -(largestCharge + 1) + 2 * largestDivided ≤ weights.egressCharge walk
  le_most : weights.egressCharge walk ≤ largestCharge - 2 * largestDivided - latestSecond

variable {request : Request} {egress station : Station} {number : Float}

/-- The same request from one access station, with a weight for the walk from there and for
the changes. -/
def Request.weighing (request : Request) (station : Station) (number : Float) : Request :=
  { request with access := [station], weights := ⟨number, request.weights.egress, number⟩ }

theorem Request.fault?_weighing
    (valid : request.fault? = none) (finite : number.isFinite = true) :
    (request.weighing station number).fault? = none := by
  rw [fault?_eq_none_iff] at valid ⊢
  obtain ⟨_, someEgress, window, weights⟩ := valid
  simp only [Weights.areFinite, Bool.and_eq_true] at weights
  refine ⟨List.cons_ne_nil _ _, someEgress, window, ?_⟩
  simp only [weighing, Weights.areFinite, finite, weights.1.2, Bool.and_self]

/-- A ride after one change of vehicle on a journey that begins a second's walk away. -/
def changedRide : Ride where
  board := ⟨1, 0⟩
  limit := 2
  serviceDay := Sample.day
  origin? := some ⟨0, 1⟩
  parent? := some 0
  access := { Sample.origin with walk := 1000 }
  changes := 1

namespace Search

/-- With large weights the first addends come to their most at the latest time. -/
theorem arrivalAt_most (request : Request) :
    arrivalAt (request.weighing changedRide.access 1e300) changedRide
        (Sample.call "D" ⟨4294967295⟩) =
      latestSecond + 2 * largestDivided := by
  have access : wholePart (Float.ofInt 1000 * (1e300 - 1)) = largestCharge := by decide +kernel
  have change : wholePart (Float.ofNat 1 * 1e300) = largestCharge := by decide +kernel
  change latestSecond + (wholePart (Float.ofInt 1000 * (1e300 - 1))).tdiv 1000 +
    (wholePart (Float.ofNat 1 * 1e300)).tdiv 1000 = _
  rw [access, change]
  decide

/-- With large negative weights they come to their least at midnight. -/
theorem arrivalAt_least (request : Request) :
    arrivalAt (request.weighing changedRide.access (-1e300)) changedRide (Sample.call "D" ⟨0⟩) =
      -(2 * largestDivided) := by
  have access : wholePart (Float.ofInt 1000 * (-1e300 - 1)) = -(largestCharge + 1) := by
    decide +kernel
  have change : wholePart (Float.ofNat 1 * -1e300) = -(largestCharge + 1) := by decide +kernel
  change 0 + (wholePart (Float.ofInt 1000 * (-1e300 - 1))).tdiv 1000 +
    (wholePart (Float.ofNat 1 * -1e300)).tdiv 1000 = _
  rw [access, change]
  decide

end Search

namespace Outing

theorem isHeld_arrival_of_leavesRoom
    (room : request.weights.LeavesRoom egress.walk) (ride : Ride) (call : Call) :
    IsHeld (arrivalSum request ride call egress) := by
  obtain ⟨_, least, most⟩ := Search.arrivalAt_mem request ride call
  obtain ⟨below, above⟩ := room
  unfold IsHeld arrivalSum
  omega

/-- Next to a charge that leaves no room, some weights for the other charges make a sum that is
not held. -/
theorem exists_not_isHeld_arrival
    (valid : request.fault? = none) (full : ¬ request.weights.LeavesRoom egress.walk) :
    ∃ number call, (request.weighing changedRide.access number).fault? = none ∧
      ¬ IsHeld (arrivalSum (request.weighing changedRide.access number) changedRide call egress) := by
  have charge (number : Float) :
      (request.weighing changedRide.access number).weights.egressCharge egress.walk =
        request.weights.egressCharge egress.walk := rfl
  by_cases below : -(largestCharge + 1) + 2 * largestDivided ≤
      request.weights.egressCharge egress.walk
  · have above : largestCharge - 2 * largestDivided - latestSecond <
        request.weights.egressCharge egress.walk := by
      by_contra fits
      exact full ⟨below, Int.not_lt.mp fits⟩
    refine ⟨1e300, Sample.call "D" ⟨4294967295⟩, ?_, ?_⟩
    · exact Request.fault?_weighing valid (by decide +kernel)
    · rw [arrivalSum, Search.arrivalAt_most, charge, IsHeld]
      omega
  · refine ⟨-1e300, Sample.call "D" ⟨0⟩, ?_, ?_⟩
    · exact Request.fault?_weighing valid (by decide +kernel)
    · rw [arrivalSum, Search.arrivalAt_least, charge, IsHeld]
      omega

/-- The sums that a weighted arrival goes through are held before the last one for every ride
and call.  The last one is, if the charge for the walk from the egress stop leaves room; if it
does not, another valid request with the same walk and weight for it has a sum that is not. -/
theorem arrival_isHeld_or_overflows (valid : request.fault? = none) (egress : Station) :
    (∀ (ride : Ride) (call : Call),
      IsHeld call.arrival.seconds.toNat ∧
        IsHeld (call.arrival.seconds.toNat + request.weights.accessCharge ride.access.walk) ∧
        IsHeld (Search.arrivalAt request ride call)) ∧
      (request.weights.LeavesRoom egress.walk →
        ∀ ride call, IsHeld (arrivalSum request ride call egress)) ∧
      (¬ request.weights.LeavesRoom egress.walk →
        ∃ (other : Request) (ride : Ride) (call : Call), other.fault? = none ∧
          other.weights.egress = request.weights.egress ∧ other.egress = request.egress ∧
          ride.access ∈ other.access ∧ ¬ IsHeld (arrivalSum other ride call egress)) := by
  refine ⟨?_, isHeld_arrival_of_leavesRoom, ?_⟩
  · intro ride call
    have time := call.arrival.seconds_mem
    obtain ⟨walked, changed⟩ := Search.arrivalAt_mem request ride call
    unfold IsHeld
    unfold largestDivided latestSecond largestCharge at *
    omega
  · intro full
    obtain ⟨number, call, sound, overflows⟩ := exists_not_isHeld_arrival valid full
    exact ⟨_, changedRide, call, sound, rfl, rfl, List.mem_singleton.mpr rfl, overflows⟩

/-- With plain weights no sum leaves the range. -/
theorem arrival_isHeld_of_plain_weights :
    (Sample.request 0).fault? = none ∧
      (Sample.request 0).weights.LeavesRoom Sample.target.walk ∧
      ∀ ride call, IsHeld (arrivalSum (Sample.request 0) ride call Sample.target) := by
  have valid : (Sample.request 0).fault? = none := by decide +kernel
  have room : (Sample.request 0).weights.LeavesRoom Sample.target.walk :=
    ⟨by decide +kernel, by decide +kernel⟩
  exact ⟨valid, room, (arrival_isHeld_or_overflows valid Sample.target).2.1 room⟩

/-- A walk of one second to the origin and one from the target, with weights that are finite
and very large. -/
def dearRequest : Request :=
  { Sample.request 0 with
    access := [{ Sample.origin with walk := 1000 }]
    egress := [{ Sample.target with walk := 1000 }]
    weights := ⟨1e300, 1e300, 1e300⟩ }

/-- The rides of a departure before eight on the detour network, where the last trip is reached
by a change. -/
def dearRides : RideStore :=
  ((Planner.fresh Sample.detour.timetable.catalogue dearRequest .standard).performAll
    Sample.detour.timetable.catalogue Sample.detour.transfers
    [.depart dearRequest.access (Sample.instant 7 59) fun _ => true]).rides

/-- The request is valid, and on the last trip the sum for the target leaves the range. -/
theorem arrival_overflows_of_dear :
    Sample.detourPlan.build = .ok Sample.detour ∧
      dearRequest.fault? = none ∧
      ((dearRides.ride? 1).map fun ride =>
          (ride.changes, arrivalSum dearRequest ride (Sample.call "D" (Sample.clock 8 50))
            { Sample.target with walk := 1000 })) =
        some (1, 9241818780928517157) ∧
      ¬ IsHeld 9241818780928517157 := by
  decide +kernel

end Outing

end Transit
