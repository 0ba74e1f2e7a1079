import Transit.Proofs.Journey.Held
import Transit.Proofs.Journey.Sample
import Transit.Proofs.Search.Session
import Transit.Proofs.Timetable.Build

/-!
# Breaking off the transfers from a ride

Transfers are made from the calls of a ride in order, and broken off at the first call
whose weighted arrival, with no walk to the destination yet, is no earlier than the bound.

However a ride goes on from there, along its own trip and then by transfers and further
rides, time never runs back: a trip's calls are made one after the other, and no trip is
boarded before the one before it is left.  The changes of vehicle only add up.  Where more
changes are charged no less, and no walk to the destination is charged less than nothing, the
weighted arrival at the end is therefore no earlier than at the break, and no bound since has
risen.
-/

namespace Transit

/-- More changes are charged no less, up to a number of changes. -/
def Weights.RisesTo (weights : Weights) (most : Nat) : Prop :=
  ∀ fewer more : Nat, fewer ≤ more → more ≤ most →
    weights.changeCharge fewer ≤ weights.changeCharge more

theorem Weights.risesTo_of_free
    {weights : Weights} (free : weights.change = 0) (most : Nat) : weights.RisesTo most := by
  intro fewer more _ _
  rw [changeCharge, changeCharge, free, wholePart_mul_zero, wholePart_mul_zero]

namespace Hop

/-- A ride goes on by transfers of the table, each made in time, and by rides on trips of
the catalogue, whether or not the trips run on the day and are admitted. -/
inductive GoesOn (catalogue : Catalogue) (transfers : TransferTable) (day : Date) :
    Hop → List Hop → Prop
  | ends (last) : GoesOn catalogue transfers day last []
  | transfer {hop next rest call boarding} :
      hop.Meets next transfers day call boarding →
      catalogue.trip? next.trip.index = some next.trip →
      next.board < next.alight →
      GoesOn catalogue transfers day next rest →
      GoesOn catalogue transfers day hop (next :: rest)

/-- The changes of vehicle on the way from a ride through those that follow. -/
def changesAhead (hop : Hop) : List Hop → Nat
  | [] => 0
  | next :: rest =>
      (if hop.trip.sharesVehicle next.trip then 0 else 1) + next.changesAhead rest

/-- On a built timetable the last arrival is no earlier than the first. -/
theorem GoesOn.exists_arrival_le
    {timetable : Timetable} (built : timetable.IsBuilt) {transfers : TransferTable} {day : Date}
    {first last : Hop} {rest : List Hop} {final : Call}
    (goes : first.GoesOn timetable.catalogue transfers day rest)
    (last_eq : (first :: rest).getLast? = some last)
    (final_eq : last.trip.calls[last.alight]? = some final) :
    ∃ left, first.trip.calls[first.alight]? = some left ∧
      left.arrival.seconds.toNat ≤ final.arrival.seconds.toNat := by
  induction goes with
  | ends only =>
      obtain rfl : only = last := by simpa using last_eq
      exact ⟨final, final_eq, Nat.le_refl _⟩
  | @transfer hop next rest call boarding meets found forward _ hypothesis =>
      rw [List.getLast?_cons_cons] at last_eq
      obtain ⟨left, left_eq, later⟩ := hypothesis last_eq
      have sound := built.sound _ (Timetable.IsBuilt.mem_of_trip? found)
      refine ⟨call, meets.left_eq, ?_⟩
      calc
        call.arrival.seconds.toNat ≤ boarding.departure.seconds.toNat :=
          (ServiceTime.le_iff _ _).mp meets.in_time
        _ ≤ left.arrival.seconds.toNat :=
          sound.departure_le_arrival meets.boarded_eq left_eq forward
        _ ≤ final.arrival.seconds.toNat := later

end Hop

/-- A way of going on from a ride to an egress station of a request: the ride is left at one
of its calls, and other rides may follow. -/
structure Ride.Onward (ride : Ride) (catalogue : Catalogue) (transfers : TransferTable)
    (request : Request) (trip : Trip) where
  leftAt : Nat
  rest : List Hop
  last : Hop
  /-- The call at which the last ride is left. -/
  final : Call
  egress : Station
  leaves : ∃ leaving, (leaving, leftAt) ∈ ride.alightings trip
  goes : (Hop.mk trip ride.board.call leftAt).GoesOn catalogue transfers ride.serviceDay rest
  last_eq : (Hop.mk trip ride.board.call leftAt :: rest).getLast? = some last
  final_eq : last.trip.calls[last.alight]? = some final
  egress_mem : egress ∈ request.egress
  named : egress.stop.isNamed last.trip.feed final.stop = true

namespace Ride.Onward

variable
  {ride : Ride} {catalogue : Catalogue} {transfers : TransferTable} {request : Request}
  {trip : Trip}

/-- The changes of vehicle up to the end of the way. -/
def changes (way : ride.Onward catalogue transfers request trip) : Nat :=
  ride.changes + (Hop.mk trip ride.board.call way.leftAt).changesAhead way.rest

/-- The weighted arrival at the end of the way, added up exactly. -/
def arrivalSum (way : ride.Onward catalogue transfers request trip) : Int :=
  Outing.arrivalSum request { ride with changes := way.changes } way.final way.egress

/-- The weighted arrival at the end of the way, as it would be noted. -/
def arrival (way : ride.Onward catalogue transfers request trip) : Int :=
  Outing.arrival request { ride with changes := way.changes } way.final way.egress

/-- However a ride goes on after a call, its weighted arrival at the end is no earlier than
the one at the call. -/
theorem arrivalAt_le_arrivalSum
    {timetable : Timetable} (built : timetable.IsBuilt)
    (way : ride.Onward timetable.catalogue transfers request trip)
    (found : timetable.catalogue.trip? ride.board.trip = some trip) {call : Call} {place : Nat}
    (call_eq : trip.calls[place]? = some call) (after : place ≤ way.leftAt) {most : Nat}
    (rises : request.weights.RisesTo most) (few : way.changes ≤ most)
    (walks : 0 ≤ request.weights.egressCharge way.egress.walk) :
    Search.arrivalAt request ride call ≤ way.arrivalSum := by
  have sound := built.sound _ (Timetable.IsBuilt.mem_of_trip? found)
  obtain ⟨left, left_eq, later⟩ := way.goes.exists_arrival_le built way.last_eq way.final_eq
  have onward : call.arrival.seconds.toNat ≤ left.arrival.seconds.toNat :=
    sound.arrival_le_arrival call_eq left_eq after
  have charged :
      request.weights.changeCharge ride.changes ≤ request.weights.changeCharge way.changes :=
    rises _ _ (Nat.le_add_right _ _) few
  simp only [arrivalSum, Outing.arrivalSum, Search.arrivalAt]
  omega

end Ride.Onward

namespace Search

variable {catalogue : Catalogue} {transfers : TransferTable}

/-- Where transfers are broken off nothing after the break is looked at. -/
theorem transferFrom_break
    {handle : Nat} {ride : Ride} {trip : Trip} {front back : List (Call × Nat)}
    {call : Call} {place : Nat} {planner now : Planner} {handles : List Nat}
    (scanned : transferFrom catalogue transfers handle ride trip front planner =
      .ok handles now)
    (late : now.bounds.improves (arrivalAt now.request ride call) = false) :
    transferFrom catalogue transfers handle ride trip (front ++ (call, place) :: back) planner =
      .ok handles now := by
  induction front generalizing planner handles with
  | nil =>
      cases scanned
      rw [List.nil_append, transferFrom, bind_eq_ok]
      refine ⟨now, now, rfl, ?_⟩
      rw [late]
      rfl
  | cons entry front hypothesis =>
      obtain ⟨known, knownAt⟩ := entry
      rw [transferFrom, bind_eq_ok] at scanned
      obtain ⟨seen, middle, ⟨⟩, scanned⟩ := scanned
      rw [List.cons_append, transferFrom, bind_eq_ok]
      refine ⟨planner, planner, rfl, ?_⟩
      by_cases improves : planner.bounds.improves (arrivalAt planner.request ride known) = true
      · rw [if_pos improves] at scanned ⊢
        rw [bind_eq_ok] at scanned ⊢
        obtain ⟨boarded, middle, worked, scanned⟩ := scanned
        rw [bind_eq_ok] at scanned
        obtain ⟨others, after, scanned, same⟩ := scanned
        refine ⟨boarded, middle, worked, ?_⟩
        rw [bind_eq_ok]
        cases same
        exact ⟨others, now, hypothesis scanned, rfl⟩
      · rw [if_neg improves] at scanned ⊢
        exact scanned

/-- Transfers from a ride end where they are broken off, and nothing is lost by it: however
the ride goes on from the call of the break or a later one, it reaches an egress station no
earlier than the bound, and if that arrival is within 64 bits, it does not improve on the
bound, then and after all searches since.  This takes weights that charge no walk from an
egress station less than nothing, and more changes no less than fewer. -/
theorem not_improves_of_break
    {plan : NetworkPlan} {network : Network} (built : plan.build = .ok network)
    {handle place : Nat} {ride : Ride} {trip : Trip} {front back : List (Call × Nat)}
    {call : Call} {planner now : Planner} {handles : List Nat}
    (found : network.timetable.catalogue.trip? ride.board.trip = some trip)
    (alightings : ride.alightings trip = front ++ (call, place) :: back)
    (scanned : transferFrom network.timetable.catalogue network.transfers handle ride trip front
      planner = .ok handles now)
    (late : now.bounds.improves (arrivalAt now.request ride call) = false)
    {most : Nat} (rises : now.request.weights.RisesTo most)
    (walks : ∀ egress ∈ now.request.egress, 0 ≤ now.request.weights.egressCharge egress.walk) :
    transferFrom network.timetable.catalogue network.transfers handle ride trip
        (ride.alightings trip) planner = .ok handles now ∧
      ∀ way : ride.Onward network.timetable.catalogue network.transfers now.request trip,
        place ≤ way.leftAt → way.changes ≤ most →
          now.bounds.earliest ≤ way.arrivalSum ∧
            (IsHeld way.arrivalSum → way.arrival = way.arrivalSum ∧
              ∀ later : Planner, now.Grows later →
                later.bounds.improves way.arrival = false ∧
                  later.bounds.tighten way.arrival = later.bounds) := by
  constructor
  · rw [alightings]
    exact transferFrom_break scanned late
  intro way after few
  have broken : (call, place) ∈ ride.alightings trip := by
    rw [alightings]
    exact List.mem_append_right front List.mem_cons_self
  have call_eq := ((ride.mem_alightings trip call place).mp broken).1
  have bounded : now.bounds.earliest ≤ way.arrivalSum :=
    calc
      now.bounds.earliest ≤ arrivalAt now.request ride call := by
        simpa [Bounds.improves] using late
      _ ≤ way.arrivalSum :=
        way.arrivalAt_le_arrivalSum (Timetable.isBuilt_of_plan built) found call_eq after rises
          few (walks way.egress way.egress_mem)
  refine ⟨bounded, fun held => ?_⟩
  have noted : way.arrival = way.arrivalSum := wrapped_eq_of_isHeld held
  refine ⟨noted, fun later grows => ?_⟩
  have refused : later.bounds.improves way.arrival = false := by
    have reached := Int.le_trans grows.earliest bounded
    rw [← noted] at reached
    simpa [Bounds.improves] using reached
  exact ⟨refused, Bounds.tighten_of_not_improves refused⟩

section Sample

open Sample

/-- A line that passes the target on its way. -/
def lineBeyond : ScheduledTrip :=
  trip "line"
    [call "A" (clock 8 0), call "B" (clock 8 10), call "D" (clock 8 20), call "E" (clock 8 30)]

/-- A trip back to the target from where the line ends. -/
def tripBack : ScheduledTrip := trip "back" [call "E" (clock 8 35), call "D" (clock 8 50)]

def passingPlan : NetworkPlan where
  trips := [lineBeyond, tripBack]
  transfers := [transfer "line" 3 "back" 0]

def passing : Network := networkOf passingPlan

/-- The two trips as they are indexed. -/
def passingLine : Trip := lineBeyond.indexed 0 1 "f:p0"

def passingBack : Trip := tripBack.indexed 1 2 "f:p1"

/-- The ride on the line from its first call. -/
def passingRide : Ride :=
  { board := ⟨0, 0⟩, limit := nowhere, serviceDay := day, origin? := none, parent? := none
    access := origin, changes := 0 }

/-- A fresh planner after the departure at eight for a request, which has found the ride past
the target. -/
def eightOnPassing (asked : Request) : Planner :=
  ((Planner.fresh passing.timetable.catalogue asked ⟨3, 5⟩).perform
    passing.timetable.catalogue passing.transfers
    (.depart [origin] (instant 8 0) fun _ => true)).2

theorem request_eightOnPassing (asked : Request) : (eightOnPassing asked).request = asked := by
  rw [eightOnPassing, Planner.request_perform_depart]
  rfl

/-- The ride goes on past the target to the end of the line, and back by the other trip to a
station at the target. -/
def aroundPassing (asked : Request) (egress : Station) (listed : egress ∈ asked.egress)
    (named : egress.stop.isNamed "f" "D" = true) :
    passingRide.Onward passing.timetable.catalogue passing.transfers asked passingLine where
  leftAt := 3
  rest := [⟨passingBack, 0, 1⟩]
  last := ⟨passingBack, 0, 1⟩
  final := call "D" (clock 8 50)
  egress
  leaves := ⟨call "E" (clock 8 30), by decide +kernel⟩
  goes := by
    have meets : ∃ left boarding, (Hop.mk passingLine 0 3).Meets ⟨passingBack, 0, 1⟩
        passing.transfers day left boarding := by decide +kernel
    obtain ⟨left, boarding, meets⟩ := meets
    exact .transfer meets (by decide +kernel) (by decide) (.ends _)
  last_eq := rfl
  final_eq := by decide +kernel
  egress_mem := listed
  named

/-- Transfers from the ride are broken off at the target, which it reaches at 8:20, and the
way around by the end of the line and back, at 8:50, never improves. -/
theorem not_improves_of_break_on_passing :
    let now := eightOnPassing (request 5)
    now.bounds.earliest = 30000 ∧ ∃ way : passingRide.Onward passing.timetable.catalogue
        passing.transfers now.request passingLine, way.leftAt = 3 ∧ way.arrival = 31800 ∧
      ∀ later : Planner, now.Grows later → later.bounds.improves way.arrival = false := by
  intro now
  have built : passingPlan.build = .ok passing := by decide +kernel
  have found : passing.timetable.catalogue.trip? passingRide.board.trip = some passingLine := by
    decide +kernel
  have alightings : passingRide.alightings passingLine =
      [(call "B" (clock 8 10), 1)] ++ (call "D" (clock 8 20), 2) ::
        [(call "E" (clock 8 30), 3)] := by
    decide +kernel
  have early : now.bounds.improves
      (arrivalAt now.request passingRide (call "B" (clock 8 10))) = true := by
    decide +kernel
  have late : now.bounds.improves
      (arrivalAt now.request passingRide (call "D" (clock 8 20))) = false := by
    decide +kernel
  have nowhereTo : passing.transfers.destinations passingRide.serviceDay
      ⟨passingLine.index, 1⟩ = [] := by
    decide +kernel
  have scanned : transferFrom passing.timetable.catalogue passing.transfers 0 passingRide
      passingLine [(call "B" (clock 8 10), 1)] now = .ok [] now := by
    rw [transferFrom, bind_eq_ok]
    refine ⟨_, _, rfl, ?_⟩
    rw [if_pos early, nowhereTo]
    rfl
  have rises : now.request.weights.RisesTo nowhere := by
    rw [request_eightOnPassing]
    exact Weights.risesTo_of_free rfl nowhere
  have walks : ∀ egress ∈ now.request.egress,
      0 ≤ now.request.weights.egressCharge egress.walk := by
    decide +kernel
  have bound : now.bounds.earliest = 30000 := by decide +kernel
  let way := aroundPassing now.request target (by decide +kernel) (by decide +kernel)
  have around : way.arrival = 31800 := by decide +kernel
  have held : IsHeld way.arrivalSum := by decide +kernel
  have few : way.changes ≤ nowhere := by decide +kernel
  have after : 2 ≤ way.leftAt := by decide
  obtain ⟨_, ways⟩ := not_improves_of_break built found alightings scanned late rises walks
  obtain ⟨_, refused⟩ := (ways way after few).2 held
  exact ⟨bound, way, rfl, around, fun later grows => (refused later grows).1⟩

/-- A request to arrive at the target, or a second's walk from there at nearly the largest
charge that 64 bits hold. -/
def costlyRequest : Request :=
  { request 5 with
    egress := [target, { target with walk := 1000 }]
    weights := ⟨1, 9223372036854745088, 0⟩ }

/-- The transfers are broken off at the target as before, and no walk is rewarded, but the way
around to the costly station is beyond 64 bits, and what is held of it is earlier than the
bound. -/
theorem improves_past_break :
    let now := eightOnPassing costlyRequest
    passingPlan.build = .ok passing ∧ costlyRequest.fault? = none ∧
      (∀ most, costlyRequest.weights.RisesTo most) ∧
      (∀ egress ∈ costlyRequest.egress, 0 ≤ costlyRequest.weights.egressCharge egress.walk) ∧
      now.request = costlyRequest ∧ now.bounds.earliest = 30000 ∧
      now.bounds.improves
        (arrivalAt costlyRequest passingRide (call "D" (clock 8 20))) = false ∧
      ∃ way : passingRide.Onward passing.timetable.catalogue passing.transfers costlyRequest
          passingLine,
        way.leftAt = 3 ∧ way.arrivalSum = 9223372036854776888 ∧
          way.arrival = -9223372036854774728 ∧
          now.bounds.improves way.arrival = true := by
  intro now
  refine ⟨by decide +kernel, by decide +kernel, fun most => Weights.risesTo_of_free rfl most,
    by decide +kernel, request_eightOnPassing costlyRequest, by decide +kernel,
    by decide +kernel, ?_⟩
  exact ⟨aroundPassing costlyRequest { target with walk := 1000 } (by decide +kernel)
    (by decide +kernel), rfl, by decide +kernel, by decide +kernel, by decide +kernel⟩

end Sample

end Search

end Transit
