import Transit.Proofs.Journey.Dominance
import Transit.Proofs.Search.Failure
import Transit.Proofs.Search.PlainBoarding

/-!
# Direct rides

At its one access station a departure boards one trip of each pattern, the first that
suits.  A fresh planner is as good as riding that trip to any of its later calls.  Where the
trips of a pattern are in order it is therefore as good as riding any other trip of the
pattern, unless the pattern calls at the stop more than once and the first boarding is at
another of these calls.  This holds as long as no direct arrival leaves 64 bits.
-/

namespace Transit

/-- The weighted arrival of a ride from an access station to a call near an egress station,
without a change. -/
def Request.directArrival (request : Request) (station egress : Station) (call : Call) : Int :=
  call.arrival.seconds.toNat + request.weights.accessCharge station.walk +
    request.weights.changeCharge 0 + request.weights.egressCharge egress.walk

namespace Planner

/-- A trip is ridden from an access station on, without a change, from its boarding up to a
call at least. -/
structure RidesFrom
    (planner : Planner) (station : Station) (boarding : Position) (place : Nat)
    (handle : Nat) (ride : Ride) : Prop where
  ride_eq : planner.rides.ride? handle = some ride
  board_eq : ride.board = boarding
  access_eq : ride.access = station
  changes_eq : ride.changes = 0
  before_limit : place < ride.limit

/-- A noted ride from the first boarding on bounds the arrival at every call up to which it
goes, as it is held. -/
theorem RidesFrom.earliest_le
    {planner : Planner} {timetable : Timetable} {request : Request} {station : Station}
    {boarding : Position} {place handle : Nat} {ride : Ride} {first : Trip}
    (rides : planner.RidesFrom station boarding place handle ride)
    (noted : ride.Noted timetable.catalogue request planner.bounds)
    (known : timetable.catalogue.trip? boarding.trip = some first) {call : Call}
    (called : first.calls[place]? = some call) (beyond : boarding.call < place)
    {egress : Station} (egress_mem : egress ∈ request.egress)
    (named : egress.stop.isNamed first.feed call.stop = true) :
    planner.bounds.earliest ≤ wrapped (request.directArrival station egress call) := by
  have onboard : timetable.catalogue.trip? ride.board.trip = some first := by
    rw [rides.board_eq]
    exact known
  have alighting : (call, place) ∈ ride.alightings first := by
    rw [ride.mem_alightings, rides.board_eq]
    exact ⟨called, beyond, rides.before_limit⟩
  have bound := noted first onboard call place alighting egress egress_mem named
  rw [Outing.arrival, Outing.arrivalSum, Search.arrivalAt, rides.access_eq,
    rides.changes_eq] at bound
  exact bound

end Planner

namespace Outing

section Walks

variable
  {outing : Outing} {catalogue : Catalogue} {transfers : TransferTable}
  {before after : Planner} {position : Position}

/-- Whatever is boarded, it was approached. -/
theorem Reach.exists_approach
    (reach : outing.Reach catalogue transfers before after)
    (boarded : position ∈ after.boarded) :
    position ∈ before.boarded ∨ ∃ now trip approach,
      outing.Approaches catalogue transfers now trip position approach := by
  induction reach with
  | refl => exact .inl boarded
  | @tail middle last _ step hypothesis =>
      cases step with
      | enter event quiet =>
          rw [Planner.boarded_enter_of_isQuiet quiet] at boarded
          exact hypothesis boarded
      | cover approaches _ _ _ | board approaches _ _ _ =>
          rw [Planner.boarded_cover, List.mem_append, List.mem_singleton] at boarded
          rcases boarded with earlier | rfl
          · exact hypothesis earlier
          · exact .inr ⟨_, _, _, approaches⟩
      | pass _ _ =>
          rw [Planner.boarded_enter_passing] at boarded
          exact hypothesis boarded
      | lose _ _ _ => exact hypothesis boarded
      | find _ _ _ _ _ _ _ =>
          rw [Planner.boarded_find] at boarded
          exact hypothesis boarded

/-- Without transfers only what the stations offer is boarded. -/
theorem Reach.exists_offers
    (reach : outing.Reach catalogue .empty before after)
    (none_before : before.boarded = []) (boarded : position ∈ after.boarded) :
    ∃ station reached trip, outing.Offers catalogue station reached trip position := by
  rcases reach.exists_approach boarded with early | ⟨_, trip, _, approaches⟩
  · rw [none_before] at early
    cases early
  · cases approaches with
    | walk offers => exact ⟨_, _, trip, offers⟩
    | transfer connects => cases connects.destination_mem

end Walks

variable
  {outing : Outing} {timetable : Timetable} {request : Request} {settings : Settings}
  {station : Station} {reached : LocalTime}
  {now : Planner} {first : Trip} {boarding : Position}

section Embarked

variable
  (built : timetable.IsBuilt) (only : outing.access = [station])
  (local_eq : station.localDeparture? outing.departure = some reached)

include built only local_eq

/-- At its one station an outing is offered one boarding of a pattern at most. -/
theorem Offers.eq_first
    {other : Station} {arrived : LocalTime} {trip : Trip} {position : Position}
    (offers : outing.Offers timetable.catalogue other arrived trip position) {pattern : String}
    (first_eq : timetable.firstSuiting? station.stop pattern reached outing.admits =
      some (first, boarding))
    (precedes : trip.Precedes first) :
    other = station ∧ position = boarding := by
  have here : other = station := by
    have member := offers.station_mem
    rw [only] at member
    exact List.mem_singleton.mp member
  subst here
  have clock := local_eq.symm.trans offers.local_eq
  cases clock
  obtain ⟨suits, _⟩ := built.suits_of_firstSuiting? first_eq
  have named := built.pattern_eq_of_precedes
    (Timetable.IsBuilt.mem_of_trip? (offers.suits built).trip_eq)
    (Timetable.IsBuilt.mem_of_trip? suits.trip_eq) precedes
  have same := offers.firstSuiting?_eq built
  rw [named, suits.pattern_eq, first_eq] at same
  cases same
  exact ⟨rfl, rfl⟩

/-- Once a fresh planner has embarked, the first trip of a pattern is ridden to every later
call. -/
theorem exists_ridesFrom
    (base_eq : outing.base = 0)
    (walked : outing.Reach timetable.catalogue .empty
      (Planner.fresh timetable.catalogue request settings) now)
    (served : outing.Served timetable.catalogue now station) {pattern : String}
    (first_eq : timetable.firstSuiting? station.stop pattern reached outing.admits =
      some (first, boarding))
    {place : Nat} (beyond : boarding.call < place) (inside : place < nowhere) :
    ∃ handle ride, now.RidesFrom station boarding place handle ride := by
  have found := (built.suits_of_firstSuiting? first_eq).1.trip_eq
  have accounted :=
    accounted_reach built walked (Planner.accounted_fresh timetable request settings)
  have traced : outing.Traced timetable.catalogue .empty _ now :=
    (traced_start (Nat.zero_le _)).reach walked
  obtain ⟨limit, limitAt, covered⟩ := served.covers_first built local_eq first_eq
  rcases accounted.passed first (Timetable.IsBuilt.mem_of_trip? found) limit limitAt place
    (by omega) inside with ⟨handle, ride, other, passed⟩ | ⟨other, otherFound, precedes, entered⟩
  · obtain ⟨rest, _, chained⟩ :=
      traced.chained handle ride (by rw [base_eq]; exact Nat.zero_le _) passed.ride_eq
    cases chained with
    | walk offers _ access_eq _ changes_eq =>
        have same := (offers.suits built).trip_eq.symm.trans passed.trip_eq
        cases same
        obtain ⟨here, board_eq⟩ :=
          offers.eq_first built only local_eq first_eq passed.precedes
        exact ⟨handle, ride, passed.ride_eq, board_eq, access_eq.trans here, changes_eq,
          passed.before_limit⟩
    | transfer _ _ _ listed _ _ _ _ _ _ _ _ => cases listed
  · -- A boarding at the call itself would be another first boarding.
    obtain ⟨_, _, trip, offers⟩ := walked.exists_offers rfl (Planner.mem_boarded.mpr entered)
    have same := (offers.suits built).trip_eq.symm.trans otherFound
    cases same
    obtain ⟨_, board_eq⟩ := offers.eq_first built only local_eq first_eq precedes
    rw [← board_eq] at beyond
    exact absurd beyond (Nat.lt_irrefl _)

end Embarked

/-- What a departure makes of a fresh planner is as good as riding the first trip of a
pattern. -/
theorem follows_depart_first
    (outing : Outing) (transfers : TransferTable) (settings : Settings)
    (built : timetable.IsBuilt) (base_eq : outing.base = 0)
    (only : outing.access = [station])
    (local_eq : station.localDeparture? outing.departure = some reached) {pattern : String}
    (first_eq : timetable.firstSuiting? station.stop pattern reached outing.admits =
      some (first, boarding))
    {place : Nat} (beyond : boarding.call < place) (inside : place < nowhere) {call : Call}
    (called : first.calls[place]? = some call)
    {egress : Station} (egress_mem : egress ∈ request.egress)
    (named : egress.stop.isNamed first.feed call.stop = true) :
    outing.Follows timetable.catalogue transfers
      (Search.depart timetable.catalogue transfers outing.access outing.departure
        outing.admits)
      (Planner.fresh timetable.catalogue request settings)
      (fun _ after =>
        after.bounds.earliest ≤ wrapped (request.directArrival station egress call)) := by
  have found := (built.suits_of_firstSuiting? first_eq).1.trip_eq
  -- The first round notes the ride, and the bound is kept from then on.
  let kept (_ base : Nat) (now : Planner) : Prop :=
    now.bounds.earliest ≤ wrapped (request.directArrival station egress call) ∨
      base = 0 ∧ now.request = request ∧
        ∃ handle ride, now.RidesFrom station boarding place handle ride
  have heardBound : ∀ left base now after, kept left base now →
      outing.Hears timetable.catalogue transfers base now after →
        after.bounds.earliest ≤ wrapped (request.directArrival station egress call) := by
    rintro left base now after (bound | ⟨rfl, asked, handle, ride, rides⟩) heard
    · exact Int.le_trans heard.reach.grows.earliest bound
    · have stored := heard.reach.grows.ride handle ride rides.ride_eq
      have noted := heard.noted handle ride (Nat.zero_le _) stored
      rw [asked] at noted
      have lasting : after.RidesFrom station boarding place handle ride :=
        { rides with ride_eq := stored }
      exact lasting.earliest_le noted found called beyond egress_mem named
  apply follows_depart_of
  intro now handles reach walked served current
  have base_le : outing.base ≤ 0 := Nat.le_of_eq base_eq
  apply follows_rounds kept
  · intro left base before after holds heard _
    exact heardBound left base before after holds heard
  · intro left base before middle after holds heard onward
    exact .inl (Int.le_trans onward.reach.grows.earliest
      (heardBound (left + 1) base before middle holds heard))
  · exact current
  · exact base_le
  · exact Nat.le_trans base_le (Nat.zero_le _)
  · refine .inr ⟨rfl, reach.request_eq, ?_⟩
    exact exists_ridesFrom built only local_eq base_eq walked
      (served station (by rw [only]; exact List.mem_singleton_self station)) first_eq beyond
      inside

end Outing

namespace Timetable

/-- A trip that suits at an access station is ridden from there to a call near an egress
station. -/
structure Direct (timetable : Timetable) (request : Request) (station : Station)
    (reached : LocalTime) (admits : Trip → Bool) (trip : Trip) (board alight : Nat)
    (egress : Station) (call : Call) : Prop where
  suits : timetable.Suits station.stop trip.pattern reached admits trip ⟨trip.index, board⟩
  forward : board < alight
  called : trip.calls[alight]? = some call
  egress_mem : egress ∈ request.egress
  named : egress.stop.isNamed trip.feed call.stop = true

/-- The first boarding of the trip's pattern is at another call than the one at `board`, and
the trip boarded there does not go on to the call at `alight` or arrives at it later. -/
def Bypasses (timetable : Timetable) (station : Station) (reached : LocalTime)
    (admits : Trip → Bool) (trip : Trip) (board alight : Nat) (call : Call) : Prop :=
  ∃ first ∈ timetable.firstSuiting? station.stop trip.pattern reached admits,
    first.2.call ≠ board ∧
      (alight ≤ first.2.call ∨ ∃ other ∈ first.1.calls[alight]?, call.arrival < other.arrival)

instance (timetable : Timetable) (request : Request) (station : Station) (reached : LocalTime)
    (admits : Trip → Bool) (trip : Trip) (board alight : Nat) (egress : Station) (call : Call) :
    Decidable
      (timetable.Direct request station reached admits trip board alight egress call) :=
  decidable_of_iff
    (timetable.Suits station.stop trip.pattern reached admits trip ⟨trip.index, board⟩ ∧
      board < alight ∧ trip.calls[alight]? = some call ∧ egress ∈ request.egress ∧
        egress.stop.isNamed trip.feed call.stop = true)
    ⟨fun ⟨suits, forward, called, egress_mem, named⟩ =>
        ⟨suits, forward, called, egress_mem, named⟩,
      fun ⟨suits, forward, called, egress_mem, named⟩ =>
        ⟨suits, forward, called, egress_mem, named⟩⟩

instance (timetable : Timetable) (station : Station) (reached : LocalTime)
    (admits : Trip → Bool) (trip : Trip) (board alight : Nat) (call : Call) :
    Decidable (timetable.Bypasses station reached admits trip board alight call) :=
  inferInstanceAs (Decidable (∃ first ∈ timetable.firstSuiting? _ _ _ _, _))

variable
  {timetable : Timetable} {request : Request} {station : Station} {reached : LocalTime}
  {admits : Trip → Bool} {trip first : Trip} {board alight : Nat} {egress : Station}
  {call other : Call} {boarding : Position}

/-- Where the trips of a pattern depart in order, the first boarding at a call is on no later
trip than any other boarding there. -/
theorem IsBuilt.precedes_of_call_eq
    (built : timetable.IsBuilt) (departs : timetable.InOrder Call.departure)
    (suits : timetable.Suits station.stop trip.pattern reached admits trip
      ⟨trip.index, boarding.call⟩)
    (first_eq : timetable.firstSuiting? station.stop trip.pattern reached admits =
      some (first, boarding)) :
    first.Precedes trip := by
  obtain ⟨firstSuits, before⟩ := built.suits_of_firstSuiting? first_eq
  have index := built.index_eq firstSuits.trip_eq
  have firstMember := mem_of_trip? firstSuits.trip_eq
  have member := mem_of_trip? suits.trip_eq
  rcases built.precedes_or_precedes firstMember member firstSuits.pattern_eq with
    precedes | precedes
  · exact precedes
  obtain ⟨_, leaving, leavingAt, _⟩ := firstSuits.boards
  obtain ⟨_, departing, departingAt, _⟩ := suits.boards
  have order := departs trip member first firstMember precedes boarding.call departing leaving
    departingAt leavingAt
  rw [ServiceTime.le_iff, ← departsAt_eq boarding firstSuits.trip_eq leavingAt,
    ← departsAt_eq ⟨trip.index, boarding.call⟩ suits.trip_eq departingAt] at order
  have no_later : boarding.trip ≤ trip.index := by
    rcases before trip _ suits with same | leavesBefore
    · rw [same]
    · rcases leavesBefore.lt_or_trip_le with earlier | ⟨_, no_later⟩
      · omega
      · exact no_later
  have inside := built.grouped.inside first firstMember
  have after := precedes.1
  exact ⟨by omega, by omega⟩

/-- A direct ride is bypassed, or the first trip of its pattern arrives no later. -/
theorem Direct.exists_first
    (direct : timetable.Direct request station reached admits trip board alight egress call)
    (built : timetable.IsBuilt) (arrives : timetable.InOrder Call.arrival)
    (departs : timetable.InOrder Call.departure) :
    timetable.Bypasses station reached admits trip board alight call ∨
      ∃ first boarding other,
        timetable.firstSuiting? station.stop trip.pattern reached admits =
          some (first, boarding) ∧
        boarding.call < alight ∧ first.calls[alight]? = some other ∧
        egress.stop.isNamed first.feed other.stop = true ∧ other.arrival ≤ call.arrival := by
  cases first_eq : timetable.firstSuiting? station.stop trip.pattern reached admits with
  | none => exact absurd direct.suits (built.firstSuiting?_eq_none_iff.mp first_eq _ _)
  | some found =>
      obtain ⟨first, boarding⟩ := found
      obtain ⟨suits, _⟩ := built.suits_of_firstSuiting? first_eq
      have firstMember := IsBuilt.mem_of_trip? suits.trip_eq
      have member := IsBuilt.mem_of_trip? direct.suits.trip_eq
      by_cases beyond : alight ≤ boarding.call
      · left
        refine ⟨(first, boarding), first_eq, ?_, .inl beyond⟩
        dsimp only
        have forward := direct.forward
        omega
      obtain ⟨other, called, feed, stop⟩ :=
        built.exists_call_of_pattern_eq firstMember member suits.pattern_eq direct.called
      by_cases sooner : other.arrival ≤ call.arrival
      · right
        refine ⟨first, boarding, other, rfl, Nat.lt_of_not_le beyond, called, ?_, sooner⟩
        rw [feed, stop]
        exact direct.named
      · left
        have later : call.arrival < other.arrival := by
          rw [ServiceTime.le_iff] at sooner
          rw [ServiceTime.lt_iff]
          omega
        refine ⟨(first, boarding), first_eq, ?_, .inr ⟨other, called, later⟩⟩
        rintro rfl
        have precedes := built.precedes_of_call_eq departs direct.suits first_eq
        exact sooner (arrives first firstMember trip member precedes alight other call called
          direct.called)

end Timetable

namespace Planner

/-- A departure of a fresh planner from one station is as good as every direct ride, where
the trips of a pattern are in order, no direct arrival leaves 64 bits, and the ride is not
bypassed. -/
theorem earliest_le_or_bypasses
    {plan : NetworkPlan} {network : Network} (built : plan.build = .ok network)
    (arrives : network.timetable.InOrder Call.arrival)
    (departs : network.timetable.InOrder Call.departure)
    (short : ∀ trip ∈ network.timetable.trips, trip.calls.length ≤ nowhere)
    {request : Request} {settings : Settings} {station : Station}
    (held : network.timetable.HoldsArrivals request
      (request.weights.accessCharge station.walk + request.weights.changeCharge 0))
    {departure : Instant} {admits : Trip → Bool} {after : Planner}
    (performed :
      (fresh network.timetable.catalogue request settings).perform network.timetable.catalogue
        network.transfers (.depart [station] departure admits) = (.ok (), after))
    {reached : LocalTime} (local_eq : station.localDeparture? departure = some reached)
    {trip : Trip} {board alight : Nat} {egress : Station} {call : Call}
    (direct :
      network.timetable.Direct request station reached admits trip board alight egress call) :
    after.bounds.earliest ≤ request.directArrival station egress call ∨
      network.timetable.Bypasses station reached admits trip board alight call := by
  have isBuilt := Timetable.isBuilt_of_plan built
  rcases direct.exists_first isBuilt arrives departs with
    bypassed | ⟨first, boarding, other, first_eq, beyond, called, named, sooner⟩
  · exact .inr bypassed
  left
  have length := short trip (Timetable.IsBuilt.mem_of_trip? direct.suits.trip_eq)
  have inside := (List.getElem?_eq_some_iff.mp direct.called).1
  have follows :=
    Outing.follows_depart_first ⟨[station], departure, admits, 0⟩ network.transfers settings
      isBuilt rfl rfl local_eq first_eq beyond (by omega) called direct.egress_mem named
  have bound := (of_perform_depart follows performed).2
  have firstMember := Timetable.IsBuilt.mem_of_trip?
    (isBuilt.suits_of_firstSuiting? first_eq).1.trip_eq
  have kept : IsHeld (request.directArrival station egress other) := by
    have sum := held first firstMember other (List.mem_of_getElem? called) egress
      direct.egress_mem named
    rwa [← Int.add_assoc] at sum
  rw [wrapped_eq_of_isHeld kept] at bound
  rw [ServiceTime.le_iff] at sooner
  unfold Request.directArrival at bound ⊢
  omega

/-- Boarding the first trip of a loop where it begins is as good as the second trip where the
loop ends. -/
theorem earliest_le_or_bypasses_on_loop :
    let trial : Sample.Trial := ⟨Sample.loopPlan, [Sample.origin], 3⟩
    (trial.leaving Sample.origin (Sample.instant 8 0)).1 = .ok () ∧
      ∃ trip ∈ trial.network.timetable.catalogue.trip? 1, ∃ call ∈ trip.calls[3]?,
        trial.network.timetable.Direct trial.request Sample.origin ⟨Sample.day, 28800⟩
          trial.request.admits trip 2 3 Sample.target call ∧
        (trial.leaving Sample.origin (Sample.instant 8 0)).2.bounds.earliest ≤
          trial.request.directArrival Sample.origin Sample.target call := by
  intro trial
  have succeeded : (trial.leaving Sample.origin (Sample.instant 8 0)).1 = .ok () := by
    decide +kernel
  have performed : trial.leaving Sample.origin (Sample.instant 8 0) =
      (.ok (), (trial.leaving Sample.origin (Sample.instant 8 0)).2) := Prod.ext succeeded rfl
  obtain ⟨trip, found, call, called, direct, clear⟩ :
      ∃ trip ∈ trial.network.timetable.catalogue.trip? 1, ∃ call ∈ trip.calls[3]?,
        trial.network.timetable.Direct trial.request Sample.origin ⟨Sample.day, 28800⟩
          trial.request.admits trip 2 3 Sample.target call ∧
        ¬ trial.network.timetable.Bypasses Sample.origin ⟨Sample.day, 28800⟩
          trial.request.admits trip 2 3 call := by decide +kernel
  refine ⟨succeeded, trip, found, call, called, direct, ?_⟩
  have compared :=
    earliest_le_or_bypasses (by decide +kernel : trial.plan.build = .ok trial.network)
      (by decide +kernel) (by decide +kernel) (by decide +kernel)
      (by decide +kernel : trial.network.timetable.HoldsArrivals trial.request _) performed
      (by decide +kernel) direct
  exact compared.resolve_right clear

/-- On a network whose trips are in order a direct ride would be better than what a departure
from the origin finds. -/
structure LosesDirect (trial : Sample.Trial) (departure : Instant) (index board alight : Nat) :
    Prop where
  built : trial.plan.build = .ok trial.network
  arrives : trial.network.timetable.InOrder Call.arrival
  departs : trial.network.timetable.InOrder Call.departure
  sound : trial.request.fault? = none
  performed : (trial.leaving Sample.origin departure).1 = .ok ()
  lost : ∃ reached ∈ Sample.origin.localDeparture? departure,
    ∃ trip ∈ trial.network.timetable.catalogue.trip? index, ∃ call ∈ trip.calls[alight]?,
      trial.network.timetable.Direct trial.request Sample.origin reached trial.request.admits
        trip board alight Sample.target call ∧
      trial.request.directArrival Sample.origin Sample.target call <
        (trial.leaving Sample.origin departure).2.bounds.earliest

/-- The first boarding comes after the target, or is on a later trip. -/
theorem losesDirect :
    LosesDirect ⟨Sample.returningPlan, [Sample.origin], 3⟩ (Sample.instant 8 0) 1 0 1 ∧
      LosesDirect ⟨Sample.loopPlan, [Sample.origin], 3⟩ (Sample.instant 8 3) 0 2 3 := by
  constructor <;> constructor <;> decide +kernel

end Planner

end Transit
