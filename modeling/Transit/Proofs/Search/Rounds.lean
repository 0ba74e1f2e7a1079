import Transit.Proofs.Search.Boarding

/-!
# Rounds

A round notes every arrival of its rides: afterwards the bound is no later than any of
them.  Transferring from a ride covers every trip that can be boarded from it, up to a
call at which the ride is no longer earlier than the bound.  The rides that were stored
while transferring are the rides of the next round.
-/

namespace Transit

/-- The bound is no later than any arrival of a ride at an egress station. -/
def Ride.Noted
    (ride : Ride) (catalogue : Catalogue) (request : Request) (bounds : Bounds) : Prop :=
  ∀ trip, catalogue.trip? ride.board.trip = some trip →
    ∀ call place, (call, place) ∈ ride.alightings trip →
      ∀ egress ∈ request.egress, egress.stop.isNamed trip.feed call.stop = true →
        bounds.earliest ≤ Outing.arrival request ride call egress

/-- Every trip that can be boarded when a ride is left at a call is covered from there. -/
def Ride.Continued
    (ride : Ride) (catalogue : Catalogue) (transfers : TransferTable) (request : Request)
    (call : Call) (origin : Position) (destinations : List Position)
    (bounds : Bounds) : Prop :=
  ∀ destination ∈ destinations,
    destination ∈ transfers.destinations ride.serviceDay origin →
    ∀ trip boarding,
      catalogue.trip? destination.trip = some trip →
      trip.calls[destination.call]? = some boarding →
      call.arrival ≤ boarding.departure →
      trip.service.activeOn ride.serviceDay = true →
      request.admits trip = true →
      trip.index < trip.patternEnd →
      bounds.Covers trip.index destination.call

/-- The given calls of a ride are transferred from, up to one where the ride is no
earlier than the bound. -/
def Ride.TransferredFrom
    (ride : Ride) (catalogue : Catalogue) (transfers : TransferTable) (request : Request)
    (left : Trip) (alightings : List (Call × Nat)) (bounds : Bounds) : Prop :=
  ∃ front back, alightings = front ++ back ∧
    (∀ call place, (call, place) ∈ front →
      ride.Continued catalogue transfers request call ⟨left.index, place⟩
        (transfers.destinations ride.serviceDay ⟨left.index, place⟩) bounds) ∧
    ∀ call place, back.head? = some (call, place) →
      bounds.earliest ≤ Search.arrivalAt request ride call

/-- A ride is transferred from. -/
def Ride.Transferred
    (ride : Ride) (catalogue : Catalogue) (transfers : TransferTable) (request : Request)
    (bounds : Bounds) : Prop :=
  ∀ trip, catalogue.trip? ride.board.trip = some trip →
    ride.TransferredFrom catalogue transfers request trip (ride.alightings trip) bounds

namespace Ride

variable
  {ride : Ride} {catalogue : Catalogue} {transfers : TransferTable} {request : Request}
  {before after : Planner}

theorem Noted.grows
    (noted : ride.Noted catalogue request before.bounds) (grows : before.Grows after) :
    ride.Noted catalogue request after.bounds := by
  intro trip found call place alighting egress member named
  exact Int.le_trans grows.earliest
    (noted trip found call place alighting egress member named)

theorem Continued.grows
    {call : Call} {origin : Position} {destinations : List Position}
    (continued :
      ride.Continued catalogue transfers request call origin destinations before.bounds)
    (grows : before.Grows after) :
    ride.Continued catalogue transfers request call origin destinations after.bounds := by
  intro destination member listed trip boarding found boarded inTime active admitted inside
  exact grows.covers
    (continued destination member listed trip boarding found boarded inTime active
      admitted inside)

theorem TransferredFrom.grows
    {left : Trip} {alightings : List (Call × Nat)}
    (transferred :
      ride.TransferredFrom catalogue transfers request left alightings before.bounds)
    (grows : before.Grows after) :
    ride.TransferredFrom catalogue transfers request left alightings after.bounds := by
  obtain ⟨front, back, split, continued, reached⟩ := transferred
  refine ⟨front, back, split, ?_, ?_⟩
  · intro call place member
    exact (continued call place member).grows grows
  · intro call place first
    exact Int.le_trans grows.earliest (reached call place first)

theorem Transferred.grows
    (transferred : ride.Transferred catalogue transfers request before.bounds)
    (grows : before.Grows after) :
    ride.Transferred catalogue transfers request after.bounds := by
  intro trip found
  exact (transferred trip found).grows grows

end Ride

namespace Outing

open Search

variable
  {outing : Outing} {catalogue : Catalogue} {transfers : TransferTable}
  {planner : Planner}

theorem Reach.of_announce (round : Nat) (handles : List Nat) :
    outing.Follows catalogue transfers (announce catalogue round handles) planner
      (fun _ _ => True) := by
  unfold announce
  apply follows_record_bind
  · exact trivial
  intro _
  apply (follows_forM (fun _ _ => True) (fun _ _ _ _ _ => trivial) ?_).mono
  · intro _ _ _ _
    exact trivial
  intro handle _ now _
  apply follows_ride_bind
  intro ride _
  cases catalogue.trip? ride.board.trip with
  | none => exact follows_pure trivial
  | some trip =>
      have quiet : Event.IsQuiet
          (.riding trip.pattern trip.name ride.board.call ride.limit) := trivial
      apply (follows_record quiet).mono
      intro _ _ _ _
      exact trivial

/-- Announcing a round only enters events. -/
theorem announce_keeps (round : Nat) (handles : List Nat) :
    Ensures (announce catalogue round handles) planner
      (fun _ after => after.rides = planner.rides ∧ after.bounds = planner.bounds)
      (fun _ after => after.rides = planner.rides ∧ after.bounds = planner.bounds) := by
  unfold announce
  rw [ensures_bind, ensures_record]
  apply ensures_forM (fun now =>
    now.rides = planner.rides ∧ now.bounds = planner.bounds)
  · intro handle _ now kept
    rw [ensures_bind, ensures_ride]
    constructor
    · intro ride _
      cases catalogue.trip? ride.board.trip with
      | none => exact kept
      | some trip => exact kept
    · intro _
      exact kept
  · exact ⟨rfl, rfl⟩

/-- After a search for arrivals the bound is no later than the arrival it was about. -/
theorem follows_arrive
    {round handle : Nat} {ride : Ride} {trip : Trip} {call : Call} {place : Nat}
    {egress : Station}
    (reaches : outing.Reaches catalogue planner handle ride trip call place egress) :
    outing.Follows catalogue transfers
      (arrive catalogue round handle ride trip call place egress) planner
      (fun _ after => after.bounds.earliest ≤ arrival planner.request ride call egress) := by
  apply ensures_arrive
  · intro later
    refine ⟨.single (.pass reaches later), ?_⟩
    simpa [Bounds.improves] using later
  · intro fault earlier broken
    exact .single (.lose reaches earlier broken)
  · intro criteria earlier worked same
    have step :
        outing.Step catalogue transfers planner
          (planner.find { round, egress, alight := ⟨trip.index, place⟩
                          scheduled := call.arrival, ride := handle, criteria }) :=
      .find reaches earlier worked rfl rfl rfl rfl
    refine ⟨.single step, ?_⟩
    rw [← same]
    exact Int.min_le_left _ _

/-- Searching for arrivals stores no ride and covers no trip. -/
theorem arrive_keeps
    {round handle : Nat} {ride : Ride} {trip : Trip} {call : Call} {place : Nat}
    {egress : Station} {rides : RideStore} {covered : List Nat}
    (kept : planner.rides = rides ∧ planner.bounds.covered = covered) :
    Ensures (arrive catalogue round handle ride trip call place egress) planner
      (fun _ after => after.rides = rides ∧ after.bounds.covered = covered)
      (fun _ after => after.rides = rides ∧ after.bounds.covered = covered) := by
  apply ensures_arrive
  · intro _
    exact kept
  · intro _ _ _
    exact kept
  · intro _ _ _ _
    exact kept

/-- Searching a ride for arrivals goes from one alighting to the next, and at each to the
egress stations of that stop. -/
theorem follows_alightings
    {round handle : Nat} {ride : Ride} {trip : Trip} (base_le : outing.base ≤ handle)
    (found : planner.rides.ride? handle = some ride)
    (tripFound : catalogue.trip? ride.board.trip = some trip) :
    outing.Follows catalogue transfers
      ((ride.alightings trip).forM fun (call, place) =>
        (planner.request.egress.filter fun station =>
          station.stop.isNamed trip.feed call.stop).forM fun station =>
            arrive catalogue round handle ride trip call place station) planner
      (fun _ after => ride.Noted catalogue planner.request after.bounds) := by
  apply (follows_forM (fun (alighting : Call × Nat) after =>
    ∀ egress ∈ planner.request.egress,
      egress.stop.isNamed trip.feed alighting.1.stop = true →
      after.bounds.earliest ≤ arrival planner.request ride alighting.1 egress) ?_ ?_).mono
  · intro _ after _ noted known knownFound call place alighting egress egressMember named
    rw [tripFound] at knownFound
    cases knownFound
    exact noted (call, place) alighting egress egressMember named
  · intro alighting before after reach noted egress egressMember named
    exact Int.le_trans reach.grows.earliest (noted egress egressMember named)
  rintro ⟨call, place⟩ alighting now reach
  apply (follows_forM (fun egress after =>
    after.bounds.earliest ≤ arrival planner.request ride call egress) ?_ ?_).mono
  · intro _ after _ noted egress egressMember named
    exact noted egress (List.mem_filter.mpr ⟨egressMember, named⟩)
  · intro egress before after reach noted
    exact Int.le_trans reach.grows.earliest noted
  · intro egress filtered last onward
    obtain ⟨egressMember, named⟩ := List.mem_filter.mp filtered
    have whole : outing.Reach catalogue transfers planner last := reach.trans onward
    have reaches :
        outing.Reaches catalogue last handle ride trip call place egress :=
      { base_le := base_le
        ride_eq := whole.grows.ride handle ride found
        trip_eq := tripFound
        alighting := alighting
        egress_mem := by rw [whole.request_eq]; exact egressMember
        named := named }
    apply (follows_arrive reaches).mono
    intro _ after _ noted
    rw [whole.request_eq] at noted
    exact noted

/-- Every arrival of the rides of a round is noted. -/
theorem follows_arrivals
    {round : Nat} {handles : List Nat}
    (base_le : ∀ handle ∈ handles, outing.base ≤ handle) :
    outing.Follows catalogue transfers (arrivals catalogue round handles) planner
      (fun _ after => ∀ handle ∈ handles, ∃ ride,
        after.rides.ride? handle = some ride ∧
          ride.Noted catalogue planner.request after.bounds) := by
  apply follows_forM (fun handle after => ∃ ride,
    after.rides.ride? handle = some ride ∧
      ride.Noted catalogue planner.request after.bounds)
  · rintro handle before after reach ⟨ride, found, noted⟩
    exact ⟨ride, reach.grows.ride handle ride found, noted.grows reach.grows⟩
  intro handle member now reached
  apply follows_ride_bind
  intro ride found
  apply follows_ofExcept_bind
  intro trip tripFound
  rw [Catalogue.trip_eq_ok] at tripFound
  apply follows_get_bind
  apply (follows_alightings (base_le handle member) found tripFound).mono
  intro _ after reach noted
  rw [reached.request_eq] at noted
  exact ⟨ride, reach.grows.ride handle ride found, noted⟩

/-- Searching for arrivals stores no ride and covers no trip. -/
theorem arrivals_keeps (round : Nat) (handles : List Nat) :
    Ensures (arrivals catalogue round handles) planner
      (fun _ after =>
        after.rides = planner.rides ∧ after.bounds.covered = planner.bounds.covered)
      (fun _ after =>
        after.rides = planner.rides ∧ after.bounds.covered = planner.bounds.covered) := by
  apply ensures_forM (fun now =>
    now.rides = planner.rides ∧ now.bounds.covered = planner.bounds.covered)
  · intro handle _ now kept
    simp only [ensures_bind, ensures_ride, ensures_ofExcept, ensures_get]
    refine ⟨fun ride _ => ⟨fun trip _ => ?_, fun _ _ => kept⟩, fun _ => kept⟩
    apply ensures_forM
    · rintro ⟨call, place⟩ _ here keptHere
      apply ensures_forM
      · intro egress _ last keptLast
        exact arrive_keeps keptLast
      · exact keptHere
    · exact kept
  · exact ⟨rfl, rfl⟩

/-- The destinations that can be boarded after leaving a ride are covered. -/
theorem follows_transferTo
    {handle : Nat} {ride : Ride} {left : Trip} {call : Call} {place : Nat}
    {destinations : List Position}
    (leaves : outing.Leaves catalogue planner handle ride left call place)
    (listed : ∀ destination ∈ destinations,
      destination ∈ transfers.destinations ride.serviceDay ⟨left.index, place⟩) :
    outing.Follows catalogue transfers
      (transferTo catalogue handle ride call ⟨left.index, place⟩ destinations) planner
      (fun handles after =>
        handles = planner.newRides after ∧
          ride.Continued catalogue transfers planner.request call ⟨left.index, place⟩
            destinations after.bounds) := by
  induction destinations generalizing planner with
  | nil =>
      apply follows_pure
      refine ⟨(Planner.newRides_eq_nil rfl).symm, ?_⟩
      intro _ member
      cases member
  | cons destination rest hypothesis =>
      have rest_listed : ∀ later ∈ rest,
          later ∈ transfers.destinations ride.serviceDay ⟨left.index, place⟩ :=
        fun later member => listed later (List.mem_cons_of_mem destination member)
      unfold transferTo
      apply follows_ofExcept_bind
      intro trip tripFound
      rw [Catalogue.trip_eq_ok] at tripFound
      apply follows_ofExcept_bind
      intro boarding boardingFound
      obtain ⟨known, knownFound, boarded⟩ := Catalogue.call_eq_ok.mp boardingFound
      rw [tripFound] at knownFound
      cases knownFound
      apply follows_get_bind
      -- The other destinations are transferred to after this one, whatever it gave.
      have finish : ∀ now (search : Search (Option Nat)),
          outing.Reach catalogue transfers planner now → now.rides = planner.rides →
          outing.Follows catalogue transfers search now
            (fun handle? after =>
              handle?.toList = now.newRides after ∧
                ride.Continued catalogue transfers planner.request call
                  ⟨left.index, place⟩ [destination] after.bounds) →
          outing.Follows catalogue transfers
            (search >>= fun handle? => do
              return handle?.toList ++
                (← transferTo catalogue handle ride call ⟨left.index, place⟩ rest)) now
            (fun handles after =>
              handles = planner.newRides after ∧
                ride.Continued catalogue transfers planner.request call
                  ⟨left.index, place⟩ (destination :: rest) after.bounds) := by
        intro now search reached sameRides follows
        apply follows.bind
        rintro handle? middle reach ⟨same, continued⟩
        have whole : outing.Reach catalogue transfers planner middle := reached.trans reach
        apply (hypothesis (leaves.grows whole.grows) rest_listed).bind
        rintro handles after further ⟨others, continuedRest⟩
        apply follows_pure
        constructor
        · rw [same, others, Planner.newRides_append reach.grows.size further.grows.size,
            Planner.newRides, Planner.newRides, sameRides]
        · intro later member
          rcases List.mem_cons.mp member with rfl | member
          · exact continued.grows further.grows later List.mem_cons_self
          · rw [whole.request_eq] at continuedRest
            exact continuedRest later member
      by_cases allowed :
          call.arrival ≤ boarding.departure ∧
            trip.service.activeOn ride.serviceDay = true ∧ planner.request.admits trip = true
      · rw [if_pos allowed]
        obtain ⟨inTime, active, admitted⟩ := allowed
        apply follows_record_bind
        · exact trivial
        intro reach
        have connects :
            outing.Connects catalogue transfers
              (planner.enter (.transferring ⟨left.index, place⟩ destination)) handle
              ⟨left.index, place⟩ trip destination ride left call boarding :=
          { leaves.grows reach.grows with
            origin_trip := rfl
            destination_mem := listed destination List.mem_cons_self
            boarded_eq := tripFound
            boarding_eq := boarded
            in_time := inTime
            active := active
            admitted := by rw [reach.request_eq]; exact admitted }
        apply finish _ _ reach rfl
        apply (follows_board (.transfer connects)).mono
        rintro handle? after _ ⟨same, covers⟩
        refine ⟨same, ?_⟩
        intro later member _ known boarding' knownFound _ _ _ _ inside
        cases List.mem_singleton.mp member
        rw [tripFound] at knownFound
        cases knownFound
        exact covers inside
      · rw [if_neg allowed]
        apply finish planner _ .refl rfl
        apply follows_pure
        refine ⟨(Planner.newRides_eq_nil rfl).symm, ?_⟩
        intro later member _ known boarding' knownFound boarded' inTime active admitted _
        cases List.mem_singleton.mp member
        rw [tripFound] at knownFound
        cases knownFound
        rw [boarded] at boarded'
        cases boarded'
        exact absurd ⟨inTime, active, admitted⟩ allowed

/-- A ride is transferred from at the given calls, up to one where it is no earlier than
the bound. -/
theorem follows_transferFrom
    {handle : Nat} {ride : Ride} {left : Trip} {alightings : List (Call × Nat)}
    (base_le : outing.base ≤ handle)
    (found : planner.rides.ride? handle = some ride)
    (left_eq : catalogue.trip? ride.board.trip = some left)
    (listed : ∀ alighting ∈ alightings, alighting ∈ ride.alightings left) :
    outing.Follows catalogue transfers
      (transferFrom catalogue transfers handle ride left alightings) planner
      (fun handles after =>
        handles = planner.newRides after ∧
          ride.TransferredFrom catalogue transfers planner.request left alightings
            after.bounds) := by
  induction alightings generalizing planner with
  | nil =>
      apply follows_pure
      exact ⟨(Planner.newRides_eq_nil rfl).symm, [], [], rfl, by simp, by simp⟩
  | cons alighting rest hypothesis =>
      obtain ⟨call, place⟩ := alighting
      unfold transferFrom
      apply follows_get_bind
      by_cases earlier :
          planner.bounds.improves (arrivalAt planner.request ride call) = true
      · rw [if_pos earlier]
        have leaves : outing.Leaves catalogue planner handle ride left call place :=
          ⟨base_le, found, left_eq, listed (call, place) List.mem_cons_self⟩
        apply (follows_transferTo leaves fun _ member => member).bind
        rintro handles middle reach ⟨same, continued⟩
        apply (hypothesis (reach.grows.ride handle ride found) fun later member =>
          listed later (List.mem_cons_of_mem _ member)).bind
        rintro others after further ⟨sameRest, front, back, split, continuedRest, reached⟩
        rw [reach.request_eq] at continuedRest reached
        apply follows_pure
        constructor
        · rw [same, sameRest]
          exact Planner.newRides_append reach.grows.size further.grows.size
        · refine ⟨(call, place) :: front, back, by rw [split, List.cons_append], ?_, reached⟩
          intro later placed member
          rcases List.mem_cons.mp member with first | member
          · cases first
            exact continued.grows further.grows
          · exact continuedRest later placed member
      · rw [if_neg earlier]
        apply follows_pure
        refine ⟨(Planner.newRides_eq_nil rfl).symm, [], (call, place) :: rest, rfl,
          by simp, ?_⟩
        intro first placed head
        cases head
        simpa [Bounds.improves] using earlier

/-- All rides of a round are transferred from. -/
theorem follows_transferAll
    {handles : List Nat}
    (base_le : ∀ handle ∈ handles, outing.base ≤ handle) :
    outing.Follows catalogue transfers (transferAll catalogue transfers handles) planner
      (fun next after =>
        next = planner.newRides after ∧
          ∀ handle ∈ handles, ∃ ride,
            after.rides.ride? handle = some ride ∧
              ride.Transferred catalogue transfers planner.request after.bounds) := by
  induction handles generalizing planner with
  | nil =>
      apply follows_pure
      exact ⟨(Planner.newRides_eq_nil rfl).symm, by simp⟩
  | cons handle rest hypothesis =>
      unfold transferAll
      apply follows_ride_bind
      intro ride found
      apply follows_ofExcept_bind
      intro left leftFound
      rw [Catalogue.trip_eq_ok] at leftFound
      apply (follows_transferFrom (base_le handle List.mem_cons_self) found leftFound
        fun _ member => member).bind
      rintro stored middle reach ⟨same, transferred⟩
      apply (hypothesis fun later member =>
        base_le later (List.mem_cons_of_mem handle member)).bind
      rintro others after further ⟨sameRest, transferredRest⟩
      apply follows_pure
      constructor
      · rw [same, sameRest]
        exact Planner.newRides_append reach.grows.size further.grows.size
      · intro later member
        rcases List.mem_cons.mp member with rfl | member
        · refine ⟨ride, further.grows.ride later ride (reach.grows.ride later ride found), ?_⟩
          intro trip tripFound
          rw [leftFound] at tripFound
          cases tripFound
          exact transferred.grows further.grows
        · rw [reach.request_eq] at transferredRest
          exact transferredRest later member

end Outing

end Transit
