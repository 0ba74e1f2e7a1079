import Transit.Proofs.Search.PlainBoarding
import Transit.Proofs.Search.Stocked

/-!
# Searches that complete

`Search.Completes` says that a search of a stocked planner fails only as it may, and what
it gives if it does not fail.  On a built timetable with resolved transfers every look-up
of a search succeeds, so that a departure fails only where the local departure from one of
its access stations is out of range.
-/

namespace Transit

/-- Every transfer leads to a call of the catalogue. -/
def TransferTable.IsResolved (transfers : TransferTable) (catalogue : Catalogue) : Prop :=
  ∀ day origin destination, destination ∈ transfers.destinations day origin →
    ∃ trip call, catalogue.trip? destination.trip = some trip ∧
      trip.calls[destination.call]? = some call

namespace Search

variable {catalogue : Catalogue} {refuses : RoutingFault → Prop} {planner : Planner}
  {Value Other : Type}

/-- A search fails only as it may.  If it does not fail, the planner has grown, is stocked
still, and the search gives what it should. -/
def Completes
    (catalogue : Catalogue) (refuses : RoutingFault → Prop) (search : Search Value)
    (planner : Planner) (gives : Value → Planner → Prop) : Prop :=
  Ensures search planner
    (fun value after => planner.Grows after ∧ after.Stocked catalogue ∧ gives value after)
    (fun fault _ => refuses fault)

theorem Completes.mono
    {search : Search Value} {gives gives' : Value → Planner → Prop}
    (completes : Completes catalogue refuses search planner gives)
    (weaker : ∀ value after, planner.Grows after → after.Stocked catalogue →
      gives value after → gives' value after) :
    Completes catalogue refuses search planner gives' := by
  apply Ensures.imp completes
  rintro value after ⟨grows, stocked, given⟩
  exact ⟨grows, stocked, weaker value after grows stocked given⟩

theorem Completes.bind
    {search : Search Other} {next : Other → Search Value}
    {middle : Other → Planner → Prop} {gives : Value → Planner → Prop}
    (first : Completes catalogue refuses search planner middle)
    (second : ∀ value after, planner.Grows after → after.Stocked catalogue →
      middle value after → Completes catalogue refuses (next value) after gives) :
    Completes catalogue refuses (search >>= next) planner gives := by
  unfold Completes
  rw [ensures_bind]
  apply Ensures.imp first
  rintro value after ⟨grows, stocked, given⟩
  apply Ensures.imp (second value after grows stocked given)
  rintro result last ⟨further, stockedLast, found⟩
  exact ⟨grows.trans further, stockedLast, found⟩

theorem completes_pure
    {value : Value} {gives : Value → Planner → Prop} (stocked : planner.Stocked catalogue)
    (given : gives value planner) :
    Completes catalogue refuses (pure value) planner gives :=
  ⟨.refl planner, stocked, given⟩

theorem completes_record (stocked : planner.Stocked catalogue) (event : Event) :
    Completes catalogue refuses (record event) planner (fun _ _ => True) :=
  ⟨planner.grows_enter event, stocked.of_rides_eq (planner.grows_enter event) rfl, trivial⟩

section Sequence

variable {gives : Value → Planner → Prop}

theorem completes_get_bind
    {next : Planner → Search Value}
    (completes : Completes catalogue refuses (next planner) planner gives) :
    Completes catalogue refuses (get >>= next) planner gives := by
  unfold Completes
  rw [ensures_bind, ensures_get]
  exact completes

theorem completes_ofExcept_bind
    {result : Except RoutingFault Other} {value : Other} {next : Other → Search Value}
    (worked : result = .ok value)
    (completes : Completes catalogue refuses (next value) planner gives) :
    Completes catalogue refuses (ofExcept result >>= next) planner gives := by
  rw [worked]
  exact completes

theorem completes_ride_bind
    {handle : Nat} {known : Ride} {next : Ride → Search Value}
    (found : planner.rides.ride? handle = some known)
    (completes : Completes catalogue refuses (next known) planner gives) :
    Completes catalogue refuses (ride handle >>= next) planner gives := by
  unfold Completes
  rw [ensures_bind, ensures_ride, found]
  refine ⟨fun _ same => ?_, fun impossible => ?_⟩
  · cases same
    exact completes
  · cases impossible

end Sequence

/-- A loop completes if each of its turns does. -/
theorem completes_forM
    {Entry : Type} {turn : Entry → Search Unit} {entries : List Entry}
    (turns : ∀ entry ∈ entries, ∀ now, planner.Grows now → now.Stocked catalogue →
      Completes catalogue refuses (turn entry) now fun _ _ => True)
    (stocked : planner.Stocked catalogue) :
    Completes catalogue refuses (entries.forM turn) planner fun _ _ => True := by
  apply (ensures_forM (fun now => planner.Grows now ∧ now.Stocked catalogue) ?_
    ⟨.refl planner, stocked⟩).imp
  · rintro _ after ⟨grows, stockedAfter⟩
    exact ⟨grows, stockedAfter, trivial⟩
  · rintro entry member now ⟨grows, stockedNow⟩
    apply Ensures.imp (turns entry member now grows stockedNow)
    rintro _ after ⟨further, stockedAfter, _⟩
    exact ⟨grows.trans further, stockedAfter⟩

/-- All handles are those of stored rides. -/
def AreStored (handles : List Nat) (planner : Planner) : Prop :=
  ∀ handle ∈ handles, ∃ ride, planner.rides.ride? handle = some ride

theorem AreStored.grows
    {before after : Planner} {handles : List Nat}
    (stored : AreStored handles before) (grows : before.Grows after) :
    AreStored handles after := by
  intro handle member
  obtain ⟨ride, found⟩ := stored handle member
  exact ⟨ride, grows.ride handle ride found⟩

theorem AreStored.append
    {first second : List Nat} (left : AreStored first planner)
    (right : AreStored second planner) :
    AreStored (first ++ second) planner := by
  intro handle member
  rcases List.mem_append.mp member with front | back
  · exact left handle front
  · exact right handle back

theorem areStored_nil (planner : Planner) : AreStored [] planner := by
  intro handle member
  cases member

/-- Searches for handles in a row give the handles of all. -/
theorem Completes.bind_append
    (handles : Other → List Nat) {search : Search Other} {next : Search (List Nat)}
    (first : Completes catalogue refuses search planner
      fun value after => AreStored (handles value) after)
    (rest : ∀ after, planner.Grows after → after.Stocked catalogue →
      Completes catalogue refuses next after AreStored) :
    Completes catalogue refuses
      (search >>= fun value => next >>= fun others => pure (handles value ++ others)) planner
      AreStored := by
  apply first.bind
  intro value middle grows stockedMiddle stored
  apply (rest middle grows stockedMiddle).bind
  intro others after further stockedAfter storedRest
  exact completes_pure stockedAfter ((stored.grows further).append storedRest)

theorem ensures_rideAfter_of_leads
    {trip : Trip} {position : Position} {limit : Nat} {approach : Approach} {ride : Ride}
    {done : Ride → Planner → Prop} {failed : RoutingFault → Planner → Prop}
    (leads : approach.Leads catalogue planner.rides trip position limit ride)
    (given : done ride planner) :
    Ensures (rideAfter catalogue trip position limit approach) planner done failed := by
  cases leads with
  | walk station serviceDay => exact given
  | @transfer parent origin previous left parentFound leftFound =>
      simp only [rideAfter, ensures_bind, ensures_ride, ensures_ofExcept, ensures_pure,
        parentFound, Catalogue.trip_eq_ok.mpr leftFound, Option.some.injEq, Except.ok.injEq,
        forall_eq', reduceCtorEq, false_implies, implies_true, and_true]
      exact given

/-- A call of a trip can be boarded by an approach that leads there. -/
theorem completes_board
    {trip : Trip} {position : Position} {call : Call} {approach : Approach}
    (stocked : planner.Stocked catalogue) (found : catalogue.trip? position.trip = some trip)
    (calls : trip.calls[position.call]? = some call)
    (led : ∀ limit, ∃ ride, approach.Leads catalogue planner.rides trip position limit ride) :
    Completes catalogue refuses (board catalogue trip position approach) planner
      fun handle? after => AreStored handle?.toList after := by
  obtain ⟨limit, known⟩ := stocked.limited position.trip trip found
  unfold Completes board
  simp only [ensures_bind, ensures_get, known, ensures_ite, ensures_pure, ensures_cover,
    ensures_store]
  have grows := planner.grows_cover trip position
  refine ⟨fun _ => ⟨.refl planner, stocked, areStored_nil planner⟩, fun _ => ⟨fun _ => ?_,
    fun _ => ?_⟩⟩
  · exact ⟨grows, stocked.of_rides_eq grows rfl, areStored_nil _⟩
  · obtain ⟨ride, leads⟩ := led limit
    apply ensures_rideAfter_of_leads leads
    refine ⟨planner.grows_board ride trip position, stocked.board found calls leads, ?_⟩
    intro handle member
    cases List.mem_singleton.mp member
    exact ⟨ride, planner.ride?_board_self ride trip position⟩

theorem completes_announce
    {round : Nat} {handles : List Nat} (stocked : planner.Stocked catalogue)
    (stored : AreStored handles planner) :
    Completes catalogue refuses (announce catalogue round handles) planner
      fun _ _ => True := by
  unfold announce
  apply (completes_record stocked _).bind
  intro _ middle grows stockedMiddle _
  apply completes_forM
  · intro handle member now further stockedNow
    obtain ⟨ride, found⟩ := (stored.grows (grows.trans further)) handle member
    apply completes_ride_bind found
    cases catalogue.trip? ride.board.trip with
    | some trip => exact completes_record stockedNow _
    | none => exact completes_pure stockedNow trivial
  · exact stockedMiddle

theorem completes_arrive
    {round handle : Nat} {ride : Ride} {trip : Trip} {call : Call} {place : Nat}
    {egress : Station} (stocked : planner.Stocked catalogue)
    (found : planner.rides.ride? handle = some ride) :
    Completes catalogue refuses (arrive catalogue round handle ride trip call place egress)
      planner fun _ _ => True := by
  apply ensures_arrive
  · intro _
    have grows := planner.grows_enter
      (.passing handle egress (Outing.arrival planner.request ride call egress))
    exact ⟨grows, stocked.of_rides_eq grows rfl, trivial⟩
  · intro fault _ broken
    obtain ⟨criteria, worked⟩ :=
      stocked.exists_criteria found (Outing.arrival planner.request ride call egress)
    rw [worked] at broken
    cases broken
  · intro criteria _ _ _
    have grows := planner.grows_find
      { round, egress, alight := ⟨trip.index, place⟩, scheduled := call.arrival
        ride := handle, criteria }
    exact ⟨grows, stocked.of_rides_eq grows rfl, trivial⟩

theorem completes_arrivals
    {round : Nat} {handles : List Nat} (stocked : planner.Stocked catalogue)
    (stored : AreStored handles planner) :
    Completes catalogue refuses (arrivals catalogue round handles) planner
      fun _ _ => True := by
  apply completes_forM
  · intro handle member now grows stockedNow
    obtain ⟨ride, found⟩ := stored.grows grows handle member
    obtain ⟨trip, tripFound⟩ := stockedNow.exists_trip found
    apply completes_ride_bind found
    apply completes_ofExcept_bind (Catalogue.trip_eq_ok.mpr tripFound)
    apply completes_get_bind
    apply completes_forM
    · rintro ⟨call, place⟩ _ here further stockedHere
      apply completes_forM
      · intro egress _ last onward stockedLast
        have kept := (further.trans onward).ride handle ride found
        exact completes_arrive stockedLast kept
      · exact stockedHere
    · exact stockedNow
  · exact stocked

/-- The first half of a round completes, and nothing is lost for what follows. -/
theorem completes_hear
    {round : Nat} {handles : List Nat} {next : Search Value}
    {gives : Value → Planner → Prop} (stocked : planner.Stocked catalogue)
    (stored : AreStored handles planner)
    (rest : ∀ after, planner.Grows after → after.Stocked catalogue →
      Completes catalogue refuses next after gives) :
    Completes catalogue refuses
      (announce catalogue round handles >>= fun _ =>
        arrivals catalogue round handles >>= fun _ => next) planner gives := by
  apply (completes_announce stocked stored).bind
  intro _ middle grows stockedMiddle _
  apply (completes_arrivals stockedMiddle (stored.grows grows)).bind
  intro _ after further stockedAfter _
  exact rest after (grows.trans further) stockedAfter

/-- The destinations of transfers can be boarded. -/
theorem completes_transferTo
    {handle : Nat} {ride : Ride} {left : Trip} {call : Call} {origin : Position}
    {destinations : List Position} (stocked : planner.Stocked catalogue)
    (found : planner.rides.ride? handle = some ride)
    (leftFound : catalogue.trip? origin.trip = some left)
    (called : ∀ destination ∈ destinations, ∃ trip call,
      catalogue.trip? destination.trip = some trip ∧
        trip.calls[destination.call]? = some call) :
    Completes catalogue refuses
      (transferTo catalogue handle ride call origin destinations) planner AreStored := by
  induction destinations generalizing planner with
  | nil => exact completes_pure stocked (areStored_nil planner)
  | cons destination rest hypothesis =>
      obtain ⟨trip, boarding, tripFound, calls⟩ := called destination List.mem_cons_self
      unfold transferTo
      apply completes_ofExcept_bind (Catalogue.trip_eq_ok.mpr tripFound)
      apply completes_ofExcept_bind (Catalogue.call_eq_ok.mpr ⟨trip, tripFound, calls⟩)
      apply completes_get_bind
      have others : ∀ now, planner.Grows now → now.Stocked catalogue →
          Completes catalogue refuses (transferTo catalogue handle ride call origin rest) now
            AreStored := by
        intro now grows stockedNow
        exact hypothesis stockedNow (grows.ride handle ride found) fun later member =>
          called later (List.mem_cons_of_mem destination member)
      by_cases allowed :
          call.arrival ≤ boarding.departure ∧
            trip.service.activeOn ride.serviceDay = true ∧ planner.request.admits trip = true
      · rw [if_pos allowed]
        have entered := planner.grows_enter (.transferring origin destination)
        have stockedEntered := stocked.of_rides_eq entered rfl
        have recorded : Completes catalogue refuses
            (record (.transferring origin destination)) planner
            (fun _ after => after = planner.enter (.transferring origin destination)) :=
          ⟨entered, stockedEntered, rfl⟩
        apply recorded.bind
        rintro _ _ _ _ rfl
        apply Completes.bind_append Option.toList
        · apply completes_board stockedEntered tripFound calls
          intro limit
          exact ⟨_, .transfer found leftFound⟩
        · intro now grows
          exact others now (entered.trans grows)
      · rw [if_neg allowed]
        apply Completes.bind_append Option.toList
        · exact completes_pure stocked (areStored_nil planner)
        · exact others

section Built

variable {timetable : Timetable} {transfers : TransferTable}

theorem completes_transferFrom
    (built : timetable.IsBuilt) (resolved : transfers.IsResolved timetable.catalogue)
    {handle : Nat} {ride : Ride} {trip : Trip} {alightings : List (Call × Nat)}
    (stocked : planner.Stocked timetable.catalogue)
    (found : planner.rides.ride? handle = some ride) (member : trip ∈ timetable.trips) :
    Completes timetable.catalogue refuses
      (transferFrom timetable.catalogue transfers handle ride trip alightings) planner
      AreStored := by
  induction alightings generalizing planner with
  | nil => exact completes_pure stocked (areStored_nil planner)
  | cons alighting rest hypothesis =>
      obtain ⟨call, place⟩ := alighting
      unfold transferFrom
      apply completes_get_bind
      split
      case isTrue =>
        have leftFound : timetable.catalogue.trip? (⟨trip.index, place⟩ : Position).trip =
            some trip := built.trip?_index member
        apply Completes.bind_append id
        · exact completes_transferTo stocked found leftFound (resolved _ _)
        · intro now grows stockedNow
          exact hypothesis stockedNow (grows.ride handle ride found)
      case isFalse => exact completes_pure stocked (areStored_nil planner)

theorem completes_transferAll
    (built : timetable.IsBuilt) (resolved : transfers.IsResolved timetable.catalogue)
    {handles : List Nat} (stocked : planner.Stocked timetable.catalogue)
    (stored : AreStored handles planner) :
    Completes timetable.catalogue refuses
      (transferAll timetable.catalogue transfers handles) planner AreStored := by
  induction handles generalizing planner with
  | nil => exact completes_pure stocked (areStored_nil planner)
  | cons handle rest hypothesis =>
      obtain ⟨ride, found⟩ := stored handle List.mem_cons_self
      obtain ⟨trip, tripFound⟩ := stocked.exists_trip found
      unfold transferAll
      apply completes_ride_bind found
      apply completes_ofExcept_bind (Catalogue.trip_eq_ok.mpr tripFound)
      apply Completes.bind_append id
      · exact completes_transferFrom built resolved stocked found
          (Timetable.IsBuilt.mem_of_trip? tripFound)
      · intro now grows stockedNow
        exact hypothesis stockedNow fun later member =>
          stored.grows grows later (List.mem_cons_of_mem handle member)

theorem completes_rounds
    (built : timetable.IsBuilt) (resolved : transfers.IsResolved timetable.catalogue)
    {left round : Nat} {handles : List Nat} (stocked : planner.Stocked timetable.catalogue)
    (stored : AreStored handles planner) :
    Completes timetable.catalogue refuses
      (rounds timetable.catalogue transfers left round handles) planner
      fun _ _ => True := by
  induction left generalizing planner round handles with
  | zero =>
      unfold rounds
      apply completes_hear stocked stored
      intro after _ stockedAfter
      exact completes_pure stockedAfter trivial
  | succ left hypothesis =>
      unfold rounds
      apply completes_hear stocked stored
      intro after grows stockedAfter
      cases handles with
      | nil => exact completes_pure stockedAfter trivial
      | cons handle rest =>
          apply (completes_transferAll built resolved stockedAfter (stored.grows grows)).bind
          intro next last _ stockedLast storedNext
          exact hypothesis stockedLast storedNext

/-- The first usable boarding of a pattern at a station can be looked up, and is a call. -/
theorem exists_firstBoarding
    (built : timetable.IsBuilt) {stop : Stop} {pattern : String} {positions : List Position}
    (listed : (pattern, positions) ∈ (timetable.catalogue.boardings? stop).getD [])
    (reached : LocalTime) (admits : Trip → Bool) :
    ∃ later first,
      timetable.catalogue.departingFrom reached.second positions = .ok later ∧
        timetable.catalogue.firstUsable reached.date admits later = .ok first ∧
          ∀ trip position, first = some (trip, position) →
            timetable.catalogue.trip? position.trip = some trip ∧
              ∃ call, trip.calls[position.call]? = some call := by
  obtain ⟨later, departing, usable⟩ := built.exists_departingFrom listed reached admits
  refine ⟨later, _, departing, usable, ?_⟩
  intro trip position found
  obtain ⟨suits, _⟩ := built.suits_of_firstSuiting? found
  obtain ⟨_, call, called, _⟩ := suits.boards
  exact ⟨suits.trip_eq, call, called⟩

/-- What the stations list can be boarded. -/
theorem completes_boardPatterns
    (built : timetable.IsBuilt) {station : Station} {reached : LocalTime}
    {admits : Trip → Bool} {boardings : Boardings}
    (stocked : planner.Stocked timetable.catalogue)
    (offered : ∀ entry ∈ boardings,
      entry ∈ (timetable.catalogue.boardings? station.stop).getD []) :
    Completes timetable.catalogue refuses
      (boardPatterns timetable.catalogue station reached admits boardings) planner
      AreStored := by
  induction boardings generalizing planner with
  | nil => exact completes_pure stocked (areStored_nil planner)
  | cons entry rest hypothesis =>
      obtain ⟨pattern, positions⟩ := entry
      have rest_offered : ∀ entry ∈ rest,
          entry ∈ (timetable.catalogue.boardings? station.stop).getD [] :=
        fun entry member => offered entry (List.mem_cons_of_mem _ member)
      obtain ⟨later, first, departing, usable, calls⟩ :=
        exists_firstBoarding built (offered (pattern, positions) List.mem_cons_self) reached
          admits
      have others : ∀ now, planner.Grows now → now.Stocked timetable.catalogue →
          Completes timetable.catalogue refuses
            (boardPatterns timetable.catalogue station reached admits rest) now AreStored :=
        fun _ _ stockedNow => hypothesis stockedNow rest_offered
      unfold boardPatterns
      apply completes_ofExcept_bind departing
      apply completes_ofExcept_bind usable
      cases first with
      | none =>
          apply Completes.bind_append Option.toList
          · exact completes_pure stocked (areStored_nil planner)
          · exact others
      | some boarding =>
          obtain ⟨trip, position⟩ := boarding
          obtain ⟨found, call, called⟩ := calls trip position rfl
          apply Completes.bind_append Option.toList
          · apply completes_board stocked found called
            intro limit
            exact ⟨_, .walk station reached.date⟩
          · exact others

/-- Boarding at stations fails only where there is no local time. -/
theorem completes_boardStations
    (built : timetable.IsBuilt) {departure : Instant} {admits : Trip → Bool}
    {stations : List Station} (stocked : planner.Stocked timetable.catalogue)
    (refused : ∀ station ∈ stations, station.localDeparture? departure = none →
      refuses (unreached station departure)) :
    Completes timetable.catalogue refuses
      (boardStations timetable.catalogue departure admits stations) planner
      fun handles after => AreStored handles after ∧
        ∀ station ∈ stations, ∃ reached, station.localDeparture? departure = some reached := by
  induction stations generalizing planner with
  | nil => exact completes_pure stocked ⟨areStored_nil planner, by simp⟩
  | cons station rest hypothesis =>
      unfold boardStations
      cases local_eq : station.localDeparture? departure with
      | none => exact refused station List.mem_cons_self local_eq
      | some reached =>
          apply (completes_boardPatterns built stocked fun _ member => member).bind
          intro handles middle grows stockedMiddle stored
          apply (hypothesis stockedMiddle fun later member =>
            refused later (List.mem_cons_of_mem station member)).bind
          rintro others after further stockedAfter ⟨storedRest, known⟩
          refine completes_pure stockedAfter ⟨(stored.grows further).append storedRest, ?_⟩
          intro later member
          rcases List.mem_cons.mp member with rfl | member
          · exact ⟨reached, local_eq⟩
          · exact known later member

theorem completes_byDeparture
    {handles : List Nat} (stocked : planner.Stocked catalogue)
    (stored : AreStored handles planner) :
    Completes catalogue refuses (byDeparture catalogue handles) planner AreStored := by
  have keyed : ∃ keyed, (handles.mapM fun handle => do
      return (← planner.rides.departure catalogue handle, handle)) = .ok keyed := by
    apply Except.exists_mapM
    intro handle member
    obtain ⟨ride, found⟩ := stored handle member
    obtain ⟨departure, departs⟩ := stocked.exists_departure found
    exact ⟨(departure, handle), by rw [departs]; rfl⟩
  obtain ⟨keyed, worked⟩ := keyed
  unfold byDeparture
  apply completes_get_bind
  apply completes_ofExcept_bind worked
  apply completes_pure stocked
  intro handle member
  obtain ⟨⟨departure, known⟩, arranged, rfl⟩ := List.mem_map.mp member
  rw [Order.mem_arrange, Except.mem_of_mapM worked] at arranged
  obtain ⟨entry, entryMember, made⟩ := arranged
  obtain ⟨_, _, same⟩ := Except.bind_eq_ok.mp made
  cases same
  exact stored _ entryMember

/-- A departure from stations to stations fails only where there is no local time. -/
theorem completes_depart
    (built : timetable.IsBuilt) (resolved : transfers.IsResolved timetable.catalogue)
    {access : List Station} {departure : Instant} {admits : Trip → Bool}
    (stocked : planner.Stocked timetable.catalogue) (someAccess : access ≠ [])
    (someEgress : planner.request.egress ≠ [])
    (refused : ∀ station ∈ access, station.localDeparture? departure = none →
      refuses (unreached station departure)) :
    Completes timetable.catalogue refuses
      (depart timetable.catalogue transfers access departure admits) planner
      fun _ _ => ∀ station ∈ access,
        ∃ reached, station.localDeparture? departure = some reached := by
  unfold depart
  rw [if_neg (by simpa using someAccess)]
  apply completes_get_bind
  rw [if_neg (by simpa using someEgress)]
  apply (completes_boardStations built stocked refused).bind
  rintro handles first _ stockedFirst ⟨stored, known⟩
  apply (completes_byDeparture stockedFirst stored).bind
  intro ordered second _ stockedSecond storedOrdered
  apply (completes_record stockedSecond _).bind
  intro _ third grows stockedThird _
  apply completes_get_bind
  apply (completes_rounds built resolved stockedThird (storedOrdered.grows grows)).mono
  intro _ _ _ _ _
  exact known

end Built

end Search

end Transit
