import Transit.Proofs.Order.Arrange
import Transit.Proofs.Search.Follows

/-!
# Boarding

The searches that board trips give the handles of the rides they stored, and afterwards
every trip that they were to board is covered from there on.
-/

namespace Transit.Outing

open Search

variable
  {outing : Outing} {catalogue : Catalogue} {transfers : TransferTable}
  {planner : Planner}

theorem Reach.of_board
    {trip : Trip} {position : Position} {approach : Approach} {limit : Nat} {ride : Ride}
    (approaches : outing.Approaches catalogue transfers planner trip position approach)
    (known : planner.bounds.coveredFrom? trip.index = some limit)
    (far : position.call + 1 < limit)
    (leads : approach.Leads catalogue planner.rides trip position limit ride) :
    outing.Reach catalogue transfers planner ((planner.store ride).cover trip position) :=
  .single (.board approaches known far leads)

theorem covers_cover
    {trip : Trip} {limit : Nat} (position : Position)
    (inside : trip.index < trip.patternEnd)
    (known : planner.bounds.coveredFrom? trip.index = some limit) :
    (planner.cover trip position).bounds.Covers trip.index position.call :=
  Bounds.exists_coveredFrom?_cover_self position.call inside known

/-- After a boarding the trip is covered from there on, whatever happened. -/
theorem follows_board
    {trip : Trip} {position : Position} {approach : Approach}
    (approaches : outing.Approaches catalogue transfers planner trip position approach) :
    outing.Follows catalogue transfers (board catalogue trip position approach) planner
      (fun handle? after =>
        handle?.toList = planner.newRides after ∧
          (trip.index < trip.patternEnd →
            after.bounds.Covers trip.index position.call)) := by
  apply ensures_board
  · intro _
    exact .refl
  · intro limit known reached
    refine ⟨.refl, (Planner.newRides_eq_nil rfl).symm, fun _ => ?_⟩
    exact ⟨limit, known, reached⟩
  · intro limit known before near
    refine ⟨.single (.cover approaches known before near),
      (Planner.newRides_eq_nil rfl).symm, fun inside => ?_⟩
    exact covers_cover position inside known
  · intro limit ride known far leads
    refine ⟨.of_board approaches known far leads, ?_, fun inside => ?_⟩
    · simp [Planner.newRides]
    · have stored : (planner.store ride).bounds.coveredFrom? trip.index = some limit := known
      exact covers_cover position inside stored

/-- The patterns among `boardings` are boarded as the station offers them. -/
def Boarded
    (outing : Outing) (catalogue : Catalogue) (reached : LocalTime)
    (boardings : Boardings) (planner : Planner) : Prop :=
  ∀ pattern positions later trip position,
    (pattern, positions) ∈ boardings →
    catalogue.departingFrom reached.second positions = .ok later →
    catalogue.firstUsable reached.date outing.admits later = .ok (some (trip, position)) →
    trip.index < trip.patternEnd →
    planner.bounds.Covers trip.index position.call

/-- The first boarding of a pattern is boarded, if it has one. -/
theorem follows_boardFirst
    {station : Station} {reached : LocalTime} {pattern : String}
    {positions later : List Position} {first : Option (Trip × Position)}
    (station_mem : station ∈ outing.access)
    (local_eq : station.localDeparture? outing.departure = some reached)
    (offered : (pattern, positions) ∈ (catalogue.boardings? station.stop).getD [])
    (departing : catalogue.departingFrom reached.second positions = .ok later)
    (usable : catalogue.firstUsable reached.date outing.admits later = .ok first) :
    outing.Follows catalogue transfers
      (match first with
        | some (trip, position) =>
            board catalogue trip position (.walk station reached.date)
        | none => pure none) planner
      (fun handle? after =>
        handle?.toList = planner.newRides after ∧
          outing.Boarded catalogue reached [(pattern, positions)] after) := by
  cases first with
  | none =>
      apply follows_pure
      refine ⟨(Planner.newRides_eq_nil rfl).symm, ?_⟩
      intro _ _ _ trip position member bisected found _
      cases List.mem_singleton.mp member
      rw [departing] at bisected
      cases bisected
      rw [usable] at found
      cases found
  | some boarding =>
      obtain ⟨trip, position⟩ := boarding
      have approaches :
          outing.Approaches catalogue transfers planner trip position
            (.walk station reached.date) :=
        .walk ⟨station_mem, local_eq, pattern, positions, later, offered, departing, usable⟩
      apply (follows_board approaches).mono
      rintro handle? after _ ⟨same, covers⟩
      refine ⟨same, ?_⟩
      intro _ _ _ _ _ member bisected found inside
      cases List.mem_singleton.mp member
      rw [departing] at bisected
      cases bisected
      rw [usable] at found
      cases found
      exact covers inside

theorem follows_boardPatterns
    {station : Station} {reached : LocalTime} {boardings : Boardings}
    (station_mem : station ∈ outing.access)
    (local_eq : station.localDeparture? outing.departure = some reached)
    (offered : ∀ entry ∈ boardings, entry ∈ (catalogue.boardings? station.stop).getD []) :
    outing.Follows catalogue transfers
      (boardPatterns catalogue station reached outing.admits boardings) planner
      (fun handles after =>
        handles = planner.newRides after ∧
          outing.Boarded catalogue reached boardings after) := by
  induction boardings generalizing planner with
  | nil =>
      apply follows_pure
      refine ⟨(Planner.newRides_eq_nil rfl).symm, ?_⟩
      intro _ _ _ _ _ member
      cases member
  | cons entry rest hypothesis =>
      obtain ⟨pattern, positions⟩ := entry
      have entry_mem := offered (pattern, positions) List.mem_cons_self
      have rest_mem : ∀ entry ∈ rest, entry ∈ (catalogue.boardings? station.stop).getD [] :=
        fun entry member => offered entry (List.mem_cons_of_mem _ member)
      unfold boardPatterns
      apply follows_ofExcept_bind
      intro later bisected
      apply follows_ofExcept_bind
      intro first usable
      have others : ∀ (handle? : Option Nat) (middle : Planner),
          outing.Reach catalogue transfers planner middle →
          handle?.toList = planner.newRides middle ∧
            outing.Boarded catalogue reached [(pattern, positions)] middle →
          outing.Follows catalogue transfers
            (do
              return handle?.toList ++
                (← boardPatterns catalogue station reached outing.admits rest)) middle
            (fun handles after =>
              handles = planner.newRides after ∧
                outing.Boarded catalogue reached ((pattern, positions) :: rest) after) := by
        rintro handle? middle reach ⟨same, boarded⟩
        apply (hypothesis rest_mem).bind
        rintro handles after further ⟨sameRest, boardedRest⟩
        apply follows_pure
        constructor
        · rw [same, sameRest]
          exact Planner.newRides_append reach.grows.size further.grows.size
        · intro name list later' trip position member departing found inside
          rcases List.mem_cons.mp member with same | member
          · have early := boarded name list later' trip position
              (List.mem_singleton.mpr same) departing found inside
            exact further.grows.covers early
          · exact boardedRest name list later' trip position member departing found inside
      -- The search goes on inside either case of the first boarding.
      cases first with
      | none =>
          exact (follows_boardFirst station_mem local_eq entry_mem bisected usable).bind others
      | some boarding =>
          exact (follows_boardFirst station_mem local_eq entry_mem bisected usable).bind others

/-- Everything that a station offers is covered. -/
def Served (outing : Outing) (catalogue : Catalogue) (planner : Planner)
    (station : Station) : Prop :=
  ∃ reached, station.localDeparture? outing.departure = some reached ∧
    outing.Boarded catalogue reached ((catalogue.boardings? station.stop).getD []) planner

theorem Served.grows
    {before after : Planner} {station : Station}
    (served : outing.Served catalogue before station) (grows : before.Grows after) :
    outing.Served catalogue after station := by
  obtain ⟨reached, local_eq, boarded⟩ := served
  refine ⟨reached, local_eq, ?_⟩
  intro pattern positions later trip position member departing found inside
  exact grows.covers
    (boarded pattern positions later trip position member departing found inside)

theorem follows_boardStations
    {stations : List Station}
    (stations_mem : ∀ station ∈ stations, station ∈ outing.access) :
    outing.Follows catalogue transfers
      (boardStations catalogue outing.departure outing.admits stations) planner
      (fun handles after =>
        handles = planner.newRides after ∧
          ∀ station ∈ stations, outing.Served catalogue after station) := by
  induction stations generalizing planner with
  | nil =>
      apply follows_pure
      exact ⟨(Planner.newRides_eq_nil rfl).symm, by simp⟩
  | cons station rest hypothesis =>
      unfold boardStations
      cases local_eq : station.localDeparture? outing.departure with
      | none => exact follows_throw
      | some reached =>
          apply (follows_boardPatterns (stations_mem station List.mem_cons_self) local_eq
            fun _ member => member).bind
          rintro handles middle reach ⟨same, boarded⟩
          apply (hypothesis fun later member =>
            stations_mem later (List.mem_cons_of_mem station member)).bind
          rintro others after further ⟨sameRest, served⟩
          apply follows_pure
          constructor
          · rw [same, sameRest]
            exact Planner.newRides_append reach.grows.size further.grows.size
          · intro later member
            rcases List.mem_cons.mp member with rfl | member
            · exact Served.grows ⟨reached, local_eq, boarded⟩ further.grows
            · exact served later member

/-- Putting rides into order changes nothing and loses no ride. -/
theorem follows_byDeparture (handles : List Nat) :
    outing.Follows catalogue transfers (byDeparture catalogue handles) planner
      (fun ordered after => after = planner ∧ ordered.Perm handles) := by
  unfold byDeparture
  apply follows_get_bind
  apply follows_ofExcept_bind
  intro keyed worked
  have same : keyed.map Prod.snd = handles := by
    induction handles generalizing keyed with
    | nil =>
        cases worked
        rfl
    | cons handle rest hypothesis =>
        rw [List.mapM_cons] at worked
        obtain ⟨first, firstWorked, worked⟩ := Except.bind_eq_ok.mp worked
        obtain ⟨others, othersWorked, worked⟩ := Except.bind_eq_ok.mp worked
        obtain ⟨_, _, firstSame⟩ := Except.bind_eq_ok.mp firstWorked
        cases firstSame
        cases worked
        rw [List.map_cons, hypothesis _ othersWorked]
  apply follows_pure
  refine ⟨rfl, ?_⟩
  rw [← same]
  exact (Order.arrange_perm _ keyed).map Prod.snd

end Transit.Outing
