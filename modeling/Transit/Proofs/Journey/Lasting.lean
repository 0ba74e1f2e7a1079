import Transit.Proofs.Journey.Foreign
import Transit.Proofs.Search.Moments

/-!
# The account of a label lasts

The itinerary of a label and its access station are read off the label and the rides of its
chain.  A planner only ever adds rides, and never gives a handle twice.  So what it recounts of
a label when it has found it, it recounts at every later moment: whatever it is asked in
between, whether that succeeds or fails, and also when the label is no longer on the frontier.
-/

namespace Transit.Planner

/-- What a planner recounts of a label: the journey behind it, and where the journey begins. -/
structure Recounts
    (planner : Planner) (catalogue : Catalogue) (label : Label) (itinerary : Itinerary)
    (station : Station) : Prop where
  itinerary_eq : Itinerary.ofLabel catalogue planner.rides label = .ok itinerary
  access_eq : Itinerary.accessOf planner.rides label = .ok station

/-- Every ride ends a chain, and every label that was found leaves a ride at a call of its
trip. -/
structure Accountable
    (planner : Planner) (catalogue : Catalogue) (transfers : TransferTable) : Prop where
  linked : planner.Linked catalogue transfers
  alights : ∀ label ∈ planner.found, ∃ ride trip,
    planner.rides.ride? label.ride = some ride ∧
      catalogue.trip? ride.board.trip = some trip ∧ label.alight.call < trip.calls.length

variable
  {planner before after : Planner} {catalogue : Catalogue} {transfers : TransferTable}
  {label : Label} {itinerary other : Itinerary} {station place : Station}

theorem Grows.chainOf
    (grows : before.Grows after) {chain : List Ride}
    (known : Itinerary.chainOf before.rides label = .ok chain) :
    Itinerary.chainOf after.rides label = .ok chain := by
  unfold Itinerary.chainOf at known ⊢
  cases stored : before.rides.ride? label.ride with
  | none =>
      rw [stored] at known
      cases known
  | some ride =>
      rw [stored] at known
      rw [grows.ride label.ride ride stored]
      exact RideStore.chain_eq_ok.mpr (grows.chain? (RideStore.chain_eq_ok.mp known))

namespace Recounts

/-- What a planner recounts of a label, it recounts as well when it has grown. -/
theorem grows
    (recounts : before.Recounts catalogue label itinerary station) (grows : before.Grows after) :
    after.Recounts catalogue label itinerary station where
  itinerary_eq := by
    obtain ⟨chain, known, made⟩ := Except.bind_eq_ok.mp recounts.itinerary_eq
    exact Except.bind_eq_ok.mpr ⟨chain, grows.chainOf known, made⟩
  access_eq := by
    obtain ⟨chain, known, made⟩ := Except.bind_eq_ok.mp recounts.access_eq
    exact Except.bind_eq_ok.mpr ⟨chain, grows.chainOf known, made⟩

theorem unique
    (recounts : planner.Recounts catalogue label itinerary station)
    (recounts' : planner.Recounts catalogue label other place) :
    itinerary = other ∧ station = place :=
  ⟨Except.ok.inj (recounts.itinerary_eq.symm.trans recounts'.itinerary_eq),
    Except.ok.inj (recounts.access_eq.symm.trans recounts'.access_eq)⟩

end Recounts

namespace Accountable

theorem of_found_eq
    (accountable : before.Accountable catalogue transfers) (rides : after.rides = before.rides)
    (found : after.found = before.found) : after.Accountable catalogue transfers where
  linked := accountable.linked.of_rides_eq rides
  alights := by
    rw [rides, found]
    exact accountable.alights

theorem step
    {outing : Outing} (step : outing.Step catalogue transfers before after)
    (accountable : before.Accountable catalogue transfers) :
    after.Accountable catalogue transfers := by
  refine ⟨Linked.step step accountable.linked, ?_⟩
  intro label member
  have known (old : label ∈ before.found) :
      ∃ ride trip, after.rides.ride? label.ride = some ride ∧
        catalogue.trip? ride.board.trip = some trip ∧
          label.alight.call < trip.calls.length := by
    obtain ⟨ride, trip, stored, found, inside⟩ := accountable.alights label old
    exact ⟨ride, trip, step.grows.ride label.ride ride stored, found, inside⟩
  cases step with
  | enter event quiet => exact known (by rwa [before.found_enter_of_isQuiet quiet] at member)
  | @cover trip position _ _ _ _ _ _ =>
      exact known (by rwa [before.found_cover trip position] at member)
  | @board trip position _ _ ride _ _ _ _ =>
      exact known (by rwa [(before.store ride).found_cover trip position] at member)
  | pass _ _ => exact known (by rwa [before.found_enter_passing] at member)
  | lose _ _ _ => exact known member
  | @find handle ride trip call at' egress newest reaches _ _ _ alightEq _ rideEq =>
      rw [before.found_find newest] at member
      rcases List.mem_append.mp member with old | new
      · exact known old
      · rw [List.mem_singleton.mp new, rideEq, alightEq]
        have called := ((Ride.mem_alightings _ _ _ _).mp reaches.alighting).1
        exact ⟨ride, trip, reaches.ride_eq, reaches.trip_eq,
          (List.getElem?_eq_some_iff.mp called).1⟩

theorem of_evolves
    {request : Request} {settings : Settings}
    (evolves : Evolves catalogue transfers (fresh catalogue request settings) planner) :
    planner.Accountable catalogue transfers := by
  refine evolves.keeps (fun _ _ _ step => Accountable.step step)
    (fun _ _ accountable => accountable.of_found_eq rfl rfl) ⟨?_, ?_⟩
  · intro handle ride stored
    cases RideStore.lt_size_of_ride? stored
  · intro label member
    cases member

/-- A planner recounts the journey of every label that it found. -/
theorem exists_recounts
    {timetable : Timetable} (built : timetable.IsBuilt)
    (accountable : planner.Accountable timetable.catalogue transfers)
    (member : label ∈ planner.found) :
    ∃ itinerary station, planner.Recounts timetable.catalogue label itinerary station := by
  obtain ⟨ride, trip, stored, found, inside⟩ := accountable.alights label member
  obtain ⟨itinerary, made, _⟩ := accountable.linked.exists_mixes built stored found inside
  exact ⟨itinerary, ride.access, made, accountable.linked.accessOf_eq stored⟩

end Accountable

/-- Of two moments on one way the earlier one recounts what the later one does, for it becomes
the later one. -/
theorem Evolves.recounts_of_later
    {timetable : Timetable} (built : timetable.IsBuilt) {request : Request} {settings : Settings}
    (since : Evolves timetable.catalogue transfers
      (fresh timetable.catalogue request settings) before)
    (onward : Evolves timetable.catalogue transfers before after) (member : label ∈ before.found)
    (later : after.Recounts timetable.catalogue label itinerary station) :
    before.Recounts timetable.catalogue label itinerary station := by
  obtain ⟨earlier, place, recounts⟩ := (Accountable.of_evolves since).exists_recounts built member
  obtain ⟨rfl, rfl⟩ := (recounts.grows onward.grows).unique later
  exact recounts

/-- From the moment at which a planner finds a label on, it recounts one itinerary and one
access station for it: after every session that goes on from there, and at all moments in
between. -/
theorem recounts_lastingly
    {plan : NetworkPlan} {network : Network} (built : plan.build = .ok network)
    (request : Request) (settings : Settings) (tasks : List Task) {label : Label} :
    let catalogue := network.timetable.catalogue
    let start := fresh catalogue request settings
    let session := start.performAll catalogue network.transfers
    label ∈ (session tasks).found →
      ∃ itinerary station,
        (∃ moment, Evolves catalogue network.transfers start moment ∧
          Evolves catalogue network.transfers moment (session tasks) ∧
          moment.found.getLast? = some label ∧
          moment.Recounts catalogue label itinerary station) ∧
        ∀ later, (session (tasks ++ later)).Recounts catalogue label itinerary station ∧
          ∀ moment, Evolves catalogue network.transfers start moment →
            Evolves catalogue network.transfers moment (session (tasks ++ later)) →
            label ∈ moment.found → moment.Recounts catalogue label itinerary station := by
  intro catalogue start session member
  have sound := Timetable.isBuilt_of_plan built
  have reached : Evolves catalogue network.transfers start (session tasks) :=
    evolves_performAll start tasks
  obtain ⟨itinerary, station, recounts⟩ :=
    (Accountable.of_evolves reached).exists_recounts sound member
  refine ⟨itinerary, station, ?_, ?_⟩
  · rcases reached.exists_newest member with old | ⟨moment, since, onward, newest⟩
    · cases old
    · have found := List.mem_of_getLast? newest
      exact ⟨moment, since, onward, newest,
        Evolves.recounts_of_later sound since onward found recounts⟩
  · intro later
    have grown : (session (tasks ++ later)).Recounts catalogue label itinerary station := by
      have onward : session (tasks ++ later) =
          (session tasks).performAll catalogue network.transfers later :=
        performAll_append tasks later
      rw [onward]
      exact recounts.grows (grows_performAll later)
    refine ⟨grown, ?_⟩
    intro moment since onward found
    exact Evolves.recounts_of_later sound since onward found grown

/-- What a fresh planner has become after a session on the outpaced network. -/
def outpacedSession (tasks : List Task) : Planner :=
  (fresh Sample.outpaced.timetable.catalogue (Sample.request 0) .standard).performAll
    Sample.outpaced.timetable.catalogue Sample.outpaced.transfers tasks

/-- A departure at eight with the slow trip alone. -/
def slowDeparture : Task :=
  .depart [Sample.origin] (Sample.instant 8 0) fun trip => trip.name = "slow"

/-- A departure without a station, which fails, and a sweep at other weights. -/
def otherTasks : List Task :=
  [.depart [] (Sample.instant 8 0) fun _ => true, .sweep chargingRequest]

/-- The label of the slow trip. -/
def outpacedLabel : Label :=
  { round := 0, egress := Sample.target, alight := ⟨0, 2⟩, scheduled := Sample.clock 9 0
    ride := 0, criteria := ⟨32400, 0, 28800⟩ }

/-- The quick trip drops the label of the slow one from the frontier, and still its journey is
recounted. -/
theorem recounts_lastingly_of_outpaced :
    let catalogue := Sample.outpaced.timetable.catalogue
    outpacedLabel ∈ (outpacedSession [slowDeparture]).frontier.labels ∧
      outpacedLabel ∉ (outpacedSession ([slowDeparture] ++ otherTasks)).frontier.labels ∧
      ∃ itinerary station,
        (outpacedSession [slowDeparture]).Recounts catalogue outpacedLabel itinerary station ∧
          (outpacedSession ([slowDeparture] ++ otherTasks)).Recounts catalogue outpacedLabel
            itinerary station := by
  intro catalogue
  have built : Sample.outpacedPlan.build = .ok Sample.outpaced := by decide +kernel
  have member : outpacedLabel ∈ (outpacedSession [slowDeparture]).found := by decide +kernel
  obtain ⟨itinerary, station, _, lasts⟩ :=
    recounts_lastingly built (Sample.request 0) .standard [slowDeparture] member
  refine ⟨by decide +kernel, by decide +kernel, itinerary, station, ?_, ?_⟩
  · exact (lasts []).1
  · exact (lasts otherTasks).1

end Transit.Planner
