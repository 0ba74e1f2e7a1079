import Transit.Proofs.Journey.Account
import Transit.Proofs.Journey.Sample

/-!
# Which trips a departure rides

A departure boards the first trip of a journey by the filter it is given, and every trip
after a transfer by the filter of the planner's request.  Its journeys keep to the filter
that was given if that one admits whatever the request admits; else a transfer may lead to
a trip that the filter excludes.
-/

namespace Transit

namespace Outing

variable
  {outing : Outing} {timetable : Timetable} {transfers : TransferTable}
  {admits : Trip → Bool} {ride : Ride} {trip : Trip} {call : Call} {place : Nat}

/-- The trips that an outing may ride, at first or after a transfer. -/
def Permits (outing : Outing) (admits : Trip → Bool) (trip : Trip) : Bool :=
  outing.admits trip || admits trip

theorem permits_of_first (admitted : outing.admits trip = true) :
    outing.Permits admits trip = true := by
  rw [Permits, admitted, Bool.true_or]

theorem permits_of_later (admitted : admits trip = true) :
    outing.Permits admits trip = true := by
  rw [Permits, admitted, Bool.or_true]

/-- Every chain of an outing is accounted for, and the hops after its first are on trips
that the request admits. -/
theorem Chained.exists_permitted
    (built : timetable.IsBuilt) {chain rest : List Ride} (chain_eq : chain = ride :: rest)
    (chained : outing.Chained timetable.catalogue transfers admits chain)
    (found : timetable.catalogue.trip? ride.board.trip = some trip)
    (alighting : (call, place) ∈ ride.alightings trip) :
    ∃ root reached legs front,
      outing.Accounts timetable.catalogue transfers (outing.Permits admits) chain ride trip
        place root reached legs front ∧
      ∀ hop ∈ (front ++ [ride.hop trip place]).tail, admits hop.trip = true := by
  induction chained generalizing ride rest trip call place with
  | @walk root station reached known offers dayEq accessEq _ _ =>
      cases chain_eq
      obtain ⟨legs, accounts⟩ :=
        accounts_walk built (fun _ => permits_of_first) offers dayEq accessEq found alighting
      exact ⟨root, reached, legs, [], accounts, by simp⟩
  | @transfer tip previous others known left leaving last boarding _ leftFound leftAt listed
      knownFound boardingAt inTime active admitted dayEq accessEq originEq hypothesis =>
      cases chain_eq
      rw [found] at knownFound
      cases knownFound
      obtain ⟨root, reached, legs, front, accounts, later⟩ := hypothesis rfl leftFound leftAt
      obtain ⟨legs', accounts'⟩ :=
        accounts.transfer built leftAt listed boardingAt inTime active
          (permits_of_later admitted) dayEq accessEq originEq found alighting
      refine ⟨root, reached, legs', _, accounts', ?_⟩
      intro hop member
      have longer : front ++ [previous.hop left last] ≠ [] := by simp
      rw [List.tail_append_of_ne_nil longer] at member
      rcases List.mem_append.mp member with before | same
      · exact later hop before
      · rw [List.mem_singleton.mp same]
        exact admitted

end Outing

namespace Planner

open Outing

/-- The journey behind a label that a departure finds, whatever the planner did before.
Its first trip is admitted by the filter of the departure, the trips after it by the filter
of the planner's request.  If the first filter admits every trip of the timetable that the
second does, it admits every trip of the journey. -/
theorem exists_journey_admitted_of_depart
    {plan : NetworkPlan} {network : Network} (built : plan.build = .ok network)
    (first : Request) (settings : Settings) (tasks : List Task)
    {access : List Station} {departure : Instant} {admits : Trip → Bool} {after : Planner}
    {label : Label} :
    let catalogue := network.timetable.catalogue
    let planner := (fresh catalogue first settings).performAll catalogue network.transfers tasks
    planner.perform catalogue network.transfers (.depart access departure admits) =
        (.ok (), after) →
      label ∈ after.found → label ∉ planner.found →
      ∃ itinerary hops, Itinerary.ofLabel catalogue after.rides label = .ok itinerary ∧
        List.Forall₂ Leg.Describes itinerary.legs hops ∧
        Journey catalogue network.transfers itinerary.serviceDay
          (fun trip => admits trip || planner.request.admits trip) hops ∧
        (∃ opening rest, hops = opening :: rest ∧ admits opening.trip = true ∧
          ∀ hop ∈ rest, planner.request.admits hop.trip = true) ∧
        ((∀ trip ∈ network.timetable.trips,
            planner.request.admits trip = true → admits trip = true) →
          ∀ hop ∈ hops, admits hop.trip = true) := by
  intro catalogue planner performed found new
  have isBuilt := Timetable.isBuilt_of_plan built
  let outing : Outing := ⟨access, departure, admits, planner.rides.size⟩
  have reach : outing.Reach catalogue network.transfers planner after :=
    (of_perform_depart (outing.follows_depart _ _ rfl) performed).1
  rcases ((traced_start (Nat.le_refl _)).reach reach).labelled label found with
    old | ⟨ride, rest, trip, call, labels⟩
  · exact absurd old new
  obtain ⟨root, reached, legs, front, accounts, later⟩ :=
    labels.chained.exists_permitted isBuilt rfl labels.trip_eq labels.alighting
  obtain ⟨itinerary, worked, _, _, day_eq, _, described⟩ :=
    labels.exists_itinerary_of_accounts accounts
  obtain ⟨opening, head, _, offers⟩ := accounts.begins
  obtain ⟨others, split⟩ := List.head?_eq_some_iff.mp head
  obtain ⟨_, _, openingAdmitted, _⟩ := offers.exists_call isBuilt
  have journey := accounts.journey
  rw [← accounts.day_eq, ← day_eq] at journey
  rw [split] at described journey later
  refine ⟨itinerary, opening :: others, worked, described, journey,
    ⟨opening, others, rfl, openingAdmitted, later⟩, ?_⟩
  intro wider hop member
  rcases List.mem_cons.mp member with rfl | member
  · exact openingAdmitted
  · have known := (journey.runs hop (List.mem_cons_of_mem opening member)).found
    exact wider hop.trip (Timetable.IsBuilt.mem_of_trip? known) (later hop member)

/-- What a fresh planner makes of a departure at eight on the express network, by the names
that its request admits and those that the departure admits. -/
def departNamed (requested given : String → Bool) : Except RoutingFault Unit × Planner :=
  (fresh Sample.express.timetable.catalogue
      { Sample.request 0 with admits := fun trip => requested trip.name } .standard).perform
    Sample.express.timetable.catalogue Sample.express.transfers
    (.depart [Sample.origin] (Sample.instant 8 0) fun trip => given trip.name)

/-- The label of the journey that takes the line and changes where it ends. -/
def lineLabel : Label :=
  { round := 1, egress := Sample.target, alight := ⟨2, 1⟩, scheduled := Sample.clock 8 50
    ride := 1, criteria := ⟨31800, 1, 28800⟩ }

/-- The express, which leaves the origin as well, is excluded by the request and by the
departure. -/
theorem exists_journey_admitted_of_line :
    let after := (departNamed (· ≠ "express") (· ≠ "express")).2
    lineLabel ∈ after.found ∧
      ∃ itinerary hops,
        Itinerary.ofLabel Sample.express.timetable.catalogue after.rides lineLabel =
            .ok itinerary ∧
          List.Forall₂ Leg.Describes itinerary.legs hops ∧
          ∀ hop ∈ hops, hop.trip.name ≠ "express" := by
  intro after
  have built : Sample.expressPlan.build = .ok Sample.express := by decide +kernel
  have succeeded : (departNamed (· ≠ "express") (· ≠ "express")).1 = .ok () := by
    decide +kernel
  have performed : departNamed (· ≠ "express") (· ≠ "express") = (.ok (), after) := by
    rw [← succeeded]
  have member : lineLabel ∈ after.found := by decide +kernel
  obtain ⟨itinerary, hops, worked, described, _, _, within⟩ :=
    exists_journey_admitted_of_depart built _ .standard [] performed member (by decide +kernel)
  refine ⟨member, itinerary, hops, worked, described, ?_⟩
  intro hop listed
  exact of_decide_eq_true (within (fun _ _ admitted => admitted) hop listed)

/-- The label of the journey that takes the express, and after it two trips that the
departure excludes. -/
def excludedLabel : Label :=
  { round := 2, egress := Sample.target, alight := ⟨2, 1⟩, scheduled := Sample.clock 8 50
    ride := 2, criteria := ⟨31800, 2, 29100⟩ }

/-- A departure for the express alone, while the request admits every trip. -/
theorem rides_excluded_trips :
    let outcome := departNamed (fun _ => true) (· = "express")
    Sample.expressPlan.build = .ok Sample.express ∧ outcome.1 = .ok () ∧
      excludedLabel ∈ outcome.2.found ∧
      (Itinerary.ofLabel Sample.express.timetable.catalogue outcome.2.rides
          excludedLabel).map (fun itinerary => itinerary.legs.map Leg.trip) =
        .ok ["express", "line", "last"] ∧
      ∀ trip ∈ Sample.express.timetable.trips,
        trip.name = "line" ∨ trip.name = "last" → ¬ trip.name = "express" := by
  decide +kernel

end Planner

end Transit
