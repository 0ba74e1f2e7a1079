import Transit.Journey.Itinerary
import Transit.Schedule.Transfer
import Mathlib.Data.List.Chain

/-!
# Journeys by the timetable

A journey is a sequence of rides that the timetable and the transfer table allow,
whatever a search makes of it: each ride goes from one call of a trip to a later one,
and the next trip can be boarded after the one before is left.
-/

namespace Transit

/-- A trip, ridden from one of its calls to another. -/
structure Hop where
  trip : Trip
  board : Nat
  alight : Nat

namespace Hop

/-- Where the trip is boarded. -/
def start (hop : Hop) : Position := ⟨hop.trip.index, hop.board⟩

/-- Where the trip is left. -/
def finish (hop : Hop) : Position := ⟨hop.trip.index, hop.alight⟩

/-- The trip makes both calls in this order, runs on the day and is admitted. -/
structure Runs
    (hop : Hop) (catalogue : Catalogue) (day : Date) (admits : Trip → Bool) : Prop where
  found : catalogue.trip? hop.trip.index = some hop.trip
  forward : hop.board < hop.alight
  within : hop.alight < hop.trip.calls.length
  active : hop.trip.service.activeOn day = true
  admitted : admits hop.trip = true

/-- The second trip can be boarded after leaving the first. -/
structure Meets
    (first second : Hop) (transfers : TransferTable) (day : Date)
    (call boarding : Call) : Prop where
  listed : second.start ∈ transfers.destinations day first.finish
  left_eq : first.trip.calls[first.alight]? = some call
  boarded_eq : second.trip.calls[second.board]? = some boarding
  in_time : call.arrival ≤ boarding.departure

instance
    (hop : Hop) (catalogue : Catalogue) (day : Date) (admits : Trip → Bool) :
    Decidable (hop.Runs catalogue day admits) :=
  decidable_of_iff
    (catalogue.trip? hop.trip.index = some hop.trip ∧ hop.board < hop.alight ∧
      hop.alight < hop.trip.calls.length ∧ hop.trip.service.activeOn day = true ∧
      admits hop.trip = true)
    ⟨fun ⟨found, forward, within, active, admitted⟩ =>
        ⟨found, forward, within, active, admitted⟩,
      fun runs => ⟨runs.found, runs.forward, runs.within, runs.active, runs.admitted⟩⟩

instance (first second : Hop) (transfers : TransferTable) (day : Date) :
    Decidable (∃ call boarding, first.Meets second transfers day call boarding) :=
  decidable_of_iff
    (second.start ∈ transfers.destinations day first.finish ∧
      ∃ call ∈ first.trip.calls[first.alight]?,
        ∃ boarding ∈ second.trip.calls[second.board]?, call.arrival ≤ boarding.departure)
    ⟨fun ⟨listed, call, left, boarding, boarded, inTime⟩ =>
        ⟨call, boarding, listed, left, boarded, inTime⟩,
      fun ⟨call, boarding, meets⟩ =>
        ⟨meets.listed, call, meets.left_eq, boarding, meets.boarded_eq, meets.in_time⟩⟩

/-- The trip is boarded at the stop of a station, no earlier than the station is
reached. -/
def StartsAt (hop : Hop) (station : Station) (reached : LocalTime) : Prop :=
  ∃ call, hop.trip.calls[hop.board]? = some call ∧
    station.stop.isNamed hop.trip.feed call.stop = true ∧
    reached.second ≤ call.departure.seconds.toNat

/-- The trip is left at the stop of a station, at the given time. -/
def EndsAt (hop : Hop) (station : Station) (arrival : ServiceTime) : Prop :=
  ∃ call, hop.trip.calls[hop.alight]? = some call ∧
    station.stop.isNamed hop.trip.feed call.stop = true ∧ call.arrival = arrival

instance (hop : Hop) (station : Station) (reached : LocalTime) :
    Decidable (hop.StartsAt station reached) :=
  inferInstanceAs (Decidable (∃ call ∈ hop.trip.calls[hop.board]?, _ ∧ _))

instance (hop : Hop) (station : Station) (arrival : ServiceTime) :
    Decidable (hop.EndsAt station arrival) :=
  inferInstanceAs (Decidable (∃ call ∈ hop.trip.calls[hop.alight]?, _ ∧ _))

end Hop

/-- Rides one after the other, all on one day. -/
structure Journey
    (catalogue : Catalogue) (transfers : TransferTable) (day : Date) (admits : Trip → Bool)
    (hops : List Hop) : Prop where
  runs : ∀ hop ∈ hops, hop.Runs catalogue day admits
  meets : hops.IsChain fun first second =>
    ∃ call boarding, first.Meets second transfers day call boarding

namespace Journey

instance
    (catalogue : Catalogue) (transfers : TransferTable) (day : Date) (admits : Trip → Bool)
    (hops : List Hop) : Decidable (Journey catalogue transfers day admits hops) :=
  decidable_of_iff
    ((∀ hop ∈ hops, hop.Runs catalogue day admits) ∧
      hops.IsChain fun first second =>
        ∃ call boarding, first.Meets second transfers day call boarding)
    ⟨fun ⟨runs, meets⟩ => ⟨runs, meets⟩, fun journey => ⟨journey.runs, journey.meets⟩⟩

variable
  {catalogue : Catalogue} {transfers : TransferTable} {day : Date} {admits : Trip → Bool}

theorem singleton {hop : Hop} (runs : hop.Runs catalogue day admits) :
    Journey catalogue transfers day admits [hop] where
  runs other member := by
    rw [List.mem_singleton.mp member]
    exact runs
  meets := List.isChain_singleton hop

theorem tail
    {hop : Hop} {rest : List Hop}
    (journey : Journey catalogue transfers day admits (hop :: rest)) :
    Journey catalogue transfers day admits rest where
  runs other member := journey.runs other (List.mem_cons_of_mem hop member)
  meets := journey.meets.tail

/-- A journey goes on with a ride that can be boarded where it ends. -/
theorem concat
    {hops : List Hop} {last next : Hop} {call boarding : Call}
    (journey : Journey catalogue transfers day admits (hops ++ [last]))
    (runs : next.Runs catalogue day admits)
    (meets : last.Meets next transfers day call boarding) :
    Journey catalogue transfers day admits (hops ++ [last] ++ [next]) where
  runs other member := by
    rcases List.mem_append.mp member with before | same
    · exact journey.runs other before
    · rw [List.mem_singleton.mp same]
      exact runs
  meets := by
    apply List.IsChain.append journey.meets (List.isChain_singleton next)
    intro known knownMember following followingMember
    rw [List.getLast?_concat, Option.mem_some_iff] at knownMember
    rw [List.head?_cons, Option.mem_some_iff] at followingMember
    subst knownMember followingMember
    exact ⟨call, boarding, meets⟩

end Journey

/-- A leg gives an account of a ride. -/
structure Leg.Describes (leg : Leg) (hop : Hop) : Prop where
  trip_eq : leg.trip = hop.trip.name
  route_eq : leg.route? = hop.trip.route?
  block_eq : leg.block? = hop.trip.block?
  board_eq : leg.boardCall = hop.board
  alight_eq : leg.alightCall = hop.alight
  boarded : ∃ call, hop.trip.calls[hop.board]? = some call ∧
    leg.boardStop.isNamed hop.trip.feed call.stop = true ∧ leg.departure = call.departure
  left : ∃ call, hop.trip.calls[hop.alight]? = some call ∧
    leg.alightStop.isNamed hop.trip.feed call.stop = true ∧ leg.arrival = call.arrival

end Transit
