import Transit.Proofs.Search.Rounds

/-!
# Departures

A departure embarks at its stations and then goes through rounds.  A round begins with the
rides that were stored last, from a base on.  It notes their arrivals, `Outing.Hears`, and
transfers from them, `Outing.Onward`, which stores the rides of the next round.
`follows_rounds` is the induction over rounds: what is kept by a round is there when the
rounds are over.
-/

namespace Transit

namespace Search

/-- Board trips at all stations; gives the rides of the first round. -/
def embark (catalogue : Catalogue) (access : List Station) (departure : Instant)
    (admits : Trip → Bool) : Search (List Nat) := do
  if access.isEmpty then throw (.request .noAccess)
  if (← get).request.egress.isEmpty then throw (.request .noEgress)
  let handles ← boardStations catalogue departure admits access
  let handles ← byDeparture catalogue handles
  record (.departing departure access.length)
  return handles

/-- A departure embarks and then looks up how many rounds it may go through. -/
theorem depart_eq_embark
    (catalogue : Catalogue) (transfers : TransferTable) (access : List Station)
    (departure : Instant) (admits : Trip → Bool) :
    depart catalogue transfers access departure admits =
      (do
        let handles ← embark catalogue access departure admits
        rounds catalogue transfers (← get).settings.rounds 0 handles : Search Unit) := by
  unfold depart embark
  by_cases noAccess : access.isEmpty = true
  · rw [if_pos noAccess, if_pos noAccess]
    rfl
  rw [if_neg noAccess, if_neg noAccess, bind_assoc]
  refine bind_congr fun now => ?_
  by_cases noEgress : now.request.egress.isEmpty = true
  · rw [if_pos noEgress, if_pos noEgress]
    rfl
  rw [if_neg noEgress, if_neg noEgress]
  simp only [bind_assoc, pure_bind]

end Search

namespace Outing

open Search

variable
  {outing : Outing} {catalogue : Catalogue} {transfers : TransferTable}
  {planner before after : Planner}

/-- The part of an outing that transfers from rides from a base on. -/
def onward (outing : Outing) (base : Nat) : Outing := { outing with access := [], base }

theorem Approaches.of_onward
    {base : Nat} {trip : Trip} {position : Position} {approach : Approach}
    (base_le : outing.base ≤ base)
    (approaches :
      (outing.onward base).Approaches catalogue transfers planner trip position approach) :
    outing.Approaches catalogue transfers planner trip position approach := by
  cases approaches with
  | walk offers => cases offers.station_mem
  | transfer connects =>
      exact .transfer { connects with base_le := Nat.le_trans base_le connects.base_le }

theorem Reaches.of_onward
    {base handle : Nat} {ride : Ride} {trip : Trip} {call : Call} {place : Nat}
    {egress : Station} (base_le : outing.base ≤ base)
    (reaches :
      (outing.onward base).Reaches catalogue planner handle ride trip call place egress) :
    outing.Reaches catalogue planner handle ride trip call place egress :=
  { reaches with base_le := Nat.le_trans base_le reaches.base_le }

theorem Step.of_onward
    {base : Nat} (base_le : outing.base ≤ base)
    (step : (outing.onward base).Step catalogue transfers before after) :
    outing.Step catalogue transfers before after := by
  cases step with
  | enter event quiet => exact .enter before event quiet
  | cover approaches known above near =>
      exact .cover (approaches.of_onward base_le) known above near
  | board approaches known far leads =>
      exact .board (approaches.of_onward base_le) known far leads
  | pass reaches later => exact .pass (reaches.of_onward base_le) later
  | lose reaches earlier broken => exact .lose (reaches.of_onward base_le) earlier broken
  | find reaches earlier worked egress alight scheduled ride =>
      exact .find (reaches.of_onward base_le) earlier worked egress alight scheduled ride

theorem Reach.of_onward
    {base : Nat} (base_le : outing.base ≤ base)
    (reach : (outing.onward base).Reach catalogue transfers before after) :
    outing.Reach catalogue transfers before after := by
  induction reach with
  | refl => exact .refl
  | tail _ step hypothesis => exact hypothesis.tail (Step.of_onward base_le step)

/-- The arrivals of the rides from a base on are noted, and nothing else happens. -/
structure Hears
    (outing : Outing) (catalogue : Catalogue) (transfers : TransferTable)
    (base : Nat) (before after : Planner) : Prop where
  reach : outing.Reach catalogue transfers before after
  rides_eq : after.rides = before.rides
  covered_eq : after.bounds.covered = before.bounds.covered
  noted : ∀ handle ride, base ≤ handle → after.rides.ride? handle = some ride →
    ride.Noted catalogue before.request after.bounds

/-- The rides from a base on are transferred from. -/
structure Onward
    (outing : Outing) (catalogue : Catalogue) (transfers : TransferTable)
    (base : Nat) (before after : Planner) : Prop where
  reach : (outing.onward base).Reach catalogue transfers before after
  transferred : ∀ handle ride, base ≤ handle → before.rides.ride? handle = some ride →
    ride.Transferred catalogue transfers before.request after.bounds

/-- The handles are those of the rides stored from a base on. -/
def AreFrom (handles : List Nat) (base : Nat) (planner : Planner) : Prop :=
  ∀ handle, handle ∈ handles ↔ base ≤ handle ∧ handle < planner.rides.size

/-- The first half of a round. -/
theorem follows_hear
    {round base : Nat} {handles : List Nat} {Value : Type} {next : Search Value}
    {gives : Value → Planner → Prop}
    (current : AreFrom handles base planner) (base_le : outing.base ≤ base)
    (follows : ∀ after, outing.Hears catalogue transfers base planner after →
      outing.Follows catalogue transfers next after gives) :
    outing.Follows catalogue transfers
      (announce catalogue round handles >>= fun _ =>
        arrivals catalogue round handles >>= fun _ => next) planner gives := by
  apply ((Reach.of_announce round handles).and (announce_keeps round handles)).bind
  rintro _ middle reach ⟨_, rides, bounds⟩
  have above : ∀ handle ∈ handles, outing.base ≤ handle := by
    intro handle member
    exact Nat.le_trans base_le ((current handle).mp member).1
  apply ((follows_arrivals above).and (arrivals_keeps round handles)).bind
  rintro _ after further ⟨noted, sameRides, sameCovered⟩
  apply follows
  refine ⟨reach.trans further, sameRides.trans rides, ?_, ?_⟩
  · rw [sameCovered, bounds]
  · intro handle ride reached found
    have inside : handle < planner.rides.size := by
      rw [← rides, ← sameRides]
      exact RideStore.lt_size_of_ride? found
    obtain ⟨known, knownFound, knownNoted⟩ :=
      noted handle ((current handle).mpr ⟨reached, inside⟩)
    rw [found] at knownFound
    cases knownFound
    rw [reach.request_eq] at knownNoted
    exact knownNoted

/-- The second half of a round. -/
theorem follows_onward
    {base : Nat} {handles : List Nat} {Value : Type} {next : List Nat → Search Value}
    {gives : Value → Planner → Prop}
    (current : AreFrom handles base planner) (base_le : outing.base ≤ base)
    (follows : ∀ stored after, outing.Onward catalogue transfers base planner after →
      AreFrom stored planner.rides.size after →
      outing.Follows catalogue transfers (next stored) after gives) :
    outing.Follows catalogue transfers
      (transferAll catalogue transfers handles >>= next) planner gives := by
  have above : ∀ handle ∈ handles, (outing.onward base).base ≤ handle := by
    intro handle member
    exact ((current handle).mp member).1
  have inner :
      (outing.onward base).Follows catalogue transfers
        (transferAll catalogue transfers handles) planner
        (fun stored after => outing.Onward catalogue transfers base planner after ∧
          AreFrom stored planner.rides.size after) := by
    apply (follows_transferAll above).mono
    rintro stored after reach ⟨same, transferred⟩
    refine ⟨⟨reach, ?_⟩, ?_⟩
    · intro handle ride reached found
      have inside := RideStore.lt_size_of_ride? found
      obtain ⟨known, knownFound, knownTransferred⟩ :=
        transferred handle ((current handle).mpr ⟨reached, inside⟩)
      rw [reach.grows.ride handle ride found] at knownFound
      cases knownFound
      exact knownTransferred
    · intro handle
      rw [same]
      exact Planner.mem_newRides
  have outer :
      outing.Follows catalogue transfers (transferAll catalogue transfers handles) planner
        (fun stored after => outing.Onward catalogue transfers base planner after ∧
          AreFrom stored planner.rides.size after) := by
    apply Search.Ensures.mono inner
    · rintro stored after ⟨reach, given⟩
      exact ⟨reach.of_onward base_le, given⟩
    · intro _ after reach
      exact Reach.of_onward base_le reach
  apply outer.bind
  rintro stored after _ ⟨onward, stored_eq⟩
  exact follows stored after onward stored_eq

/-- The induction over rounds: a round that begins with the rides from a base on either
ends the search or leads to a round that begins with the rides stored in it. -/
theorem follows_rounds
    (kept : (left base : Nat) → Planner → Prop) (gives : Planner → Prop)
    (stops : ∀ left base now after, kept left base now →
      outing.Hears catalogue transfers base now after →
      left = 0 ∨ now.rides.size ≤ base → gives after)
    (goes : ∀ left base now middle after, kept (left + 1) base now →
      outing.Hears catalogue transfers base now middle →
      outing.Onward catalogue transfers base middle after →
      kept left middle.rides.size after)
    {left round base : Nat} {handles : List Nat}
    (current : AreFrom handles base planner) (base_le : outing.base ≤ base)
    (base_size : outing.base ≤ planner.rides.size) (holds : kept left base planner) :
    outing.Follows catalogue transfers
      (rounds catalogue transfers left round handles) planner (fun _ => gives) := by
  induction left generalizing planner round base handles with
  | zero =>
      unfold rounds
      apply follows_hear current base_le
      intro after heard
      exact follows_pure (stops 0 base planner after holds heard (.inl rfl))
  | succ left hypothesis =>
      unfold rounds
      apply follows_hear current base_le
      intro middle heard
      cases handles with
      | nil =>
          have none : planner.rides.size ≤ base := by
            by_contra some
            exact List.not_mem_nil
              ((current base).mpr ⟨Nat.le_refl base, Nat.lt_of_not_le some⟩)
          exact follows_pure (stops (left + 1) base planner middle holds heard (.inr none))
      | cons handle rest =>
          have currentMiddle : AreFrom (handle :: rest) base middle := by
            intro known
            rw [heard.rides_eq]
            exact current known
          have middle_size : outing.base ≤ middle.rides.size := by
            rw [heard.rides_eq]
            exact base_size
          apply follows_onward currentMiddle base_le
          intro stored after onward storedFrom
          have grown := onward.reach.grows.size
          exact hypothesis storedFrom middle_size (Nat.le_trans middle_size grown)
            (goes left base planner middle after holds heard onward)

/-- Embarking boards what the stations offer. -/
theorem follows_embark (outing : Outing) (catalogue : Catalogue) (transfers : TransferTable) :
    outing.Follows catalogue transfers
      (embark catalogue outing.access outing.departure outing.admits) planner
      (fun handles after => handles.Perm (planner.newRides after) ∧
        ∀ station ∈ outing.access, outing.Served catalogue after station) := by
  unfold embark
  by_cases noAccess : outing.access.isEmpty = true
  · rw [if_pos noAccess]
    exact follows_throw_bind
  rw [if_neg noAccess]
  apply follows_get_bind
  by_cases noEgress : planner.request.egress.isEmpty = true
  · rw [if_pos noEgress]
    exact follows_throw_bind
  rw [if_neg noEgress]
  apply (follows_boardStations fun _ member => member).bind
  rintro handles first _ ⟨same, served⟩
  apply (follows_byDeparture handles).bind
  rintro ordered middle _ ⟨unchanged, perm⟩
  rw [same, ← unchanged] at perm
  rw [← unchanged] at served
  apply follows_record_bind
  · exact trivial
  intro further
  apply follows_pure
  refine ⟨perm, ?_⟩
  intro station member
  exact (served station member).grows further.grows

/-- A departure boards what its stations offer, which needs no transfers, and then goes
through its rounds. -/
theorem follows_depart_of
    {gives : Planner → Prop} (outing : Outing) (catalogue : Catalogue)
    (transfers : TransferTable)
    (rides : ∀ now handles, outing.Reach catalogue transfers planner now →
      outing.Reach catalogue .empty planner now →
      (∀ station ∈ outing.access, outing.Served catalogue now station) →
      AreFrom handles planner.rides.size now →
      outing.Follows catalogue transfers
        (rounds catalogue transfers planner.settings.rounds 0 handles) now (fun _ => gives)) :
    outing.Follows catalogue transfers
      (depart catalogue transfers outing.access outing.departure outing.admits) planner
      (fun _ => gives) := by
  rw [depart_eq_embark]
  apply ((follows_embark outing catalogue transfers).and
    (follows_embark outing catalogue .empty)).bind
  rintro handles now reach ⟨⟨perm, served⟩, walked, _⟩
  apply follows_get_bind
  rw [reach.grows.settings]
  apply rides now handles reach walked served
  intro handle
  rw [perm.mem_iff, Planner.mem_newRides]

/-- A departure leads along the steps of its outing. -/
theorem follows_depart
    (outing : Outing) (catalogue : Catalogue) (transfers : TransferTable)
    (base_eq : outing.base = planner.rides.size) :
    outing.Follows catalogue transfers
      (depart catalogue transfers outing.access outing.departure outing.admits) planner
      (fun _ _ => True) := by
  apply follows_depart_of
  intro now handles reach _ _ current
  have grown := reach.grows.size
  exact follows_rounds (fun _ _ _ => True) (fun _ => True) (fun _ _ _ _ _ _ _ => trivial)
    (fun _ _ _ _ _ _ _ _ => trivial) current (Nat.le_of_eq base_eq) (by omega) trivial

end Outing

end Transit
