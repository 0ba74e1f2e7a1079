import Transit.Proofs.Search.Capped
import Transit.Proofs.Search.Chain

/-!
# How long chains grow

The rides that are stored while transferring go on from the rides that are transferred
from.  A round therefore makes chains longer by one ride, and the chains of a departure of
a fresh planner have at most one ride more than there are rounds of transfers.
-/

namespace Transit

namespace RideStore

/-- All rides have chains of at most so many rides. -/
def ShallowTo (rides : RideStore) (depth : Nat) : Prop :=
  ∀ handle < rides.size, ∃ chain, rides.chain? handle = some chain ∧ chain.length ≤ depth

variable {rides : RideStore} {depth deeper : Nat}

theorem ShallowTo.mono (shallow : rides.ShallowTo depth) (less : depth ≤ deeper) :
    rides.ShallowTo deeper := by
  intro handle inside
  obtain ⟨chain, found, few⟩ := shallow handle inside
  exact ⟨chain, found, few.trans less⟩

theorem ShallowTo.push
    {ride : Ride} {chain : List Ride} (shallow : rides.ShallowTo depth)
    (found : (rides.push ride).chain? rides.size = some chain) (few : chain.length ≤ depth) :
    (rides.push ride).ShallowTo depth := by
  intro handle inside
  rw [size_push] at inside
  rcases Nat.lt_succ_iff_lt_or_eq.mp inside with known | rfl
  · obtain ⟨before, beforeFound, beforeFew⟩ := shallow handle known
    exact ⟨before, chain?_push_of_eq_some beforeFound ride, beforeFew⟩
  · exact ⟨chain, found, few⟩

/-- A round stores no ride before its transfers. -/
theorem ShallowTo.of_heard
    {before after : Planner} {round handles : Nat} (shallow : before.rides.ShallowTo depth)
    (heard : before.Heard after round handles) (less : depth ≤ deeper) :
    after.rides.ShallowTo deeper := by
  rw [heard.rides_eq]
  exact shallow.mono less

end RideStore

namespace Search

variable
  {catalogue : Catalogue} {transfers : TransferTable} {planner : Planner}

section Keeping

variable
  {kept : Planner → Prop} (enters : ∀ now event, kept now → kept (now.enter event))

include enters

/-- Transferring from a ride at a call keeps what boarding from the ride keeps. -/
theorem transferTo_keeps
    {handle : Nat}
    (boards : ∀ now trip position origin, kept now →
      Ensures (board catalogue trip position (.transfer handle origin)) now
        (fun _ => kept) (fun _ => kept))
    (ride : Ride) (call : Call) (origin : Position) (destinations : List Position)
    (holds : kept planner) :
    Ensures (transferTo catalogue handle ride call origin destinations) planner
      (fun _ => kept) (fun _ => kept) := by
  induction destinations generalizing planner with
  | nil => exact holds
  | cons destination rest hypothesis =>
      unfold transferTo
      simp only [ensures_bind, ensures_ofExcept, ensures_get, ensures_ite, ensures_record]
      refine ⟨fun trip _ => ⟨fun boarding _ => ⟨fun _ => ?_, fun _ => ?_⟩, fun _ _ => holds⟩,
        fun _ _ => holds⟩
      · apply (boards _ trip destination origin (enters planner _ holds)).imp
        intro handle? now keptNow
        exact (hypothesis keptNow).imp fun _ _ keptAfter => keptAfter
      · rw [ensures_pure]
        exact (hypothesis holds).imp fun _ _ keptAfter => keptAfter

/-- Transferring from a ride keeps what boarding from the ride keeps. -/
theorem transferFrom_keeps
    {handle : Nat}
    (boards : ∀ now trip position origin, kept now →
      Ensures (board catalogue trip position (.transfer handle origin)) now
        (fun _ => kept) (fun _ => kept))
    (ride : Ride) (trip : Trip) (alightings : List (Call × Nat)) (holds : kept planner) :
    Ensures (transferFrom catalogue transfers handle ride trip alightings) planner
      (fun _ => kept) (fun _ => kept) := by
  induction alightings generalizing planner with
  | nil => exact holds
  | cons alighting rest hypothesis =>
      obtain ⟨call, place⟩ := alighting
      unfold transferFrom
      simp only [ensures_bind, ensures_get, ensures_ite]
      refine ⟨fun _ => ?_, fun _ => holds⟩
      apply (transferTo_keeps enters boards ride call _ _ holds).imp
      intro _ now keptNow
      exact (hypothesis keptNow).imp fun _ _ keptAfter => keptAfter

/-- Transferring from rides keeps what boarding from each of them keeps. -/
theorem transferAll_keeps
    {handles : List Nat}
    (boards : ∀ handle ∈ handles, ∀ now trip position origin, kept now →
      Ensures (board catalogue trip position (.transfer handle origin)) now
        (fun _ => kept) (fun _ => kept))
    (holds : kept planner) :
    Ensures (transferAll catalogue transfers handles) planner
      (fun _ => kept) (fun _ => kept) := by
  induction handles generalizing planner with
  | nil => exact holds
  | cons handle rest hypothesis =>
      unfold transferAll
      simp only [ensures_bind, ensures_ride, ensures_ofExcept]
      refine ⟨fun ride _ => ⟨fun trip _ => ?_, fun _ _ => holds⟩, fun _ => holds⟩
      apply (transferFrom_keeps enters (boards handle List.mem_cons_self) ride trip _ holds).imp
      intro _ now keptNow
      have others := hypothesis
        (fun later member => boards later (List.mem_cons_of_mem handle member)) keptNow
      exact others.imp fun _ _ keptAfter => keptAfter

end Keeping

/-- A ride that is boarded by a transfer has one ride more in its chain than the ride
before. -/
theorem board_keeps_shallow
    {depth parent : Nat} {chain : List Ride}
    (found : planner.rides.chain? parent = some chain) (few : chain.length ≤ depth)
    (shallow : planner.rides.ShallowTo (depth + 1)) (trip : Trip)
    (position origin : Position) :
    Ensures (board catalogue trip position (.transfer parent origin)) planner
      (fun _ after => planner.Grows after ∧ after.rides.ShallowTo (depth + 1))
      (fun _ after => planner.Grows after ∧ after.rides.ShallowTo (depth + 1)) := by
  apply ensures_board
  · intro _
    exact ⟨.refl planner, shallow⟩
  · intro _ _ _
    exact ⟨.refl planner, shallow⟩
  · intro _ _ _ _
    exact ⟨planner.grows_cover trip position, shallow⟩
  · intro limit ride _ _ leads
    refine ⟨planner.grows_board ride trip position, ?_⟩
    have parent_eq : ride.parent? = some parent := by
      cases leads
      rfl
    exact shallow.push (RideStore.chain?_push_of_parent found parent_eq)
      (Nat.succ_le_succ few)

/-- Transferring makes chains longer by one ride. -/
theorem transferAll_shallow
    {depth : Nat} (shallow : planner.rides.ShallowTo depth) (handles : List Nat)
    (stored : ∀ handle ∈ handles, handle < planner.rides.size) :
    Ensures (transferAll catalogue transfers handles) planner
      (fun _ after => after.rides.ShallowTo (depth + 1))
      (fun _ after => after.rides.ShallowTo (depth + 1)) := by
  -- The rides transferred from keep their chains while others are stored.
  let kept (now : Planner) : Prop := planner.Grows now ∧ now.rides.ShallowTo (depth + 1)
  have enters : ∀ now event, kept now → kept (now.enter event) := by
    rintro now event ⟨grows, shallowNow⟩
    exact ⟨grows.trans (now.grows_enter event), shallowNow⟩
  have boards : ∀ handle ∈ handles, ∀ now trip position origin, kept now →
      Ensures (board catalogue trip position (.transfer handle origin)) now
        (fun _ => kept) (fun _ => kept) := by
    rintro handle member now trip position origin ⟨grows, shallowNow⟩
    obtain ⟨chain, found, few⟩ := shallow handle (stored handle member)
    apply (board_keeps_shallow (grows.chain? found) few shallowNow trip position origin).weaken
    rintro after ⟨further, shallowAfter⟩
    exact ⟨grows.trans further, shallowAfter⟩
  have holds : kept planner := ⟨.refl planner, shallow.mono (Nat.le_succ depth)⟩
  exact (transferAll_keeps enters boards holds).weaken fun _ keptAfter => keptAfter.2

/-- Rounds make chains longer by as many rides as there are rounds of transfers. -/
theorem rounds_shallow
    (left round : Nat) {depth : Nat} {handles : List Nat}
    (shallow : planner.rides.ShallowTo depth)
    (stored : ∀ handle ∈ handles, handle < planner.rides.size) :
    Ensures (rounds catalogue transfers left round handles) planner
      (fun _ after => after.rides.ShallowTo (depth + left))
      (fun _ after => after.rides.ShallowTo (depth + left)) := by
  induction left generalizing planner round depth handles with
  | zero =>
      rw [rounds_zero]
      exact (hear_tells round handles).weaken fun _ heard =>
        shallow.of_heard heard (Nat.le_add_right depth _)
  | succ left hypothesis =>
      cases handles with
      | nil =>
          rw [rounds_of_nil]
          exact (hear_tells round []).weaken fun _ heard =>
            shallow.of_heard heard (Nat.le_add_right depth _)
      | cons handle rest =>
          rw [rounds_succ, ensures_bind]
          apply (hear_tells round (handle :: rest)).mono
          · intro _ middle heard
            rw [← heard.rides_eq] at shallow stored
            rw [ensures_bind]
            apply ((transferAll_shallow shallow (handle :: rest) stored).and
              (follows_transferred (handle :: rest))).mono
            · rintro next after ⟨shallowAfter, reach, next_eq⟩
              have current : ∀ handle ∈ next, handle < after.rides.size := by
                intro known member
                rw [next_eq] at member
                exact (Planner.mem_newRides.mp member).2
              rw [Nat.add_comm left 1, ← Nat.add_assoc]
              exact hypothesis (round + 1) shallowAfter current
            · rintro _ after ⟨shallowAfter, _⟩
              exact shallowAfter.mono (by omega)
          · exact fun _ _ heard => shallow.of_heard heard (Nat.le_add_right depth _)

section Departures

variable
  (request : Request) (settings : Settings) (access : List Station) (departure : Instant)
  (admits : Trip → Bool)

/-- The rides that are stored first are chains of their own. -/
theorem embark_shallow :
    Ensures (embark catalogue access departure admits)
      (Planner.fresh catalogue request settings)
      (fun handles after => after.rides.ShallowTo 1 ∧
        ∀ handle ∈ handles, handle < after.rides.size)
      (fun _ _ => True) := by
  let outing : Outing := ⟨access, departure, admits, 0⟩
  let start := Planner.fresh catalogue request settings
  have follows : outing.Follows catalogue .empty (embark catalogue access departure admits)
      start _ :=
    Outing.follows_embark outing catalogue .empty
  apply Ensures.mono follows
  · rintro handles after ⟨reach, perm, _⟩
    have traced : outing.Traced catalogue .empty start start :=
      Outing.traced_start (Nat.le_refl 0)
    refine ⟨?_, ?_⟩
    · intro handle inside
      have found : after.rides.ride? handle = some after.rides.rides[handle] :=
        Array.getElem?_eq_getElem inside
      obtain ⟨rest, chain, chained⟩ :=
        (traced.reach reach).chained handle _ (Nat.zero_le handle) found
      refine ⟨_, chain, ?_⟩
      -- No ride is boarded by a transfer when there are none.
      cases chained with
      | walk _ _ _ _ _ => exact Nat.le_refl 1
      | transfer _ _ _ listed _ _ _ _ _ _ _ _ => cases listed
    · intro handle member
      exact (Planner.mem_newRides.mp (perm.mem_iff.mp member)).2
  · intro _ _ _
    exact trivial

/-- A departure of a fresh planner has chains of one ride and one for each round of
transfers. -/
theorem depart_shallow :
    Ensures (depart catalogue transfers access departure admits)
      (Planner.fresh catalogue request settings)
      (fun _ after => after.rides.ShallowTo (settings.rounds + 1)) (fun _ _ => True) := by
  unfold Ensures
  rw [depart_eq_departWithin]
  change Ensures (departWithin catalogue transfers settings.rounds access departure admits) _ _ _
  unfold departWithin
  rw [ensures_bind]
  apply (embark_shallow request settings access departure admits).imp
  rintro handles after ⟨shallow, stored⟩
  rw [Nat.add_comm]
  exact (rounds_shallow settings.rounds 0 shallow stored).mono (fun _ _ done => done)
    fun _ _ _ => trivial

end Departures

end Search

end Transit
