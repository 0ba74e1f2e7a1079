import Transit.Proofs.Search.Chain

/-!
# What a departure settles

A departure that succeeds notes the arrivals of all its rides, and it transfers from all
of them but those of the last round.  Every round makes the chains of its rides longer,
so the rides of the last round are known by their chains: a ride whose chain is no
longer than the rounds of the search was transferred from.

What is settled stays settled, so that a planner that makes one departure after another
keeps account of all its rides.
-/

namespace Transit

namespace RideStore

/-- The rides from a base on have chains of at least so many rides. -/
def DeepFrom (rides : RideStore) (base depth : Nat) : Prop :=
  ∀ handle, base ≤ handle → handle < rides.size →
    ∃ chain, rides.chain? handle = some chain ∧ depth ≤ chain.length

theorem DeepFrom.push
    {rides : RideStore} {base depth : Nat} {ride : Ride} {chain : List Ride}
    (deep : rides.DeepFrom base depth)
    (found : (rides.push ride).chain? rides.size = some chain)
    (long : depth ≤ chain.length) :
    (rides.push ride).DeepFrom base depth := by
  intro handle reached inside
  rw [size_push] at inside
  rcases Nat.lt_succ_iff_lt_or_eq.mp inside with known | rfl
  · obtain ⟨before, beforeFound, enough⟩ := deep handle reached known
    exact ⟨before, chain?_push_of_eq_some beforeFound ride, enough⟩
  · exact ⟨chain, found, long⟩

end RideStore

namespace Planner

/-- The arrivals of a ride are noted, and it is transferred from unless its chain is
longer than the rounds of a search. -/
structure Settled
    (planner : Planner) (catalogue : Catalogue) (transfers : TransferTable)
    (request : Request) (handle : Nat) (ride : Ride) : Prop where
  noted : ride.Noted catalogue request planner.bounds
  chained : ∃ chain, planner.rides.chain? handle = some chain ∧
    (chain.length ≤ planner.settings.rounds →
      ride.Transferred catalogue transfers request planner.bounds)

/-- All rides with handles below a base are settled. -/
def SettledBelow
    (planner : Planner) (catalogue : Catalogue) (transfers : TransferTable)
    (request : Request) (base : Nat) : Prop :=
  ∀ handle ride, handle < base → planner.rides.ride? handle = some ride →
    planner.Settled catalogue transfers request handle ride

variable
  {before after : Planner} {catalogue : Catalogue} {transfers : TransferTable}
  {request : Request} {handle base : Nat} {ride : Ride}

theorem Settled.grows
    (settled : before.Settled catalogue transfers request handle ride)
    (grows : before.Grows after) :
    after.Settled catalogue transfers request handle ride := by
  obtain ⟨chain, found, transferred⟩ := settled.chained
  refine ⟨settled.noted.grows grows, chain, grows.chain? found, ?_⟩
  rw [grows.settings]
  intro short
  exact (transferred short).grows grows

/-- The rides that were settled are settled still. -/
theorem SettledBelow.settled
    (settled : before.SettledBelow catalogue transfers request base)
    (grows : before.Grows after) (inside : handle < base) (stored : base ≤ before.rides.size)
    (found : after.rides.ride? handle = some ride) :
    after.Settled catalogue transfers request handle ride := by
  have known := grows.ride_of_lt (Nat.lt_of_lt_of_le inside stored) found
  exact (settled handle ride inside known).grows grows

end Planner

namespace Outing

variable
  {outing : Outing} {catalogue : Catalogue} {transfers : TransferTable}
  {planner before after : Planner} {base depth : Nat}

/-- A ride boarded by a transfer has a longer chain than the ride before. -/
theorem deepFrom_step
    {bottom : Nat} (step : (outing.onward base).Step catalogue transfers before after)
    (deep : before.rides.DeepFrom base depth)
    (deeper : before.rides.DeepFrom bottom (depth + 1)) :
    after.rides.DeepFrom base depth ∧ after.rides.DeepFrom bottom (depth + 1) := by
  cases step with
  | enter _ _ => exact ⟨deep, deeper⟩
  | cover _ _ _ _ => exact ⟨deep, deeper⟩
  | pass _ _ => exact ⟨deep, deeper⟩
  | lose _ _ _ => exact ⟨deep, deeper⟩
  | find _ _ _ _ _ _ _ => exact ⟨deep, deeper⟩
  | @board trip position approach limit ride approaches _ _ leads =>
      cases approaches with
      | walk offers => cases offers.station_mem
      | @transfer parent origin _ _ previous left call boarding connects =>
          have stored := RideStore.lt_size_of_ride? connects.ride_eq
          obtain ⟨chain, found, long⟩ := deep parent connects.base_le stored
          have parent_eq : ride.parent? = some parent := by
            cases leads
            rfl
          have newest := RideStore.chain?_push_of_parent found parent_eq
          constructor
          · exact deep.push newest (Nat.le_succ_of_le long)
          · exact deeper.push newest (Nat.succ_le_succ long)

/-- The rides of a round have longer chains than those of the round before. -/
theorem deepFrom_onward
    (reach : (outing.onward base).Reach catalogue transfers before after)
    (deep : before.rides.DeepFrom base depth) :
    after.rides.DeepFrom before.rides.size (depth + 1) := by
  have kept : after.rides.DeepFrom base depth ∧
      after.rides.DeepFrom before.rides.size (depth + 1) := by
    induction reach with
    | refl =>
        refine ⟨deep, ?_⟩
        intro handle reached inside
        exact absurd inside (Nat.not_lt_of_le reached)
    | tail _ step hypothesis => exact deepFrom_step step hypothesis.1 hypothesis.2
  exact kept.2

/-- A planner during a departure, when a round begins with the rides from a base on. -/
structure Settling
    (outing : Outing) (catalogue : Catalogue) (transfers : TransferTable)
    (start : Planner) (left base : Nat) (now : Planner) : Prop where
  reach : outing.Reach catalogue transfers start now
  stored : base ≤ now.rides.size
  settled : now.SettledBelow catalogue transfers start.request base
  deep : ∃ depth, start.settings.rounds < left + depth ∧ now.rides.DeepFrom base depth
  served : ∀ station ∈ outing.access, outing.Served catalogue now station

variable {start now middle : Planner} {left : Nat}

/-- When the rounds are over, the rides of the last round are noted. -/
theorem Settling.stops
    (settling : outing.Settling catalogue transfers start left base now)
    (heard : outing.Hears catalogue transfers base now after)
    (ended : left = 0 ∨ now.rides.size ≤ base) :
    after.SettledBelow catalogue transfers start.request after.rides.size := by
  have grows := heard.reach.grows
  have settings := settling.reach.grows.settings
  intro handle ride inside found
  by_cases old : handle < base
  · exact settling.settled.settled grows old settling.stored found
  · have reached := Nat.le_of_not_lt old
    have noted := heard.noted handle ride reached found
    rw [settling.reach.request_eq] at noted
    rw [heard.rides_eq] at inside
    obtain ⟨depth, enough, deep⟩ := settling.deep
    obtain ⟨chain, chainFound, long⟩ := deep handle reached inside
    refine ⟨noted, chain, grows.chain? chainFound, ?_⟩
    intro short
    rw [grows.settings, settings] at short
    omega

/-- After a round the rides with which it began are settled, and its own rides have
longer chains. -/
theorem Settling.goes
    (settling : outing.Settling catalogue transfers start (left + 1) base now)
    (base_le : outing.base ≤ base)
    (heard : outing.Hears catalogue transfers base now middle)
    (onward : outing.Onward catalogue transfers base middle after) :
    outing.Settling catalogue transfers start left middle.rides.size after := by
  have grows := heard.reach.grows
  have further := onward.reach.grows
  have request := settling.reach.request_eq
  obtain ⟨depth, enough, deep⟩ := settling.deep
  have reach := (settling.reach.trans heard.reach).trans (onward.reach.of_onward base_le)
  refine ⟨reach, further.size, ?_, ?_, ?_⟩
  · intro handle ride inside found
    by_cases old : handle < base
    · exact settling.settled.settled (grows.trans further) old settling.stored found
    · have reached := Nat.le_of_not_lt old
      have known := further.ride_of_lt inside found
      have noted := heard.noted handle ride reached known
      have transferred := onward.transferred handle ride reached known
      rw [request] at noted
      rw [heard.reach.request_eq, request] at transferred
      rw [heard.rides_eq] at inside
      obtain ⟨chain, chainFound, _⟩ := deep handle reached inside
      exact ⟨noted.grows further, chain, (grows.trans further).chain? chainFound,
        fun _ => transferred⟩
  · rw [← heard.rides_eq] at deep
    exact ⟨depth + 1, by omega, deepFrom_onward onward.reach deep⟩
  · intro station member
    exact (settling.served station member).grows (grows.trans further)

/-- A departure that succeeds serves its stations, and settles its rides if all rides
were settled before. -/
theorem follows_depart_settled
    (outing : Outing) (base_eq : outing.base = start.rides.size)
    (settled : start.SettledBelow catalogue transfers start.request start.rides.size) :
    outing.Follows catalogue transfers
      (Search.depart catalogue transfers outing.access outing.departure outing.admits) start
      (fun _ after =>
        after.SettledBelow catalogue transfers start.request after.rides.size ∧
          ∀ station ∈ outing.access, outing.Served catalogue after station) := by
  apply follows_depart_of
  intro now handles reach _ served current
  have grows := reach.grows
  have traced : outing.Traced catalogue transfers start now :=
    (traced_start (Nat.le_of_eq base_eq.symm)).reach reach
  have base_le := Nat.le_of_eq base_eq
  -- The rides of the first round are chains of their own.
  have deep : now.rides.DeepFrom start.rides.size 1 := by
    intro handle reached inside
    have found : now.rides.ride? handle = some now.rides.rides[handle] :=
      Array.getElem?_eq_getElem inside
    obtain ⟨rest, chain, _⟩ :=
      traced.chained handle _ (Nat.le_trans base_le reached) found
    exact ⟨_, chain, Nat.succ_le_succ (Nat.zero_le rest.length)⟩
  have first :
      outing.Settling catalogue transfers start start.settings.rounds start.rides.size
        now := by
    refine ⟨reach, grows.size, ?_, ⟨1, Nat.lt_succ_self _, deep⟩, served⟩
    intro handle ride inside found
    exact settled.settled grows inside (Nat.le_refl _) found
  -- Later rounds begin above the first.
  let kept (left base : Nat) (now : Planner) : Prop :=
    outing.base ≤ base ∧ outing.Settling catalogue transfers start left base now
  apply follows_rounds kept
  · rintro left base before after ⟨_, settling⟩ heard ended
    refine ⟨settling.stops heard ended, ?_⟩
    intro station member
    exact (settling.served station member).grows heard.reach.grows
  · rintro left base before middle after ⟨above, settling⟩ heard onward
    refine ⟨?_, settling.goes above heard onward⟩
    rw [heard.rides_eq]
    exact Nat.le_trans above settling.stored
  · exact current
  · exact base_le
  · exact Nat.le_trans base_le grows.size
  · exact ⟨base_le, first⟩

end Outing

end Transit
