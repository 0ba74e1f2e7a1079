import Mathlib.Data.List.Perm.Subperm
import Transit.Proofs.Search.Moments
import Transit.Proofs.Search.Ridden

/-!
# Chains end at roots

The chain of a ride is found by going from parent to parent.  Nothing in a store keeps such a
way from going round in circles, or from leading to a handle that was never issued; then the ride
has no chain.  But a store to which rides are only added with parents that it holds already leads
every ride back to a root: the handles fall on the way, so that it ends, and no later ride
changes it.  Every planner keeps its store like that.
-/

namespace Transit

namespace RideStore

/-- From parent to parent a handle leads along a way of handles and rides, which ends at a ride
without a parent. -/
inductive LeadsBack (store : RideStore) : (handle : Nat) → List (Nat × Ride) → Prop
  | root {handle ride} : store.ride? handle = some ride → ride.parent? = none →
      LeadsBack store handle [(handle, ride)]
  | step {handle ride parent way} : store.ride? handle = some ride → ride.parent? = some parent →
      LeadsBack store parent way → LeadsBack store handle ((handle, ride) :: way)

variable {store : RideStore} {handle : Nat} {way other : List (Nat × Ride)} {chain : List Ride}

namespace LeadsBack

/-- A handle leads back along one way only. -/
theorem unique (leads : store.LeadsBack handle way) (leads' : store.LeadsBack handle other) :
    way = other := by
  induction leads generalizing other with
  | root known ends =>
      cases leads' with
      | root known' _ =>
          cases known.symm.trans known'
          rfl
      | step known' goes _ =>
          cases known.symm.trans known'
          cases ends.symm.trans goes
  | step known goes _ hypothesis =>
      cases leads' with
      | root known' ends =>
          cases known.symm.trans known'
          cases ends.symm.trans goes
      | step known' goes' onward =>
          cases known.symm.trans known'
          cases goes.symm.trans goes'
          rw [hypothesis onward]

/-- Every handle on the way leads back along the rest of it. -/
theorem exists_suffix (leads : store.LeadsBack handle way) {passed : Nat}
    (member : passed ∈ way.map Prod.fst) :
    ∃ rest, rest <:+ way ∧ store.LeadsBack passed rest := by
  induction leads with
  | root known ends =>
      rw [List.map_singleton, List.mem_singleton] at member
      subst member
      exact ⟨_, List.suffix_rfl, .root known ends⟩
  | step known goes onward hypothesis =>
      rcases List.mem_cons.mp member with rfl | later
      · exact ⟨_, List.suffix_rfl, .step known goes onward⟩
      · obtain ⟨rest, suffix, leads⟩ := hypothesis later
        exact ⟨rest, suffix.trans (List.suffix_cons _ _), leads⟩

theorem lt_size (leads : store.LeadsBack handle way) {passed : Nat}
    (member : passed ∈ way.map Prod.fst) : passed < store.size := by
  obtain ⟨_, _, leads⟩ := leads.exists_suffix member
  cases leads with
  | root known _ => exact lt_size_of_ride? known
  | step known _ _ => exact lt_size_of_ride? known

/-- A way that ends passes no handle twice, for from there it would be as long as before. -/
theorem nodup (leads : store.LeadsBack handle way) : (way.map Prod.fst).Nodup := by
  induction leads with
  | root => exact List.pairwise_singleton _ _
  | @step handle ride parent way known goes onward hypothesis =>
      refine List.nodup_cons.mpr ⟨fun again => ?_, hypothesis⟩
      obtain ⟨rest, suffix, leads⟩ := onward.exists_suffix again
      have same := leads.unique (.step known goes onward)
      have shorter := suffix.length_le
      rw [same, List.length_cons] at shorter
      omega

/-- A way that ends is no longer than the store. -/
theorem length_le_size (leads : store.LeadsBack handle way) : way.length ≤ store.size := by
  have inside : way.map Prod.fst ⊆ List.range store.size :=
    fun _ member => List.mem_range.mpr (leads.lt_size member)
  have few := (leads.nodup.subperm inside).length_le
  rwa [List.length_map, List.length_range] at few

end LeadsBack

/-- Walking finds the ways that are short enough. -/
theorem walk?_eq_some_iff {steps : Nat} :
    store.walk? steps handle = some chain ↔
      ∃ way, store.LeadsBack handle way ∧ way.length ≤ steps ∧ way.map Prod.snd = chain := by
  induction steps generalizing handle chain with
  | zero =>
      refine ⟨nofun, ?_⟩
      rintro ⟨way, leads, short, _⟩
      cases leads <;> exact absurd short (Nat.not_succ_le_zero _)
  | succ steps hypothesis =>
      simp only [walk?, bind, Option.bind_eq_some_iff]
      constructor
      · rintro ⟨tip, known, rest⟩
        cases parent : tip.parent? with
        | none =>
            rw [parent] at rest
            cases rest
            exact ⟨_, .root known parent, Nat.succ_le_succ (Nat.zero_le steps), rfl⟩
        | some earlier =>
            rw [parent] at rest
            obtain ⟨front, walked, same⟩ := Option.bind_eq_some_iff.mp rest
            cases same
            obtain ⟨way, leads, short, rfl⟩ := hypothesis.mp walked
            exact ⟨_, .step known parent leads, Nat.succ_le_succ short, rfl⟩
      · rintro ⟨way, leads, short, rfl⟩
        cases leads with
        | @root _ ride known ends =>
            refine ⟨ride, known, ?_⟩
            rw [ends]
            rfl
        | @step _ ride parent way known goes onward =>
            refine ⟨ride, known, ?_⟩
            rw [goes]
            exact Option.bind_eq_some_iff.mpr
              ⟨_, hypothesis.mpr ⟨way, onward, Nat.le_of_succ_le_succ short, rfl⟩, rfl⟩

/-- The chain of a handle is the way back from it, if that ends at all. -/
theorem chain?_eq_some_iff :
    store.chain? handle = some chain ↔
      ∃ way, store.LeadsBack handle way ∧ way.map Prod.snd = chain := by
  rw [chain?, walk?_eq_some_iff]
  constructor
  · rintro ⟨way, leads, _, same⟩
    exact ⟨way, leads, same⟩
  · rintro ⟨way, leads, same⟩
    exact ⟨way, leads, leads.length_le_size, same⟩

/-- A ride that is its own parent leads back for ever. -/
example :
    (empty.push ⟨⟨0, 0⟩, 2, Sample.day, none, some 0, Sample.origin, 0⟩).chain? 0 = none := by
  decide

/-- A way ends at a ride without a parent, and all rides before it have one. -/
theorem LeadsBack.exists_last (leads : store.LeadsBack handle way) :
    ∃ front last, way = front ++ [last] ∧ last.2.parent? = none ∧
      ∀ step ∈ front, step.2.parent? ≠ none := by
  induction leads with
  | @root handle ride _ ends => exact ⟨[], (handle, ride), rfl, ends, nofun⟩
  | @step handle ride parent way _ goes _ hypothesis =>
      obtain ⟨front, last, rfl, ends, others⟩ := hypothesis
      refine ⟨(handle, ride) :: front, last, rfl, ends, List.forall_mem_cons.mpr ⟨?_, others⟩⟩
      rw [goes]
      nofun

/-- A way stays the way it is when the store grows, whatever is added. -/
theorem LeadsBack.push (leads : store.LeadsBack handle way) (ride : Ride) :
    (store.push ride).LeadsBack handle way := by
  induction leads with
  | root known ends => exact .root (ride?_push_of_eq_some known ride) ends
  | step known goes _ hypothesis =>
      exact .step (ride?_push_of_eq_some known ride) goes hypothesis

/-- The store after pushes, one after the other. -/
def pushAll (store : RideStore) (rides : List Ride) : RideStore := rides.foldl push store

theorem LeadsBack.pushAll (leads : store.LeadsBack handle way) (later : List Ride) :
    (store.pushAll later).LeadsBack handle way := by
  induction later generalizing store with
  | nil => exact leads
  | cons ride rest hypothesis => exact hypothesis (leads.push ride)

/-- A store that was filled with rides whose parents it had issued before. -/
inductive IsFilled : RideStore → Prop
  | empty : IsFilled .empty
  | push {store ride} : IsFilled store → (∀ parent ∈ ride.parent?, parent < store.size) →
      IsFilled (store.push ride)

/-- In a filled store a parent is before its child. -/
theorem IsFilled.parent_lt (filled : store.IsFilled) {ride : Ride} {parent : Nat}
    (known : store.ride? handle = some ride) (goes : ride.parent? = some parent) :
    parent < handle := by
  induction filled with
  | empty => cases lt_size_of_ride? known
  | @push store newest _ issued hypothesis =>
      rw [ride?_push] at known
      split at known
      case isTrue here =>
        cases known
        rw [here]
        exact issued parent goes
      case isFalse => exact hypothesis known

theorem IsFilled.exists_leadsBack (filled : store.IsFilled) (issued : handle < store.size) :
    ∃ way, store.LeadsBack handle way := by
  induction handle using Nat.strongRecOn with
  | ind handle hypothesis =>
      have known : store.ride? handle = some store.rides[handle] := Array.getElem?_eq_getElem issued
      cases goes : store.rides[handle].parent? with
      | none => exact ⟨_, .root known goes⟩
      | some parent =>
          have before := filled.parent_lt known goes
          obtain ⟨way, leads⟩ := hypothesis parent before (Nat.lt_trans before issued)
          exact ⟨_, .step known goes leads⟩

theorem IsFilled.handles_le (filled : store.IsFilled) (leads : store.LeadsBack handle way) :
    ∀ passed ∈ way.map Prod.fst, passed ≤ handle := by
  induction leads with
  | root => simp
  | step known goes _ hypothesis =>
      have before := filled.parent_lt known goes
      refine List.forall_mem_cons.mpr ⟨Nat.le_refl _, fun passed member => ?_⟩
      exact Nat.le_trans (hypothesis passed member) (Nat.le_of_lt before)

/-- In a filled store the handles fall on every way. -/
theorem IsFilled.falling (filled : store.IsFilled) (leads : store.LeadsBack handle way) :
    (way.map Prod.fst).Pairwise (· > ·) := by
  induction leads with
  | root => exact List.pairwise_singleton _ _
  | step known goes onward hypothesis =>
      have before := filled.parent_lt known goes
      refine List.pairwise_cons.mpr ⟨fun passed member => ?_, hypothesis⟩
      exact Nat.lt_of_le_of_lt (filled.handles_le onward passed member) before

/-- What a store tells of a handle: the way back from it, along falling handles and no longer
than the store, of which the chain is the rides and the root the last one, which alone has no
parent. -/
structure HasWay (store : RideStore) (handle : Nat) (way : List (Nat × Ride)) : Prop where
  leads : store.LeadsBack handle way
  falling : (way.map Prod.fst).Pairwise (· > ·)
  length_le : way.length ≤ store.size
  chain_eq : store.chain? handle = some (way.map Prod.snd)
  root : ∃ front last, way = front ++ [last] ∧ last.2.parent? = none ∧
    (∀ step ∈ front, step.2.parent? ≠ none) ∧ store.root? handle = some last.2

theorem IsFilled.hasWay_pushAll
    (filled : store.IsFilled) (leads : store.LeadsBack handle way) (later : List Ride) :
    (store.pushAll later).HasWay handle way := by
  have onward := leads.pushAll later
  have chain := chain?_eq_some_iff.mpr ⟨way, onward, rfl⟩
  obtain ⟨front, last, split, ends, others⟩ := leads.exists_last
  refine ⟨onward, filled.falling leads, onward.length_le_size, chain, front, last, split, ends,
    others, ?_⟩
  rw [root?, chain, Option.bind_some, split, List.map_append]
  exact List.getLast?_concat

/-- In any store the chain of a ride with a parent is the ride before the chain of the parent. -/
theorem chain?_of_parent {ride : Ride} {parent : Nat}
    (known : store.ride? handle = some ride) (goes : ride.parent? = some parent) :
    store.chain? handle = (store.chain? parent).map (ride :: ·) := by
  ext chain
  rw [Option.map_eq_some_iff, chain?_eq_some_iff]
  constructor
  · rintro ⟨way, leads, rfl⟩
    cases leads with
    | root known' ends =>
        cases known.symm.trans known'
        cases ends.symm.trans goes
    | step known' goes' onward =>
        cases known.symm.trans known'
        cases goes.symm.trans goes'
        exact ⟨_, chain?_eq_some_iff.mpr ⟨_, onward, rfl⟩, rfl⟩
  · rintro ⟨rest, before, rfl⟩
    obtain ⟨way, onward, rfl⟩ := chain?_eq_some_iff.mp before
    exact ⟨_, .step known goes onward, rfl⟩

/-- In any store the root of a ride without a parent is the ride itself, and of any other ride
the root of its parent. -/
theorem root?_of_ride? {ride : Ride} (known : store.ride? handle = some ride) :
    store.root? handle = ride.parent?.elim (some ride) store.root? := by
  cases goes : ride.parent? with
  | none =>
      have chain := chain?_eq_some_iff.mpr ⟨_, .root known goes, rfl⟩
      rw [root?, chain]
      rfl
  | some parent =>
      rw [Option.elim_some, root?, root?, chain?_of_parent known goes]
      cases before : store.chain? parent with
      | none => rfl
      | some rest =>
          obtain ⟨way, leads, rfl⟩ := chain?_eq_some_iff.mp before
          obtain ⟨front, last, rfl, _, _⟩ := leads.exists_last
          rw [Option.map_some, Option.bind_some, Option.bind_some, List.map_append,
            List.map_singleton, ← List.cons_append, List.getLast?_concat, List.getLast?_concat]

theorem chain?_of_unissued (unissued : store.size ≤ handle) : store.chain? handle = none := by
  rw [Option.eq_none_iff_forall_ne_some]
  intro chain known
  obtain ⟨way, leads, _⟩ := chain?_eq_some_iff.mp known
  cases leads with
  | root known _ => exact absurd (lt_size_of_ride? known) (Nat.not_lt.mpr unissued)
  | step known _ _ => exact absurd (lt_size_of_ride? known) (Nat.not_lt.mpr unissued)

end RideStore

namespace Planner

variable {planner before after : Planner} {catalogue : Catalogue} {transfers : TransferTable}

/-- A planner boards a trip from an access station or from a ride that it has stored. -/
theorem isFilled_push
    {trip : Trip} {board : Position} {limit : Nat} {approach : Approach} {ride : Ride}
    (leads : approach.Leads catalogue planner.rides trip board limit ride)
    (filled : planner.rides.IsFilled) : (planner.rides.push ride).IsFilled := by
  cases leads with
  | walk station serviceDay => exact .push filled nofun
  | transfer known _ =>
      refine .push filled ?_
      rintro _ ⟨⟩
      exact RideStore.lt_size_of_ride? known

theorem isFilled_step
    {outing : Outing} (step : outing.Step catalogue transfers before after)
    (filled : before.rides.IsFilled) : after.rides.IsFilled := by
  cases step with
  | enter _ _ => exact filled
  | cover _ _ _ _ => exact filled
  | board _ _ _ leads => exact isFilled_push leads filled
  | pass _ _ => exact filled
  | lose _ _ _ => exact filled
  | find _ _ _ _ _ _ _ => exact filled

theorem Evolves.isFilled
    {request : Request} {settings : Settings}
    (evolves : Evolves catalogue transfers (fresh catalogue request settings) planner) :
    planner.rides.IsFilled := by
  let kept (now : Planner) : Prop := now.rides.IsFilled
  change kept planner
  refine evolves.keeps ?_ ?_ RideStore.IsFilled.empty
  · intro outing before after step filled
    exact isFilled_step step filled
  · intro now request filled
    exact filled

/-- In a store filled with rides whose parents it had issued before, every handle it has issued
leads back along falling handles to a root, and always will, whatever is stored later.  The root
is that of the parent as long as there is one, and handles that were not issued have neither
chain nor root.  Every planner has such a store, after every session and at all moments in
between. -/
theorem chains_end_at_roots :
    (∀ store : RideStore, store.IsFilled →
      (∀ handle < store.size, ∃ way, ∀ later, (store.pushAll later).HasWay handle way) ∧
        (∀ handle ride, store.ride? handle = some ride →
          store.root? handle = ride.parent?.elim (some ride) store.root?) ∧
        ∀ handle, store.size ≤ handle →
          store.chain? handle = none ∧ store.root? handle = none) ∧
      ∀ (catalogue : Catalogue) (transfers : TransferTable) (request : Request)
        (settings : Settings),
        let start := fresh catalogue request settings
        (∀ tasks, (start.performAll catalogue transfers tasks).rides.IsFilled) ∧
          ∀ moment, Evolves catalogue transfers start moment → moment.rides.IsFilled := by
  refine ⟨fun store filled => ⟨?_, fun _ _ => RideStore.root?_of_ride?, ?_⟩,
    fun catalogue transfers request settings => ⟨?_, ?_⟩⟩
  · intro handle issued
    obtain ⟨way, leads⟩ := filled.exists_leadsBack issued
    exact ⟨way, filled.hasWay_pushAll leads⟩
  · intro handle unissued
    have nowhere := RideStore.chain?_of_unissued unissued
    refine ⟨nowhere, ?_⟩
    rw [RideStore.root?, nowhere, Option.bind_none]
  · intro tasks
    exact (evolves_performAll _ tasks).isFilled
  · intro moment evolves
    exact evolves.isFilled

/-- The last of three rides on one another leads back to the first, and still does when a ride is
stored that goes back to a handle that was never issued. -/
theorem chains_end_at_roots_on_through :
    let store := (eightSession Sample.through).rides
    let stray (ride : Ride) : Ride := { ride with parent? := some 7 }
    store.IsFilled ∧ 2 < store.size ∧
      (∃ way, way.map Prod.fst = [2, 1, 0] ∧ store.HasWay 2 way ∧
        ∀ ride, (store.pushAll [stray ride]).HasWay 2 way) ∧
      store.root? 2 = store.root? 1 ∧ store.root? 3 = none := by
  intro store stray
  have links : store.size = 3 ∧ ∃ last ∈ store.ride? 2, ∃ rear ∈ store.ride? 1,
      ∃ front ∈ store.ride? 0,
        last.parent? = some 1 ∧ rear.parent? = some 0 ∧ front.parent? = none := by
    decide +kernel
  obtain ⟨size, last, lastKnown, rear, rearKnown, front, frontKnown, toRear, toFront, ends⟩ := links
  obtain ⟨rooted, filled⟩ := chains_end_at_roots
  have filledStore : store.IsFilled :=
    (filled _ Sample.through.transfers (Sample.request 0) .standard).2 _ (evolves_performAll _ _)
  have issued : 2 < store.size := by omega
  obtain ⟨way, lasts⟩ := (rooted store filledStore).1 2 issued
  have same := (lasts []).leads.unique
    (.step lastKnown toRear (.step rearKnown toFront (.root frontKnown ends)))
  obtain ⟨_, climbs, unknown⟩ := rooted store filledStore
  have toParent := climbs 2 last lastKnown
  rw [toRear, Option.elim_some] at toParent
  exact ⟨filledStore, issued, ⟨way, by rw [same]; rfl, lasts [], fun ride => lasts [stray ride]⟩,
    toParent, (unknown 3 (Nat.le_of_eq size)).2⟩

end Planner

end Transit
