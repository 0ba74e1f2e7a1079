import Transit.Proofs.Journey.Lasting
import Transit.Proofs.Timetable.Transfers

/-!
# Blocks and vehicles

Two trips are run by one vehicle if they share a block that has a name.  A planner asks for
less: it takes two trips to be run by one vehicle whenever they carry the same block, and the
empty name is a block to it like any other.  What it counts as changes along a journey are
therefore the changes of vehicle without those from an unnamed block to an unnamed block, and
these are all if the names of the blocks of a network are not empty.
-/

namespace Transit

namespace Leg

/-- Two legs are on trips that share a block with a name. -/
def SharesBlock (first second : Leg) : Prop :=
  ∃ block, block ∈ first.block? ∧ block ≠ "" ∧ second.block? = some block

instance (first second : Leg) : Decidable (first.SharesBlock second) :=
  inferInstanceAs (Decidable (∃ block, block ∈ first.block? ∧ block ≠ "" ∧
    second.block? = some block))

/-- The trips of two legs both carry the empty name as their block. -/
def AreUnnamed (first second : Leg) : Prop :=
  first.block? = some "" ∧ second.block? = some ""

instance (first second : Leg) : Decidable (first.AreUnnamed second) :=
  inferInstanceAs (Decidable (_ ∧ _))

/-- The second of two legs is noted to stay on the vehicle of the first exactly if they carry
the same block. -/
def Notes (first second : Leg) : Prop :=
  second.staysOnVehicle = true ↔
    ∃ block, second.block? = some block ∧ first.block? = some block

variable {first second leg : Leg} {legs : List (Trip × Leg)}

/-- A leg that stays on a block stays on a named or on an unnamed one. -/
theorem Notes.stays_iff (notes : first.Notes second) :
    second.staysOnVehicle = true ↔ first.SharesBlock second ∨ first.AreUnnamed second := by
  rw [Notes] at notes
  rw [notes]
  constructor
  · rintro ⟨block, here, there⟩
    rcases eq_or_ne block "" with rfl | named
    · exact .inr ⟨there, here⟩
    · exact .inl ⟨block, there, named, here⟩
  · rintro (⟨block, there, _, here⟩ | ⟨there, here⟩)
    · exact ⟨block, here, there⟩
    · exact ⟨"", here, there⟩

theorem AreUnnamed.not_sharesBlock (unnamed : first.AreUnnamed second) :
    ¬ first.SharesBlock second := by
  rintro ⟨block, there, named, _⟩
  exact named (Option.some.inj (there.symm.trans unnamed.1))

/-- Of two legs a change is noted, or both are unnamed, exactly if they share no named block;
and not both at once. -/
theorem Notes.change_add_unnamed (notes : first.Notes second) :
    (if !second.staysOnVehicle then 1 else 0) + (if first.AreUnnamed second then 1 else 0) =
      if ¬ first.SharesBlock second then 1 else 0 := by
  have stays := notes.stays_iff
  by_cases unnamed : first.AreUnnamed second
  · simp [stays.mpr (.inr unnamed), unnamed, unnamed.not_sharesBlock]
  · by_cases shares : first.SharesBlock second
    · simp [stays.mpr (.inl shares), unnamed, shares]
    · have changes : second.staysOnVehicle = false := by
        simpa [unnamed, shares] using stays
      simp [changes, unnamed, shares]

/-- A leg carries the block of its trip. -/
theorem block?_of_ofTrip
    {trip : Trip} {board alight : Position} (made : ofTrip trip board alight = .ok leg) :
    leg.block? = trip.block? := by
  unfold ofTrip at made
  obtain ⟨_, _, made⟩ := Except.bind_eq_ok.mp made
  obtain ⟨_, _, made⟩ := Except.bind_eq_ok.mp made
  obtain ⟨_, _, made⟩ := Except.bind_eq_ok.mp made
  obtain ⟨_, _, made⟩ := Except.bind_eq_ok.mp made
  cases made
  rfl

/-- The legs of a chain are on trips of the catalogue and carry their blocks. -/
theorem carries_of_ofChain
    {catalogue : Catalogue} {alight : Position} {chain : List Ride}
    (made : ofChain catalogue alight chain = .ok legs) :
    ∀ pair ∈ legs, pair.2.block? = pair.1.block? ∧
      ∃ index, catalogue.trip? index = some pair.1 := by
  induction chain generalizing alight legs with
  | nil =>
      cases made
      exact List.forall_mem_nil _
  | cons ride rest hypothesis =>
      obtain ⟨trip, leg, others, found, ridden, before, rfl⟩ := exists_of_ofChain_cons made
      exact List.forall_mem_cons.mpr
        ⟨⟨block?_of_ofTrip ridden, ride.board.trip, found⟩, hypothesis before⟩

/-- The notes on the legs of a chain are right.  In this order each leg comes before the one
that is ridden before it. -/
theorem isChain_noteStays (carries : ∀ pair ∈ legs, pair.2.block? = pair.1.block?) :
    (noteStays legs).IsChain fun later earlier => earlier.Notes later := by
  induction legs with
  | nil => exact .nil
  | cons pair rest hypothesis =>
      obtain ⟨trip, leg⟩ := pair
      obtain ⟨carried, others⟩ := List.forall_mem_cons.mp carries
      cases rest with
      | nil => exact .singleton leg
      | cons next rest =>
          obtain ⟨previous, before⟩ := next
          have carriedBefore := (List.forall_mem_cons.mp others).1
          obtain ⟨stays, tail, noted⟩ := exists_noteStays_cons previous before rest
          have chain := hypothesis others
          rw [noted] at chain
          rw [noteStays, noted]
          refine .cons_cons ?_ chain
          change trip.sharesVehicle previous = true ↔
            ∃ block, leg.block? = some block ∧ before.block? = some block
          rw [Trip.sharesVehicle_iff, carried, carriedBefore]

/-- Noting the stays does not change the blocks. -/
theorem map_block?_noteStays (legs : List (Trip × Leg)) :
    (noteStays legs).map Leg.block? = legs.map fun pair => pair.2.block? := by
  induction legs with
  | nil => rfl
  | cons pair rest hypothesis =>
      cases rest with
      | nil => rfl
      | cons next others =>
          rw [noteStays, List.map_cons, hypothesis]
          rfl

end Leg

namespace Itinerary

/-- Every leg of an itinerary with the one that follows it. -/
def transitions (itinerary : Itinerary) : List (Leg × Leg) :=
  itinerary.legs.zip itinerary.legs.tail

/-- The number of times that the next leg is not on a trip that shares a named block. -/
def vehicleChanges (itinerary : Itinerary) : Nat :=
  itinerary.transitions.countP fun pair => ¬ pair.1.SharesBlock pair.2

/-- The number of times that the next leg, like the one before, is on an unnamed block. -/
def unnamedStays (itinerary : Itinerary) : Nat :=
  itinerary.transitions.countP fun pair => pair.1.AreUnnamed pair.2

/-- Along legs with right notes a change of vehicle is noted, or goes from an unnamed block to
an unnamed block. -/
theorem countP_add_countP {legs : List Leg} (noted : legs.IsChain Leg.Notes) :
    legs.tail.countP (fun leg => !leg.staysOnVehicle) +
        (legs.zip legs.tail).countP (fun pair => pair.1.AreUnnamed pair.2) =
      (legs.zip legs.tail).countP (fun pair => ¬ pair.1.SharesBlock pair.2) := by
  induction noted with
  | nil => rfl
  | singleton _ => rfl
  | @cons_cons first second rest notes _ hypothesis =>
      have here := notes.change_add_unnamed
      rw [List.tail_cons] at hypothesis ⊢
      rw [List.zip_cons_cons, List.countP_cons, List.countP_cons, List.countP_cons,
        ← hypothesis]
      simp only [decide_eq_true_eq]
      omega

variable
  {catalogue : Catalogue} {rides : RideStore} {label : Label} {itinerary : Itinerary}

theorem changesNoted_add_unnamedStays
    (made : ofLabel catalogue rides label = .ok itinerary) :
    itinerary.changesNoted + itinerary.unnamedStays = itinerary.vehicleChanges := by
  obtain ⟨chain, legs, root, first, last, isMadeOf⟩ := exists_isMadeOf made
  have carries := Leg.carries_of_ofChain isMadeOf.legs_eq
  have notes := Leg.isChain_noteStays fun pair member => (carries pair member).1
  have noted : itinerary.legs.IsChain Leg.Notes := by
    rw [isMadeOf.noted, List.isChain_reverse]
    exact notes
  exact countP_add_countP noted

/-- Where no trip of the catalogue carries the empty name, an itinerary stays on no unnamed
block. -/
theorem unnamedStays_eq_zero
    (made : ofLabel catalogue rides label = .ok itinerary)
    (named : ∀ index trip, catalogue.trip? index = some trip → trip.block? ≠ some "") :
    itinerary.unnamedStays = 0 := by
  obtain ⟨chain, legs, root, first, last, isMadeOf⟩ := exists_isMadeOf made
  refine List.countP_eq_zero.mpr fun ⟨leg, next⟩ member unnamed => ?_
  have mem : leg ∈ (Leg.noteStays legs) := by
    have known := (List.of_mem_zip member).1
    rwa [isMadeOf.noted, List.mem_reverse] at known
  have block : some "" ∈ (Leg.noteStays legs).map Leg.block? :=
    List.mem_map.mpr ⟨leg, mem, (of_decide_eq_true unnamed).1⟩
  rw [Leg.map_block?_noteStays] at block
  obtain ⟨pair, known, carried⟩ := List.mem_map.mp block
  obtain ⟨same, index, found⟩ := Leg.carries_of_ofChain isMadeOf.legs_eq pair known
  exact named index pair.1 found (same.symm.trans carried)

end Itinerary

namespace Planner

variable
  {planner : Planner} {timetable : Timetable} {transfers : TransferTable} {label : Label}
  {itinerary : Itinerary}

/-- The changes of a label are noted on the legs of its itinerary. -/
theorem Linked.changesNoted_eq
    (built : timetable.IsBuilt) (linked : planner.Linked timetable.catalogue transfers)
    (tallied : planner.Tallied timetable.catalogue) (member : label ∈ planner.found)
    (made : Itinerary.ofLabel timetable.catalogue planner.rides label = .ok itinerary) :
    itinerary.changesNoted = itinerary.changes := by
  obtain ⟨chain, legs, root, first, last, isMadeOf⟩ := Itinerary.exists_isMadeOf made
  obtain ⟨_, _, way, along, counted⟩ :=
    RideStore.criteria_eq_ok.mp (tallied.labelled label member)
  rw [RideStore.chain_eq_ok, isMadeOf.chain_eq, Option.some.injEq] at along
  subst along
  have stored : planner.rides.ride? label.ride = some _ :=
    Array.getElem?_eq_getElem (tallied.lt_size member)
  obtain ⟨outing, rest, known, chained⟩ := linked label.ride _ stored
  rw [isMadeOf.chain_eq, Option.some.injEq] at known
  subst known
  rw [Itinerary.changesNoted, isMadeOf.noted, List.tail_reverse, List.countP_reverse,
    isMadeOf.changes_eq]
  exact chained.countP_noteStays built isMadeOf.legs_eq counted

/-- The changes of a label on the frontier are, with the stays on an unnamed block, the changes
of vehicle along its itinerary.  If no given trip carries the empty name as its block, they are
these changes of vehicle. -/
theorem changes_add_unnamedStays_of_session
    {plan : NetworkPlan} {network : Network} (built : plan.build = .ok network)
    (request : Request) (settings : Settings) (tasks : List Task) {label : Label} :
    let catalogue := network.timetable.catalogue
    let after := (fresh catalogue request settings).performAll catalogue network.transfers tasks
    label ∈ after.frontier.labels →
      ∃ itinerary, Itinerary.ofLabel catalogue after.rides label = .ok itinerary ∧
        itinerary.changes = label.criteria.changes ∧
        label.criteria.changes + itinerary.unnamedStays = itinerary.vehicleChanges ∧
        ((∀ trip ∈ plan.trips, trip.block? ≠ some "") →
          label.criteria.changes = itinerary.vehicleChanges) := by
  intro catalogue after member
  have sound := Timetable.isBuilt_of_plan built
  have pareto : after.IsPareto :=
    isPareto_performAll catalogue network.transfers request settings tasks
  have tallied : after.Tallied catalogue :=
    tallied_performAll catalogue network.transfers request settings tasks
  have accountable : after.Accountable catalogue network.transfers :=
    .of_evolves (evolves_performAll _ tasks)
  have found := pareto.mem_found member
  obtain ⟨itinerary, _, recounts⟩ := accountable.exists_recounts sound found
  have made := recounts.itinerary_eq
  obtain ⟨_, _, _, _, _, isMadeOf⟩ := Itinerary.exists_isMadeOf made
  have noted := accountable.linked.changesNoted_eq sound tallied found made
  have total := Itinerary.changesNoted_add_unnamedStays made
  rw [noted, isMadeOf.changes_eq] at total
  refine ⟨itinerary, made, isMadeOf.changes_eq, total, ?_⟩
  intro named
  have none : itinerary.unnamedStays = 0 := by
    refine Itinerary.unnamedStays_eq_zero made fun index trip known => ?_
    exact named trip.scheduled
      (NetworkPlan.scheduled_mem_of_build built (Timetable.IsBuilt.mem_of_trip? known))
  rw [← total, none, Nat.add_zero]

/-- What a fresh planner knows after a departure at eight on a network. -/
def departedOn (network : Network) : Planner :=
  (fresh network.timetable.catalogue (Sample.request 0) .standard).performAll
    network.timetable.catalogue network.transfers
    [.depart [Sample.origin] (Sample.instant 8 0) fun _ => true]

/-- The label of the journey on three trips, two of which share a named block. -/
def namedLabel : Label :=
  { round := 2, egress := Sample.target, alight := ⟨2, 1⟩, scheduled := Sample.clock 8 40
    ride := 2, criteria := ⟨31200, 1, 28800⟩ }

/-- On the through network the vehicle changes once in two transfers, and one change is
counted. -/
theorem changes_eq_of_through :
    namedLabel ∈ (departedOn Sample.through).frontier.labels ∧
      (∀ trip ∈ Sample.throughPlan.trips, trip.block? ≠ some "") ∧
      ∃ itinerary,
        Itinerary.ofLabel Sample.through.timetable.catalogue (departedOn Sample.through).rides
            namedLabel = .ok itinerary ∧
          itinerary.changes = 1 ∧ itinerary.vehicleChanges = 1 := by
  have built : Sample.throughPlan.build = .ok Sample.through := by decide +kernel
  have member : namedLabel ∈ (departedOn Sample.through).frontier.labels := by decide +kernel
  have named : ∀ trip ∈ Sample.throughPlan.trips, trip.block? ≠ some "" := by
    simp [Sample.throughPlan, Sample.trip]
  unfold departedOn at member ⊢
  obtain ⟨itinerary, made, same, _, changes⟩ :=
    changes_add_unnamedStays_of_session built (Sample.request 0) .standard
      [.depart [Sample.origin] (Sample.instant 8 0) fun _ => true] member
  exact ⟨member, named, itinerary, made, same, (changes named).symm⟩

/-- The label of the journey on two trips of the unnamed block. -/
def unnamedLabel : Label :=
  { round := 1, egress := Sample.target, alight := ⟨1, 1⟩, scheduled := Sample.clock 8 20
    ride := 1, criteria := ⟨30000, 0, 28800⟩ }

/-- The two trips share no named block, and no change is counted. -/
theorem changes_of_unnamed :
    Sample.unnamedPlan.build = .ok Sample.unnamed ∧
      unnamedLabel ∈ (departedOn Sample.unnamed).frontier.labels ∧
      unnamedLabel.criteria.changes = 0 ∧
      (Itinerary.ofLabel Sample.unnamed.timetable.catalogue (departedOn Sample.unnamed).rides
          unnamedLabel).map
        (fun itinerary => (itinerary.legs.map fun leg => (leg.trip, leg.block?),
          itinerary.vehicleChanges)) =
        .ok ([("front", some ""), ("rear", some "")], 1) := by
  decide +kernel

end Planner

end Transit
