import Transit.Proofs.Journey.Sample
import Transit.Proofs.Timetable.Build
import Transit.Proofs.Timetable.Numbering
import Mathlib.Data.Set.Card

/-!
# The transfers of a network

Transfers are given by the names of their trips.  A network can be made of them if both ends of
each are calls of given trips; otherwise the first transfer that has an end which is not is
refused, for its origin first.  Of the transfers that are made only the set matters: the
destinations of a day and an origin stand in order, each of them once, whatever the order in
which the transfers were given and however often.
-/

namespace Transit

theorem Position.mayPrecede_iff (first second : Position) :
    first.mayPrecede second = true ↔ first.Before second ∨ first = second := by
  obtain ⟨trip, call⟩ := first
  obtain ⟨trip', call'⟩ := second
  simp only [mayPrecede, Before, mk.injEq, Bool.or_eq_true, Bool.and_eq_true, decide_eq_true_eq,
    beq_iff_eq]
  omega

/-- Strict order by day, then by origin, then by destination. -/
def Transfer.Before (first second : Transfer) : Prop :=
  first.day < second.day ∨ first.day = second.day ∧
    (first.origin.Before second.origin ∨ first.origin = second.origin ∧
      first.destination.Before second.destination)

namespace Transfer

variable {first second third : Transfer}

theorem mayPrecede_iff (first second : Transfer) :
    first.mayPrecede second = true ↔ first.Before second ∨ first = second := by
  obtain ⟨day, origin, destination⟩ := first
  obtain ⟨day', origin', destination'⟩ := second
  have apart : origin.Before origin' → origin ≠ origin' := by
    rintro before rfl
    unfold Position.Before at before
    omega
  simp only [mayPrecede, Before, mk.injEq, Bool.or_eq_true, Bool.and_eq_true, decide_eq_true_eq,
    beq_iff_eq, bne_iff_ne, Position.mayPrecede_iff]
  tauto

theorem mayPrecede_total (first second : Transfer) :
    first.mayPrecede second = true ∨ second.mayPrecede first = true := by
  obtain ⟨⟨day⟩, ⟨left, leaving⟩, ⟨boarded, boarding⟩⟩ := first
  obtain ⟨⟨day'⟩, ⟨left', leaving'⟩, ⟨boarded', boarding'⟩⟩ := second
  simp only [mayPrecede_iff, Before, Position.Before, Date.lt_iff, mk.injEq, Date.mk.injEq,
    Position.mk.injEq]
  omega

theorem Before.trans (before : first.Before second) (after : second.Before third) :
    first.Before third := by
  obtain ⟨⟨day⟩, ⟨left, leaving⟩, ⟨boarded, boarding⟩⟩ := first
  obtain ⟨⟨day'⟩, ⟨left', leaving'⟩, ⟨boarded', boarding'⟩⟩ := second
  obtain ⟨⟨day''⟩, ⟨left'', leaving''⟩, ⟨boarded'', boarding''⟩⟩ := third
  simp only [Before, Position.Before, Date.lt_iff, Date.mk.injEq, Position.mk.injEq] at *
  omega

theorem Before.asymm (before : first.Before second) : ¬ second.Before first := by
  obtain ⟨⟨day⟩, ⟨left, leaving⟩, ⟨boarded, boarding⟩⟩ := first
  obtain ⟨⟨day'⟩, ⟨left', leaving'⟩, ⟨boarded', boarding'⟩⟩ := second
  simp only [Before, Position.Before, Date.lt_iff, Date.mk.injEq, Position.mk.injEq] at *
  omega

theorem mayPrecede_trans (before : first.mayPrecede second = true)
    (after : second.mayPrecede third = true) : first.mayPrecede third = true := by
  rw [mayPrecede_iff] at *
  rcases before with before | rfl
  · rcases after with after | rfl
    · exact .inl (before.trans after)
    · exact .inl before
  · exact after

theorem mayPrecede_antisymm (first second : Transfer) (before : first.mayPrecede second = true)
    (after : second.mayPrecede first = true) : first = second := by
  rw [mayPrecede_iff] at *
  rcases before with before | same
  · rcases after with after | same
    · exact absurd after before.asymm
    · exact same.symm
  · exact same

end Transfer

namespace TransferTable

/-- A table of certain transfers: each of them stands in it once, and the destinations of a day
and an origin stand in order. -/
structure Gathers (table : TransferTable) (given : Transfer → Prop) : Prop where
  mem_destinations_iff : ∀ day origin destination,
    destination ∈ table.destinations day origin ↔ given ⟨day, origin, destination⟩
  ordered : ∀ day origin, (table.destinations day origin).Pairwise Position.Before
  size_eq : (table.size : ℕ∞) = {transfer | given transfer}.encard

theorem pairwise_arrange (transfers : List Transfer) :
    (Order.arrange Transfer.mayPrecede transfers).Pairwise
      fun first second => first.mayPrecede second = true :=
  Order.pairwise_arrange Transfer.mayPrecede_total (fun _ _ _ => Transfer.mayPrecede_trans)
    transfers

/-- The transfers of a settled table stand in order, each of them once. -/
theorem pairwise_settle (table : TransferTable) :
    table.settle.transfers.Pairwise Transfer.Before := by
  have strict := Order.pairwise_dropRepeats Transfer.mayPrecede_antisymm
    (pairwise_arrange table.transfers)
  apply strict.imp
  rintro first second ⟨precedes, different⟩
  exact ((Transfer.mayPrecede_iff first second).mp precedes).resolve_right different

/-- A settled table depends only on which transfers there are. -/
theorem settle_eq_of_mem_iff {table other : TransferTable}
    (same : ∀ transfer, transfer ∈ table.transfers ↔ transfer ∈ other.transfers) :
    table.settle = other.settle := by
  rw [settle, settle, Order.dropRepeats_eq_of_mem_iff Transfer.mayPrecede_antisymm
    (pairwise_arrange _) (pairwise_arrange _)]
  intro transfer
  rw [Order.mem_arrange, Order.mem_arrange, same]

theorem gathers_settle {table : TransferTable} {given : Transfer → Prop}
    (mem_iff : ∀ transfer, transfer ∈ table.transfers ↔ given transfer) :
    table.settle.Gathers given where
  mem_destinations_iff day origin destination := by
    rw [mem_destinations, mem_settle, mem_iff]
  ordered day origin := by
    rw [destinations, List.pairwise_map, onDay, List.filter_filter]
    apply (table.pairwise_settle.filter _).imp_of_mem
    intro first second member member' before
    have sameOrigin : first.origin = origin ∧ first.day = day := by
      simpa using (List.mem_filter.mp member).2
    have sameOrigin' : second.origin = origin ∧ second.day = day := by
      simpa using (List.mem_filter.mp member').2
    -- Of one day and one origin, transfers stand in the order of their destinations.
    rcases before with earlier | ⟨_, trips | ⟨_, destinations⟩⟩
    · rw [sameOrigin.2, sameOrigin'.2] at earlier
      exact absurd earlier (Int.lt_irrefl _)
    · rw [sameOrigin.1, sameOrigin'.1, Position.Before] at trips
      omega
    · exact destinations
  size_eq := by
    have distinct : table.settle.transfers.Nodup := by
      apply table.pairwise_settle.imp
      rintro transfer _ before rfl
      exact before.asymm before
    have same : {transfer | given transfer} = (table.settle.transfers.toFinset : Set Transfer) := by
      ext transfer
      simp [mem_iff]
    rw [same, Set.encard_coe_eq_coe_finsetCard, List.toFinset_card_of_nodup distinct, size]

end TransferTable

namespace ScheduledTrip

/-- One of given trips goes by a feed and a name. -/
def Named (trips : List ScheduledTrip) (feed name : String) (trip : ScheduledTrip) : Prop :=
  trip ∈ trips ∧ trip.feed = feed ∧ trip.name = name

/-- A given trip goes by a feed and a name, and makes a call at a place. -/
def HasCall (trips : List ScheduledTrip) (feed name : String) (place : Nat) : Prop :=
  ∃ trip, Named trips feed name trip ∧ place < trip.calls.length

/-- What is wrong with a call that is given by name: no trip goes by the name, or the trip that
does makes too few calls. -/
inductive Misses (trips : List ScheduledTrip) (feed name : String) (place : Nat) :
    NetworkFault → Prop
  | unknown : (∀ trip, ¬ Named trips feed name trip) →
      Misses trips feed name place (.unknownTrip feed name)
  | short {trip} : Named trips feed name trip → trip.calls.length ≤ place →
      Misses trips feed name place (.noSuchCall name place)

end ScheduledTrip

namespace Timetable

variable
  {given : List ScheduledTrip} {timetable : Timetable} {feed name : String} {place : Nat}
  {position : Position} {fault : NetworkFault}

/-- A position is the call at a place of the trip that goes by a feed and a name. -/
def Means (timetable : Timetable) (feed name : String) (place : Nat) (position : Position) :
    Prop :=
  position.call = place ∧ ∃ trip ∈ timetable.catalogue.trip? position.trip,
    trip.feed = feed ∧ trip.name = name ∧ place < trip.calls.length

/-- Built trips are the given ones. -/
theorem scheduled_perm_of_build (built : build given = .ok timetable) :
    (timetable.trips.map Trip.scheduled).Perm given := by
  unfold build at built
  obtain ⟨_, _, built⟩ := Except.bind_eq_ok.mp built
  obtain ⟨_, _, built⟩ := Except.bind_eq_ok.mp built
  cases built
  exact scheduled_enumerate_group given

/-- No two built trips of one feed have one name. -/
theorem nodup_of_build (built : build given = .ok timetable) :
    (timetable.trips.map fun trip => (trip.feed, trip.name)).Nodup := by
  obtain ⟨_, checked, _⟩ := Except.bind_eq_ok.mp built
  have perm := (scheduled_perm_of_build built).map fun trip => (trip.feed, trip.name)
  rw [List.map_map] at perm
  exact perm.nodup_iff.mpr (ScheduledTrip.nodup_of_checkAll checked).1

/-- A trip that goes by a name is the one of the name's index. -/
theorem named_iff (built : build given = .ok timetable) {trip : ScheduledTrip} :
    ScheduledTrip.Named given feed name trip ↔
      ∃ index numbered, timetable.tripIndex? feed name = some index ∧
        timetable.trips[index]? = some numbered ∧ numbered.scheduled = trip := by
  have perm := scheduled_perm_of_build built
  have indexed := tripIndex?_eq_some_iff (nodup_of_build built) feed name
  constructor
  · rintro ⟨member, feeds, names⟩
    obtain ⟨numbered, known, rfl⟩ := List.mem_map.mp (perm.mem_iff.mpr member)
    obtain ⟨index, placed⟩ := List.mem_iff_getElem?.mp known
    exact ⟨index, numbered, (indexed index).mpr ⟨numbered, placed, feeds, names⟩, placed, rfl⟩
  · rintro ⟨index, numbered, found, placed, rfl⟩
    obtain ⟨known, placed', feeds, names⟩ := (indexed index).mp found
    cases placed.symm.trans placed'
    have member : numbered.scheduled ∈ timetable.trips.map Trip.scheduled :=
      List.mem_map.mpr ⟨numbered, List.mem_of_getElem? placed, rfl⟩
    exact ⟨perm.mem_iff.mp member, feeds, names⟩

/-- The index of a name is that of a trip that goes by it. -/
theorem exists_placed (built : build given = .ok timetable) {index : Nat}
    (found : timetable.tripIndex? feed name = some index) :
    ∃ trip, timetable.trips[index]? = some trip ∧
      ScheduledTrip.Named given feed name trip.scheduled := by
  obtain ⟨trip, placed, _⟩ :=
    (tripIndex?_eq_some_iff (nodup_of_build built) feed name index).mp found
  exact ⟨trip, placed, (named_iff built).mpr ⟨index, trip, found, placed, rfl⟩⟩

theorem position_of_unknown (unknown : timetable.tripIndex? feed name = none) :
    timetable.position feed name place = .error (.unknownTrip feed name) := by
  rw [position, unknown]

theorem position_of_inside {index : Nat} {trip : Trip}
    (found : timetable.tripIndex? feed name = some index)
    (placed : timetable.trips[index]? = some trip) (inside : place < trip.calls.length) :
    timetable.position feed name place = .ok ⟨index, place⟩ := by
  rw [position, found]
  simp [Catalogue.call?, Timetable.catalogue, placed, inside]

theorem position_of_outside {index : Nat} {trip : Trip}
    (found : timetable.tripIndex? feed name = some index)
    (placed : timetable.trips[index]? = some trip) (outside : trip.calls.length ≤ place) :
    timetable.position feed name place = .error (.noSuchCall name place) := by
  rw [position, found]
  simp [Catalogue.call?, Timetable.catalogue, placed, outside]

theorem position_eq_ok_iff (built : build given = .ok timetable) :
    timetable.position feed name place = .ok position ↔
      timetable.Means feed name place position := by
  have indexed := tripIndex?_eq_some_iff (nodup_of_build built) feed name
  constructor
  · intro known
    cases found : timetable.tripIndex? feed name with
    | none =>
        rw [position_of_unknown found] at known
        cases known
    | some index =>
        obtain ⟨trip, placed, feeds, names⟩ := (indexed index).mp found
        rcases Nat.lt_or_ge place trip.calls.length with inside | outside
        · cases (position_of_inside found placed inside).symm.trans known
          exact ⟨rfl, trip, placed, feeds, names, inside⟩
        · cases (position_of_outside found placed outside).symm.trans known
  · rintro ⟨rfl, trip, placed, feeds, names, inside⟩
    have found := (indexed position.trip).mpr ⟨trip, placed, feeds, names⟩
    exact position_of_inside found placed inside

theorem exists_position_iff (built : build given = .ok timetable) :
    (∃ position, timetable.position feed name place = .ok position) ↔
      ScheduledTrip.HasCall given feed name place := by
  constructor
  · rintro ⟨position, known⟩
    obtain ⟨_, trip, placed, feeds, names, inside⟩ := (position_eq_ok_iff built).mp known
    have found := (tripIndex?_eq_some_iff (nodup_of_build built) feed name position.trip).mpr
      ⟨trip, placed, feeds, names⟩
    exact ⟨trip.scheduled, (named_iff built).mpr ⟨_, trip, found, placed, rfl⟩, inside⟩
  · rintro ⟨_, known, inside⟩
    obtain ⟨index, trip, found, placed, rfl⟩ := (named_iff built).mp known
    exact ⟨⟨index, place⟩, position_of_inside found placed inside⟩

theorem position_eq_error_iff (built : build given = .ok timetable) :
    timetable.position feed name place = .error fault ↔
      ScheduledTrip.Misses given feed name place fault := by
  constructor
  · intro failed
    cases found : timetable.tripIndex? feed name with
    | none =>
        rw [position_of_unknown found] at failed
        cases failed
        refine .unknown fun trip known => ?_
        obtain ⟨_, _, found', _⟩ := (named_iff built).mp known
        cases found.symm.trans found'
    | some index =>
        obtain ⟨trip, placed, known⟩ := exists_placed built found
        rcases Nat.lt_or_ge place trip.calls.length with inside | outside
        · cases (position_of_inside found placed inside).symm.trans failed
        · cases (position_of_outside found placed outside).symm.trans failed
          exact .short known outside
  · intro misses
    cases misses with
    | unknown none =>
        apply position_of_unknown
        by_contra indexed
        obtain ⟨index, found⟩ := Option.ne_none_iff_exists'.mp indexed
        obtain ⟨trip, _, known⟩ := exists_placed built found
        exact none trip.scheduled known
    | short known few =>
        obtain ⟨index, trip, found, placed, rfl⟩ := (named_iff built).mp known
        exact position_of_outside found placed few

end Timetable

namespace NamedTransfer

/-- The feed of the trip to board: that of the trip to leave, unless another is given. -/
def destinationFeed (named : NamedTransfer) : String :=
  named.destinationFeed?.getD named.feed

/-- Both ends of a transfer are calls of given trips. -/
structure Resolves (named : NamedTransfer) (trips : List ScheduledTrip) : Prop where
  origin : ScheduledTrip.HasCall trips named.feed named.originTrip named.originCall
  destination :
    ScheduledTrip.HasCall trips named.destinationFeed named.destinationTrip named.destinationCall

/-- What is wrong with a transfer: of its two ends the origin is looked at first. -/
inductive IsRefused (named : NamedTransfer) (trips : List ScheduledTrip) : NetworkFault → Prop
  | origin {fault} :
      ScheduledTrip.Misses trips named.feed named.originTrip named.originCall fault →
        IsRefused named trips fault
  | destination {fault} :
      ScheduledTrip.HasCall trips named.feed named.originTrip named.originCall →
        ScheduledTrip.Misses trips named.destinationFeed named.destinationTrip
          named.destinationCall fault →
        IsRefused named trips fault

/-- The transfer that is given by name, in the numbers of a timetable. -/
structure Means (named : NamedTransfer) (timetable : Timetable) (transfer : Transfer) : Prop where
  day_eq : transfer.day = named.day
  origin :
    timetable.Means named.feed named.originTrip named.originCall transfer.origin
  destination :
    timetable.Means named.destinationFeed named.destinationTrip named.destinationCall
      transfer.destination

variable
  {given : List ScheduledTrip} {timetable : Timetable} {named : NamedTransfer}
  {transfer : Transfer} {fault : NetworkFault}

theorem resolve_eq_ok_iff (built : Timetable.build given = .ok timetable) :
    named.resolve timetable = .ok transfer ↔ named.Means timetable transfer := by
  unfold resolve
  constructor
  · intro resolved
    obtain ⟨origin, left, resolved⟩ := Except.bind_eq_ok.mp resolved
    obtain ⟨destination, boarded, resolved⟩ := Except.bind_eq_ok.mp resolved
    cases resolved
    exact ⟨rfl, (Timetable.position_eq_ok_iff built).mp left,
      (Timetable.position_eq_ok_iff built).mp boarded⟩
  · rintro ⟨day, left, boarded⟩
    rw [← Timetable.position_eq_ok_iff built] at left boarded
    obtain ⟨_, origin, destination⟩ := transfer
    obtain rfl : _ = named.day := day
    exact Except.bind_eq_ok.mpr ⟨origin, left, Except.bind_eq_ok.mpr ⟨destination, boarded, rfl⟩⟩

theorem exists_resolve_iff (built : Timetable.build given = .ok timetable) :
    (∃ transfer, named.resolve timetable = .ok transfer) ↔ named.Resolves given := by
  constructor
  · rintro ⟨transfer, resolved⟩
    obtain ⟨_, left, boarded⟩ := (resolve_eq_ok_iff built).mp resolved
    rw [← Timetable.position_eq_ok_iff built] at left boarded
    exact ⟨(Timetable.exists_position_iff built).mp ⟨_, left⟩,
      (Timetable.exists_position_iff built).mp ⟨_, boarded⟩⟩
  · rintro ⟨left, boarded⟩
    obtain ⟨origin, left⟩ := (Timetable.exists_position_iff built).mpr left
    obtain ⟨destination, boarded⟩ := (Timetable.exists_position_iff built).mpr boarded
    rw [Timetable.position_eq_ok_iff built] at left boarded
    exact ⟨⟨named.day, origin, destination⟩, (resolve_eq_ok_iff built).mpr ⟨rfl, left, boarded⟩⟩

theorem resolve_eq_error_iff (built : Timetable.build given = .ok timetable) :
    named.resolve timetable = .error fault ↔ named.IsRefused given fault := by
  unfold resolve
  rw [Except.bind_eq_error]
  constructor
  · rintro (missed | ⟨origin, left, failed⟩)
    · exact .origin ((Timetable.position_eq_error_iff built).mp missed)
    · rcases Except.bind_eq_error.mp failed with missed | ⟨_, _, impossible⟩
      · exact .destination ((Timetable.exists_position_iff built).mp ⟨origin, left⟩)
          ((Timetable.position_eq_error_iff built).mp missed)
      · cases impossible
  · intro refused
    cases refused with
    | origin missed => exact .inl ((Timetable.position_eq_error_iff built).mpr missed)
    | destination left missed =>
        obtain ⟨origin, left⟩ := (Timetable.exists_position_iff built).mpr left
        have failed := (Timetable.position_eq_error_iff built).mpr missed
        exact .inr ⟨origin, left, Except.bind_eq_error.mpr (.inl failed)⟩

end NamedTransfer

namespace NetworkPlan

variable {plan : NetworkPlan} {timetable : Timetable} {network : Network} {fault : NetworkFault}

/-- Every trip of a built network is a given one. -/
theorem scheduled_mem_of_build (built : plan.build = .ok network) {trip : Trip}
    (member : trip ∈ network.timetable.trips) : trip.scheduled ∈ plan.trips := by
  have perm := Timetable.scheduled_perm_of_build (parts_of_build built).1
  exact perm.mem_iff.mp (List.mem_map.mpr ⟨trip, member, rfl⟩)

theorem build_eq (built : Timetable.build plan.trips = .ok timetable) :
    plan.build = do
      let transfers ← plan.transfers.mapM (·.resolve timetable)
      return { timetable, transfers := TransferTable.settle ⟨transfers⟩ } := by
  rw [build, built]
  rfl

theorem build_eq_ok_iff (built : Timetable.build plan.trips = .ok timetable) :
    plan.build = .ok network ↔
      ∃ transfers, plan.transfers.mapM (·.resolve timetable) = .ok transfers ∧
        network = { timetable, transfers := TransferTable.settle ⟨transfers⟩ } := by
  rw [build_eq built, Except.bind_eq_ok]
  apply exists_congr
  intro transfers
  apply and_congr_right
  intro _
  constructor
  · rintro ⟨⟩
    rfl
  · rintro rfl
    rfl

theorem exists_build_iff (built : Timetable.build plan.trips = .ok timetable) :
    (∃ network, plan.build = .ok network) ↔
      ∀ named ∈ plan.transfers, named.Resolves plan.trips := by
  constructor
  · rintro ⟨network, made⟩ named member
    obtain ⟨transfers, resolved, _⟩ := (build_eq_ok_iff built).mp made
    obtain ⟨transfer, _, known⟩ := Except.exists_of_mapM resolved member
    exact (NamedTransfer.exists_resolve_iff built).mp ⟨transfer, known⟩
  · intro resolves
    obtain ⟨transfers, resolved⟩ := Except.exists_mapM fun named member =>
      (NamedTransfer.exists_resolve_iff built).mpr (resolves named member)
    exact ⟨_, (build_eq_ok_iff built).mpr ⟨transfers, resolved, rfl⟩⟩

theorem build_eq_error_iff (built : Timetable.build plan.trips = .ok timetable) :
    plan.build = .error fault ↔
      ∃ earlier named later, plan.transfers = earlier ++ named :: later ∧
        (∀ other ∈ earlier, other.Resolves plan.trips) ∧ named.IsRefused plan.trips fault := by
  have failed_iff :
      plan.build = .error fault ↔ plan.transfers.mapM (·.resolve timetable) = .error fault := by
    rw [build_eq built, Except.bind_eq_error]
    constructor
    · rintro (failed | ⟨_, _, impossible⟩)
      · exact failed
      · cases impossible
    · exact .inl
  rw [failed_iff, Except.mapM_eq_error_iff]
  simp only [NamedTransfer.exists_resolve_iff built, NamedTransfer.resolve_eq_error_iff built]

theorem gathers_of_build (built : Timetable.build plan.trips = .ok timetable)
    (made : plan.build = .ok network) :
    network.transfers.Gathers fun transfer =>
      ∃ named ∈ plan.transfers, named.Means timetable transfer := by
  obtain ⟨transfers, resolved, rfl⟩ := (build_eq_ok_iff built).mp made
  apply TransferTable.gathers_settle
  intro transfer
  simp only [Except.mem_of_mapM resolved, NamedTransfer.resolve_eq_ok_iff built]

/-- Transfers that are given in another order, or repeated, make the same network. -/
theorem build_eq_of_mem_iff {other : NetworkPlan}
    (built : Timetable.build plan.trips = .ok timetable) (trips : other.trips = plan.trips)
    (same : ∀ named, named ∈ other.transfers ↔ named ∈ plan.transfers)
    (made : plan.build = .ok network) :
    other.build = .ok network := by
  have built' : Timetable.build other.trips = .ok timetable := trips ▸ built
  obtain ⟨transfers, resolved, rfl⟩ := (build_eq_ok_iff built).mp made
  have resolves := (exists_build_iff built).mp ⟨_, made⟩
  obtain ⟨transfers', resolved'⟩ := Except.exists_mapM fun named member =>
    (NamedTransfer.exists_resolve_iff built).mpr (resolves named ((same named).mp member))
  have settled : TransferTable.settle ⟨transfers⟩ = TransferTable.settle ⟨transfers'⟩ := by
    apply TransferTable.settle_eq_of_mem_iff
    intro transfer
    rw [Except.mem_of_mapM resolved, Except.mem_of_mapM resolved']
    simp only [same]
  rw [settled]
  exact (build_eq_ok_iff built').mpr ⟨transfers', resolved', rfl⟩

/-- Where the trips make a timetable, the transfers make a network if both ends of each are
calls of given trips; otherwise the first transfer of which an end is not is refused.  The
transfers of the network are those that the given ones mean, and neither the order of these
nor repeating them makes a difference. -/
theorem build_gathers_or_refuses (built : Timetable.build plan.trips = .ok timetable) :
    ((∃ network, plan.build = .ok network) ↔
        ∀ named ∈ plan.transfers, named.Resolves plan.trips) ∧
      (∀ fault, plan.build = .error fault ↔
        ∃ earlier named later, plan.transfers = earlier ++ named :: later ∧
          (∀ other ∈ earlier, other.Resolves plan.trips) ∧ named.IsRefused plan.trips fault) ∧
      ∀ network, plan.build = .ok network →
        network.timetable = timetable ∧
          (network.transfers.Gathers fun transfer =>
            ∃ named ∈ plan.transfers, named.Means timetable transfer) ∧
          ∀ others : List NamedTransfer, (∀ named, named ∈ others ↔ named ∈ plan.transfers) →
            (NetworkPlan.mk plan.trips others).build = .ok network := by
  refine ⟨exists_build_iff built, fun _ => build_eq_error_iff built, fun network made => ?_⟩
  refine ⟨?_, gathers_of_build built made, fun others same => ?_⟩
  · obtain ⟨_, _, rfl⟩ := (build_eq_ok_iff built).mp made
    rfl
  · exact build_eq_of_mem_iff built rfl same made

/-- The transfers of an express are the same two, also when they are given backward and
then once more. -/
theorem build_gathers_express :
    Timetable.build Sample.expressPlan.trips = .ok Sample.express.timetable ∧
      Sample.expressPlan.build = .ok Sample.express ∧
      Sample.express.transfers.destinations Sample.day ⟨0, 1⟩ = [⟨1, 1⟩] ∧
      (NetworkPlan.mk Sample.expressPlan.trips
        (Sample.expressPlan.transfers.reverse ++ Sample.expressPlan.transfers)).build =
          .ok Sample.express := by
  have built : Timetable.build Sample.expressPlan.trips = .ok Sample.express.timetable := by
    decide +kernel
  have made : Sample.expressPlan.build = .ok Sample.express := by decide +kernel
  obtain ⟨_, _, gathers⟩ := build_gathers_or_refuses built
  obtain ⟨_, _, same⟩ := gathers Sample.express made
  refine ⟨built, made, by decide +kernel, same _ fun named => ?_⟩
  rw [List.mem_append, List.mem_reverse, or_self]

end NetworkPlan

end Transit
