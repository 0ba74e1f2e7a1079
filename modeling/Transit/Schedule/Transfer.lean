import Transit.Chronology.Date
import Transit.Order.Arrange
import Transit.Schedule.Trip

/-!
# Transfers

A transfer says that on one service day the trip at its destination can be boarded
after alighting at its origin.  A transfer table is the list of all transfers; the
order of the transfers of one day and origin is the order in which a search tries
them, and no other order matters.  Settling a table puts every origin's destinations
into order and drops repeats.
-/

namespace Transit

/-- On `day`, the trip at `destination` can be boarded after alighting at `origin`. -/
structure Transfer where
  day : Date
  origin : Position
  destination : Position
deriving DecidableEq

namespace Transfer

/-- Order by day, then by origin, then by destination. -/
def mayPrecede (first second : Transfer) : Bool :=
  first.day < second.day ||
    (first.day == second.day &&
      ((first.origin != second.origin && first.origin.mayPrecede second.origin) ||
        (first.origin == second.origin && first.destination.mayPrecede second.destination)))

end Transfer

/-- All transfers, in the order in which they were added. -/
structure TransferTable where
  transfers : List Transfer
deriving DecidableEq

namespace TransferTable

/-- The table without transfers. -/
def empty : TransferTable := ⟨[]⟩

/-- The table with one more transfer, whether it is there already or not. -/
def add (table : TransferTable) (transfer : Transfer) : TransferTable :=
  ⟨table.transfers ++ [transfer]⟩

/-- Put the transfers in order and drop repeats. -/
def settle (table : TransferTable) : TransferTable :=
  ⟨Order.dropRepeats (Order.arrange Transfer.mayPrecede table.transfers)⟩

/-- Number of transfers. -/
def size (table : TransferTable) : Nat := table.transfers.length

/-- The transfers of one day. -/
def onDay (table : TransferTable) (day : Date) : List Transfer :=
  table.transfers.filter (·.day = day)

/-- Where one can transfer to on a day, after alighting at `origin`. -/
def destinations (table : TransferTable) (day : Date) (origin : Position) : List Position :=
  ((table.onDay day).filter (·.origin = origin)).map Transfer.destination

/-- The positions one can transfer from on a day, in order and each once. -/
def origins (table : TransferTable) (day : Date) : List Position :=
  Order.dropRepeats (Order.arrange Position.mayPrecede ((table.onDay day).map Transfer.origin))

@[simp]
theorem destinations_empty (day : Date) (origin : Position) :
    empty.destinations day origin = [] := rfl

theorem mem_destinations (table : TransferTable) (day : Date) (origin destination : Position) :
    destination ∈ table.destinations day origin ↔
      ⟨day, origin, destination⟩ ∈ table.transfers := by
  simp only [destinations, onDay, List.mem_map, List.mem_filter, decide_eq_true_eq]
  constructor
  · rintro ⟨transfer, ⟨⟨member, rfl⟩, rfl⟩, rfl⟩
    exact member
  · exact fun member => ⟨_, ⟨⟨member, rfl⟩, rfl⟩, rfl⟩

/-- A new transfer is tried after the ones that were there. -/
theorem destinations_add (table : TransferTable) (transfer : Transfer) (day : Date)
    (origin : Position) :
    (table.add transfer).destinations day origin =
      table.destinations day origin ++
        if transfer.day = day ∧ transfer.origin = origin then [transfer.destination] else [] := by
  by_cases sameDay : transfer.day = day <;> by_cases sameOrigin : transfer.origin = origin <;>
    simp [add, destinations, onDay, List.filter_append, sameDay, sameOrigin]

end TransferTable

end Transit
