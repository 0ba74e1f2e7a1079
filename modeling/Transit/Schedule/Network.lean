import Transit.Schedule.Catalogue
import Transit.Schedule.Transfer

/-!
# Networks

A network is a timetable with the transfers between its trips.  It is made of a plan
in which transfers name trips; making the network replaces the names by indices and
settles the transfer table.
-/

namespace Transit

/-- A transfer between trips that are given by name. -/
structure NamedTransfer where
  day : Date
  feed : String
  originTrip : String
  originCall : Nat
  /-- The feed of the destination, if it is another one. -/
  destinationFeed? : Option String
  destinationTrip : String
  destinationCall : Nat
deriving DecidableEq

/-- Trips and transfers before they are indexed. -/
structure NetworkPlan where
  trips : List ScheduledTrip
  transfers : List NamedTransfer
deriving DecidableEq

/-- Indexed trips and the transfers between them. -/
structure Network where
  timetable : Timetable
  transfers : TransferTable
deriving DecidableEq

/-- The position of a call that is given by the name of its trip. -/
def Timetable.position (timetable : Timetable) (feed trip : String) (call : Nat) :
    Except NetworkFault Position :=
  match timetable.tripIndex? feed trip with
  | none => .error (.unknownTrip feed trip)
  | some index =>
      if (timetable.catalogue.call? ⟨index, call⟩).isSome then .ok ⟨index, call⟩
      else .error (.noSuchCall trip call)

namespace NamedTransfer

/-- The transfer between the positions that the names stand for. -/
def resolve (named : NamedTransfer) (timetable : Timetable) : Except NetworkFault Transfer := do
  let origin ← timetable.position named.feed named.originTrip named.originCall
  let destination ← timetable.position (named.destinationFeed?.getD named.feed)
    named.destinationTrip named.destinationCall
  return { day := named.day, origin, destination }

end NamedTransfer

/-- Index the trips, then resolve the transfers in the order they are given. -/
def NetworkPlan.build (plan : NetworkPlan) : Except NetworkFault Network := do
  let timetable ← Timetable.build plan.trips
  let transfers ← plan.transfers.mapM (·.resolve timetable)
  return { timetable, transfers := TransferTable.settle ⟨transfers⟩ }

end Transit
