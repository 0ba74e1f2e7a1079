import Transit.Schedule.Stop

/-!
# Faults of a network

What can be wrong with scheduled trips, and with the transfers that name them.
-/

namespace Transit

/-- Why trips and transfers do not make a network. -/
inductive NetworkFault where
  /-- A trip needs a call to board at and a call to alight at. -/
  | tooFewCalls (trip : String)
  /-- A trip arrives before it left, or leaves before it arrived. -/
  | backInTime (trip : String) (call : Nat)
  /-- Two trips of a feed have one name. -/
  | duplicateTrip (feed trip : String)
  /-- A transfer names a trip that does not exist. -/
  | unknownTrip (feed trip : String)
  /-- A transfer names a call that its trip does not make. -/
  | noSuchCall (trip : String) (call : Nat)
  /-- A stop has a blank name. -/
  | stop (fault : StopFault)
deriving DecidableEq

/-- The wording of a fault. -/
def NetworkFault.message : NetworkFault → String
  | .tooFewCalls trip => s!"trip {trip} has fewer than two stop times"
  | .backInTime trip call => s!"trip {trip} goes back in time at position {call}"
  | .duplicateTrip feed trip => s!"duplicate trip {feed}:{trip}"
  | .unknownTrip feed trip => s!"unknown trip {feed}:{trip}"
  | .noSuchCall trip call => s!"trip {trip} has no stop at position {call}"
  | .stop fault => fault.message

end Transit
