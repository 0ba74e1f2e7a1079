import Transit.Journey.Request

/-!
# Queries

A query is a request as a user states it: the window in minutes, the routes that
must not be used, and perhaps other settings than the standard ones.
-/

namespace Transit

/-- A request in a user's terms. -/
structure Query where
  access : List Station
  egress : List Station
  start : Instant
  windowMinutes : Int
  weights : Weights
  excludedRoutes : List String
  /-- Whether the access stations are swept one after the other. -/
  sweepsEach : Bool
  rounds? : Option Nat
  stepMinutes? : Option Int

namespace Query

/-- Why a query states no request: its window, in minutes, is too long for a span. -/
structure WindowFault where
  minutes : Int
deriving DecidableEq

/-- The wording of the fault. -/
def WindowFault.message (fault : WindowFault) : String :=
  s!"profile window of {fault.minutes} minutes is out of range"

/-- Whether a trip is on none of the routes; a trip without a route is on none. -/
def avoids (routes : List String) (trip : Trip) : Bool :=
  match trip.route? with
  | some route => !routes.contains route
  | none => true

/-- The request that a query states. -/
def request (query : Query) : Except WindowFault Request :=
  match Span.ofMinutes? query.windowMinutes with
  | some window =>
      .ok { access := query.access, egress := query.egress, start := query.start, window
            admits := avoids query.excludedRoutes, weights := query.weights }
  | none => .error ⟨query.windowMinutes⟩

/-- The standard settings, with what the query says otherwise. -/
def settings (query : Query) : Settings where
  rounds := query.rounds?.getD Settings.standard.rounds
  stepMinutes := query.stepMinutes?.getD Settings.standard.stepMinutes

end Query

end Transit
