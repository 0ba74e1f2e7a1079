import Transit.Journey.Station
import Transit.Journey.Weights
import Transit.Schedule.Trip

/-!
# Requests

A request asks for journeys from any of its access stations to any of its egress
stations, leaving within a window of time, on the trips that it admits.  `Settings`
bound the effort: how often a journey may transfer, and how far apart the departures
lie that are tried within the window.
-/

namespace Transit

/-- What is wrong with a request. -/
inductive RequestFault where
  | noAccess
  | noEgress
  | negativeWindow
  | weights
  | step (minutes : Int)
  | windowEnd
  | departure (stop : Stop)
deriving DecidableEq

/-- The wording of a fault. -/
def RequestFault.message (fault : RequestFault) : String :=
  "invalid routing request: " ++
    match fault with
    | .noAccess => "no access stations"
    | .noEgress => "no egress stations"
    | .negativeWindow => "profile length is negative"
    | .weights => "weights must be finite"
    | .step minutes => s!"profile step of {minutes} minutes is out of range"
    | .windowEnd => s!"profile window ends past {Instant.last.text}"
    | .departure stop => s!"departure from {stop.text} is out of range"

/-- What journeys are asked for. -/
structure Request where
  access : List Station
  egress : List Station
  /-- The earliest departure from the origin. -/
  start : Instant
  /-- How much later the departure may be. -/
  window : Span
  /-- The trips that may be used. -/
  admits : Trip → Bool
  weights : Weights

namespace Request

/-- What keeps a request from being answered, if anything does. -/
def fault? (request : Request) : Option RequestFault :=
  if request.access.isEmpty then some .noAccess
  else if request.egress.isEmpty then some .noEgress
  else if request.window.milliseconds < 0 then some .negativeWindow
  else if !request.weights.areFinite then some .weights
  else none

/-- The request with one access station only. -/
def fromStation (request : Request) (station : Station) : Request :=
  { request with access := [station] }

end Request

/-- Bounds on the effort of a search. -/
structure Settings where
  /-- Rounds of transfers after the first boarding. -/
  rounds : Nat
  /-- Minutes between two departures that are tried. -/
  stepMinutes : Int
deriving DecidableEq

namespace Settings

/-- Three rounds, and a departure every minute. -/
def standard : Settings := ⟨3, 1⟩

/-- The step between two departures; it must be positive. -/
def step (settings : Settings) : Except RequestFault Span :=
  match Span.ofMinutes? settings.stepMinutes with
  | some span =>
      if 0 < span.milliseconds then .ok span else .error (.step settings.stepMinutes)
  | none => .error (.step settings.stepMinutes)

end Settings

end Transit
