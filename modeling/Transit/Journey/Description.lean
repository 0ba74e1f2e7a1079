import Transit.Journey.Request
import Transit.Text.Shortest

/-!
# Requests for inspection

The form in which a request shows everything but the trips it admits.
-/

namespace Transit

/-- Weights show the place of the first digit by the point from ten-thousandths up to
numbers of sixteen digits. -/
def Weights.layout : Text.Layout := ⟨-4, 15⟩

/-- The form of a span for inspection: whole seconds and the nanoseconds after them. -/
def Span.describe (span : Span) : String :=
  let seconds := span.milliseconds / 1000
  let nanoseconds := span.milliseconds % 1000 * 1000000
  "TimeDelta \x7b " ++ s!"secs: {seconds}, nanos: {nanoseconds}" ++ " \x7d"

/-- The form of a request for inspection. -/
def Request.describe (request : Request) : String :=
  let stations (list : List Station) :=
    "[" ++ String.intercalate ", " (list.map Station.describe) ++ "]"
  let weight := Text.shortestText Weights.layout
  let fields := [
    ("access_stations", stations request.access),
    ("egress_stations", stations request.egress),
    ("profile_start_time", request.start.compactText),
    ("profile_length", request.window.describe),
    ("beta_access_time", weight request.weights.access),
    ("beta_egress_time", weight request.weights.egress),
    ("beta_transfers", weight request.weights.change)]
  "Parameters \x7b " ++ String.join (fields.map fun (name, value) => s!"{name}: {value}, ") ++
    ".. \x7d"

end Transit
