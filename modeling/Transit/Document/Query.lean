import Transit.Chronology.InstantText
import Transit.Json.Fields
import Transit.Journey.Query

/-!
# Documents about queries

How stops, stations and whole queries are read from JSON documents.
-/

namespace Transit.Document

open Json

/-- A stop with its feed, neither of them blank. -/
def stop : Reader Stop := do
  let (feed, name, ()) ← Fields.record <|
    .required "feed_id" Reader.string <|
    .required "stop_id" Reader.string .nil
  match Stop.make feed name with
  | .ok stop => return stop
  | .error fault => throw (.unfit (some fault.message))

/-- A time zone, as a string. -/
def zone : Reader Zone :=
  Reader.ofString fun name => (Zone.named? name).elim (.error none) .ok

/-- An instant, as a string. -/
def instant : Reader Instant :=
  Reader.ofString fun text => (Instant.ofText? text).elim (.error none) .ok

/-- A station. -/
def station : Reader Station := do
  let (stop, zone, walk, ()) ← Fields.record <|
    .required "stop" stop <|
    .required "zone" zone <|
    .required "time_delta_millis" Reader.integer .nil
  return { stop, zone, walk }

/-- A query. -/
def query : Reader Query := do
  let (access, egress, start, windowMinutes, accessWeight, egressWeight, changeWeight,
      excludedRoutes, sweepsEach, rounds?, stepMinutes?, ()) ← Fields.record <|
    .required "access" (Reader.list station) <|
    .required "egress" (Reader.list station) <|
    .required "profile_start" instant <|
    .withDefault "profile_length_mins" Reader.integer 0 <|
    .withDefault "beta_access_time" Reader.real Weights.neutral.access <|
    .withDefault "beta_egress_time" Reader.real Weights.neutral.egress <|
    .withDefault "beta_transfers" Reader.real Weights.neutral.change <|
    .withDefault "excluded_route_ids" (Reader.list Reader.string) [] <|
    .withDefault "naive_betas" Reader.truth false <|
    .optional "max_rounds" Reader.natural <|
    .optional "profile_step_mins" Reader.integer .nil
  return {
    access, egress, start, windowMinutes, excludedRoutes, sweepsEach, rounds?, stepMinutes?
    weights := ⟨accessWeight, egressWeight, changeWeight⟩ }

end Transit.Document
