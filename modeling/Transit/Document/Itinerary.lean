import Transit.Chronology.DateText
import Transit.Journey.Itinerary
import Transit.Json.Value

/-!
# Documents about itineraries

How itineraries are written as JSON documents.
-/

namespace Transit.Document

open Json

/-- A stop with its feed. -/
def stopValue (stop : Stop) : Value :=
  .object [("feed_id", .string stop.feed), ("stop_id", .string stop.name)]

/-- A station. -/
def stationValue (station : Station) : Value :=
  .object [
    ("stop", stopValue station.stop),
    ("zone", .string station.zone.name),
    ("time_delta_millis", .whole station.walk)]

/-- One leg of a journey. -/
def legValue (leg : Leg) : Value :=
  .object [
    ("trip_id", .string leg.trip),
    ("route_id", .ofOption leg.route?),
    ("block_id", .ofOption leg.block?),
    ("board_position", .whole leg.boardCall),
    ("board_stop", stopValue leg.boardStop),
    ("departure_time", .string leg.departure.text),
    ("alight_position", .whole leg.alightCall),
    ("alight_stop", stopValue leg.alightStop),
    ("arrival_time", .string leg.arrival.text),
    ("stays_on_vehicle", .truth leg.staysOnVehicle)]

/-- A journey. -/
def itineraryValue (itinerary : Itinerary) : Value :=
  .object [
    ("access", stationValue itinerary.access),
    ("egress", stationValue itinerary.egress),
    ("service_day", .string itinerary.serviceDay.text),
    ("legs", .list (itinerary.legs.map legValue)),
    ("departure_time", .string itinerary.departure.text),
    ("arrival_time", .string itinerary.arrival.text),
    ("weighted_arrival_time", .whole itinerary.weightedArrival),
    ("real_transfers", .whole itinerary.changes),
    ("round", .whole itinerary.round)]

/-- Journeys, in order. -/
def itineraries (journeys : List Itinerary) : String :=
  Value.lines 0 (.list (journeys.map itineraryValue))

end Transit.Document
