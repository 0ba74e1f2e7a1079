import Transit.Chronology.DateText
import Transit.Json.Fields
import Transit.Schedule.Network

/-!
# Documents about schedules

How service times, calendars, trips, transfers and whole networks are read from JSON
documents.
-/

namespace Transit.Document

open Json

/-- A service time, as a string. -/
def serviceTime : Reader ServiceTime :=
  Reader.ofString fun text => (ServiceTime.parse text).mapError fun fault => some fault.message

/-- A date, as a string. -/
def date : Reader Date :=
  Reader.ofString fun text => (Date.ofText? text).elim (.error none) .ok

/-- A set of dates, as a list in any order. -/
def dateSet : Reader DateSet :=
  return DateSet.ofList (← Reader.list date)

/-- The weekdays on which a trip runs, as seven truth values from Monday on. -/
def weekdays : Reader WeekdayMask := do
  match ← Reader.tuple Reader.truth 7 with
  | [monday, tuesday, wednesday, thursday, friday, saturday, sunday] =>
      return #v[monday, tuesday, wednesday, thursday, friday, saturday, sunday]
  | _ => throw (.unfit none)

/-- A service calendar, of which everything may be left out. -/
def serviceCalendar : Reader ServiceCalendar := do
  let (weekdays, firstDay?, lastDay?, added, removed, ()) ← Fields.record <|
    .withDefault "weekdays" weekdays .never <|
    .optional "start_date" date <|
    .optional "end_date" date <|
    .withDefault "added" dateSet .empty <|
    .withDefault "removed" dateSet .empty .nil
  return { weekdays, firstDay?, lastDay?, added, removed }

/-- A call of a trip. -/
def call : Reader Call := do
  let (stop, arrival, departure, ()) ← Fields.record <|
    .required "stop_id" Reader.string <|
    .required "arrival_time" serviceTime <|
    .required "departure_time" serviceTime .nil
  return { stop, arrival, departure }

/-- A trip before it is indexed. -/
def scheduledTrip : Reader ScheduledTrip := do
  let (feed, name, route?, block?, service, calls, ()) ← Fields.record <|
    .required "feed_id" Reader.string <|
    .required "trip_id" Reader.string <|
    .optional "route_id" Reader.string <|
    .optional "block_id" Reader.string <|
    .required "service" serviceCalendar <|
    .required "stop_times" (Reader.list call) .nil
  return { feed, name, route?, block?, service, calls }

/-- A transfer between trips that are given by name. -/
def namedTransfer : Reader NamedTransfer := do
  let (day, feed, originTrip, originCall, destinationFeed?, destinationTrip, destinationCall, ()) ←
    Fields.record <|
      .required "service_day" date <|
      .required "feed_id" Reader.string <|
      .required "from_trip_id" Reader.string <|
      .required "from_stop_sequence" Reader.natural <|
      .optional "to_feed_id" Reader.string <|
      .required "to_trip_id" Reader.string <|
      .required "to_stop_sequence" Reader.natural .nil
  return { day, feed, originTrip, originCall, destinationFeed?, destinationTrip, destinationCall }

/-- Trips and the transfers between them. -/
def networkPlan : Reader NetworkPlan := do
  let (trips, transfers, ()) ← Fields.record <|
    .required "trips" (Reader.list scheduledTrip) <|
    .withDefault "transfers" (Reader.list namedTransfer) [] .nil
  return { trips, transfers }

end Transit.Document
