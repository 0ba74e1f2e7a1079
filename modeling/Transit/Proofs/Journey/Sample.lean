import Transit.Journey.Sweep
import Transit.Schedule.Network
import Transit.Proofs.Journey.Hop

/-!
# Small networks

Building blocks for networks of a few trips on one day, and the networks by which the
results about journeys, departures and sweeps are tried.
-/

namespace Transit.Sample

/-- The day on which all trips run. -/
def day : Date := ⟨Date.dayNumberOf 2024 3 15⟩

/-- A time of the day by the clock. -/
def clock (hours minutes : Nat) : ServiceTime := ⟨UInt32.ofNat (hours * 3600 + minutes * 60)⟩

/-- A call that leaves as it arrives. -/
def call (stop : String) (time : ServiceTime) : Call := ⟨stop, time, time⟩

/-- A trip of the one feed there is. -/
def trip (name : String) (calls : List Call) : ScheduledTrip :=
  { feed := "f", name, route? := none, block? := none, service := .onDates [day], calls }

/-- A transfer between two calls of named trips. -/
def transfer (origin : String) (left : Nat) (destination : String) (boarded : Nat) :
    NamedTransfer :=
  { day, feed := "f", originTrip := origin, originCall := left, destinationFeed? := none
    destinationTrip := destination, destinationCall := boarded }

/-- The instant of a time of the day by universal time. -/
def instant (hours minutes : Nat) : Instant :=
  ⟨day.dayNumber * 86400 + hours * 3600 + minutes * 60, 0⟩

/-- The network a plan makes, or none. -/
def networkOf (plan : NetworkPlan) : Network :=
  match plan.build with
  | .ok network => network
  | .error _ => ⟨.empty, .empty⟩

def origin : Station := ⟨⟨"f", "A", by decide, by decide⟩, .universal, 0⟩

def target : Station := ⟨⟨"f", "D", by decide, by decide⟩, .universal, 0⟩

/-- A request for one window that begins at eight, on all trips. -/
def request (minutes : Int) : Request :=
  { access := [origin], egress := [target], start := instant 8 0
    window := ⟨minutes * 60000⟩, admits := fun _ => true, weights := .neutral }

/-- The same stop, five minutes from the origin. -/
def walkAway : Station := { origin with walk := 300000 }

/-- A station that takes so long to reach that no clock shows the arrival there. -/
def far : Station := { origin with walk := 9223372036854775807 }

/-- One trip from the origin to the target, with a call on the way. -/
def linePlan : NetworkPlan where
  trips := [trip "line" [call "A" (clock 8 0), call "B" (clock 8 10), call "D" (clock 8 20)]]
  transfers := []

def line : Network := networkOf linePlan

/-- An express leaves after a line and meets it on its way; the last trip leaves from
where the line ends. -/
def expressPlan : NetworkPlan where
  trips :=
    [ trip "express" [call "A" (clock 8 5), call "B" (clock 8 10)],
      trip "line" [call "A" (clock 8 0), call "B" (clock 8 15), call "C" (clock 8 30)],
      trip "last" [call "C" (clock 8 35), call "D" (clock 8 50)] ]
  transfers := [transfer "express" 1 "line" 1, transfer "line" 2 "last" 0]

def express : Network := networkOf expressPlan

/-- A line that can be boarded at its first call from a quick trip, and at its second
call from a slow one.  The last trip leaves from where the slow trip meets the line, and
before the slow trip is there. -/
def crossingPlan : NetworkPlan where
  trips :=
    [ trip "slow" [call "A" (clock 8 0), call "E" (clock 8 10)],
      trip "quick" [call "A" (clock 8 0), call "R" (clock 8 2)],
      trip "line" [call "R" (clock 8 3), ⟨"E", clock 8 5, clock 8 15⟩, call "F" (clock 8 30)],
      trip "last" [call "E" (clock 8 6), call "D" (clock 8 20)] ]
  transfers :=
    [transfer "slow" 1 "line" 1, transfer "quick" 1 "line" 0, transfer "line" 1 "last" 0]

def crossing : Network := networkOf crossingPlan

/-- Two trips lead to one line: a slow one to its third call, and then a quick one to its
first. -/
def relayPlan : NetworkPlan where
  trips :=
    [ trip "slow" [call "A" (clock 8 0), call "C" (clock 8 20)],
      trip "quick" [call "A" (clock 8 0), call "R" (clock 8 2)],
      trip "line"
        [call "R" (clock 8 3), call "E" (clock 8 10), call "C" (clock 8 25),
          call "F" (clock 8 40)] ]
  transfers := [transfer "slow" 1 "line" 2, transfer "quick" 1 "line" 0]

def relay : Network := networkOf relayPlan

/-- Two trips of one vehicle, and a third that leaves from where they end. -/
def throughPlan : NetworkPlan where
  trips :=
    [ { trip "front" [call "A" (clock 8 0), call "B" (clock 8 10)] with block? := some "b" },
      { trip "rear" [call "B" (clock 8 12), call "C" (clock 8 20)] with block? := some "b" },
      trip "last" [call "C" (clock 8 25), call "D" (clock 8 40)] ]
  transfers := [transfer "front" 1 "rear" 0, transfer "rear" 1 "last" 0]

def through : Network := networkOf throughPlan

/-- Two trips that both carry the empty name as their block. -/
def unnamedPlan : NetworkPlan where
  trips :=
    [ { trip "front" [call "A" (clock 8 0), call "B" (clock 8 10)] with block? := some "" },
      { trip "rear" [call "B" (clock 8 12), call "D" (clock 8 20)] with block? := some "" } ]
  transfers := [transfer "front" 1 "rear" 0]

def unnamed : Network := networkOf unnamedPlan

/-- The last trip leaves from where an express meets a line. -/
def meetingPlan : NetworkPlan where
  trips :=
    [ trip "express" [call "A" (clock 8 5), call "B" (clock 8 10)],
      trip "line" [call "A" (clock 8 0), call "B" (clock 8 15), call "C" (clock 8 30)],
      trip "last" [call "B" (clock 8 20), call "D" (clock 8 50)] ]
  transfers := [transfer "express" 1 "line" 1, transfer "line" 1 "last" 0]

/-- An express meets the first trip of a line, which the second overtakes. -/
def overtakingPlan : NetworkPlan where
  trips :=
    [ trip "express" [call "A" (clock 8 5), call "B" (clock 8 10)],
      trip "slow" [call "A" (clock 7 59), call "B" (clock 8 20), call "D" (clock 10 0)],
      trip "fast" [call "A" (clock 8 2), call "B" (clock 8 15), call "D" (clock 9 0)] ]
  transfers := [transfer "express" 1 "slow" 1]

/-- An express meets the first trip of a line, but only the second meets the last trip. -/
def partingPlan : NetworkPlan where
  trips :=
    [ trip "express" [call "A" (clock 8 5), call "B" (clock 8 10)],
      trip "first" [call "A" (clock 7 59), call "B" (clock 8 20), call "C" (clock 8 30)],
      trip "second" [call "A" (clock 8 2), call "B" (clock 8 25), call "C" (clock 8 35)],
      trip "last" [call "C" (clock 8 40), call "D" (clock 8 50)] ]
  transfers := [transfer "express" 1 "first" 1, transfer "second" 2 "last" 0]

/-- The day before, and a station where it is not over yet. -/
def eve : Date := ⟨day.dayNumber - 1⟩

def west : Station :=
  ⟨⟨"f", "W", by decide, by decide⟩, .fixed "Pacific/Pago_Pago" (-39600), 0⟩

/-- An express of the day before meets a line, and only on the day itself the line meets
the last trip. -/
def eveningPlan : NetworkPlan where
  trips :=
    [ { trip "express" [call "W" (clock 21 5), call "B" (clock 21 10)] with
          service := .onDates [eve] },
      { trip "line" [call "A" (clock 8 0), call "B" (clock 21 15), call "C" (clock 21 30)] with
          service := .onDates [eve, day] },
      trip "last" [call "C" (clock 21 35), call "D" (clock 21 50)] ]
  transfers :=
    [{ transfer "express" 1 "line" 1 with day := eve }, transfer "line" 2 "last" 0]

/-- A trip late in the evening of the day before, and one soon after midnight. -/
def midnightPlan : NetworkPlan where
  trips :=
    [ { trip "evening" [call "A" (clock 23 50), call "C" (clock 23 52), call "D" (clock 23 55)]
          with service := .onDates [eve] },
      trip "morning" [call "A" (clock 0 5), call "D" (clock 0 10)] ]
  transfers := []

def midnight : Network := networkOf midnightPlan

/-- A trip that ends 1023 seconds after midnight. -/
def nightPlan : NetworkPlan where
  trips := [trip "night" [call "A" (clock 0 5), call "D" ⟨1023⟩]]
  transfers := []

def night : Network := networkOf nightPlan

/-- Another station of the day itself. -/
def aside : Station := ⟨⟨"f", "W", by decide, by decide⟩, .universal, 0⟩

/-- A slow trip from one station, and a line from another that meets the last trip. -/
def detourPlan : NetworkPlan where
  trips :=
    [ trip "slow" [call "W" (clock 8 5), call "D" (clock 9 0)],
      trip "line" [call "A" (clock 8 0), call "B" (clock 8 15)],
      trip "last" [call "B" (clock 8 20), call "D" (clock 8 50)] ]
  transfers := [transfer "line" 1 "last" 0]

def detour : Network := networkOf detourPlan

/-- A slow trip with a call on the way, and a quick one that leaves later and has none. -/
def outpacedPlan : NetworkPlan where
  trips :=
    [ trip "slow" [call "A" (clock 8 0), call "B" (clock 8 20), call "D" (clock 9 0)],
      trip "quick" [call "A" (clock 8 5), call "D" (clock 8 20)] ]
  transfers := []

def outpaced : Network := networkOf outpacedPlan

/-- The second trip of a line overtakes the first after the origin. -/
def fasterPlan : NetworkPlan where
  trips :=
    [ trip "first" [call "A" (clock 8 0), call "D" (clock 9 0)],
      trip "second" [call "A" (clock 8 5), call "D" (clock 8 20)] ]
  transfers := []

/-- The second trip of a line leaves the origin while the first waits there. -/
def waitingPlan : NetworkPlan where
  trips :=
    [ trip "first"
        [call "X" (clock 7 0), ⟨"A", clock 7 50, clock 8 10⟩, call "D" (clock 8 50)],
      trip "second"
        [call "X" (clock 7 5), ⟨"A", clock 7 55, clock 8 2⟩, call "D" (clock 9 0)] ]
  transfers := []

/-- A line that comes back to the origin before it ends. -/
def returningPlan : NetworkPlan where
  trips :=
    [ trip "first"
        [call "A" (clock 7 0), call "D" (clock 7 30), call "A" (clock 8 0),
          call "E" (clock 8 30)],
      trip "second"
        [call "A" (clock 8 5), call "D" (clock 8 20), call "A" (clock 9 5),
          call "E" (clock 9 30)] ]
  transfers := []

/-- A line that comes back to the origin before it goes on to the target. -/
def loopPlan : NetworkPlan where
  trips :=
    [ trip "first"
        [call "A" (clock 8 0), call "B" (clock 8 10), call "A" (clock 8 20),
          call "D" (clock 8 30)],
      trip "second"
        [call "A" (clock 8 5), call "B" (clock 8 15), call "A" (clock 8 25),
          call "D" (clock 8 35)] ]
  transfers := []

/-- Two trips around a ring, the later one given first, and a trip that leaves the ring when
the earlier one does. -/
def ringPlan : NetworkPlan where
  trips :=
    [ trip "late" [call "A" (clock 8 5), call "B" (clock 8 10), call "A" (clock 8 15)],
      trip "early" [call "A" (clock 8 0), call "B" (clock 8 5), call "A" (clock 8 10)],
      trip "out" [call "A" (clock 8 0), call "C" (clock 8 20)] ]
  transfers := []

def ring : Network := networkOf ringPlan

/-- Only the second trip of a line meets the last trip. -/
def meetingSecondPlan : NetworkPlan where
  trips :=
    [ trip "first" [call "A" (clock 8 0), call "C" (clock 8 30)],
      trip "second" [call "A" (clock 8 5), call "C" (clock 8 35)],
      trip "last" [call "C" (clock 8 40), call "D" (clock 8 50)] ]
  transfers := [transfer "second" 1 "last" 0]

/-- As on the crossing network, but the slow trip leaves five minutes before the quick
one. -/
def slowFirstPlan : NetworkPlan where
  trips :=
    [ trip "slow" [call "A" (clock 8 0), call "E" (clock 8 10)],
      trip "quick" [call "A" (clock 8 5), call "R" (clock 8 6)],
      trip "line" [call "R" (clock 8 7), ⟨"E", clock 8 8, clock 8 15⟩, call "F" (clock 8 30)],
      trip "last" [call "E" (clock 8 9), call "D" (clock 8 20)] ]
  transfers :=
    [transfer "slow" 1 "line" 1, transfer "quick" 1 "line" 0, transfer "line" 1 "last" 0]

/-- The day on which European clocks are put back, and a station that follows them. -/
def longDay : Date := ⟨Date.dayNumberOf 2024 10 27⟩

def berlin : Station := { origin with zone := .european "Europe/Berlin" 3600 }

/-- A trip that leaves at a quarter past two on that day. -/
def longDayPlan : NetworkPlan where
  trips :=
    [ { trip "night" [call "A" (clock 2 15), call "D" (clock 2 30)] with
          service := .onDates [longDay] } ]
  transfers := []

/-- A plan, and how it is searched for five minutes from eight on. -/
structure Trial where
  plan : NetworkPlan
  access : List Station
  rounds : Nat

namespace Trial

def network (trial : Trial) : Network := networkOf trial.plan

def request (trial : Trial) : Request := { Sample.request 5 with access := trial.access }

def settings (trial : Trial) : Settings := ⟨trial.rounds, 5⟩

/-- What a fresh planner makes of a task. -/
def perform (trial : Trial) (task : Task) : Except RoutingFault Unit × Planner :=
  (Planner.fresh trial.network.timetable.catalogue trial.request trial.settings).perform
    trial.network.timetable.catalogue trial.network.transfers task

/-- The sweep. -/
def swept (trial : Trial) : Except RoutingFault Unit × Planner :=
  trial.perform (.sweep trial.request)

/-- The departure at eight alone. -/
def alone (trial : Trial) : Except RoutingFault Unit × Planner :=
  trial.perform (.depart trial.request.access (instant 8 0) trial.request.admits)

/-- A single departure from one station. -/
def leaving (trial : Trial) (station : Station) (departure : Instant) :
    Except RoutingFault Unit × Planner :=
  trial.perform (.depart [station] departure trial.request.admits)

end Trial

/-- The hops between calls of indexed trips of a network. -/
def hopsOf (network : Network) (places : List (Nat × Nat × Nat)) : List Hop :=
  places.filterMap fun (index, board, alight) =>
    (network.timetable.catalogue.trip? index).map fun trip => ⟨trip, board, alight⟩

end Transit.Sample
