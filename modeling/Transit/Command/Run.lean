import Transit.Command.Log
import Transit.Document.Itinerary
import Transit.Document.Query
import Transit.Document.Schedule
import Transit.Journey.Sweep
import Transit.Text.Lines

/-!
# The command

The command reads a network and a query from two files, sweeps the window of the
query, and writes the itineraries found.  Everything it does is a function of its
arguments and of the contents of the files.  If it halts it leaves an exit code of its own;
what the system then says of the halt is no entry of the log.
-/

namespace Transit.Command

/-- Why a file cannot be read, in the words of the system. -/
abbrev Unreadable := String

/-- What keeps the command from writing itineraries. -/
inductive Failure where
  /-- The arguments are not two file names. -/
  | usage
  | unreadable (path : String) (reason : Unreadable)
  | document (refusal : Json.Refusal)
  | network (fault : NetworkFault)
  | query (fault : Query.WindowFault)
  | routing (fault : RoutingFault)
deriving DecidableEq

namespace Failure

/-- Whether the program halts over a failure instead of reporting it. -/
def halts : Failure → Bool
  | routing fault => fault.halts
  | _ => false

/-- The wording of a failure. -/
def message : Failure → String
  | usage => "usage: trip-router <network.json> <query.json>"
  | unreadable path reason => s!"failed to read {path}: {reason}"
  | document _ => "JSON parse error"
  | network fault => fault.message
  | query fault => fault.message
  | routing fault => fault.message

end Failure

/-- What the command leaves behind. -/
structure Outcome where
  exitCode : Nat
  output : String
  log : String
deriving DecidableEq

/-- The lines of the log.  An entry that quotes a name with a line feed in it takes
several. -/
def Outcome.logLines (outcome : Outcome) : List String := Text.lines outcome.log

/-- The contents of a file as a document of a known shape. -/
def load {Value : Type} (read : Json.Reader Value) (path : String)
    (file : Except Unreadable String) : Except Failure Value := do
  let text ← file.mapError (.unreadable path)
  (Json.Reader.document read text).mapError .document

/-- Answer a query; gives the document of itineraries and the log entries before the
end. -/
def answer (network : Network) (query : Query) : Except Failure String × List LogEntry :=
  match query.request with
  | .error fault => (.error (.query fault), [])
  | .ok request =>
      let catalogue := network.timetable.catalogue
      let task := if query.sweepsEach then Task.sweepEach request else Task.sweep request
      let (result, planner) :=
        (Planner.fresh catalogue request query.settings).perform catalogue network.transfers task
      let log := planner.journal.toList.filterMap LogEntry.ofEvent?
      let journeys := do
        result
        planner.ranked.mapM (Itinerary.ofLabel catalogue planner.rides)
      match journeys with
      | .error fault => (.error (.routing fault), log)
      | .ok journeys =>
          (.ok (Document.itineraries journeys ++ "\n"),
            log ++ [.program .info s!"Routing complete results={journeys.length}"])

/-- What a network is made of, for the log. -/
def describe (network : Network) : LogEntry :=
  .program .info <|
    s!"Loaded network trips={network.timetable.trips.length}" ++
      s!" patterns={network.timetable.patterns.length} transfers={network.transfers.size}"

/-- Read a network, then a query, and answer it. -/
def route (networkPath queryPath : String) (file : String → Except Unreadable String) :
    Except Failure String × List LogEntry :=
  let network := do
    let plan ← load Document.networkPlan networkPath (file networkPath)
    plan.build.mapError Failure.network
  match network with
  | .error failure => (.error failure, [])
  | .ok network =>
      match load Document.query queryPath (file queryPath) with
      | .error failure => (.error failure, [describe network])
      | .ok query =>
          let (result, log) := answer network query
          (result, describe network :: log)

/-- Run the command with its arguments, the contents of files and a threshold for its
log. -/
def run (arguments : List String) (file : String → Except Unreadable String)
    (threshold : Threshold) : Outcome :=
  let kept (entries : List LogEntry) :=
    Text.ofLines ((entries.filter fun entry => threshold.keeps entry.level).map LogEntry.text)
  match arguments with
  | [networkPath, queryPath] =>
      match route networkPath queryPath file with
      | (.ok output, log) => { exitCode := 0, output, log := kept log }
      | (.error failure, log) =>
          let last := LogEntry.program .error s!"Routing failed err={failure.message}"
          if failure.halts then { exitCode := 101, output := "", log := kept log }
          else { exitCode := 1, output := "", log := kept (log ++ [last]) }
  | _ => { exitCode := 2, output := "", log := Text.ofLines [Failure.usage.message] }

end Transit.Command
