import Transit.Chronology.InstantText
import Transit.Journey.Search

/-!
# The log

What the program reports about its work: each entry has a level, the name of the part
that reports, and a text.  A threshold keeps the entries from a level on.
-/

namespace Transit.Command

/-- How important an entry is, the most important first. -/
inductive Level where
  | error
  | warning
  | info
  | debug
  | trace
deriving DecidableEq

namespace Level

/-- The name in an entry. -/
def name : Level → String
  | error => "ERROR"
  | warning => "WARN"
  | info => "INFO"
  | debug => "DEBUG"
  | trace => "TRACE"

/-- Levels from the most to the least important. -/
def rank : Level → Nat
  | error => 0
  | warning => 1
  | info => 2
  | debug => 3
  | trace => 4

end Level

/-- The least important level that is kept; nothing is kept without one. -/
structure Threshold where
  level? : Option Level
deriving DecidableEq

namespace Threshold

/-- Entries from `info` on are kept unless something else is asked for. -/
def standard : Threshold := ⟨some .info⟩

/-- The threshold of a name. -/
def named? : String → Option Threshold
  | "off" => some ⟨none⟩
  | "error" => some ⟨some .error⟩
  | "warn" => some ⟨some .warning⟩
  | "info" => some ⟨some .info⟩
  | "debug" => some ⟨some .debug⟩
  | "trace" => some ⟨some .trace⟩
  | _ => none

/-- Whether entries of a level are kept. -/
def keeps (threshold : Threshold) (level : Level) : Bool :=
  threshold.level?.any fun least => level.rank ≤ least.rank

end Threshold

/-- One entry of the log.  It takes one line unless it quotes a name with a line feed. -/
structure LogEntry where
  level : Level
  target : String
  message : String
deriving DecidableEq

namespace LogEntry

/-- Level, target and message. -/
def text (entry : LogEntry) : String :=
  s!"{entry.level.name} {entry.target}: {entry.message}"

/-- An entry about the program as a whole. -/
def program (level : Level) (message : String) : LogEntry := ⟨level, "trip_router", message⟩

/-- An entry about a search. -/
def search (level : Level) (message : String) : LogEntry :=
  ⟨level, "trip_router::router::search", message⟩

/-- The entry that reports an event of a search.  Boardings and arrivals that come too
late are not reported. -/
def ofEvent? : Event → Option LogEntry
  | .departing departure stations =>
      some (search .debug s!"Routing departure={departure.text} access_stations={stations}")
  | .round number rides =>
      some (search .debug s!"Round round={number} queue={rides}")
  | .riding pattern trip board limit =>
      some (search .trace s!"Queued segment pattern={pattern} trip={trip} from={board} to={limit}")
  | .transferring origin destination =>
      some (search .trace s!"Transfer from={origin.text} to={destination.text}")
  | .boarding _ | .passing .. => none
  | .arriving label =>
      some (search .trace
        (s!"New result round={label.round} arrival_time={label.criteria.arrival}" ++
          s!" real_transfers={label.criteria.changes} departure_time={label.criteria.departure}"))
  | .swept departures labels rides =>
      some (search .debug
        s!"Profile sweep complete iterations={departures} results={labels} segments={rides}")

end LogEntry

end Transit.Command
