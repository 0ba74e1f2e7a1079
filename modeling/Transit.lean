import Transit.Journey.Description
import Transit.Main
import Transit.Proofs.Search.Outcome
import Transit.Proofs.Search.Step
import Transit.Proofs.Search.Trace
import Transit.Proofs.Search.Follows
import Transit.Proofs.Search.Boarding
import Transit.Proofs.Search.Rounds
import Transit.Proofs.Frontier.Pareto
import Transit.Proofs.Order.Grouping
import Transit.Proofs.Timetable.Boardings
import Transit.Proofs.Timetable.Checks
import Transit.Proofs.Timetable.Patterns
import Transit.Proofs.Timetable.Build
import Transit.Proofs.Search.FirstBoarding
import Transit.Proofs.Journey.Hop
import Transit.Proofs.Search.Chain
import Transit.Proofs.Journey.Account
import Transit.Proofs.Journey.Answers
import Transit.Proofs.Journey.Sample
import Transit.Proofs.Journey.Dominance
import Transit.Proofs.Journey.Complete
import Transit.Proofs.Search.Settled
import Transit.Proofs.Journey.Attained
import Transit.Proofs.Journey.Window
import Transit.Proofs.Search.Ridden
import Transit.Proofs.Journey.Tally
import Transit.Proofs.Chronology.Forward
import Transit.Proofs.Chronology.Reading
import Transit.Proofs.Search.Completes
import Transit.Proofs.Search.Refusal
import Transit.Proofs.Search.Journal
import Transit.Proofs.Search.Failure
import Transit.Proofs.Journey.Admission
import Transit.Proofs.Journey.Gate
import Transit.Proofs.Journey.Hindrance
import Transit.Proofs.Journey.Stations
import Transit.Proofs.Search.Replay
import Transit.Proofs.Search.Capped
import Transit.Proofs.Search.Budget
import Transit.Proofs.Search.MoreRounds
import Transit.Proofs.Search.Lineage
import Transit.Proofs.Journey.Earlier
import Transit.Proofs.Bounds.Marks
import Transit.Proofs.Frontier.Ranking
import Transit.Proofs.Journey.Continuation
import Transit.Proofs.Search.Grid
import Transit.Proofs.Timetable.Listings
import Transit.Proofs.Timetable.Numbering
import Transit.Proofs.Timetable.Acceptance
import Transit.Proofs.Timetable.Reordering
import Transit.Proofs.Timetable.Transfers
import Transit.Proofs.Search.PlainBoarding
import Transit.Proofs.Journey.Direct
import Transit.Proofs.Journey.Foreign
import Transit.Proofs.Schedule.TimeText
import Transit.Proofs.Search.Moments
import Transit.Proofs.Journey.Lasting
import Transit.Proofs.Journey.Blocks
import Transit.Proofs.Journey.Charges
import Transit.Proofs.Schedule.TimeGrammar
import Transit.Proofs.Schedule.Exceptions
import Transit.Proofs.Search.Roots
