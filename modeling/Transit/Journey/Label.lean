import Transit.Journey.Station
import Transit.Order.Arrange
import Transit.Schedule.Trip

/-!
# Labels

A label records one way of reaching an egress station.  Labels are compared by three
criteria: the weighted arrival, the changes of vehicle and the departure, of which
the last is the better the later it is.  A label covers another when it is at least
as good by all three.

A frontier keeps the labels that no later one covered, in the order in which they
were found.
-/

namespace Transit

/-- What labels are compared by. -/
structure Criteria where
  /-- Weighted arrival at the destination, in seconds of the service day. -/
  arrival : Int
  /-- Changes of vehicle. -/
  changes : Nat
  /-- Departure from the access stop, in seconds of the service day. -/
  departure : Nat
deriving DecidableEq

namespace Criteria

/-- At least as good by every criterion. -/
def Covers (first second : Criteria) : Prop :=
  first.arrival ≤ second.arrival ∧ first.changes ≤ second.changes ∧
    second.departure ≤ first.departure

instance (first second : Criteria) : Decidable (first.Covers second) :=
  inferInstanceAs (Decidable (_ ∧ _ ∧ _))

/-- Order of presentation: earlier arrivals first, then fewer changes, then later
departures. -/
def mayPrecede (first second : Criteria) : Bool :=
  first.arrival < second.arrival ||
    (first.arrival == second.arrival &&
      (first.changes < second.changes ||
        (first.changes == second.changes && second.departure ≤ first.departure)))

theorem Covers.refl (criteria : Criteria) : criteria.Covers criteria :=
  ⟨Int.le_refl _, Nat.le_refl _, Nat.le_refl _⟩

theorem Covers.trans {first second third : Criteria}
    (left : first.Covers second) (right : second.Covers third) : first.Covers third :=
  ⟨Int.le_trans left.1 right.1, Nat.le_trans left.2.1 right.2.1,
    Nat.le_trans right.2.2 left.2.2⟩

end Criteria

/-- One way of reaching an egress station. -/
structure Label where
  /-- The round it was found in: the number of transfers. -/
  round : Nat
  egress : Station
  /-- Where the last trip is left. -/
  alight : Position
  /-- The arrival there by the timetable. -/
  scheduled : ServiceTime
  /-- The handle of the last ride. -/
  ride : Nat
  criteria : Criteria
deriving DecidableEq

namespace Label

/-- The scheduled arrival with the number of midnights passed, and the egress stop. -/
def text (label : Label) : String :=
  s!"{ServiceTime.clockText label.scheduled.secondOfDay}+{label.scheduled.days} {label.egress.stop.name}"

/-- The labels in the order of presentation. -/
def ranked (labels : List Label) : List Label :=
  Order.arrange (fun first second => first.criteria.mayPrecede second.criteria) labels

end Label

/-- Labels in the order in which they were found. -/
structure Frontier where
  labels : List Label
deriving DecidableEq

namespace Frontier

/-- The frontier without labels. -/
def empty : Frontier := ⟨[]⟩

/-- Add a label and drop those it covers. -/
def insert (frontier : Frontier) (label : Label) : Frontier :=
  ⟨frontier.labels.filter (fun known => ¬ label.criteria.Covers known.criteria) ++ [label]⟩

/-- Number of labels. -/
def size (frontier : Frontier) : Nat := frontier.labels.length

/-- What is kept besides the new label is what it does not cover. -/
theorem mem_insert (frontier : Frontier) (label known : Label) :
    known ∈ (frontier.insert label).labels ↔
      (known ∈ frontier.labels ∧ ¬ label.criteria.Covers known.criteria) ∨ known = label := by
  simp [insert]

end Frontier

end Transit
