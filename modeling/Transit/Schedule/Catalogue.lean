import Transit.Schedule.Timetable

/-!
# Catalogues

A journey search needs little of a timetable: how many trips there are, the trip of
an index, and the boardings at a stop.  A catalogue is these three, so that a search
can also be run on catalogues that no timetable gives.
-/

namespace Transit

/-- Read access to indexed trips. -/
structure Catalogue where
  tripCount : Nat
  trip? : (index : Nat) → Option Trip
  boardings? : Stop → Option Boardings

namespace Catalogue

/-- The call at a position, if the trip exists and makes it. -/
def call? (catalogue : Catalogue) (position : Position) : Option Call :=
  (catalogue.trip? position.trip).bind fun trip => trip.calls[position.call]?

/-- The catalogue in which some trips cannot be found. -/
def without (catalogue : Catalogue) (hidden : List Nat) : Catalogue :=
  { catalogue with
    trip? := fun index => if index ∈ hidden then none else catalogue.trip? index }

end Catalogue

/-- The catalogue a timetable gives. -/
def Timetable.catalogue (timetable : Timetable) : Catalogue where
  tripCount := timetable.trips.length
  trip? index := timetable.trips[index]?
  boardings? := timetable.boardings?

end Transit
