import Transit.Journey.Station
import Transit.Schedule.Trip

/-!
# Rides

A ride is a trip boarded at one of its calls and ridden until the trip is covered.
It was reached from an access station or by a transfer from an earlier ride, its
parent, so that every ride is the tip of a chain of rides that leads back to an
access station.

Rides are stored in the order in which they were found and are known by their place
in that order, their handle.  A store can hold a ride whose parent it never issued;
the chain of such a ride is not there.
-/

namespace Transit

/-- A trip boarded at `board` and ridden until the call before `limit`. -/
structure Ride where
  board : Position
  /-- The calls from here on were covered when the ride was found. -/
  limit : Nat
  serviceDay : Date
  /-- Where the trip before was left, unless the ride begins at an access station. -/
  origin? : Option Position
  /-- The handle of the ride before. -/
  parent? : Option Nat
  /-- The access station at which the chain begins. -/
  access : Station
  /-- Changes of vehicle along the chain. -/
  changes : Nat
deriving DecidableEq

namespace Ride

/-- The calls of a trip at which a ride can be left, with their places: those after
the boarding and before the limit. -/
def alightings (ride : Ride) (trip : Trip) : List (Call × Nat) :=
  (trip.calls.zipIdx.take ride.limit).drop (ride.board.call + 1)

/-- A ride can be left at a call of its trip after the boarding and before the limit. -/
theorem mem_alightings (ride : Ride) (trip : Trip) (call : Call) (place : Nat) :
    (call, place) ∈ ride.alightings trip ↔
      trip.calls[place]? = some call ∧ ride.board.call < place ∧ place < ride.limit := by
  simp only [alightings, List.mem_iff_getElem?, List.getElem?_drop, List.getElem?_take,
    List.getElem?_zipIdx]
  constructor
  · rintro ⟨step, found⟩
    split at found
    case isTrue before =>
      obtain ⟨known, lookup, same⟩ := Option.map_eq_some_iff.mp found
      obtain ⟨rfl, rfl⟩ := Prod.mk.inj same
      rw [Nat.zero_add]
      exact ⟨lookup, by omega, before⟩
    case isFalse => cases found
  · rintro ⟨known, after, before⟩
    refine ⟨place - (ride.board.call + 1), ?_⟩
    have shifted : ride.board.call + 1 + (place - (ride.board.call + 1)) = place := by omega
    simp [shifted, before, known]

end Ride

/-- Rides in the order in which they were found. -/
structure RideStore where
  rides : Array Ride
deriving DecidableEq

namespace RideStore

/-- The store without rides. -/
def empty : RideStore := ⟨#[]⟩

/-- Number of rides. -/
def size (store : RideStore) : Nat := store.rides.size

/-- The store with one more ride, whose handle is the size before. -/
def push (store : RideStore) (ride : Ride) : RideStore := ⟨store.rides.push ride⟩

/-- The ride of a handle, if the store has issued it. -/
def ride? (store : RideStore) (handle : Nat) : Option Ride := store.rides[handle]?

/-- At most `steps` rides from a ride back to an access station.  A handle that was
never issued on the way, or a way that is longer, gives nothing. -/
def walk? (store : RideStore) : (steps handle : Nat) → Option (List Ride)
  | 0, _ => none
  | steps + 1, handle => do
      let ride ← store.ride? handle
      match ride.parent? with
      | none => return [ride]
      | some parent => return ride :: (← store.walk? steps parent)

/-- The rides from a ride back to an access station, the ride itself first.  A chain
that ends has no ride twice, so it has at most as many rides as the store. -/
def chain? (store : RideStore) (handle : Nat) : Option (List Ride) :=
  store.walk? store.size handle

/-- The ride at an access station that a ride goes back to. -/
def root? (store : RideStore) (handle : Nat) : Option Ride :=
  (store.chain? handle).bind List.getLast?

@[simp]
theorem size_empty : empty.size = 0 := rfl

@[simp]
theorem size_push (store : RideStore) (ride : Ride) :
    (store.push ride).size = store.size + 1 := by
  simp [push, size]

/-- A new ride takes the next handle and leaves the others alone. -/
theorem ride?_push (store : RideStore) (ride : Ride) (handle : Nat) :
    (store.push ride).ride? handle =
      if handle = store.size then some ride else store.ride? handle :=
  Array.getElem?_push

/-- The rides of a store have the handles below its size. -/
theorem lt_size_of_ride? {store : RideStore} {handle : Nat} {ride : Ride}
    (known : store.ride? handle = some ride) : handle < store.size :=
  (Array.getElem?_eq_some_iff.mp known).1

/-- A ride that was stored stays under its handle. -/
theorem ride?_push_of_eq_some {store : RideStore} {handle : Nat} {known : Ride}
    (found : store.ride? handle = some known) (ride : Ride) :
    (store.push ride).ride? handle = some known := by
  have earlier := lt_size_of_ride? found
  rw [ride?_push, if_neg (Nat.ne_of_lt earlier)]
  exact found

/-- A way that was there stays the same when the store grows. -/
theorem walk?_push_of_eq_some {store : RideStore} (ride : Ride) {steps handle : Nat}
    {way : List Ride} (found : store.walk? steps handle = some way) :
    (store.push ride).walk? steps handle = some way := by
  induction steps generalizing handle way with
  | zero => cases found
  | succ steps hypothesis =>
      simp only [walk?, bind, Option.bind_eq_some_iff] at found
      obtain ⟨tip, known, rest⟩ := found
      simp only [walk?, ride?_push_of_eq_some known ride, bind, Option.bind_some]
      cases step : tip.parent? with
      | none =>
          rw [step] at rest
          exact rest
      | some parent =>
          rw [step] at rest
          simp only [Option.bind_eq_some_iff] at rest
          obtain ⟨before, walked, same⟩ := rest
          simp only [hypothesis walked, Option.bind_some]
          exact same

/-- More steps than a way needs change nothing. -/
theorem walk?_succ_of_eq_some {store : RideStore} {steps handle : Nat} {way : List Ride}
    (found : store.walk? steps handle = some way) :
    store.walk? (steps + 1) handle = some way := by
  induction steps generalizing handle way with
  | zero => cases found
  | succ steps hypothesis =>
      rw [walk?] at found ⊢
      simp only [bind, Option.bind_eq_some_iff] at found ⊢
      obtain ⟨tip, known, rest⟩ := found
      refine ⟨tip, known, ?_⟩
      cases step : tip.parent? with
      | none =>
          rw [step] at rest
          exact rest
      | some parent =>
          rw [step] at rest
          simp only [Option.bind_eq_some_iff] at rest ⊢
          obtain ⟨before, walked, same⟩ := rest
          exact ⟨before, hypothesis walked, same⟩

/-- A chain stays the same when the store grows. -/
theorem chain?_push_of_eq_some {store : RideStore} {handle : Nat} {chain : List Ride}
    (found : store.chain? handle = some chain) (ride : Ride) :
    (store.push ride).chain? handle = some chain := by
  rw [chain?, size_push]
  exact walk?_succ_of_eq_some (walk?_push_of_eq_some ride found)

end RideStore

end Transit
