import Transit.Schedule.Timetable
import Mathlib.Data.List.Basic

/-!
# Checked trips

A trip that passes its check makes two calls or more, at stops that have names, and
never goes back in time.  Each trip is checked on its own, so a list of trips passes
only if all of its trips do.
-/

namespace Transit

/-- What checking makes sure of. -/
structure CallsSound (feed : String) (calls : List Call) : Prop where
  long : 2 ≤ calls.length
  named : ∀ call ∈ calls, ∃ stop, Stop.make feed call.stop = .ok stop
  waits : ∀ call ∈ calls, call.arrival ≤ call.departure
  rides : calls.Pairwise fun earlier later => earlier.departure ≤ later.arrival

namespace ScheduledTrip

theorem named_of_forM
    {feed : String} {calls : List Call}
    (passed : (calls.forM fun call =>
      discard ((Stop.make feed call.stop).mapError NetworkFault.stop)) = .ok ()) :
    ∀ call ∈ calls, ∃ stop, Stop.make feed call.stop = .ok stop := by
  induction calls with
  | nil => simp
  | cons first rest hypothesis =>
      change (discard ((Stop.make feed first.stop).mapError NetworkFault.stop) >>= fun _ =>
        rest.forM fun call =>
          discard ((Stop.make feed call.stop).mapError NetworkFault.stop)) = .ok () at passed
      cases made : Stop.make feed first.stop with
      | error fault =>
          rw [made] at passed
          cases passed
      | ok stop =>
          rw [made] at passed
          intro call member
          rcases List.mem_cons.mp member with rfl | later
          · exact ⟨stop, made⟩
          · exact hypothesis passed call later

/-- Calls that never go back in time arrive in order, and after `earlier`. -/
theorem ordered_of_backInTime?
    {place : Nat} {earlier : Option ServiceTime} {calls : List Call}
    (forward : backInTime? place earlier calls = none) :
    (∀ call ∈ calls, call.arrival ≤ call.departure) ∧
      calls.Pairwise (fun first second => first.departure ≤ second.arrival) ∧
      ∀ time, earlier = some time → ∀ call ∈ calls, time ≤ call.arrival := by
  induction calls generalizing place earlier with
  | nil => simp
  | cons first rest hypothesis =>
      rw [backInTime?] at forward
      split at forward
      case isTrue => cases forward
      case isFalse allowed =>
        rw [not_or] at allowed
        obtain ⟨waits, after⟩ := allowed
        obtain ⟨waitsRest, ordered, later⟩ := hypothesis forward
        have arrives : first.arrival ≤ first.departure := by
          rw [ServiceTime.lt_iff] at waits
          rw [ServiceTime.le_iff]
          omega
        refine ⟨?_, ?_, ?_⟩
        · intro call member
          rcases List.mem_cons.mp member with rfl | member
          · exact arrives
          · exact waitsRest call member
        · exact List.pairwise_cons.mpr ⟨later first.departure rfl, ordered⟩
        · rintro time rfl call member
          have starts : time ≤ first.arrival := by
            rw [ServiceTime.le_iff]
            simpa [ServiceTime.lt_iff] using after
          rcases List.mem_cons.mp member with rfl | member
          · exact starts
          · have reached := later first.departure rfl call member
            rw [ServiceTime.le_iff] at *
            omega

theorem callsSound_of_check
    {trip : ScheduledTrip} (passed : trip.check = .ok ()) :
    CallsSound trip.feed trip.calls := by
  unfold check at passed
  by_cases short : trip.calls.length < 2
  · rw [if_pos short] at passed
    cases passed
  rw [if_neg short] at passed
  cases stops : (trip.calls.forM fun call =>
      discard ((Stop.make trip.feed call.stop).mapError NetworkFault.stop)) with
  | error fault =>
      rw [stops] at passed
      cases passed
  | ok done =>
      rw [stops] at passed
      cases forward : backInTime? 0 none trip.calls with
      | some place =>
          rw [forward] at passed
          cases passed
      | none =>
          obtain ⟨waits, ordered, _⟩ := ordered_of_backInTime? forward
          exact ⟨Nat.le_of_not_lt short, named_of_forM stops, waits, ordered⟩

theorem checkAll_cons_eq_ok
    {seen : List (String × String)} {trip : ScheduledTrip} {rest : List ScheduledTrip} :
    checkAll seen (trip :: rest) = .ok () ↔
      trip.check = .ok () ∧ (trip.feed, trip.name) ∉ seen ∧
        checkAll ((trip.feed, trip.name) :: seen) rest = .ok () := by
  rw [checkAll]
  cases trip.check with
  | error fault => simp [bind, Except.bind]
  | ok done =>
      by_cases known : (trip.feed, trip.name) ∈ seen
      · simp [known, bind, Except.bind, throw, throwThe, MonadExceptOf.throw]
      · simp [known, bind, Except.bind]

/-- Trips that pass together pass one by one. -/
theorem check_of_checkAll
    {seen : List (String × String)} {trips : List ScheduledTrip}
    (passed : checkAll seen trips = .ok ()) :
    ∀ trip ∈ trips, trip.check = .ok () := by
  induction trips generalizing seen with
  | nil => simp
  | cons first rest hypothesis =>
      obtain ⟨checked, _, passed⟩ := checkAll_cons_eq_ok.mp passed
      exact List.forall_mem_cons.mpr ⟨checked, hypothesis passed⟩

/-- Trips that pass together have names of their own, and none that were seen before. -/
theorem nodup_of_checkAll
    {seen : List (String × String)} {trips : List ScheduledTrip}
    (passed : checkAll seen trips = .ok ()) :
    (trips.map fun trip => (trip.feed, trip.name)).Nodup ∧
      ∀ trip ∈ trips, (trip.feed, trip.name) ∉ seen := by
  induction trips generalizing seen with
  | nil => simp
  | cons first rest hypothesis =>
      obtain ⟨_, fresh, passed⟩ := checkAll_cons_eq_ok.mp passed
      obtain ⟨distinct, unseen⟩ := hypothesis passed
      constructor
      · rw [List.map_cons, List.nodup_cons]
        refine ⟨?_, distinct⟩
        intro again
        obtain ⟨trip, member, same⟩ := List.mem_map.mp again
        exact unseen trip member (same ▸ List.mem_cons_self)
      · refine List.forall_mem_cons.mpr ⟨fresh, fun trip member known => ?_⟩
        exact unseen trip member (List.mem_cons_of_mem _ known)

end ScheduledTrip

namespace CallsSound

variable {feed : String} {calls : List Call}

/-- The calls of a trip are made one after the other. -/
theorem departure_le_arrival
    (sound : CallsSound feed calls) {board alight : Nat} {first second : Call}
    (boarded : calls[board]? = some first) (left : calls[alight]? = some second)
    (forward : board < alight) :
    first.departure.seconds.toNat ≤ second.arrival.seconds.toNat := by
  obtain ⟨boardInside, rfl⟩ := List.getElem?_eq_some_iff.mp boarded
  obtain ⟨alightInside, rfl⟩ := List.getElem?_eq_some_iff.mp left
  rw [← ServiceTime.le_iff]
  exact List.pairwise_iff_getElem.mp sound.rides board alight boardInside alightInside forward

theorem arrival_le_departure
    (sound : CallsSound feed calls) {place : Nat} {call : Call}
    (found : calls[place]? = some call) :
    call.arrival.seconds.toNat ≤ call.departure.seconds.toNat := by
  rw [← ServiceTime.le_iff]
  exact sound.waits call (List.mem_of_getElem? found)

/-- Arrivals never fall along a trip. -/
theorem arrival_le_arrival
    (sound : CallsSound feed calls) {place later : Nat} {first second : Call}
    (found : calls[place]? = some first) (reached : calls[later]? = some second)
    (order : place ≤ later) :
    first.arrival.seconds.toNat ≤ second.arrival.seconds.toNat := by
  rcases Nat.lt_or_eq_of_le order with before | rfl
  · have waits := sound.arrival_le_departure found
    have rides := sound.departure_le_arrival found reached before
    exact Nat.le_trans waits rides
  · rw [found] at reached
    cases reached
    exact Nat.le_refl _

end CallsSound

end Transit
