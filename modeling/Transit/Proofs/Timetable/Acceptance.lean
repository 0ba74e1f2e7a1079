import Transit.Proofs.Timetable.Build

/-!
# Which trips make a timetable

Trips make a timetable if each of them is sound and no two of one feed have one name.
Otherwise the first trip in the way is refused, for the first of its faults: it makes too few
calls, a name is blank, it goes back in time, or its name was given before.  A trip is checked
from call to call, which is enough for any two of its calls; and trips that pass their checks
can always be indexed.
-/

namespace Transit

namespace ScheduledTrip

/-- At a place a trip goes back in time: it leaves before it arrives there, or arrives before it
left an earlier stop. -/
def TurnsBack (trip : ScheduledTrip) (place : Nat) : Prop :=
  ∃ call ∈ trip.calls[place]?, call.departure < call.arrival ∨
    ∃ before < place, ∃ earlier ∈ trip.calls[before]?, call.arrival < earlier.departure

/-- What a trip needs to stand in a timetable. -/
structure IsSound (trip : ScheduledTrip) : Prop where
  long : 2 ≤ trip.calls.length
  feed_named : ¬ Text.IsBlankText trip.feed
  stops_named : ∀ call ∈ trip.calls, ¬ Text.IsBlankText call.stop
  /-- Any two calls follow each other in time. -/
  forward : ∀ (first second : Nat) (earlier later : Call), first < second →
    trip.calls[first]? = some earlier → trip.calls[second]? = some later →
      earlier.arrival ≤ earlier.departure ∧ earlier.departure ≤ later.arrival ∧
        later.arrival ≤ later.departure

/-- What is wrong with a trip on its own: of several faults the first. -/
inductive IsFaulty (trip : ScheduledTrip) : NetworkFault → Prop
  | short : trip.calls.length < 2 → IsFaulty trip (.tooFewCalls trip.name)
  | feedBlank : 2 ≤ trip.calls.length → Text.IsBlankText trip.feed →
      IsFaulty trip (.stop .feed)
  | stopBlank {call} : 2 ≤ trip.calls.length → ¬ Text.IsBlankText trip.feed →
      call ∈ trip.calls → Text.IsBlankText call.stop → IsFaulty trip (.stop .stop)
  | turnsBack {place} : 2 ≤ trip.calls.length → ¬ Text.IsBlankText trip.feed →
      (∀ call ∈ trip.calls, ¬ Text.IsBlankText call.stop) →
      trip.TurnsBack place → (∀ before < place, ¬ trip.TurnsBack before) →
      IsFaulty trip (.backInTime trip.name place)

/-- Why a trip cannot stand after others. -/
inductive IsRefused (earlier : List ScheduledTrip) (trip : ScheduledTrip) : NetworkFault → Prop
  | faulty {fault} : trip.IsFaulty fault → IsRefused earlier trip fault
  | repeated {other} : trip.IsSound → other ∈ earlier → other.feed = trip.feed →
      other.name = trip.name → IsRefused earlier trip (.duplicateTrip trip.feed trip.name)

/-- Trips that make a timetable: they are sound, and no two of one feed have one name. -/
structure FitTogether (trips : List ScheduledTrip) : Prop where
  sound : ∀ trip ∈ trips, trip.IsSound
  distinct : (trips.map fun trip => (trip.feed, trip.name)).Nodup

section Calls

variable {earlier : Option ServiceTime} {first : Call} {calls rest : List Call} {place : Nat}

/-- At a place calls go back in time, where `earlier` is a departure before the first of
them. -/
def TurnBackAfter (earlier : Option ServiceTime) (calls : List Call) (place : Nat) : Prop :=
  ∃ call ∈ calls[place]?, call.departure < call.arrival ∨ (∃ time ∈ earlier, call.arrival < time) ∨
    ∃ before < place, ∃ other ∈ calls[before]?, call.arrival < other.departure

theorem turnsBack_iff (trip : ScheduledTrip) (place : Nat) :
    trip.TurnsBack place ↔ TurnBackAfter none trip.calls place := by
  simp [TurnsBack, TurnBackAfter]

theorem turnBackAfter_zero :
    TurnBackAfter earlier (first :: rest) 0 ↔
      first.departure < first.arrival ∨ earlier.any (first.arrival < ·) = true := by
  simp [TurnBackAfter, Option.any_eq_true]

/-- Where the first call is in order, the departure from it stands for every time before. -/
theorem turnBackAfter_succ (forward : ¬ TurnBackAfter earlier (first :: rest) 0) :
    TurnBackAfter earlier (first :: rest) (place + 1) ↔
      TurnBackAfter (some first.departure) rest place := by
  rw [turnBackAfter_zero, not_or] at forward
  obtain ⟨waits, after⟩ := forward
  have waited : first.arrival.seconds.toNat ≤ first.departure.seconds.toNat := by
    rw [ServiceTime.lt_iff] at waits
    exact Nat.le_of_not_lt waits
  have reached : ∀ time ∈ earlier, time.seconds.toNat ≤ first.arrival.seconds.toNat := by
    rintro time rfl
    simpa [ServiceTime.lt_iff] using after
  simp only [TurnBackAfter, List.getElem?_cons_succ]
  apply exists_congr
  intro call
  apply and_congr_right
  intro _
  apply or_congr_right
  constructor
  · rintro (⟨time, known, late⟩ | ⟨before, inside, other, found, late⟩)
    · refine .inl ⟨first.departure, rfl, ?_⟩
      have bound := reached time known
      rw [ServiceTime.lt_iff] at late ⊢
      omega
    · cases before with
      | zero =>
          cases found
          exact .inl ⟨first.departure, rfl, late⟩
      | succ before =>
          exact .inr ⟨before, Nat.lt_of_succ_lt_succ inside, other, found, late⟩
  · rintro (⟨time, known, late⟩ | ⟨before, inside, other, found, late⟩)
    · cases known
      exact .inr ⟨0, Nat.succ_pos place, first, rfl, late⟩
    · exact .inr ⟨before + 1, Nat.succ_lt_succ inside, other, found, late⟩

/-- Looking from call to call finds the first place that goes back in time, with regard to all
calls before it. -/
theorem backInTime?_eq_some_iff {offset found : Nat} :
    backInTime? offset earlier calls = some found ↔
      ∃ place, found = offset + place ∧ TurnBackAfter earlier calls place ∧
        ∀ before < place, ¬ TurnBackAfter earlier calls before := by
  induction calls generalizing offset earlier with
  | nil => simp [backInTime?, TurnBackAfter]
  | cons first rest hypothesis =>
      rw [backInTime?]
      by_cases back : TurnBackAfter earlier (first :: rest) 0
      · rw [if_pos (turnBackAfter_zero.mp back), Option.some.injEq]
        constructor
        · rintro rfl
          exact ⟨0, rfl, back, fun before inside => absurd inside (Nat.not_lt_zero before)⟩
        · rintro ⟨place, rfl, _, least⟩
          have start : place = 0 := Nat.eq_zero_of_not_pos fun later => least 0 later back
          rw [start, Nat.add_zero]
      · rw [if_neg fun turned => back (turnBackAfter_zero.mpr turned), hypothesis]
        constructor
        · rintro ⟨place, rfl, turns, least⟩
          refine ⟨place + 1, by omega, (turnBackAfter_succ back).mpr turns, ?_⟩
          intro before inside
          cases before with
          | zero => exact back
          | succ before =>
              rw [turnBackAfter_succ back]
              exact least before (Nat.lt_of_succ_lt_succ inside)
        · rintro ⟨place, rfl, turns, least⟩
          cases place with
          | zero => exact absurd turns back
          | succ place =>
              refine ⟨place, by omega, (turnBackAfter_succ back).mp turns, ?_⟩
              intro before inside
              rw [← turnBackAfter_succ back]
              exact least (before + 1) (Nat.succ_lt_succ inside)

/-- Of several blank names the feed's is at fault. -/
theorem forM_make_eq_error_iff {feed : String} {fault : NetworkFault} :
    (calls.forM fun call =>
        discard ((Stop.make feed call.stop).mapError NetworkFault.stop)) = .error fault ↔
      (calls ≠ [] ∧ Text.IsBlankText feed ∧ fault = .stop .feed) ∨
        (¬ Text.IsBlankText feed ∧ (∃ call ∈ calls, Text.IsBlankText call.stop) ∧
          fault = .stop .stop) := by
  induction calls with
  | nil => simp [pure, Except.pure]
  | cons first rest hypothesis =>
      change (discard ((Stop.make feed first.stop).mapError NetworkFault.stop) >>= fun _ =>
        rest.forM fun call =>
          discard ((Stop.make feed call.stop).mapError NetworkFault.stop)) = .error fault ↔ _
      by_cases feedBlank : Text.IsBlankText feed
      · have made : Stop.make feed first.stop = .error .feed := by simp [Stop.make, feedBlank]
        rw [made]
        change Except.error _ = Except.error _ ↔ _
        simp [feedBlank, eq_comm]
      by_cases stopBlank : Text.IsBlankText first.stop
      · have made : Stop.make feed first.stop = .error .stop := by
          simp [Stop.make, feedBlank, stopBlank]
        rw [made]
        change Except.error _ = Except.error _ ↔ _
        simp [feedBlank, stopBlank, eq_comm]
      · obtain ⟨stop, made⟩ :=
          (Stop.exists_make_eq_ok_iff feed first.stop).mpr ⟨feedBlank, stopBlank⟩
        rw [made]
        change (rest.forM fun call =>
          discard ((Stop.make feed call.stop).mapError NetworkFault.stop)) = .error fault ↔ _
        rw [hypothesis]
        simp [feedBlank, stopBlank]

end Calls

variable {trip : ScheduledTrip} {fault : NetworkFault}

/-- Where no place goes back in time, any two calls follow each other. -/
theorem isSound_of_callsSound (sound : CallsSound trip.feed trip.calls) : trip.IsSound where
  long := sound.long
  feed_named := by
    obtain ⟨call, member⟩ := List.exists_mem_of_length_pos (Nat.lt_of_lt_of_le Nat.two_pos sound.long)
    exact ((Stop.exists_make_eq_ok_iff _ _).mp (sound.named call member)).1
  stops_named call member := ((Stop.exists_make_eq_ok_iff _ _).mp (sound.named call member)).2
  forward first second earlier later before found reached := by
    refine ⟨sound.waits earlier (List.mem_of_getElem? found), ?_,
      sound.waits later (List.mem_of_getElem? reached)⟩
    rw [ServiceTime.le_iff]
    exact sound.departure_le_arrival found reached before

/-- A sound trip never goes back in time. -/
theorem IsSound.not_turnsBack (sound : trip.IsSound) (place : Nat) : ¬ trip.TurnsBack place := by
  rintro ⟨call, found, leaves | ⟨before, inside, earlier, foundEarlier, late⟩⟩
  · have waits : call.arrival ≤ call.departure := by
      -- There is another call, either after this one or before it.
      cases place with
      | zero =>
          exact (sound.forward 0 1 call _ Nat.one_pos found
            (List.getElem?_eq_getElem sound.long)).1
      | succ place =>
          have start := List.getElem?_eq_getElem (Nat.lt_of_lt_of_le Nat.two_pos sound.long)
          exact (sound.forward 0 (place + 1) _ call (Nat.succ_pos place) start found).2.2
    rw [ServiceTime.le_iff] at waits
    rw [ServiceTime.lt_iff] at leaves
    omega
  · have order := (sound.forward before place earlier call inside foundEarlier found).2.1
    rw [ServiceTime.le_iff] at order
    rw [ServiceTime.lt_iff] at late
    omega

theorem IsSound.not_isFaulty (sound : trip.IsSound) : ¬ trip.IsFaulty fault := by
  intro faulty
  cases faulty with
  | short few => exact absurd sound.long (Nat.not_le_of_lt few)
  | feedBlank _ blank => exact sound.feed_named blank
  | stopBlank _ _ member blank => exact sound.stops_named _ member blank
  | turnsBack _ _ _ turns _ => exact sound.not_turnsBack _ turns

/-- No trip has two first faults. -/
theorem IsFaulty.eq {other : NetworkFault} (faulty : trip.IsFaulty fault)
    (faulty' : trip.IsFaulty other) : fault = other := by
  cases faulty <;> cases faulty' <;> grind

theorem isFaulty_of_check (refused : trip.check = .error fault) : trip.IsFaulty fault := by
  unfold check at refused
  by_cases few : trip.calls.length < 2
  · rw [if_pos few] at refused
    cases refused
    exact .short few
  have long : 2 ≤ trip.calls.length := Nat.le_of_not_lt few
  rw [if_neg few] at refused
  cases stops : (trip.calls.forM fun call =>
      discard ((Stop.make trip.feed call.stop).mapError NetworkFault.stop)) with
  | error known =>
      rw [stops] at refused
      cases refused
      rcases forM_make_eq_error_iff.mp stops with
        ⟨_, feedBlank, rfl⟩ | ⟨feedNamed, ⟨call, member, stopBlank⟩, rfl⟩
      · exact .feedBlank long feedBlank
      · exact .stopBlank long feedNamed member stopBlank
  | ok done =>
      rw [stops] at refused
      have named := named_of_forM stops
      obtain ⟨call, member⟩ := List.exists_mem_of_length_pos (Nat.lt_of_lt_of_le Nat.two_pos long)
      have feedNamed := ((Stop.exists_make_eq_ok_iff _ _).mp (named call member)).1
      have stopsNamed := fun call member =>
        ((Stop.exists_make_eq_ok_iff _ _).mp (named call member)).2
      cases back : backInTime? 0 none trip.calls with
      | none =>
          rw [back] at refused
          cases refused
      | some found =>
          rw [back] at refused
          cases refused
          obtain ⟨place, rfl, turns, least⟩ := backInTime?_eq_some_iff.mp back
          rw [Nat.zero_add]
          simp only [← turnsBack_iff] at turns least
          exact .turnsBack long feedNamed stopsNamed turns least

theorem check_eq_ok_iff : trip.check = .ok () ↔ trip.IsSound := by
  constructor
  · intro passed
    exact isSound_of_callsSound (callsSound_of_check passed)
  · intro sound
    cases checked : trip.check with
    | ok done => rfl
    | error fault => exact absurd (isFaulty_of_check checked) sound.not_isFaulty

/-- The check of a trip finds the first of its faults. -/
theorem check_eq_error_iff : trip.check = .error fault ↔ trip.IsFaulty fault := by
  refine ⟨isFaulty_of_check, fun faulty => ?_⟩
  cases checked : trip.check with
  | ok done => exact absurd faulty (check_eq_ok_iff.mp checked).not_isFaulty
  | error known => rw [(isFaulty_of_check checked).eq faulty]

section Lists

variable {seen : List (String × String)} {first : ScheduledTrip} {trips rest : List ScheduledTrip}

theorem checkAll_eq_ok_iff :
    checkAll seen trips = .ok () ↔
      (∀ trip ∈ trips, trip.IsSound) ∧
        (trips.map fun trip => (trip.feed, trip.name)).Nodup ∧
          ∀ trip ∈ trips, (trip.feed, trip.name) ∉ seen := by
  constructor
  · intro passed
    obtain ⟨distinct, unseen⟩ := nodup_of_checkAll passed
    exact ⟨fun trip member => check_eq_ok_iff.mp (check_of_checkAll passed trip member),
      distinct, unseen⟩
  · rintro ⟨sound, distinct, unseen⟩
    induction trips generalizing seen with
    | nil => rfl
    | cons first rest hypothesis =>
        obtain ⟨here, sound⟩ := List.forall_mem_cons.mp sound
        obtain ⟨fresh, unseen⟩ := List.forall_mem_cons.mp unseen
        rw [List.map_cons, List.nodup_cons] at distinct
        refine checkAll_cons_eq_ok.mpr
          ⟨check_eq_ok_iff.mpr here, fresh, hypothesis sound distinct.2 ?_⟩
        intro trip member known
        rcases List.mem_cons.mp known with same | known
        · exact distinct.1 (same ▸ List.mem_map.mpr ⟨trip, member, rfl⟩)
        · exact unseen trip member known

theorem checkAll_cons_of_fresh
    (checked : first.check = .ok ()) (fresh : (first.feed, first.name) ∉ seen) :
    checkAll seen (first :: rest) = checkAll ((first.feed, first.name) :: seen) rest := by
  rw [checkAll, checked]
  exact if_neg fresh

theorem checkAll_cons_of_seen
    (checked : first.check = .ok ()) (known : (first.feed, first.name) ∈ seen) :
    checkAll seen (first :: rest) = .error (.duplicateTrip first.feed first.name) := by
  rw [checkAll, checked]
  exact if_pos known

/-- Trips are refused for the first of them that is, after others that pass. -/
theorem checkAll_eq_error_iff :
    checkAll seen trips = .error fault ↔
      ∃ earlier trip later, trips = earlier ++ trip :: later ∧ checkAll seen earlier = .ok () ∧
        (trip.IsFaulty fault ∨ trip.IsSound ∧ fault = .duplicateTrip trip.feed trip.name ∧
          ((trip.feed, trip.name) ∈ seen ∨
            (trip.feed, trip.name) ∈ earlier.map fun trip => (trip.feed, trip.name))) := by
  induction trips generalizing seen with
  | nil => simp [checkAll]
  | cons first rest hypothesis =>
      constructor
      · intro refused
        cases checked : first.check with
        | error known =>
            rw [checkAll, checked] at refused
            cases refused
            exact ⟨[], first, rest, rfl, rfl, .inl (isFaulty_of_check checked)⟩
        | ok done =>
            by_cases known : (first.feed, first.name) ∈ seen
            · rw [checkAll_cons_of_seen checked known] at refused
              cases refused
              exact ⟨[], first, rest, rfl, rfl,
                .inr ⟨check_eq_ok_iff.mp checked, rfl, .inl known⟩⟩
            · rw [checkAll_cons_of_fresh checked known] at refused
              obtain ⟨earlier, trip, later, rfl, passed, reason⟩ := hypothesis.mp refused
              refine ⟨first :: earlier, trip, later, rfl,
                checkAll_cons_eq_ok.mpr ⟨checked, known, passed⟩, ?_⟩
              simpa [or_assoc, or_left_comm] using reason
      · rintro ⟨earlier, trip, later, split, passed, reason⟩
        cases earlier with
        | nil =>
            cases split
            rcases reason with faulty | ⟨sound, rfl, known⟩
            · rw [checkAll, check_eq_error_iff.mpr faulty]
              rfl
            · exact checkAll_cons_of_seen (check_eq_ok_iff.mpr sound) (by simpa using known)
        | cons _ earlier =>
            cases split
            obtain ⟨checked, fresh, passed⟩ := checkAll_cons_eq_ok.mp passed
            rw [checkAll_cons_of_fresh checked fresh]
            refine hypothesis.mpr ⟨earlier, trip, later, rfl, passed, ?_⟩
            simpa [or_assoc, or_left_comm] using reason

theorem checkAll_nil_eq_ok_iff : checkAll [] trips = .ok () ↔ FitTogether trips := by
  rw [checkAll_eq_ok_iff]
  constructor
  · rintro ⟨sound, distinct, _⟩
    exact ⟨sound, distinct⟩
  · rintro ⟨sound, distinct⟩
    exact ⟨sound, distinct, fun trip _ => List.not_mem_nil⟩

theorem checkAll_nil_eq_error_iff :
    checkAll [] trips = .error fault ↔
      ∃ earlier trip later, trips = earlier ++ trip :: later ∧ FitTogether earlier ∧
        trip.IsRefused earlier fault := by
  rw [checkAll_eq_error_iff]
  constructor
  · rintro ⟨earlier, trip, later, split, passed, reason⟩
    refine ⟨earlier, trip, later, split, checkAll_nil_eq_ok_iff.mp passed, ?_⟩
    rcases reason with faulty | ⟨sound, rfl, impossible | known⟩
    · exact .faulty faulty
    · cases impossible
    · obtain ⟨other, member, same⟩ := List.mem_map.mp known
      obtain ⟨feed, name⟩ := Prod.mk.inj same
      exact .repeated sound member feed name
  · rintro ⟨earlier, trip, later, split, fit, reason⟩
    refine ⟨earlier, trip, later, split, checkAll_nil_eq_ok_iff.mpr fit, ?_⟩
    cases reason with
    | faulty faulty => exact .inl faulty
    | repeated sound member feed name =>
        exact .inr ⟨sound, rfl, .inr (List.mem_map.mpr ⟨_, member, Prod.ext feed name⟩)⟩

end Lists

end ScheduledTrip

namespace Timetable

variable {given : List ScheduledTrip} {fault : NetworkFault}

/-- Trips that passed their checks can be indexed. -/
theorem exists_indexBoardings {trips : List Trip}
    (sound : ∀ trip ∈ trips, CallsSound trip.feed trip.calls) :
    ∃ boardings, indexBoardings trips = .ok boardings := by
  have listed : ∀ trip ∈ trips, ∃ boardings, boardingsOf trip = .ok boardings := by
    intro trip member
    apply Except.exists_mapM
    rintro ⟨call, place⟩ known
    have called : call ∈ trip.calls := List.dropLast_subset _ (List.fst_mem_of_mem_zipIdx known)
    obtain ⟨stop, made⟩ := (sound trip member).named call called
    dsimp only
    rw [made]
    exact ⟨_, rfl⟩
  obtain ⟨lists, worked⟩ := Except.exists_mapM listed
  rw [indexBoardings, worked]
  exact ⟨_, rfl⟩

/-- Nothing but the checks stands in the way of a timetable. -/
theorem exists_build_eq_of_checkAll (passed : ScheduledTrip.checkAll [] given = .ok ()) :
    ∃ boardings, build given =
      .ok ⟨(enumerate 0 0 (group given)).1, (enumerate 0 0 (group given)).2, boardings⟩ := by
  have sound : ∀ trip ∈ (enumerate 0 0 (group given)).1, CallsSound trip.feed trip.calls := by
    intro trip member
    obtain ⟨scheduled, scheduledMember, feed, calls⟩ := exists_scheduled member
    rw [feed, calls]
    exact ScheduledTrip.callsSound_of_check
      (ScheduledTrip.check_of_checkAll passed scheduled scheduledMember)
  obtain ⟨boardings, indexed⟩ := exists_indexBoardings sound
  refine ⟨boardings, ?_⟩
  rw [build, passed]
  change ((indexBoardings _).mapError NetworkFault.stop >>= _) = _
  rw [indexed]
  rfl

theorem exists_build_iff :
    (∃ timetable, build given = .ok timetable) ↔ ScheduledTrip.FitTogether given := by
  rw [← ScheduledTrip.checkAll_nil_eq_ok_iff]
  constructor
  · rintro ⟨timetable, built⟩
    obtain ⟨_, passed, _⟩ := Except.bind_eq_ok.mp built
    exact passed
  · intro passed
    obtain ⟨boardings, built⟩ := exists_build_eq_of_checkAll passed
    exact ⟨_, built⟩

theorem exists_fault_of_misfit (misfit : ¬ ScheduledTrip.FitTogether given) :
    ∃ fault, build given = .error fault := by
  cases built : build given with
  | ok timetable => exact absurd (exists_build_iff.mp ⟨timetable, built⟩) misfit
  | error fault => exact ⟨fault, rfl⟩

theorem build_eq_error_iff :
    build given = .error fault ↔ ScheduledTrip.checkAll [] given = .error fault := by
  cases checked : ScheduledTrip.checkAll [] given with
  | error known =>
      have refused : build given = .error known := by
        rw [build, checked]
        rfl
      rw [refused, Except.error.injEq, Except.error.injEq]
  | ok done =>
      obtain ⟨boardings, built⟩ := exists_build_eq_of_checkAll checked
      simp [built]

/-- Trips make a timetable exactly if they fit together.  Otherwise the fault is that of the
first trip that is refused after trips that fit together. -/
theorem build_accepts_or_refuses (given : List ScheduledTrip) :
    ((∃ timetable, build given = .ok timetable) ↔ ScheduledTrip.FitTogether given) ∧
      ∀ fault, build given = .error fault ↔
        ∃ earlier trip later, given = earlier ++ trip :: later ∧
          ScheduledTrip.FitTogether earlier ∧ trip.IsRefused earlier fault :=
  ⟨exists_build_iff, fun _ => build_eq_error_iff.trans ScheduledTrip.checkAll_nil_eq_error_iff⟩

end Timetable

end Transit
