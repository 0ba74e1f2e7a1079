import Transit.Proofs.Search.Likeness

/-!
# Departures with a cap on their rounds

A departure first embarks: it boards trips at its stations, which does not depend on the
settings.  Then it goes through rounds, up to the cap that the settings give, and this is
all that it takes from them.

Each round is announced with its number and its rides, and the labels that are found in a
round carry its number.  The rides of a later round were all stored in the round before,
so that a departure announces no more rounds with rides than it stores rides.
-/

namespace Transit

namespace Planner

/-- The rounds that were announced, each with its number and the number of its rides. -/
def announced (planner : Planner) : List (Nat × Nat) :=
  planner.journal.toList.filterMap fun
    | .round number rides => some (number, rides)
    | _ => none

@[simp]
theorem announced_enter_round (planner : Planner) (number rides : Nat) :
    (planner.enter (.round number rides)).announced =
      planner.announced ++ [(number, rides)] := by
  simp [announced]

theorem announced_enter_of_ne
    (planner : Planner) {event : Event} (other : ∀ number rides, event ≠ .round number rides) :
    (planner.enter event).announced = planner.announced := by
  cases event <;> simp_all [announced]

theorem found_enter_of_isBoarding
    (planner : Planner) {event : Event} (boards : event.IsBoarding) :
    (planner.enter event).found = planner.found := by
  cases event <;> simp_all [found, Event.IsBoarding]

theorem found_enter_arriving (planner : Planner) (label : Label) :
    (planner.enter (.arriving label)).found = planner.found ++ [label] := by
  simp [found]

/-- The planner with other settings. -/
@[simps]
def set (planner : Planner) (settings : Settings) : Planner :=
  { planner with settings }

/-- The labels found between two planners, if there are any, are of a round from `first` to
`last`. -/
def FindsIn (before after : Planner) (first last : Nat) : Prop :=
  ∃ labels, after.found = before.found ++ labels ∧
    ∀ label ∈ labels, first ≤ label.round ∧ label.round ≤ last

/-- What a departure announces from a round with so many rides on: consecutive rounds, of
which no more have rides than there are and are stored, and one may be without. -/
def Announces (before after : Planner) (round rides : Nat) : Prop :=
  ∃ rounds, after.announced = before.announced ++ rounds ∧
    rounds.map Prod.fst = List.range' round rounds.length ∧
    rounds.length + before.rides.size ≤ rides + after.rides.size + 1 ∧
    rounds.countP (0 < ·.2) + before.rides.size ≤ rides + after.rides.size

variable {before middle after : Planner} {first last round rides : Nat}

theorem Announces.of_round
    (announced : after.announced = before.announced ++ [(round, rides)])
    (size : before.rides.size ≤ after.rides.size) :
    before.Announces after round rides := by
  refine ⟨[(round, rides)], announced, rfl, ?_, ?_⟩
  · rw [List.length_singleton]
    omega
  · by_cases some : 0 < rides
    · rw [List.countP_cons_of_pos (by simpa using some), List.countP_nil]
      omega
    · rw [List.countP_cons_of_neg (by simpa using some), List.countP_nil]
      omega

/-- A round with rides goes before the rounds that begin with the rides stored in it. -/
theorem Announces.of_next
    {next : Nat} (some : 0 < rides)
    (announced : middle.announced = before.announced ++ [(round, rides)])
    (stored : before.rides.size + next = middle.rides.size)
    (later : middle.Announces after (round + 1) next) :
    before.Announces after round rides := by
  obtain ⟨rounds, laterAnnounced, numbers, length, count⟩ := later
  refine ⟨(round, rides) :: rounds, ?_, ?_, ?_, ?_⟩
  · rw [laterAnnounced, announced, List.append_assoc]
    rfl
  · rw [List.map_cons, numbers, List.length_cons, List.range'_succ]
  · rw [List.length_cons]
    omega
  · rw [List.countP_cons_of_pos (by simpa using some)]
    omega

theorem Announces.of_announced_eq
    (announced : after.announced = before.announced)
    (size : before.rides.size ≤ after.rides.size) :
    before.Announces after round rides := by
  refine ⟨[], by rw [announced, List.append_nil], rfl, ?_, ?_⟩
  · rw [List.length_nil]
    omega
  · rw [List.countP_nil]
    omega

/-- Rides that are stored before the rounds begin are counted among those stored. -/
theorem Announces.of_stored
    (announced : middle.announced = before.announced)
    (stored : before.rides.size + rides = middle.rides.size)
    (announces : middle.Announces after round rides) :
    before.Announces after round 0 := by
  obtain ⟨rounds, laterAnnounced, numbers, length, count⟩ := announces
  exact ⟨rounds, by rw [laterAnnounced, announced], numbers, by omega, by omega⟩

theorem FindsIn.of_found_eq (same : after.found = before.found) :
    before.FindsIn after first last :=
  ⟨[], by rw [same, List.append_nil], by simp⟩

theorem FindsIn.trans
    (left : before.FindsIn middle first last) (right : middle.FindsIn after first last) :
    before.FindsIn after first last := by
  obtain ⟨early, earlyFound, earlyRounds⟩ := left
  obtain ⟨late, lateFound, lateRounds⟩ := right
  refine ⟨early ++ late, by rw [lateFound, earlyFound, List.append_assoc], ?_⟩
  intro label member
  rcases List.mem_append.mp member with member | member
  · exact earlyRounds label member
  · exact lateRounds label member

theorem FindsIn.mono
    {first' last' : Nat} (finds : before.FindsIn after first last) (above : first' ≤ first)
    (below : last ≤ last') :
    before.FindsIn after first' last' := by
  obtain ⟨labels, found, rounds⟩ := finds
  refine ⟨labels, found, ?_⟩
  intro label member
  have inside := rounds label member
  omega

/-- A round has been heard: it was announced with its rides, the labels found are of that
round, and no ride was stored. -/
structure Heard (before after : Planner) (round rides : Nat) : Prop where
  announced : after.announced = before.announced ++ [(round, rides)]
  finds : before.FindsIn after round round
  rides_eq : after.rides = before.rides

/-- What the rounds from `round` up to `last` tell, when they begin with so many rides. -/
structure Tells (before after : Planner) (round last rides : Nat) : Prop where
  announces : before.Announces after round rides
  finds : before.FindsIn after round last

/-- A round that is the last one is told of alone. -/
theorem Heard.tells
    (heard : before.Heard middle round rides) (inside : round ≤ last)
    (announced : after.announced = middle.announced) (found : after.found = middle.found)
    (size : middle.rides.size ≤ after.rides.size) :
    before.Tells after round last rides := by
  have grown : before.rides.size ≤ after.rides.size := by
    rw [← heard.rides_eq]
    exact size
  exact ⟨.of_round (announced.trans heard.announced) grown,
    (heard.finds.trans (.of_found_eq found)).mono (Nat.le_refl round) inside⟩

/-- A round with rides is told of before the later rounds. -/
theorem Heard.tells_next
    {stored : Planner} {next : Nat} (heard : before.Heard middle round rides)
    (some : 0 < rides) (inside : round ≤ last)
    (announced : stored.announced = middle.announced) (found : stored.found = middle.found)
    (size : middle.rides.size + next = stored.rides.size)
    (later : stored.Tells after (round + 1) last next) :
    before.Tells after round last rides := by
  rw [heard.rides_eq] at size
  refine ⟨later.announces.of_next some (announced.trans heard.announced) size, ?_⟩
  have early := heard.finds.trans (.of_found_eq found)
  exact (early.mono (Nat.le_refl round) inside).trans
    (later.finds.mono (Nat.le_succ round) (Nat.le_refl last))

end Planner

namespace Likeness

/-- The likeness of planners of which the second has other settings. -/
def withSettings (settings : Settings) : Likeness (fun _ => True) where
  alike one other := other = one.set settings
  eq_with := by
    rintro one _ rfl
    rfl
  change := by
    rintro one _ rfl _ _ _
    rfl
  enter := by
    rintro one _ rfl _ _
    rfl

end Likeness

/-- An outing without stations that all rides are of. -/
def Outing.ofAll : Outing := ⟨[], Instant.last, fun _ => true, 0⟩

namespace Search

open Likeness

variable
  {catalogue : Catalogue} {transfers : TransferTable} {planner : Planner}

/-- A departure with at most `cap` rounds of transfers, whatever the settings say. -/
def departWithin (catalogue : Catalogue) (transfers : TransferTable) (cap : Nat)
    (access : List Station) (departure : Instant) (admits : Trip → Bool) : Search Unit := do
  let handles ← embark catalogue access departure admits
  rounds catalogue transfers cap 0 handles

/-- The first half of a round. -/
def hear (catalogue : Catalogue) (round : Nat) (handles : List Nat) : Search Unit := do
  announce catalogue round handles
  arrivals catalogue round handles

/-- Without rounds of transfers left, a round ends where it has been heard. -/
theorem rounds_zero (round : Nat) (handles : List Nat) :
    rounds catalogue transfers 0 round handles = hear catalogue round handles := by
  unfold rounds hear
  simp only [bind_pure_unit]

theorem rounds_of_nil (left round : Nat) :
    rounds catalogue transfers left round [] = hear catalogue round [] := by
  unfold rounds hear
  simp only [bind_pure_unit]

theorem rounds_succ (left round handle : Nat) (rest : List Nat) :
    rounds catalogue transfers (left + 1) round (handle :: rest) =
      hear catalogue round (handle :: rest) >>= fun _ =>
        transferAll catalogue transfers (handle :: rest) >>= fun next =>
          rounds catalogue transfers left (round + 1) next := by
  rw [rounds, hear]
  simp only [bind_assoc]

section Embark

variable (access : List Station) (departure : Instant) (admits : Trip → Bool)

theorem embark_keeps_settings :
    Ensures (embark catalogue access departure admits) planner
      (fun _ after => after.settings = planner.settings)
      (fun _ after => after.settings = planner.settings) :=
  keeps_of_respects (fun _ _ _ _ kept => kept) (fun _ _ _ kept => kept)
    (fun _ => respects_embark (fun _ boards => boards) access departure admits) rfl

/-- Of the settings a departure takes the cap on its rounds alone. -/
theorem depart_eq_departWithin :
    depart catalogue transfers access departure admits planner =
      departWithin catalogue transfers planner.settings.rounds access departure admits
        planner := by
  rw [depart_eq_embark]
  apply bind_congr_of_ok
  intro handles middle embarked
  have same := (embark_keeps_settings access departure admits).of_ok embarked
  change rounds catalogue transfers middle.settings.rounds 0 handles middle = _
  rw [same]

/-- With other settings a departure has another cap, and else does the same. -/
theorem depart_set (planner : Planner) (settings : Settings) :
    (withSettings settings).Relates
      (departWithin catalogue transfers settings.rounds access departure admits planner)
      (depart catalogue transfers access departure admits (planner.set settings)) := by
  rw [depart_eq_departWithin]
  have respects : (withSettings settings).Respects
      (departWithin catalogue transfers settings.rounds access departure admits) := by
    apply (respects_embark (fun _ _ => trivial) access departure admits).bind
    intro handles
    exact respects_rounds (fun _ => trivial) settings.rounds 0 handles
  exact respects planner (planner.set settings) rfl

end Embark

/-- While trips are boarded no round is announced and no label found. -/
theorem boarding_keeps_told
    {Value : Type} {search : Search Value}
    (respects : ∀ likeness : Likeness Event.IsBoarding, likeness.Respects search) :
    Ensures search planner
      (fun _ after => after.announced = planner.announced ∧ after.found = planner.found)
      (fun _ after => after.announced = planner.announced ∧ after.found = planner.found) := by
  let kept (now : Planner) : Prop :=
    now.announced = planner.announced ∧ now.found = planner.found
  have enters : ∀ now event, Event.IsBoarding event → kept now → kept (now.enter event) := by
    rintro now event boards ⟨announced, found⟩
    have other : ∀ number rides, event ≠ .round number rides := by
      rintro _ _ rfl
      exact boards
    exact ⟨(now.announced_enter_of_ne other).trans announced,
      (now.found_enter_of_isBoarding boards).trans found⟩
  exact keeps_of_respects (fun _ _ _ _ holds => holds) enters respects ⟨rfl, rfl⟩

/-- The labels that the arrivals of a round give are of that round. -/
theorem arrivals_tell (round : Nat) (handles : List Nat) :
    Ensures (arrivals catalogue round handles) planner
      (fun _ after => after.announced = planner.announced ∧ planner.FindsIn after round round)
      (fun _ after =>
        after.announced = planner.announced ∧ planner.FindsIn after round round) := by
  let kept (now : Planner) : Prop :=
    now.announced = planner.announced ∧ planner.FindsIn now round round
  have enters : ∀ now event, Event.IsArrival round event → kept now →
      kept (now.enter event) := by
    rintro now event arrives ⟨announced, finds⟩
    have other : ∀ number rides, event ≠ .round number rides := by
      rintro _ _ rfl
      exact arrives
    refine ⟨(now.announced_enter_of_ne other).trans announced, finds.trans ?_⟩
    cases event with
    | arriving label =>
        have same : label.round = round := arrives
        refine ⟨[label], now.found_enter_arriving label, ?_⟩
        intro known member
        rw [List.mem_singleton.mp member, same]
        exact ⟨Nat.le_refl round, Nat.le_refl round⟩
    | passing handle egress arrival =>
        exact .of_found_eq (now.found_enter_passing handle egress arrival)
    | _ => exact arrives.elim
  exact keeps_of_respects (fun _ _ _ _ holds => holds) enters
    (fun _ => respects_arrivals (fun _ arrives => arrives) handles) ⟨rfl, .of_found_eq rfl⟩

/-- The announcement of a round. -/
theorem announce_tells (round : Nat) (handles : List Nat) :
    Ensures (announce catalogue round handles) planner
      (fun _ after => after.announced = planner.announced ++ [(round, handles.length)] ∧
        after.found = planner.found)
      (fun _ after => after.announced = planner.announced ++ [(round, handles.length)] ∧
        after.found = planner.found) := by
  unfold announce
  rw [ensures_bind, ensures_record]
  apply ensures_forM (fun now =>
    now.announced = planner.announced ++ [(round, handles.length)] ∧
      now.found = planner.found)
  · intro handle _ now kept
    rw [ensures_bind, ensures_ride]
    constructor
    · intro ride _
      cases catalogue.trip? ride.board.trip with
      | none => exact kept
      | some trip =>
          have quiet : Event.IsQuiet
              (.riding trip.pattern trip.name ride.board.call ride.limit) := trivial
          have other : ∀ number rides,
              Event.riding trip.pattern trip.name ride.board.call ride.limit ≠
                .round number rides := nofun
          exact ⟨(now.announced_enter_of_ne other).trans kept.1,
            (now.found_enter_of_isQuiet quiet).trans kept.2⟩
    · intro _
      exact kept
  · have quiet : Event.IsQuiet (.round round handles.length) := trivial
    exact ⟨planner.announced_enter_round round handles.length,
      planner.found_enter_of_isQuiet quiet⟩

theorem follows_heard (transfers : TransferTable) (round : Nat) (handles : List Nat) :
    Outing.ofAll.Follows catalogue transfers (hear catalogue round handles) planner
      (fun _ _ => True) := by
  apply (Outing.Reach.of_announce round handles).bind
  intro _ middle _ _
  apply (Outing.follows_arrivals fun handle _ => Nat.zero_le handle).mono
  intro _ _ _ _
  exact trivial

theorem hear_tells (round : Nat) (handles : List Nat) :
    Ensures (hear catalogue round handles) planner
      (fun _ after => planner.Heard after round handles.length)
      (fun _ after => planner.Heard after round handles.length) := by
  unfold hear
  rw [ensures_bind]
  apply ((announce_tells round handles).and (Outing.announce_keeps round handles)).mono
  · rintro _ middle ⟨⟨announced, found⟩, rides, _⟩
    apply ((arrivals_tell round handles).and (Outing.arrivals_keeps round handles)).weaken
    rintro after ⟨⟨same, finds⟩, sameRides, _⟩
    exact ⟨same.trans announced, (Planner.FindsIn.of_found_eq found).trans finds,
      sameRides.trans rides⟩
  · rintro _ after ⟨⟨announced, found⟩, rides, _⟩
    exact ⟨announced, .of_found_eq found, rides⟩

theorem transferAll_keeps_told (handles : List Nat) :
    Ensures (transferAll catalogue transfers handles) planner
      (fun _ after => after.announced = planner.announced ∧ after.found = planner.found)
      (fun _ after => after.announced = planner.announced ∧ after.found = planner.found) :=
  boarding_keeps_told fun _ => respects_transferAll (fun _ boards => boards) handles

theorem follows_transferred (handles : List Nat) :
    Outing.ofAll.Follows catalogue transfers (transferAll catalogue transfers handles) planner
      (fun next after => next = planner.newRides after) := by
  apply (Outing.follows_transferAll fun handle _ => Nat.zero_le handle).mono
  rintro next after _ ⟨same, _⟩
  exact same

/-- Transferring gives the rides that it stores. -/
theorem transferAll_stores (handles : List Nat) :
    Ensures (transferAll catalogue transfers handles) planner
      (fun next after => planner.rides.size + next.length = after.rides.size)
      (fun _ after => planner.rides.size ≤ after.rides.size) := by
  apply Ensures.mono (follows_transferred handles)
  · rintro next after ⟨reach, same⟩
    have grown := reach.grows.size
    rw [same, Planner.newRides, List.length_range']
    omega
  · intro _ after reach
    exact reach.grows.size

/-- What rounds tell, whether they succeed or fail. -/
theorem rounds_tell (left round : Nat) (handles : List Nat) :
    Ensures (rounds catalogue transfers left round handles) planner
      (fun _ after => planner.Tells after round (round + left) handles.length)
      (fun _ after => planner.Tells after round (round + left) handles.length) := by
  induction left generalizing planner round handles with
  | zero =>
      rw [rounds_zero]
      exact (hear_tells round handles).weaken fun _ heard =>
        heard.tells (Nat.le_refl round) rfl rfl (Nat.le_refl _)
  | succ left hypothesis =>
      have inside : round ≤ round + (left + 1) := Nat.le_add_right _ _
      cases handles with
      | nil =>
          rw [rounds_of_nil]
          exact (hear_tells round []).weaken fun _ heard =>
            heard.tells inside rfl rfl (Nat.le_refl _)
      | cons handle rest =>
          rw [rounds_succ, ensures_bind]
          apply (hear_tells round (handle :: rest)).mono
          case onFailed => exact fun _ _ heard => heard.tells inside rfl rfl (Nat.le_refl _)
          intro _ middle heard
          rw [ensures_bind]
          apply ((transferAll_keeps_told (handle :: rest)).and
            (transferAll_stores (handle :: rest))).mono
          · rintro next stored ⟨⟨announced, found⟩, size⟩
            apply (hypothesis (round + 1) next).weaken
            intro after later
            rw [Nat.add_right_comm] at later
            exact heard.tells_next (Nat.succ_pos _) inside announced found size later
          · rintro _ stored ⟨⟨announced, found⟩, grown⟩
            exact heard.tells inside announced found grown

section Departures

variable (access : List Station) (departure : Instant) (admits : Trip → Bool)

/-- Embarking gives as many rides as it stores. -/
theorem embark_stores :
    Ensures (embark catalogue access departure admits) planner
      (fun handles after => planner.rides.size + handles.length = after.rides.size)
      (fun _ after => planner.rides.size ≤ after.rides.size) := by
  let outing : Outing := ⟨access, departure, admits, planner.rides.size⟩
  have follows : outing.Follows catalogue .empty
      (embark catalogue access departure admits) planner _ :=
    Outing.follows_embark outing catalogue .empty
  apply Ensures.mono follows
  · rintro handles after ⟨reach, perm, _⟩
    have grown := reach.grows.size
    rw [perm.length_eq, Planner.newRides, List.length_range']
    omega
  · intro _ after reach
    exact reach.grows.size

/-- What a departure tells.  Its rounds begin with the rides that it stores first. -/
theorem departWithin_tells (cap : Nat) :
    Ensures (departWithin catalogue transfers cap access departure admits) planner
      (fun _ after => planner.Tells after 0 cap 0) (fun _ after => planner.Tells after 0 cap 0) := by
  unfold departWithin
  rw [ensures_bind]
  apply ((boarding_keeps_told fun _ =>
    respects_embark (fun _ boards => boards) access departure admits).and
      (embark_stores access departure admits)).mono
  · rintro handles middle ⟨⟨announced, found⟩, stored⟩
    apply (rounds_tell cap 0 handles).weaken
    rintro after ⟨announces, finds⟩
    rw [Nat.zero_add] at finds
    exact ⟨announces.of_stored announced stored, (Planner.FindsIn.of_found_eq found).trans finds⟩
  · rintro _ middle ⟨⟨announced, found⟩, grown⟩
    exact ⟨.of_announced_eq announced grown, .of_found_eq found⟩

theorem depart_tells :
    Ensures (depart catalogue transfers access departure admits) planner
      (fun _ after => planner.Tells after 0 planner.settings.rounds 0)
      (fun _ after => planner.Tells after 0 planner.settings.rounds 0) := by
  unfold Ensures
  rw [depart_eq_departWithin]
  exact departWithin_tells access departure admits planner.settings.rounds

end Departures

end Search

end Transit
