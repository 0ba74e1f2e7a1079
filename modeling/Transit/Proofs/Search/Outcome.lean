import Transit.Journey.Search

/-!
# What holds after a search

`Ensures search planner done failed` says what is known of the planner a search leaves
behind: `done` if the search succeeds, `failed` if it does not.  A failed search keeps
what it did before the fault, so both sides speak about the planner afterwards.

Each primitive of a search has one law here, and a search composed of them is opened by
rewriting with these laws.
-/

namespace Transit.Search

variable {Value Other : Type}

/-- `done` holds of the value and the planner after a success, `failed` of the fault and
the planner after a failure. -/
def Ensures
    (search : Search Value) (planner : Planner)
    (done : Value → Planner → Prop)
    (failed : RoutingFault → Planner → Prop) : Prop :=
  match search planner with
  | .ok value after => done value after
  | .error fault after => failed fault after

theorem Ensures.mono
    {search : Search Value} {planner : Planner}
    {done done' : Value → Planner → Prop}
    {failed failed' : RoutingFault → Planner → Prop}
    (ensured : Ensures search planner done failed)
    (onDone : ∀ value after, done value after → done' value after)
    (onFailed : ∀ fault after, failed fault after → failed' fault after) :
    Ensures search planner done' failed' := by
  unfold Ensures at ensured ⊢
  cases outcome : search planner with
  | ok value after =>
      rw [outcome] at ensured
      exact onDone value after ensured
  | error fault after =>
      rw [outcome] at ensured
      exact onFailed fault after ensured

/-- A search ensures less if it succeeds, and the same if it fails. -/
theorem Ensures.imp
    {search : Search Value} {planner : Planner}
    {done done' : Value → Planner → Prop}
    {failed : RoutingFault → Planner → Prop}
    (ensured : Ensures search planner done failed)
    (onDone : ∀ value after, done value after → done' value after) :
    Ensures search planner done' failed :=
  ensured.mono onDone fun _ _ failure => failure

/-- Two things ensured by one search hold together. -/
theorem Ensures.and
    {search : Search Value} {planner : Planner}
    {done done' : Value → Planner → Prop}
    {failed failed' : RoutingFault → Planner → Prop}
    (first : Ensures search planner done failed)
    (second : Ensures search planner done' failed') :
    Ensures search planner
      (fun value after => done value after ∧ done' value after)
      (fun fault after => failed fault after ∧ failed' fault after) := by
  unfold Ensures at first second ⊢
  cases outcome : search planner with
  | ok value after =>
      rw [outcome] at first second
      exact ⟨first, second⟩
  | error fault after =>
      rw [outcome] at first second
      exact ⟨first, second⟩

/-- What a search keeps whether it succeeds or fails, in weaker words. -/
theorem Ensures.weaken
    {search : Search Value} {planner : Planner} {kept kept' : Planner → Prop}
    (ensured : Ensures search planner (fun _ => kept) (fun _ => kept))
    (weaker : ∀ after, kept after → kept' after) :
    Ensures search planner (fun _ => kept') (fun _ => kept') := by
  apply ensured.mono
  · intro _ after keptAfter
    exact weaker after keptAfter
  · intro _ after keptAfter
    exact weaker after keptAfter

theorem Ensures.of_ok
    {search : Search Value} {planner after : Planner} {value : Value}
    {done : Value → Planner → Prop}
    {failed : RoutingFault → Planner → Prop}
    (ensured : Ensures search planner done failed)
    (outcome : search planner = .ok value after) :
    done value after := by
  unfold Ensures at ensured
  rw [outcome] at ensured
  exact ensured

theorem Ensures.of_error
    {search : Search Value} {planner after : Planner} {fault : RoutingFault}
    {done : Value → Planner → Prop}
    {failed : RoutingFault → Planner → Prop}
    (ensured : Ensures search planner done failed)
    (outcome : search planner = .error fault after) :
    failed fault after := by
  unfold Ensures at ensured
  rw [outcome] at ensured
  exact ensured

/-- A sequence succeeds if the first search does and the next succeeds after it. -/
theorem bind_eq_ok
    {search : Search Other} {next : Other → Search Value} {planner after : Planner}
    {value : Value} :
    (search >>= next) planner = .ok value after ↔
      ∃ first middle, search planner = .ok first middle ∧
        next first middle = .ok value after := by
  change EStateM.bind search next planner = _ ↔ _
  unfold EStateM.bind
  cases search planner with
  | ok first middle =>
      constructor
      · intro worked
        exact ⟨first, middle, rfl, worked⟩
      · rintro ⟨_, _, ⟨⟩, worked⟩
        exact worked
  | error fault middle => simp

/-- Sequences that go on alike after every success of their first search are alike. -/
theorem bind_congr_of_ok
    {search : Search Other} {next next' : Other → Search Value} {planner : Planner}
    (alike : ∀ first middle, search planner = .ok first middle →
      next first middle = next' first middle) :
    (search >>= next) planner = (search >>= next') planner := by
  change EStateM.bind search next planner = EStateM.bind search next' planner
  unfold EStateM.bind
  cases outcome : search planner with
  | ok first middle => exact alike first middle outcome
  | error fault middle => rfl

section Laws

variable
  {planner : Planner}
  {done : Value → Planner → Prop}
  {failed : RoutingFault → Planner → Prop}

@[simp]
theorem ensures_pure (value : Value) :
    Ensures (pure value) planner done failed ↔ done value planner :=
  Iff.rfl

@[simp]
theorem ensures_throw (fault : RoutingFault) :
    Ensures (throw fault : Search Value) planner done failed ↔
      failed fault planner :=
  Iff.rfl

@[simp]
theorem ensures_bind (search : Search Other) (next : Other → Search Value) :
    Ensures (search >>= next) planner done failed ↔
      Ensures search planner
        (fun value after => Ensures (next value) after done failed) failed := by
  unfold Ensures
  change (match EStateM.bind search next planner with
    | .ok value after => done value after
    | .error fault after => failed fault after) ↔ _
  unfold EStateM.bind
  cases search planner <;> rfl

@[simp]
theorem ensures_get
    {done : Planner → Planner → Prop} :
    Ensures get planner done failed ↔ done planner planner :=
  Iff.rfl

@[simp]
theorem ensures_modify
    {done : Unit → Planner → Prop} (change : Planner → Planner) :
    Ensures (modify change) planner done failed ↔ done () (change planner) :=
  Iff.rfl

theorem ensures_ite
    (condition : Prop) [Decidable condition] (yes no : Search Value) :
    Ensures (if condition then yes else no) planner done failed ↔
      (condition → Ensures yes planner done failed) ∧
        (¬ condition → Ensures no planner done failed) := by
  by_cases holds : condition
  · simp [holds]
  · simp [holds]

theorem ensures_ofExcept (result : Except RoutingFault Value) :
    Ensures (ofExcept result) planner done failed ↔
      (∀ value, result = .ok value → done value planner) ∧
        (∀ fault, result = .error fault → failed fault planner) := by
  cases result with
  | ok value => simp [ofExcept]
  | error fault => simp [ofExcept]

theorem ensures_ride
    {done : Ride → Planner → Prop} (handle : Nat) :
    Ensures (ride handle) planner done failed ↔
      (∀ known, planner.rides.ride? handle = some known → done known planner) ∧
        (planner.rides.ride? handle = none → failed .brokenChain planner) := by
  unfold ride
  simp only [ensures_bind, ensures_get]
  cases planner.rides.ride? handle with
  | some known => simp
  | none => simp

end Laws

/-- A loop over a list keeps what each of its turns keeps. -/
theorem ensures_forM
    {Entry : Type} {planner : Planner} (kept : Planner → Prop)
    {failed : RoutingFault → Planner → Prop}
    {turn : Entry → Search Unit} {entries : List Entry}
    (turns : ∀ entry ∈ entries, ∀ now, kept now →
      Ensures (turn entry) now (fun _ => kept) failed)
    (holds : kept planner) :
    Ensures (entries.forM turn) planner (fun _ => kept) failed := by
  induction entries generalizing planner with
  | nil => exact holds
  | cons entry rest hypothesis =>
      change Ensures (turn entry >>= fun _ => rest.forM turn) planner _ _
      rw [ensures_bind]
      have first := turns entry List.mem_cons_self planner holds
      apply first.imp
      intro _ after keptAfter
      exact hypothesis
        (fun later member => turns later (List.mem_cons_of_mem entry member))
        keptAfter

end Transit.Search
