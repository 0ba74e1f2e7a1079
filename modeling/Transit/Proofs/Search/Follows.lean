import Transit.Proofs.Search.Trace

/-!
# Searches that follow the steps of an outing

`Outing.Follows` says that a search leads along the steps of an outing, and what it
gives if it succeeds.  A failed search leads along the steps as well, so that what every
step keeps is kept in either case.
-/

namespace Transit.Outing

variable
  {outing : Outing} {catalogue : Catalogue} {transfers : TransferTable}
  {planner : Planner} {Value Other : Type}

/-- A search leads along the steps of an outing, and gives what it should if it
succeeds. -/
def Follows
    (outing : Outing) (catalogue : Catalogue) (transfers : TransferTable)
    (search : Search Value) (planner : Planner)
    (gives : Value → Planner → Prop) : Prop :=
  Search.Ensures search planner
    (fun value after => outing.Reach catalogue transfers planner after ∧ gives value after)
    (fun _ after => outing.Reach catalogue transfers planner after)

theorem Follows.mono
    {search : Search Value} {gives gives' : Value → Planner → Prop}
    (follows : outing.Follows catalogue transfers search planner gives)
    (weaker : ∀ value after, outing.Reach catalogue transfers planner after →
      gives value after → gives' value after) :
    outing.Follows catalogue transfers search planner gives' := by
  apply Search.Ensures.mono follows
  · intro value after outcome
    exact ⟨outcome.1, weaker value after outcome.1 outcome.2⟩
  · intro _ after reach
    exact reach

/-- What a search ensures whenever it succeeds holds besides what it gives. -/
theorem Follows.and
    {search : Search Value} {gives also : Value → Planner → Prop}
    {failed : RoutingFault → Planner → Prop}
    (follows : outing.Follows catalogue transfers search planner gives)
    (ensured : Search.Ensures search planner also failed) :
    outing.Follows catalogue transfers search planner
      (fun value after => gives value after ∧ also value after) := by
  apply (Search.Ensures.and follows ensured).mono
  · rintro value after ⟨⟨reach, given⟩, more⟩
    exact ⟨reach, given, more⟩
  · rintro _ after ⟨reach, _⟩
    exact reach

theorem Follows.bind
    {search : Search Other} {next : Other → Search Value}
    {middle : Other → Planner → Prop} {gives : Value → Planner → Prop}
    (first : outing.Follows catalogue transfers search planner middle)
    (second : ∀ value after, outing.Reach catalogue transfers planner after →
      middle value after →
      outing.Follows catalogue transfers (next value) after gives) :
    outing.Follows catalogue transfers (search >>= next) planner gives := by
  unfold Follows
  rw [Search.ensures_bind]
  apply Search.Ensures.mono first
  · rintro value after ⟨reach, given⟩
    apply Search.Ensures.mono (second value after reach given)
    · rintro result last ⟨further, found⟩
      exact ⟨reach.trans further, found⟩
    · intro _ last further
      exact reach.trans further
  · intro _ after reach
    exact reach

theorem follows_pure
    {value : Value} {gives : Value → Planner → Prop} (given : gives value planner) :
    outing.Follows catalogue transfers (pure value) planner gives :=
  ⟨.refl, given⟩

theorem follows_throw
    {fault : RoutingFault} {gives : Value → Planner → Prop} :
    outing.Follows catalogue transfers (throw fault) planner gives := by
  unfold Follows
  rw [Search.ensures_throw]

theorem follows_record {event : Event} (quiet : event.IsQuiet) :
    outing.Follows catalogue transfers (Search.record event) planner
      (fun _ after => after = planner.enter event) :=
  ⟨.single (.enter planner event quiet), rfl⟩

section Sequence

variable {gives : Value → Planner → Prop}

theorem follows_throw_bind
    {fault : RoutingFault} {next : Other → Search Value} :
    outing.Follows catalogue transfers (throw fault >>= next) planner gives := by
  unfold Follows
  rw [Search.ensures_bind, Search.ensures_throw]

theorem follows_get_bind
    {next : Planner → Search Value}
    (follows : outing.Follows catalogue transfers (next planner) planner gives) :
    outing.Follows catalogue transfers (get >>= next) planner gives := by
  unfold Follows
  rw [Search.ensures_bind, Search.ensures_get]
  exact follows

theorem follows_ofExcept_bind
    {result : Except RoutingFault Other} {next : Other → Search Value}
    (follows : ∀ value, result = .ok value →
      outing.Follows catalogue transfers (next value) planner gives) :
    outing.Follows catalogue transfers (Search.ofExcept result >>= next) planner gives := by
  unfold Follows
  rw [Search.ensures_bind, Search.ensures_ofExcept]
  constructor
  · intro value same
    exact follows value same
  · intro _ _
    exact .refl

theorem follows_ride_bind
    {handle : Nat} {next : Ride → Search Value}
    (follows : ∀ ride, planner.rides.ride? handle = some ride →
      outing.Follows catalogue transfers (next ride) planner gives) :
    outing.Follows catalogue transfers (Search.ride handle >>= next) planner gives := by
  unfold Follows
  rw [Search.ensures_bind, Search.ensures_ride]
  constructor
  · intro ride found
    exact follows ride found
  · intro _
    exact .refl

theorem follows_record_bind
    {event : Event} {next : Unit → Search Value} (quiet : event.IsQuiet)
    (follows : outing.Reach catalogue transfers planner (planner.enter event) →
      outing.Follows catalogue transfers (next ()) (planner.enter event) gives) :
    outing.Follows catalogue transfers (Search.record event >>= next) planner gives := by
  apply (follows_record quiet).bind
  rintro _ _ reach rfl
  exact follows reach

end Sequence

/-- A loop marks one entry after the other, if marks last. -/
theorem follows_forM
    {Entry : Type} {turn : Entry → Search Unit} {entries : List Entry}
    (marks : Entry → Planner → Prop)
    (lasting : ∀ entry before after, outing.Reach catalogue transfers before after →
      marks entry before → marks entry after)
    (turns : ∀ entry ∈ entries, ∀ now, outing.Reach catalogue transfers planner now →
      outing.Follows catalogue transfers (turn entry) now fun _ => marks entry) :
    outing.Follows catalogue transfers (entries.forM turn) planner
      (fun _ after => ∀ entry ∈ entries, marks entry after) := by
  induction entries generalizing planner with
  | nil => exact follows_pure (by simp)
  | cons entry rest hypothesis =>
      change outing.Follows catalogue transfers
        (turn entry >>= fun _ => rest.forM turn) planner _
      apply (turns entry List.mem_cons_self planner .refl).bind
      intro _ middle reach marked
      apply (hypothesis fun later member now further =>
        turns later (List.mem_cons_of_mem entry member) now (reach.trans further)).mono
      intro _ after further others later member
      rcases List.mem_cons.mp member with rfl | member
      · exact lasting later middle after further marked
      · exact others later member

end Transit.Outing
