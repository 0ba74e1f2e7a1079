import Transit.Journey.Rounds

/-!
# Sweeps

A sweep answers a request for its whole window.  It departs at the end of the
window, then one step earlier and again until the window is used up, and last of all
at the start of the window.  Later departures come first, so that what they cover
need not be ridden again.

The access stations are swept all together or one after the other.
-/

namespace Transit.Search

/-- Check a request before it is answered. -/
def check (request : Request) : Search Unit :=
  match request.fault? with
  | some fault => throw (.request fault)
  | none => return ()

/-- Depart at the end of the window and shorten the window by a step, a number of
times. -/
def sweepWindow (catalogue : Catalogue) (transfers : TransferTable) (step : Span) :
    (times : Nat) → Search Unit
  | 0 => return ()
  | times + 1 => do
      let request := (← get).request
      match request.start.add? request.window with
      | none => throw (.request .windowEnd)
      | some departure => do
          depart catalogue transfers request.access departure request.admits
          modify fun planner =>
            { planner with
              request := { planner.request with window := planner.request.window - step } }
          sweepWindow catalogue transfers step times

/-- How often a step fits into a window, its beginning counted. -/
def departuresIn (window step : Span) : Nat :=
  (window.milliseconds / step.milliseconds).toNat + 1

/-- Answer a request for its whole window, from all access stations together. -/
def sweep (catalogue : Catalogue) (transfers : TransferTable) (request : Request) :
    Search Unit := do
  check request
  let step ← ofExcept ((← get).settings.step.mapError .request)
  modify fun planner => { planner with request }
  let times := departuresIn request.window step
  sweepWindow catalogue transfers step times
  depart catalogue transfers request.access request.start request.admits
  let planner ← get
  record (.swept (times + 1) planner.frontier.size planner.rides.size)

/-- Answer a request for its whole window, from one access station after another. -/
def sweepEach (catalogue : Catalogue) (transfers : TransferTable) (request : Request) :
    Search Unit := do
  check request
  request.access.forM fun station => sweep catalogue transfers (request.fromStation station)

end Transit.Search

namespace Transit

/-- What a planner can be asked to do. -/
inductive Task where
  /-- Search for one departure, boarding at the given stations the trips admitted. -/
  | depart (access : List Station) (departure : Instant) (admits : Trip → Bool)
  /-- Answer a request from all access stations together. -/
  | sweep (request : Request)
  /-- Answer a request from one access station after another. -/
  | sweepEach (request : Request)

/-- The search that does a task. -/
def Task.search (catalogue : Catalogue) (transfers : TransferTable) : Task → Search Unit
  | depart access departure admits => Search.depart catalogue transfers access departure admits
  | sweep request => Search.sweep catalogue transfers request
  | sweepEach request => Search.sweepEach catalogue transfers request

/-- Do a task; gives whether it succeeded, and the planner afterwards in either case. -/
def Planner.perform (planner : Planner) (catalogue : Catalogue) (transfers : TransferTable)
    (task : Task) : Except RoutingFault Unit × Planner :=
  match (task.search catalogue transfers).run planner with
  | .ok _ after => (.ok (), after)
  | .error fault after => (.error fault, after)

end Transit
