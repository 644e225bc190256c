import BlockMaze.Game.Session

/-! Running the program of a session, step by step or to its end. -/
namespace BlockMaze.Session
variable {σ : Type}

/-- Checks an ordinary player's rights to another run, and moves on to the next mode when the quota
of the current one is spent. -/
def entitle : Play σ Bool := do
  if (← get).progress.locked then
    say .locked
    return false
  applyMode (← currentMode)
  let progress := (← get).progress
  let used ← onProgress (progress.used none)
  if progress.quota ≤ used then
    discard (onProgress Progress.advance)
    if (← get).progress.locked then
      say .nowLocked
      return false
    say (.moving (← currentMode))
    applyMode (← currentMode)
  return true

/-- Starts a run of the program from the start of the puzzle; whether one began. -/
def start : Play σ Bool := do
  if (← get).isRunning then
    say .alreadyRunning
    return false
  if (← get).attempted then
    say .alreadyAttempted
    return false
  if !(← get).privileged then
    if !(← entitle) then return false
  if (← get).program.isEmpty then
    modify fun session => { session with lastOutcome := some .empty }
    say .noCommands
    return false
  modify fun session => { session with world := session.world.restart }
  publish
  say .executing
  modify fun session =>
    { session with
      run := some (Run.start { limits := session.settings.limits })
      walk := some (.ofForest session.program.forest)
      stage := .running
      attempted := true }
  return true

/-- Settles a run that has ended: the score, and the attempt in the player's progress. -/
def complete (outcome : Option Outcome) : Play σ Unit := do
  let won : Bool := outcome = some .won
  modify fun session =>
    { session with
      walk := none
      lastOutcome := outcome
      stage := if won then .won else .lost
      score := if won then session.score + 1 else session.score }
  say (if won then .succeeded else .failed)
  if (← get).privileged then return ()
  let before ← currentMode
  onProgress (Progress.record ⟨won, (← get).world.moves⟩)
  if (← get).progress.locked then say .nowLocked
  else
    let current ← currentMode
    if current ≠ before then
      applyMode current
      say (.progressing current)

def settle (engine : Engine) (walk : Option Walk) : Play σ Unit :=
  modify fun session => { session with world := engine.world, run := some engine.run, walk }

/-- One command of the run; its event, or none once the run is over. -/
def step : Play σ (Option Event) := do
  let session ← get
  match session.isRunning, session.run, session.walk with
  | true, some run, some walk =>
    let told := Engine.next ⟨session.world, run⟩ walk
    let (engine, walk, event) := told.value
    tellRelayed told.signals
    settle engine (some walk)
    if !engine.run.running then complete engine.run.outcome
    return event
  | _, _, _ => return none

def stepsWithin : Nat → Play σ Unit
  | 0 => pure ()
  | bound + 1 => do
    if (← get).isRunning then
      discard step
      stepsWithin bound

/-- No run takes more steps: one for every command that its budget allows, and one to find the end. -/
def stepBound (session : Session σ) : Nat :=
  match session.run with
  | none => 0
  | some run => Engine.budget ⟨session.world, run⟩ + 1

def runToEnd : Play σ (Option Outcome) := do
  if !(← start) then return none
  stepsWithin (← get).stepBound
  return (← get).lastOutcome

/-- Stops the run as a loss and opens the puzzle to another try. -/
def abort : Play σ Bool := do
  let session ← get
  match session.isRunning, session.run with
  | true, some run =>
    let told := Engine.abort ⟨session.world, run⟩
    tellRelayed told.signals
    settle told.value session.walk
    complete told.value.run.outcome
    modify fun session =>
      { session with world := session.world.restart, attempted := false, stage := .idle }
    publish
    return true
  | _, _ =>
    say .nothingRunning
    return false

/-- Runs at a pace that lets others act between two steps. An abort asked for after step number
`abortAfter` comes right then, or after the run if it takes fewer steps. -/
def runPaced (abortAfter : Option Nat) : Play σ (Option Outcome × Option Bool) := do
  let began ← start
  if began then
    let bound := (← get).stepBound
    stepsWithin (match abortAfter with
      | none => bound
      | some n => min (n + 1) bound)
  let aborted ← abortAfter.mapM fun _ => abort
  let session ← get
  return (if began then session.lastOutcome else none, aborted)

end BlockMaze.Session
