import BlockMaze.Game.Session

/-! New puzzles in a session. -/
namespace BlockMaze.Session
variable {σ : Type} [RandomSource σ]

/-- Rolls a puzzle with the session's own source, which goes on from where it is also after a
failure. -/
def rollPuzzle : Play σ (Except RollFault Puzzle) := fun session =>
  let told := (Roll.puzzle session.settings.roll : Act RollFault σ Puzzle) session.source
  ⟨(.ok told.value.1, { session with source := told.value.2 }), told.signals⟩

/-- Puts a fresh puzzle on the board and keeps the program. -/
def generate (seed : Option Int) : Play σ Bool := do
  if (← get).isRunning then
    refuse .puzzleWhileRunning
    return false
  if let some seed := seed then
    modify fun session => { session with source := RandomSource.ofSeed seed }
  match ← rollPuzzle with
  | .error (.noPuzzle attempts) =>
    Act.tell [.log (.noPuzzle attempts)]
    say (.noPuzzle attempts)
    return false
  | .error fault => throw (.roll fault)
  | .ok puzzle =>
    modify fun session => { session with world := .ofPuzzle puzzle }
    Act.tell [.log (.newPuzzle (← get).board)]
    modify fun session => { session with attempted := false, stage := .idle }
    publish
    return true

def nextPuzzle : Play σ Bool := do
  if (← get).isRunning then
    refuse .nextWhileRunning
    return false
  if !(← generate none) then return false
  modify fun session => { session with program := session.program.clear }
  say .newPuzzle
  return true

def reset : Play σ Bool := do
  if (← get).isRunning then
    refuse .resetWhileRunning
    return false
  if !(← generate none) then return false
  modify fun session => { session with program := session.program.clear, score := 0 }
  say .gameReset
  return true

end BlockMaze.Session
