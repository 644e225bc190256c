import BlockMaze.Chance.Roll
import BlockMaze.Curriculum
import BlockMaze.Program.Edit
import BlockMaze.Run.Walk

/-! Game sessions: a board, the player's program, the run that executes it, and the player's
progress. Requests that cannot be granted are answered by a notice. -/
namespace BlockMaze
open Text

inductive Stage
  | idle
  | running
  | won
  | lost
  deriving DecidableEq

def Stage.name : Stage → String
  | idle => "idle"
  | running => "running"
  | won => "won"
  | lost => "lost"

structure SessionSettings where
  size : Int := 6
  obstacleCount : Int := 10
  moveLimit : Int := 20
  limits : Limits := {}
  quota : Int := 4

structure Session (σ : Type) where
  settings : SessionSettings
  source : σ
  program : Program := {}
  progress : Progress
  privileged : Bool
  mode : Mode := .basic
  score : Nat := 0
  stage : Stage := .idle
  attempted : Bool := false
  lastOutcome : Option Outcome := none
  run : Option Run := none
  walk : Option Walk := none
  world : World

/-- What can get past a session: a roll that cannot even be tried, or an index without a mode. -/
inductive SessionFault
  | roll (fault : RollFault)
  | progress (fault : PlaceFault)
  deriving DecidableEq

def SessionFault.message : SessionFault → String
  | roll fault => fault.message
  | progress fault => fault.message "tuple"

abbrev Play (σ α : Type) := Act SessionFault (Session σ) α

def SessionSettings.roll (settings : SessionSettings) : RollSettings where
  size := settings.size
  obstacleCount := settings.obstacleCount
  moveLimit := settings.moveLimit

/-- What a signal of a run becomes in a session: notices are noted in its journal too. -/
def Signal.relayed : Signal → List Signal
  | .event (.notice notice) => [.log (.noticed notice), .event (.notice notice)]
  | signal => [signal]

namespace Session
variable {σ : Type}

def ofWorld (settings : SessionSettings) (privileged : Bool) (source : σ) (world : World) :
    Session σ where
  settings := settings
  source := source
  progress := { quota := settings.quota }
  privileged := privileged
  world := world

def create [RandomSource σ] (settings : SessionSettings) (privileged : Bool) (source : σ) :
    Told (Except RollFault (Session σ)) := do
  let (rolled, source) ← Roll.puzzle settings.roll source
  return rolled.map fun puzzle => ofWorld settings privileged source (.ofPuzzle puzzle)

def isRunning (session : Session σ) : Bool := session.stage = .running

def board (session : Session σ) : Snapshot := session.world.snapshot

def tellRelayed (signals : List Signal) : Play σ Unit := Act.tell (signals.flatMap Signal.relayed)

def say (notice : Notice) : Play σ Unit := tellRelayed [.event (.notice notice)]

def refuse (refusal : Refusal) : Play σ Unit := do
  Act.tell [.log (.refused refusal)]
  say (.refused refusal)

def publish : Play σ Unit := do Act.tell [.board (← get).board]

def onProgress {α : Type} (act : Act PlaceFault Progress α) : Play σ α := fun session =>
  let told := act session.progress
  let result := match told.value.1 with
    | .ok value => .ok value
    | .error fault => .error (.progress fault)
  ⟨(result, { session with progress := told.value.2 }), told.signals⟩

def onProgram {ε α : Type} (act : Act ε Program α) : Play σ (Except ε α) := fun session =>
  let told := act session.program
  ⟨(.ok told.value.1, { session with program := told.value.2 }), told.signals⟩

def currentMode : Play σ Mode := onProgress do (← get).current

/-- Takes up a mode and drops the blocks it does not take. -/
def applyMode (mode : Mode) : Play σ Unit := do
  modify fun session => { session with mode }
  let removed ← Act.on (·.program) (fun session program => { session with program })
    (Edits.pruneForMode mode)
  if removed ≠ 0 then say (.pruned removed mode)

end Session

end BlockMaze
