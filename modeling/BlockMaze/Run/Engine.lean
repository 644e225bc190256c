import BlockMaze.Report.Told

/-! One run of a program on a world: its limits, its counters and how it ends. -/
namespace BlockMaze

/-- The commands allowed in a run, and the passes a guarded block may make each time it is entered. -/
structure Limits where
  commands : Int := 500
  passes : Int := 200
  deriving DecidableEq

structure Run where
  limits : Limits := {}
  total : Nat := 0
  running : Bool := false
  outcome : Option Outcome := none
  reason : Option Reason := none
  deriving DecidableEq

structure Engine where
  world : World
  run : Run
  deriving DecidableEq

def World.check (world : World) : Predicate → Bool
  | .obstacleAhead => world.obstacleAhead
  | .boundaryAhead => world.boundaryAhead
  | .atGoal => world.atGoal

def World.apply (world : World) : Command → StepResult × World
  | .forward => world.tryMove
  | .turn side => world.turn side

/-- The journal's record of a step forward: a refused one is noted. -/
def World.moveSignals (world : World) : List Signal :=
  if world.isObstacle world.target then [.log (.moveBlocked world.position world.target)] else []

def World.applySignals (world : World) : Command → List Signal
  | .forward => world.moveSignals
  | .turn _ => []

def Command.event (command : Command) (result : StepResult) (world : World) : Event :=
  match command with
  | .forward => if result = .blocked then .blocked world.pose else .moved world.pose
  | .turn side => .turned side world.pose

def Run.start (run : Run) : Run := { limits := run.limits, running := true }

namespace Engine

def start (engine : Engine) : Engine := { engine with run := engine.run.start }

/-- Ends the run, if one is going on. -/
def finish (outcome : Outcome) (reason : Option Reason) (engine : Engine) : Told Engine :=
  if engine.run.running then
    let ended := { engine with
      run := { engine.run with running := false, outcome := some outcome, reason } }
    match outcome with
    | .won => ⟨ended, [.event (.won engine.world.moves)]⟩
    | .lost | .empty =>
      ⟨ended, [.log (.runLost reason), .event (.lost reason engine.world.moves)]⟩
  else ⟨engine, []⟩

def abort (engine : Engine) : Told Engine := engine.finish .lost (some .aborted)

def stop (notice : Notice) (reason : Reason) (engine : Engine) : Told Engine := do
  tell [.event (.notice notice)]
  engine.finish .lost (some reason)

def exhausted (engine : Engine) : Bool := engine.run.limits.commands ≤ engine.run.total

/-- Carries out a command, tells of it, and ends the run if it won or made the last move allowed.
Without budget the run ends instead, and there is no event to return. -/
def perform (command : Command) (engine : Engine) : Told (Engine × Option Event) :=
  if engine.exhausted then do
    let ended ← engine.stop .commandLimit .commandLimit
    return (ended, none)
  else do
    let (result, world) := engine.world.apply command
    let total := engine.run.total + 1
    let event := command.event result world
    tell (engine.world.applySignals command ++
      [.log (.commandRun total command result), .event event, .board world.snapshot])
    let moved : Engine := { world, run := { engine.run with total } }
    let settled ←
      if result = .won then moved.finish .won none
      else if world.puzzle.moveLimit ≤ world.moves then
        moved.stop (.moveLimit world.puzzle.moveLimit) .moveLimit
      else pure moved
    return (settled, some event)

end Engine

end BlockMaze
