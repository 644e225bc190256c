import BlockMaze.Board.Puzzle

/-! A puzzle with the agent on it. Only the pose and the move counter ever change. What is shown of it is a
snapshot, with a picture in text: an arrow for the agent, `G` for the goal when the agent is elsewhere, `#`
for an obstacle. -/
namespace BlockMaze

inductive StepResult
  | moved
  | blocked
  | turned
  | won
  deriving DecidableEq

def StepResult.name : StepResult → String
  | moved => "moved"
  | blocked => "blocked"
  | turned => "turned"
  | won => "won"

structure World where
  puzzle : Puzzle
  position : Cell
  facing : Facing
  moves : Nat
  deriving DecidableEq

structure Pose where
  position : Cell
  facing : Facing
  moves : Nat
  deriving DecidableEq

namespace World

def ofPuzzle (puzzle : Puzzle) : World := ⟨puzzle, puzzle.start, puzzle.facing, 0⟩

def restart (world : World) : World := ofPuzzle world.puzzle

def pose (world : World) : Pose := ⟨world.position, world.facing, world.moves⟩

def cellAhead (world : World) : Cell := world.position.ahead world.facing

def inBounds (world : World) (cell : Cell) : Bool := decide (cell.Inside world.puzzle.size)

def isObstacle (world : World) (cell : Cell) : Bool := world.puzzle.obstacles.contains cell

def obstacleAhead (world : World) : Bool := world.isObstacle world.cellAhead

def boundaryAhead (world : World) : Bool := !world.inBounds world.cellAhead

def atGoal (world : World) : Bool := world.position = world.puzzle.goal

/-- The cell a forward step leads to: the one ahead, or the agent's own at the edge of the board. -/
def target (world : World) : Cell := world.cellAhead.clamp world.puzzle.size

/-- One step forward. An obstacle refuses it without cost; at the edge the agent stays where it is
and the move counts. -/
def tryMove (world : World) : StepResult × World :=
  if world.isObstacle world.target then (.blocked, world)
  else
    let next := { world with position := world.target, moves := world.moves + 1 }
    (if next.atGoal then .won else .moved, next)

def turn (side : Side) (world : World) : StepResult × World :=
  (.turned, { world with facing := world.facing.turn side })

end World

structure Snapshot where
  position : Cell
  facing : Facing
  goal : Cell
  obstacles : List Cell
  moves : Nat
  moveLimit : Int
  size : Int
  deriving DecidableEq

def World.snapshot (world : World) : Snapshot where
  position := world.position
  facing := world.facing
  goal := world.puzzle.goal
  obstacles := world.puzzle.obstacles
  moves := world.moves
  moveLimit := world.puzzle.moveLimit
  size := world.puzzle.size

def Facing.arrow : Facing → Char
  | .up => '^'
  | .right => '>'
  | .down => 'v'
  | .left => '<'

namespace Snapshot

def pose (board : Snapshot) : Pose := ⟨board.position, board.facing, board.moves⟩

def mark (board : Snapshot) (cell : Cell) : Char :=
  if cell = board.position then board.facing.arrow
  else if board.obstacles.contains cell then '#'
  else if cell = board.goal then 'G'
  else '.'

def row (board : Snapshot) (y : Nat) : List Char :=
  (List.range board.size.toNat).map fun x : Nat => board.mark ⟨x, y⟩

def picture (board : Snapshot) : String :=
  "\n".intercalate ((List.range board.size.toNat).map fun y => String.ofList (board.row y))

end Snapshot

end BlockMaze
