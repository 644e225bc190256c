import BlockMaze.Chance.Dice
import BlockMaze.Search.Reach

/-! Rolling puzzles: start, goal and obstacles are drawn anew until the goal can be reached. -/
namespace BlockMaze
open Text

structure RollSettings where
  size : Int := 6
  obstacleCount : Int := 10
  attempts : Int := 1000
  moveLimit : Int := 20
  facing : Datum := .whole 1

inductive RollFault
  | doesNotFit (count size : Int)
  | draw (fault : DrawFault)
  | facing (fault : UnknownName)
  | flaw (flaw : Flaw)
  | noPuzzle (attempts : Int)
  deriving DecidableEq

def RollFault.message : RollFault → String
  | doesNotFit count size =>
    "Cannot place " ++ toString count ++ " obstacles on a " ++ toString size ++ "x" ++
      toString size ++ " board."
  | draw fault => fault.message
  | facing fault => fault.message
  | flaw f => f.message
  | noPuzzle attempts => noPuzzleText attempts

structure Layout where
  start : Cell
  goal : Cell
  obstacles : List Cell
  deriving DecidableEq

namespace Roll
variable {σ : Type} [RandomSource σ]

def number (bound : Int) : Act RollFault σ Int := fun source =>
  match RandomSource.draw bound source with
  | (.ok n, source) => ⟨(.ok n, source), []⟩
  | (.error fault, source) => ⟨(.error (.draw fault), source), []⟩

def cell (size : Int) : Act RollFault σ Cell := do
  let x ← number size
  let y ← number size
  return ⟨x, y⟩

/-- The first cell drawn that is not the start. -/
def goal (size : Int) (start : Cell) : Nat → Act RollFault σ Cell
  | 0 => throw (.draw .endless)
  | patience + 1 => do
    let drawn ← cell size
    if drawn = start then goal size start patience else return drawn

/-- Cells other than start and goal, drawn until there are `count` different ones. -/
def obstacles (size count : Int) (start goal : Cell) :
    Nat → List Cell → Act RollFault σ (List Cell)
  | patience, placed =>
    if count ≤ placed.length then pure placed
    else match patience with
      | 0 => throw (.draw .endless)
      | patience + 1 => do
        let drawn ← cell size
        let placed := if drawn = start ∨ drawn = goal then placed else Cell.place drawn placed
        obstacles size count start goal patience placed

def layout (size count : Int) : Act RollFault σ Layout := do
  let start ← cell size
  let goal ← goal size start (RandomSource.patience (← get))
  let obstacles ← obstacles size count start goal (RandomSource.patience (← get)) []
  return ⟨start, goal, obstacles⟩

def lift {ε α : Type} (wrong : ε → RollFault) : Except ε α → Act RollFault σ α
  | .ok value => pure value
  | .error fault => throw (wrong fault)

def attempts (settings : RollSettings) (attempt : Nat) : Nat → Act RollFault σ Puzzle
  | 0 => throw (.noPuzzle settings.attempts)
  | left + 1 => do
    let ⟨start, goal, obstacles⟩ ← layout settings.size settings.obstacleCount
    let facing ← lift .facing (Facing.ofDatum settings.facing)
    if reachable start goal obstacles settings.size facing then
      Act.tell [.log (.solvable attempt)]
      lift .flaw (Puzzle.ofDraft { start, goal, obstacles, facing := settings.facing,
                                   size := settings.size, moveLimit := settings.moveLimit })
    else
      Act.tell [.log (.unsolvable attempt start goal)]
      attempts settings (attempt + 1) left

/-- Whether the obstacles fit beside a start and a goal. -/
def fits (settings : RollSettings) : Bool :=
  0 ≤ settings.obstacleCount && settings.obstacleCount ≤ settings.size * settings.size - 2

def puzzle (settings : RollSettings) : Act RollFault σ Puzzle :=
  if fits settings then attempts settings 1 settings.attempts.toNat
  else throw (.doesNotFit settings.obstacleCount settings.size)

end Roll

end BlockMaze
