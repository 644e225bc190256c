import BlockMaze.Board.Cell

/-! Puzzles: the geometry of a board, which stays as it is while the agent moves. A draft may hold
anything; a puzzle has its start, goal and obstacles on the board, with start and goal free. -/
namespace BlockMaze
open Text

structure Draft where
  start : Cell
  goal : Cell
  obstacles : List Cell := []
  facing : Datum := .whole 1
  size : Int := 6
  moveLimit : Int := 20

structure Puzzle where
  start : Cell
  goal : Cell
  obstacles : List Cell
  facing : Facing
  size : Int
  moveLimit : Int
  start_inside : start.Inside size
  goal_inside : goal.Inside size
  obstacles_inside : ∀ cell ∈ obstacles, cell.Inside size
  start_free : start ∉ obstacles
  goal_free : goal ∉ obstacles
  ordered : obstacles.Pairwise Cell.Before
  deriving DecidableEq

inductive Flaw
  | outside (cell : Cell) (size : Int)
  | startBlocked
  | goalBlocked
  | facing (fault : UnknownName)
  deriving DecidableEq

def Flaw.message : Flaw → String
  | outside cell size =>
    "Cell " ++ cell.text ++ " is outside the " ++ toString size ++ "x" ++ toString size ++ " board."
  | startBlocked => "Agent cannot start on an obstacle."
  | goalBlocked => "Goal cannot be an obstacle."
  | facing fault => fault.message

/-- The first flaw in the order start, goal, obstacles, blocked start, blocked goal, facing; or else
the puzzle. -/
def Puzzle.ofDraft (draft : Draft) : Except Flaw Puzzle :=
  let size := draft.size
  let obstacles := Cell.arrange draft.obstacles
  if start_inside : draft.start.Inside size then
    if goal_inside : draft.goal.Inside size then
      match stray : obstacles.find? (fun cell => !decide (cell.Inside size)) with
      | some cell => .error (.outside cell size)
      | none =>
        if start_free : draft.start ∉ obstacles then
          if goal_free : draft.goal ∉ obstacles then
            match Facing.ofDatum draft.facing with
            | .error fault => .error (.facing fault)
            | .ok facing =>
              .ok { start := draft.start, goal := draft.goal, obstacles, facing, size,
                    moveLimit := draft.moveLimit, start_inside, goal_inside, start_free, goal_free,
                    obstacles_inside := by simpa using List.find?_eq_none.mp stray,
                    ordered := Cell.arrange_ordered _ }
          else .error .goalBlocked
        else .error .startBlocked
    else .error (.outside draft.goal size)
  else .error (.outside draft.start size)

end BlockMaze
