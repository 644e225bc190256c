import Mathlib.Data.List.DropRight
import BlockMaze.Proofs.Board.Motion

/-! What lies ahead of the agent and what a step forward makes of it. A step is decided by the cell it is
cut back to at the edge, and the two questions an agent can ask look at the cell that is not cut back. They
agree because the agent stands on a free cell of the board whatever is done to its world. -/
namespace BlockMaze

inductive Deed
  | advance
  | turn (side : Side)
  | restart
  deriving DecidableEq

namespace World

/-- What is done, and what comes of it; nothing comes of a restart. -/
def perform (world : World) : Deed → Option StepResult × World
  | .advance => (some world.tryMove.1, world.tryMove.2)
  | .turn side => (some (world.turn side).1, (world.turn side).2)
  | .restart => (none, world.restart)

def performAll (deeds : List Deed) (world : World) : World :=
  deeds.foldl (fun world deed => (world.perform deed).2) world

def history (world : World) : List Deed → List (Deed × Option StepResult)
  | [] => []
  | deed :: deeds => (deed, (world.perform deed).1) :: (world.perform deed).2.history deeds

/-- The steps forward since the last restart that were not refused. -/
def stepsMade (history : List (Deed × Option StepResult)) : Nat :=
  (history.rtakeWhile fun entry => entry.1 ≠ .restart).countP fun entry =>
    entry.1 = .advance ∧ entry.2 ≠ some .blocked

theorem performAll_concat (world : World) (deeds : List Deed) (deed : Deed) :
    world.performAll (deeds ++ [deed]) = ((world.performAll deeds).perform deed).2 := by
  simp [performAll]

theorem history_concat (world : World) (deeds : List Deed) (deed : Deed) :
    world.history (deeds ++ [deed]) =
      world.history deeds ++ [(deed, ((world.performAll deeds).perform deed).1)] := by
  induction deeds generalizing world with
  | nil => rfl
  | cons first deeds ih => exact congrArg (List.cons _) (ih _)

variable {world : World}

theorem obstacle_inside {cell : Cell} (obstacle : world.isObstacle cell = true) :
    world.inBounds cell = true := by
  apply decide_eq_true
  apply world.puzzle.obstacles_inside
  simpa [isObstacle] using obstacle

theorem Standing.not_isObstacle (standing : world.Standing) :
    world.isObstacle world.position = false := by
  simpa [isObstacle] using standing.free

theorem boundaryAhead_of_obstacleAhead (obstacle : world.obstacleAhead = true) :
    world.boundaryAhead = false := by
  rw [boundaryAhead, obstacle_inside obstacle]
  rfl

theorem target_of_boundaryAhead (standing : world.Standing) (edge : world.boundaryAhead = true) :
    world.target = world.position := by
  apply Cell.clamp_ahead_of_outside standing.inside
  intro inside
  simp [boundaryAhead, inBounds, cellAhead, inside] at edge

theorem target_of_not_boundaryAhead (within : world.boundaryAhead = false) :
    world.target = world.cellAhead := by
  apply Cell.clamp_of_inside
  simpa [boundaryAhead, inBounds] using within

/-- The step is decided by the cell ahead, though it looks at another one at the edge. -/
theorem Standing.isObstacle_target (standing : world.Standing) :
    world.isObstacle world.target = world.obstacleAhead := by
  cases edge : world.boundaryAhead with
  | false => rw [target_of_not_boundaryAhead edge, obstacleAhead]
  | true =>
    rw [target_of_boundaryAhead standing edge, standing.not_isObstacle]
    cases obstacle : world.obstacleAhead with
    | false => rfl
    | true => cases edge.symm.trans (boundaryAhead_of_obstacleAhead obstacle)

/-- What a step forward onto a cell comes to. -/
def arrival (world : World) (cell : Cell) : StepResult × World :=
  (if cell = world.puzzle.goal then .won else .moved, world.moveTo cell)

theorem tryMove_eq_arrival (clear : world.isObstacle world.target = false) :
    world.tryMove = world.arrival world.target := by
  rw [tryMove_of_not_blocked clear]
  by_cases there : world.target = world.puzzle.goal <;> simp [arrival, atGoal, moveTo, there]

inductive Tried (world : World) : StepResult × World → Prop
  | refused (obstacle : world.obstacleAhead = true) (within : world.boundaryAhead = false) :
      Tried world (.blocked, world)
  | stayed (clear : world.obstacleAhead = false) (edge : world.boundaryAhead = true) :
      Tried world (world.arrival world.position)
  | stepped (clear : world.obstacleAhead = false) (within : world.boundaryAhead = false) :
      Tried world (world.arrival world.cellAhead)

theorem Standing.tried (standing : world.Standing) : Tried world world.tryMove := by
  have decided := standing.isObstacle_target
  cases obstacle : world.obstacleAhead with
  | true =>
    rw [tryMove_of_blocked (decided.trans obstacle)]
    exact .refused obstacle (boundaryAhead_of_obstacleAhead obstacle)
  | false =>
    rw [tryMove_eq_arrival (decided.trans obstacle)]
    cases edge : world.boundaryAhead with
    | true =>
      rw [target_of_boundaryAhead standing edge]
      exact .stayed obstacle edge
    | false =>
      rw [target_of_not_boundaryAhead edge]
      exact .stepped obstacle edge

theorem arrival_ne_blocked (cell : Cell) : (world.arrival cell).1 ≠ .blocked := by
  unfold arrival
  split <;> exact nofun

theorem cellAhead_ne_position : world.cellAhead ≠ world.position := by
  rcases world with ⟨puzzle, ⟨x, y⟩, facing, moves⟩
  intro same
  cases facing <;> simp [cellAhead, Cell.ahead] at same

section tried
variable {tried : StepResult × World}

theorem Tried.blocked_iff (ways : Tried world tried) : tried.1 = .blocked ↔ world.obstacleAhead = true := by
  cases ways with
  | refused obstacle => simp [obstacle]
  | stayed clear | stepped clear => simp [clear, arrival_ne_blocked]

theorem Tried.unchanged (ways : Tried world tried) (blocked : tried.1 = .blocked) : tried.2 = world := by
  cases ways with
  | refused => rfl
  | stayed | stepped => exact absurd blocked (arrival_ne_blocked _)

theorem Tried.stayed_iff (ways : Tried world tried) :
    tried.2 = world.moveTo world.position ↔ world.boundaryAhead = true := by
  cases ways with
  | refused obstacle within =>
    refine ⟨fun same => ?_, fun edge => by cases within.symm.trans edge⟩
    exact absurd (congrArg World.moves same) (Nat.ne_of_lt (Nat.lt_succ_self _))
  | stayed clear edge => exact ⟨fun _ => edge, fun _ => rfl⟩
  | stepped clear within =>
    refine ⟨fun same => ?_, fun edge => by cases within.symm.trans edge⟩
    exact absurd (congrArg World.position same) cellAhead_ne_position

theorem Tried.moved (ways : Tried world tried) (clear : world.obstacleAhead = false)
    (within : world.boundaryAhead = false) : tried.2 = world.moveTo world.cellAhead := by
  cases ways with
  | refused obstacle => cases clear.symm.trans obstacle
  | stayed _ edge => cases within.symm.trans edge
  | stepped => rfl

theorem Tried.result (ways : Tried world tried) (clear : world.obstacleAhead = false) :
    tried.1 = if tried.2.position = world.puzzle.goal then .won else .moved := by
  cases ways with
  | refused obstacle => cases clear.symm.trans obstacle
  | stayed | stepped => rfl

theorem Tried.puzzle (ways : Tried world tried) : tried.2.puzzle = world.puzzle := by
  cases ways <;> rfl

theorem Tried.moves (ways : Tried world tried) :
    tried.2.moves = world.moves + if tried.1 = .blocked then 0 else 1 := by
  cases ways with
  | refused => rfl
  | stayed | stepped => rw [if_neg (arrival_ne_blocked _)]; rfl

theorem Tried.standing (ways : Tried world tried) (standing : world.Standing) : tried.2.Standing := by
  cases ways with
  | refused => exact standing
  | stayed => exact ⟨standing.inside, standing.free⟩
  | stepped clear within =>
    constructor
    · simpa [boundaryAhead, inBounds, arrival, moveTo] using within
    · simpa [obstacleAhead, isObstacle, arrival, moveTo] using clear

end tried

/-- The agent stands on a free cell of its puzzle, and its moves are the steps that were made. -/
structure Reached (puzzle : Puzzle) (history : List (Deed × Option StepResult)) (world : World) : Prop
    extends world.Standing where
  puzzle_eq : world.puzzle = puzzle
  counted : world.moves = stepsMade history

theorem Reached.perform {puzzle : Puzzle} {history : List (Deed × Option StepResult)}
    (reached : world.Reached puzzle history) (deed : Deed) :
    (world.perform deed).2.Reached puzzle (history ++ [(deed, (world.perform deed).1)]) := by
  have standing := reached.toStanding
  cases deed with
  | advance =>
    have ways := standing.tried
    refine ⟨ways.standing standing, ways.puzzle.trans reached.puzzle_eq, ?_⟩
    refine ways.moves.trans ?_
    rw [reached.counted, stepsMade, stepsMade, List.rtakeWhile_concat_pos _ _ _ (by simp),
      List.countP_append]
    by_cases blocked : world.tryMove.1 = .blocked <;> simp [World.perform, blocked]
  | turn side =>
    refine ⟨⟨standing.inside, standing.free⟩, reached.puzzle_eq, ?_⟩
    refine reached.counted.trans ?_
    rw [stepsMade, stepsMade, List.rtakeWhile_concat_pos _ _ _ (by simp), List.countP_append]
    rfl
  | restart =>
    refine ⟨standing_restart world, reached.puzzle_eq, ?_⟩
    rw [stepsMade, List.rtakeWhile_concat_neg _ _ _ (by simp)]
    rfl

theorem reached_performAll (puzzle : Puzzle) (deeds : List Deed) :
    ((ofPuzzle puzzle).performAll deeds).Reached puzzle ((ofPuzzle puzzle).history deeds) := by
  induction deeds using List.reverseRecOn with
  | nil => exact ⟨⟨puzzle.start_inside, puzzle.start_free⟩, rfl, rfl⟩
  | append_singleton deeds deed ih =>
    rw [performAll_concat, history_concat]
    exact ih.perform deed

end World

/-- Whatever is done to the world of a puzzle, the agent stands on a free cell of the board, the geometry is
that of the draft, and the moves are the steps forward since the last restart that were not refused. No
obstacle is ahead at the edge. A step is refused, and nothing changes, exactly if an obstacle is ahead;
exactly at the edge it costs a move and leads nowhere; otherwise it leads to the cell ahead. A step that is
not refused wins exactly if it ends on the goal. -/
theorem outlook_of_deeds {draft : Draft} {puzzle : Puzzle} (drawn : Puzzle.ofDraft draft = .ok puzzle)
    (deeds : List Deed) :
    let world := (World.ofPuzzle puzzle).performAll deeds
    world.position.Inside draft.size ∧ world.position ∉ draft.obstacles ∧
    (world.puzzle = puzzle ∧ puzzle.start = draft.start ∧ puzzle.goal = draft.goal ∧
      puzzle.size = draft.size ∧ puzzle.moveLimit = draft.moveLimit ∧
      Facing.ofDatum draft.facing = .ok puzzle.facing ∧
      ∀ cell, cell ∈ puzzle.obstacles ↔ cell ∈ draft.obstacles) ∧
    world.moves = World.stepsMade ((World.ofPuzzle puzzle).history deeds) ∧
    ¬ (world.obstacleAhead = true ∧ world.boundaryAhead = true) ∧
    (world.tryMove.1 = .blocked ↔ world.obstacleAhead = true) ∧
    (world.tryMove.1 = .blocked → world.tryMove.2 = world) ∧
    (world.tryMove.2 = { world with moves := world.moves + 1 } ↔ world.boundaryAhead = true) ∧
    (world.obstacleAhead = false → world.boundaryAhead = false →
      world.tryMove.2 = { world with position := world.cellAhead, moves := world.moves + 1 }) ∧
    (world.obstacleAhead = false →
      world.tryMove.1 = if world.tryMove.2.position = draft.goal then .won else .moved) := by
  intro world
  obtain ⟨start, goal, arranged, size, limit, facing⟩ := Puzzle.ofDraft_ok drawn
  have obstacles (cell : Cell) : cell ∈ puzzle.obstacles ↔ cell ∈ draft.obstacles := by
    rw [arranged]
    exact Cell.mem_arrange
  have reached : world.Reached puzzle ((World.ofPuzzle puzzle).history deeds) :=
    World.reached_performAll puzzle deeds
  have ways := reached.tried
  have inside := reached.inside
  have free := reached.free
  rw [reached.puzzle_eq] at inside free
  refine ⟨size ▸ inside, fun obstacle => free ((obstacles _).mpr obstacle),
    ⟨reached.puzzle_eq, start, goal, size, limit, facing, obstacles⟩, reached.counted, ?_, ways.blocked_iff,
    ways.unchanged, ways.stayed_iff, ways.moved, fun clear => ?_⟩
  · rintro ⟨obstacle, edge⟩
    cases edge.symm.trans (World.boundaryAhead_of_obstacleAhead obstacle)
  · rw [ways.result clear, reached.puzzle_eq, goal]

/-- In a corner with an obstacle to the right and the goal below: the step off the board counts, the one
against the obstacle does not. -/
theorem outlook_of_deeds_corner :
    let draft : Draft :=
      { start := ⟨0, 0⟩, goal := ⟨0, 1⟩, obstacles := [⟨1, 0⟩], facing := .whole 0, size := 2 }
    ∃ puzzle, Puzzle.ofDraft draft = .ok puzzle ∧
      let world := (World.ofPuzzle puzzle).performAll
        [.advance, .restart, .advance, .turn .right, .advance, .turn .right]
      world.moves = 1 ∧ world.obstacleAhead = false ∧ world.boundaryAhead = false ∧
      world.tryMove.2 = { world with position := world.cellAhead, moves := world.moves + 1 } ∧
      world.tryMove.1 = .won := by
  intro draft
  refine ⟨_, rfl, ?_⟩
  intro world
  have accepted : Puzzle.ofDraft draft = .ok _ := rfl
  obtain ⟨-, -, -, counted, -, -, -, -, moved, result⟩ := outlook_of_deeds accepted
    [.advance, .restart, .advance, .turn .right, .advance, .turn .right]
  have clear : world.obstacleAhead = false := by decide +kernel
  have within : world.boundaryAhead = false := by decide +kernel
  refine ⟨counted.trans (by decide +kernel), clear, within, moved clear within, ?_⟩
  rw [result clear, moved clear within]
  decide +kernel

end BlockMaze
