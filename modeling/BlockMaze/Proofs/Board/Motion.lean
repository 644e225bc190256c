import BlockMaze.Proofs.Search.Route
import BlockMaze.Run.Engine

/-! How commands move the agent. It stands on a free cell of the board at all times, and the cells it
stood on make up a route of no more steps than it made moves. -/
namespace BlockMaze

namespace Puzzle

theorem ofDraft_ok {draft : Draft} {puzzle : Puzzle} (ok : ofDraft draft = .ok puzzle) :
    puzzle.start = draft.start ∧ puzzle.goal = draft.goal ∧
      puzzle.obstacles = Cell.arrange draft.obstacles ∧ puzzle.size = draft.size ∧
      puzzle.moveLimit = draft.moveLimit ∧ Facing.ofDatum draft.facing = .ok puzzle.facing := by
  simp only [ofDraft] at ok
  by_cases start_inside : draft.start.Inside draft.size
  · rw [dif_pos start_inside] at ok
    by_cases goal_inside : draft.goal.Inside draft.size
    · rw [dif_pos goal_inside] at ok
      by_cases start_free : draft.start ∉ Cell.arrange draft.obstacles
      · by_cases goal_free : draft.goal ∉ Cell.arrange draft.obstacles
        · simp only [dif_pos start_free, dif_pos goal_free] at ok
          split at ok
          · cases ok
          · split at ok
            · cases ok
            · rename_i facing named
              cases ok
              exact ⟨rfl, rfl, rfl, rfl, rfl, named⟩
        · simp only [dif_pos start_free, dif_neg goal_free] at ok
          split at ok <;> cases ok
      · simp only [dif_neg start_free] at ok
        split at ok <;> cases ok
    · rw [dif_neg goal_inside] at ok
      cases ok
  · rw [dif_neg start_inside] at ok
    cases ok

def isOpen (puzzle : Puzzle) : Cell → Bool := openCell puzzle.obstacles puzzle.size

theorem isOpen_inside {puzzle : Puzzle} {cell : Cell} (free : puzzle.isOpen cell = true) :
    cell ∈ Cell.board puzzle.size :=
  Cell.mem_board.mpr (openCell_inside free)

theorem card_board (puzzle : Puzzle) : ((Cell.board puzzle.size).card : Int) = puzzle.size * puzzle.size := by
  have inside := puzzle.start_inside
  exact Cell.card_board_of_nonneg (inside.1.trans inside.2.1.le)

end Puzzle

theorem Cell.clampOne_of_bounds {size value : Int} (low : 0 ≤ value) (high : value < size) :
    clampOne size value = value := by
  unfold clampOne
  omega

theorem Cell.clamp_of_inside {cell : Cell} {size : Int} (inside : cell.Inside size) :
    cell.clamp size = cell := by
  obtain ⟨left, right, top, bottom⟩ := inside
  rw [Cell.clamp, clampOne_of_bounds left right, clampOne_of_bounds top bottom]

theorem Cell.clamp_ahead_of_outside {cell : Cell} {size : Int} {facing : Facing}
    (inside : cell.Inside size) (outside : ¬ (cell.ahead facing).Inside size) :
    (cell.ahead facing).clamp size = cell := by
  rcases cell with ⟨x, y⟩
  cases facing <;>
    simp only [Cell.ahead, Cell.clamp, Cell.clampOne, Cell.Inside, Cell.mk.injEq] at * <;> omega

namespace World

structure Standing (world : World) : Prop where
  inside : world.position.Inside world.puzzle.size
  free : world.position ∉ world.puzzle.obstacles

theorem standing_restart (world : World) : world.restart.Standing :=
  ⟨world.puzzle.start_inside, world.puzzle.start_free⟩

def moveTo (world : World) (cell : Cell) : World :=
  { world with position := cell, moves := world.moves + 1 }

theorem tryMove_of_blocked {world : World} (blocked : world.isObstacle world.target = true) :
    world.tryMove = (.blocked, world) := by
  rw [tryMove, if_pos blocked]

theorem tryMove_of_not_blocked {world : World} (unblocked : world.isObstacle world.target = false) :
    world.tryMove = (if (world.moveTo world.target).atGoal then .won else .moved,
      world.moveTo world.target) := by
  rw [tryMove, if_neg (by simp [unblocked])]
  rfl

/-- A step forward is refused by an obstacle, or stays on the spot at the edge, or leads to the open
cell ahead. -/
theorem target_cases {world : World} (standing : world.Standing) :
    world.isObstacle world.target = true ∨
      (world.isObstacle world.target = false ∧
        (world.target = world.position ∨
          (world.target = world.cellAhead ∧ world.puzzle.isOpen world.cellAhead = true))) := by
  cases blocked : world.isObstacle world.target with
  | true => exact .inl rfl
  | false =>
    refine .inr ⟨rfl, ?_⟩
    by_cases inside : world.cellAhead.Inside world.puzzle.size
    · have same : world.target = world.cellAhead := Cell.clamp_of_inside inside
      refine .inr ⟨same, openCell_eq_true_iff.mpr ⟨inside, ?_⟩⟩
      simpa [isObstacle, same] using blocked
    · exact .inl (Cell.clamp_ahead_of_outside standing.inside inside)

@[simp] theorem apply_puzzle (world : World) (command : Command) :
    (world.apply command).2.puzzle = world.puzzle := by
  cases command with
  | turn side => rfl
  | forward =>
    change world.tryMove.2.puzzle = _
    unfold tryMove
    split <;> rfl

theorem apply_moves_le (world : World) (command : Command) :
    (world.apply command).2.moves ≤ world.moves + 1 := by
  cases command with
  | turn side => exact Nat.le_succ _
  | forward =>
    change world.tryMove.2.moves ≤ _
    unfold tryMove
    split
    · exact Nat.le_succ _
    · exact Nat.le_refl _

theorem atGoal_of_apply_won {world : World} {command : Command}
    (won : (world.apply command).1 = .won) : (world.apply command).2.atGoal = true := by
  cases command with
  | turn side => cases won
  | forward =>
    change world.tryMove.1 = _ at won
    change world.tryMove.2.atGoal = _
    unfold tryMove at *
    split at won
    · cases won
    · rename_i unblocked
      rw [if_neg unblocked]
      by_contra elsewhere
      simp [elsewhere] at won

/-- The cells the agent stood on since the start of the puzzle make up a route, and no move was made
without a count. -/
structure Trodden (world : World) : Prop where
  standing : world.Standing
  route : ∃ steps ≤ world.moves, Route world.puzzle.isOpen world.puzzle.start world.position steps

theorem trodden_restart (world : World) : world.restart.Trodden :=
  ⟨standing_restart world, 0, Nat.le_refl 0, .here _⟩

theorem Trodden.apply {world : World} (trodden : world.Trodden) (command : Command) :
    (world.apply command).2.Trodden := by
  obtain ⟨standing, steps, counted, route⟩ := trodden
  cases command with
  | turn side => exact ⟨⟨standing.inside, standing.free⟩, steps, counted, route⟩
  | forward =>
    change world.tryMove.2.Trodden
    rcases target_cases standing with blocked | ⟨unblocked, stayed | ⟨moved, free⟩⟩
    · rw [tryMove_of_blocked blocked]
      exact ⟨standing, steps, counted, route⟩
    · rw [tryMove_of_not_blocked unblocked, stayed]
      exact ⟨⟨standing.inside, standing.free⟩, steps, Nat.le_succ_of_le counted, route⟩
    · rw [tryMove_of_not_blocked unblocked, moved]
      obtain ⟨inside, clear⟩ := openCell_eq_true_iff.mp free
      exact ⟨⟨inside, clear⟩, steps + 1, Nat.succ_le_succ counted, route.extend world.facing free⟩

end World

end BlockMaze
