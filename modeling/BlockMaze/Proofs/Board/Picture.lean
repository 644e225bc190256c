import Mathlib.Data.List.Sort
import BlockMaze.Proofs.Board.Outlook

/-! What the picture of a board tells. An arrow covers nothing but a goal that it stands on, and an obstacle
covers nothing, so that every cell can be read back; and the lines tell where the cells are. -/
namespace BlockMaze

theorem mem_intercalate_singleton {separator c : Char} (other : c ≠ separator) (rows : List (List Char)) :
    c ∈ [separator].intercalate rows ↔ ∃ row ∈ rows, c ∈ row := by
  induction rows with
  | nil => simp
  | cons first rest ih =>
    cases rest with
    | nil => simp
    | cons second rest =>
      rw [List.intercalate_cons_cons, List.mem_append, List.mem_append, ih]
      simp [other]

namespace Snapshot
variable {board other : Snapshot} {cell : Cell}

/-- All that is shown is on the board, and agent and goal are not on an obstacle. -/
structure Proper (board : Snapshot) : Prop where
  position_inside : board.position.Inside board.size
  position_free : board.position ∉ board.obstacles
  goal_inside : board.goal.Inside board.size
  goal_free : board.goal ∉ board.obstacles
  obstacles_inside : ∀ cell ∈ board.obstacles, cell.Inside board.size
  ordered : board.obstacles.Pairwise Cell.Before

theorem proper_of_deeds (puzzle : Puzzle) (deeds : List Deed) :
    ((World.ofPuzzle puzzle).performAll deeds).snapshot.Proper := by
  have reached := World.reached_performAll puzzle deeds
  generalize (World.ofPuzzle puzzle).performAll deeds = world at reached
  exact ⟨reached.inside, reached.free, world.puzzle.goal_inside, world.puzzle.goal_free,
    world.puzzle.obstacles_inside, world.puzzle.ordered⟩

inductive Marked (board : Snapshot) (cell : Cell) : Char → Prop
  | agent (here : cell = board.position) : Marked board cell board.facing.arrow
  | obstacle (away : cell ≠ board.position) (blocked : cell ∈ board.obstacles) : Marked board cell '#'
  | goal (away : cell ≠ board.position) (free : cell ∉ board.obstacles) (there : cell = board.goal) :
      Marked board cell 'G'
  | nothing (away : cell ≠ board.position) (free : cell ∉ board.obstacles) (elsewhere : cell ≠ board.goal) :
      Marked board cell '.'

theorem marked (board : Snapshot) (cell : Cell) : board.Marked cell (board.mark cell) := by
  by_cases here : cell = board.position
  · rw [mark, if_pos here]
    exact .agent here
  · rw [mark, if_neg here]
    by_cases blocked : cell ∈ board.obstacles
    · rw [if_pos (List.contains_iff_mem.mpr blocked)]
      exact .obstacle here blocked
    · rw [if_neg (mt List.contains_iff_mem.mp blocked)]
      by_cases there : cell = board.goal
      · rw [if_pos there]
        exact .goal here blocked there
      · rw [if_neg there]
        exact .nothing here blocked there

section mark

theorem mark_eq_arrow_iff {facing : Facing} :
    board.mark cell = facing.arrow ↔ cell = board.position ∧ board.facing = facing := by
  have marked := board.marked cell
  generalize board.mark cell = c at marked ⊢
  cases marked with
  | agent here =>
    rw [here]
    cases board.facing <;> cases facing <;> simp [Facing.arrow]
  | obstacle away | goal away | nothing away => cases facing <;> simp [away, Facing.arrow]

theorem Proper.mark_eq_hash_iff (proper : board.Proper) :
    board.mark cell = '#' ↔ cell ∈ board.obstacles := by
  have marked := board.marked cell
  generalize board.mark cell = c at marked ⊢
  cases marked with
  | agent here =>
    rw [here]
    cases board.facing <;> simp [Facing.arrow, proper.position_free]
  | obstacle _ blocked => simp [blocked]
  | goal _ free | nothing _ free => simp [free]

theorem Proper.mark_eq_goal_iff (proper : board.Proper) :
    board.mark cell = 'G' ↔ cell = board.goal ∧ board.goal ≠ board.position := by
  have marked := board.marked cell
  generalize board.mark cell = c at marked ⊢
  cases marked with
  | agent here =>
    rw [here]
    cases board.facing <;> simp [Facing.arrow, eq_comm]
  | obstacle _ blocked =>
    have elsewhere : cell ≠ board.goal := fun there => proper.goal_free (there ▸ blocked)
    simp [elsewhere]
  | goal away _ there => simp [there, there ▸ away]
  | nothing _ _ elsewhere => simp [elsewhere]

theorem mark_ne_newline (board : Snapshot) (cell : Cell) : board.mark cell ≠ '\n' := by
  have marked := board.marked cell
  generalize board.mark cell = c at marked ⊢
  cases marked with
  | agent => cases board.facing <;> decide
  | obstacle | goal | nothing => decide

end mark

def lines (board : Snapshot) : List (List Char) := (List.range board.size.toNat).map board.row

theorem picture_toList (board : Snapshot) : board.picture.toList = ['\n'].intercalate board.lines := by
  rw [picture, String.toList_intercalate, List.map_map]
  congr 1
  exact List.map_congr_left fun y _ => String.toList_ofList

theorem newline_not_mem_row (board : Snapshot) : ∀ line ∈ board.lines, '\n' ∉ line := by
  intro line member broken
  obtain ⟨y, _, rfl⟩ := List.mem_map.mp member
  obtain ⟨x, _, marked⟩ := List.mem_map.mp broken
  exact board.mark_ne_newline ⟨x, y⟩ marked

theorem splitOn_picture (positive : 0 < board.size) :
    board.picture.toList.splitOn '\n' = board.lines := by
  rw [picture_toList]
  refine List.splitOn_intercalate '\n' board.newline_not_mem_row ?_
  simp [lines]
  omega

theorem Proper.positive (proper : board.Proper) : 0 < board.size := by
  obtain ⟨left, right, _⟩ := proper.position_inside
  exact Int.lt_of_le_of_lt left right

theorem mark_eq_of_lines (same : board.lines = other.lines) (inside : cell.Inside board.size) :
    board.mark cell = other.mark cell := by
  have sizes : board.size.toNat = other.size.toNat := by simpa [lines] using congrArg List.length same
  obtain ⟨x, y, ⟨right, bottom⟩, rfl⟩ := Cell.inside_iff.mp inside
  rw [lines, lines, ← sizes, List.map_inj_left] at same
  have row := same y (List.mem_range.mpr bottom)
  rw [Snapshot.row, Snapshot.row, ← sizes, List.map_inj_left] at row
  exact row x (List.mem_range.mpr right)

theorem mem_picture_goal_iff (proper : board.Proper) :
    'G' ∈ board.picture.toList ↔ board.goal ≠ board.position := by
  rw [picture_toList, mem_intercalate_singleton (by decide)]
  constructor
  · rintro ⟨line, member, shown⟩
    obtain ⟨y, _, rfl⟩ := List.mem_map.mp member
    obtain ⟨x, _, marked⟩ := List.mem_map.mp shown
    exact (proper.mark_eq_goal_iff.mp marked).2
  · intro away
    obtain ⟨x, y, ⟨right, bottom⟩, there⟩ := Cell.inside_iff.mp proper.goal_inside
    have marked := proper.mark_eq_goal_iff.mpr ⟨there.symm, away⟩
    exact ⟨board.row y, List.mem_map_of_mem (List.mem_range.mpr bottom),
      List.mem_map.mpr ⟨x, List.mem_range.mpr right, marked⟩⟩

/-- Boards that look alike are alike in all but the counter and the limit. -/
theorem eq_of_lines (proper : board.Proper) (otherProper : other.Proper) (same : board.lines = other.lines) :
    board.size = other.size ∧ board.position = other.position ∧ board.facing = other.facing ∧
      board.obstacles = other.obstacles ∧ board.goal = other.goal := by
  have sizes : board.size = other.size := by
    have lengths : board.size.toNat = other.size.toNat := by simpa [lines] using congrArg List.length same
    have positive := proper.positive
    omega
  have marks {cell : Cell} (inside : cell.Inside board.size) : board.mark cell = other.mark cell :=
    mark_eq_of_lines same inside
  obtain ⟨positions, facings⟩ : board.position = other.position ∧ other.facing = board.facing := by
    rw [← mark_eq_arrow_iff, ← marks proper.position_inside, mark_eq_arrow_iff]
    exact ⟨rfl, rfl⟩
  have obstacles : board.obstacles = other.obstacles := by
    refine proper.ordered.eq_of_mem_iff otherProper.ordered fun cell => ?_
    by_cases inside : cell.Inside board.size
    · rw [← proper.mark_eq_hash_iff, ← otherProper.mark_eq_hash_iff, marks inside]
    · exact iff_of_false (fun member => inside (proper.obstacles_inside cell member))
        fun member => inside (sizes ▸ otherProper.obstacles_inside cell member)
  refine ⟨sizes, positions, facings.symm, obstacles, ?_⟩
  -- a goal that is not shown is under the agent, on both boards
  by_cases reached : board.goal = board.position
  · by_contra apart
    have shown : other.goal ≠ other.position := by rw [← positions, ← reached]; exact Ne.symm apart
    have goalMark := otherProper.mark_eq_goal_iff.mpr ⟨rfl, shown⟩
    rw [← marks (sizes ▸ otherProper.goal_inside), proper.mark_eq_goal_iff] at goalMark
    exact goalMark.2 reached
  · have goalMark := proper.mark_eq_goal_iff.mpr ⟨rfl, reached⟩
    rw [marks proper.goal_inside, otherProper.mark_eq_goal_iff] at goalMark
    exact goalMark.1

theorem picture_congr (sizes : board.size = other.size) (positions : board.position = other.position)
    (facings : board.facing = other.facing) (obstacles : board.obstacles = other.obstacles)
    (goals : board.goal = other.goal) : board.picture = other.picture := by
  have marks : board.mark = other.mark := by
    funext cell
    rw [mark, mark, positions, facings, obstacles, goals]
  simp only [picture, row, sizes, marks]

end Snapshot

/-- A picture tells the board: its size, the pose and the obstacles, and the goal too, which is where the
agent is if it is not to be seen. -/
theorem picture_eq_iff (puzzle other : Puzzle) (deeds others : List Deed) :
    let first := ((World.ofPuzzle puzzle).performAll deeds).snapshot
    let second := ((World.ofPuzzle other).performAll others).snapshot
    (first.picture = second.picture ↔
      first.size = second.size ∧ first.position = second.position ∧ first.facing = second.facing ∧
        first.obstacles = second.obstacles ∧ first.goal = second.goal) ∧
      ('G' ∉ first.picture.toList ↔ first.goal = first.position) := by
  intro first second
  have proper : first.Proper := Snapshot.proper_of_deeds puzzle deeds
  have otherProper : second.Proper := Snapshot.proper_of_deeds other others
  refine ⟨⟨fun same => ?_, fun ⟨sizes, positions, facings, obstacles, goals⟩ => ?_⟩, ?_⟩
  · refine Snapshot.eq_of_lines proper otherProper ?_
    rw [← Snapshot.splitOn_picture proper.positive, ← Snapshot.splitOn_picture otherProper.positive, same]
  · exact Snapshot.picture_congr sizes positions facings obstacles goals
  · rw [Snapshot.mem_picture_goal_iff proper, not_ne_iff]

end BlockMaze
