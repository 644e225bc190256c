import BlockMaze.Chance.Dice
import BlockMaze.Chance.Roll
import BlockMaze.Proofs.Report.Act
import BlockMaze.Proofs.Run.Solvable

/-! Which rolled puzzles can be won. Rolling checks that some route leads to the goal; a run needs one
within the move limit. On boards of the usual size the two differ. -/
namespace BlockMaze

theorem Cell.arrange_of_ordered {cells : List Cell} (ordered : cells.Pairwise Cell.Before) :
    Cell.arrange cells = cells := by
  induction cells with
  | nil => rfl
  | cons first rest ih =>
    obtain ⟨above, tail⟩ := List.pairwise_cons.mp ordered
    change Cell.place first (Cell.arrange rest) = _
    rw [ih tail]
    cases rest with
    | nil => rfl
    | cons second rest => rw [Cell.place, if_pos (above second List.mem_cons_self)]

theorem Cell.length_place_le (cell : Cell) (cells : List Cell) :
    (Cell.place cell cells).length ≤ cells.length + 1 := by
  induction cells with
  | nil => exact le_rfl
  | cons first rest ih =>
    rw [Cell.place]
    split
    · exact le_rfl
    · split
      · exact Nat.le_succ _
      · exact Nat.succ_le_succ ih

/-- Every obstacle takes a cell away, so that a route needs no more steps than the cells that are left,
without the start. -/
theorem Puzzle.exists_short_route {puzzle : Puzzle} {steps : Nat}
    (route : Route puzzle.isOpen puzzle.start puzzle.goal steps) :
    ∃ fewer : Nat, (fewer : Int) < puzzle.size * puzzle.size - puzzle.obstacles.length ∧
      Route puzzle.isOpen puzzle.start puzzle.goal fewer := by
  have obstacles_in : puzzle.obstacles.toFinset ⊆ Cell.board puzzle.size := by
    intro cell member
    exact Cell.mem_board.mpr (puzzle.obstacles_inside cell (List.mem_toFinset.mp member))
  have counted : puzzle.obstacles.toFinset.card = puzzle.obstacles.length :=
    List.toFinset_card_of_nodup puzzle.ordered.nodup
  let left := Cell.board puzzle.size \ puzzle.obstacles.toFinset
  have from_start : puzzle.start ∈ left := by
    simp [left, Cell.mem_board, puzzle.start_inside, puzzle.start_free]
  have inside : ∀ cell, puzzle.isOpen cell = true → cell ∈ left := by
    intro cell free
    obtain ⟨inside, clear⟩ := openCell_eq_true_iff.mp free
    simp [left, Cell.mem_board, inside, clear]
  obtain ⟨fewer, few, short⟩ := route.shorten from_start inside
  refine ⟨fewer, ?_, short⟩
  rw [Finset.card_sdiff_of_subset obstacles_in, counted] at few
  have cells := puzzle.card_board
  omega

def Layout.draft (layout : Layout) (settings : RollSettings) : Draft where
  start := layout.start
  goal := layout.goal
  obstacles := layout.obstacles
  facing := settings.facing
  size := settings.size
  moveLimit := settings.moveLimit

theorem Layout.draft_ok {layout : Layout} {settings : RollSettings} {puzzle : Puzzle}
    (ordered : layout.obstacles.Pairwise Cell.Before) (made : Puzzle.ofDraft (layout.draft settings) = .ok puzzle) :
    puzzle.start = layout.start ∧ puzzle.goal = layout.goal ∧ puzzle.obstacles = layout.obstacles ∧
      puzzle.size = settings.size ∧ puzzle.moveLimit = settings.moveLimit ∧
      Facing.ofDatum settings.facing = .ok puzzle.facing := by
  obtain ⟨start, goal, arranged, rest⟩ := Puzzle.ofDraft_ok made
  exact ⟨start, goal, arranged.trans (Cell.arrange_of_ordered ordered), rest⟩

namespace Roll
variable {σ : Type}

theorem ok_of_lift {ε α : Type} {wrong : ε → RollFault} {given : Except ε α} {value : α} {source : σ}
    (ok : (lift wrong given source).value.1 = .ok value) : given = .ok value := by
  cases given <;> cases ok
  rfl

variable [RandomSource σ]

structure Rolled (settings : RollSettings) (puzzle : Puzzle) : Prop where
  size : puzzle.size = settings.size
  moveLimit : puzzle.moveLimit = settings.moveLimit
  enough : settings.obstacleCount ≤ puzzle.obstacles.length
  route : ∃ steps, Route puzzle.isOpen puzzle.start puzzle.goal steps

theorem goal_ok {size : Int} {start : Cell} {patience : Nat} {drawn : Cell} {source : σ}
    (ok : (goal size start patience source).value.1 = .ok drawn) : drawn ≠ start := by
  induction patience generalizing source with
  | zero => cases ok
  | succ patience ih =>
    obtain ⟨cell, _, ok⟩ := Act.ok_of_bind ok
    split at ok
    · exact ih ok
    · cases ok
      assumption

theorem obstacles_ok {size count : Int} {start goal : Cell} {patience : Nat} {placed drawn : List Cell}
    {source : σ} (ordered : placed.Pairwise Cell.Before)
    (ok : (obstacles size count start goal patience placed source).value.1 = .ok drawn) :
    count ≤ drawn.length ∧ (placed.length ≤ count → drawn.length ≤ count) ∧ drawn.Pairwise Cell.Before := by
  induction patience generalizing placed source with
  | zero =>
    unfold obstacles at ok
    split at ok
    · rename_i enough
      cases ok
      exact ⟨enough, id, ordered⟩
    · cases ok
  | succ patience ih =>
    unfold obstacles at ok
    split at ok
    · rename_i enough
      cases ok
      exact ⟨enough, id, ordered⟩
    · rename_i few
      obtain ⟨cell, _, ok⟩ := Act.ok_of_bind ok
      split at ok
      · exact ih ordered ok
      · obtain ⟨enough, most, arranged⟩ := ih (Cell.place_ordered cell ordered) ok
        have one_more := Cell.length_place_le cell placed
        exact ⟨enough, fun _ => most (by omega), arranged⟩

theorem layout_ok {size count : Int} {layout : Layout} {source : σ}
    (ok : (Roll.layout size count source).value.1 = .ok layout) :
    layout.goal ≠ layout.start ∧ count ≤ layout.obstacles.length ∧
      (0 ≤ count → layout.obstacles.length ≤ count) ∧ layout.obstacles.Pairwise Cell.Before := by
  obtain ⟨start, _, ok⟩ := Act.ok_of_bind ok
  obtain ⟨_, _, ok⟩ := Act.ok_of_bind ok
  obtain ⟨goal, apart, ok⟩ := Act.ok_of_bind ok
  obtain ⟨_, _, ok⟩ := Act.ok_of_bind ok
  obtain ⟨placed, drawn, ok⟩ := Act.ok_of_bind ok
  cases ok
  exact ⟨goal_ok apart, obstacles_ok .nil drawn⟩

theorem exists_layout_of_attempts {settings : RollSettings} {attempt left : Nat} {source : σ} {puzzle : Puzzle}
    (ok : (attempts settings attempt left source).value.1 = .ok puzzle) :
    ∃ (earlier : σ) (layout : Layout) (facing : Facing),
      (Roll.layout settings.size settings.obstacleCount earlier).value.1 = .ok layout ∧
      reachable layout.start layout.goal layout.obstacles settings.size facing = true ∧
      Puzzle.ofDraft (layout.draft settings) = .ok puzzle := by
  induction left generalizing attempt source with
  | zero => cases ok
  | succ left ih =>
    obtain ⟨layout, drawn, ok⟩ := Act.ok_of_bind ok
    obtain ⟨facing, _, ok⟩ := Act.ok_of_bind ok
    split at ok
    · rename_i reached
      obtain ⟨_, _, ok⟩ := Act.ok_of_bind ok
      exact ⟨source, layout, facing, drawn, reached, ok_of_lift ok⟩
    · obtain ⟨_, _, ok⟩ := Act.ok_of_bind ok
      exact ih ok

theorem exists_layout_of_puzzle {settings : RollSettings} {source : σ} {puzzle : Puzzle}
    (ok : (Roll.puzzle settings source).value.1 = .ok puzzle) :
    fits settings = true ∧ ∃ (earlier : σ) (layout : Layout) (facing : Facing),
      (Roll.layout settings.size settings.obstacleCount earlier).value.1 = .ok layout ∧
      reachable layout.start layout.goal layout.obstacles settings.size facing = true ∧
      Puzzle.ofDraft (layout.draft settings) = .ok puzzle := by
  unfold Roll.puzzle at ok
  split at ok
  · exact ⟨‹_›, exists_layout_of_attempts ok⟩
  · cases ok

theorem puzzle_ok {settings : RollSettings} {source : σ} {puzzle : Puzzle}
    (ok : (Roll.puzzle settings source).value.1 = .ok puzzle) : Rolled settings puzzle := by
  obtain ⟨-, _, layout, facing, drawn, reached, made⟩ := exists_layout_of_puzzle ok
  obtain ⟨-, enough, -, ordered⟩ := layout_ok drawn
  obtain ⟨start, goal, obstacles, size, limit, -⟩ := Layout.draft_ok ordered made
  refine ⟨size, limit, obstacles ▸ enough, ?_⟩
  rw [Puzzle.isOpen, obstacles, size, start, goal]
  exact reachable_iff_route.mp reached

end Roll

/-- Along a route that the puzzle allows the moves for, a program wins if the limits leave three
commands for each of them. -/
theorem exists_won_of_route {puzzle : Puzzle} {run : Run} {steps : Nat}
    (route : Route puzzle.isOpen puzzle.start puzzle.goal steps)
    (within : (steps : Int) ≤ puzzle.moveLimit) (affordable : 3 * steps ≤ run.limits.commands) :
    ∃ forest, ((Engine.mk (.ofPuzzle puzzle) run).runToEnd forest).value.run.outcome = some .won := by
  let world : World := .ofPuzzle puzzle
  have enough : (world.moves + steps : Int) ≤ world.puzzle.moveLimit := by
    simpa [world, World.ofPuzzle] using within
  obtain ⟨commands, counted, wins⟩ := world.exists_wins route rfl enough
  have restarted : world.restart.Wins commands := wins
  exact ⟨.ofCommands commands, Engine.runToEnd_ofCommands_won restarted run (by omega)⟩

theorem exists_route_of_won {puzzle : Puzzle} {run : Run} {forest : Forest}
    (some_move : 1 ≤ puzzle.moveLimit)
    (won : ((Engine.mk (.ofPuzzle puzzle) run).runToEnd forest).value.run.outcome = some .won) :
    ∃ steps : Nat, (steps : Int) ≤ puzzle.moveLimit ∧
      Route puzzle.isOpen puzzle.start puzzle.goal steps := by
  let engine : Engine := ⟨.ofPuzzle puzzle, run⟩
  have restarted : ((Engine.mk (World.ofPuzzle puzzle).restart run).runToEnd
      forest).value.run.outcome = some .won := won
  obtain ⟨steps, counted, route⟩ := Engine.route_of_won restarted
  obtain ⟨count, value, _⟩ := engine.exists_runToEnd_value forest
  have frugal : engine.start.Frugal := Engine.frugal_start rfl some_move
  have moves := frugal.moves_after_le (Engine.consistent_start engine forest) count
  rw [← value] at moves
  exact ⟨steps, le_trans (Int.ofNat_le.mpr counted) moves, route⟩

/-- A puzzle rolled with the usual settings is won by some program under the usual limits exactly if
a route of at most twenty steps leads to the goal. With a move for every free cell but the start, which
are twenty-five, it is always won by some program. -/
theorem rolled_won_iff_route {σ : Type} [RandomSource σ] (source : σ) (puzzle : Puzzle)
    (rolled : (Roll.puzzle {} source).value.1 = .ok puzzle) :
    ((∃ forest, ((Engine.mk (.ofPuzzle puzzle) {}).runToEnd forest).value.run.outcome = some .won) ↔
      ∃ steps ≤ 20, Route puzzle.isOpen puzzle.start puzzle.goal steps) ∧
    ∀ limit : Int, 25 ≤ limit → ∃ forest, ((Engine.mk (.ofPuzzle { puzzle with moveLimit := limit })
      {}).runToEnd forest).value.run.outcome = some .won := by
  obtain ⟨size, moveLimit, enough, steps, route⟩ := Roll.puzzle_ok rolled
  simp only at size moveLimit enough
  refine ⟨⟨?_, ?_⟩, ?_⟩
  · rintro ⟨forest, won⟩
    obtain ⟨steps, within, route⟩ := exists_route_of_won (by omega) won
    exact ⟨steps, by omega, route⟩
  · rintro ⟨steps, within, route⟩
    exact exists_won_of_route route (by omega) (by simp only; omega)
  · intro limit allowed
    obtain ⟨fewer, few, short⟩ := puzzle.exists_short_route route
    rw [size] at few
    let roomy : Puzzle := { puzzle with moveLimit := limit }
    have same : Route roomy.isOpen roomy.start roomy.goal fewer := short
    have enough : (fewer : Int) ≤ roomy.moveLimit := by simp only [roomy]; omega
    exact exists_won_of_route same enough (by simp only; omega)

/-- A puzzle that winds: its obstacles leave no way of fewer than twenty-three steps. -/
def winding : Puzzle where
  start := ⟨0, 1⟩
  goal := ⟨3, 3⟩
  obstacles := [⟨0, 2⟩, ⟨1, 1⟩, ⟨1, 4⟩, ⟨2, 1⟩, ⟨2, 3⟩, ⟨3, 1⟩, ⟨3, 4⟩, ⟨4, 2⟩, ⟨4, 3⟩, ⟨5, 0⟩]
  facing := .right
  size := 6
  moveLimit := 20
  start_inside := by decide
  goal_inside := by decide
  obstacles_inside := by decide
  start_free := by decide
  goal_free := by decide
  ordered := by decide

def windingNumbers : List Int :=
  [0, 1, 3, 3, 5, 0, 1, 1, 2, 1, 3, 1, 0, 2, 4, 2, 2, 3, 4, 3, 1, 4, 3, 4]

set_option maxRecDepth 10000 in
theorem winding_rolled : (Roll.puzzle {} (Dice.script windingNumbers)).value.1 = .ok winding := by
  decide +kernel

theorem rolled_won_iff_route_winding :
    (Roll.puzzle {} (Dice.script windingNumbers)).value.1 = .ok winding ∧
    ((∃ forest, ((Engine.mk (.ofPuzzle winding) {}).runToEnd forest).value.run.outcome = some .won) ↔
      ∃ steps ≤ 20, Route winding.isOpen winding.start winding.goal steps) ∧
    ∀ limit : Int, 25 ≤ limit → ∃ forest, ((Engine.mk (.ofPuzzle { winding with moveLimit := limit })
      {}).runToEnd forest).value.run.outcome = some .won :=
  ⟨winding_rolled, rolled_won_iff_route _ winding winding_rolled⟩

/-- How many steps the free cells are away from the start, row by row. -/
def windingHeights : List (List Nat) :=
  [[1, 2, 3, 4, 5, 0],
   [0, 0, 0, 0, 6, 7],
   [0, 20, 21, 22, 0, 8],
   [18, 19, 0, 23, 0, 9],
   [17, 0, 15, 0, 11, 10],
   [16, 15, 14, 13, 12, 11]]

def windingHeight (cell : Cell) : Nat :=
  ((windingHeights[cell.y.toNat]?).getD [])[cell.x.toNat]?.getD 0

theorem winding_rises (facing : Facing) : ∀ cell ∈ Cell.board 6, winding.isOpen cell = true →
    winding.isOpen (cell.ahead facing) = true →
      windingHeight (cell.ahead facing) ≤ windingHeight cell + 1 := by
  cases facing <;> decide +kernel

/-- Numbers within the bound asked for can roll a puzzle that no program wins: the search finds a way
of twenty-three steps, and the puzzle allows twenty moves. -/
theorem winding_never_won : (∀ number ∈ windingNumbers, 0 ≤ number ∧ number < 6) ∧
    (Roll.puzzle {} (Dice.script windingNumbers)).value.1 = .ok winding ∧
    ∀ forest, ((Engine.mk (.ofPuzzle winding) {}).runToEnd forest).value.run.outcome ≠ some .won := by
  refine ⟨by decide, winding_rolled, fun forest won => ?_⟩
  -- every step climbs by one at most, and the goal lies twenty-three above the start
  obtain ⟨steps, within, route⟩ := exists_route_of_won (by decide) won
  have climbed := route.height_le windingHeight
    (fun cell facing here => winding_rises facing cell (winding.isOpen_inside here) here) (by decide)
  have top : windingHeight winding.goal = 23 := by decide
  have bottom : windingHeight winding.start = 0 := by decide
  have limit : winding.moveLimit = 20 := rfl
  omega

end BlockMaze
