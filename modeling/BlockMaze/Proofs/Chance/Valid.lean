import BlockMaze.Proofs.Chance.Faults

/-! Every puzzle that is rolled is a valid one, and the settings are refused exactly if they leave no room for a
layout. -/
namespace BlockMaze.Roll
variable {σ : Type} [RandomSource σ]

/-- A layout of distinct cells of the board. -/
def Room (size count : Int) : Prop :=
  ∃ start goal : Cell, ∃ obstacles : Finset Cell, start ≠ goal ∧ start.Inside size ∧ goal.Inside size ∧
    (∀ cell ∈ obstacles, cell.Inside size) ∧ start ∉ obstacles ∧ goal ∉ obstacles ∧ (obstacles.card : Int) = count

theorem fits_eq_true_iff {settings : RollSettings} : fits settings = true ↔
    0 ≤ settings.obstacleCount ∧ settings.obstacleCount ≤ settings.size * settings.size - 2 := by
  simp [fits]

theorem two_le_of_fits {settings : RollSettings} (nonneg : 0 ≤ settings.size) (fits : fits settings = true) :
    2 ≤ settings.size := by
  obtain ⟨low, high⟩ := fits_eq_true_iff.mp fits
  by_contra small
  obtain none_left | one : settings.size = 0 ∨ settings.size = 1 := by omega
  · rw [none_left] at high
    omega
  · rw [one] at high
    omega

theorem room_of_fits {settings : RollSettings} (nonneg : 0 ≤ settings.size) (fits : fits settings = true) :
    Room settings.size settings.obstacleCount := by
  have enough := two_le_of_fits nonneg fits
  obtain ⟨low, high⟩ := fits_eq_true_iff.mp fits
  let start : Cell := ⟨0, 0⟩
  let goal : Cell := ⟨1, 0⟩
  have apart : start ≠ goal := by decide
  have start_inside : start.Inside settings.size := by
    simp only [Cell.Inside, start]
    omega
  have goal_inside : goal.Inside settings.size := by
    simp only [Cell.Inside, goal]
    omega
  have taken : {start, goal} ⊆ Cell.board settings.size := by
    simp [Finset.insert_subset_iff, Cell.mem_board, start_inside, goal_inside]
  have cells := Cell.card_board_of_nonneg nonneg
  have left : settings.obstacleCount.toNat ≤ (Cell.board settings.size \ {start, goal}).card := by
    rw [Finset.card_sdiff_of_subset taken, Finset.card_pair apart]
    omega
  obtain ⟨obstacles, among, counted⟩ := Finset.exists_subset_card_eq left
  refine ⟨start, goal, obstacles, apart, start_inside, goal_inside, fun cell member => ?_, fun member => ?_,
    fun member => ?_, by omega⟩
  · exact Cell.mem_board.mp (Finset.mem_sdiff.mp (among member)).1
  · exact (Finset.mem_sdiff.mp (among member)).2 (Finset.mem_insert_self _ _)
  · exact (Finset.mem_sdiff.mp (among member)).2 (Finset.mem_insert_of_mem (Finset.mem_singleton_self _))

theorem fits_of_room {settings : RollSettings} (nonneg : 0 ≤ settings.size)
    (room : Room settings.size settings.obstacleCount) : fits settings = true := by
  obtain ⟨start, goal, obstacles, apart, start_inside, goal_inside, inside, start_free, goal_free, counted⟩ := room
  have cells := Cell.card_board_of_nonneg nonneg
  have taken : insert start (insert goal obstacles) ⊆ Cell.board settings.size := by
    simp only [Finset.insert_subset_iff, Cell.mem_board]
    exact ⟨start_inside, goal_inside, fun cell member => Cell.mem_board.mpr (inside cell member)⟩
  have few := Finset.card_le_card taken
  rw [Finset.card_insert_of_notMem (by simp [apart, start_free]), Finset.card_insert_of_notMem goal_free] at few
  exact fits_eq_true_iff.mpr ⟨by omega, by omega⟩

/-- What the settings promise of a puzzle and of the agent at its start. -/
structure Valid (settings : RollSettings) (facing : Facing) (puzzle : Puzzle) : Prop where
  start_inside : puzzle.start.Inside settings.size
  goal_inside : puzzle.goal.Inside settings.size
  obstacles_inside : ∀ cell ∈ puzzle.obstacles, cell.Inside settings.size
  apart : puzzle.start ≠ puzzle.goal
  distinct : puzzle.obstacles.Nodup
  counted : (puzzle.obstacles.length : Int) = settings.obstacleCount
  start_free : puzzle.start ∉ puzzle.obstacles
  goal_free : puzzle.goal ∉ puzzle.obstacles
  solvable : (World.ofPuzzle puzzle).solvable = true
  pose : (World.ofPuzzle puzzle).pose = ⟨puzzle.start, facing, 0⟩
  facing : puzzle.facing = facing
  size : puzzle.size = settings.size
  moveLimit : puzzle.moveLimit = settings.moveLimit

theorem valid_of_puzzle {settings : RollSettings} {facing : Facing}
    (known : Facing.ofDatum settings.facing = .ok facing) {source : σ} {puzzle : Puzzle}
    (ok : (Roll.puzzle settings source).value.1 = .ok puzzle) : Valid settings facing puzzle := by
  obtain ⟨fits, _, layout, looking, drawn, -, made⟩ := exists_layout_of_puzzle ok
  obtain ⟨size, moveLimit, -, route⟩ := puzzle_ok ok
  obtain ⟨apart, enough, most, ordered⟩ := layout_ok drawn
  obtain ⟨start, goal, obstacles, -, -, named⟩ := Layout.draft_ok ordered made
  cases known.symm.trans named
  exact {
    start_inside := size ▸ puzzle.start_inside
    goal_inside := size ▸ puzzle.goal_inside
    obstacles_inside := size ▸ puzzle.obstacles_inside
    apart := by
      rw [start, goal]
      exact apart.symm
    distinct := puzzle.ordered.nodup
    counted := by
      rw [obstacles]
      exact (most (fits_eq_true_iff.mp fits).1).antisymm enough
    start_free := puzzle.start_free
    goal_free := puzzle.goal_free
    solvable := World.solvable_iff_route.mpr route
    pose := rfl
    facing := rfl
    size, moveLimit }

/-- A roll gives a valid puzzle or none. On a board of no negative size it fails for want of a solvable layout or
of a number only, unless there is no room for a layout: then the settings are refused. -/
theorem valid_or_refused {good : σ → Prop} (bounded : Bounded good) {source : σ} (ready : good source)
    (settings : RollSettings) {facing : Facing} (known : Facing.ofDatum settings.facing = .ok facing) :
    let result := (Roll.puzzle settings source).value.1
    (∀ puzzle, result = .ok puzzle → Valid settings facing puzzle) ∧
    (0 ≤ settings.size →
      (∀ fault, result = .error fault → fault = .noPuzzle settings.attempts ∨ fault = .draw .endless ∨
        fault = .doesNotFit settings.obstacleCount settings.size) ∧
      (result = .error (.doesNotFit settings.obstacleCount settings.size) ↔
        ¬ Room settings.size settings.obstacleCount)) := by
  intro result
  refine ⟨fun puzzle ok => valid_of_puzzle known ok, fun nonneg => ?_⟩
  have ensured := (puzzle_ensures bounded settings known source ready).2
  by_cases fits : fits settings = true
  · have positive : 0 < settings.size := by
      have enough := two_le_of_fits nonneg fits
      omega
    have possible (fault : RollFault) (failed : result = .error fault) :
        fault = .noPuzzle settings.attempts ∨ fault = .draw .endless := by
      rw [show (puzzle settings source).value.1 = _ from failed] at ensured
      simp only [if_pos fits, Endless] at ensured
      exact ensured.imp_right fun endless => endless positive
    refine ⟨fun fault failed => (possible fault failed).imp_right .inl, fun refused => ?_, fun crowded => ?_⟩
    · rcases possible _ refused with other | other <;> cases other
    · exact absurd (room_of_fits nonneg fits) crowded
  · have refused : result = .error (.doesNotFit settings.obstacleCount settings.size) := by
      simp only [result, puzzle, if_neg fits]
      rfl
    refine ⟨fun fault failed => ?_, fun _ room => fits (fits_of_room nonneg room), fun _ => refused⟩
    cases refused.symm.trans failed
    exact .inr (.inr rfl)

/-- A twister whose words give the cells (1, 1), once more (1, 1), (0, 1) and (1, 0) of a board of size two. -/
def nookDice : Dice := .twister ⟨#[32768, 32768, 32768, 65536, 32768, 0, 32768, 32768, 0], 0⟩

def nookSettings : RollSettings := { size := 2, obstacleCount := 1, attempts := 1, facing := .whole 2 }

def nook : Puzzle where
  start := ⟨1, 1⟩
  goal := ⟨0, 1⟩
  obstacles := [⟨1, 0⟩]
  facing := .down
  size := 2
  moveLimit := 20
  start_inside := by decide
  goal_inside := by decide
  obstacles_inside := by decide
  start_free := by decide
  goal_free := by decide
  ordered := List.pairwise_singleton _ _

theorem nook_rolled : (Roll.puzzle nookSettings nookDice).value.1 = .ok nook := by
  decide +kernel

theorem valid_or_refused_nook :
    (∃ state, nookDice = .twister state) ∧ Facing.ofDatum nookSettings.facing = .ok .down ∧
    (Roll.puzzle nookSettings nookDice).value.1 = .ok nook ∧ Valid nookSettings .down nook ∧
    Room nookSettings.size nookSettings.obstacleCount := by
  have ready : ∃ state, nookDice = .twister state := ⟨_, rfl⟩
  have known : Facing.ofDatum nookSettings.facing = .ok .down := rfl
  have valid := valid_or_refused reliable_twister.bounded ready nookSettings known
  refine ⟨ready, known, nook_rolled, valid.1 nook nook_rolled, ?_⟩
  by_contra crowded
  cases ((valid.2 (by decide)).2.mpr crowded).symm.trans nook_rolled

end BlockMaze.Roll
