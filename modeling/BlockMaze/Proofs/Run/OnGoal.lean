import BlockMaze.Proofs.Run.Shared

/-! Winning is standing on the goal. A run on a puzzle whose start is not its goal is told to be won as soon
as the agent is on the goal, and never otherwise: not by a limit met on the same command, nor by an abort. -/
namespace BlockMaze

theorem World.atGoal_apply_iff {world : World} (off : world.atGoal = false) (command : Command) :
    (world.apply command).2.atGoal = true ↔ (world.apply command).1 = .won := by
  refine ⟨fun there => ?_, atGoal_of_apply_won⟩
  cases command with
  | turn side => cases off.symm.trans there
  | forward =>
    change world.tryMove.2.atGoal = true at there
    change world.tryMove.1 = .won
    cases obstacle : world.isObstacle world.target with
    | true =>
      rw [tryMove_of_blocked obstacle] at there
      cases off.symm.trans there
    | false =>
      rw [tryMove_of_not_blocked obstacle] at there ⊢
      exact if_pos there

namespace Engine

/-- A run on a puzzle has no outcome as long as it goes on, and it was won exactly if the agent is on the
goal. -/
structure Truthful (puzzle : Puzzle) (engine : Engine) : Prop where
  puzzle_eq : engine.world.puzzle = puzzle
  undecided : engine.run.running = true → engine.run.outcome = none
  won_iff : engine.run.outcome = some .won ↔ engine.world.atGoal = true

namespace Truthful
variable {puzzle : Puzzle} {engine : Engine}

theorem off_goal (truthful : Truthful puzzle engine) (running : engine.run.running = true) :
    engine.world.atGoal = false := by
  have unwon : engine.run.outcome ≠ some .won := by simp [truthful.undecided running]
  exact Bool.eq_false_iff.mpr fun there => unwon (truthful.won_iff.mpr there)

theorem won_iff_position (truthful : Truthful puzzle engine) :
    engine.run.outcome = some .won ↔ engine.world.position = puzzle.goal := by
  rw [truthful.won_iff, World.atGoal, truthful.puzzle_eq, decide_eq_true_iff]

theorem position_ne (truthful : Truthful puzzle engine) (running : engine.run.running = true) :
    engine.world.position ≠ puzzle.goal := by
  simp [← truthful.won_iff_position, truthful.undecided running]

theorem start {world : World} (apart : world.puzzle.start ≠ world.puzzle.goal) (run : Run) :
    Truthful world.puzzle (Engine.mk world.restart run).start where
  puzzle_eq := rfl
  undecided _ := rfl
  won_iff := by simp [Engine.start, Run.start, World.restart, World.ofPuzzle, World.atGoal, apart]

theorem lost (same : engine.world.puzzle = puzzle) (off : engine.world.atGoal = false)
    (reason : Option Reason) : Truthful puzzle (engine.ended .lost reason) where
  puzzle_eq := same
  undecided := nofun
  won_iff := by simp [ended, off]

theorem obeyed (truthful : Truthful puzzle engine) (running : engine.run.running = true)
    (command : Command) :
    Truthful puzzle ((engine.obeyed command).settled (engine.world.apply command).1).value := by
  have step := World.atGoal_apply_iff (truthful.off_goal running) command
  have same : (engine.obeyed command).world.puzzle = puzzle :=
    (World.apply_puzzle _ command).trans truthful.puzzle_eq
  by_cases won : (engine.world.apply command).1 = .won
  · rw [settled_of_won won]
    exact ⟨same, nofun, iff_of_true rfl (step.mpr won)⟩
  · have off : (engine.obeyed command).world.atGoal = false :=
      Bool.eq_false_iff.mpr fun there => won (step.mp there)
    by_cases limited : (engine.obeyed command).world.puzzle.moveLimit ≤ (engine.obeyed command).world.moves
    · rw [settled_of_limit won limited]
      exact lost same off _
    · rw [settled_of_below won limited]
      have open_end : (engine.obeyed command).run.outcome = none := truthful.undecided running
      exact ⟨same, fun _ => open_end, by simp [open_end, off]⟩

theorem next (truthful : Truthful puzzle engine) (walk : Walk) :
    Truthful puzzle (engine.next walk).value.1 := by
  rcases next_idle_or_advance engine walk with idle | ⟨running, stack, advance⟩
  · rw [idle]
    exact truthful
  · have off := truthful.off_goal running
    generalize engine.next walk = told at advance
    cases advance with
    | commandLimit | passLimit | away => exact lost truthful.puzzle_eq off _
    | arrived found there => cases off.symm.trans there
    | obeyed command => exact truthful.obeyed running command

theorem abort (truthful : Truthful puzzle engine) : Truthful puzzle engine.abort.value := by
  cases running : engine.run.running with
  | false =>
    rw [Engine.abort, finish_of_stopped running]
    exact truthful
  | true =>
    rw [Engine.abort, finish_lost running]
    exact lost truthful.puzzle_eq (truthful.off_goal running) _

theorem grantAll {shared : Shared} (truthful : Truthful puzzle shared.engine) {requests : List Request}
    (own : ∀ request ∈ requests, request = .abort ∨ ∃ which, request = .next which) :
    Truthful puzzle (shared.grantAll requests).value.engine := by
  induction requests generalizing shared with
  | nil => exact truthful
  | cons request requests ih =>
    refine ih ?_ fun later member => own later (List.mem_cons_of_mem _ member)
    rcases own request List.mem_cons_self with rfl | ⟨which, rfl⟩
    · exact truthful.abort
    · simp only [Shared.grant]
      split
      · exact truthful
      · rename_i walk _
        exact truthful.next walk

end Truthful

/-- On a puzzle whose start is not its goal, let a run begin at the start, be continued by any walks in any
order, and be aborted at any point. As long as it goes on, the agent is off the goal. Once it is over, it was
won exactly if the agent is on the goal. Left alone, every run comes to such an end. -/
theorem won_iff_on_goal {world : World} (apart : world.puzzle.start ≠ world.puzzle.goal) (forest : Forest)
    (run : Run) (walks : List Walk) {requests : List Request}
    (own : ∀ request ∈ requests, request = .abort ∨ ∃ which, request = .next which) :
    let begun := ((Shared.mk forest ⟨world.restart, run⟩ walks).grant .execute).value
    let reached := (begun.grantAll requests).value.engine
    let ended := ((Engine.mk world.restart run).runToEnd forest).value
    (reached.run.running = true → reached.world.position ≠ world.puzzle.goal) ∧
    (reached.run.running = false →
      (reached.run.outcome = some .won ↔ reached.world.position = world.puzzle.goal)) ∧
    ended.run.running = false ∧
    (ended.run.outcome = some .won ↔ ended.world.position = world.puzzle.goal) := by
  intro begun reached ended
  have first : Truthful world.puzzle begun.engine := .start apart run
  have truthful : Truthful world.puzzle reached := first.grantAll own
  refine ⟨truthful.position_ne, fun _ => truthful.won_iff_position, ?_⟩
  obtain ⟨count, value, stopped⟩ := exists_runToEnd_value (Engine.mk world.restart run) forest
  have last : Truthful world.puzzle ended := by
    change Truthful world.puzzle ((Engine.mk world.restart run).runToEnd forest).value
    rw [value]
    exact after_keeps (Truthful world.puzzle) (consistent_start _ forest) first
      (fun _ before => before.next _) count
  exact ⟨stopped, last.won_iff_position⟩

end Engine

/-- In the corridor an abort between the turn and the step leaves the agent at the start, and the walk that
is then taken up again does not win any more. -/
theorem won_iff_on_goal_corridor :
    let world := World.ofPuzzle corridor
    let forest : Forest := .command 1 (.turn .left) (.command 2 .forward .empty)
    let begun := ((Engine.Shared.mk forest ⟨world.restart, {}⟩ []).grant .execute).value
    let reached := (begun.grantAll [.next 0, .abort, .next 0]).value.engine
    let ended := ((Engine.mk world.restart {}).runToEnd forest).value
    corridor.start ≠ corridor.goal ∧ reached.run.running = false ∧
      reached.world.position ≠ corridor.goal ∧ ended.run.outcome = some .won ∧
      ended.world.position = corridor.goal := by
  intro world forest begun reached ended
  have apart : world.puzzle.start ≠ world.puzzle.goal := by decide
  have own : ∀ request ∈ [.next 0, .abort, .next 0],
      request = Engine.Request.abort ∨ ∃ which, request = .next which := by simp
  obtain ⟨-, decided, -, arrived⟩ := Engine.won_iff_on_goal apart forest {} [] own
  have stopped : reached.run.running = false := by decide +kernel
  have lost : reached.run.outcome = some .lost := by decide +kernel
  have won : ended.run.outcome = some .won := by decide +kernel
  refine ⟨apart, stopped, fun there => ?_, won, arrived.mp won⟩
  cases lost.symm.trans ((decided stopped).mpr there)

end BlockMaze
