import BlockMaze.Proofs.Run.Course

/-! Runs end. The search for the next command unwinds a stack whose weight bounds its work, a run
yields no more commands than its budget, and no run makes more moves than its puzzle allows. -/
namespace BlockMaze

namespace Engine

/-- The unwinding of a stack to what it leads to, in a number of steps of control. -/
inductive Unwinds (engine : Engine) : Stack → Nat → Found → Prop
  | found {stack : Stack} {result : Found} (step : engine.unwind stack = .found result) :
      Unwinds engine stack 0 result
  | onto {stack next : Stack} {steps : Nat} {result : Found} (step : engine.unwind stack = .onto next)
      (rest : Unwinds engine next steps result) : Unwinds engine stack (steps + 1) result

/-- However blocks are nested and whatever bodies are empty, the search for the next command takes no
more steps than the stack weighs. -/
theorem exists_unwinds (engine : Engine) (stack : Stack) :
    ∃ steps ≤ stack.weight engine.run.limits.passes.toNat,
      Unwinds engine stack steps (engine.seek stack) := by
  rw [seek]
  split
  · rename_i next step
    have lighter := unwind_weight step
    obtain ⟨steps, bounded, rest⟩ := exists_unwinds engine next
    exact ⟨steps + 1, by omega, .onto step rest⟩
  · rename_i result step
    exact ⟨0, Nat.zero_le _, .found step⟩
  termination_by stack.weight engine.run.limits.passes.toNat
  decreasing_by exact unwind_weight ‹_›

theorem seek_of_onto {engine : Engine} {stack next : Stack} (step : engine.unwind stack = .onto next) :
    engine.seek stack = engine.seek next := by
  rw [seek]
  split
  · rename_i other same
    cases step.symm.trans same
    rfl
  · rename_i found same
    cases step.symm.trans same

theorem seek_of_found {engine : Engine} {stack : Stack} {result : Found}
    (step : engine.unwind stack = .found result) : engine.seek stack = result := by
  rw [seek]
  split
  · rename_i next same
    cases step.symm.trans same
  · rename_i found same
    cases step.symm.trans same
    rfl

/-- The moves made are within the limit, and below it as long as the run goes on. -/
structure Frugal (engine : Engine) : Prop where
  within : (engine.world.moves : Int) ≤ engine.world.puzzle.moveLimit
  below : engine.run.running = true → (engine.world.moves : Int) < engine.world.puzzle.moveLimit

theorem frugal_settled {engine : Engine} (within : (engine.world.moves : Int) ≤ engine.world.puzzle.moveLimit)
    (result : StepResult) : Frugal (engine.settled result).value := by
  refine ⟨by rw [settled_world]; exact within, ?_⟩
  by_cases won : result = .won
  · rw [settled_of_won won]
    exact fun running => absurd running (by simp [ended])
  · by_cases limited : engine.world.puzzle.moveLimit ≤ engine.world.moves
    · rw [settled_of_limit won limited]
      exact fun running => absurd running (by simp [ended])
    · rw [settled_of_below won limited]
      exact fun _ => Int.not_le.mp limited

theorem Frugal.next {engine : Engine} {walk : Walk} (consistent : Consistent engine walk)
    (frugal : Frugal engine) : Frugal (engine.next walk).value.1 := by
  rcases next_cases consistent with ⟨_, stopped, world, _, _⟩ | ⟨command, running, _, _, same⟩
  · refine ⟨by rw [world]; exact frugal.within, fun running => ?_⟩
    rw [stopped] at running
    cases running
  · rw [same]
    refine frugal_settled ?_ _
    have step := World.apply_moves_le engine.world command
    have below := frugal.below running
    change ((engine.world.apply command).2.moves : Int) ≤ (engine.world.apply command).2.puzzle.moveLimit
    rw [World.apply_puzzle]
    omega

theorem Frugal.moves_after_le {engine : Engine} {walk : Walk} (frugal : Frugal engine)
    (consistent : Consistent engine walk) (count : Nat) :
    ((engine.after walk count).1.world.moves : Int) ≤ engine.world.puzzle.moveLimit := by
  have later := (after_keeps Frugal consistent frugal Frugal.next count).within
  rwa [puzzle_after consistent count] at later

theorem frugal_start {engine : Engine} (unmoved : engine.world.moves = 0)
    (allowed : 1 ≤ engine.world.puzzle.moveLimit) : Frugal engine.start := by
  refine ⟨?_, fun _ => ?_⟩ <;> simp only [start, unmoved] <;> omega

/-- A run of any program under any limits yields at most its budget of commands and then is over, won
or lost, with as many commands counted as were yielded. Between two commands the search takes no more
steps than the stack weighs. A run that begins without moves on a puzzle that allows one never makes
more moves than allowed. -/
theorem drain_within_budget (world : World) (forest : Forest) (run : Run) :
    let begun := Engine.start ⟨world, run⟩
    let walk := Walk.ofForest forest
    (∃ yields : Nat, (yields : Int) ≤ max 0 run.limits.commands ∧ Drained begun walk yields ∧
      (begun.drain walk).value = ((begun.after walk (yields + 1)).1, yields) ∧
      (begun.drain walk).value.1.run.running = false ∧
      ((begun.drain walk).value.1.run.outcome = some .won ∨
        (begun.drain walk).value.1.run.outcome = some .lost) ∧
      (begun.drain walk).value.1.run.total = yields) ∧
    (∀ count stack, (begun.after walk count).2 = .pending stack →
      ∃ steps ≤ stack.weight run.limits.passes.toNat, Unwinds (begun.after walk count).1 stack steps
        ((begun.after walk count).1.seek stack)) ∧
    (world.moves = 0 → 1 ≤ world.puzzle.moveLimit → ∀ count,
      ((begun.after walk count).1.world.moves : Int) ≤ world.puzzle.moveLimit) := by
  intro begun walk
  have consistent : Consistent begun walk := consistent_start _ forest
  refine ⟨?_, ?_, ?_⟩
  · obtain ⟨yields, bounded, drained, counted⟩ := exists_drained consistent
    have value : (begun.drain walk).value = ((begun.after walk (yields + 1)).1, yields) := by
      have calls := drained.drainWithin_value bounded 0
      rwa [Nat.zero_add] at calls
    refine ⟨yields, ?_, drained, value, ?_, ?_, ?_⟩
    · have budget : begun.budget = run.limits.commands.toNat := by
        simp [budget, begun, start, Run.start]
      omega
    · rw [value]
      exact drained.stopped
    · rw [value]
      exact (consistent.after (yields + 1)).outcome_of_stopped drained.stopped
    · rw [value]
      exact counted.trans (Nat.zero_add yields)
  · intro count stack _
    have unwinds := exists_unwinds (begun.after walk count).1 stack
    rwa [limits_after consistent count] at unwinds
  · intro unmoved allowed count
    have frugal : begun.Frugal := frugal_start unmoved allowed
    exact frugal.moves_after_le consistent count

end Engine

def corridor : Puzzle where
  start := ⟨0, 0⟩
  goal := ⟨1, 0⟩
  obstacles := []
  facing := .down
  size := 2
  moveLimit := 3
  start_inside := by decide
  goal_inside := by decide
  obstacles_inside := by decide
  start_free := by decide
  goal_free := by decide
  ordered := .nil

theorem drain_within_budget_corridor :
    let begun := Engine.start ⟨.ofPuzzle corridor, {}⟩
    let walk := Walk.ofForest
      (.repeated 1 20 (.guarded 2 .obstacleAhead .empty .empty) (.command 3 .forward .empty))
    (World.ofPuzzle corridor).moves = 0 ∧ 1 ≤ corridor.moveLimit ∧
      ∀ count, ((begun.after walk count).1.world.moves : Int) ≤ 3 :=
  ⟨rfl, by decide, (Engine.drain_within_budget (.ofPuzzle corridor) _ {}).2.2 rfl (by decide)⟩

end BlockMaze
