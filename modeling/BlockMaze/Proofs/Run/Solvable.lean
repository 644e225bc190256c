import BlockMaze.Proofs.Run.Budget
import BlockMaze.Proofs.Run.Yields
import BlockMaze.Proofs.Search.Reachable

/-! The search and the runs agree. A run of any program that wins has walked a route to the goal, and
along a route a list of plain commands wins: at most two turns and one step forward for each cell. -/
namespace BlockMaze

namespace Engine

/-- A win is claimed only on the goal. -/
def Honest (engine : Engine) : Prop :=
  engine.run.outcome = some .won → engine.world.atGoal = true

theorem Honest.next {engine : Engine} {walk : Walk} (consistent : Consistent engine walk)
    (honest : Honest engine) : Honest (engine.next walk).value.1 := by
  cases consistent with
  | done stopped outcome => rw [next_of_stopped stopped]; exact honest
  | underway stack running open_end =>
    have advance := next_advance running stack
    generalize engine.next (.pending stack) = told at advance
    cases advance with
    | commandLimit command after found spent => exact fun won => by cases won
    | passLimit found => exact fun won => by cases won
    | arrived found there => exact fun _ => there
    | away found elsewhere => exact fun won => by cases won
    | obeyed command after found unspent =>
      change Honest ((engine.obeyed command).settled _).value
      rcases settled_cases (engine.obeyed command) (engine.world.apply command).1 with
        same | ⟨outcome, reason, _, step, same⟩
      · rw [same]
        exact fun won => by cases open_end.symm.trans won
      · rw [same]
        exact fun won => World.atGoal_of_apply_won (step (Option.some.inj won))

/-- A run that wins has walked a route to the goal, with a move for every step. -/
theorem route_of_won {world : World} {run : Run} {forest : Forest}
    (won : ((Engine.mk world.restart run).runToEnd forest).value.run.outcome = some .won) :
    ∃ steps ≤ ((Engine.mk world.restart run).runToEnd forest).value.world.moves,
      Route world.puzzle.isOpen world.puzzle.start world.puzzle.goal steps := by
  have consistent := consistent_start (Engine.mk world.restart run) forest
  obtain ⟨count, value, _⟩ := exists_runToEnd_value (Engine.mk world.restart run) forest
  rw [value] at won ⊢
  have honest := after_keeps Honest consistent (fun early => by cases early) Honest.next
    count won
  have trodden := after_keeps (fun later => later.world.Trodden) consistent
    world.trodden_restart (next_keeps_world World.Trodden fun _ command before => before.apply command) count
  obtain ⟨steps, counted, route⟩ := trodden.route
  rw [puzzle_after consistent count] at route
  have there : ((Engine.mk world.restart run).start.after (.ofForest forest) count).1.world.position =
      world.puzzle.goal := by
    have arrived := of_decide_eq_true honest
    rwa [puzzle_after consistent count] at arrived
  exact ⟨steps, counted, there ▸ route⟩

end Engine

def Forest.ofCommandsFrom (id : Int) : List Command → Forest
  | [] => .empty
  | first :: rest => .command id first (ofCommandsFrom (id + 1) rest)

def Forest.ofCommands (commands : List Command) : Forest := ofCommandsFrom 1 commands

namespace World

/-- Commands that win one after the other: the last one by a step onto the goal, or the end of the
list there, and none before it with the last move allowed. -/
inductive Wins : World → List Command → Prop
  | there {world : World} (arrived : world.atGoal = true) : Wins world []
  | now {world : World} {command : Command} {rest : List Command}
      (won : (world.apply command).1 = .won) : Wins world (command :: rest)
  | later {world : World} {command : Command} {rest : List Command}
      (below : ((world.apply command).2.moves : Int) < world.puzzle.moveLimit)
      (goes_on : Wins (world.apply command).2 rest) : Wins world (command :: rest)

end World

namespace Engine
variable {engine : Engine}

theorem next_end (running : engine.run.running = true) (there : engine.world.atGoal = true) :
    (engine.next (.pending [.rest .empty])).value = (engine.ended .won none, .spent, none) := by
  have found : engine.seek [.rest .empty] = .finished := by
    rw [seek]
    change engine.seek [] = _
    rw [seek]
    rfl
  rw [next, if_pos running, found, follow, if_pos there, finish_won running]
  rfl

theorem next_command (running : engine.run.running = true) (unspent : engine.exhausted = false)
    (id : Int) (command : Command) (rest : Forest) (below : Stack) :
    (engine.next (.pending (.rest (.command id command rest) :: below))).value =
      (((engine.obeyed command).settled (engine.world.apply command).1).value,
        .pending (.rest rest :: below), some (engine.eventOf command)) := by
  have found : engine.seek (.rest (.command id command rest) :: below) =
      .command command (.rest rest :: below) := by
    rw [seek]
    rfl
  rw [next, if_pos running, found, follow, perform_of_not_exhausted running unspent]
  rfl

theorem won_of_wins {commands : List Command} (wins : engine.world.Wins commands)
    (running : engine.run.running = true)
    (affordable : (engine.run.total + commands.length : Int) ≤ engine.run.limits.commands)
    {bound : Nat} (enough : commands.length ≤ bound) (id : Int) (count : Nat) :
    (drainWithin (bound + 1) count engine
      (.pending [.rest (Forest.ofCommandsFrom id commands)])).value.1.run.outcome = some .won := by
  -- the commands fall one by one from the front of the program, which is all the stack holds
  generalize same_world : engine.world = world at wins
  induction wins generalizing engine bound id count with
  | there arrived =>
    have call := next_end running (same_world ▸ arrived)
    rw [Forest.ofCommandsFrom, drainWithin_of_silent (by rw [call]), call]
    rfl
  | @now world command rest won =>
    subst same_world
    have unspent : engine.exhausted = false := by
      simp only [List.length_cons] at affordable
      simp only [exhausted, decide_eq_false_iff_not]
      omega
    have call := next_command running unspent id command (Forest.ofCommandsFrom (id + 1) rest) []
    rw [Forest.ofCommandsFrom, drainWithin_of_yielding (by rw [call]; rfl), call,
      settled_of_won won, drainWithin_of_stopped rfl]
    rfl
  | @later world command rest below goes_on ih =>
    subst same_world
    simp only [List.length_cons] at affordable enough
    have unspent : engine.exhausted = false := by
      simp only [exhausted, decide_eq_false_iff_not]
      omega
    have call := next_command running unspent id command (Forest.ofCommandsFrom (id + 1) rest) []
    rw [Forest.ofCommandsFrom, drainWithin_of_yielding (by rw [call]; rfl), call]
    by_cases won : (engine.world.apply command).1 = .won
    · rw [settled_of_won won, drainWithin_of_stopped rfl]
      rfl
    · have more_moves : ¬ (engine.obeyed command).world.puzzle.moveLimit ≤
          (engine.obeyed command).world.moves := by
        change ¬ (engine.world.apply command).2.puzzle.moveLimit ≤ (engine.world.apply command).2.moves
        rw [World.apply_puzzle]
        omega
      rw [settled_of_below won more_moves]
      obtain ⟨bound, rfl⟩ : ∃ less, bound = less + 1 := ⟨bound - 1, by omega⟩
      have still_affordable : ((engine.obeyed command).run.total + rest.length : Int) ≤
          (engine.obeyed command).run.limits.commands := by
        change ((engine.run.total + 1 : Nat) + rest.length : Int) ≤ engine.run.limits.commands
        omega
      have still_running : (engine.obeyed command).run.running = true := running
      exact ih still_running still_affordable (by omega) (id + 1) (count + 1) rfl

end Engine

namespace Facing

def turnsTo (one other : Facing) : List Command :=
  if one = other then []
  else if one.turn .left = other then [.turn .left]
  else if one.turn .right = other then [.turn .right]
  else [.turn .right, .turn .right]

theorem length_turnsTo_le (one other : Facing) : (one.turnsTo other).length ≤ 2 := by
  unfold turnsTo
  split_ifs <;> simp

end Facing

namespace World
variable {world : World} {commands : List Command}

theorem Wins.turn {side : Side} (below : (world.moves : Int) < world.puzzle.moveLimit)
    (wins : Wins { world with facing := world.facing.turn side } commands) :
    world.Wins (.turn side :: commands) :=
  .later below wins

theorem Wins.turnTo {facing : Facing} (below : (world.moves : Int) < world.puzzle.moveLimit)
    (wins : Wins { world with facing } commands) :
    world.Wins (world.facing.turnsTo facing ++ commands) := by
  unfold Facing.turnsTo
  split_ifs with same left right
  · subst same
    exact wins
  · subst left
    exact .turn below wins
  · subst right
    exact .turn below wins
  · have round : (world.facing.turn .right).turn .right = facing := by
      cases before : world.facing <;> cases facing <;> simp_all [Facing.turn]
    subst round
    have once : Wins { world with facing := world.facing.turn .right } (.turn .right :: commands) :=
      .turn below wins
    exact .turn below once

theorem apply_forward_of_open (free : world.puzzle.isOpen world.cellAhead = true) :
    world.apply .forward =
      (if (world.moveTo world.cellAhead).atGoal then .won else .moved, world.moveTo world.cellAhead) := by
  obtain ⟨inside, clear⟩ := openCell_eq_true_iff.mp free
  have same : world.target = world.cellAhead := Cell.clamp_of_inside inside
  have unblocked : world.isObstacle world.target = false := by simpa [isObstacle, same] using clear
  change world.tryMove = _
  rw [tryMove_of_not_blocked unblocked, same]

/-- Along a route commands win, at most three for a step, if the moves left are enough for its steps. -/
theorem exists_wins {goal : Cell} {steps : Nat}
    (route : Route world.puzzle.isOpen world.position goal steps) (is_goal : goal = world.puzzle.goal)
    (enough : (world.moves + steps : Int) ≤ world.puzzle.moveLimit) :
    ∃ commands : List Command, commands.length ≤ 3 * steps ∧ world.Wins commands := by
  generalize same_cell : world.position = cell at route
  generalize same_open : world.puzzle.isOpen = isOpen at route
  induction route generalizing world with
  | here =>
    refine ⟨[], Nat.zero_le _, .there ?_⟩
    simp [atGoal, same_cell, is_goal]
  | @onward cell goal steps facing free rest ih =>
    subst same_cell same_open
    let turned : World := { world with facing }
    have below : (world.moves : Int) < world.puzzle.moveLimit := by omega
    have ahead : turned.puzzle.isOpen turned.cellAhead = true := free
    have stepped := apply_forward_of_open ahead
    -- turning costs no move, so it is enough to win once the agent faces the next cell
    suffices after : ∃ commands : List Command, commands.length ≤ 3 * steps ∧
        turned.Wins (.forward :: commands) by
      obtain ⟨commands, short, wins⟩ := after
      refine ⟨world.facing.turnsTo facing ++ .forward :: commands, ?_, .turnTo below wins⟩
      have turns := Facing.length_turnsTo_le world.facing facing
      simp only [List.length_append, List.length_cons]
      omega
    cases steps with
    | zero =>
      have arrived : (turned.moveTo turned.cellAhead).atGoal = true := by
        cases rest
        exact decide_eq_true is_goal
      refine ⟨[], Nat.zero_le _, .now ?_⟩
      rw [stepped, if_pos arrived]
    | succ steps =>
      have same_goal : goal = (turned.moveTo turned.cellAhead).puzzle.goal := is_goal
      obtain ⟨commands, short, wins⟩ := ih same_goal
        (by simp only [moveTo, turned]; omega) rfl rfl
      refine ⟨commands, short, .later ?_ (by rw [stepped]; exact wins)⟩
      rw [stepped]
      simp only [moveTo, turned]
      omega

end World

namespace Engine

theorem runToEnd_ofCommands_won {world : World} {commands : List Command}
    (wins : world.restart.Wins commands) (run : Run)
    (affordable : (commands.length : Int) ≤ run.limits.commands) :
    ((Engine.mk world.restart run).runToEnd (.ofCommands commands)).value.run.outcome = some .won := by
  have budget : commands.length ≤ (Engine.mk world.restart run).start.budget := by
    simp only [budget, start, Run.start]
    omega
  have winning : (Engine.mk world.restart run).start.world.Wins commands := wins
  exact won_of_wins winning rfl
    (by simpa [start, Run.start] using affordable) budget 1 0

end Engine

/-- The search is right about winning. No program wins under any limits where the search finds no
way; and where it finds one and the puzzle allows a move for every cell but one, a list of commands
wins, with at most three of them for each of those moves. -/
theorem World.solvable_of_won_and_won_of_solvable (world : World) :
    (∀ (forest : Forest) (run : Run),
      ((Engine.mk world.restart run).runToEnd forest).value.run.outcome = some .won →
        world.solvable = true) ∧
    (world.puzzle.size * world.puzzle.size - 1 ≤ world.puzzle.moveLimit → world.solvable = true →
      ∃ commands : List Command,
        (commands.length : Int) ≤ 3 * (world.puzzle.size * world.puzzle.size - 1) ∧
        ∀ run : Run, (commands.length : Int) ≤ run.limits.commands →
          ((Engine.mk world.restart run).runToEnd (.ofCommands commands)).value.run.outcome =
            some .won) := by
  constructor
  · intro forest run won
    obtain ⟨steps, _, route⟩ := Engine.route_of_won won
    exact World.solvable_iff_route.mpr ⟨steps, route⟩
  · intro allowed solvable
    obtain ⟨steps, route⟩ := World.solvable_iff_route.mp solvable
    obtain ⟨fewer, few, short⟩ := route.shorten (Cell.mem_board.mpr world.puzzle.start_inside)
      (fun _ free => world.puzzle.isOpen_inside free)
    have cells := world.puzzle.card_board
    obtain ⟨commands, counted, wins⟩ := world.restart.exists_wins short rfl
      (by simp only [restart, ofPuzzle]; omega)
    exact ⟨commands, by omega, fun run affordable => Engine.runToEnd_ofCommands_won wins run affordable⟩

theorem solvable_of_won_and_won_of_solvable_corridor :
    let world := World.ofPuzzle corridor
    ((Engine.mk world.restart {}).runToEnd
      (.command 1 (.turn .left) (.command 2 .forward .empty))).value.run.outcome = some .won ∧
    world.solvable = true ∧
    ∃ commands : List Command, (commands.length : Int) ≤ 9 ∧
      ∀ run : Run, (commands.length : Int) ≤ run.limits.commands →
        ((Engine.mk world.restart run).runToEnd (.ofCommands commands)).value.run.outcome =
          some .won := by
  intro world
  have won : ((Engine.mk world.restart {}).runToEnd
      (.command 1 (.turn .left) (.command 2 .forward .empty))).value.run.outcome = some .won := by
    decide +kernel
  have agree := World.solvable_of_won_and_won_of_solvable world
  have solvable := agree.1 _ _ won
  exact ⟨won, solvable, agree.2 (by decide) solvable⟩

end BlockMaze
