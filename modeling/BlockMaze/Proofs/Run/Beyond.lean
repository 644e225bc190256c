import BlockMaze.Proofs.Program.Forest
import BlockMaze.Proofs.Run.Lockstep
import BlockMaze.Proofs.Run.OnGoal

/-! What stands beyond a block that waits for the goal. As long as a run goes on the agent is off the goal, so
that such a block is never left but by the end of the run, and nothing depends on the blocks after it. -/
namespace BlockMaze

namespace Stack

/-- Stacks that are the same down to a block that waits for the goal, or to its loop. -/
inductive SameToGoal : Stack → Stack → Prop
  | under {below others : Stack} (frame : Frame) (same : SameToGoal below others) :
      SameToGoal (frame :: below) (frame :: others)
  | ahead (front : Forest) (id : Int) (body post instead : Forest) (below others : Stack) :
      SameToGoal (.rest (front ++ .guarded id .atGoal body post) :: below)
        (.rest (front ++ .guarded id .atGoal body instead) :: others)
  | within (made : Nat) (body : Forest) (below others : Stack) :
      SameToGoal (.loop .atGoal made body :: below) (.loop .atGoal made body :: others)

end Stack

/-- Places found that are the same down to a block that waits for the goal. No walk finds its end above
one. -/
inductive Found.SameToGoal : Found → Found → Prop
  | command {after others : Stack} (command : Command) (same : Stack.SameToGoal after others) :
      SameToGoal (.command command after) (.command command others)
  | passLimit : SameToGoal .passLimit .passLimit

inductive Unwound.SameToGoal : Unwound → Unwound → Prop
  | onto {one other : Stack} (same : Stack.SameToGoal one other) : SameToGoal (.onto one) (.onto other)
  | found {one other : Found} (same : Found.SameToGoal one other) : SameToGoal (.found one) (.found other)

namespace Engine
variable {engine : Engine} {one other : Stack}

/-- A step of control off the goal. Only where a block waiting for the goal is reached or begins another pass
is anything but the first frame looked at. -/
theorem unwind_sameToGoal (off : engine.world.atGoal = false) (same : Stack.SameToGoal one other) :
    Unwound.SameToGoal (engine.unwind one) (engine.unwind other) := by
  cases same with
  | under frame same =>
    cases frame with
    | rest blocks =>
      cases blocks with
      | empty => exact .onto same
      | command id c rest => exact .found (.command c (.under _ same))
      | repeated id count body rest => exact .onto (.under _ (.under _ same))
      | guarded id predicate body rest => exact .onto (.under _ (.under _ same))
    | again left body =>
      cases left with
      | zero => exact .onto same
      | succ left => exact .onto (.under _ (.under _ same))
    | loop predicate made body =>
      simp only [unwind]
      split
      · exact .onto same
      · split
        · exact .onto (.under _ (.under _ same))
        · exact .found .passLimit
  | ahead front id body post instead below others =>
    cases front with
    | empty => exact .onto (.within 0 body _ _)
    | command id' c rest => exact .found (.command c (.ahead rest id body post instead below others))
    | repeated id' count inner rest =>
      exact .onto (.under _ (.ahead rest id body post instead below others))
    | guarded id' predicate inner rest =>
      exact .onto (.under _ (.ahead rest id body post instead below others))
  | within made body below others =>
    have fails : ¬ engine.world.check .atGoal = true := by
      change ¬ engine.world.atGoal = true
      simp [off]
    simp only [unwind, if_neg fails]
    split
    · exact .onto (.under _ (.within (made + 1) body below others))
    · exact .found .passLimit

theorem seek_sameToGoal (off : engine.world.atGoal = false) (same : Stack.SameToGoal one other) :
    Found.SameToGoal (engine.seek one) (engine.seek other) := by
  obtain ⟨steps, -, unwinds⟩ := exists_unwinds engine one
  generalize engine.seek one = result at unwinds ⊢
  induction unwinds generalizing other with
  | found step =>
    have stepped := unwind_sameToGoal off same
    rw [step] at stepped
    generalize also : engine.unwind other = unwound at stepped
    cases stepped with
    | found same => rwa [seek_of_found also]
  | onto step _ ih =>
    have stepped := unwind_sameToGoal off same
    rw [step] at stepped
    generalize also : engine.unwind other = unwound at stepped
    cases stepped with
    | onto same =>
      rw [seek_of_onto also]
      exact ih same

/-- Walks of a run that goes on, if it does, above blocks that wait for the goal. -/
structure Shielded (puzzle : Puzzle) (engine : Engine) (one other : Walk) : Prop
    extends Truthful puzzle engine where
  waiting : engine.run.running = true →
    ∃ first second, one = .pending first ∧ other = .pending second ∧ Stack.SameToGoal first second

theorem lockstep_shielded (puzzle : Puzzle) : Lockstep (Shielded puzzle) := by
  intro engine one other shielded
  have truthful := shielded.toTruthful
  cases running : engine.run.running with
  | false =>
    rw [next_of_stopped running, next_of_stopped running]
    exact ⟨⟨rfl, rfl, rfl⟩, truthful, fun goes_on => by cases running.symm.trans goes_on⟩
  | true =>
    obtain ⟨first, second, rfl, rfl, same⟩ := shielded.waiting running
    -- both walks find the same place, and what is done there does not depend on what is left to do
    have found := seek_sameToGoal (truthful.off_goal running) same
    have later := truthful.next (.pending first)
    generalize here : engine.seek first = place, there : engine.seek second = elsewhere at found
    cases found with
    | passLimit =>
      rw [(Advance.passLimit here).next_eq running] at later ⊢
      rw [(Advance.passLimit there).next_eq running]
      exact ⟨⟨rfl, rfl, rfl⟩, later, nofun⟩
    | @command after others command same =>
      cases spent : engine.exhausted with
      | true =>
        rw [(Advance.commandLimit command after here spent).next_eq running] at later ⊢
        rw [(Advance.commandLimit command others there spent).next_eq running]
        exact ⟨⟨rfl, rfl, rfl⟩, later, nofun⟩
      | false =>
        rw [(Advance.obeyed command after here spent).next_eq running] at later ⊢
        rw [(Advance.obeyed command others there spent).next_eq running]
        exact ⟨⟨rfl, rfl, rfl⟩, later, fun _ => ⟨after, others, rfl, rfl, same⟩⟩

/-- On a puzzle whose start is not its goal, nothing after a block that waits for the goal ever runs: whatever
stands there, whatever the block encloses and whatever comes before it, no one can tell the runs apart. -/
theorem sameRun_beyond_goal {world : World} (apart : world.puzzle.start ≠ world.puzzle.goal) (run : Run)
    (front body post instead : Forest) (id : Int) :
    (Engine.mk world.restart run).SameRun (front ++ .guarded id .atGoal body .empty ++ post)
      (front ++ .guarded id .atGoal body .empty ++ instead) := by
  refine (lockstep_shielded world.puzzle).sameRun ⟨.start apart run, fun _ => ?_⟩
  refine ⟨_, _, rfl, rfl, ?_⟩
  rw [Forest.append_assoc, Forest.append_assoc]
  exact .ahead front id body post instead [] []

end Engine

/-- A turn, a block that waits for the goal with a turn to the right in it, and a step. The step, which would
win without the block, is not made with it. -/
theorem sameRun_beyond_goal_corridor :
    let world := World.ofPuzzle corridor
    let engine : Engine := ⟨world.restart, { limits := ⟨500, 3⟩ }⟩
    let front : Forest := .command 1 (.turn .left) .empty
    let body : Forest := .command 3 (.turn .right) .empty
    let step : Forest := .command 4 .forward .empty
    corridor.start ≠ corridor.goal ∧ (engine.runToEnd (front ++ step)).value.run.outcome = some .won ∧
      engine.SameRun (front ++ .guarded 2 .atGoal body .empty ++ step)
        (front ++ .guarded 2 .atGoal body .empty ++ .empty) ∧
      (engine.runToEnd (front ++ .guarded 2 .atGoal body .empty ++ step)).value.run.outcome =
        some .lost := by
  intro world engine front body step
  have apart : world.puzzle.start ≠ world.puzzle.goal := by decide
  have same := Engine.sameRun_beyond_goal apart { limits := ⟨500, 3⟩ } front body step .empty 2
  have lost : (engine.runToEnd (front ++ .guarded 2 .atGoal body .empty ++ .empty)).value.run.outcome =
      some .lost := by decide +kernel
  refine ⟨apart, by decide +kernel, same, ?_⟩
  rw [same.told]
  exact lost

end BlockMaze
