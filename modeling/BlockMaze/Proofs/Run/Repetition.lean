import BlockMaze.Program.Listing
import BlockMaze.Proofs.Program.Forest
import BlockMaze.Proofs.Run.Lockstep
import BlockMaze.Proofs.Run.Solvable

/-! Repetition is writing out. A program does what it does with every repetition written out as copies of
its body, and without guarded blocks what the list of its commands does. The stacks of two such runs
differ; they agree once their repetitions are written out and neighbouring rests are joined. -/
namespace BlockMaze

namespace Forest

def copies : Nat → Forest → Forest
  | 0, _ => empty
  | count + 1, forest => forest ++ copies count forest

/-- Every repetition written out as copies of what it repeats, also inside of other blocks. -/
def unrepeated : Forest → Forest
  | empty => empty
  | command id c rest => command id c rest.unrepeated
  | repeated _ count body rest => copies (passes count) body.unrepeated ++ rest.unrepeated
  | guarded id predicate body rest => guarded id predicate body.unrepeated rest.unrepeated

/-- What is left of a program without its numbers and repetitions. -/
def plain : Forest → Forest
  | empty => empty
  | command _ c rest => command 0 c rest.plain
  | repeated _ count body rest => copies (passes count) body.plain ++ rest.plain
  | guarded _ predicate body rest => guarded 0 predicate body.plain rest.plain

theorem plain_append (first second : Forest) : (first ++ second).plain = first.plain ++ second.plain := by
  induction first with
  | empty => rfl
  | command id c rest ih => exact congrArg (command 0 c) ih
  | repeated id count body rest _ ih =>
    rw [repeated_append, plain, plain, ih, append_assoc]
  | guarded id predicate body rest _ ih => exact congrArg (guarded 0 predicate body.plain) ih

theorem plain_copies (count : Nat) (forest : Forest) :
    (copies count forest).plain = copies count forest.plain := by
  induction count with
  | zero => rfl
  | succ count ih => rw [copies, plain_append, ih, copies]

theorem plain_unrepeated (forest : Forest) : forest.unrepeated.plain = forest.plain := by
  induction forest with
  | empty => rfl
  | command id c rest ih => exact congrArg (command 0 c) ih
  | repeated id count body rest bodyIH restIH =>
    rw [unrepeated, plain_append, plain_copies, bodyIH, restIH, plain]
  | guarded id predicate body rest bodyIH restIH =>
    exact congrArg₂ (guarded 0 predicate) bodyIH restIH

theorem plain_plain (forest : Forest) : forest.plain.plain = forest.plain := by
  induction forest with
  | empty => rfl
  | command id c rest ih => exact congrArg (command 0 c) ih
  | repeated id count body rest bodyIH restIH =>
    rw [plain, plain_append, plain_copies, bodyIH, restIH]
  | guarded id predicate body rest bodyIH restIH =>
    exact congrArg₂ (guarded 0 predicate) bodyIH restIH

end Forest

namespace Stack

def before (front : Forest) : Stack → Stack
  | .rest blocks :: below => .rest (front ++ blocks) :: below
  | stack => .rest front :: stack

/-- What is left to do, apart from how it is written. -/
def flat : Stack → Stack
  | [] => []
  | .rest blocks :: below => before blocks.plain (flat below)
  | .again left body :: below => before (.copies left body.plain) (flat below)
  | .loop predicate made body :: below => .loop predicate made body.plain :: flat below

theorem before_before (first second : Forest) (stack : Stack) :
    before first (before second stack) = before (first ++ second) stack := by
  cases stack with
  | nil => rfl
  | cons frame below =>
    cases frame with
    | rest blocks =>
      change Frame.rest (first ++ (second ++ blocks)) :: below = Frame.rest (first ++ second ++ blocks) :: below
      rw [Forest.append_assoc]
    | again left body => rfl
    | loop predicate made body => rfl

theorem flat_before (front : Forest) (stack : Stack) :
    flat (before front stack) = before front.plain (flat stack) := by
  cases stack with
  | nil => rfl
  | cons frame below =>
    cases frame with
    | rest blocks =>
      change before (front ++ blocks).plain (flat below) = before _ (before _ (flat below))
      rw [before_before, Forest.plain_append]
    | again left body => rfl
    | loop predicate made body => rfl

theorem flat_flat (stack : Stack) : stack.flat.flat = stack.flat := by
  induction stack with
  | nil => rfl
  | cons frame below ih =>
    cases frame with
    | rest blocks =>
      rw [flat, flat_before, ih, Forest.plain_plain]
    | again left body =>
      rw [flat, flat_before, ih, Forest.plain_copies, Forest.plain_plain]
    | loop predicate made body =>
      change Frame.loop predicate made body.plain.plain :: flat (flat below) = _
      rw [ih, Forest.plain_plain]
      rfl

end Stack

def Found.flat : Found → Found
  | command c after => .command c after.flat
  | passLimit => .passLimit
  | finished => .finished

namespace Engine
variable (engine : Engine)

theorem seek_before_empty (stack : Stack) : engine.seek (stack.before .empty) = engine.seek stack := by
  cases stack with
  | nil => exact seek_of_onto rfl
  | cons frame below =>
    cases frame with
    | rest blocks => rfl
    | again left body => exact seek_of_onto rfl
    | loop predicate made body => exact seek_of_onto rfl

theorem seek_before_command (id : Int) (command : Command) (rest : Forest) (stack : Stack) :
    engine.seek (stack.before (.command id command rest)) = .command command (stack.before rest) := by
  cases stack with
  | nil => exact seek_of_found rfl
  | cons frame below => cases frame <;> exact seek_of_found rfl

theorem seek_before_guarded (id : Int) (predicate : Predicate) (body rest : Forest) (stack : Stack) :
    engine.seek (stack.before (.guarded id predicate body rest)) =
      engine.seek (.loop predicate 0 body :: stack.before rest) := by
  cases stack with
  | nil => exact seek_of_onto rfl
  | cons frame below => cases frame <;> exact seek_of_onto rfl

variable {engine}

theorem seek_flat_of_onto {stack next : Stack} (step : engine.unwind stack = .onto next) :
    engine.seek stack.flat = engine.seek next.flat := by
  unfold unwind at step
  split at step
  case h_2 below =>
    cases step
    exact seek_before_empty engine _
  case h_4 id count body rest below =>
    cases step
    rw [Stack.flat, Stack.flat, Stack.flat, Stack.before_before, Forest.plain]
  case h_5 id predicate body rest below =>
    cases step
    exact seek_before_guarded engine 0 predicate body.plain rest.plain _
  case h_6 body below =>
    cases step
    exact seek_before_empty engine _
  case h_7 left body below =>
    cases step
    rw [Stack.flat, Stack.flat, Stack.flat, Stack.before_before, Forest.copies]
  case h_8 predicate made body below =>
    -- the same question is asked of the same board, and as many passes have been made
    have question : engine.unwind (Stack.flat (.loop predicate made body :: below)) =
        if engine.world.check predicate then .onto (Stack.flat below)
        else if made < engine.run.limits.passes ∧ ¬ engine.exhausted then
          .onto (.rest body.plain :: .loop predicate (made + 1) body.plain :: Stack.flat below)
        else .found .passLimit := rfl
    split at step
    · rename_i holds
      cases step
      rw [if_pos holds] at question
      exact seek_of_onto question
    · rename_i fails
      split at step
      · rename_i permitted
        cases step
        rw [if_neg fails, if_pos permitted] at question
        exact seek_of_onto question
      · cases step
  all_goals cases step

theorem seek_flat_of_found {stack : Stack} {result : Found} (step : engine.unwind stack = .found result) :
    (engine.seek stack.flat).flat = result.flat := by
  unfold unwind at step
  split at step
  case h_1 =>
    cases step
    exact congrArg Found.flat (seek_of_found rfl)
  case h_3 id command rest below =>
    cases step
    have found := seek_before_command engine 0 command rest.plain (Stack.flat below)
    refine (congrArg Found.flat found).trans ?_
    exact congrArg (Found.command command) (Stack.flat_flat (.rest rest :: below))
  case h_8 predicate made body below =>
    split at step
    · cases step
    · rename_i fails
      split at step
      · cases step
      · rename_i refused
        cases step
        have limit : engine.unwind (Stack.flat (.loop predicate made body :: below)) =
            .found .passLimit := by
          change (if engine.world.check predicate then _ else if _ then _ else _) = _
          rw [if_neg fails, if_neg refused]
        exact congrArg Found.flat (seek_of_found limit)
  all_goals cases step

theorem seek_flat (stack : Stack) : (engine.seek stack.flat).flat = (engine.seek stack).flat := by
  obtain ⟨steps, -, unwinds⟩ := exists_unwinds engine stack
  generalize engine.seek stack = result at unwinds
  induction unwinds with
  | found step => exact seek_flat_of_found step
  | onto step _ ih => exact (congrArg Found.flat (seek_flat_of_onto step)).trans ih

end Engine

def Walk.flat : Walk → Walk
  | pending stack => .pending stack.flat
  | spent => .spent

namespace Engine
variable {one other : Walk}

def flattened (told : Told (Engine × Walk × Option Event)) : Told (Engine × Walk × Option Event) :=
  ⟨(told.value.1, told.value.2.1.flat, told.value.2.2), told.signals⟩

theorem follow_flat (engine : Engine) (found : Found) :
    engine.follow found.flat = flattened (engine.follow found) := by
  cases found with
  | command command after =>
    simp only [follow, Found.flat, flattened, bind, pure, List.append_nil]
    split <;> rfl
  | passLimit => rfl
  | finished =>
    simp only [follow, Found.flat, flattened, bind, pure, List.append_nil]
    split <;> rfl

theorem flattened_next (engine : Engine) (same : one.flat = other.flat) :
    flattened (engine.next one) = flattened (engine.next other) := by
  cases one with
  | spent =>
    cases other with
    | spent => rfl
    | pending stack => cases same
  | pending stack =>
    cases other with
    | spent => cases same
    | pending others =>
      have left : Stack.flat stack = Stack.flat others := Walk.pending.inj same
      cases running : engine.run.running with
      | false => rw [next_of_stopped running, next_of_stopped running]
      | true =>
        have found : (engine.seek stack).flat = (engine.seek others).flat := by
          rw [← seek_flat stack, left, seek_flat others]
        rw [next, next, if_pos running, if_pos running, ← follow_flat, ← follow_flat, found]

theorem lockstep_flat : Lockstep fun _ one other => one.flat = other.flat := by
  intro engine one other same
  have told := flattened_next engine same
  simp only [flattened, Told.mk.injEq, Prod.mk.injEq] at told
  obtain ⟨⟨engines, walks, events⟩, signals⟩ := told
  exact ⟨⟨engines, events, signals⟩, walks⟩

theorem sameRun_of_plain (engine : Engine) {one other : Forest} (same : one.plain = other.plain) :
    SameRun engine one other :=
  lockstep_flat.sameRun (congrArg (fun forest => Walk.pending [.rest forest]) same)

end Engine

namespace Forest

def row (commands : List Command) : Forest := commands.foldr (command 0) empty

theorem row_append (first second : List Command) : row (first ++ second) = row first ++ row second := by
  induction first with
  | nil => rfl
  | cons c rest ih => exact congrArg (command 0 c) ih

theorem row_replicate (count : Nat) (commands : List Command) :
    row (List.replicate count commands).flatten = copies count (row commands) := by
  induction count with
  | zero => rfl
  | succ count ih => rw [List.replicate_succ, List.flatten_cons, row_append, ih, copies]

theorem plain_ofCommandsFrom (id : Int) (commands : List Command) :
    (ofCommandsFrom id commands).plain = row commands := by
  induction commands generalizing id with
  | nil => rfl
  | cons c rest ih => exact congrArg (command 0 c) (ih (id + 1))

theorem plain_of_unguarded {forest : Forest}
    (unguarded : ∀ block ∈ forest.walk, block.content.isGuarded = false) :
    forest.plain = row forest.expand := by
  induction forest with
  | empty => rfl
  | command id c rest ih =>
    exact congrArg (command 0 c) (ih fun block member => unguarded block (List.mem_cons_of_mem _ member))
  | repeated id count body rest bodyIH restIH =>
    have inside := bodyIH fun block member =>
      unguarded block (List.mem_cons_of_mem _ (List.mem_append_left _ member))
    have behind := restIH fun block member =>
      unguarded block (List.mem_cons_of_mem _ (List.mem_append_right _ member))
    rw [plain, expand, row_append, row_replicate, inside, behind]
  | guarded id predicate body rest _ _ =>
    have guard := unguarded _ List.mem_cons_self
    cases guard

theorem unroll_of_enough {forest : Forest} {limit : Int} (enough : (forest.expand.length : Int) ≤ limit) :
    forest.unroll limit = forest.expand := by
  rw [unroll, within_eq_take]
  exact List.take_of_length_le (by omega)

end Forest

/-- A program runs as it does with every repetition written out, wherever the repetitions stand. Without
guarded blocks it runs as the list of its commands does, unrolled up to any limit that takes them all. -/
theorem sameRun_written_out (engine : Engine) (forest : Forest) :
    engine.SameRun forest.unrepeated forest ∧
    ∀ limit : Int, (∀ block ∈ forest.walk, block.content.isGuarded = false) →
      (forest.expand.length : Int) ≤ limit →
      engine.SameRun (.ofCommands (forest.unroll limit)) forest := by
  refine ⟨Engine.sameRun_of_plain engine forest.plain_unrepeated, fun limit unguarded enough => ?_⟩
  refine Engine.sameRun_of_plain engine ?_
  rw [Forest.unroll_of_enough enough, Forest.ofCommands, Forest.plain_ofCommandsFrom,
    Forest.plain_of_unguarded unguarded]

/-- A count below the bounds stands for a single pass. -/
theorem sameRun_written_out_corridor :
    let engine : Engine := ⟨.ofPuzzle corridor, {}⟩
    let forest : Forest := .repeated 1 (-7)
      (.repeated 2 3 (.command 3 (.turn .right) .empty) (.command 4 .forward .empty)) .empty
    let commands : List Command := [.turn .right, .turn .right, .turn .right, .forward]
    (∀ block ∈ forest.walk, block.content.isGuarded = false) ∧ (forest.expand.length : Int) ≤ 4 ∧
      forest.unroll 4 = commands ∧ engine.SameRun (.ofCommands commands) forest ∧
      engine.SameRun forest.unrepeated forest := by
  intro engine forest commands
  have unguarded : ∀ block ∈ forest.walk, block.content.isGuarded = false := by decide
  have enough : (forest.expand.length : Int) ≤ 4 := by decide
  have unrolled : forest.unroll 4 = commands := by decide
  obtain ⟨written, listed⟩ := sameRun_written_out engine forest
  have same := listed 4 unguarded enough
  rw [unrolled] at same
  exact ⟨unguarded, enough, unrolled, same, written⟩

end BlockMaze
