import BlockMaze.Program.Kind
import BlockMaze.Program.Forest
import BlockMaze.Run.Engine

/-! Where a walk through a program stands. The control stack holds what is left to do, innermost
first; `seek` unwinds it to the next command. Only the world decides where guarded blocks lead, so a
walk that is set aside can go on later with the world as it is then. -/
namespace BlockMaze

inductive Frame
  | rest (blocks : Forest)
  | again (left : Nat) (body : Forest)
  | loop (predicate : Predicate) (made : Nat) (body : Forest)
  deriving DecidableEq

/-- A bound on the work a forest takes when guarded blocks make at most `cap` passes. -/
def Forest.weight (cap : Nat) : Forest → Nat
  | empty => 1
  | command _ _ rest => 1 + rest.weight cap
  | repeated _ count body rest => passes count * (body.weight cap + 2) + 2 + rest.weight cap
  | guarded _ _ body rest => cap * (body.weight cap + 2) + 2 + rest.weight cap

def Frame.weight (cap : Nat) : Frame → Nat
  | rest blocks => blocks.weight cap
  | again left body => left * (body.weight cap + 2) + 1
  | loop _ made body => (cap - made) * (body.weight cap + 2) + 1

abbrev Stack := List Frame

def Stack.weight (cap : Nat) : Stack → Nat
  | [] => 0
  | frame :: below => frame.weight cap + Stack.weight cap below

theorem Forest.weight_pos (cap : Nat) (forest : Forest) : 0 < forest.weight cap := by
  cases forest <;> simp only [Forest.weight] <;> omega

inductive Found
  | command (command : Command) (after : Stack)
  | passLimit
  | finished
  deriving DecidableEq

inductive Unwound
  | onto (stack : Stack)
  | found (found : Found)
  deriving DecidableEq

/-- One step of control, which changes nothing but the stack. A guarded block begins another pass
while its predicate fails and both limits allow it. -/
def Engine.unwind (engine : Engine) : Stack → Unwound
  | [] => .found .finished
  | .rest .empty :: below => .onto below
  | .rest (.command _ c rest) :: below => .found (.command c (.rest rest :: below))
  | .rest (.repeated _ count body rest) :: below =>
    .onto (.again (passes count) body :: .rest rest :: below)
  | .rest (.guarded _ predicate body rest) :: below =>
    .onto (.loop predicate 0 body :: .rest rest :: below)
  | .again 0 _ :: below => .onto below
  | .again (left + 1) body :: below => .onto (.rest body :: .again left body :: below)
  | .loop predicate made body :: below =>
    if engine.world.check predicate then .onto below
    else if made < engine.run.limits.passes ∧ ¬ engine.exhausted then
      .onto (.rest body :: .loop predicate (made + 1) body :: below)
    else .found .passLimit

private theorem loop_weight {cap made : Nat} (weight : Nat) (left : made < cap) :
    weight + (cap - (made + 1)) * (weight + 2) < (cap - made) * (weight + 2) := by
  obtain ⟨more, split⟩ : ∃ more, cap - made = more + 1 := ⟨cap - made - 1, by omega⟩
  have fewer : cap - (made + 1) = more := by omega
  rw [split, fewer, Nat.succ_mul]
  omega

theorem Engine.unwind_weight {engine : Engine} {stack next : Stack}
    (step : engine.unwind stack = .onto next) :
    next.weight engine.run.limits.passes.toNat < stack.weight engine.run.limits.passes.toNat := by
  unfold Engine.unwind at step
  split at step
  case h_8 predicate made body below =>
    split at step
    · cases step
      simp only [Stack.weight, Frame.weight]
      omega
    · split at step
      · rename_i allowed
        cases step
        have smaller := loop_weight (body.weight engine.run.limits.passes.toNat)
          (by omega : made < engine.run.limits.passes.toNat)
        simp only [Stack.weight, Frame.weight]
        omega
      · cases step
  all_goals cases step
  all_goals simp only [Stack.weight, Frame.weight, Forest.weight, Nat.succ_mul, Nat.sub_zero]
  all_goals omega

def Engine.seek (engine : Engine) (stack : Stack) : Found :=
  match _step : engine.unwind stack with
  | .onto next => engine.seek next
  | .found result => result
  termination_by stack.weight engine.run.limits.passes.toNat
  decreasing_by exact Engine.unwind_weight ‹_›

end BlockMaze
