import BlockMaze.Proofs.Board.Motion
import BlockMaze.Proofs.Run.Step

/-! The course of a walk: the engine after any number of calls, and what holds all along. -/
namespace BlockMaze.Engine

def after (engine : Engine) (walk : Walk) : Nat → Engine × Walk
  | 0 => (engine, walk)
  | count + 1 =>
    after (engine.next walk).value.1 (engine.next walk).value.2.1 count

def yielded (engine : Engine) (walk : Walk) (count : Nat) : Option Event :=
  ((engine.after walk count).1.next (engine.after walk count).2).value.2.2

/-- A run is under way and its walk has a place, or it was won or lost. -/
inductive Consistent : Engine → Walk → Prop
  | underway {engine : Engine} (stack : Stack) (running : engine.run.running = true)
      (open_end : engine.run.outcome = none) : Consistent engine (.pending stack)
  | done {engine : Engine} {walk : Walk} (stopped : engine.run.running = false)
      (outcome : engine.run.outcome = some .won ∨ engine.run.outcome = some .lost) :
      Consistent engine walk

theorem consistent_start (engine : Engine) (forest : Forest) :
    Consistent engine.start (.ofForest forest) :=
  .underway _ rfl rfl

theorem Consistent.outcome_of_stopped {engine : Engine} {walk : Walk}
    (consistent : Consistent engine walk) (stopped : engine.run.running = false) :
    engine.run.outcome = some .won ∨ engine.run.outcome = some .lost := by
  cases consistent with
  | underway stack running open_end => simp [stopped] at running
  | done stopped outcome => exact outcome

theorem next_of_stopped {engine : Engine} (stopped : engine.run.running = false) (walk : Walk) :
    engine.next walk = ⟨(engine, .spent, none), []⟩ := by
  cases walk with
  | spent => rfl
  | pending stack => exact next_of_not_running stopped stack

theorem next_idle_or_advance (engine : Engine) (walk : Walk) :
    engine.next walk = ⟨(engine, .spent, none), []⟩ ∨
      engine.run.running = true ∧ ∃ stack, Advance engine stack (engine.next walk) := by
  cases running : engine.run.running with
  | false => exact .inl (next_of_stopped running walk)
  | true =>
    cases walk with
    | spent => exact .inl rfl
    | pending stack => exact .inr ⟨rfl, stack, next_advance running stack⟩

section obeyed
variable {engine : Engine} {result : StepResult}

theorem settled_cases (engine : Engine) (result : StepResult) : (engine.settled result).value = engine ∨
    ∃ outcome reason, (outcome = .won ∨ outcome = .lost) ∧ (outcome = .won → result = .won) ∧
      (engine.settled result).value = engine.ended outcome reason := by
  by_cases won : result = .won
  · exact .inr ⟨.won, none, .inl rfl, fun _ => won, by rw [settled_of_won won]⟩
  · by_cases limited : engine.world.puzzle.moveLimit ≤ engine.world.moves
    · exact .inr ⟨.lost, some .moveLimit, .inr rfl, by simp, by rw [settled_of_limit won limited]⟩
    · exact .inl (by rw [settled_of_below won limited])

@[simp] theorem settled_world : (engine.settled result).value.world = engine.world := by
  rcases settled_cases engine result with same | ⟨outcome, reason, _, _, same⟩ <;>
    rw [same]
  rfl

@[simp] theorem settled_total : (engine.settled result).value.run.total = engine.run.total := by
  rcases settled_cases engine result with same | ⟨outcome, reason, _, _, same⟩ <;>
    rw [same]
  rfl

@[simp] theorem settled_limits : (engine.settled result).value.run.limits = engine.run.limits := by
  rcases settled_cases engine result with same | ⟨outcome, reason, _, _, same⟩ <;>
    rw [same]
  rfl

end obeyed

/-- A call leaves the limits and the puzzle as they are. It changes the world and the count only by
one command, whose event it returns. -/
theorem next_cases {engine : Engine} {walk : Walk} (consistent : Consistent engine walk) :
    ((engine.next walk).value.2.2 = none ∧ (engine.next walk).value.1.run.running = false ∧
      (engine.next walk).value.1.world = engine.world ∧
      (engine.next walk).value.1.run.total = engine.run.total ∧
      (engine.next walk).value.1.run.limits = engine.run.limits) ∨
    ∃ command, engine.run.running = true ∧ engine.exhausted = false ∧
      (engine.next walk).value.2.2 = some (engine.eventOf command) ∧
      (engine.next walk).value.1 =
        ((engine.obeyed command).settled (engine.world.apply command).1).value := by
  cases consistent with
  | done stopped outcome => rw [next_of_stopped stopped]; exact .inl ⟨rfl, stopped, rfl, rfl, rfl⟩
  | underway stack running open_end =>
    have advance := next_advance running stack
    generalize engine.next (.pending stack) = told at advance
    cases advance with
    | commandLimit command after found spent => exact .inl ⟨rfl, rfl, rfl, rfl, rfl⟩
    | passLimit found => exact .inl ⟨rfl, rfl, rfl, rfl, rfl⟩
    | arrived found there => exact .inl ⟨rfl, rfl, rfl, rfl, rfl⟩
    | away found elsewhere => exact .inl ⟨rfl, rfl, rfl, rfl, rfl⟩
    | obeyed command after found unspent => exact .inr ⟨command, running, unspent, rfl, rfl⟩

theorem Consistent.next {engine : Engine} {walk : Walk} (consistent : Consistent engine walk) :
    Consistent (engine.next walk).value.1 (engine.next walk).value.2.1 := by
  cases consistent with
  | done stopped outcome => rw [next_of_stopped stopped]; exact .done stopped outcome
  | underway stack running open_end =>
    have advance := next_advance running stack
    generalize engine.next (.pending stack) = told at advance
    cases advance with
    | commandLimit command after found spent => exact .done rfl (.inr rfl)
    | passLimit found => exact .done rfl (.inr rfl)
    | arrived found there => exact .done rfl (.inl rfl)
    | away found elsewhere => exact .done rfl (.inr rfl)
    | obeyed command after found unspent =>
      change Consistent ((engine.obeyed command).settled _).value (.pending after)
      rcases settled_cases (engine.obeyed command) (engine.world.apply command).1 with
        same | ⟨outcome, reason, either, _, same⟩
      · rw [same]
        exact .underway after running open_end
      · rw [same]
        exact .done rfl (either.imp (congrArg some) (congrArg some))

theorem Consistent.after {engine : Engine} {walk : Walk} (consistent : Consistent engine walk)
    (count : Nat) : Consistent (engine.after walk count).1 (engine.after walk count).2 := by
  induction count generalizing engine walk with
  | zero => exact consistent
  | succ count ih => exact ih consistent.next

theorem after_keeps (holds : Engine → Prop) {engine : Engine} {walk : Walk}
    (consistent : Consistent engine walk) (begun : holds engine)
    (kept : ∀ {engine walk}, Consistent engine walk → holds engine →
      holds (engine.next walk).value.1) (count : Nat) : holds (engine.after walk count).1 := by
  induction count generalizing engine walk with
  | zero => exact begun
  | succ count ih => exact ih consistent.next (kept consistent begun)

theorem next_keeps_world (holds : World → Prop)
    (kept : ∀ world command, holds world → holds (world.apply command).2) {engine : Engine}
    {walk : Walk} (consistent : Consistent engine walk) (before : holds engine.world) :
    holds (engine.next walk).value.1.world := by
  rcases next_cases consistent with ⟨_, _, same, _⟩ | ⟨command, _, _, _, same⟩
  · exact same ▸ before
  · rw [same, settled_world]
    exact kept engine.world command before

theorem puzzle_after {engine : Engine} {walk : Walk} (consistent : Consistent engine walk)
    (count : Nat) : (engine.after walk count).1.world.puzzle = engine.world.puzzle := by
  refine after_keeps (fun later => later.world.puzzle = engine.world.puzzle) consistent rfl
    (fun consistent before => ?_) count
  exact next_keeps_world (fun world => world.puzzle = engine.world.puzzle)
    (fun world command same => (world.apply_puzzle command).trans same) consistent before

theorem limits_after {engine : Engine} {walk : Walk} (consistent : Consistent engine walk)
    (count : Nat) : (engine.after walk count).1.run.limits = engine.run.limits := by
  refine after_keeps (fun later => later.run.limits = engine.run.limits) consistent rfl ?_ count
  intro later walk consistent before
  rcases next_cases consistent with ⟨_, _, _, _, same⟩ | ⟨command, _, _, _, same⟩
  · exact same.trans before
  · rw [same, settled_limits]
    exact before

/-- A walk that yields some events and then finds its end. -/
structure Drained (engine : Engine) (walk : Walk) (yields : Nat) : Prop where
  yielding : ∀ count < yields, (engine.yielded walk count).isSome = true
  silent : engine.yielded walk yields = none
  stopped : (engine.after walk (yields + 1)).1.run.running = false

theorem Drained.tail {engine : Engine} {walk : Walk} {yields : Nat} (drained : Drained engine walk (yields + 1)) :
    Drained (engine.next walk).value.1 (engine.next walk).value.2.1 yields where
  yielding count early := drained.yielding (count + 1) (Nat.succ_lt_succ early)
  silent := drained.silent
  stopped := drained.stopped

theorem budget_obeyed {engine : Engine} (unspent : engine.exhausted = false) (command : Command)
    (result : StepResult) :
    ((engine.obeyed command).settled result).value.budget + 1 = engine.budget := by
  simp only [exhausted, decide_eq_false_iff_not] at unspent
  simp only [budget, settled_limits, settled_total, obeyed]
  omega

theorem exists_drained {engine : Engine} {walk : Walk} (consistent : Consistent engine walk) :
    ∃ yields ≤ engine.budget, Drained engine walk yields ∧
      (engine.after walk (yields + 1)).1.run.total = engine.run.total + yields := by
  -- each command yielded takes one off the budget, and a walk without budget yields none
  induction left : engine.budget generalizing engine walk with
  | zero =>
    rcases next_cases consistent with ⟨silent, stopped, _, total, _⟩ | ⟨command, _, unspent, _⟩
    · exact ⟨0, Nat.le_refl 0, ⟨by simp, silent, stopped⟩, total⟩
    · have fewer := budget_obeyed unspent command .moved
      omega
  | succ left ih =>
    rcases next_cases consistent with ⟨silent, stopped, _, total, _⟩ | ⟨command, _, unspent, event, same⟩
    · exact ⟨0, Nat.zero_le _, ⟨by simp, silent, stopped⟩, total⟩
    · have fewer := budget_obeyed unspent command (engine.world.apply command).1
      rw [← same] at fewer
      obtain ⟨yields, bounded, rest, counted⟩ := ih consistent.next (by omega)
      refine ⟨yields + 1, Nat.succ_le_succ bounded, ⟨?_, rest.silent, rest.stopped⟩, ?_⟩
      · intro count early
        cases count with
        | zero => exact Option.isSome_iff_exists.mpr ⟨_, event⟩
        | succ count => exact rest.yielding count (Nat.lt_of_succ_lt_succ early)
      · refine counted.trans ?_
        rw [same, settled_total]
        change engine.run.total + 1 + yields = engine.run.total + (yields + 1)
        omega

theorem drainWithin_of_silent {engine : Engine} {walk : Walk}
    (silent : (engine.next walk).value.2.2 = none) (bound count : Nat) :
    (drainWithin (bound + 1) count engine walk).value = ((engine.next walk).value.1, count) := by
  simp only [drainWithin, Told.value_bind, silent, Option.isSome_none, Bool.false_eq_true, if_false]
  rfl

theorem drainWithin_of_yielding {engine : Engine} {walk : Walk}
    (yielding : (engine.next walk).value.2.2.isSome = true) (bound count : Nat) :
    (drainWithin (bound + 1) count engine walk).value =
      (drainWithin bound (count + 1) (engine.next walk).value.1
        (engine.next walk).value.2.1).value := by
  simp only [drainWithin, Told.value_bind, yielding, if_true]

theorem Drained.drainWithin_value {engine : Engine} {walk : Walk} {yields bound : Nat}
    (drained : Drained engine walk yields) (enough : yields ≤ bound) (count : Nat) :
    (drainWithin (bound + 1) count engine walk).value =
      ((engine.after walk (yields + 1)).1, count + yields) := by
  induction yields generalizing engine walk bound count with
  | zero => exact drainWithin_of_silent drained.silent bound count
  | succ yields ih =>
    obtain ⟨bound, rfl⟩ : ∃ less, bound = less + 1 := ⟨bound - 1, by omega⟩
    have yielding : (engine.next walk).value.2.2.isSome = true := drained.yielding 0 (by omega)
    rw [drainWithin_of_yielding yielding, ih drained.tail (by omega), Nat.add_right_comm, Nat.add_assoc]
    rfl

theorem exists_runToEnd_value (engine : Engine) (forest : Forest) :
    ∃ count, (engine.runToEnd forest).value = (engine.start.after (.ofForest forest) count).1 ∧
      (engine.runToEnd forest).value.run.running = false := by
  obtain ⟨yields, bounded, drained, _⟩ := exists_drained (consistent_start engine forest)
  have value : (engine.runToEnd forest).value = (engine.start.after (.ofForest forest) (yields + 1)).1 :=
    congrArg Prod.fst (drained.drainWithin_value bounded 0)
  exact ⟨yields + 1, value, value ▸ drained.stopped⟩

end BlockMaze.Engine
