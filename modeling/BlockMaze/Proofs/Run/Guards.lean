import BlockMaze.Proofs.Run.Moments

/-! What becomes of a guarded block once it is entered: how often its body begins, when control goes on behind it,
and when the run ends in it. -/
namespace BlockMaze

structure Guard where
  id : Int
  predicate : Predicate
  body : Forest
  rest : Forest
  below : Stack

namespace Guard
variable {guard : Guard} {engine : Engine} {begun moment later : Moment} {starts : Nat}

def ahead (guard : Guard) : Stack :=
  .rest (.guarded guard.id guard.predicate guard.body guard.rest) :: guard.below

def outside (guard : Guard) : Stack := .rest guard.rest :: guard.below

def looping (guard : Guard) (made : Nat) : Stack := .loop guard.predicate made guard.body :: guard.outside

def beginning (guard : Guard) (made : Nat) : Stack := .rest guard.body :: guard.looping made

/-- The run that began at a moment is now inside of the block, whose body has begun so many times since it was
entered. What the loop itself has counted plays no part in this. -/
inductive Entered (guard : Guard) (begun : Moment) : Nat → Moment → Prop
  | entry {engine later : Engine} {made : Nat} (reached : begun.Reaches ⟨engine, guard.ahead⟩)
      (enters : Moment.Next ⟨engine, guard.ahead⟩ ⟨later, guard.looping made⟩) :
      Entered guard begun 0 ⟨later, guard.looping made⟩
  | begins {engine later : Engine} {starts made next : Nat}
      (inside : Entered guard begun starts ⟨engine, guard.looping made⟩)
      (begins : Moment.Next ⟨engine, guard.looping made⟩ ⟨later, guard.beginning next⟩) :
      Entered guard begun (starts + 1) ⟨later, guard.beginning next⟩
  | onward {engine : Engine} {later : Moment} {starts made : Nat} {frame : Frame} {stack : Stack}
      (inside : Entered guard begun starts ⟨engine, frame :: stack⟩) (within : guard.looping made <:+ stack)
      (goes : Moment.Next ⟨engine, frame :: stack⟩ later) : Entered guard begun starts later

theorem looping_length (guard : Guard) (made : Nat) : (guard.looping made).length = guard.below.length + 2 := rfl

theorem eq_of_looping_suffix {made starts : Nat} (suffix : guard.looping starts <:+ guard.looping made) :
    starts = made := by
  have same := suffix.eq_of_length rfl
  simp only [looping, List.cons.injEq, Frame.loop.injEq, true_and, and_true] at same
  exact same

theorem Entered.reaches (inside : guard.Entered begun starts moment) : begun.Reaches moment := by
  induction inside with
  | entry reached enters => exact reached.tail enters
  | begins _ begins ih => exact ih.tail begins
  | onward _ _ goes ih => exact ih.tail goes

theorem Entered.counted (inside : guard.Entered begun starts moment) :
    guard.looping starts <:+ moment.stack ∧ (starts : Int) ≤ max 0 begun.engine.run.limits.passes := by
  induction inside with
  | @entry engine later made reached enters =>
    obtain ⟨opened, opens, stack⟩ := enters.opens
    have longer := congrArg List.length stack
    cases opens with
    | left =>
      simp only [looping, outside, List.nil_append, List.length_cons] at longer
      omega
    | guarded =>
      simp only [looping, outside, List.cons_append, List.nil_append, List.cons.injEq, Frame.loop.injEq] at stack
      obtain rfl := stack.1.2.1
      exact ⟨List.suffix_refl _, le_max_left _ _⟩
  | @begins engine later starts made next inside begins ih =>
    have limits := inside.reaches.limits
    obtain rfl := eq_of_looping_suffix ih.1
    obtain ⟨opened, opens, stack⟩ := begins.opens
    have longer := congrArg List.length stack
    cases opens with
    | left =>
      simp only [looping, beginning, outside, List.nil_append, List.length_cons] at longer
      omega
    | loop _ _ _ within =>
      simp only [looping, beginning, List.cons_append, List.nil_append, List.cons.injEq, Frame.loop.injEq]
        at stack
      obtain rfl := stack.2.1.2.1
      rw [limits] at within
      exact ⟨List.suffix_cons _ _, by omega⟩
  | @onward engine later starts made frame stack inside within goes ih =>
    obtain ⟨opened, -, after⟩ := goes.opens
    refine ⟨?_, ih.2⟩
    -- The step takes the first frame only, and there is a whole loop below it.
    rcases List.suffix_cons_iff.mp ih.1 with same | suffix
    · have shorter := within.length_le
      have equal := congrArg List.length same
      rw [looping_length] at shorter equal
      simp only [List.length_cons] at equal
      omega
    · exact after ▸ suffix.trans (List.suffix_append _ _)

theorem Entered.next (inside : guard.Entered begun starts moment) (next : Moment.Next moment later) :
    guard.Entered begun starts later ∨
      later.stack = guard.beginning (starts + 1) ∧ guard.Entered begun (starts + 1) later ∨
      later.stack = guard.outside ∧
        (later.engine.run.running = true → later.engine.world.check guard.predicate = true) := by
  have counted := inside.counted.1
  obtain ⟨engine, stack⟩ := moment
  obtain ⟨frame, below, opened, rfl, opens, after⟩ := next.exists_opens
  rcases List.suffix_cons_iff.mp counted with same | within
  · obtain ⟨rfl, rfl⟩ := List.cons.inj same
    obtain ⟨last, stack⟩ := later
    cases opens with
    | left frame done => exact .inr (.inr ⟨after, done _ _ _ rfl⟩)
    | loop =>
      cases after
      exact .inr (.inl ⟨rfl, .begins inside next⟩)
  · exact .inl (.onward inside within next)

/-- Every loop that a run is inside of belongs to a guarded block that it has entered. -/
theorem exists_entered {forest : Forest} (reached : Moment.Reaches ⟨engine, [.rest forest]⟩ moment)
    {predicate : Predicate} {made : Nat} {body : Forest} {under : Stack}
    (inside : .loop predicate made body :: under <:+ moment.stack) :
    ∃ guard : Guard, guard.Entered ⟨engine, [.rest forest]⟩ made moment ∧
      guard.looping made = .loop predicate made body :: under := by
  induction reached generalizing predicate made body under with
  | refl => simp [List.suffix_cons_iff] at inside
  | @tail before moment reached next ih =>
    obtain ⟨earlier, stack⟩ := before
    obtain ⟨last, after⟩ := moment
    obtain ⟨frame, below, opened, rfl, opens, rfl⟩ := next.exists_opens
    -- Only two kinds of steps put a loop on the stack; any other loop was there before.
    have stays {predicate : Predicate} {made : Nat} {body : Forest} {under : Stack}
        (deeper : .loop predicate made body :: under <:+ below) :
        ∃ guard : Guard, guard.Entered ⟨engine, [.rest forest]⟩ made ⟨last, opened ++ below⟩ ∧
          guard.looping made = .loop predicate made body :: under := by
      obtain ⟨guard, entered, same⟩ := ih (deeper.trans (List.suffix_cons _ _))
      exact ⟨guard, .onward entered (same ▸ deeper) next, same⟩
    cases opens with
    | left => exact stays inside
    | command | repeated | again => exact stays (by simpa [List.suffix_cons_iff] using inside)
    | guarded id predicate body rest =>
      simp only [List.cons_append, List.nil_append, List.suffix_cons_iff, List.cons.injEq] at inside
      obtain ⟨⟨⟩, rfl⟩ | ⟨⟨⟩, -⟩ | deeper := inside
      · exact ⟨⟨id, _, _, rest, below⟩, .entry reached next, rfl⟩
      · exact stays deeper
    | loop predicate made body =>
      simp only [List.cons_append, List.nil_append, List.suffix_cons_iff, List.cons.injEq] at inside
      obtain ⟨⟨⟩, -⟩ | ⟨⟨⟩, rfl⟩ | deeper := inside
      · obtain ⟨guard, entered, same⟩ := ih (List.suffix_refl _)
        simp only [looping, List.cons.injEq, Frame.loop.injEq, true_and] at same
        obtain ⟨⟨rfl, rfl⟩, rfl⟩ := same
        exact ⟨guard, .begins entered next, rfl⟩
      · exact stays deeper

end Guard

/-- A guarded block that a run enters begins its body within the limit on passes, and only its predicate lets the
run go on behind it. A run that ends for that limit ends in such a block. -/
theorem Engine.guarded_exits (engine : Engine) (forest : Forest) :
    let begun : Moment := ⟨engine.start, [.rest forest]⟩
    let limits := engine.run.limits
    let ended := (engine.runToEnd forest).value
    (∀ guard : Guard, ∀ last, begun.Reaches ⟨last, guard.ahead⟩ → last.run.running = true →
      guard.Entered begun 0 ⟨last, guard.looping 0⟩) ∧
    (∀ guard : Guard, ∀ starts moment, guard.Entered begun starts moment →
      (starts : Int) ≤ max 0 limits.passes ∧ (∃ last, moment.Reaches last ∧ last.Ends ended) ∧
      ∀ later, moment.Next later → guard.Entered begun starts later ∨
        later.stack = guard.beginning (starts + 1) ∧ guard.Entered begun (starts + 1) later ∨
        later.stack = guard.outside ∧
          (later.engine.run.running = true → later.engine.world.check guard.predicate = true)) ∧
    (ended.run.reason = some .conditionLimit → ∃ guard : Guard, ∃ starts last,
      guard.Entered begun starts last ∧ last.Ends ended ∧ last.stack = guard.looping starts ∧
      ended.world.check guard.predicate = false ∧
      ((starts : Int) = max 0 limits.passes ∨ limits.commands ≤ ended.run.total)) := by
  intro begun limits ended
  refine ⟨fun guard last reached running => ?_, fun guard starts moment inside => ?_, fun reason => ?_⟩
  · exact .entry reached (.control (Engine.ask_of_running running _))
  · exact ⟨inside.counted.2, inside.reaches.exists_ends, fun later next => inside.next next⟩
  · obtain ⟨last, reached, ends⟩ := Moment.exists_ends engine forest
    have same : last.engine.run.limits = limits := reached.limits
    obtain ⟨predicate, made, body, under, stack, halts, fails, barred⟩ :=
      ends.of_conditionLimit (reached.reason_ne nofun) reason
    have within : .loop predicate made body :: under <:+ last.stack := stack ▸ List.suffix_refl _
    obtain ⟨guard, inside, looping⟩ := Guard.exists_entered reached within
    obtain ⟨⟨⟩, -⟩ := List.cons.inj looping
    have counted := inside.counted.2
    refine ⟨guard, made, last, inside, ends, stack.trans looping.symm, ?_, ?_⟩
    · rw [show ended = _ from halts]
      exact fails
    · rw [same] at barred
      rw [show ended = _ from halts]
      obtain full | spent := barred
      · exact .inl (counted.antisymm (max_le (Int.natCast_nonneg made) full))
      · exact .inr (same ▸ of_decide_eq_true spent)

example :
    let ended := (Engine.runToEnd ⟨.ofPuzzle corridor, { limits := ⟨9, 2⟩ }⟩
      (.guarded 1 .obstacleAhead (.command 2 (.turn .right) (.command 3 (.turn .left) .empty)) .empty)).value
    ended.run.reason = some .conditionLimit ∧ ended.run.total = 4 := by
  cbv

end BlockMaze
