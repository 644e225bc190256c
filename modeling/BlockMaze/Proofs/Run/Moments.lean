import Mathlib.Logic.Relation
import BlockMaze.Proofs.Run.Resume

/-! The moments of a run that is left to itself. Between two of them there is one step of control, which asks
whether the run still goes on, or one command. From its first moment a run comes to the one it ends at. -/
namespace BlockMaze

structure Moment where
  engine : Engine
  stack : Stack

namespace Moment

inductive Next : Moment → Moment → Prop
  | control {engine : Engine} {stack next : Stack} (step : engine.ask stack = .onto next) :
      Next ⟨engine, stack⟩ ⟨engine, next⟩
  | command {engine later : Engine} {stack after : Stack} {command : Command} {event : Option Event}
      (step : engine.ask stack = .found (.command command after))
      (went : (engine.follow (.command command after)).value = (later, .pending after, event)) :
      Next ⟨engine, stack⟩ ⟨later, after⟩

abbrev Reaches : Moment → Moment → Prop := Relation.ReflTransGen Next

/-- There is nothing after this moment, and the run leaves this engine behind. -/
def Ends (moment : Moment) (last : Engine) : Prop :=
  ∃ found, moment.engine.ask moment.stack = .found found ∧
    (moment.engine.follow found).value = (last, .spent, none)

variable {engine : Engine} {stack below : Stack} {frame : Frame} {moment later : Moment}

section next

/-- What comes in the place of the first frame, and the engine that goes on with it. A loop is left if its
predicate holds or the run is over. -/
inductive Opens (engine : Engine) : Frame → Engine → Stack → Prop
  | left (frame : Frame) (done : ∀ predicate made body, frame = .loop predicate made body →
      engine.run.running = true → engine.world.check predicate = true) : Opens engine frame engine []
  | command (id : Int) (command : Command) (rest : Forest) (running : engine.run.running = true) :
      Opens engine (.rest (.command id command rest))
        ((engine.obeyed command).settled (engine.world.apply command).1).value [.rest rest]
  | repeated (id count : Int) (body rest : Forest) : Opens engine (.rest (.repeated id count body rest))
      engine [.again (passes count) body, .rest rest]
  | again (left : Nat) (body : Forest) :
      Opens engine (.again (left + 1) body) engine [.rest body, .again left body]
  | guarded (id : Int) (predicate : Predicate) (body rest : Forest) :
      Opens engine (.rest (.guarded id predicate body rest)) engine [.loop predicate 0 body, .rest rest]
  | loop (predicate : Predicate) (made : Nat) (body : Forest)
      (within : (made : Int) < engine.run.limits.passes) :
      Opens engine (.loop predicate made body) engine [.rest body, .loop predicate (made + 1) body]

theorem eq_settled_of_pending {later : Engine} {after : Stack} {command : Command} {event : Option Event}
    (running : engine.run.running = true)
    (went : (engine.follow (.command command after)).value = (later, .pending after, event)) :
    later = ((engine.obeyed command).settled (engine.world.apply command).1).value := by
  cases spent : engine.exhausted with
  | true =>
    rw [Engine.follow, Engine.perform_of_exhausted running spent] at went
    cases went
  | false =>
    rw [Engine.follow, Engine.perform_of_not_exhausted running spent] at went
    cases went
    rfl

theorem Next.opens (next : Next ⟨engine, frame :: below⟩ later) :
    ∃ opened, Opens engine frame later.engine opened ∧ later.stack = opened ++ below := by
  cases running : engine.run.running with
  | false =>
    have asked := Engine.ask_of_stopped running frame below
    have left : Opens engine frame engine [] := .left frame fun _ _ _ _ on => by simp [running] at on
    cases next with
    | control step =>
      cases asked.symm.trans step
      exact ⟨[], left, rfl⟩
    | command step => cases asked.symm.trans step
  | true =>
    cases next with
    | control step =>
      rw [Engine.ask_of_running running] at step
      rcases frame with (_ | _ | ⟨id, count, body, rest⟩ | ⟨id, predicate, body, rest⟩) | ⟨_ | left, body⟩ |
        ⟨predicate, made, body⟩
      case loop =>
        rw [Engine.unwind] at step
        split at step
        · rename_i holds
          cases step
          exact ⟨[], .left _ fun _ _ _ same _ => by cases same; exact holds, rfl⟩
        · split at step
          · rename_i allowed
            cases step
            exact ⟨_, .loop predicate made body allowed.1, rfl⟩
          · cases step
      all_goals cases step
      case rest.empty.refl | again.zero.refl => exact ⟨[], .left _ nofun, rfl⟩
      case rest.repeated.refl => exact ⟨_, .repeated id count body rest, rfl⟩
      case rest.guarded.refl => exact ⟨_, .guarded id predicate body rest, rfl⟩
      case again.succ.refl => exact ⟨_, .again left body, rfl⟩
    | command step went =>
      rw [Engine.ask_of_running running] at step
      rcases frame with (_ | ⟨id, command, rest⟩ | _ | _) | ⟨_ | _, _⟩ | _
      case rest.command =>
        cases step
        obtain rfl := eq_settled_of_pending running went
        exact ⟨_, .command id _ rest running, rfl⟩
      case loop =>
        rw [Engine.unwind] at step
        split at step
        · cases step
        · split at step <;> cases step
      all_goals cases step

theorem Next.exists_opens (next : Next moment later) : ∃ frame below opened,
    moment.stack = frame :: below ∧ Opens moment.engine frame later.engine opened ∧
      later.stack = opened ++ below := by
  rcases moment with ⟨engine, _ | ⟨frame, below⟩⟩
  · rcases next with ⟨step⟩ | ⟨step⟩ <;> cases step
  · obtain ⟨opened, opens⟩ := next.opens
    exact ⟨frame, below, opened, rfl, opens⟩

theorem Next.unique {other : Moment} (one : Next moment later) (another : Next moment other) :
    later = other := by
  cases one with
  | control step =>
    cases another with
    | control same => rw [Unwound.onto.inj (step.symm.trans same)]
    | command same => cases step.symm.trans same
  | command step went =>
    cases another with
    | control same => cases step.symm.trans same
    | command same going =>
      cases step.symm.trans same
      cases went.symm.trans going
      rfl

theorem Opens.limits {later : Engine} {opened : Stack} (opens : Opens engine frame later opened) :
    later.run.limits = engine.run.limits := by
  cases opens with
  | command => exact Engine.settled_limits
  | _ => rfl

theorem Opens.reason_ne {later : Engine} {opened : Stack} (opens : Opens engine frame later opened)
    (before : engine.run.reason ≠ some .conditionLimit) : later.run.reason ≠ some .conditionLimit := by
  cases opens with
  | command id command rest running =>
    by_cases won : (engine.world.apply command).1 = .won
    · rw [Engine.settled_of_won won]
      exact nofun
    · by_cases limited : (engine.obeyed command).world.puzzle.moveLimit ≤ (engine.obeyed command).world.moves
      · rw [Engine.settled_of_limit won limited]
        exact nofun
      · rw [Engine.settled_of_below won limited]
        exact before
  | _ => exact before

theorem Reaches.limits {begun moment : Moment} (reached : begun.Reaches moment) :
    moment.engine.run.limits = begun.engine.run.limits := by
  induction reached with
  | refl => rfl
  | tail _ next ih =>
    obtain ⟨frame, below, opened, -, opens, -⟩ := next.exists_opens
    exact opens.limits.trans ih

theorem Reaches.reason_ne {begun moment : Moment} (reached : begun.Reaches moment)
    (before : begun.engine.run.reason ≠ some .conditionLimit) :
    moment.engine.run.reason ≠ some .conditionLimit := by
  induction reached with
  | refl => exact before
  | tail _ next ih =>
    obtain ⟨frame, below, opened, -, opens, -⟩ := next.exists_opens
    exact opens.reason_ne ih

end next

section ends

theorem unwind_found {engine : Engine} {frame : Frame} {under : Stack} {found : Found}
    (step : engine.unwind (frame :: under) = .found found) :
    (∃ command after, found = .command command after) ∨
      ∃ predicate made body, frame = .loop predicate made body ∧ found = .passLimit ∧
        engine.world.check predicate = false ∧
        (engine.run.limits.passes ≤ made ∨ engine.exhausted = true) := by
  rcases frame with (_ | ⟨id, command, rest⟩ | _ | _) | ⟨_ | _, _⟩ | ⟨predicate, made, body⟩
  case rest.command =>
    cases step
    exact .inl ⟨_, _, rfl⟩
  case loop =>
    rw [Engine.unwind] at step
    split at step
    · cases step
    · rename_i fails
      split at step
      · cases step
      · rename_i barred
        cases step
        refine .inr ⟨predicate, made, body, rfl, rfl, eq_false_of_ne_true fails, ?_⟩
        rwa [not_and_or, not_not, not_lt] at barred
  all_goals cases step

theorem reaches_found (running : engine.run.running = true) (stack : Stack) :
    ∃ place, Reaches ⟨engine, stack⟩ ⟨engine, place⟩ ∧ engine.ask place = .found (engine.seek stack) := by
  obtain ⟨steps, -, unwinds⟩ := engine.exists_unwinds stack
  generalize engine.seek stack = result at unwinds
  induction unwinds with
  | found step => exact ⟨_, .refl, (Engine.ask_of_running running _).trans step⟩
  | onto step _ ih =>
    obtain ⟨place, reached, found⟩ := ih
    exact ⟨place, reached.head (.control ((Engine.ask_of_running running _).trans step)), found⟩

theorem follow_finished_of_stopped (stopped : engine.run.running = false) :
    (engine.follow .finished).value = (engine, .spent, none) := by
  rw [Engine.follow]
  split <;> rw [Engine.finish_of_stopped stopped] <;> rfl

theorem exists_ends_of_stopped (stopped : engine.run.running = false) (stack : Stack) :
    ∃ last, Reaches ⟨engine, stack⟩ last ∧ last.Ends engine := by
  induction stack with
  | nil => exact ⟨_, .refl, .finished, rfl, follow_finished_of_stopped stopped⟩
  | cons frame below ih =>
    obtain ⟨last, reached, ends⟩ := ih
    exact ⟨last, reached.head (.control (Engine.ask_of_stopped stopped frame below)), ends⟩

theorem follow_cases (engine : Engine) (found : Found) :
    (∃ last, (engine.follow found).value = (last, .spent, none)) ∨
      ∃ command after later event, found = .command command after ∧
        (engine.follow found).value = (later, .pending after, event) := by
  cases found with
  | passLimit => exact .inl ⟨(engine.follow .passLimit).value.1, rfl⟩
  | finished =>
    rw [Engine.follow]
    split <;> exact .inl ⟨_, rfl⟩
  | command command after =>
    rcases performed : engine.perform command with ⟨⟨later, _ | event⟩, signals⟩
    · refine .inl ⟨later, ?_⟩
      rw [Engine.follow, performed]
      rfl
    · refine .inr ⟨command, after, later, some event, rfl, ?_⟩
      rw [Engine.follow, performed]
      rfl

theorem after_spent (engine : Engine) (count : Nat) : engine.after .spent count = (engine, .spent) := by
  induction count with
  | zero => rfl
  | succ count ih => exact ih

theorem reaches_after (engine : Engine) (stack : Stack) (count : Nat) :
    ∃ last, Reaches ⟨engine, stack⟩ last ∧
      (engine.after (.pending stack) count = (last.engine, .pending last.stack) ∨
        last.Ends (engine.after (.pending stack) count).1) := by
  induction count generalizing engine stack with
  | zero => exact ⟨_, .refl, .inl rfl⟩
  | succ count ih =>
    cases running : engine.run.running with
    | false =>
      obtain ⟨last, reached, ends⟩ := exists_ends_of_stopped running stack
      refine ⟨last, reached, .inr ?_⟩
      rwa [Engine.after, Engine.next_of_not_running running, after_spent]
    | true =>
      obtain ⟨place, reached, found⟩ := reaches_found running stack
      have called : engine.next (.pending stack) = engine.follow (engine.seek stack) := if_pos running
      rw [Engine.after, called]
      rcases follow_cases engine (engine.seek stack) with
        ⟨last, halts⟩ | ⟨command, after, later, event, same, went⟩
      · refine ⟨_, reached, .inr ⟨_, found, ?_⟩⟩
        rw [halts, after_spent]
      · rw [went]
        rw [same] at found went
        obtain ⟨last, further, ends⟩ := ih later after
        exact ⟨last, reached.trans (further.head (.command found went)), ends⟩

theorem Ends.not_next {last : Engine} (ends : moment.Ends last) : ¬ Next moment later := by
  obtain ⟨found, asked, halts⟩ := ends
  rintro (step | ⟨step, went⟩)
  · cases asked.symm.trans step
  · cases asked.symm.trans step
    cases halts.symm.trans went

theorem follow_finished_reason_ne (before : engine.run.reason ≠ some .conditionLimit) :
    (engine.follow .finished).value.1.run.reason ≠ some .conditionLimit := by
  cases running : engine.run.running with
  | false => rwa [follow_finished_of_stopped running]
  | true =>
    rw [Engine.follow]
    split
    · rw [Engine.finish_won running]
      intro same
      cases same
    · rw [Engine.finish_lost running]
      intro same
      cases same

/-- Only a loop whose predicate fails ends a run for the limit on passes. -/
theorem Ends.of_conditionLimit {last : Engine} (ends : moment.Ends last)
    (before : moment.engine.run.reason ≠ some .conditionLimit) (reason : last.run.reason = some .conditionLimit) :
    ∃ predicate made body under, moment.stack = .loop predicate made body :: under ∧
      last = moment.engine.ended .lost (some .conditionLimit) ∧
      moment.engine.world.check predicate = false ∧
      (moment.engine.run.limits.passes ≤ made ∨ moment.engine.exhausted = true) := by
  obtain ⟨engine, stack⟩ := moment
  obtain ⟨found, asked, halts⟩ := ends
  cases stack with
  | nil =>
    cases asked
    have other := follow_finished_reason_ne before
    rw [halts] at other
    exact absurd reason other
  | cons frame under =>
    cases running : engine.run.running with
    | false => cases (Engine.ask_of_stopped running frame under).symm.trans asked
    | true =>
      rw [Engine.ask_of_running running] at asked
      obtain ⟨command, after, rfl⟩ | ⟨predicate, made, body, rfl, rfl, fails, barred⟩ := unwind_found asked
      · rw [Engine.follow] at halts
        cases spent : engine.exhausted with
        | true =>
          rw [Engine.perform_of_exhausted running spent] at halts
          cases halts
          cases reason
        | false =>
          rw [Engine.perform_of_not_exhausted running spent] at halts
          cases halts
      · rw [Engine.follow, Engine.stop_of_running running] at halts
        cases halts
        exact ⟨predicate, made, body, under, rfl, rfl, fails, barred⟩

theorem exists_ends (engine : Engine) (forest : Forest) :
    ∃ last, Reaches ⟨engine.start, [.rest forest]⟩ last ∧ last.Ends (engine.runToEnd forest).value := by
  obtain ⟨count, value, stopped⟩ := engine.exists_runToEnd_value forest
  rw [value] at stopped ⊢
  obtain ⟨last, reached, pending | ends⟩ := reaches_after engine.start [.rest forest] count
  · have calls : engine.start.after (.ofForest forest) count = (last.engine, .pending last.stack) := pending
    rw [calls] at stopped ⊢
    obtain ⟨final, further, ends⟩ := exists_ends_of_stopped stopped last.stack
    exact ⟨final, reached.trans further, ends⟩
  · exact ⟨last, reached, ends⟩

/-- There is one way through a run, so that every moment of it is on the way to its end. -/
theorem Reaches.exists_ends {engine : Engine} {forest : Forest}
    (reached : Reaches ⟨engine.start, [.rest forest]⟩ moment) :
    ∃ last, Reaches moment last ∧ last.Ends (engine.runToEnd forest).value := by
  obtain ⟨last, further, ends⟩ := Moment.exists_ends engine forest
  have unique : Relator.RightUnique Next := fun _ _ _ one another => one.unique another
  obtain onward | back := Relation.ReflTransGen.total_of_right_unique unique reached further
  · exact ⟨last, onward, ends⟩
  · obtain rfl | ⟨later, next, -⟩ := back.cases_head
    · exact ⟨last, .refl, ends⟩
    · exact absurd next ends.not_next

end ends

end Moment

end BlockMaze
