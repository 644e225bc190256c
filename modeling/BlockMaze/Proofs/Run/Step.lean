import BlockMaze.Run.Walk

/-! What one call of a walk does. Everything about whole runs is derived from `Advance`, which lists
the ways a call can go while a run is under way. -/
namespace BlockMaze.Engine

def ended (outcome : Outcome) (reason : Option Reason) (engine : Engine) : Engine :=
  { engine with run := { engine.run with running := false, outcome := some outcome, reason } }

def stopSignals (notice : Notice) (reason : Reason) (engine : Engine) : List Signal :=
  [.event (.notice notice), .log (.runLost (some reason)),
    .event (.lost (some reason) engine.world.moves)]

variable {engine : Engine}

theorem finish_of_stopped (stopped : engine.run.running = false) (outcome : Outcome)
    (reason : Option Reason) : engine.finish outcome reason = ⟨engine, []⟩ := by
  rw [finish, if_neg (by simp [stopped])]

theorem finish_won (running : engine.run.running = true) (reason : Option Reason) :
    engine.finish .won reason = ⟨engine.ended .won reason, [.event (.won engine.world.moves)]⟩ := by
  rw [finish, if_pos running]
  rfl

theorem finish_lost (running : engine.run.running = true) (reason : Option Reason) :
    engine.finish .lost reason = ⟨engine.ended .lost reason,
      [.log (.runLost reason), .event (.lost reason engine.world.moves)]⟩ := by
  rw [finish, if_pos running]
  rfl

theorem stop_of_running (running : engine.run.running = true) (notice : Notice) (reason : Reason) :
    engine.stop notice reason =
      ⟨engine.ended .lost (some reason), engine.stopSignals notice reason⟩ := by
  rw [stop, finish_lost running]
  rfl

/-- The engine after a command, before its run is perhaps ended. -/
def obeyed (command : Command) (engine : Engine) : Engine :=
  { world := (engine.world.apply command).2, run := { engine.run with total := engine.run.total + 1 } }

def settled (result : StepResult) (engine : Engine) : Told Engine :=
  if result = .won then ⟨engine.ended .won none, [.event (.won engine.world.moves)]⟩
  else if engine.world.puzzle.moveLimit ≤ engine.world.moves then
    ⟨engine.ended .lost (some .moveLimit),
      engine.stopSignals (.moveLimit engine.world.puzzle.moveLimit) .moveLimit⟩
  else ⟨engine, []⟩

def eventOf (command : Command) (engine : Engine) : Event :=
  command.event (engine.world.apply command).1 (engine.world.apply command).2

def commandSignals (command : Command) (engine : Engine) : List Signal :=
  engine.world.applySignals command ++
    [.log (.commandRun (engine.run.total + 1) command (engine.world.apply command).1),
      .event (engine.eventOf command), .board (engine.obeyed command).world.snapshot]

theorem applySignals_cases (world : World) (command : Command) :
    world.applySignals command = [] ∨ ∃ record, world.applySignals command = [.log record] := by
  cases command with
  | turn side => exact .inl rfl
  | forward =>
    simp only [World.applySignals, World.moveSignals]
    split
    · exact .inr ⟨_, rfl⟩
    · exact .inl rfl

theorem perform_of_exhausted (running : engine.run.running = true) (spent : engine.exhausted = true)
    (command : Command) :
    engine.perform command = ⟨(engine.ended .lost (some .commandLimit), none),
      engine.stopSignals .commandLimit .commandLimit⟩ := by
  rw [perform, if_pos spent, stop_of_running running]
  rfl

theorem settled_of_won {result : StepResult} (won : result = .won) : engine.settled result =
    ⟨engine.ended .won none, [.event (.won engine.world.moves)]⟩ := by
  rw [settled, if_pos won]

theorem settled_of_limit {result : StepResult} (unwon : result ≠ .won)
    (limited : engine.world.puzzle.moveLimit ≤ engine.world.moves) :
    engine.settled result = ⟨engine.ended .lost (some .moveLimit),
      engine.stopSignals (.moveLimit engine.world.puzzle.moveLimit) .moveLimit⟩ := by
  rw [settled, if_neg unwon, if_pos limited]

theorem settled_of_below {result : StepResult} (unwon : result ≠ .won)
    (below : ¬ engine.world.puzzle.moveLimit ≤ engine.world.moves) :
    engine.settled result = ⟨engine, []⟩ := by
  rw [settled, if_neg unwon, if_neg below]

theorem perform_of_not_exhausted (running : engine.run.running = true)
    (unspent : engine.exhausted = false) (command : Command) :
    engine.perform command =
      let settled := (engine.obeyed command).settled (engine.world.apply command).1
      ⟨(settled.value, some (engine.eventOf command)),
        engine.commandSignals command ++ settled.signals⟩ := by
  have goes_on : (engine.obeyed command).run.running = true := running
  rw [perform, if_neg (by simp [unspent])]
  by_cases won : (engine.world.apply command).1 = .won
  · simp only [if_pos won]
    rw [settled_of_won won]
    change (do
      tell (engine.commandSignals command)
      let settled ← (engine.obeyed command).finish .won none
      return (settled, some (engine.eventOf command))) = _
    rw [finish_won goes_on]
    rfl
  · by_cases limited : (engine.world.apply command).2.puzzle.moveLimit ≤
        (engine.world.apply command).2.moves
    · simp only [if_neg won, if_pos limited]
      rw [settled_of_limit won limited]
      change (do
        tell (engine.commandSignals command)
        let settled ← (engine.obeyed command).stop _ _
        return (settled, some (engine.eventOf command))) = _
      rw [stop_of_running goes_on]
      rfl
    · simp only [if_neg won, if_neg limited]
      rw [settled_of_below won limited]
      rfl

inductive Advance (engine : Engine) (stack : Stack) : Told (Engine × Walk × Option Event) → Prop
  | commandLimit (command : Command) (after : Stack)
      (found : engine.seek stack = .command command after) (spent : engine.exhausted = true) :
      Advance engine stack ⟨(engine.ended .lost (some .commandLimit), .spent, none),
        engine.stopSignals .commandLimit .commandLimit⟩
  | passLimit (found : engine.seek stack = .passLimit) :
      Advance engine stack ⟨(engine.ended .lost (some .conditionLimit), .spent, none),
        engine.stopSignals .conditionLimit .conditionLimit⟩
  | arrived (found : engine.seek stack = .finished) (there : engine.world.atGoal = true) :
      Advance engine stack ⟨(engine.ended .won none, .spent, none),
        [.event (.won engine.world.moves)]⟩
  | away (found : engine.seek stack = .finished) (elsewhere : engine.world.atGoal = false) :
      Advance engine stack ⟨(engine.ended .lost (some .endedAway), .spent, none),
        [.log (.runLost (some .endedAway)), .event (.lost (some .endedAway) engine.world.moves)]⟩
  | obeyed (command : Command) (after : Stack)
      (found : engine.seek stack = .command command after) (unspent : engine.exhausted = false) :
      Advance engine stack
        (let settled := (engine.obeyed command).settled (engine.world.apply command).1
         ⟨(settled.value, .pending after, some (engine.eventOf command)),
          engine.commandSignals command ++ settled.signals⟩)

theorem next_of_not_running (stopped : engine.run.running = false) (stack : Stack) :
    engine.next (.pending stack) = ⟨(engine, .spent, none), []⟩ := by
  rw [next, if_neg (by simp [stopped])]
  rfl

theorem next_advance (running : engine.run.running = true) (stack : Stack) :
    Advance engine stack (engine.next (.pending stack)) := by
  rw [next, if_pos running]
  cases found : engine.seek stack with
  | command command after =>
    cases spent : engine.exhausted with
    | true =>
      have told : engine.follow (.command command after) =
          ⟨(engine.ended .lost (some .commandLimit), .spent, none),
            engine.stopSignals .commandLimit .commandLimit⟩ := by
        rw [follow, perform_of_exhausted running spent]
        rfl
      rw [told]
      exact .commandLimit command after found spent
    | false =>
      have told : engine.follow (.command command after) =
          (let settled := (engine.obeyed command).settled (engine.world.apply command).1
           ⟨(settled.value, .pending after, some (engine.eventOf command)),
            engine.commandSignals command ++ settled.signals⟩) := by
        rw [follow, perform_of_not_exhausted running spent]
        simp [bind, pure]
      rw [told]
      exact .obeyed command after found spent
  | passLimit =>
    have told : engine.follow .passLimit =
        ⟨(engine.ended .lost (some .conditionLimit), .spent, none),
          engine.stopSignals .conditionLimit .conditionLimit⟩ := by
      rw [follow, stop_of_running running]
      rfl
    rw [told]
    exact .passLimit found
  | finished =>
    cases there : engine.world.atGoal with
    | true =>
      have told : engine.follow .finished =
          ⟨(engine.ended .won none, .spent, none), [.event (.won engine.world.moves)]⟩ := by
        rw [follow, if_pos there, finish_won running]
        rfl
      rw [told]
      exact .arrived found there
    | false =>
      have told : engine.follow .finished =
          ⟨(engine.ended .lost (some .endedAway), .spent, none),
            [.log (.runLost (some .endedAway)),
              .event (.lost (some .endedAway) engine.world.moves)]⟩ := by
        rw [follow, if_neg (by simp [there]), finish_lost running]
        rfl
      rw [told]
      exact .away found there

theorem Advance.next_eq {stack : Stack} {told : Told (Engine × Walk × Option Event)}
    (advance : Advance engine stack told) (running : engine.run.running = true) :
    engine.next (.pending stack) = told := by
  have called := next_advance running stack
  generalize engine.next (.pending stack) = other at called
  cases advance <;> cases called <;> simp_all

end BlockMaze.Engine
