import BlockMaze.Proofs.Report.Heard
import BlockMaze.Proofs.Run.Yields

/-! The trace of a run. Its listeners hear of every command as it is carried out, then of the limit that was
met, if there was one, and last of the end. The events of the commands are those that the run yields, each
comes with a board, and each follows from the world before it by one operation. -/
namespace BlockMaze

/-- Whether an event tells of a command that was carried out. -/
def Event.isStep (event : Event) : Bool :=
  event.kind = .moved || event.kind = .blocked || event.kind = .turned

/-- One operation on a world, with the event that tells of it and the world it leads to. -/
inductive World.Leads (world : World) : Event → World → Prop
  | moved (clear : world.tryMove.1 ≠ .blocked) : Leads world (.moved world.tryMove.2.pose) world.tryMove.2
  | blocked (refused : world.tryMove.1 = .blocked) :
      Leads world (.blocked world.tryMove.2.pose) world.tryMove.2
  | turned (side : Side) : Leads world (.turned side (world.turn side).2.pose) (world.turn side).2

/-- Operations one after the other, each with its event and the board it leaves. -/
inductive World.Trace : World → List Event → List Snapshot → World → Prop
  | still (world : World) : Trace world [] [] world
  | onward {world next last : World} {event : Event} {events : List Event} {boards : List Snapshot}
      (step : world.Leads event next) (rest : Trace next events boards last) :
      Trace world (event :: events) (next.snapshot :: boards) last

namespace World
variable {world next last : World} {event : Event} {events more : List Event} {boards shown : List Snapshot}

theorem leads_apply (world : World) (command : Command) :
    world.Leads (command.event (world.apply command).1 (world.apply command).2) (world.apply command).2 := by
  cases command with
  | turn side => exact .turned side
  | forward =>
    simp only [Command.event]
    split
    · rename_i refused
      exact .blocked refused
    · rename_i clear
      exact .moved clear

theorem Leads.isStep (step : world.Leads event next) : event.isStep = true := by
  cases step <;> rfl

theorem Leads.pose?_eq (step : world.Leads event next) : event.pose? = some next.pose := by
  cases step <;> rfl

theorem Trace.single (step : world.Leads event next) : Trace world [event] [next.snapshot] next :=
  .onward step (.still next)

theorem Trace.append (first : Trace world events boards next) (second : Trace next more shown last) :
    Trace world (events ++ more) (boards ++ shown) last := by
  induction first with
  | still => exact second
  | onward step _ ih => exact .onward step (ih second)

theorem Trace.isStep (trace : Trace world events boards last) : ∀ event ∈ events, event.isStep = true := by
  induction trace with
  | still => exact fun event member => absurd member List.not_mem_nil
  | onward step _ ih => exact List.forall_mem_cons.mpr ⟨step.isStep, ih⟩

theorem Trace.poses (trace : Trace world events boards last) :
    boards.map (fun board => some board.pose) = events.map Event.pose? := by
  induction trace with
  | still => rfl
  | onward step _ ih =>
    rw [List.map_cons, List.map_cons, ih, step.pose?_eq]
    rfl

end World

namespace Engine

def limitNotices (engine : Engine) : List Event :=
  match engine.run.reason with
  | some .commandLimit => [.notice .commandLimit]
  | some .conditionLimit => [.notice .conditionLimit]
  | some .moveLimit => [.notice (.moveLimit engine.world.puzzle.moveLimit)]
  | _ => []

def ending (engine : Engine) : Event :=
  if engine.run.outcome = some .won then .won engine.world.moves
  else .lost engine.run.reason engine.world.moves

def closing (engine : Engine) : List Event :=
  if engine.run.running then [] else engine.limitNotices ++ [engine.ending]

/-- What is told of a part of a run up to some engine, from the world it began in. -/
structure Recounts (world : World) (yields : List Event) (signals : List Signal) (later : Engine) :
    Prop where
  events : eventsIn signals = yields ++ later.closing
  trace : world.Trace yields (boardsIn signals) later.world

section recounts
variable {world : World} {engine between later : Engine} {yields more : List Event}
  {early late : List Signal}

theorem closing_of_running (running : engine.run.running = true) : engine.closing = [] := if_pos running

theorem Recounts.still (running : engine.run.running = true) : Recounts engine.world [] [] engine :=
  ⟨(closing_of_running running).symm, .still _⟩

theorem Recounts.trans (first : Recounts world yields early between)
    (running : between.run.running = true) (second : Recounts between.world more late later) :
    Recounts world (yields ++ more) (early ++ late) later where
  events := by
    rw [eventsIn_append, first.events, second.events, closing_of_running running, List.append_nil,
      List.append_assoc]
  trace := by
    rw [boardsIn_append]
    exact first.trace.append second.trace

theorem commandSignals_heard (engine : Engine) (command : Command) :
    eventsIn (engine.commandSignals command) = [engine.eventOf command] ∧
      boardsIn (engine.commandSignals command) = [(engine.obeyed command).world.snapshot] := by
  rw [commandSignals]
  rcases applySignals_cases engine.world command with none_told | ⟨record, told⟩
  · rw [none_told]
    exact ⟨rfl, rfl⟩
  · rw [told]
    exact ⟨rfl, rfl⟩

theorem settled_heard (running : engine.run.running = true) (result : StepResult) :
    eventsIn (engine.settled result).signals = (engine.settled result).value.closing ∧
      boardsIn (engine.settled result).signals = [] := by
  by_cases won : result = .won
  · rw [settled_of_won won]
    exact ⟨rfl, rfl⟩
  · by_cases limited : engine.world.puzzle.moveLimit ≤ engine.world.moves
    · rw [settled_of_limit won limited]
      exact ⟨rfl, rfl⟩
    · rw [settled_of_below won limited]
      exact ⟨(closing_of_running running).symm, rfl⟩

theorem obeyed_recounts (running : engine.run.running = true) (command : Command) :
    let settled := (engine.obeyed command).settled (engine.world.apply command).1
    Recounts engine.world [engine.eventOf command] (engine.commandSignals command ++ settled.signals)
      settled.value := by
  obtain ⟨event, board⟩ := commandSignals_heard engine command
  have goes_on : (engine.obeyed command).run.running = true := running
  obtain ⟨closed, no_board⟩ := settled_heard goes_on (engine.world.apply command).1
  constructor
  · rw [eventsIn_append, event, closed]
  · rw [boardsIn_append, board, no_board, settled_world, List.append_nil]
    exact .single (engine.world.leads_apply command)

theorem next_recounts (running : engine.run.running = true) (walk : Walk) :
    Recounts engine.world (engine.next walk).value.2.2.toList (engine.next walk).signals
      (engine.next walk).value.1 := by
  rcases next_idle_or_advance engine walk with idle | ⟨_, stack, advance⟩
  · rw [idle]
    exact .still running
  · generalize engine.next walk = told at advance
    cases advance with
    | commandLimit | passLimit | arrived | away => exact ⟨rfl, .still _⟩
    | obeyed command => exact obeyed_recounts running command

theorem abort_recounts (running : engine.run.running = true) :
    Recounts engine.world [] engine.abort.signals engine.abort.value := by
  rw [abort, finish_lost running]
  exact ⟨rfl, .still _⟩

theorem drainWithin_recounts (running : engine.run.running = true) (bound count : Nat) (walk : Walk) :
    Recounts engine.world (yieldsWithin bound engine walk) (drainWithin bound count engine walk).signals
      (drainWithin bound count engine walk).value.1 := by
  induction bound generalizing engine walk count with
  | zero => exact .still running
  | succ bound ih =>
    have call := next_recounts running walk
    cases yielding : (engine.next walk).value.2.2 with
    | none =>
      rw [yielding] at call
      rw [drainWithin_told_of_silent yielding, yieldsWithin_of_silent yielding]
      exact call
    | some event =>
      rw [yielding] at call
      rw [drainWithin_told_of_yielding yielding, yieldsWithin_of_yielding yielding]
      -- a call may yield its event and end the run at once; then it is the last to tell anything
      cases goes_on : (engine.next walk).value.1.run.running with
      | true => exact call.trans goes_on (ih goes_on (count + 1) _)
      | false =>
        rw [drainWithin_of_stopped goes_on, yieldsWithin_of_silent (by rw [next_of_stopped goes_on])]
        simpa using call

end recounts

/-- A run that is over as its listeners heard of it, from the world it began in, with what it yielded. -/
structure Faithful (world : World) (yields : List Event) (told : Told Engine) : Prop where
  stopped : told.value.run.running = false
  word : eventsIn told.signals = yields ++ told.value.limitNotices ++ [told.value.ending]
  kinds : (∀ event ∈ yields, event.isStep = true) ∧
    told.value.limitNotices.length ≤ 1 ∧ (∀ event ∈ told.value.limitNotices, event.kind = .diagnostic) ∧
    (told.value.ending.kind = .won ∨ told.value.ending.kind = .lost)
  noticed_iff : (∃ event ∈ eventsIn told.signals, event.kind = .diagnostic) ↔
    told.value.run.reason = some .commandLimit ∨ told.value.run.reason = some .conditionLimit ∨
      told.value.run.reason = some .moveLimit
  won_iff : (eventsIn told.signals).getLast?.map Event.kind = some .won ↔
    told.value.run.outcome = some .won
  yielded : yields = (eventsIn told.signals).filter Event.isStep
  shown : (boardsIn told.signals).map (fun board => some board.pose) = yields.map Event.pose?
  trace : world.Trace yields (boardsIn told.signals) told.value.world

section faithful
variable {world : World} {engine later : Engine} {yields : List Event} {signals : List Signal}

theorem limitNotices_kind : ∀ event ∈ later.limitNotices, event.kind = .diagnostic := by
  unfold limitNotices
  split <;> simp [Event.kind]

theorem length_limitNotices_le : later.limitNotices.length ≤ 1 := by
  unfold limitNotices
  split <;> simp

theorem limitNotices_ne_nil_iff : later.limitNotices ≠ [] ↔
    later.run.reason = some .commandLimit ∨ later.run.reason = some .conditionLimit ∨
      later.run.reason = some .moveLimit := by
  unfold limitNotices
  split <;> simp_all

theorem ending_kind : later.ending.kind = if later.run.outcome = some .won then .won else .lost := by
  unfold ending
  split <;> rfl

theorem isStep_eq_false {event : Event}
    (kind : event.kind = .diagnostic ∨ event.kind = .won ∨ event.kind = .lost) : event.isStep = false := by
  rcases kind with kind | kind | kind <;> simp [Event.isStep, kind]

theorem Recounts.faithful (recounts : Recounts world yields signals later)
    (stopped : later.run.running = false) : Faithful world yields ⟨later, signals⟩ := by
  have heard : eventsIn signals = yields ++ later.limitNotices ++ [later.ending] := by
    rw [recounts.events, closing, if_neg (by simp [stopped]), List.append_assoc]
  have steps := recounts.trace.isStep
  have ends : later.ending.kind = .won ∨ later.ending.kind = .lost := by
    rw [ending_kind]
    split <;> simp
  have not_step : later.ending.isStep = false := isStep_eq_false (.inr ends)
  have no_steps : later.limitNotices.filter Event.isStep = [] := by
    refine List.filter_eq_nil_iff.mpr fun event member => ?_
    simp [isStep_eq_false (.inl (limitNotices_kind event member))]
  refine ⟨stopped, heard, ⟨steps, length_limitNotices_le, limitNotices_kind, ends⟩, ?_, ?_, ?_,
    recounts.trace.poses, recounts.trace⟩
  · rw [← limitNotices_ne_nil_iff, heard]
    constructor
    · rintro ⟨event, member, diagnostic⟩
      have silent := isStep_eq_false (.inl diagnostic)
      rcases List.mem_append.mp member with early | last
      · rcases List.mem_append.mp early with step | notice
        · cases silent.symm.trans (steps event step)
        · exact List.ne_nil_of_mem notice
      · cases List.mem_singleton.mp last
        simp [diagnostic] at ends
    · intro noticed
      obtain ⟨event, member⟩ := List.exists_mem_of_ne_nil _ noticed
      have told := List.mem_append_right yields member
      exact ⟨event, List.mem_append_left _ told, limitNotices_kind event member⟩
  · rw [heard, List.getLast?_concat, Option.map_some, ending_kind]
    split <;> simp_all
  · rw [heard, List.filter_append, List.filter_append, List.filter_eq_self.mpr steps, no_steps]
    simp [not_step]

theorem Recounts.aborted (recounts : Recounts world yields signals later) :
    Faithful world yields ⟨later.abort.value, signals ++ later.abort.signals⟩ := by
  cases running : later.run.running with
  | true =>
    have whole := recounts.trans running (abort_recounts running)
    rw [List.append_nil] at whole
    refine whole.faithful ?_
    rw [abort, finish_lost running]
    rfl
  | false =>
    rw [abort, finish_of_stopped running, List.append_nil]
    exact recounts.faithful running

end faithful

/-- A run that is aborted after a number of calls, if it is not over by then. -/
def abortedAfter (calls : Nat) (engine : Engine) (forest : Forest) : Told Engine := do
  let (engine, _) ← drainWithin calls 0 engine.start (.ofForest forest)
  engine.abort

/-- Whatever the world, the program and the limits, a run is told faithfully, to its end or to an abort after
any number of its events. These are what its calls yield in turn. -/
theorem faithful_of_run (engine : Engine) (forest : Forest) :
    (∀ count, (engine.yields forest)[count]? = engine.start.yielded (.ofForest forest) count) ∧
    Faithful engine.world (engine.yields forest) (engine.runToEnd forest) ∧
    ∀ calls, Faithful engine.world ((engine.yields forest).take calls)
      (engine.abortedAfter calls forest) := by
  have running : engine.start.run.running = true := rfl
  have recounts (calls : Nat) := drainWithin_recounts running calls 0 (.ofForest forest)
  refine ⟨yields_getElem? engine forest, ?_, ?_⟩
  · obtain ⟨count, -, stopped⟩ := exists_runToEnd_value engine forest
    rw [runToEnd_eq_drainWithin forest le_rfl] at stopped ⊢
    exact (recounts _).faithful stopped
  · intro calls
    rw [yields_take]
    exact (recounts calls).aborted

end Engine

end BlockMaze
