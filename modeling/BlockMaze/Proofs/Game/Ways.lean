import BlockMaze.Proofs.Game.Lifecycle
import BlockMaze.Proofs.Run.Yields

/-! The ways to run a program. To its end at once, at a pace, or one step asked for after the other, a run
tells the same in the same order and leaves the same session. But for the session's own remarks it is the
run of an engine alone. -/
namespace BlockMaze

/-- The events told but for a session's own notices. -/
def newsIn (signals : List Signal) : List Event := (eventsIn signals).filter fun event => !event.isRemark

@[simp] theorem newsIn_append (signals others : List Signal) :
    newsIn (signals ++ others) = newsIn signals ++ newsIn others := by
  simp [newsIn]

theorem newsIn_relayed (signals : List Signal) :
    newsIn (signals.flatMap Signal.relayed) = newsIn signals := by
  rw [newsIn, eventsIn_relayed]
  rfl

theorem newsIn_of_remarks {signals : List Signal} (remarks : ∀ signal ∈ signals, signal.isRemark = true) :
    newsIn signals = [] := by
  apply List.filter_eq_nil_iff.mpr
  intro event heard
  simp [(heard_of_remarks remarks).1 event heard]

theorem newsIn_eq_eventsIn {signals : List Signal}
    (terse : ∀ signal ∈ signals, signal.isRemark = signal.isLog) : newsIn signals = eventsIn signals := by
  apply List.filter_eq_self.mpr
  intro event heard
  obtain ⟨signal, member, same⟩ := List.mem_filterMap.mp heard
  have own := terse signal member
  cases signal <;> cases same
  exact congrArg Bool.not own

namespace Engine
variable {engine : Engine}

theorem settled_terse (result : StepResult) :
    ∀ signal ∈ (engine.settled result).signals, signal.isRemark = signal.isLog := by
  unfold settled
  split
  · simp [Signal.isRemark, Signal.isLog, Event.isRemark]
  · split
    · simp [stopSignals, Signal.isRemark, Signal.isLog, Event.isRemark, Notice.isOfRun]
    · simp

theorem commandSignals_terse (command : Command) :
    ∀ signal ∈ engine.commandSignals command, signal.isRemark = signal.isLog := by
  have event : (engine.eventOf command).isRemark = false := by
    cases command with
    | turn side => rfl
    | forward =>
      simp only [eventOf, Command.event]
      split <;> rfl
  have noted : ∀ signal ∈ engine.world.applySignals command, signal.isRemark = signal.isLog := by
    rcases applySignals_cases engine.world command with none_told | ⟨record, told⟩
    · simp [none_told]
    · simp [told, Signal.isRemark, Signal.isLog]
  intro signal member
  rcases List.mem_append.mp member with early | late
  · exact noted signal early
  · simp only [List.mem_cons, List.not_mem_nil, or_false] at late
    rcases late with rfl | rfl | rfl
    · rfl
    · exact event
    · rfl

theorem next_terse (engine : Engine) (walk : Walk) :
    ∀ signal ∈ (engine.next walk).signals, signal.isRemark = signal.isLog := by
  rcases next_idle_or_advance engine walk with idle | ⟨_, stack, advance⟩
  · simp [idle]
  · generalize engine.next walk = told at advance
    cases advance with
    | commandLimit | passLimit =>
      simp [stopSignals, Signal.isRemark, Signal.isLog, Event.isRemark, Notice.isOfRun]
    | arrived | away => simp [Signal.isRemark, Signal.isLog, Event.isRemark]
    | obeyed command =>
      intro signal member
      rcases List.mem_append.mp member with early | late
      · exact commandSignals_terse command signal early
      · exact settled_terse _ signal late

end Engine

namespace Session
open Text
variable {σ : Type} {session later : Session σ} {steps bound : Nat} {told : List Signal} {engine : Engine}
  {walk : Walk}

/-- So many steps bring a run to its end and tell this. -/
inductive Finishes : Nat → Session σ → List Signal → Session σ → Prop
  | done {session : Session σ} (stopped : session.isRunning = false) : Finishes 0 session [] session
  | onward {steps : Nat} {session next later : Session σ} {event : Option Event} {early late : List Signal}
      (running : session.isRunning = true) (stepped : step session = ⟨(.ok event, next), early⟩)
      (rest : Finishes steps next late later) : Finishes (steps + 1) session (early ++ late) later

namespace Finishes

theorem stopped (finishes : Finishes steps session told later) : later.isRunning = false := by
  induction finishes with
  | done stopped => exact stopped
  | onward running stepped rest ih => exact ih

theorem stepsWithin_eq (finishes : Finishes steps session told later) (enough : steps ≤ bound) :
    stepsWithin bound session = ⟨(.ok (), later), told⟩ := by
  induction finishes generalizing bound with
  | done stopped =>
    cases bound with
    | zero => rfl
    | succ bound => simp [stepsWithin, stopped]
  | onward running stepped rest ih =>
    obtain ⟨bound, rfl⟩ : ∃ less, bound = less + 1 := ⟨bound - 1, by omega⟩
    simp [stepsWithin, running, stepped, ih (Nat.le_of_succ_le_succ enough)]

variable [RandomSource σ]

theorem requests (finishes : Finishes steps session told later) :
    session.afterAll (List.replicate steps .step) = later ∧
      session.toldAll (List.replicate steps .step) = told := by
  induction finishes with
  | done stopped => exact ⟨rfl, rfl⟩
  | @onward steps session next later event early late running stepped rest ih =>
    obtain ⟨last, all⟩ := ih
    have once : session.after .step = next := by rw [Session.after, stepped]
    rw [List.replicate_succ, toldAll, once, all]
    refine ⟨?_, by simp [answer, stepped]⟩
    rw [← last, ← once]
    rfl

theorem running_before (finishes : Finishes steps session told later) {fewer : Nat}
    (early : fewer < steps) : (session.afterAll (List.replicate fewer .step)).isRunning = true := by
  induction finishes generalizing fewer with
  | done stopped => cases early
  | @onward steps session next later event early late running stepped rest ih =>
    cases fewer with
    | zero => exact running
    | succ fewer =>
      have once : session.after .step = next := by rw [Session.after, stepped]
      have onward := ih (Nat.lt_of_succ_lt_succ early)
      rw [← once] at onward
      exact onward

end Finishes

/-- The run that goes on in a session is that of an engine with a walk. -/
structure Underway (engine : Engine) (walk : Walk) (session : Session σ) : Prop where
  placed : session.progress.Placed
  running : session.isRunning = true
  world : session.world = engine.world
  has_run : session.run = some engine.run
  has_walk : session.walk = some walk
  consistent : engine.Consistent walk

structure LeftBy (engine : Engine) (session : Session σ) : Prop where
  stopped : session.isRunning = false
  world : session.world = engine.world
  run : session.run = some engine.run
  outcome : session.lastOutcome = engine.run.outcome

namespace Underway

theorem stepBound_eq (underway : session.Underway engine walk) : session.stepBound = engine.budget + 1 := by
  rw [stepBound, underway.has_run]
  simp only [underway.world]

theorem step_onward (underway : session.Underway engine walk)
    (goes_on : (engine.next walk).value.1.run.running = true) :
    let next := session.holding (engine.next walk).value.1 (some (engine.next walk).value.2.1)
    step session =
      ⟨(.ok (engine.next walk).value.2.2, next), (engine.next walk).signals.flatMap Signal.relayed⟩ ∧
      next.Underway (engine.next walk).value.1 (engine.next walk).value.2.1 := by
  intro next
  obtain ⟨placed, running, world, has_run, has_walk, consistent⟩ := underway
  refine ⟨?_, placed, running, rfl, rfl, rfl, consistent.next⟩
  simp [step, running, has_run, has_walk, world, goes_on, next]

theorem step_ended (underway : session.Underway engine walk)
    (ends : (engine.next walk).value.1.run.running = false) : ∃ later remarks,
      step session = ⟨(.ok (engine.next walk).value.2.2, later),
        (engine.next walk).signals.flatMap Signal.relayed ++ remarks⟩ ∧
      (∀ signal ∈ remarks, signal.isRemark = true) ∧ later.LeftBy (engine.next walk).value.1 := by
  obtain ⟨placed, running, world, has_run, has_walk, consistent⟩ := underway
  have held :
      (session.holding (engine.next walk).value.1 (some (engine.next walk).value.2.1)).progress.Placed := placed
  obtain ⟨later, value, completed⟩ := complete_completed held (engine.next walk).value.1.run.outcome
  have remarks := complete_remarks (engine.next walk).value.1.run.outcome
    (session.holding (engine.next walk).value.1 (some (engine.next walk).value.2.1))
  refine ⟨later, _, ?_, remarks, ?_⟩
  · simp [step, running, has_run, has_walk, world, ends, value]
  · have stopped := completed.standing.1
    obtain ⟨program, progress, mode, rfl⟩ := completed.frame
    exact ⟨stopped, rfl, rfl, rfl⟩

theorem finishes_of_ended (underway : session.Underway engine walk)
    (ends : (engine.next walk).value.1.run.running = false) (bound count : Nat) : ∃ later remarks,
      Finishes 1 session
        ((Engine.drainWithin (bound + 1) count engine walk).signals.flatMap Signal.relayed ++ remarks) later ∧
      (∀ signal ∈ remarks, signal.isRemark = true) ∧
      later.LeftBy (Engine.drainWithin (bound + 1) count engine walk).value.1 := by
  obtain ⟨later, remarks, stepped, own, left⟩ := underway.step_ended ends
  obtain ⟨yields, drained⟩ := Engine.drainWithin_of_ended ends bound count
  rw [drained]
  refine ⟨later, remarks, ?_, own, left⟩
  have finishes := Finishes.onward underway.running stepped (.done left.stopped)
  rwa [List.append_nil] at finishes

/-- A run that goes on comes to its end within its budget, and the session tells what the engine tells. -/
theorem exists_finishes (underway : session.Underway engine walk) (enough : engine.budget ≤ bound)
    (count : Nat) : ∃ steps later remarks, steps ≤ bound + 1 ∧
      Finishes steps session
        ((Engine.drainWithin (bound + 1) count engine walk).signals.flatMap Signal.relayed ++ remarks) later ∧
      (∀ signal ∈ remarks, signal.isRemark = true) ∧
      later.LeftBy (Engine.drainWithin (bound + 1) count engine walk).value.1 := by
  induction bound generalizing session engine walk count with
  | zero =>
    rcases Engine.next_cases underway.consistent with ⟨_, stopped, _⟩ | ⟨command, _, unspent, _⟩
    · obtain ⟨later, remarks, finishes, rest⟩ := underway.finishes_of_ended stopped 0 count
      exact ⟨1, later, remarks, Nat.le_refl 1, finishes, rest⟩
    · have fewer := Engine.budget_obeyed unspent command .moved
      omega
  | succ bound ih =>
    cases goes_on : (engine.next walk).value.1.run.running with
    | false =>
      obtain ⟨later, remarks, finishes, rest⟩ := underway.finishes_of_ended goes_on (bound + 1) count
      exact ⟨1, later, remarks, by omega, finishes, rest⟩
    | true =>
      rcases Engine.next_cases underway.consistent with ⟨_, stopped, _⟩ | ⟨command, _, unspent, event, same⟩
      · cases goes_on.symm.trans stopped
      · -- the command took one off the budget
        have fewer := Engine.budget_obeyed unspent command (engine.world.apply command).1
        rw [← same] at fewer
        obtain ⟨stepped, onward⟩ := underway.step_onward goes_on
        obtain ⟨steps, later, remarks, few, finishes, rest⟩ := ih onward (by omega) (count + 1)
        rw [Engine.drainWithin_told_of_yielding event]
        refine ⟨steps + 1, later, remarks, Nat.succ_le_succ few, ?_, rest⟩
        have all := Finishes.onward underway.running stepped finishes
        rwa [← List.append_assoc, ← List.flatMap_append] at all

end Underway

theorem start_told (placed : session.progress.Placed) (granted : (start session).value.1 = .ok true) :
    ∃ later remarks, Entitled session (.ok true, later) ∧ later.program.isEmpty = false ∧
      (∀ signal ∈ remarks, signal.isRemark = true) ∧ start session =
        ⟨(.ok true, later.begun), remarks ++ .board session.world.restart.snapshot :: spoken .executing⟩ := by
  cases running : session.isRunning with
  | true => simp [start, running] at granted
  | false =>
    cases attempted : session.attempted with
    | true => simp [start, running, attempted] at granted
    | false =>
      cases ordinary : session.privileged with
      | true =>
        cases empty : session.program.isEmpty with
        | true => simp [start, running, attempted, ordinary, empty] at granted
        | false =>
          refine ⟨session, [], .privileged ordinary, empty, fun _ member => absurd member List.not_mem_nil, ?_⟩
          simp [start, running, attempted, ordinary, empty, begun, board]
      | false =>
        have entitled := entitle_entitled placed ordinary
        have own := entitle_remarks session
        rcases given : entitle session with ⟨⟨fault | allowed, later⟩, remarks⟩ <;> rw [given] at entitled own
        · cases entitled
        · cases allowed with
          | false => simp [start, running, attempted, ordinary, given] at granted
          | true =>
            cases empty : later.program.isEmpty with
            | true => simp [start, running, attempted, ordinary, given, empty] at granted
            | false =>
              have there : later.world = session.world := by
                obtain ⟨program, progress, mode, rfl⟩ := entitled.frame
                rfl
              refine ⟨later, remarks, entitled, empty, own, ?_⟩
              simp [start, running, attempted, ordinary, given, empty, begun, board, there]

theorem Entitled.underway (entitled : Entitled session (.ok true, later))
    (placed : session.progress.Placed) : later.begun.Underway
      (Engine.start ⟨session.world.restart, { limits := session.settings.limits }⟩)
      (.ofForest later.program.forest) := by
  have still_placed := (entitled.placed placed).1
  obtain ⟨program, progress, mode, rfl⟩ := entitled.frame
  exact ⟨still_placed, rfl, rfl, rfl, rfl, Engine.consistent_start _ _⟩

variable [RandomSource σ]

theorem ways_of_start (placed : session.progress.Placed) (granted : (start session).value.1 = .ok true) :
    let begun := session.after .start
    let alone := Engine.runToEnd ⟨session.world.restart, { limits := session.settings.limits }⟩
      begun.program.forest
    ∃ steps later told, Finishes steps begun told later ∧ later.LeftBy alone.value ∧
      runToEnd session = ⟨(.ok later.lastOutcome, later), (start session).signals ++ told⟩ ∧
      runPaced none session = ⟨(.ok (later.lastOutcome, none), later), (start session).signals ++ told⟩ ∧
      newsIn ((start session).signals ++ told) = eventsIn alone.signals ∧
      boardsIn ((start session).signals ++ told) =
        session.world.restart.snapshot :: boardsIn alone.signals := by
  intro begun alone
  obtain ⟨entitled, remarks, rights, -, own, started⟩ := start_told placed granted
  have same : begun = entitled.begun := by
    change (start session).value.2 = _
    rw [started]
  have underway := rights.underway placed
  obtain ⟨steps, later, closing, few, finishes, own_closing, left⟩ :=
    underway.exists_finishes (Nat.le_refl _) 0
  -- the engine alone is drained from where the session's run begins
  have drained : alone = _ := Engine.runToEnd_eq_drainWithin begun.program.forest (Nat.le_refl _)
  have forest : begun.program.forest = entitled.program.forest := congrArg (·.program.forest) same
  rw [forest] at drained
  have made := finishes.stepsWithin_eq (underway.stepBound_eq ▸ few)
  have terse := Engine.drainWithin_signals Engine.next_terse
    ((Engine.start ⟨session.world.restart, { limits := session.settings.limits }⟩).budget + 1) 0
    (Engine.start ⟨session.world.restart, { limits := session.settings.limits }⟩)
    (.ofForest entitled.program.forest)
  have silent := (heard_of_remarks own).2
  have silent_closing := (heard_of_remarks own_closing).2
  rw [same, drained, started]
  refine ⟨steps, later, _, finishes, left, ?_, ?_, ?_, ?_⟩
  · simp [runToEnd, started, made]
  · rw [runPaced_eq, Act.bind_of_ok started]
    simp [paceBound, made, closePaced]
  · have spoken_own : newsIn (.board session.world.restart.snapshot :: spoken .executing) = [] := rfl
    simp only [newsIn_append, newsIn_relayed, newsIn_of_remarks own, newsIn_of_remarks own_closing,
      spoken_own, newsIn_eq_eventsIn terse, List.nil_append, List.append_nil]
  · have shown : boardsIn (.board session.world.restart.snapshot :: spoken .executing) =
        [session.world.restart.snapshot] := rfl
    simp only [boardsIn_append, boardsIn_relayed, silent, silent_closing, shown, List.nil_append,
      List.append_nil, List.singleton_append]

/-- Whatever was asked for before, if a run would begin it comes to its end after some number of steps, and
whether these are asked for one by one, made at a pace, or made at once, the same is told in the same order
and the same session is left. But for the session's own notices and the board put back to its start this is
what an engine of its own tells of the program, and the agent, the outcome with its reason, and the commands
counted are as that engine leaves them. -/
theorem ways_agree (settings : SessionSettings) (privileged : Bool) (source : σ) (world : World)
    (calls : List Call) :
    let session := (ofWorld settings privileged source world).afterAll calls
    let begun := session.after .start
    let alone := Engine.runToEnd ⟨session.world.restart, { limits := settings.limits }⟩ begun.program.forest
    (start session).value.1 = .ok true → ∃ steps,
      let later := begun.afterAll (List.replicate steps .step)
      let told := session.toldAll (.start :: List.replicate steps .step)
      later.isRunning = false ∧
      (∀ fewer < steps, (begun.afterAll (List.replicate fewer .step)).isRunning = true) ∧
      runToEnd session = ⟨(.ok later.lastOutcome, later), told⟩ ∧
      runPaced none session = ⟨(.ok (later.lastOutcome, none), later), told⟩ ∧
      newsIn told = eventsIn alone.signals ∧
      boardsIn told = session.world.restart.snapshot :: boardsIn alone.signals ∧
      later.world = alone.value.world ∧ later.run = some alone.value.run ∧
      later.lastOutcome = alone.value.run.outcome := by
  intro session begun alone granted
  obtain ⟨intact, same, -⟩ := intact_afterAll (intact_ofWorld settings privileged source world) calls
  have limits : session.settings.limits = settings.limits := congrArg SessionSettings.limits same
  obtain ⟨steps, later, told, finishes, left, at_once, paced, news, boards⟩ :=
    ways_of_start intact.placed granted
  rw [limits] at left news boards
  obtain ⟨last, all⟩ := finishes.requests
  have whole : session.toldAll (.start :: List.replicate steps .step) = (start session).signals ++ told := by
    rw [toldAll, all, answer, Act.map_apply]
  refine ⟨steps, ?_⟩
  rw [whole, last]
  exact ⟨finishes.stopped, fun fewer early => finishes.running_before early, at_once, paced, news, boards,
    left.world, left.run, left.outcome⟩

theorem ways_agree_corridor :
    let session := (ofWorld {} false (Dice.script []) (.ofPuzzle corridor)).afterAll
      [.insert (.text "turn_left") none, .insert (.text "forward") none]
    (start session).value.1 = .ok true ∧ ∃ steps,
      let later := (session.after .start).afterAll (List.replicate steps .step)
      later.isRunning = false ∧ (runToEnd session).value = (.ok later.lastOutcome, later) ∧
      (runPaced none session).value = (.ok (later.lastOutcome, none), later) := by
  intro session
  have granted : (start session).value.1 = .ok true := by decide +kernel
  obtain ⟨steps, stopped, -, at_once, paced, -⟩ := ways_agree {} false (Dice.script []) (.ofPuzzle corridor)
    [.insert (.text "turn_left") none, .insert (.text "forward") none] granted
  exact ⟨granted, steps, stopped, by rw [at_once], by rw [paced]⟩

end Session

end BlockMaze
