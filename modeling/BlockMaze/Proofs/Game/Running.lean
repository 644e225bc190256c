import BlockMaze.Game.Running
import BlockMaze.Proofs.Game.Requests

/-! How a run begins, goes on and ends in a session. Each way to begin, to take a step, to settle and
to abort is listed once, with the session it leads to. -/
namespace BlockMaze.Session
variable {σ : Type} {session : Session σ}

/-- The right to another run: an ordinary player takes up the mode of the progress, and the one after
it when the quota is spent. -/
inductive Entitled (session : Session σ) : Except SessionFault Bool × Session σ → Prop
  | privileged (privileged : session.privileged = true) : Entitled session (.ok true, session)
  | locked (ordinary : session.privileged = false) (locked : session.progress.locked = true) :
      Entitled session (.ok false, session)
  | unspent (mode : Mode) (ordinary : session.privileged = false)
      (unlocked : session.progress.locked = false) (current : session.progress.current = .ok mode)
      (unspent : ((session.progress.attempts.made mode).length : Int) < session.progress.quota) :
      Entitled session (.ok true, session.inMode mode)
  | locking (mode : Mode) (progress : Progress) (ordinary : session.privileged = false)
      (unlocked : session.progress.locked = false) (current : session.progress.current = .ok mode)
      (spent : session.progress.quota ≤ (session.progress.attempts.made mode).length)
      (locks : (Progress.advance session.progress).value.2 = progress)
      (locked : progress.locked = true) :
      Entitled session (.ok false, (session.inMode mode).withProgress progress)
  | opening (mode next : Mode) (progress : Progress) (ordinary : session.privileged = false)
      (unlocked : session.progress.locked = false) (current : session.progress.current = .ok mode)
      (spent : session.progress.quota ≤ (session.progress.attempts.made mode).length)
      (opens : (Progress.advance session.progress).value.2 = progress)
      (still_unlocked : progress.locked = false) (following : progress.current = .ok next) :
      Entitled session (.ok true, ((session.inMode mode).withProgress progress).inMode next)

theorem Entitled.frame {granted : Bool} {later : Session σ}
    (entitled : Entitled session (.ok granted, later)) :
    ∃ program progress mode, later = { session with program, progress, mode } := by
  cases entitled <;> exact ⟨_, _, _, rfl⟩

theorem entitle_entitled (placed : session.progress.Placed) (ordinary : session.privileged = false) :
    Entitled session (entitle session).value := by
  obtain ⟨mode, current⟩ := placed.exists_current
  have used := Progress.used_of_current current
  cases locked : session.progress.locked with
  | true =>
    have same : (entitle session).value = (.ok false, session) := by simp [entitle, locked]
    rw [same]
    exact .locked ordinary locked
  | false =>
    by_cases spent : session.progress.quota ≤ (session.progress.attempts.made mode).length
    · obtain ⟨changed, moved⟩ := (Progress.advance_cases placed).exists_ok
      have later := (Progress.advance_cases placed).placed placed
      obtain ⟨next, following⟩ := later.exists_current
      generalize advanced : Progress.advance session.progress = told at moved later following
      cases locks : told.value.2.locked with
      | true =>
        have same : (entitle session).value =
            (.ok false, (session.inMode mode).withProgress told.value.2) := by
          simp [entitle, locked, current, used, spent, advanced, moved, locks]
        rw [same]
        exact .locking mode _ ordinary locked current spent (by rw [advanced]) locks
      | false =>
        have same : (entitle session).value =
            (.ok true, ((session.inMode mode).withProgress told.value.2).inMode next) := by
          simp [entitle, locked, current, used, spent, advanced, moved, locks, following]
        rw [same]
        exact .opening mode next _ ordinary locked current spent (by rw [advanced]) locks following
    · have same : (entitle session).value = (.ok true, session.inMode mode) := by
        simp [entitle, locked, current, used, spent]
      rw [same]
      exact .unspent mode ordinary locked current (Int.not_le.mp spent)

def begun (session : Session σ) : Session σ :=
  { session with
    world := session.world.restart
    run := some (Run.start { limits := session.settings.limits })
    walk := some (.ofForest session.program.forest)
    stage := .running
    attempted := true }

inductive Started (session : Session σ) : Except SessionFault Bool × Session σ → Prop
  | running (running : session.isRunning = true) : Started session (.ok false, session)
  | attempted (stopped : session.isRunning = false) (attempted : session.attempted = true) :
      Started session (.ok false, session)
  | locked (later : Session σ) (stopped : session.isRunning = false)
      (fresh : session.attempted = false) (entitled : Entitled session (.ok false, later)) :
      Started session (.ok false, later)
  | empty (later : Session σ) (stopped : session.isRunning = false)
      (fresh : session.attempted = false) (entitled : Entitled session (.ok true, later))
      (empty : later.program.isEmpty = true) :
      Started session (.ok false, { later with lastOutcome := some .empty })
  | began (later : Session σ) (stopped : session.isRunning = false)
      (fresh : session.attempted = false) (entitled : Entitled session (.ok true, later))
      (something : later.program.isEmpty = false) : Started session (.ok true, later.begun)

theorem start_started (placed : session.progress.Placed) : Started session (start session).value := by
  cases running : session.isRunning with
  | true =>
    have same : (start session).value = (.ok false, session) := by simp [start, running]
    rw [same]
    exact .running running
  | false =>
    cases attempted : session.attempted with
    | true =>
      have same : (start session).value = (.ok false, session) := by simp [start, running, attempted]
      rw [same]
      exact .attempted running attempted
    | false =>
      have rights : ∃ granted later, Entitled session (.ok granted, later) ∧ (start session).value =
          if granted = false then (.ok false, later)
          else if later.program.isEmpty then (.ok false, { later with lastOutcome := some .empty })
          else (.ok true, later.begun) := by
        cases ordinary : session.privileged with
        | true =>
          refine ⟨true, session, .privileged ordinary, ?_⟩
          cases empty : session.program.isEmpty <;>
            simp [start, running, attempted, ordinary, empty, begun]
        | false =>
          have entitled := entitle_entitled placed ordinary
          rcases given : (entitle session).value with ⟨fault | granted, later⟩
          · rw [given] at entitled
            cases entitled
          · rw [given] at entitled
            refine ⟨granted, later, entitled, ?_⟩
            cases granted <;> cases empty : later.program.isEmpty <;>
              simp [start, running, attempted, ordinary, given, empty, begun]
      obtain ⟨granted, later, entitled, same⟩ := rights
      rw [same]
      cases granted with
      | false => exact .locked later running attempted entitled
      | true =>
        cases empty : later.program.isEmpty with
        | true => exact .empty later running attempted entitled empty
        | false => exact .began later running attempted entitled empty

/-- The session after a run with this outcome, before the player's progress is seen to. -/
def closed (outcome : Option Outcome) (session : Session σ) : Session σ :=
  { session with
    walk := none
    lastOutcome := outcome
    stage := if outcome = some .won then .won else .lost
    score := if outcome = some .won then session.score + 1 else session.score }

def recorded (outcome : Option Outcome) (mode : Mode) (session : Session σ) : Progress :=
  (Progress.advance (session.progress.noted mode ⟨outcome = some .won, session.world.moves⟩)).value.2

inductive Completed (session : Session σ) (outcome : Option Outcome) : Session σ → Prop
  | privileged (privileged : session.privileged = true) :
      Completed session outcome (session.closed outcome)
  | locked (mode : Mode) (ordinary : session.privileged = false)
      (current : session.progress.current = .ok mode)
      (locked : (session.recorded outcome mode).locked = true) :
      Completed session outcome ((session.closed outcome).withProgress (session.recorded outcome mode))
  | same (mode : Mode) (ordinary : session.privileged = false)
      (current : session.progress.current = .ok mode)
      (unlocked : (session.recorded outcome mode).locked = false)
      (same : (session.recorded outcome mode).current = .ok mode) :
      Completed session outcome ((session.closed outcome).withProgress (session.recorded outcome mode))
  | promoted (mode next : Mode) (ordinary : session.privileged = false)
      (current : session.progress.current = .ok mode)
      (unlocked : (session.recorded outcome mode).locked = false)
      (following : (session.recorded outcome mode).current = .ok next) (different : next ≠ mode) :
      Completed session outcome
        (((session.closed outcome).withProgress (session.recorded outcome mode)).inMode next)

theorem Completed.frame {outcome : Option Outcome} {later : Session σ}
    (completed : Completed session outcome later) :
    ∃ program progress mode, later = { session.closed outcome with program, progress, mode } := by
  cases completed <;> exact ⟨_, _, _, rfl⟩

theorem complete_of_ordinary {outcome : Option Outcome} {mode next : Mode}
    (placed : session.progress.Placed) (ordinary : session.privileged = false)
    (current : session.progress.current = .ok mode)
    (following : (session.recorded outcome mode).current = .ok next) :
    (complete outcome session).value = (.ok (),
      let settled := (session.closed outcome).withProgress (session.recorded outcome mode)
      if (session.recorded outcome mode).locked = true ∨ next = mode then settled
      else settled.inMode next) := by
  have noted := Progress.record_apply placed current ⟨outcome = some .won, session.world.moves⟩
  by_cases won : outcome = some .won <;>
    simp only [recorded, won, decide_true, decide_false] at noted following ⊢ <;>
    generalize (Progress.advance _).value.2 = progress at noted following ⊢ <;>
    cases locked : progress.locked <;> by_cases same : next = mode <;>
    simp [complete, ordinary, closed, current, noted, locked, won, following, same]

theorem complete_completed (placed : session.progress.Placed) (outcome : Option Outcome) :
    ∃ later, (complete outcome session).value = (.ok (), later) ∧ Completed session outcome later := by
  obtain ⟨mode, current⟩ := placed.exists_current
  cases ordinary : session.privileged with
  | true =>
    refine ⟨_, ?_, .privileged ordinary⟩
    by_cases won : outcome = some .won <;> simp [complete, ordinary, closed, won]
  | false =>
    have noted := placed.noted mode ⟨outcome = some .won, session.world.moves⟩
    obtain ⟨next, following⟩ := ((Progress.advance_cases noted).placed noted).exists_current
    change (session.recorded outcome mode).current = .ok next at following
    have value := complete_of_ordinary placed ordinary current following
    cases locked : (session.recorded outcome mode).locked with
    | true =>
      rw [if_pos (.inl locked)] at value
      exact ⟨_, value, .locked mode ordinary current locked⟩
    | false =>
      by_cases same : next = mode
      · rw [if_pos (.inr same)] at value
        exact ⟨_, value, .same mode ordinary current locked (same ▸ following)⟩
      · rw [if_neg (by simp [locked, same])] at value
        exact ⟨_, value, .promoted mode next ordinary current locked following same⟩

def holding (engine : Engine) (walk : Option Walk) (session : Session σ) : Session σ :=
  { session with world := engine.world, run := some engine.run, walk }

@[simp] theorem settle_apply (engine : Engine) (walk : Option Walk) (session : Session σ) :
    settle engine walk session = ⟨(.ok (), session.holding engine walk), []⟩ := rfl

inductive Stepped (session : Session σ) : Except SessionFault (Option Event) × Session σ → Prop
  | idle (idle : session.isRunning = false ∨ session.run = none ∨ session.walk = none) :
      Stepped session (.ok none, session)
  | onward (run : Run) (walk : Walk) (call : Engine × Walk × Option Event)
      (running : session.isRunning = true) (has_run : session.run = some run)
      (has_walk : session.walk = some walk)
      (called : (Engine.next ⟨session.world, run⟩ walk).value = call)
      (goes_on : call.1.run.running = true) :
      Stepped session (.ok call.2.2, session.holding call.1 (some call.2.1))
  | ended (run : Run) (walk : Walk) (call : Engine × Walk × Option Event) (later : Session σ)
      (running : session.isRunning = true) (has_run : session.run = some run)
      (has_walk : session.walk = some walk)
      (called : (Engine.next ⟨session.world, run⟩ walk).value = call)
      (ends : call.1.run.running = false)
      (completed : Completed (session.holding call.1 (some call.2.1)) call.1.run.outcome later) :
      Stepped session (.ok call.2.2, later)

theorem step_stepped (placed : session.progress.Placed) : Stepped session (step session).value := by
  cases running : session.isRunning with
  | false =>
    have same : (step session).value = (.ok none, session) := by simp [step, running]
    rw [same]
    exact .idle (.inl running)
  | true =>
    cases has_run : session.run with
    | none =>
      have same : (step session).value = (.ok none, session) := by simp [step, running, has_run]
      rw [same]
      exact .idle (.inr (.inl has_run))
    | some run =>
      cases has_walk : session.walk with
      | none =>
        have same : (step session).value = (.ok none, session) := by
          simp [step, running, has_run, has_walk]
        rw [same]
        exact .idle (.inr (.inr has_walk))
      | some walk =>
        generalize called : (Engine.next ⟨session.world, run⟩ walk).value = call
        cases goes_on : call.1.run.running with
        | true =>
          have same : (step session).value =
              (.ok call.2.2, session.holding call.1 (some call.2.1)) := by
            simp [step, running, has_run, has_walk, called, goes_on]
          rw [same]
          exact .onward run walk call running has_run has_walk called goes_on
        | false =>
          have held_placed : (session.holding call.1 (some call.2.1)).progress.Placed := placed
          obtain ⟨later, value, completed⟩ := complete_completed held_placed call.1.run.outcome
          have same : (step session).value = (.ok call.2.2, later) := by
            simp [step, running, has_run, has_walk, called, goes_on, value]
          rw [same]
          exact .ended run walk call later running has_run has_walk called goes_on completed

inductive Aborted (session : Session σ) : Except SessionFault Bool × Session σ → Prop
  | idle (idle : session.isRunning = false ∨ session.run = none) :
      Aborted session (.ok false, session)
  | stopped (run : Run) (engine : Engine) (later : Session σ) (running : session.isRunning = true)
      (has_run : session.run = some run) (stopped : (Engine.abort ⟨session.world, run⟩).value = engine)
      (completed : Completed (session.holding engine session.walk) engine.run.outcome later) :
      Aborted session
        (.ok true, { later with world := later.world.restart, attempted := false, stage := .idle })

theorem abort_aborted (placed : session.progress.Placed) : Aborted session (abort session).value := by
  cases running : session.isRunning with
  | false =>
    have same : (abort session).value = (.ok false, session) := by simp [abort, running]
    rw [same]
    exact .idle (.inl running)
  | true =>
    cases has_run : session.run with
    | none =>
      have same : (abort session).value = (.ok false, session) := by simp [abort, running, has_run]
      rw [same]
      exact .idle (.inr has_run)
    | some run =>
      generalize stopped : (Engine.abort ⟨session.world, run⟩).value = engine
      have held_placed : (session.holding engine session.walk).progress.Placed := placed
      obtain ⟨later, value, completed⟩ := complete_completed held_placed engine.run.outcome
      have same : (abort session).value = (.ok true,
          { later with world := later.world.restart, attempted := false, stage := .idle }) := by
        simp [abort, running, has_run, stopped, value]
      rw [same]
      exact .stopped run engine later running has_run stopped completed

def paceBound (abortAfter : Option Nat) (session : Session σ) : Nat :=
  match abortAfter with
  | none => session.stepBound
  | some n => min (n + 1) session.stepBound

def closePaced (abortAfter : Option Nat) (answer : Session σ → Option Outcome) :
    Play σ (Option Outcome × Option Bool) := do
  let aborted ← abortAfter.mapM fun _ => abort
  let session ← get
  return (answer session, aborted)

theorem runPaced_eq (abortAfter : Option Nat) :
    (runPaced abortAfter : Play σ (Option Outcome × Option Bool)) = (do
      if ← start then
        stepsWithin ((← get).paceBound abortAfter)
        closePaced abortAfter Session.lastOutcome
      else closePaced abortAfter fun _ => none) := by
  refine congrArg (bind start) (funext fun began => ?_)
  cases began <;> rfl

section running
variable (running : session.isRunning = true)
include running

theorem start_of_running : start session = ⟨(.ok false, session), spoken .alreadyRunning⟩ := by
  simp [start, running]

theorem runToEnd_of_running :
    runToEnd session = ⟨(.ok none, session), spoken .alreadyRunning⟩ := by
  simp [runToEnd, start_of_running running]

/-- Asked for during a run, a paced run is nothing but its abort. -/
theorem runPaced_of_running (abortAfter : Option Nat) : (runPaced abortAfter session).value.2 =
    if abortAfter.isSome then (abort session).value.2 else session := by
  cases abortAfter with
  | none => simp [runPaced, start_of_running running]
  | some count =>
    rcases told : (abort session).value with ⟨fault | answer, later⟩ <;>
      simp [runPaced, start_of_running running, told]

end running

section keeps
variable {holds : Session σ → Prop}

theorem stepsWithin_keeps (stepped : (step : Play σ (Option Event)).Keeps holds) (bound : Nat) :
    (stepsWithin bound : Play σ Unit).Keeps holds := by
  induction bound with
  | zero => exact .pure ()
  | succ bound ih =>
    refine .bind .get fun session => ?_
    split
    · exact .bind stepped.discard fun _ => ih
    · exact .pure ()

theorem runToEnd_keeps (started : (start : Play σ Bool).Keeps holds)
    (stepped : (step : Play σ (Option Event)).Keeps holds) :
    (runToEnd : Play σ (Option Outcome)).Keeps holds := by
  refine .bind started fun began => ?_
  split
  · exact .pure none
  · refine .bind .get fun session => .bind (stepsWithin_keeps stepped _) fun _ => ?_
    exact .bind .get fun later => .pure _

theorem closePaced_keeps (aborted : (abort : Play σ Bool).Keeps holds) (abortAfter : Option Nat)
    (answer : Session σ → Option Outcome) : (closePaced abortAfter answer).Keeps holds := by
  refine .bind ?_ fun _ => .bind .get fun _ => .pure _
  cases abortAfter with
  | none => exact .pure none
  | some count =>
    change Act.Keeps holds (some <$> (abort : Play σ Bool))
    exact aborted.map some

theorem runPaced_keeps (started : (start : Play σ Bool).Keeps holds)
    (stepped : (step : Play σ (Option Event)).Keeps holds)
    (aborted : (abort : Play σ Bool).Keeps holds) (abortAfter : Option Nat) :
    (runPaced abortAfter : Play σ (Option Outcome × Option Bool)).Keeps holds := by
  rw [runPaced_eq]
  refine .bind started fun began => ?_
  split
  · refine .bind .get fun _ => .bind (stepsWithin_keeps stepped _) fun _ => ?_
    exact closePaced_keeps aborted abortAfter _
  · exact closePaced_keeps aborted abortAfter _

end keeps

end BlockMaze.Session
