import BlockMaze.Proofs.Game.Quiet
import BlockMaze.Proofs.Game.Quota
import BlockMaze.Proofs.Game.Running

/-! What becomes of a run that goes on. Each step and each abort leaves it going on or ends it with one
result, and that result is recorded as an attempt if the player is an ordinary one by then. -/
namespace BlockMaze.Session
open Text
variable {σ : Type} {session before between after later : Session σ} {early late signals : List Signal}

/-- There is a mode, and a run that goes on in the session goes on in its engine. -/
structure Intact (session : Session σ) : Prop where
  placed : session.progress.Placed
  held : session.isRunning = true → ∃ run walk, session.run = some run ∧ session.walk = some walk ∧
    run.running = true

theorem intact_ofWorld (settings : SessionSettings) (privileged : Bool) (source : σ) (world : World) :
    (ofWorld settings privileged source world).Intact :=
  ⟨Progress.placed_fresh settings.quota, nofun⟩

/-- The results that are recorded as attempts: those of an ordinary player. -/
def counted (session : Session σ) (signals : List Signal) : List Attempt :=
  if session.privileged then [] else results signals

theorem counted_of_silent (silent : results signals = []) : session.counted signals = [] := by
  simp [counted, silent]

theorem counted_append : session.counted (early ++ late) = session.counted early ++ session.counted late := by
  unfold counted
  split
  · rfl
  · exact results_append early late

/-- What becomes of a session while no run begins and the player's rights stay as they are. -/
structure Tallied (before : Session σ) (signals : List Signal) (after : Session σ) : Prop where
  settings : after.settings = before.settings
  source : after.source = before.source
  privileged : after.privileged = before.privileged
  progress : after.progress = before.progress.recordAll (before.counted signals)
  running : (results signals).length + after.isRunning.toNat = before.isRunning.toNat
  intact : after.Intact

theorem Intact.tallied_still (intact : session.Intact) : Tallied session [] session where
  settings := rfl
  source := rfl
  privileged := rfl
  progress := by simp [counted, results, Progress.recordAll]
  running := by simp [results]
  intact := intact

theorem Tallied.trans (first : Tallied before early between) (second : Tallied between late after) :
    Tallied before (early ++ late) after where
  settings := second.settings.trans first.settings
  source := second.source.trans first.source
  privileged := second.privileged.trans first.privileged
  progress := by
    have same : between.counted late = before.counted late := by simp only [counted, first.privileged]
    rw [counted_append, Progress.recordAll_append, second.progress, first.progress, same]
  running := by
    have one := first.running
    have other := second.running
    rw [results_append, List.length_append]
    omega
  intact := second.intact

/-- An act that succeeds and begins no run. -/
def tallying : Act.Law SessionFault (Session σ) := fun before signals fault after =>
  before.Intact → fault = none ∧ Tallied before signals after

theorem tallying_composes : (tallying : Act.Law SessionFault (Session σ)).Composes where
  still := fun _ intact => ⟨rfl, intact.tallied_still⟩
  onward := fun first second intact =>
    have tallied := (first intact).2
    ⟨(second tallied.intact).1, tallied.trans (second tallied.intact).2⟩

theorem closed_isRunning (outcome : Option Outcome) : (session.closed outcome).isRunning = false := by
  simp only [closed, isRunning]
  split <;> rfl

theorem Completed.tallied {outcome : Option Outcome} (completed : Completed session outcome later)
    (placed : session.progress.Placed) (running : session.isRunning = true)
    (told : results signals = [⟨outcome = some .won, session.world.moves⟩]) :
    Tallied session signals later ∧ later.isRunning = false := by
  have stopped := session.closed_isRunning outcome
  have ends {ended : Session σ} (settings : ended.settings = session.settings)
      (source : ended.source = session.source) (privileged : ended.privileged = session.privileged)
      (progress : ended.progress = session.progress.recordAll (session.counted signals))
      (still_placed : ended.progress.Placed) (stopped : ended.isRunning = false) :
      Tallied session signals ended ∧ ended.isRunning = false := by
    refine ⟨⟨settings, source, privileged, progress, ?_, still_placed, fun goes_on => ?_⟩, stopped⟩
    · simp [told, running, stopped]
    · cases stopped.symm.trans goes_on
  have recorded {mode : Mode} (current : session.progress.current = .ok mode)
      (ordinary : session.privileged = false) :
      session.recorded outcome mode = session.progress.recordAll (session.counted signals) ∧
        (session.recorded outcome mode).Placed := by
    have noted := placed.noted mode ⟨outcome = some .won, session.world.moves⟩
    refine ⟨?_, (Progress.advance_cases noted).placed noted⟩
    simp [counted, ordinary, told, Progress.recordAll, Progress.record_apply placed current, Session.recorded]
  cases completed with
  | privileged privileged =>
    have unrecorded : session.counted signals = [] := by simp [counted, privileged]
    exact ends rfl rfl rfl (by rw [unrecorded]; rfl) placed stopped
  | locked mode ordinary current locked =>
    obtain ⟨same, still_placed⟩ := recorded current ordinary
    exact ends rfl rfl rfl same still_placed stopped
  | same mode ordinary current unlocked same =>
    obtain ⟨same, still_placed⟩ := recorded current ordinary
    exact ends rfl rfl rfl same still_placed stopped
  | promoted mode next ordinary current unlocked following different =>
    obtain ⟨same, still_placed⟩ := recorded current ordinary
    exact ends rfl rfl rfl same still_placed stopped

theorem results_relayed (signals : List Signal) :
    results (signals.flatMap Signal.relayed) = results signals := filterMap_relayed (fun _ => rfl) signals

theorem complete_results (outcome : Option Outcome) (session : Session σ) :
    results (complete outcome session).signals = [] := (complete_remarks outcome).quiet.results session

theorem step_results {run : Run} {walk : Walk} (running : session.isRunning = true)
    (has_run : session.run = some run) (has_walk : session.walk = some walk) :
    results (step session).signals = results (Engine.next ⟨session.world, run⟩ walk).signals := by
  generalize called : Engine.next ⟨session.world, run⟩ walk = told
  cases goes_on : told.value.1.run.running with
  | true => simp [step, running, has_run, has_walk, called, goes_on, results_relayed]
  | false =>
    rcases ended : complete told.value.1.run.outcome (session.holding told.value.1 (some told.value.2.1))
      with ⟨⟨fault | value, later⟩, signals⟩ <;>
    · have silent := complete_results told.value.1.run.outcome
        (session.holding told.value.1 (some told.value.2.1))
      rw [ended] at silent
      simp [step, running, has_run, has_walk, called, goes_on, ended, results_relayed, silent]

theorem step_tallies : Act.Obeys tallying (step : Play σ (Option Event)) := by
  intro session intact
  cases running : session.isRunning with
  | false =>
    have idle : step session = ⟨(.ok none, session), []⟩ := by simp [step, running]
    rw [idle]
    exact ⟨rfl, intact.tallied_still⟩
  | true =>
    obtain ⟨run, walk, has_run, has_walk, under_way⟩ := intact.held running
    have told := step_results running has_run has_walk
    rw [Engine.next_results under_way] at told
    have stepped := step_stepped intact.placed
    generalize step session = answer at stepped told ⊢
    rcases answer with ⟨value, signals⟩
    cases stepped with
    | idle idle => simp [running, has_run, has_walk] at idle
    | onward _ _ call _ same_run same_walk called goes_on =>
      cases has_run.symm.trans same_run
      cases has_walk.symm.trans same_walk
      rw [called, Engine.resultsOfEnd, if_pos goes_on] at told
      refine ⟨rfl, rfl, rfl, rfl, ?_, ?_, intact.placed, fun _ => ⟨_, _, rfl, rfl, goes_on⟩⟩
      · rw [counted_of_silent told]
        rfl
      · rw [told]
        exact Nat.zero_add _
    | ended _ _ call later _ same_run same_walk called ends completed =>
      cases has_run.symm.trans same_run
      cases has_walk.symm.trans same_walk
      rw [called, Engine.resultsOfEnd, if_neg (by simp [ends])] at told
      have tallied := (completed.tallied intact.placed running told).1
      exact ⟨rfl, tallied.settings, tallied.source, tallied.privileged, tallied.progress,
        tallied.running, tallied.intact⟩

theorem abort_results {run : Run} (running : session.isRunning = true)
    (has_run : session.run = some run) (under_way : run.running = true) :
    results (abort session).signals = [⟨false, session.world.moves⟩] := by
  obtain ⟨value, told⟩ := @Engine.abort_results ⟨session.world, run⟩ under_way
  generalize called : Engine.abort ⟨session.world, run⟩ = stopped at value told
  rcases ended : complete stopped.value.run.outcome (session.holding stopped.value session.walk)
    with ⟨⟨fault | done, later⟩, signals⟩ <;>
  · have silent := complete_results stopped.value.run.outcome
      (session.holding stopped.value session.walk)
    rw [ended] at silent
    simp [abort, running, has_run, called, ended, results_relayed, told, silent]

theorem abort_tallies : Act.Obeys tallying (abort : Play σ Bool) := by
  intro session intact
  cases running : session.isRunning with
  | false =>
    have idle : abort session = ⟨(.ok false, session), spoken .nothingRunning⟩ := by
      simp [abort, running]
    have still := intact.tallied_still
    rw [idle]
    exact ⟨rfl, rfl, rfl, rfl, still.progress, still.running, intact⟩
  | true =>
    obtain ⟨run, walk, has_run, has_walk, under_way⟩ := intact.held running
    have told := abort_results running has_run under_way
    obtain ⟨ended, -⟩ := @Engine.abort_results ⟨session.world, run⟩ under_way
    have aborted := abort_aborted intact.placed
    generalize abort session = answer at aborted told ⊢
    rcases answer with ⟨value, signals⟩
    cases aborted with
    | idle idle => simp [running, has_run] at idle
    | stopped _ engine later _ same_run stopped completed =>
      cases has_run.symm.trans same_run
      cases stopped.symm.trans ended
      obtain ⟨tallied, stands⟩ := completed.tallied intact.placed running told
      refine ⟨rfl, tallied.settings, tallied.source, tallied.privileged, tallied.progress, ?_,
        tallied.intact.placed, fun goes_on => ?_⟩
      · have counts := tallied.running
        rwa [stands] at counts
      · cases goes_on

section obeys
variable {law : Act.Law SessionFault (Session σ)} (composes : law.Composes)
include composes

theorem stepsWithin_obeys (stepped : Act.Obeys law (step : Play σ (Option Event))) (bound : Nat) :
    Act.Obeys law (stepsWithin bound : Play σ Unit) := by
  induction bound with
  | zero => exact .pure composes ()
  | succ bound ih =>
    refine .bind composes (.get composes) fun session => ?_
    split
    · exact .bind composes stepped.discard fun _ => ih
    · exact .pure composes ()

theorem closePaced_obeys (aborted : Act.Obeys law (abort : Play σ Bool)) (abortAfter : Option Nat)
    (answer : Session σ → Option Outcome) : Act.Obeys law (closePaced abortAfter answer) := by
  refine .bind composes ?_ fun _ => .bind composes (.get composes) fun _ => .pure composes _
  cases abortAfter with
  | none => exact .pure composes none
  | some count =>
    change Act.Obeys law (some <$> (abort : Play σ Bool))
    exact aborted.map some

theorem onward_obeys (stepped : Act.Obeys law (step : Play σ (Option Event))) (began : Bool) :
    Act.Obeys law (do
      if !began then return none
      stepsWithin (← get).stepBound
      return (← get).lastOutcome : Play σ (Option Outcome)) := by
  split
  · exact .pure composes none
  · refine .bind composes (.get composes) fun session => ?_
    refine .bind composes (stepsWithin_obeys composes stepped _) fun _ => ?_
    exact .bind composes (.get composes) fun _ => .pure composes _

theorem paced_obeys (stepped : Act.Obeys law (step : Play σ (Option Event)))
    (aborted : Act.Obeys law (abort : Play σ Bool)) (abortAfter : Option Nat) (began : Bool) :
    Act.Obeys law (do
      if began then
        stepsWithin ((← get).paceBound abortAfter)
        closePaced abortAfter Session.lastOutcome
      else closePaced abortAfter fun _ => none : Play σ (Option Outcome × Option Bool)) := by
  split
  · refine .bind composes (.get composes) fun session => ?_
    refine .bind composes (stepsWithin_obeys composes stepped _) fun _ => ?_
    exact closePaced_obeys composes aborted abortAfter _
  · exact closePaced_obeys composes aborted abortAfter _

end obeys

theorem stepsWithin_tallies (bound : Nat) : Act.Obeys tallying (stepsWithin bound : Play σ Unit) :=
  stepsWithin_obeys tallying_composes step_tallies bound

def standing (session : Session σ) : Attempt := ⟨session.lastOutcome = some .won, session.world.moves⟩

/-- The attempt made by a run that went on before and has ended since. -/
def attemptBetween (before after : Session σ) : List Attempt :=
  if before.isRunning && !after.isRunning then [after.standing] else []

def attemptStopped (session : Session σ) : List Attempt :=
  if session.isRunning then [⟨false, session.world.moves⟩] else []

theorem Completed.standing {outcome : Option Outcome} (completed : Completed session outcome later) :
    later.isRunning = false ∧ later.standing = ⟨outcome = some .won, session.world.moves⟩ := by
  cases completed <;> exact ⟨session.closed_isRunning outcome, rfl⟩

/-- An act that tells of the end of a run as the session stands after it, and does nothing between
runs. -/
def ending : Act.Law SessionFault (Session σ) := fun before signals _ after =>
  before.Intact → after.Intact ∧ results signals = before.attemptBetween after ∧
    (before.isRunning = false → after = before)

theorem ending_composes : (ending : Act.Law SessionFault (Session σ)).Composes where
  still := fun session intact => ⟨intact, by simp [attemptBetween], fun _ => rfl⟩
  onward := by
    intro before between after early late fault first second intact
    obtain ⟨still, one, idle⟩ := first intact
    obtain ⟨later, other, idle_then⟩ := second still
    refine ⟨later, ?_, fun stopped => ?_⟩
    · rw [results_append, one, other]
      cases goes_on : between.isRunning with
      | true =>
        have went_on : before.isRunning = true := by
          cases running : before.isRunning with
          | true => rfl
          | false =>
            rw [idle running, running] at goes_on
            cases goes_on
        simp [attemptBetween, went_on, goes_on]
      | false => simp [attemptBetween, goes_on, idle_then goes_on]
    · have same := idle stopped
      rw [idle_then (by rw [same, stopped]), same]

theorem step_ending : Act.Obeys ending (step : Play σ (Option Event)) := by
  intro session intact
  refine ⟨(step_tallies session intact).2.intact, ?_, fun stopped => by simp [step, stopped]⟩
  cases running : session.isRunning with
  | false => simp [step, running, attemptBetween]
  | true =>
    obtain ⟨run, walk, has_run, has_walk, under_way⟩ := intact.held running
    have told := step_results running has_run has_walk
    rw [Engine.next_results under_way] at told
    rw [told]
    have stepped := step_stepped intact.placed
    generalize (step session).value = answer at stepped ⊢
    cases stepped with
    | idle idle => simp [running, has_run, has_walk] at idle
    | onward _ _ call _ same_run same_walk called goes_on =>
      cases has_run.symm.trans same_run
      cases has_walk.symm.trans same_walk
      have still : (session.holding call.1 (some call.2.1)).isRunning = true := running
      simp [called, Engine.resultsOfEnd, goes_on, attemptBetween, still]
    | ended _ _ call later _ same_run same_walk called ends completed =>
      cases has_run.symm.trans same_run
      cases has_walk.symm.trans same_walk
      obtain ⟨stopped, standing⟩ := completed.standing
      simp [called, Engine.resultsOfEnd, ends, attemptBetween, running, stopped, standing]
      rfl

theorem stepsWithin_ending (bound : Nat) : Act.Obeys ending (stepsWithin bound : Play σ Unit) :=
  stepsWithin_obeys ending_composes step_ending bound

theorem exists_stepsWithin (intact : session.Intact) (bound : Nat) : ∃ later signals,
    stepsWithin bound session = ⟨(.ok (), later), signals⟩ ∧ later.Intact ∧
      results signals = session.attemptBetween later := by
  obtain ⟨faultless, -⟩ := stepsWithin_tallies bound session intact
  obtain ⟨still, ended, -⟩ := stepsWithin_ending bound session intact
  rcases told : stepsWithin bound session with ⟨⟨fault | value, later⟩, signals⟩ <;>
    rw [told] at faultless still ended
  · cases faultless
  · exact ⟨later, signals, rfl, still, ended⟩

theorem abort_attempt (intact : session.Intact) :
    results (abort session).signals = session.attemptStopped := by
  cases running : session.isRunning with
  | false => simp [abort, running, attemptStopped, spoken, results, Signal.result?]
  | true =>
    obtain ⟨run, walk, has_run, has_walk, under_way⟩ := intact.held running
    rw [abort_results running has_run under_way, attemptStopped, if_pos running]

theorem closePaced_attempts (intact : session.Intact) (abortAfter : Option Nat)
    (answer : Session σ → Option Outcome) : results (closePaced abortAfter answer session).signals =
      if abortAfter.isSome then session.attemptStopped else [] := by
  cases abortAfter with
  | none => simp [closePaced]
  | some count =>
    have told := abort_attempt intact
    rcases stopped : abort session with ⟨⟨fault | value, later⟩, signals⟩ <;> rw [stopped] at told <;>
      simp [closePaced, stopped, told]

end BlockMaze.Session
