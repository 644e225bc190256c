import BlockMaze.Proofs.Game.Attempts
import BlockMaze.Proofs.Run.Solvable

/-! The stages of a session and its score. Whatever is asked for, the stage agrees with the run, its walk
and how it came out, and the points are the runs won since all was last started anew. -/
namespace BlockMaze

/-- How many runs were won, as it is told. -/
def wins (signals : List Signal) : Nat := (results signals).countP (·.success)

@[simp] theorem wins_append (signals others : List Signal) :
    wins (signals ++ others) = wins signals + wins others := by
  rw [wins, results_append, List.countP_append]
  rfl

theorem wins_of_silent {signals : List Signal} (silent : results signals = []) : wins signals = 0 := by
  rw [wins, silent]
  rfl

namespace Session
open Text
variable {σ : Type} {session later : Session σ}

/-- The stage, the run and its outcome agree. A run that goes on has a walk with a place to go on from, and
one that was won has the agent on the goal. -/
structure Staged (session : Session σ) : Prop where
  placed : session.progress.Placed
  underway : session.stage = .running → ∃ run walk, session.run = some run ∧ session.walk = some walk ∧
    run.running = true ∧ Engine.Consistent ⟨session.world, run⟩ walk
  at_rest : session.stage ≠ .running →
    session.walk = none ∧ ∀ run, session.run = some run → run.running = false
  attempted : session.attempted = true ↔ session.stage ≠ .idle
  won : session.stage = .won → session.lastOutcome = some .won ∧
    (∃ run, session.run = some run ∧ run.outcome = some .won) ∧ session.world.atGoal = true
  lost : session.stage = .lost → session.lastOutcome = some .lost ∧
    ∃ run, session.run = some run ∧ run.outcome = some .lost

theorem isRunning_iff : session.isRunning = true ↔ session.stage = .running := decide_eq_true_iff

theorem staged_ofWorld (settings : SessionSettings) (privileged : Bool) (source : σ) (world : World) :
    (ofWorld settings privileged source world).Staged where
  placed := Progress.placed_fresh settings.quota
  underway := nofun
  at_rest := fun _ => ⟨rfl, nofun⟩
  attempted := by simp [ofWorld]
  won := nofun
  lost := nofun

theorem Staged.intact (staged : session.Staged) : session.Intact where
  placed := staged.placed
  held := by
    intro running
    obtain ⟨run, walk, has_run, has_walk, goes_on, -⟩ := staged.underway (isRunning_iff.mp running)
    exact ⟨run, walk, has_run, has_walk, goes_on⟩

theorem Staged.stopped (staged : session.Staged) (fresh : session.attempted = false) :
    session.stage = .idle := by
  refine Classical.byContradiction fun busy => ?_
  cases fresh.symm.trans (staged.attempted.mpr busy)

theorem Completed.staged {run : Run} (completed : Completed session run.outcome later)
    (placed : session.progress.Placed) (attempted : session.attempted = true)
    (has_run : session.run = some run) (stopped : run.running = false)
    (decided : run.outcome = some .won ∨ run.outcome = some .lost)
    (honest : run.outcome = some .won → session.world.atGoal = true) : later.Staged := by
  have still_placed := (completed.follows placed).placed
  obtain ⟨program, progress, mode, rfl⟩ := completed.frame
  have at_rest : ∀ other, session.run = some other → other.running = false := by
    intro other same
    cases has_run.symm.trans same
    exact stopped
  rcases decided with won | lost
  · have stage : (session.closed run.outcome).stage = .won := if_pos won
    exact {
      placed := still_placed
      underway := fun running => by cases stage.symm.trans running
      at_rest := fun _ => ⟨rfl, at_rest⟩
      attempted := by simp [closed, attempted, won]
      won := fun _ => ⟨won, ⟨run, has_run, won⟩, honest won⟩
      lost := fun lost => by cases stage.symm.trans lost }
  · have stage : (session.closed run.outcome).stage = .lost := if_neg (by simp [lost])
    exact {
      placed := still_placed
      underway := fun running => by cases stage.symm.trans running
      at_rest := fun _ => ⟨rfl, at_rest⟩
      attempted := by simp [closed, attempted, lost]
      won := fun won => by cases stage.symm.trans won
      lost := fun _ => ⟨lost, run, has_run, lost⟩ }

theorem start_keeps_staged : (start : Play σ Bool).Keeps Staged := by
  intro session staged
  have started := start_started staged.placed
  generalize (start session).value = answer at started
  cases started with
  | running | attempted => exact staged
  | locked later stopped fresh entitled =>
    have placed := (entitled.placed staged.placed).1
    obtain ⟨program, progress, mode, rfl⟩ := entitled.frame
    exact { staged with placed }
  | empty later stopped fresh entitled empty =>
    have placed := (entitled.placed staged.placed).1
    have idle := staged.stopped fresh
    obtain ⟨program, progress, mode, rfl⟩ := entitled.frame
    exact { staged with
      placed
      won := fun won => by cases idle.symm.trans won
      lost := fun lost => by cases idle.symm.trans lost }
  | began later stopped fresh entitled something =>
    have placed := (entitled.placed staged.placed).1
    refine ⟨placed, fun _ => ⟨_, _, rfl, rfl, rfl, .underway _ rfl rfl⟩, ?_, ?_, nofun, nofun⟩
    · exact fun resting => absurd rfl resting
    · simp [begun]

theorem step_keeps_staged : (step : Play σ (Option Event)).Keeps Staged := by
  intro session staged
  have stepped := step_stepped staged.placed
  generalize (step session).value = answer at stepped
  cases stepped with
  | idle => exact staged
  | onward run walk call running has_run has_walk called goes_on =>
    obtain ⟨_, _, same_run, same_walk, under_way, consistent⟩ := staged.underway (isRunning_iff.mp running)
    cases has_run.symm.trans same_run
    cases has_walk.symm.trans same_walk
    subst called
    have stage : session.stage = .running := isRunning_iff.mp running
    exact { staged with
      underway := fun _ => ⟨_, _, rfl, rfl, goes_on, consistent.next⟩
      at_rest := fun resting => absurd stage resting
      won := fun won => by cases stage.symm.trans won
      lost := fun lost => by cases stage.symm.trans lost }
  | ended run walk call later running has_run has_walk called ends completed =>
    obtain ⟨_, _, same_run, same_walk, under_way, consistent⟩ := staged.underway (isRunning_iff.mp running)
    cases has_run.symm.trans same_run
    cases has_walk.symm.trans same_walk
    subst called
    -- a run under way has no outcome yet, so that it claims no win
    have honest : Engine.Honest ⟨session.world, run⟩ := by
      intro won
      cases consistent with
      | underway stack _ open_end => cases open_end.symm.trans won
      | done stopped => cases under_way.symm.trans stopped
    have attempted : session.attempted = true := staged.attempted.mpr (by simp [isRunning_iff.mp running])
    exact completed.staged staged.placed attempted rfl ends (consistent.next.outcome_of_stopped ends)
      (honest.next consistent)

theorem abort_keeps_staged : (abort : Play σ Bool).Keeps Staged := by
  intro session staged
  have aborted := abort_aborted staged.placed
  generalize (abort session).value = answer at aborted
  cases aborted with
  | idle => exact staged
  | stopped run engine later running has_run stopped completed =>
    obtain ⟨_, _, same_run, _, under_way, -⟩ := staged.underway (isRunning_iff.mp running)
    cases has_run.symm.trans same_run
    obtain ⟨ended, -⟩ := @Engine.abort_results ⟨session.world, run⟩ under_way
    cases stopped.symm.trans ended
    have placed := (completed.follows (show (session.holding _ _).progress.Placed from staged.placed)).placed
    obtain ⟨program, progress, mode, rfl⟩ := completed.frame
    refine ⟨placed, nofun, fun _ => ⟨rfl, ?_⟩, by simp, nofun, nofun⟩
    intro other same
    cases same
    rfl

section requests
variable [RandomSource σ]

theorem Answered.staged {call : Call} {told : Told (Except SessionFault Reply × Session σ)}
    (answered : Answered session call told) (staged : session.Staged) : told.value.2.Staged := by
  cases answered with
  | dealt deals stopped rolled =>
    have resting : session.stage ≠ .running := fun running => by
      cases stopped.symm.trans (isRunning_iff.mpr running)
    exact ⟨staged.placed, nofun, fun _ => staged.at_rest resting, by simp [Session.dealt], nofun, nofun⟩
  | _ => exact { staged with }

theorem staged_invariant : Invariant (Staged : Session σ → Prop) where
  placed := Staged.placed
  start := start_keeps_staged
  step := step_keeps_staged
  abort := abort_keeps_staged
  answered := fun staged answered => answered.staged staged

end requests

def scoring : Act.Law SessionFault (Session σ) := fun before signals _ after =>
  before.Intact → after.Intact ∧ after.score = before.score + wins signals

theorem scoring_composes : (scoring : Act.Law SessionFault (Session σ)).Composes where
  still := fun _ intact => ⟨intact, rfl⟩
  onward := by
    intro before between after early late fault first second intact
    obtain ⟨still, one⟩ := first intact
    obtain ⟨later, other⟩ := second still
    refine ⟨later, ?_⟩
    rw [other, one, wins_append, Nat.add_assoc]

theorem start_scores : Act.Obeys scoring (start : Play σ Bool) := by
  intro session intact
  refine ⟨(start_ran intact).2.intact, ?_⟩
  rw [wins_of_silent (start_quiet.results session), Nat.add_zero]
  have started := start_started intact.placed
  generalize (start session).value = answer at started
  cases started with
  | running | attempted => rfl
  | locked later stopped fresh entitled | empty later stopped fresh entitled
  | began later stopped fresh entitled =>
    obtain ⟨program, progress, mode, rfl⟩ := entitled.frame
    rfl

theorem step_scores : Act.Obeys scoring (step : Play σ (Option Event)) := by
  intro session intact
  obtain ⟨still, told, -⟩ := step_ending session intact
  refine ⟨still, ?_⟩
  rw [wins, told]
  have stepped := step_stepped intact.placed
  generalize (step session).value = answer at stepped ⊢
  cases stepped with
  | idle => simp [attemptBetween]
  | onward run walk call running =>
    have goes_on : (session.holding call.1 (some call.2.1)).isRunning = true := running
    rw [attemptBetween, running, goes_on]
    rfl
  | ended run walk call later running has_run has_walk called ends completed =>
    obtain ⟨stopped, standing⟩ := completed.standing
    obtain ⟨program, progress, mode, rfl⟩ := completed.frame
    rw [attemptBetween, running, stopped, standing]
    by_cases won : call.1.run.outcome = some .won <;> simp [closed, holding, won]

theorem abort_scores : Act.Obeys scoring (abort : Play σ Bool) := by
  intro session intact
  refine ⟨(abort_tallies session intact).2.intact, ?_⟩
  have told := abort_attempt intact
  have none_won : wins (abort session).signals = 0 := by
    rw [wins, told, attemptStopped]
    split <;> rfl
  rw [none_won, Nat.add_zero]
  have aborted := abort_aborted intact.placed
  generalize (abort session).value = answer at aborted
  cases aborted with
  | idle => rfl
  | stopped run engine later running has_run stopped completed =>
    obtain ⟨_, _, same_run, _, under_way⟩ := intact.held running
    cases has_run.symm.trans same_run
    obtain ⟨ended, -⟩ := @Engine.abort_results ⟨session.world, run⟩ under_way
    cases stopped.symm.trans ended
    obtain ⟨program, progress, mode, rfl⟩ := completed.frame
    rfl

theorem runToEnd_scores : Act.Obeys scoring (runToEnd : Play σ (Option Outcome)) :=
  .bind scoring_composes start_scores (onward_obeys scoring_composes step_scores)

theorem runPaced_scores (abortAfter : Option Nat) :
    Act.Obeys scoring (runPaced abortAfter : Play σ (Option Outcome × Option Bool)) := by
  rw [runPaced_eq]
  exact .bind scoring_composes start_scores (paced_obeys scoring_composes step_scores abort_scores abortAfter)

section requests
variable [RandomSource σ]

def startsAnew (session : Session σ) (call : Call) : Bool :=
  call = .reset ∧ (answer call session).value.1 = .ok (.granted true)

theorem score_aside {call : Call} (aside : call.isAside = true) (placed : session.progress.Placed) :
    (session.after call).score = if session.startsAnew call then 0 else session.score := by
  have answered := answer_answered placed aside
  rw [startsAnew, ← answer_after]
  generalize answer call session = told at answered
  cases answered with
  | @declined _ reply _ refusal =>
    have kept : reply ≠ .granted true := by
      rintro rfl
      cases refusal
    simp [kept]
  | edited editable asked =>
    have kept : call ≠ .reset := by
      rintro rfl
      cases asked
    simp [kept, Session.edited]
  | dealt => simp [Session.dealt]
  | _ => simp [inMode]

theorem score_after (intact : session.Intact) (call : Call) : (session.after call).score =
    if session.startsAnew call then 0 else session.score + wins (answer call session).signals := by
  cases aside : call.isAside with
  | true =>
    rw [score_aside aside intact.placed, wins_of_silent ((answer_quiet aside).results session), Nat.add_zero]
  | false =>
    have kept : session.startsAnew call = false := by
      cases call <;> first | rfl | cases aside
    have scored {α : Type} {act : Play σ α} (obeys : Act.Obeys scoring act) (change : α → Reply) :
        ((change <$> act) session).value.2.score =
          session.score + wins ((change <$> act) session).signals := by
      rw [Act.map_apply]
      exact (obeys session intact).2
    rw [kept, ← answer_after]
    cases call with
    | start => exact scored start_scores _
    | step => exact scored step_scores _
    | runToEnd => exact scored runToEnd_scores _
    | runPaced abortAfter => exact scored (runPaced_scores abortAfter) _
    | abort => exact scored abort_scores _
    | _ => cases aside

/-- All that is told along with requests, and before them, since all was last started anew. -/
def toldAnew (session : Session σ) (told : List Signal) : List Call → List Signal
  | [] => told
  | call :: calls => (session.after call).toldAnew
      (if session.startsAnew call then [] else told ++ (answer call session).signals) calls

theorem score_afterAll (intact : session.Intact) {told : List Signal} (score : session.score = wins told)
    (calls : List Call) : (session.afterAll calls).score = wins (session.toldAnew told calls) := by
  induction calls generalizing session told with
  | nil => exact score
  | cons call calls ih =>
    apply ih (after_accounted intact call).intact
    rw [score_after intact]
    split
    · rfl
    · rw [score, wins_append]

/-- Whatever is asked for in whatever order, a session is in the running stage exactly as long as its
engine runs, and as long as it has a walk to go on with; its puzzle has been attempted exactly if it is
not idle. After a run that was won the agent stands on the goal, and the outcomes that session and engine
remember are those of the stage. The points are the runs won since all was last started anew. -/
theorem lifecycle_of_requests (settings : SessionSettings) (privileged : Bool) (source : σ) (world : World)
    (calls : List Call) :
    let fresh := ofWorld settings privileged source world
    let session := fresh.afterAll calls
    (session.stage = .running ↔ ∃ run, session.run = some run ∧ run.running = true) ∧
    (session.stage = .running ↔ session.walk.isSome = true) ∧
    (session.attempted = true ↔ session.stage ≠ .idle) ∧
    (session.stage = .won → session.lastOutcome = some .won ∧
      (∃ run, session.run = some run ∧ run.outcome = some .won) ∧ session.world.atGoal = true) ∧
    (session.stage = .lost → session.lastOutcome = some .lost ∧
      ∃ run, session.run = some run ∧ run.outcome = some .lost) ∧
    session.score = wins (fresh.toldAnew [] calls) := by
  intro fresh session
  have staged : session.Staged :=
    staged_invariant.afterAll (staged_ofWorld settings privileged source world) calls
  have intact : fresh.Intact := intact_ofWorld settings privileged source world
  refine ⟨⟨fun running => ?_, ?_⟩, ⟨fun running => ?_, fun held => ?_⟩, staged.attempted, staged.won,
    staged.lost, score_afterAll intact rfl calls⟩
  · obtain ⟨run, walk, has_run, has_walk, goes_on, -⟩ := staged.underway running
    exact ⟨run, has_run, goes_on⟩
  · rintro ⟨run, has_run, goes_on⟩
    refine Classical.byContradiction fun resting => ?_
    cases goes_on.symm.trans ((staged.at_rest resting).2 run has_run)
  · obtain ⟨run, walk, has_run, has_walk, -⟩ := staged.underway running
    rw [has_walk]
    rfl
  · refine Classical.byContradiction fun resting => ?_
    rw [(staged.at_rest resting).1] at held
    cases held

end requests

end Session

end BlockMaze
