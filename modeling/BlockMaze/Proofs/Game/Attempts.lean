import BlockMaze.Proofs.Game.Account

/-! The attempts that a session has recorded, against the player's quota. As long as rights are not taken
away during a run, an ordinary player makes the quota of attempts in every mode and no more. A run that
outlives the player's rights may be recorded beyond the quota of the last mode. -/
namespace BlockMaze.Session
open Text
variable {σ : Type} {session : Session σ} {quota : Nat} {attempts : List Attempt}

theorem start_began (placed : session.progress.Placed) (begun : (start session).value.1 = .ok true) :
    ∃ later, session.isRunning = false ∧ Entitled session (.ok true, later) ∧
      (start session).value.2 = later.begun := by
  have started := start_started placed
  generalize (start session).value = answer at begun started ⊢
  cases started with
  | began later stopped fresh entitled something => exact ⟨later, stopped, entitled, rfl⟩
  | _ => cases begun

theorem ok_of_began {result : Except SessionFault Bool} (begun : began result = true) :
    result = .ok true := by
  cases result with
  | ok granted =>
    cases begun
    rfl
  | error fault => cases begun

theorem start_of_begins {call : Call} (begun : session.begins call = true) :
    (start session).value.1 = .ok true := by
  cases call with
  | start | runToEnd | runPaced => exact ok_of_began begun
  | _ => cases begun

theorem Entitled.unlocked (entitled : Entitled session (.ok true, later))
    (ordinary : session.privileged = false) : session.progress.locked = false := by
  cases entitled with
  | privileged privileged => cases privileged.symm.trans ordinary
  | unspent mode ordinary unlocked => exact unlocked
  | opening mode next progress ordinary unlocked => exact unlocked

/-- No run begins while another goes on, or for an ordinary player who is locked out. -/
theorem begins_permitted (placed : session.progress.Placed) (call : Call) :
    session.isRunning.toNat + (session.begins call).toNat ≤ 1 ∧
      (session.begins call = true → session.privileged = false → session.progress.locked = false) := by
  cases begins : session.begins call with
  | false => exact ⟨by simpa using session.isRunning.toNat_le, nofun⟩
  | true =>
    obtain ⟨later, stopped, entitled, -⟩ := start_began placed (start_of_begins begins)
    exact ⟨by simp [stopped], fun _ ordinary => entitled.unlocked ordinary⟩

/-- The session as a paced run leaves it, before the run is stopped. -/
def paced (abortAfter : Option Nat) (session : Session σ) : Session σ :=
  let started := (start session).value
  if began started.1 then (stepsWithin (started.2.paceBound abortAfter) started.2).value.2 else started.2

/-- The attempts are filed under their modes, and a run that goes on can be gone on with. -/
structure Recorded (quota : Nat) (attempts : List Attempt) (session : Session σ) : Prop where
  intact : session.Intact
  filed : ∃ place, Progress.Filed [.basic, .conditions, .loop] quota place attempts session.progress

theorem recorded_ofWorld {settings : SessionSettings} (quota_eq : settings.quota = quota)
    (positive : 0 < quota) (privileged : Bool) (source : σ) (world : World) :
    (ofWorld settings privileged source world).Recorded quota [] where
  intact := intact_ofWorld settings privileged source world
  filed := by
    refine ⟨0, ?_⟩
    rw [ofWorld, quota_eq]
    exact Progress.filed_fresh positive

theorem Recorded.progress_unspent (recorded : session.Recorded quota attempts) :
    session.progress.Unspent :=
  recorded.filed.elim fun _ filed => filed.unspent

theorem Recorded.made_le (recorded : session.Recorded quota attempts) {mode : Mode}
    (earlier : mode ≠ .loop) : (session.progress.attempts.made mode).length ≤ quota := by
  obtain ⟨place, filed⟩ := recorded.filed
  cases mode with
  | basic =>
    have found : ([.basic, .conditions, .loop] : List Mode)[0]? = some .basic := rfl
    exact filed.made_le found (by decide)
  | conditions =>
    have found : ([.basic, .conditions, .loop] : List Mode)[1]? = some .conditions := rfl
    exact filed.made_le found (by decide)
  | loop => exact absurd rfl earlier

theorem Recorded.made_loop (recorded : session.Recorded quota attempts) :
    (session.progress.attempts.made .loop).length = attempts.length - 2 * quota := by
  obtain ⟨place, filed⟩ := recorded.filed
  have found : ([.basic, .conditions, .loop] : List Mode)[2]? = some .loop := rfl
  exact filed.made_last found rfl

/-- An ordinary player whose run goes on is not locked out. -/
def Admitted (session : Session σ) : Prop :=
  session.privileged = false → session.isRunning = true → session.progress.locked = false

section requests
variable [RandomSource σ]

/-- The attempts made with a request, by how the session stands when a run has ended, or when it is
stopped and the agent is not put back yet. -/
def attemptsWith (session : Session σ) : Call → List Attempt
  | .step => session.attemptBetween (session.after .step)
  | .abort => session.attemptStopped
  | .runToEnd => (session.after .start).attemptBetween (session.after .runToEnd)
  | .runPaced abortAfter =>
    (session.after .start).attemptBetween (session.paced abortAfter) ++
      if abortAfter.isSome then (session.paced abortAfter).attemptStopped else []
  | _ => []

theorem runToEnd_attempts (intact : session.Intact) :
    results (runToEnd session).signals = session.attemptsWith .runToEnd := by
  obtain ⟨granted, begun, early, started, still, silent⟩ := exists_start intact
  obtain ⟨later, late, stepped, -, ended⟩ := exists_stepsWithin still begun.stepBound
  simp only [attemptsWith, Session.after]
  cases granted with
  | false => simp [runToEnd, started, silent, attemptBetween]
  | true => simp [runToEnd, started, stepped, silent, ended]

theorem runPaced_attempts (intact : session.Intact) (abortAfter : Option Nat) :
    results (runPaced abortAfter session).signals = session.attemptsWith (.runPaced abortAfter) := by
  obtain ⟨granted, begun, early, started, still, silent⟩ := exists_start intact
  obtain ⟨later, late, stepped, paced_still, ended⟩ :=
    exists_stepsWithin still (begun.paceBound abortAfter)
  rw [runPaced_eq, Act.bind_of_ok started]
  simp only [attemptsWith, Session.after, paced, started]
  cases granted with
  | false => simp [silent, closePaced_attempts still, attemptBetween, began]
  | true => simp [silent, stepped, ended, closePaced_attempts paced_still, began]

theorem results_answer (intact : session.Intact) (call : Call) :
    results (answer call session).signals = session.attemptsWith call := by
  cases aside : call.isAside with
  | true =>
    have none_made : session.attemptsWith call = [] := by cases call <;> first | rfl | cases aside
    rw [none_made, (answer_quiet aside).results session]
  | false =>
    cases call with
    | start =>
      rw [answer, Act.map_apply]
      exact start_quiet.results session
    | step =>
      rw [answer, Act.map_apply]
      exact (step_ending session intact).2.1
    | runToEnd =>
      rw [answer, Act.map_apply]
      exact runToEnd_attempts intact
    | runPaced abortAfter =>
      rw [answer, Act.map_apply]
      exact runPaced_attempts intact abortAfter
    | abort =>
      rw [answer, Act.map_apply]
      exact abort_attempt intact
    | _ => cases aside

theorem Recorded.after (recorded : session.Recorded quota attempts) (call : Call) :
    (session.after call).Recorded quota
      (attempts ++ session.counted (answer call session).signals) := by
  have accounted := after_accounted recorded.intact call
  obtain ⟨place, filed⟩ := recorded.filed
  refine ⟨accounted.intact, ?_⟩
  rw [accounted.progress filed.unspent]
  exact filed.recordAll _

theorem Admitted.after (admitted : session.Admitted) (recorded : session.Recorded quota attempts)
    {call : Call}
    (kept : call = .setUser false → session.isRunning = false ∨ session.privileged = false) :
    (session.after call).Admitted := by
  intro ordinary goes_on
  have intact := recorded.intact
  by_cases change : ∃ privileged, call = .setUser privileged
  · obtain ⟨privileged, rfl⟩ := change
    have unconcerned : (Call.setUser privileged).isAside = true := rfl
    have kept_run := after_aside unconcerned intact.placed
    rw [after_setUser intact.placed] at ordinary
    subst ordinary
    rw [kept_run.running] at goes_on
    rw [kept_run.progress]
    rcases kept rfl with stopped | before
    · cases stopped.symm.trans goes_on
    · exact admitted before goes_on
  · rw [after_privileged intact fun privileged same => change ⟨privileged, same⟩] at ordinary
    have accounted := after_accounted intact call
    obtain ⟨at_most_one, unlocked⟩ := begins_permitted intact.placed call
    -- the run goes on, so that none has ended and nothing was recorded
    have running := accounted.running
    rw [goes_on, Bool.toNat_true] at running
    have silent : results (answer call session).signals = [] := by
      rw [← List.length_eq_zero_iff]
      omega
    rw [accounted.progress recorded.progress_unspent, counted_of_silent silent]
    cases begins : session.begins call with
    | true => exact unlocked begins ordinary
    | false =>
      rw [begins, silent] at running
      refine admitted ordinary ?_
      cases going : session.isRunning with
      | true => rfl
      | false =>
        rw [going] at running
        cases running

/-- How many of these requests are counted, made one after the other. -/
def times (counts : Session σ → Call → Bool) (session : Session σ) : List Call → Nat
  | [] => 0
  | call :: calls => (counts session call).toNat + (session.after call).times counts calls

theorem intact_afterAll (intact : session.Intact) (calls : List Call) :
    (session.afterAll calls).Intact ∧ (session.afterAll calls).settings = session.settings ∧
      (session.afterAll calls).progress.quota = session.progress.quota := by
  induction calls generalizing session with
  | nil => exact ⟨intact, rfl, rfl⟩
  | cons call calls ih =>
    have accounted := after_accounted intact call
    obtain ⟨later, settings, quota⟩ := ih accounted.intact
    exact ⟨later, settings.trans accounted.settings, quota.trans accounted.quota⟩

theorem results_of_requests (intact : session.Intact) (calls : List Call) :
    (results (session.toldAll calls)).length + (session.afterAll calls).isRunning.toNat =
      session.isRunning.toNat + session.times begins calls := by
  induction calls generalizing session with
  | nil => simp [toldAll, afterAll, times]
  | cons call calls ih =>
    have accounted := after_accounted intact call
    have first := accounted.running
    have rest := ih accounted.intact
    rw [toldAll, results_append, List.length_append, times, afterAll, List.foldl_cons]
    rw [afterAll] at rest
    omega

/-- Whether a request ends a run of an ordinary player who is locked out. -/
def overrun (session : Session σ) (call : Call) : Bool :=
  session.isRunning && !session.privileged && session.progress.locked && !(session.after call).isRunning

theorem Admitted.not_overrun (admitted : session.Admitted) (call : Call) :
    session.overrun call = false := by
  have unlocked := admitted
  unfold Admitted at unlocked
  cases ordinary : session.privileged <;> cases running : session.isRunning <;>
    simp_all [overrun]

/-- Attempts beyond all quotas come from runs that end when their player is locked out. -/
theorem Recorded.length_after (recorded : session.Recorded quota attempts) (call : Call) :
    (attempts ++ session.counted (answer call session).signals).length - 3 * quota =
      (attempts.length - 3 * quota) + (session.overrun call).toNat := by
  have running := (after_accounted recorded.intact call).running
  obtain ⟨at_most_one, unlocked⟩ := begins_permitted recorded.intact.placed call
  obtain ⟨place, filed⟩ := recorded.filed
  have full := filed.locked_iff
  simp only [List.length_cons, List.length_nil] at full
  rw [List.length_append]
  cases ordinary : session.privileged with
  | true => simp [counted, Session.overrun, ordinary]
  | false =>
    have all : session.counted (answer call session).signals = results (answer call session).signals := by
      simp [counted, ordinary]
    rw [all]
    cases locked : session.progress.locked with
    | false =>
      have room : attempts.length < 3 * quota := by
        rw [locked] at full
        simpa using full
      have none_over : session.overrun call = false := by simp [Session.overrun, locked]
      rw [none_over, Bool.toNat_false]
      omega
    | true =>
      have spent : 3 * quota ≤ attempts.length := full.mp locked
      have none_begins : session.begins call = false := by
        cases begins : session.begins call with
        | false => rfl
        | true => cases locked.symm.trans (unlocked begins ordinary)
      have excess : (session.overrun call).toNat =
          session.isRunning.toNat - (session.after call).isRunning.toNat := by
        cases before : session.isRunning <;> cases later : (session.after call).isRunning <;>
          simp [Session.overrun, before, later, ordinary, locked]
      rw [none_begins, Bool.toNat_false] at running
      omega

theorem Recorded.afterAll (recorded : session.Recorded quota attempts) (calls : List Call) :
    ∃ more, (session.afterAll calls).Recorded quota (attempts ++ more) ∧
      (attempts ++ more).length - 3 * quota =
        (attempts.length - 3 * quota) + session.times overrun calls := by
  induction calls generalizing session attempts with
  | nil => exact ⟨[], by simpa [Session.afterAll] using recorded, by simp [times]⟩
  | cons call calls ih =>
    obtain ⟨more, later, beyond⟩ := ih (recorded.after call)
    rw [List.append_assoc] at later beyond
    refine ⟨_, later, ?_⟩
    rw [beyond, recorded.length_after call, times]
    omega

/-- What an ordinary player's session keeps up from its beginning. -/
structure Ordinary (quota : Nat) (attempts : List Attempt) (session : Session σ) : Prop where
  ordinary : session.privileged = false
  recorded : session.Recorded quota attempts
  admitted : session.Admitted
  fit : session.Fit
  within : attempts.length ≤ 3 * quota

theorem Ordinary.after (kept : session.Ordinary quota attempts) {call : Call}
    (not_granted : call ≠ .setUser true) :
    (session.after call).Ordinary quota (attempts ++ results (answer call session).signals) := by
  have intact := kept.recorded.intact
  have recorded := kept.recorded.after call
  have all : session.counted (answer call session).signals = results (answer call session).signals := by
    simp [counted, kept.ordinary]
  rw [all] at recorded
  refine ⟨?_, recorded, kept.admitted.after kept.recorded fun _ => .inr kept.ordinary, ?_, ?_⟩
  · by_cases change : ∃ privileged, call = .setUser privileged
    · obtain ⟨privileged, rfl⟩ := change
      rw [after_setUser intact.placed]
      cases privileged with
      | false => rfl
      | true => exact absurd rfl not_granted
    · rw [after_privileged intact fun privileged same => change ⟨privileged, same⟩]
      exact kept.ordinary
  · by_cases revoked : call = .setUser false ∧ session.isRunning = true
    · obtain ⟨rfl, running⟩ := revoked
      have fit := kept.fit
      rw [Session.after, setUser_of_running running]
      exact ⟨fit.placed, fun _ => fit.matched kept.ordinary⟩
    · refine after_fit kept.fit fun same => ?_
      simpa [same] using revoked
  · have length := kept.recorded.length_after call
    have within := kept.within
    rw [all, kept.admitted.not_overrun call, Bool.toNat_false] at length
    omega

theorem Ordinary.afterAll (kept : session.Ordinary quota attempts) {calls : List Call}
    (never_granted : .setUser true ∉ calls) :
    (session.afterAll calls).Ordinary quota (attempts ++ results (session.toldAll calls)) := by
  induction calls generalizing session attempts with
  | nil => simpa [Session.afterAll, toldAll] using kept
  | cons call calls ih =>
    obtain ⟨other, never⟩ := not_or.mp (mt List.mem_cons.mpr never_granted)
    have later := ih (kept.after fun same => other same.symm) never
    rwa [List.append_assoc, ← results_append] at later

end requests

/-- The account of an ordinary player. The runs that have ended are the runs that began, but for one that
may go on, and each is an attempt, in order: won or lost as its end was told, which is with the moves
made before the agent is put back. With their number comes the mode: the next one after every quota of
attempts, and no more runs after three quotas. -/
theorem attempts_account [RandomSource σ] (settings : SessionSettings) (source : σ) (world : World)
    (positive : 1 ≤ settings.quota) (calls : List Call) (never_granted : .setUser true ∉ calls) :
    let fresh := ofWorld settings false source world
    let later := fresh.afterAll calls
    let finished : Int := fresh.times begins calls - later.isRunning.toNat
    let attempts := [.basic, .conditions, .loop].flatMap later.progress.attempts.made
    attempts = results (fresh.toldAll calls) ∧
    (∀ call, results (answer call later).signals = later.attemptsWith call) ∧
    (attempts.length : Int) = finished ∧
    later.progress.index = min (finished / settings.quota) 2 ∧
    later.progress.current = .ok later.mode ∧
    (later.progress.locked = true ↔ 3 * settings.quota ≤ finished) ∧
    (∀ mode, ((later.progress.attempts.made mode).length : Int) ≤ settings.quota) ∧
    (fresh.times begins calls : Int) ≤ 3 * settings.quota := by
  intro fresh later finished attempts
  obtain ⟨quota, quota_eq⟩ := Int.eq_ofNat_of_zero_le (by omega : 0 ≤ settings.quota)
  have fresh_ordinary : fresh.Ordinary quota [] :=
    ⟨rfl, recorded_ofWorld quota_eq (by omega) false source world, nofun,
      fit_ofWorld settings false source world, Nat.zero_le _⟩
  have kept : later.Ordinary quota (results (fresh.toldAll calls)) := by
    simpa using fresh_ordinary.afterAll never_granted
  obtain ⟨place, filed⟩ := kept.recorded.filed
  have in_order : attempts = results (fresh.toldAll calls) := filed.in_order
  have balance : attempts.length + later.isRunning.toNat = fresh.times begins calls := by
    have total := results_of_requests fresh_ordinary.recorded.intact calls
    rwa [← in_order, show fresh.isRunning = false from rfl, Bool.toNat_false, Nat.zero_add] at total
  have number : (attempts.length : Int) = finished := by
    change _ = ((fresh.times begins calls : Int) - later.isRunning.toNat)
    omega
  have within := kept.within
  have locked := filed.locked_iff
  have index := filed.index_eq
  rw [← in_order] at within locked index
  simp only [List.length_cons, List.length_nil, Nat.zero_add, Nat.reduceAdd] at locked index
  refine ⟨in_order, results_answer kept.recorded.intact, number, ?_, kept.fit.matched kept.ordinary, ?_,
    fun mode => ?_, ?_⟩
  · rw [index, ← number, quota_eq]
    omega
  · rw [locked, ← number, quota_eq]
    omega
  · rw [quota_eq]
    by_cases last : mode = .loop
    · have made := kept.recorded.made_loop
      rw [← in_order] at made
      rw [last]
      omega
    · exact Int.ofNat_le.mpr (kept.recorded.made_le last)
  · cases running : later.isRunning with
    | false =>
      rw [running, Bool.toNat_false] at balance
      omega
    | true =>
      have room := mt locked.mpr (by simp [kept.admitted kept.ordinary running])
      rw [running, Bool.toNat_true] at balance
      omega

/-- Two runs with a quota of one: the first is stopped after a turn, the second wins. -/
theorem attempts_account_corridor :
    let calls : List Call := [.insert (.text "turn_left") none, .insert (.text "forward") none,
      .start, .step, .abort, .runToEnd]
    let fresh := ofWorld { quota := 1 } false (Dice.script []) (.ofPuzzle corridor)
    let later := fresh.afterAll calls
    fresh.times begins calls = 2 ∧
    results (fresh.toldAll calls) = [⟨false, 0⟩, ⟨true, 1⟩] ∧
    [.basic, .conditions, .loop].flatMap later.progress.attempts.made = [⟨false, 0⟩, ⟨true, 1⟩] ∧
    later.progress.index = 2 ∧ later.progress.current = .ok later.mode ∧
    ¬ later.progress.locked = true := by
  intro calls fresh later
  obtain ⟨in_order, _, _, index, matched, locked, _⟩ := attempts_account { quota := 1 } (Dice.script [])
    (.ofPuzzle corridor) (by decide) calls (by decide)
  have begun : fresh.times begins calls = 2 := by decide +kernel
  have stopped : later.isRunning = false := by decide +kernel
  have told : results (fresh.toldAll calls) = [⟨false, 0⟩, ⟨true, 1⟩] := by decide +kernel
  refine ⟨begun, told, ?_, ?_, matched, ?_⟩
  · rw [in_order]
    exact told
  · rw [index, begun, stopped]
    decide
  · rw [locked, begun, stopped]
    decide

end BlockMaze.Session
