import Mathlib.Data.List.Induction
import BlockMaze.Chance.Dice
import BlockMaze.Proofs.Game.Answers
import BlockMaze.Proofs.Run.Budget

/-! Which mode an ordinary player is in. Between runs it is the mode of the progress, unless the right
to choose modes was taken away during a run: then the mode chosen before may outlive the run. -/
namespace BlockMaze.Session
open Text
variable {σ : Type} {session before after later : Session σ}

/-- An ordinary player is in the mode that the progress has come to. -/
def Matched (session : Session σ) : Prop :=
  session.privileged = false → session.progress.current = .ok session.mode

/-- Between two runs an ordinary player is in the mode of the progress. -/
def InStep (session : Session σ) : Prop := session.isRunning = false → session.Matched

/-- Where a mode is to be had, and an ordinary player is in it. -/
structure Fit (session : Session σ) : Prop where
  placed : session.progress.Placed
  matched : session.Matched

/-- The rights stay as they are. So do the progress's mode and the player's, or the progress comes to
another mode and the player with it. -/
structure Follows (before after : Session σ) : Prop where
  privileged : after.privileged = before.privileged
  placed : after.progress.Placed
  mode : (after.progress.current = before.progress.current ∧ after.mode = before.mode) ∨
    (after.progress.current ≠ before.progress.current ∧ after.progress.current = .ok after.mode)

theorem Follows.fit (follows : Follows before after) (fit : before.Fit) : after.Fit := by
  refine ⟨follows.placed, fun ordinary => ?_⟩
  rcases follows.mode with ⟨same, mode⟩ | ⟨_, matched⟩
  · rw [same, mode]
    exact fit.matched (follows.privileged ▸ ordinary)
  · exact matched

theorem follows_of_same (placed : before.progress.Placed) (privileged : after.privileged = before.privileged)
    (progress : after.progress = before.progress) (mode : after.mode = before.mode) :
    Follows before after :=
  ⟨privileged, progress ▸ placed, .inl ⟨by rw [progress], mode⟩⟩

theorem Completed.follows {outcome : Option Outcome} (placed : session.progress.Placed)
    (completed : Completed session outcome later) : Follows session later := by
  have advance (mode : Mode) := Progress.advance_cases
    (placed.noted mode ⟨outcome = some .won, session.world.moves⟩)
  have recorded_placed (mode : Mode) : (session.recorded outcome mode).Placed :=
    (advance mode).placed (placed.noted mode _)
  cases completed with
  | privileged privileged => exact follows_of_same placed rfl rfl rfl
  | locked mode ordinary current locked =>
    exact ⟨rfl, recorded_placed mode, .inl ⟨(advance mode).current_of_locked locked, rfl⟩⟩
  | same mode ordinary current unlocked same =>
    exact ⟨rfl, recorded_placed mode, .inl ⟨same.trans current.symm, rfl⟩⟩
  | promoted mode next ordinary current unlocked following different =>
    refine ⟨rfl, recorded_placed mode, .inr ⟨?_, following⟩⟩
    change (session.recorded outcome mode).current ≠ session.progress.current
    rw [following, current]
    exact fun same => different (Except.ok.inj same)

theorem Entitled.fit {granted : Bool} (fit : session.Fit)
    (entitled : Entitled session (.ok granted, later)) : later.Fit := by
  have advance := Progress.advance_cases fit.placed
  cases entitled with
  | privileged => exact fit
  | locked => exact fit
  | unspent mode ordinary unlocked current unspent => exact ⟨fit.placed, fun _ => current⟩
  | locking mode progress ordinary unlocked current spent locks locked =>
    subst locks
    exact ⟨advance.placed fit.placed, fun _ => (advance.current_of_locked locked).trans current⟩
  | opening mode next progress ordinary unlocked current spent opens still_unlocked following =>
    subst opens
    exact ⟨advance.placed fit.placed, fun _ => following⟩

theorem start_keeps_fit : (start : Play σ Bool).Keeps Fit := by
  intro session fit
  have started := start_started fit.placed
  generalize (start session).value = answer at started
  cases started with
  | running => exact fit
  | attempted => exact fit
  | locked later stopped fresh entitled => exact entitled.fit fit
  | empty later stopped fresh entitled empty =>
    have kept := entitled.fit fit
    exact ⟨kept.placed, kept.matched⟩
  | began later stopped fresh entitled something =>
    have kept := entitled.fit fit
    exact ⟨kept.placed, kept.matched⟩

theorem step_follows (placed : session.progress.Placed) : Follows session (step session).value.2 := by
  have stepped := step_stepped placed
  generalize (step session).value = answer at stepped
  cases stepped with
  | idle => exact follows_of_same placed rfl rfl rfl
  | onward => exact follows_of_same placed rfl rfl rfl
  | ended run walk call later running has_run has_walk called ends completed =>
    have held : (session.holding call.1 (some call.2.1)).progress.Placed := placed
    have follows := completed.follows held
    exact ⟨follows.privileged, follows.placed, follows.mode⟩

theorem abort_follows (placed : session.progress.Placed) :
    Follows session (abort session).value.2 := by
  have aborted := abort_aborted placed
  generalize (abort session).value = answer at aborted
  cases aborted with
  | idle => exact follows_of_same placed rfl rfl rfl
  | stopped run engine later running has_run stopped completed =>
    have held : (session.holding engine session.walk).progress.Placed := placed
    have follows := completed.follows held
    exact ⟨follows.privileged, follows.placed, follows.mode⟩

theorem step_keeps_fit : (step : Play σ (Option Event)).Keeps Fit :=
  fun _ fit => (step_follows fit.placed).fit fit

theorem abort_keeps_fit : (abort : Play σ Bool).Keeps Fit :=
  fun _ fit => (abort_follows fit.placed).fit fit

theorem fit_of_privileged (placed : session.progress.Placed) (privileged : session.privileged = true) :
    session.Fit :=
  ⟨placed, fun ordinary => by cases privileged.symm.trans ordinary⟩

theorem fit_ofWorld (settings : SessionSettings) (privileged : Bool) (source : σ) (world : World) :
    (ofWorld settings privileged source world).Fit :=
  ⟨Progress.placed_fresh settings.quota, fun _ => rfl⟩

variable [RandomSource σ]

section answers
variable {call : Call} {told : Told (Except SessionFault Reply × Session σ)}

theorem Answered.follows (answered : Answered session call told) (placed : session.progress.Placed)
    (running : session.isRunning = true) (no_change : ∀ privileged, call ≠ .setUser privileged) :
    Follows session told.value.2 := by
  cases answered with
  | moded stopped => cases running.symm.trans stopped
  | entrusted | demoted => exact absurd rfl (no_change _)
  | _ => exact follows_of_same placed rfl rfl rfl

theorem Answered.fit (answered : Answered session call told) (fit : session.Fit)
    (kept : call = .setUser false → session.isRunning = false) : told.value.2.Fit := by
  cases answered with
  | moded stopped rights => exact ⟨fit.placed, rights⟩
  | @entrusted privileged _ allowed =>
    cases privileged with
    | true => exact fit_of_privileged fit.placed rfl
    | false =>
      have stopped := kept rfl
      simp [stopped] at allowed
  | demoted stopped current => exact ⟨fit.placed, fun _ => current⟩
  | _ => exact ⟨fit.placed, fit.matched⟩

end answers

theorem after_follows (placed : session.progress.Placed) (running : session.isRunning = true)
    {call : Call} (no_change : ∀ privileged, call ≠ .setUser privileged) :
    Follows session (session.after call) := by
  have stays : Follows session session := follows_of_same placed rfl rfl rfl
  cases call with
  | start =>
    rw [Session.after, start_of_running running]
    exact stays
  | step => exact step_follows placed
  | runToEnd =>
    rw [Session.after, runToEnd_of_running running]
    exact stays
  | runPaced abortAfter =>
    rw [Session.after, runPaced_of_running running]
    split
    · exact abort_follows placed
    · exact stays
  | abort => exact abort_follows placed
  | _ =>
    rw [← answer_after]
    exact (answer_answered placed rfl).follows placed running no_change

/-- Whatever is asked for, an ordinary player stays in the mode of the progress, unless the right to
choose is taken away during a run. -/
theorem after_fit (fit : session.Fit) {call : Call}
    (kept : call = .setUser false → session.isRunning = false) : (session.after call).Fit := by
  cases call with
  | start => exact start_keeps_fit session fit
  | step => exact step_keeps_fit session fit
  | runToEnd => exact runToEnd_keeps start_keeps_fit step_keeps_fit session fit
  | runPaced abortAfter =>
    exact runPaced_keeps start_keeps_fit step_keeps_fit abort_keeps_fit abortAfter session fit
  | abort => exact abort_keeps_fit session fit
  | _ =>
    rw [← answer_after]
    exact (answer_answered fit.placed rfl).fit fit kept

/-- The request that ends a run of an ordinary player who is not in the mode of the progress, when the
progress does not come to another mode by it. -/
structure Slip (session : Session σ) (call : Call) : Prop where
  running : session.isRunning = true
  ordinary : session.privileged = false
  astray : session.progress.current ≠ .ok session.mode
  ends : (session.after call).isRunning = false
  stuck : (session.after call).progress.current = session.progress.current

theorem after_placed_and_inStep_iff (placed : session.progress.Placed) (in_step : session.InStep)
    (call : Call) : (session.after call).progress.Placed ∧
      ((session.after call).InStep ↔ ¬ session.Slip call) := by
  -- between runs being in step is all that `after_fit` asks; during a run it asks nothing of the mode
  cases running : session.isRunning with
  | false =>
    have fit : (session.after call).Fit := after_fit ⟨placed, in_step running⟩ fun _ => running
    refine ⟨fit.placed, fun _ slip => ?_, fun _ _ => fit.matched⟩
    cases running.symm.trans slip.running
  | true =>
    by_cases change : ∃ privileged, call = .setUser privileged
    · obtain ⟨privileged, rfl⟩ := change
      have goes_on : (session.after (.setUser privileged)).isRunning = true := by
        rw [Session.after, setUser_of_running running]
        exact running
      refine ⟨?_, fun _ slip => ?_, fun _ stopped => ?_⟩
      · rw [Session.after, setUser_of_running running]
        exact placed
      · cases goes_on.symm.trans slip.ends
      · cases goes_on.symm.trans stopped
    · have follows := after_follows placed running fun privileged same => change ⟨privileged, same⟩
      refine ⟨follows.placed, fun later slip => ?_, fun no_slip ends ordinary => ?_⟩
      · have matched := later slip.ends (follows.privileged.trans slip.ordinary)
        rcases follows.mode with ⟨same, mode⟩ | ⟨different, _⟩
        · exact slip.astray (by rw [← same, ← mode, matched])
        · exact different slip.stuck
      · rcases follows.mode with ⟨same, mode⟩ | ⟨_, matched⟩
        · rw [same, mode]
          refine Classical.byContradiction fun astray => ?_
          exact no_slip ⟨running, follows.privileged ▸ ordinary, astray, ends, same⟩
        · exact matched

section calls
variable {calls : List Call}

theorem placed_of_inStep (fit : session.Fit)
    (in_step : ∀ front, front <+: calls → (session.afterAll front).InStep) {front : List Call}
    (first : front <+: calls) : (session.afterAll front).progress.Placed := by
  induction front using List.reverseRecOn with
  | nil => exact fit.placed
  | append_singleton front call ih =>
    have earlier := (List.prefix_append front [call]).trans first
    rw [afterAll_append]
    exact (after_placed_and_inStep_iff (ih earlier) (in_step front earlier) call).1

theorem inStep_of_no_slip (fit : session.Fit)
    (no_slip : ∀ front call, front ++ [call] <+: calls → ¬ (session.afterAll front).Slip call)
    {front : List Call} (first : front <+: calls) :
    (session.afterAll front).progress.Placed ∧ (session.afterAll front).InStep := by
  induction front using List.reverseRecOn with
  | nil => exact ⟨fit.placed, fun _ => fit.matched⟩
  | append_singleton front call ih =>
    obtain ⟨placed, in_step⟩ := ih ((List.prefix_append front [call]).trans first)
    have step := after_placed_and_inStep_iff placed in_step call
    rw [afterAll_append]
    exact ⟨step.1, step.2.mpr (no_slip front call first)⟩

theorem fit_of_kept (fit : session.Fit)
    (kept : ∀ front, front ++ [.setUser false] <+: calls → (session.afterAll front).isRunning = false)
    {front : List Call} (first : front <+: calls) : (session.afterAll front).Fit := by
  induction front using List.reverseRecOn with
  | nil => exact fit
  | append_singleton front call ih =>
    rw [afterAll_append]
    refine after_fit (ih ((List.prefix_append front [call]).trans first)) fun revoked => ?_
    exact kept front (revoked ▸ first)

end calls

/-- Between two runs an ordinary player is in the mode of the progress at all times, whatever is asked
for in whatever order, exactly if no request is a slip. As long as that holds, no block is inserted that
the mode of the progress does not take. No request is a slip, and even during runs the player is in the
mode of the progress, if the right to choose modes is never taken away during a run. -/
theorem inStep_iff_no_slip (settings : SessionSettings) (privileged : Bool) (source : σ) (world : World)
    (calls : List Call) :
    let fresh := ofWorld settings privileged source world
    ((∀ front, front <+: calls → (fresh.afterAll front).InStep) ↔
      ∀ front call, front ++ [call] <+: calls → ¬ (fresh.afterAll front).Slip call) ∧
    (∀ front, front <+: calls → (fresh.afterAll front).InStep →
      (fresh.afterAll front).isRunning = false → (fresh.afterAll front).privileged = false →
      ∀ mode kind parent, (fresh.afterAll front).progress.current = .ok mode →
        mode.allows kind = false →
        (insert (.text kind.name) parent (fresh.afterAll front)).value =
          (.ok none, fresh.afterAll front)) ∧
    ((∀ front, front ++ [.setUser false] <+: calls → (fresh.afterAll front).isRunning = false) →
      (∀ front call, front ++ [call] <+: calls → ¬ (fresh.afterAll front).Slip call) ∧
      ∀ front, front <+: calls → (fresh.afterAll front).Matched) := by
  intro fresh
  have fit : fresh.Fit := fit_ofWorld settings privileged source world
  refine ⟨⟨?_, ?_⟩, ?_, ?_⟩
  · intro in_step front call first
    have earlier := (List.prefix_append front [call]).trans first
    have placed := placed_of_inStep fit in_step earlier
    refine (after_placed_and_inStep_iff placed (in_step front earlier) call).2.mp ?_
    have later := in_step _ first
    rwa [afterAll_append] at later
  · intro no_slip front first
    exact (inStep_of_no_slip fit no_slip first).2
  · intro front first in_step stopped ordinary mode kind parent current forbidden
    have same : mode = (fresh.afterAll front).mode :=
      Except.ok.inj (current.symm.trans (in_step stopped ordinary))
    exact insert_of_not_allowed _ (same ▸ forbidden) parent
  · intro kept
    refine ⟨fun front call first slip => ?_, fun front first => (fit_of_kept fit kept first).matched⟩
    have earlier := fit_of_kept fit kept ((List.prefix_append front [call]).trans first)
    exact slip.astray (earlier.matched slip.ordinary)

/-- The right to choose modes is taken away while a run in loop mode goes on, and the run is stopped: the
ordinary player is left in loop mode, which the progress has not come to, and may insert a repetition. -/
theorem slip_in_loop_mode :
    let later := (ofWorld {} true (Dice.script []) (.ofPuzzle corridor)).afterAll
      [.setMode (.text "loop"), .insert (.text "forward") none, .start, .setUser false, .abort]
    ¬ later.InStep ∧ later.isRunning = false ∧ later.privileged = false ∧
      later.progress.current = .ok .basic ∧ later.mode = .loop ∧
      ∃ block, (insert (.text "repeat") none later).value.1 = .ok (some block) := by
  intro later
  have stopped : later.isRunning = false := by decide +kernel
  have ordinary : later.privileged = false := by decide +kernel
  have current : later.progress.current = .ok .basic := by rfl
  have mode : later.mode = .loop := by decide +kernel
  refine ⟨fun in_step => ?_, stopped, ordinary, current, mode, ⟨⟨2, .repeated 2 .empty⟩, by rfl⟩⟩
  have matched := in_step stopped ordinary
  rw [current, mode] at matched
  cases matched

end BlockMaze.Session
