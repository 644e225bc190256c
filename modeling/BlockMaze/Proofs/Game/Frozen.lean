import BlockMaze.Proofs.Game.Attempts
import BlockMaze.Proofs.Program.Suited

/-! The program in a session. It suits the mode at all times, and while a run goes on it stays as it was
when the run began: whatever would change it is refused or waits for the end. -/
namespace BlockMaze
open Text

/-- Requests that may end a run: a paced run that is to be aborted ends the one that goes on. -/
def Call.endsRun : Call → Bool
  | .step | .abort | .runPaced (some _) => true
  | _ => false

namespace Session
variable {σ : Type} {session later : Session σ}

structure Suited (session : Session σ) : Prop where
  placed : session.progress.Placed
  suits : session.program.Suits session.mode

theorem suited_ofWorld (settings : SessionSettings) (privileged : Bool) (source : σ) (world : World) :
    (ofWorld settings privileged source world).Suited :=
  ⟨Progress.placed_fresh settings.quota, Program.kept_new, nofun⟩

theorem Suited.inMode (suited : session.Suited) (mode : Mode) : (session.inMode mode).Suited :=
  ⟨suited.placed, suited.suits.kept.suits_pruneForMode mode⟩

theorem Entitled.suited {granted : Bool} (entitled : Entitled session (.ok granted, later))
    (suited : session.Suited) : later.Suited := by
  have placed := (entitled.placed suited.placed).1
  have suits (mode : Mode) := (suited.inMode mode).suits
  cases entitled with
  | privileged | locked => exact suited
  | unspent mode => exact suited.inMode mode
  | locking mode => exact ⟨placed, suits mode⟩
  | opening mode next => exact ⟨placed, (suits mode).kept.suits_pruneForMode next⟩

theorem Completed.suited {outcome : Option Outcome} (completed : Completed session outcome later)
    (suited : session.Suited) : later.Suited := by
  have placed := (completed.follows suited.placed).placed
  cases completed with
  | privileged | locked | same => exact ⟨placed, suited.suits⟩
  | promoted mode next => exact ⟨placed, suited.suits.kept.suits_pruneForMode next⟩

theorem start_keeps_suited : (start : Play σ Bool).Keeps Suited := by
  intro session suited
  have started := start_started suited.placed
  generalize (start session).value = answer at started
  cases started with
  | running | attempted => exact suited
  | locked later stopped fresh entitled => exact entitled.suited suited
  | empty later stopped fresh entitled | began later stopped fresh entitled =>
    have still := entitled.suited suited
    exact ⟨still.placed, still.suits⟩

theorem step_keeps_suited : (step : Play σ (Option Event)).Keeps Suited := by
  intro session suited
  have stepped := step_stepped suited.placed
  generalize (step session).value = answer at stepped
  cases stepped with
  | idle => exact suited
  | onward => exact ⟨suited.placed, suited.suits⟩
  | ended run walk call later running has_run has_walk called ends completed =>
    exact completed.suited ⟨suited.placed, suited.suits⟩

theorem abort_keeps_suited : (abort : Play σ Bool).Keeps Suited := by
  intro session suited
  have aborted := abort_aborted suited.placed
  generalize (abort session).value = answer at aborted
  cases aborted with
  | idle => exact suited
  | stopped run engine later running has_run stopped completed =>
    have still := completed.suited ⟨suited.placed, suited.suits⟩
    exact ⟨still.placed, still.suits⟩

section requests
variable [RandomSource σ]

theorem within_of_edit? {mode : Mode} {call : Call} {edit : Edit} (asked : call.edit? mode = some edit) :
    edit.Within mode := by
  cases call <;> cases asked <;> trivial

theorem Answered.suited {call : Call} {told : Told (Except SessionFault Reply × Session σ)}
    (answered : Answered session call told) (suited : session.Suited) : told.value.2.Suited := by
  cases answered with
  | edited editable asked => exact ⟨suited.placed, suited.suits.edit (within_of_edit? asked)⟩
  | moded => exact suited.inMode _
  | demoted => exact ⟨suited.placed, suited.suits.kept.suits_pruneForMode _⟩
  | dealt =>
    refine ⟨suited.placed, ?_⟩
    cases call with
    | nextPuzzle | reset => exact ⟨suited.suits.kept.clear, nofun⟩
    | _ => exact suited.suits
  | _ => exact ⟨suited.placed, suited.suits⟩

theorem suited_invariant : Invariant (Suited : Session σ → Prop) where
  placed := Suited.placed
  start := start_keeps_suited
  step := step_keeps_suited
  abort := abort_keeps_suited
  answered := fun suited answered => answered.suited suited

theorem program_aside (placed : session.progress.Placed) (running : session.isRunning = true) {call : Call}
    (aside : call.isAside = true) : (session.after call).program = session.program := by
  have answered := answer_answered placed aside
  rw [← answer_after]
  generalize answer call session = told at answered
  cases answered with
  | edited editable => simp [editRefusal?, running] at editable
  | moded stopped | demoted stopped | dealt deals stopped => cases running.symm.trans stopped
  | _ => rfl

theorem program_step (placed : session.progress.Placed)
    (goes_on : (session.after .step).isRunning = true) :
    (session.after .step).program = session.program := by
  rw [Session.after] at goes_on ⊢
  have stepped := step_stepped placed
  generalize (step session).value = answer at stepped goes_on
  cases stepped with
  | idle | onward => rfl
  | ended run walk call later running has_run has_walk called ends completed =>
    cases completed.standing.1.symm.trans goes_on

theorem program_abort (placed : session.progress.Placed)
    (goes_on : (session.after .abort).isRunning = true) :
    (session.after .abort).program = session.program := by
  rw [Session.after] at goes_on ⊢
  have aborted := abort_aborted placed
  generalize (abort session).value = answer at aborted goes_on
  cases aborted with
  | idle => rfl
  | stopped => cases goes_on

theorem program_of_running (placed : session.progress.Placed) (running : session.isRunning = true)
    (call : Call) :
    ((session.after call).isRunning = true → (session.after call).program = session.program) ∧
    (call.endsRun = false → (session.after call).isRunning = true) := by
  cases call with
  | start =>
    rw [Session.after, start_of_running running]
    exact ⟨fun _ => rfl, fun _ => running⟩
  | runToEnd =>
    rw [Session.after, runToEnd_of_running running]
    exact ⟨fun _ => rfl, fun _ => running⟩
  | step => exact ⟨program_step placed, fun lasting => by cases lasting⟩
  | abort => exact ⟨program_abort placed, fun lasting => by cases lasting⟩
  | runPaced abortAfter =>
    rw [Session.after, runPaced_of_running running]
    cases abortAfter with
    | none => exact ⟨fun _ => rfl, fun _ => running⟩
    | some count => exact ⟨program_abort placed, fun lasting => by cases lasting⟩
  | _ =>
    exact ⟨fun _ => program_aside placed running rfl,
      fun _ => (after_aside rfl placed).running.trans running⟩

theorem program_afterAll (suited : session.Suited) (running : session.isRunning = true) {calls : List Call}
    (goes_on : ∀ front, front <+: calls → (session.afterAll front).isRunning = true) :
    (session.afterAll calls).program = session.program := by
  induction calls generalizing session with
  | nil => rfl
  | cons call calls ih =>
    have next : (session.after call).isRunning = true := goes_on [call] ⟨calls, rfl⟩
    have same := (program_of_running suited.placed running call).1 next
    refine (ih (suited_invariant.after suited call) next fun front first => ?_).trans same
    exact goes_on (call :: front) ((List.prefix_cons_inj call).mpr first)

/-- Whatever is asked for in whatever order, all blocks of the program are of kinds that the mode takes, so
that only top-level blocks enclose others and no block stands deeper than those inside one of them. While a
run goes on, a request changes the program only if it ends the run, and only a step or an abort can do that.
From its beginning on a run has the program that it began with. -/
theorem program_suited_and_frozen (settings : SessionSettings) (privileged : Bool) (source : σ)
    (world : World) (calls : List Call) :
    let session := (ofWorld settings privileged source world).afterAll calls
    (∀ block ∈ session.program.forest.walk, session.mode.allows block.content.kind = true) ∧
    (∀ row ∈ session.program.forest.outline, row.1 ≤ 1 ∧ (row.2.content.isCommand = false → row.1 = 0)) ∧
    (session.isRunning = true → ∀ call,
      ((session.after call).isRunning = true → (session.after call).program = session.program) ∧
      (call.endsRun = false → (session.after call).isRunning = true)) ∧
    ((start session).value.1 = .ok true → ∀ more,
      (∀ front, front <+: more → ((session.after .start).afterAll front).isRunning = true) →
      ((session.after .start).afterAll more).program = (session.after .start).program) := by
  intro session
  have suited : session.Suited :=
    suited_invariant.afterAll (suited_ofWorld settings privileged source world) calls
  refine ⟨fun block live => suited.suits.allowed _ (List.mem_map_of_mem live), fun row member => ?_,
    program_of_running suited.placed, fun _ more goes_on => ?_⟩
  · have shallow := suited.suits.depth_le member
    refine ⟨by omega, fun encloses => ?_⟩
    rw [encloses] at shallow
    exact Nat.le_zero.mp (Nat.le_of_succ_le_succ shallow)
  · have begun := suited_invariant.after suited .start
    exact program_afterAll begun (goes_on [] List.nil_prefix) goes_on

/-- Rights taken away while a repetition runs take no block from the program yet. -/
theorem program_suited_and_frozen_corridor :
    let running := (ofWorld {} true (Dice.script []) (.ofPuzzle corridor)).afterAll [.setMode (.text "loop"),
      .insert (.text "repeat") none, .insert (.text "forward") (some 1), .start]
    running.isRunning = true ∧ (running.after (.setUser false)).isRunning = true ∧
      (running.after (.setUser false)).program = running.program := by
  intro running
  have goes_on : running.isRunning = true := by decide +kernel
  obtain ⟨-, -, kept, -⟩ := program_suited_and_frozen {} true (Dice.script []) (.ofPuzzle corridor)
    [.setMode (.text "loop"), .insert (.text "repeat") none, .insert (.text "forward") (some 1), .start]
  obtain ⟨same, still⟩ := kept goes_on (.setUser false)
  exact ⟨goes_on, still rfl, same (still rfl)⟩

end requests

end Session

end BlockMaze
