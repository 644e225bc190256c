import BlockMaze.Proofs.Game.Account

/-! Boards shown. Whoever looks at nothing but the boards that a session shows sees the world as it is:
everything that changes the world shows it after the last change, whether or not it succeeds. -/
namespace BlockMaze

/-- The board shown last is that of the world there is now, or none was shown and the world is the one
there was before. -/
def Shown (before : World) (signals : List Signal) (after : World) : Prop :=
  (boardsIn signals).getLast? = some after.snapshot ∨ boardsIn signals = [] ∧ after = before

namespace Shown
variable {before between after : World} {early late signals : List Signal}

theorem still (world : World) : Shown world [] world := .inr ⟨rfl, rfl⟩

theorem silent (no_board : boardsIn signals = []) (same : after = before) : Shown before signals after :=
  .inr ⟨no_board, same⟩

theorem trans (first : Shown before early between) (second : Shown between late after) :
    Shown before (early ++ late) after := by
  rw [Shown, boardsIn_append]
  rcases second with shown | ⟨no_board, rfl⟩
  · left
    rw [List.getLast?_append, shown]
    rfl
  · rw [no_board, List.append_nil]
    exact first

theorem relayed (shown : Shown before signals after) : Shown before (signals.flatMap Signal.relayed) after := by
  rw [Shown, boardsIn_relayed]
  exact shown

end Shown

namespace Engine
variable {engine : Engine}

theorem command_shown (command : Command) :
    Shown engine.world (engine.commandSignals command) (engine.obeyed command).world := by
  left
  rw [commandSignals, boardsIn_append]
  exact List.getLast?_concat

theorem settled_shown (result : StepResult) :
    Shown engine.world (engine.settled result).signals (engine.settled result).value.world := by
  refine .silent ?_ settled_world
  unfold settled
  split
  · rfl
  · split <;> rfl

theorem next_shown (engine : Engine) (walk : Walk) :
    Shown engine.world (engine.next walk).signals (engine.next walk).value.1.world := by
  rcases next_idle_or_advance engine walk with idle | ⟨_, stack, advance⟩
  · rw [idle]
    exact .still engine.world
  · generalize engine.next walk = told at advance
    cases advance with
    | obeyed command => exact (command_shown command).trans (settled_shown _)
    | _ => exact .silent rfl rfl

theorem abort_shown (engine : Engine) :
    Shown engine.world engine.abort.signals engine.abort.value.world := by
  cases running : engine.run.running with
  | false =>
    rw [abort, finish_of_stopped running]
    exact .still engine.world
  | true =>
    rw [abort, finish_lost running]
    exact .silent rfl rfl

end Engine

namespace Session
variable {σ : Type} {session : Session σ}

def showing : Act.Law SessionFault (Session σ) := fun before signals _ after =>
  Shown before.world signals after.world

theorem showing_composes : (showing : Act.Law SessionFault (Session σ)).Composes where
  still := fun session => .still session.world
  onward := .trans

theorem shows_of_remarks {α : Type} {act : Play σ α} (remarks : Remarks act)
    (kept : ∀ world, act.Keeps (·.world = world)) : Act.Obeys showing act := fun session =>
  .silent (heard_of_remarks (remarks session)).2 (kept session.world session rfl)

section kept
variable (world : World)

theorem say_keeps_world (notice : Notice) : (say notice : Play σ Unit).Keeps (·.world = world) :=
  fun _ before => before

theorem onProgress_keeps_world {α : Type} (act : Act PlaceFault Progress α) :
    (onProgress act : Play σ α).Keeps (·.world = world) := fun _ before => before

theorem applyMode_keeps_world (mode : Mode) : (applyMode mode : Play σ Unit).Keeps (·.world = world) := by
  intro session before
  rw [applyMode_apply]
  exact before

theorem entitle_keeps_world : (entitle : Play σ Bool).Keeps (·.world = world) := by
  have moded : (do applyMode (← currentMode) : Play σ Unit).Keeps (·.world = world) :=
    .bind (onProgress_keeps_world world _) fun mode => applyMode_keeps_world world mode
  refine .bind .get fun session => ?_
  split
  · exact .bind (say_keeps_world world _) fun _ => .pure false
  · refine .bind (onProgress_keeps_world world _) fun mode => ?_
    refine .bind (applyMode_keeps_world world mode) fun _ => .bind .get fun later => ?_
    refine .bind (onProgress_keeps_world world _) fun used => ?_
    split
    · refine .bind (onProgress_keeps_world world _).discard fun _ => .bind .get fun moved => ?_
      split
      · exact .bind (say_keeps_world world _) fun _ => .pure false
      · refine .bind (onProgress_keeps_world world _) fun mode => .bind (say_keeps_world world _) fun _ => ?_
        refine .bind (onProgress_keeps_world world _) fun mode => ?_
        exact .bind (applyMode_keeps_world world mode) fun _ => .pure true
    · exact .pure true

theorem complete_keeps_world (outcome : Option Outcome) :
    (complete outcome : Play σ Unit).Keeps (·.world = world) := by
  refine .bind (fun _ before => before) fun _ => .bind (say_keeps_world world _) fun _ => ?_
  refine .bind .get fun session => ?_
  split
  · exact .pure ()
  · refine .bind (onProgress_keeps_world world _) fun before => .bind .get fun session => ?_
    refine .bind (onProgress_keeps_world world _) fun _ => .bind .get fun later => ?_
    split
    · exact say_keeps_world world _
    · refine .bind (onProgress_keeps_world world _) fun current => ?_
      split
      · exact .bind (applyMode_keeps_world world current) fun _ => say_keeps_world world _
      · exact .pure ()

end kept

theorem say_shows (notice : Notice) : Act.Obeys showing (say notice : Play σ Unit) :=
  fun _ => .silent rfl rfl

theorem refuse_shows (refusal : Refusal) : Act.Obeys showing (refuse refusal : Play σ Unit) :=
  fun _ => .silent rfl rfl

theorem modify_shows {change : Session σ → Session σ} (kept : ∀ session, (change session).world = session.world) :
    Act.Obeys showing (modify change : Play σ PUnit) := fun session => .silent rfl (kept session)

/-- A change of any kind is made up for by showing the board at once. -/
theorem publish_shows {α : Type} {rest : Play σ α} (onward : Act.Obeys showing rest)
    (change : Session σ → Session σ) : Act.Obeys showing (do modify change; publish; rest) := by
  intro session
  have told : (do modify change; publish; rest : Play σ α) session =
      ⟨(rest (change session)).value, [.board (change session).board] ++ (rest (change session)).signals⟩ := by
    rcases given : (rest (change session)).value with ⟨fault | value, later⟩ <;> simp [given]
  rw [told]
  exact showing_composes.onward (.inl rfl) (onward (change session))

theorem start_shows : Act.Obeys showing (start : Play σ Bool) := by
  have composes := @showing_composes σ
  refine .bind composes (.get composes) fun session => ?_
  split
  · exact .bind composes (say_shows .alreadyRunning) fun _ => .pure composes false
  · refine .bind composes (.get composes) fun session => ?_
    split
    · exact .bind composes (say_shows .alreadyAttempted) fun _ => .pure composes false
    · refine .bind composes (.get composes) fun session => ?_
      split
      on_goal 1 =>
        refine .bind composes (shows_of_remarks entitle_remarks entitle_keeps_world) fun entitled => ?_
        split
        · exact .pure composes false
      -- the run begins in the same way with a check of the rights and without
      all_goals
        refine .bind composes (.get composes) fun session => ?_
        split
        · refine .bind composes (modify_shows fun _ => rfl) fun _ => ?_
          exact .bind composes (say_shows .noCommands) fun _ => .pure composes false
        · refine publish_shows (.bind composes (say_shows .executing) fun _ => ?_) _
          exact .bind composes (modify_shows fun _ => rfl) fun _ => .pure composes true

theorem complete_shows (outcome : Option Outcome) : Act.Obeys showing (complete outcome : Play σ Unit) :=
  shows_of_remarks (complete_remarks outcome) fun world => complete_keeps_world world outcome

theorem settle_shows {α : Type} {rest : Play σ α} (onward : Act.Obeys showing rest) {engine : Engine}
    {signals : List Signal} (shown : Shown session.world signals engine.world) (walk : Option Walk) :
    let all := (do tellRelayed signals; settle engine walk; rest : Play σ α) session
    showing session all.signals (faultOf? all.value.1) all.value.2 := by
  intro all
  have told : all = ⟨(rest (session.holding engine walk)).value,
      signals.flatMap Signal.relayed ++ (rest (session.holding engine walk)).signals⟩ := by
    rcases given : (rest (session.holding engine walk)).value with ⟨fault | value, later⟩ <;> simp [all, given]
  have held : showing session (signals.flatMap Signal.relayed) none (session.holding engine walk) := shown.relayed
  rw [told]
  exact showing_composes.onward held (onward (session.holding engine walk))

theorem step_shows : Act.Obeys showing (step : Play σ (Option Event)) := by
  intro session
  have idle (same : step session = ⟨(.ok none, session), []⟩) :
      showing session (step session).signals (faultOf? (step session).value.1) (step session).value.2 := by
    rw [same]
    exact showing_composes.still session
  cases running : session.isRunning with
  | false => exact idle (by simp [step, running])
  | true =>
    cases has_run : session.run with
    | none => exact idle (by simp [step, running, has_run])
    | some run =>
      cases has_walk : session.walk with
      | none => exact idle (by simp [step, running, has_run, has_walk])
      | some walk =>
        have shown := Engine.next_shown ⟨session.world, run⟩ walk
        generalize called : Engine.next ⟨session.world, run⟩ walk = told at shown
        have ending : Act.Obeys showing (do
            if !told.value.1.run.running then complete told.value.1.run.outcome
            return told.value.2.2 : Play σ (Option Event)) := by
          split
          · exact .bind showing_composes (complete_shows _) fun _ => .pure showing_composes _
          · exact .pure showing_composes _
        have same : step session = (do
            tellRelayed told.signals
            settle told.value.1 (some told.value.2.1)
            if !told.value.1.run.running then complete told.value.1.run.outcome
            return told.value.2.2 : Play σ (Option Event)) session := by
          simp [step, running, has_run, has_walk, called]
        rw [same]
        exact settle_shows ending shown (some told.value.2.1)

theorem abort_shows : Act.Obeys showing (abort : Play σ Bool) := by
  intro session
  have idle (same : abort session = ⟨(.ok false, session), spoken .nothingRunning⟩) :
      showing session (abort session).signals (faultOf? (abort session).value.1) (abort session).value.2 := by
    rw [same]
    exact .silent rfl rfl
  cases running : session.isRunning with
  | false => exact idle (by simp [abort, running])
  | true =>
    cases has_run : session.run with
    | none => exact idle (by simp [abort, running, has_run])
    | some run =>
      have shown := Engine.abort_shown ⟨session.world, run⟩
      generalize called : Engine.abort ⟨session.world, run⟩ = told at shown
      have ending : Act.Obeys showing (do
          complete told.value.run.outcome
          modify fun session =>
            { session with world := session.world.restart, attempted := false, stage := .idle }
          publish
          return true : Play σ Bool) :=
        .bind showing_composes (complete_shows _) fun _ => publish_shows (.pure showing_composes true) _
      have same : abort session = (do
          tellRelayed told.signals
          settle told.value session.walk
          complete told.value.run.outcome
          modify fun session =>
            { session with world := session.world.restart, attempted := false, stage := .idle }
          publish
          return true : Play σ Bool) session := by
        simp [abort, running, has_run, called]
      rw [same]
      exact settle_shows ending shown session.walk

theorem runToEnd_shows : Act.Obeys showing (runToEnd : Play σ (Option Outcome)) :=
  .bind showing_composes start_shows (onward_obeys showing_composes step_shows)

theorem runPaced_shows (abortAfter : Option Nat) :
    Act.Obeys showing (runPaced abortAfter : Play σ (Option Outcome × Option Bool)) := by
  rw [runPaced_eq]
  exact .bind showing_composes start_shows (paced_obeys showing_composes step_shows abort_shows abortAfter)

section requests
variable [RandomSource σ]

theorem generate_shows (seed : Option Int) : Act.Obeys showing (generate seed : Play σ Bool) := by
  intro session
  cases running : session.isRunning with
  | true =>
    have refused : generate seed session = ⟨(.ok false, session),
        .log (.refused .puzzleWhileRunning) :: spoken (.refused .puzzleWhileRunning)⟩ := by
      simp [generate, running]
    rw [refused]
    exact .silent rfl rfl
  | false =>
    have no_board := (heard_of_logs (puzzle_journals session.settings.roll (session.origin seed))).2
    rw [generate_told running]
    rcases rolled : Roll.puzzle session.settings.roll (session.origin seed) with
      ⟨⟨fault | puzzle, source⟩, signals⟩ <;> rw [rolled] at no_board
    · cases fault with
      | noPuzzle attempts =>
        refine .silent ?_ rfl
        rw [boardsIn_append, no_board]
        rfl
      | _ => exact .silent no_board rfl
    · left
      rw [boardsIn_append, no_board]
      rfl

theorem nextPuzzle_shows : Act.Obeys showing (nextPuzzle : Play σ Bool) := by
  have composes := @showing_composes σ
  refine .bind composes (.get composes) fun session => ?_
  split
  · exact .bind composes (refuse_shows _) fun _ => .pure composes false
  · refine .bind composes (generate_shows none) fun dealt => ?_
    split
    · exact .pure composes false
    · refine .bind composes (modify_shows fun _ => rfl) fun _ => ?_
      exact .bind composes (say_shows .newPuzzle) fun _ => .pure composes true

theorem reset_shows : Act.Obeys showing (reset : Play σ Bool) := by
  have composes := @showing_composes σ
  refine .bind composes (.get composes) fun session => ?_
  split
  · exact .bind composes (refuse_shows _) fun _ => .pure composes false
  · refine .bind composes (generate_shows none) fun dealt => ?_
    split
    · exact .pure composes false
    · refine .bind composes (modify_shows fun _ => rfl) fun _ => ?_
      exact .bind composes (say_shows .gameReset) fun _ => .pure composes true

theorem world_aside {call : Call} (aside : call.isAside = true) (no_puzzle : call.seed? = none)
    (placed : session.progress.Placed) : (session.after call).world = session.world := by
  have answered := answer_answered placed aside
  rw [← answer_after]
  generalize answer call session = told at answered
  cases answered with
  | dealt deals => cases deals.symm.trans no_puzzle
  | _ => rfl

theorem answer_shown (placed : session.progress.Placed) (call : Call) :
    Shown session.world (answer call session).signals (session.after call).world := by
  have mapped {α : Type} {act : Play σ α} (shows : Act.Obeys showing act) (change : α → Reply) :
      Shown session.world ((change <$> act) session).signals ((change <$> act) session).value.2.world :=
    shows.map change session
  cases apart : call.isAside && call.seed?.isNone with
  | true =>
    simp only [Bool.and_eq_true, Option.isNone_iff_eq_none] at apart
    obtain ⟨aside, no_puzzle⟩ := apart
    exact .silent (heard_of_remarks (answer_remarks aside no_puzzle session)).2
      (world_aside aside no_puzzle placed)
  | false =>
    rw [← answer_after]
    cases call with
    | generate seed => exact mapped (generate_shows seed) _
    | nextPuzzle => exact mapped nextPuzzle_shows _
    | reset => exact mapped reset_shows _
    | start => exact mapped start_shows _
    | step => exact mapped step_shows _
    | runToEnd => exact mapped runToEnd_shows _
    | runPaced abortAfter => exact mapped (runPaced_shows abortAfter) _
    | abort => exact mapped abort_shows _
    | _ => cases apart

theorem toldAll_shown (intact : session.Intact) (calls : List Call) :
    Shown session.world (session.toldAll calls) (session.afterAll calls).world := by
  induction calls generalizing session with
  | nil => exact .still session.world
  | cons call calls ih =>
    have onward := ih (after_accounted intact call).intact
    exact (answer_shown intact.placed call).trans onward

/-- Whatever is asked for in whatever order, and whether or not it is granted, the board shown last is the
board of the session, or no board has been shown and the world is still the one it was made with. -/
theorem shown_last_of_requests (settings : SessionSettings) (privileged : Bool) (source : σ) (world : World)
    (calls : List Call) :
    let fresh := ofWorld settings privileged source world
    let session := fresh.afterAll calls
    (boardsIn (fresh.toldAll calls)).getLast? = some session.board ∨
      boardsIn (fresh.toldAll calls) = [] ∧ session.world = world := by
  intro fresh session
  have intact : fresh.Intact := intact_ofWorld settings privileged source world
  exact toldAll_shown intact calls

end requests

end Session
end BlockMaze
