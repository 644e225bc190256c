import BlockMaze.Proofs.Game.Attempts

/-! Requests that are declined. A declined request is as good as not made: the player hears one notice,
and nothing in the session is another but the source of chance, after a roll that found no puzzle. -/
namespace BlockMaze.Session
open Text
variable {σ : Type} [RandomSource σ] {session : Session σ} {call : Call}

/-- Whether a request meets with a refusal. A run is refused to those who may not begin one; a program
without commands is another matter. -/
def Declines (session : Session σ) (call : Call) : Prop :=
  match call with
  | .start => session.isRunning = true ∨ session.attempted = true ∨
      session.privileged = false ∧ session.progress.locked = true
  | .setUser _ | .attemptsRemaining _ | .step | .runToEnd | .runPaced _ => False
  | _ => ∃ reply, (answer call session).value.1 = .ok reply ∧ reply.isRefusal = true

/-- What a refusal leaves of a request. -/
structure Unmoved (session : Session σ) (call : Call)
    (told : Told (Except SessionFault Reply × Session σ)) : Prop where
  refused : ∃ reply, told.value.1 = .ok reply ∧ reply.isRefusal = true
  same : told.value.2 = { session with source := told.value.2.source }
  source : told.value.2.source = session.source ∨ ∃ seed attempts, call.seed? = some seed ∧
    session.isRunning = false ∧ (Roll.puzzle session.settings.roll (session.origin seed)).value =
      (.error (.noPuzzle attempts), told.value.2.source)
  boards : boardsIn told.signals = []
  events : ¬ session.Uncounted call → ∃ notice, eventsIn told.signals = [.notice notice]
  silent : session.Uncounted call → eventsIn told.signals = []

theorem unmoved_of_notice {reply : Reply} {signals : List Signal} (refusal : reply.isRefusal = true)
    (told : OneNotice signals) (counts : ¬ session.Uncounted call) :
    Unmoved session call ⟨(.ok reply, session), signals⟩ := by
  obtain ⟨notice, event, no_board⟩ := told
  exact ⟨⟨reply, rfl, refusal⟩, rfl, .inl rfl, no_board, fun _ => ⟨notice, event⟩,
    fun uncounted => absurd uncounted counts⟩

theorem Answered.unmoved {told : Told (Except SessionFault Reply × Session σ)}
    (answered : Answered session call told)
    (refused : ∃ reply, told.value.1 = .ok reply ∧ reply.isRefusal = true)
    (asks : ∀ mode, call ≠ .attemptsRemaining mode) : Unmoved session call told := by
  obtain ⟨reply, given, refusal⟩ := refused
  cases answered with
  | declined refusal heard counts => exact unmoved_of_notice refusal heard counts
  | uncounted uncounted =>
    exact ⟨⟨_, rfl, rfl⟩, rfl, .inl rfl, rfl, fun counts => absurd uncounted counts, fun _ => rfl⟩
  | counted => exact absurd rfl (asks _)
  | @unlucky _ seed failed source _ deals stopped rolled heard =>
    obtain ⟨notice, event, no_board⟩ := heard
    exact ⟨⟨_, rfl, rfl⟩, rfl, .inr ⟨seed, failed, deals, stopped, rolled⟩, no_board,
      fun _ => ⟨notice, event⟩, fun uncounted => absurd uncounted (not_uncounted_of_seed deals)⟩
  | edited editable asked granted =>
    cases given
    cases granted.symm.trans refusal
  | broken => cases given
  | _ =>
    cases given
    cases refusal

theorem start_unmoved (refused : session.Declines .start) :
    Unmoved session .start (answer .start session) := by
  have unmoved (notice : Notice) (told : start session = ⟨(.ok false, session), spoken notice⟩) :
      Unmoved session .start (answer .start session) := by
    rw [answer, Act.map_apply, told]
    exact unmoved_of_notice rfl (spoken_oneNotice notice) id
  cases running : session.isRunning with
  | true => exact unmoved .alreadyRunning (by simp [start, running])
  | false =>
    cases attempted : session.attempted with
    | true => exact unmoved .alreadyAttempted (by simp [start, running, attempted])
    | false =>
      simp only [Declines, running, attempted, Bool.false_eq_true, false_or] at refused
      obtain ⟨ordinary, locked⟩ := refused
      exact unmoved .locked (by simp [start, running, attempted, ordinary, entitle, locked])

theorem abort_unmoved (intact : session.Intact) (refused : session.Declines .abort) :
    Unmoved session .abort (answer .abort session) := by
  cases running : session.isRunning with
  | false =>
    have told : answer .abort session = ⟨(.ok (.granted false), session), spoken .nothingRunning⟩ := by
      simp [answer, abort, running]
    rw [told]
    exact unmoved_of_notice rfl (spoken_oneNotice _) id
  | true =>
    -- a run that goes on is stopped
    obtain ⟨run, walk, has_run, -⟩ := intact.held running
    obtain ⟨reply, given, refusal⟩ := refused
    rw [answer, Act.map_apply] at given
    have aborted := abort_aborted intact.placed
    generalize (abort session).value = value at aborted given
    cases aborted with
    | idle idle => simp [running, has_run] at idle
    | stopped =>
      cases given
      cases refusal

theorem Declines.unmoved (declines : session.Declines call) (intact : session.Intact) :
    Unmoved session call (answer call session) := by
  cases call with
  | start => exact start_unmoved declines
  | abort => exact abort_unmoved intact declines
  | setUser | attemptsRemaining | step | runToEnd | runPaced => exact declines.elim
  | _ => exact (answer_answered intact.placed rfl).unmoved declines nofun

/-- A run that is refused to those who might begin one, and not for want of commands, finds the attempts of
the current mode spent and locks the player out. -/
theorem Intact.refused_start (intact : session.Intact) (refused : (start session).value.1 = .ok false) :
    session.Declines .start ∨
    (session.after .start).program.isEmpty = true ∧ (session.after .start).lastOutcome = some .empty ∨
    ¬ session.progress.Unspent ∧ session.progress.locked = false ∧
      (session.after .start).progress.locked = true := by
  have started := start_started intact.placed
  rw [Session.after]
  generalize (start session).value = value at refused started ⊢
  cases started with
  | running running => exact .inl (.inl running)
  | attempted stopped attempted => exact .inl (.inr (.inl attempted))
  | locked later stopped fresh entitled =>
    cases entitled with
    | locked ordinary locked => exact .inl (.inr (.inr ⟨ordinary, locked⟩))
    | locking mode progress ordinary unlocked current spent locks locked =>
      refine .inr (.inr ⟨fun unspent => ?_, unlocked, locked⟩)
      exact absurd (unspent unlocked mode current) (Int.not_lt.mpr spent)
  | empty later stopped fresh entitled empty => exact .inr (.inl ⟨empty, rfl⟩)
  | began => cases refused

theorem unspent_of_requests {settings : SessionSettings} (positive : 1 ≤ settings.quota) (privileged : Bool)
    (source : σ) (world : World) (calls : List Call) :
    ((ofWorld settings privileged source world).afterAll calls).progress.Unspent := by
  obtain ⟨quota, same⟩ := Int.eq_ofNat_of_zero_le (Int.le_trans Int.one_nonneg positive)
  have recorded := recorded_ofWorld same (by omega) privileged source world
  obtain ⟨more, later, -⟩ := recorded.afterAll calls
  exact later.progress_unspent

/-- Whatever was asked for before, a declined request changes nothing but the source of chance, and this
only if it has just been rolled from in vain. One notice is heard and no board is shown; where a count is
set for a block that has none, nothing is heard at all. A run is refused to those who may not begin one and
for want of commands; only with a quota of no attempts is there a third way, by which a player who was not
locked out comes to be. -/
theorem declined_unmoved (settings : SessionSettings) (privileged : Bool) (source : σ) (world : World)
    (calls : List Call) (call : Call) :
    let session := (ofWorld settings privileged source world).afterAll calls
    (session.Declines call → Unmoved session call (answer call session)) ∧
    ((start session).value.1 = .ok false → session.Declines .start ∨
      (session.after .start).program.isEmpty = true ∧ (session.after .start).lastOutcome = some .empty ∨
      settings.quota < 1 ∧ session.progress.locked = false ∧
        (session.after .start).progress.locked = true) := by
  intro session
  obtain ⟨intact, -⟩ := intact_afterAll (intact_ofWorld settings privileged source world) calls
  refine ⟨fun declines => declines.unmoved intact, fun refused => ?_⟩
  rcases intact.refused_start refused with declines | empty | ⟨spent, locks⟩
  · exact .inl declines
  · exact .inr (.inl empty)
  · refine .inr (.inr ⟨Int.not_le.mp fun positive => spent ?_, locks⟩)
    exact unspent_of_requests positive privileged source world calls

/-- A count is set for a command before a run, a block removed and a mode chosen while it goes on, and a
run stopped that has ended: all is declined. -/
theorem declined_unmoved_corridor :
    let fresh := ofWorld {} false (Dice.script []) (.ofPuzzle corridor)
    let edited := fresh.afterAll [.insert (.text "forward") none]
    let running := fresh.afterAll [.insert (.text "forward") none, .start]
    let ended := fresh.afterAll [.insert (.text "forward") none, .runToEnd]
    Unmoved edited (.setCount (some 1) (.whole 3)) (answer (.setCount (some 1) (.whole 3)) edited) ∧
    Unmoved running (.remove (some 1)) (answer (.remove (some 1)) running) ∧
    Unmoved running (.setMode (.text "loop")) (answer (.setMode (.text "loop")) running) ∧
    Unmoved ended .abort (answer .abort ended) ∧ Unmoved ended .start (answer .start ended) := by
  intro fresh edited running ended
  have unmoved (calls : List Call) (call : Call) (declines : (fresh.afterAll calls).Declines call) :=
    (declined_unmoved {} false (Dice.script []) (.ofPuzzle corridor) calls call).1 declines
  refine ⟨unmoved _ _ ⟨.number none, ?_, rfl⟩, unmoved _ _ ⟨.granted false, ?_, rfl⟩,
    unmoved _ _ ⟨.granted false, ?_, rfl⟩, unmoved _ _ ⟨.granted false, ?_, rfl⟩,
    unmoved _ _ (.inr (.inl ?_))⟩
  · decide +kernel
  · decide +kernel
  · decide +kernel
  · decide +kernel
  · decide +kernel

end BlockMaze.Session
