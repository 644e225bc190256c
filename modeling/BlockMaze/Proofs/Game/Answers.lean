import BlockMaze.Proofs.Game.Quiet
import BlockMaze.Proofs.Game.Replies
import BlockMaze.Proofs.Program.Edits

/-! All that a request can lead to as long as it has nothing to do with a run: the reply, the session
left behind, and what is heard of it. Either the request is declined, and then hardly anything is
changed, or just one thing is done. -/
namespace BlockMaze
open Text

def Call.edit? (mode : Mode) : Call → Option Edit
  | .insert kind parent => some (.insert kind parent (some mode))
  | .remove id => some (.remove id)
  | .setCount id value => some (.setCount id value)
  | _ => none

namespace Session
variable {σ : Type} {session : Session σ}

theorem refused_oneNotice (refusal : Refusal) :
    OneNotice (.log (.refused refusal) :: spoken (.refused refusal)) := ⟨.refused refusal, rfl, rfl⟩

theorem spoken_oneNotice (notice : Notice) : OneNotice (spoken notice) := ⟨notice, rfl, rfl⟩

/-- A count is to be set for a block that has none; this alone is passed over in silence. -/
def Uncounted (session : Session σ) : Call → Prop
  | .setCount id _ => session.editRefusal? = none ∧
      ∃ block, session.program.find? id = some block ∧ block.content.isRepeated = false
  | _ => False

theorem not_uncounted_of_seed {call : Call} {seed : Option Int} (deals : call.seed? = some seed) :
    ¬ session.Uncounted call := by
  cases call <;> first | exact id | cases deals

def edited (edit : Edit) (session : Session σ) : Session σ :=
  { session with program := (session.program.edit edit).2 }

/-- The session with a new puzzle: the program is kept if nothing but a puzzle was asked for, and the
points unless all was to start anew. -/
def dealt (call : Call) (puzzle : Puzzle) (source : σ) (session : Session σ) : Session σ :=
  { session with
    source := source
    world := .ofPuzzle puzzle
    attempted := false
    stage := .idle
    program := match call with
      | .nextPuzzle | .reset => session.program.clear
      | _ => session.program
    score := if call = .reset then 0 else session.score }

variable [RandomSource σ]

inductive Answered (session : Session σ) : Call → Told (Except SessionFault Reply × Session σ) → Prop
  | declined {call : Call} {reply : Reply} {signals : List Signal} (refusal : reply.isRefusal = true)
      (told : OneNotice signals) (counts : ¬ session.Uncounted call) :
      Answered session call ⟨(.ok reply, session), signals⟩
  | uncounted {call : Call} (uncounted : session.Uncounted call) :
      Answered session call ⟨(.ok (.number none), session), []⟩
  | edited {call : Call} {edit : Edit} {reply : Reply} {signals : List Signal}
      (editable : session.editRefusal? = none) (asked : call.edit? session.mode = some edit)
      (granted : reply.isRefusal = false) :
      Answered session call ⟨(.ok reply, session.edited edit), signals⟩
  | counted {mode : Option Datum} {left : Option Int} {signals : List Signal} :
      Answered session (.attemptsRemaining mode) ⟨(.ok (.number left), session), signals⟩
  | moded {value : Datum} {mode : Mode} {signals : List Signal} (stopped : session.isRunning = false)
      (rights : session.privileged = false → session.progress.current = .ok mode) :
      Answered session (.setMode value) ⟨(.ok (.granted true), session.inMode mode), signals⟩
  | entrusted {privileged : Bool} {signals : List Signal}
      (kept : privileged = true ∨ session.isRunning = true) :
      Answered session (.setUser privileged) ⟨(.ok .done, { session with privileged }), signals⟩
  | demoted {mode : Mode} {signals : List Signal} (stopped : session.isRunning = false)
      (current : session.progress.current = .ok mode) :
      Answered session (.setUser false)
        ⟨(.ok .done, { session with privileged := false }.inMode mode), signals⟩
  | unlucky {call : Call} {seed : Option Int} {attempts : Int} {source : σ} {signals : List Signal}
      (deals : call.seed? = some seed) (stopped : session.isRunning = false)
      (rolled : (Roll.puzzle session.settings.roll (session.origin seed)).value =
        (.error (.noPuzzle attempts), source)) (told : OneNotice signals) :
      Answered session call ⟨(.ok (.granted false), { session with source }), signals⟩
  | broken {call : Call} {seed : Option Int} {fault : RollFault} {source : σ} {signals : List Signal}
      (deals : call.seed? = some seed) (stopped : session.isRunning = false) :
      Answered session call ⟨(.error (.roll fault), { session with source }), signals⟩
  | dealt {call : Call} {seed : Option Int} {puzzle : Puzzle} {source : σ} {signals : List Signal}
      (deals : call.seed? = some seed) (stopped : session.isRunning = false)
      (rolled : (Roll.puzzle session.settings.roll (session.origin seed)).value =
        (.ok puzzle, source)) :
      Answered session call ⟨(.ok (.granted true), session.dealt call puzzle source), signals⟩

theorem insert_answered (kind : Datum) (parent : Option Int) :
    Answered session (.insert kind parent) (answer (.insert kind parent) session) := by
  cases refused : session.editRefusal? with
  | some refusal =>
    have told : answer (.insert kind parent) session =
        ⟨(.ok (.block none), session), .log (.refused refusal) :: spoken (.refused refusal)⟩ := by
      simp [answer, insert, refused]
    rw [told]
    exact .declined rfl (refused_oneNotice refusal) id
  | none =>
    cases given : session.program.insert kind parent (some session.mode) with
    | error refusal =>
      have told : answer (.insert kind parent) session =
          ⟨(.ok (.block none), session), .log (.refused refusal) :: spoken (.refused refusal)⟩ := by
        simp [answer, insert, refused, onProgram, Edits.insert, given]
      rw [told]
      exact .declined rfl (refused_oneNotice refusal) id
    | ok result =>
      obtain ⟨block, program⟩ := result
      have told : answer (.insert kind parent) session =
          ⟨(.ok (.block (some block)), session.edited (.insert kind parent (some session.mode))),
            [.log (.inserted block.content.kind block.id parent)]⟩ := by
        simp [answer, insert, refused, onProgram, Edits.insert, given, edited, Program.edit]
      rw [told]
      exact .edited refused rfl rfl

theorem remove_answered (target : Option Int) :
    Answered session (.remove target) (answer (.remove target) session) := by
  cases refused : session.editRefusal? with
  | some refusal =>
    have told : answer (.remove target) session =
        ⟨(.ok (.granted false), session), .log (.refused refusal) :: spoken (.refused refusal)⟩ := by
      simp [answer, remove, refused]
    rw [told]
    exact .declined rfl (refused_oneNotice refusal) id
  | none =>
    cases found : (session.program.remove target).1 with
    | false =>
      have told : answer (.remove target) session =
          ⟨(.ok (.granted false), session), spoken (.unknownBlock target)⟩ := by
        simp [answer, remove, refused, found]
      rw [told]
      exact .declined rfl (spoken_oneNotice _) id
    | true =>
      have told : answer (.remove target) session =
          ⟨(.ok (.granted true), session.edited (.remove target)), []⟩ := by
        simp [answer, remove, refused, found, edited, Program.edit]
      rw [told]
      exact .edited refused rfl rfl

theorem setCount_none {program later : Program} {id : Option Int} {value : Datum}
    (ok : program.setCount id value = .ok (none, later)) :
    later = program ∧ ∃ block, program.find? id = some block ∧ block.content.isRepeated = false := by
  rw [Program.setCount] at ok
  split at ok
  · cases ok
  · rename_i target content found
    split at ok
    · split at ok <;> cases ok
    · rename_i other
      cases ok
      exact ⟨rfl, _, found, Bool.eq_false_iff.mpr other⟩

theorem setCount_answered (id : Option Int) (value : Datum) :
    Answered session (.setCount id value) (answer (.setCount id value) session) := by
  cases refused : session.editRefusal? with
  | some refusal =>
    have told : answer (.setCount id value) session =
        ⟨(.ok (.number none), session), .log (.refused refusal) :: spoken (.refused refusal)⟩ := by
      simp [answer, setCount, refused]
    rw [told]
    refine .declined rfl (refused_oneNotice refusal) fun uncounted => ?_
    cases refused.symm.trans uncounted.1
  | none =>
    cases given : session.program.setCount id value with
    | error refusal =>
      have told : answer (.setCount id value) session =
          ⟨(.ok (.number none), session), .log (.refused refusal) :: spoken (.refused refusal)⟩ := by
        simp [answer, setCount, refused, onProgram, Edits.setCount, given]
      rw [told]
      refine .declined rfl (refused_oneNotice refusal) ?_
      rintro ⟨-, block, found, other⟩
      simp [Program.setCount, found, other] at given
    | ok result =>
      obtain ⟨stored, program⟩ := result
      have told : answer (.setCount id value) session =
          ⟨(.ok (.number stored), { session with program }), []⟩ := by
        simp [answer, setCount, refused, onProgram, Edits.setCount, given]
      rw [told]
      cases stored with
      | none =>
        obtain ⟨rfl, block, found, other⟩ := setCount_none given
        exact .uncounted ⟨refused, block, found, other⟩
      | some count =>
        have same : { session with program } = session.edited (.setCount id value) := by
          simp [edited, Program.edit, given]
        rw [same]
        exact .edited refused rfl rfl

theorem attemptsRemaining_answered (placed : session.progress.Placed) (mode : Option Datum) :
    Answered session (.attemptsRemaining mode) (answer (.attemptsRemaining mode) session) := by
  obtain ⟨left, ok⟩ := attemptsRemaining_ok session placed mode
  have told : answer (.attemptsRemaining mode) session =
      ⟨(.ok (.number left), session), (attemptsRemaining mode session).signals⟩ := by
    simp [answer, ok, attemptsRemaining_frame]
  rw [told]
  exact .counted

theorem setMode_answered (placed : session.progress.Placed) (value : Datum) :
    Answered session (.setMode value) (answer (.setMode value) session) := by
  have declined {notices : List Signal} (told : OneNotice notices)
      (given : setMode value session = ⟨(.ok false, session), notices⟩) :
      Answered session (.setMode value) (answer (.setMode value) session) := by
    simp only [answer, Act.map_apply, given, Act.map_ok]
    exact .declined rfl told id
  obtain ⟨current, now⟩ := placed.exists_current
  cases named : Mode.ofDatum value with
  | error fault => exact declined (spoken_oneNotice (.unknownMode fault.value)) (by simp [setMode, named])
  | ok mode =>
    cases running : session.isRunning with
    | true => exact declined (refused_oneNotice .modeWhileRunning) (by simp [setMode, named, running])
    | false =>
      by_cases granted : session.privileged = false → mode = current
      · have told : answer (.setMode value) session =
            ⟨(.ok (.granted true), session.inMode mode), session.pruned mode⟩ := by
          cases ordinary : session.privileged with
          | true => simp [answer, setMode, named, running, ordinary]
          | false => simp [answer, setMode, named, running, ordinary, now, granted ordinary]
        rw [told]
        exact .moded running fun ordinary => granted ordinary ▸ now
      · obtain ⟨ordinary, different⟩ := Classical.not_imp.mp granted
        exact declined (refused_oneNotice (.modeByProgress current))
          (by simp [setMode, named, running, ordinary, now, different])

theorem setUser_answered (placed : session.progress.Placed) (privileged : Bool) :
    Answered session (.setUser privileged) (answer (.setUser privileged) session) := by
  obtain ⟨mode, current⟩ := placed.exists_current
  have entrusted (kept : privileged = true ∨ session.isRunning = true)
      (given : (setUser privileged session).value = (.ok (), { session with privileged })) :
      Answered session (.setUser privileged) (answer (.setUser privileged) session) := by
    simp only [answer, Act.map_apply, given, Act.map_ok]
    exact .entrusted kept
  cases running : session.isRunning with
  | true => exact entrusted (.inr running) (setUser_of_running running privileged)
  | false =>
    cases privileged with
    | true => exact entrusted (.inl rfl) (setUser_of_privileged session)
    | false =>
      simp only [answer, Act.map_apply, setUser_of_ordinary running current, Act.map_ok]
      exact .demoted running current

theorem declined_of_running (running : session.isRunning = true) {call : Call} {seed : Option Int}
    (deals : call.seed? = some seed) : Answered session call (answer call session) := by
  have declined (refusal : Refusal) (told : answer call session =
      ⟨(.ok (.granted false), session), .log (.refused refusal) :: spoken (.refused refusal)⟩) :
      Answered session call (answer call session) := by
    rw [told]
    exact .declined rfl (refused_oneNotice refusal) (not_uncounted_of_seed deals)
  cases call with
  | generate seed => exact declined .puzzleWhileRunning (by simp [answer, generate, running])
  | nextPuzzle => exact declined .nextWhileRunning (by simp [answer, nextPuzzle, running])
  | reset => exact declined .resetWhileRunning (by simp [answer, reset, running])
  | _ => cases deals

theorem rolled_of_stopped (stopped : session.isRunning = false) {call : Call} {seed : Option Int}
    (deals : call.seed? = some seed) : Answered session call (answer call session) := by
  have logs := puzzle_journals session.settings.roll (session.origin seed)
  have given := generate_told stopped seed
  rcases rolled : Roll.puzzle session.settings.roll (session.origin seed) with
    ⟨⟨fault | puzzle, source⟩, signals⟩ <;> rw [rolled] at logs given
  · by_cases given_up : ∃ attempts, fault = .noPuzzle attempts
    · obtain ⟨attempts, rfl⟩ := given_up
      have told : answer call session = ⟨(.ok (.granted false), { session with source }),
          signals ++ .log (.noPuzzle attempts) :: spoken (.noPuzzle attempts)⟩ := by
        cases call <;> cases deals <;> simp [answer, nextPuzzle, reset, stopped, given]
      rw [told]
      exact .unlucky deals stopped (by rw [rolled]) (.after_logs ⟨.noPuzzle attempts, rfl, rfl⟩ logs)
    · have given : generate seed session = ⟨(.error (.roll fault), { session with source }), signals⟩ := by
        cases fault <;> first | exact given | exact absurd ⟨_, rfl⟩ given_up
      have told : answer call session = ⟨(.error (.roll fault), { session with source }), signals⟩ := by
        cases call <;> cases deals <;> simp [answer, nextPuzzle, reset, stopped, given]
      rw [told]
      exact .broken deals stopped
  · obtain ⟨signals, told⟩ : ∃ signals, answer call session =
        ⟨(.ok (.granted true), session.dealt call puzzle source), signals⟩ := by
      cases call <;> cases deals <;> simp [answer, nextPuzzle, reset, stopped, given, dealt]
    rw [told]
    exact .dealt deals stopped (by rw [rolled])

theorem answer_answered (placed : session.progress.Placed) {call : Call} (aside : call.isAside = true) :
    Answered session call (answer call session) := by
  cases call with
  | insert kind parent => exact insert_answered kind parent
  | remove id => exact remove_answered id
  | setCount id value => exact setCount_answered id value
  | setMode value => exact setMode_answered placed value
  | setUser privileged => exact setUser_answered placed privileged
  | attemptsRemaining mode => exact attemptsRemaining_answered placed mode
  | generate | nextPuzzle | reset =>
    cases running : session.isRunning with
    | true => exact declined_of_running running rfl
    | false => exact rolled_of_stopped running rfl
  | _ => cases aside

/-- What holds of a session whatever is asked for, if it holds once. -/
structure Invariant (holds : Session σ → Prop) : Prop where
  placed : ∀ {session}, holds session → session.progress.Placed
  start : (Session.start : Play σ Bool).Keeps holds
  step : (Session.step : Play σ (Option Event)).Keeps holds
  abort : (Session.abort : Play σ Bool).Keeps holds
  answered : ∀ {session call told}, holds session → Answered session call told → holds told.value.2

namespace Invariant
variable {holds : Session σ → Prop}

theorem after (invariant : Invariant holds) (before : holds session) (call : Call) :
    holds (session.after call) := by
  cases call with
  | start => exact invariant.start session before
  | step => exact invariant.step session before
  | runToEnd => exact runToEnd_keeps invariant.start invariant.step session before
  | runPaced abortAfter =>
    exact runPaced_keeps invariant.start invariant.step invariant.abort abortAfter session before
  | abort => exact invariant.abort session before
  | _ =>
    rw [← answer_after]
    exact invariant.answered before (answer_answered (invariant.placed before) rfl)

theorem afterAll (invariant : Invariant holds) (before : holds session) (calls : List Call) :
    holds (session.afterAll calls) := by
  induction calls generalizing session with
  | nil => exact before
  | cons call calls ih => exact ih (invariant.after before call)

end Invariant

end Session

end BlockMaze
