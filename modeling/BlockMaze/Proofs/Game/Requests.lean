import BlockMaze.Game.Editing
import BlockMaze.Game.Puzzles
import BlockMaze.Proofs.Game.Progress

/-! What requests to a session leave behind when no run is started or ended. Edits change nothing but
the program; a new puzzle leaves the player's mode, rights and progress alone. -/
namespace BlockMaze.Session
open Text
variable {σ : Type}

def spoken (notice : Notice) : List Signal := [.log (.noticed notice), .event (.notice notice)]

@[simp] theorem say_apply (notice : Notice) (session : Session σ) :
    say notice session = ⟨(.ok (), session), spoken notice⟩ := rfl

@[simp] theorem refuse_apply (refusal : Refusal) (session : Session σ) :
    refuse refusal session =
      ⟨(.ok (), session), .log (.refused refusal) :: spoken (.refused refusal)⟩ := rfl

@[simp] theorem publish_apply (session : Session σ) :
    publish session = ⟨(.ok (), session), [.board session.board]⟩ := rfl

@[simp] theorem tellRelayed_apply (signals : List Signal) (session : Session σ) :
    tellRelayed signals session = ⟨(.ok (), session), signals.flatMap Signal.relayed⟩ := rfl

def withProgress (progress : Progress) (session : Session σ) : Session σ := { session with progress }

@[simp] theorem withProgress_self (session : Session σ) :
    session.withProgress session.progress = session := rfl

@[simp] theorem withProgress_progress (progress : Progress) (session : Session σ) :
    (session.withProgress progress).progress = progress := rfl

@[simp] theorem onProgress_apply {α : Type} (act : Act PlaceFault Progress α) (session : Session σ) :
    onProgress act session =
      ⟨((act session.progress).value.1.mapError .progress,
        session.withProgress (act session.progress).value.2), (act session.progress).signals⟩ := by
  rcases answer : (act session.progress).value.1 with fault | value <;>
    simp [onProgress, answer, withProgress]

@[simp] theorem currentMode_apply (session : Session σ) : currentMode session =
    ⟨(session.progress.current.mapError .progress, session), []⟩ := by
  simp [currentMode]

def inMode (mode : Mode) (session : Session σ) : Session σ :=
  { session with mode, program := (session.program.pruneForMode mode).2 }

@[simp] theorem inMode_progress (mode : Mode) (session : Session σ) :
    (session.inMode mode).progress = session.progress := rfl

@[simp] theorem withProgress_inMode_self (mode : Mode) (session : Session σ) :
    (session.inMode mode).withProgress session.progress = session.inMode mode := rfl

def pruned (mode : Mode) (session : Session σ) : List Signal :=
  let removed := (session.program.pruneForMode mode).1
  if removed = 0 then [] else .log (.pruned removed mode) :: spoken (.pruned removed mode)

@[simp] theorem applyMode_apply (mode : Mode) (session : Session σ) :
    applyMode mode session = ⟨(.ok (), session.inMode mode), session.pruned mode⟩ := by
  by_cases kept : (session.program.pruneForMode mode).1 = 0 <;>
    simp [applyMode, Edits.pruneForMode, inMode, pruned, kept]

section edits
variable (session : Session σ)

theorem attemptsRemaining_frame (mode : Option Datum) :
    (attemptsRemaining mode session).value.2 = session := by
  have kept : ∀ mode, (attemptsRemaining.remainingIn mode session).value.2 = session := by
    intro mode
    rcases left : session.progress.remaining mode with fault | count <;>
      simp [attemptsRemaining.remainingIn, left, apply_ite]
  rcases mode with _ | mode
  · exact kept none
  · cases named : Mode.ofDatum mode with
    | error fault => simp [attemptsRemaining, named]
    | ok mode =>
      simp only [attemptsRemaining, Option.map_some, named]
      exact kept (some mode)

theorem attemptsRemaining_ok (placed : session.progress.Placed) (mode : Option Datum) :
    ∃ left, (attemptsRemaining mode session).value.1 = .ok left := by
  have counts : ∀ mode, ∃ left, (attemptsRemaining.remainingIn mode session).value.1 = .ok left := by
    intro mode
    obtain ⟨named, here⟩ : ∃ named, session.progress.modeOr mode = .ok named := by
      cases mode with
      | none => exact placed.exists_current
      | some mode => exact ⟨mode, rfl⟩
    have left := Progress.remaining_of_modeOr here
    cases ordinary : session.privileged <;> simp [attemptsRemaining.remainingIn, ordinary, left]
  rcases mode with _ | mode
  · exact counts none
  · cases named : Mode.ofDatum mode with
    | error fault => exact ⟨none, by simp [attemptsRemaining, named]⟩
    | ok mode =>
      simp only [attemptsRemaining, Option.map_some, named]
      exact counts (some mode)

theorem insert_of_not_allowed {kind : Kind} (forbidden : session.mode.allows kind = false)
    (parent : Option Int) :
    (insert (.text kind.name) parent session).value = (.ok none, session) := by
  cases refused : session.editRefusal? with
  | some refusal => simp [insert, refused]
  | none =>
    have some_refusal : ∃ refusal, modeRefusal? kind (some session.mode) = some refusal := by
      by_cases repeated : kind = .repeated <;> simp_all [modeRefusal?]
    obtain ⟨refusal, outside⟩ := some_refusal
    have rejected : session.program.insert (.text kind.name) parent (some session.mode) =
        .error refusal := by
      simp only [Program.insert, Kind.ofDatum_name, outside]
    simp [insert, refused, onProgram, Edits.insert, rejected]

end edits

section modes
variable {session : Session σ}

theorem attemptsRemaining_of_ordinary {mode : Mode} (ordinary : session.privileged = false)
    (current : session.progress.current = .ok mode) : (attemptsRemaining none session).value =
      (.ok (some (max 0 (session.progress.quota - (session.progress.attempts.made mode).length))),
        session) := by
  have here : session.progress.modeOr none = .ok mode := current
  have left := Progress.remaining_of_modeOr here
  simp [attemptsRemaining, attemptsRemaining.remainingIn, ordinary, left]

theorem setUser_of_privileged (session : Session σ) :
    (setUser true session).value = (.ok (), { session with privileged := true }) := by
  simp [setUser]

theorem setUser_of_running (running : session.isRunning = true) (privileged : Bool) :
    (setUser privileged session).value = (.ok (), { session with privileged }) := by
  have still : { session with privileged }.isRunning = true := running
  simp [setUser, still]

theorem setUser_of_ordinary {mode : Mode} (stopped : session.isRunning = false)
    (current : session.progress.current = .ok mode) : (setUser false session).value =
      (.ok (), { session with privileged := false }.inMode mode) := by
  have still : { session with privileged := false }.isRunning = false := stopped
  have same : { session with privileged := false }.progress.current = .ok mode := current
  simp [setUser, still, same]

end modes

section puzzles
variable [RandomSource σ] {session : Session σ}

theorem generate_of_running (running : session.isRunning = true) (seed : Option Int) :
    (generate seed session).value = (.ok false, session) := by
  simp [generate, running]

def origin (seed : Option Int) (session : Session σ) : σ := seed.elim session.source RandomSource.ofSeed

theorem generate_told (stopped : session.isRunning = false) (seed : Option Int) :
    generate seed session = match Roll.puzzle session.settings.roll (session.origin seed) with
      | ⟨(.error (.noPuzzle attempts), source), signals⟩ => ⟨(.ok false, { session with source }),
          signals ++ .log (.noPuzzle attempts) :: spoken (.noPuzzle attempts)⟩
      | ⟨(.error fault, source), signals⟩ => ⟨(.error (.roll fault), { session with source }), signals⟩
      | ⟨(.ok puzzle, source), signals⟩ =>
        let world := World.ofPuzzle puzzle
        ⟨(.ok true, { session with source, world, attempted := false, stage := .idle }),
          signals ++ [.log (.newPuzzle world.snapshot), .board world.snapshot]⟩ := by
  rcases rolled : Roll.puzzle session.settings.roll (session.origin seed) with
    ⟨⟨fault | puzzle, source⟩, signals⟩
  · cases seed <;> simp only [origin, Option.elim] at rolled <;> cases fault <;>
      simp [generate, stopped, rollPuzzle, rolled]
  · cases seed <;> simp only [origin, Option.elim] at rolled <;>
      simp [generate, stopped, rollPuzzle, rolled, board]

theorem generate_value (stopped : session.isRunning = false) (seed : Option Int) :
    (generate seed session).value =
      match (Roll.puzzle session.settings.roll (session.origin seed)).value with
      | (.error (.noPuzzle _), source) => (.ok false, { session with source })
      | (.error fault, source) => (.error (.roll fault), { session with source })
      | (.ok puzzle, source) => (.ok true,
          { session with source, world := .ofPuzzle puzzle, attempted := false, stage := .idle }) := by
  rw [generate_told stopped]
  rcases Roll.puzzle session.settings.roll (session.origin seed) with ⟨⟨fault | puzzle, source⟩, signals⟩
  · cases fault <;> rfl
  · rfl

theorem nextPuzzle_value (session : Session σ) : (nextPuzzle session).value =
    match (generate none session).value with
    | (.ok true, later) => (.ok true, { later with program := later.program.clear })
    | other => other := by
  cases running : session.isRunning with
  | true => simp [nextPuzzle, running, generate_of_running running]
  | false =>
    rcases dealt : (generate none session).value with ⟨fault | (_ | _), later⟩ <;>
      simp [nextPuzzle, running, dealt]

theorem reset_value (session : Session σ) : (reset session).value =
    match (generate none session).value with
    | (.ok true, later) => (.ok true, { later with program := later.program.clear, score := 0 })
    | other => other := by
  cases running : session.isRunning with
  | true => simp [reset, running, generate_of_running running]
  | false =>
    rcases dealt : (generate none session).value with ⟨fault | (_ | _), later⟩ <;>
      simp [reset, running, dealt]

end puzzles

end BlockMaze.Session
