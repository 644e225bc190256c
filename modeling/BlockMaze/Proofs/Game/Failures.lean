import BlockMaze.Proofs.Chance.Faults
import BlockMaze.Proofs.Game.Attempts

/-! What can get past a session. Whatever is asked for is answered, and what goes wrong with it is told
as a notice, unless a new puzzle is asked for whose settings leave no room for one. -/
namespace BlockMaze.Session
open Text
variable {σ : Type} [RandomSource σ] {session : Session σ}

theorem answer_ok (intact : session.Intact) {call : Call} (not_puzzle : call.seed? = none) :
    ∃ reply, (answer call session).value.1 = .ok reply := by
  cases aside : call.isAside with
  | false => exact exists_ok_of_faultless (answer_ran intact aside).1
  | true =>
    have answered := answer_answered intact.placed aside
    generalize answer call session = told at answered ⊢
    cases answered with
    | broken deals => simp [deals] at not_puzzle
    | _ => exact ⟨_, rfl⟩

section puzzles
variable {call : Call} {seed : Option Int} {fault : SessionFault}

theorem answer_error_iff (deals : call.seed? = some seed) :
    (answer call session).value.1 = .error fault ↔ (generate seed session).value.1 = .error fault := by
  cases call with
  | generate other =>
    cases deals
    rw [answer, Act.map_apply]
    rcases (generate seed session).value with ⟨fault | granted, later⟩ <;> simp
  | nextPuzzle =>
    cases deals
    rw [answer, Act.map_apply, nextPuzzle_value]
    rcases (generate none session).value with ⟨fault | (_ | _), later⟩ <;> simp
  | reset =>
    cases deals
    rw [answer, Act.map_apply, reset_value]
    rcases (generate none session).value with ⟨fault | (_ | _), later⟩ <;> simp
  | _ => cases deals

/-- A request for a new puzzle fails as the roll does, unless the roll gave up for want of a solvable
layout. -/
theorem generate_error_iff (stopped : session.isRunning = false) :
    (generate seed session).value.1 = .error fault ↔
      ∃ rolled, fault = .roll rolled ∧ (∀ attempts, rolled ≠ .noPuzzle attempts) ∧
        (Roll.puzzle session.settings.roll (session.origin seed)).value.1 = .error rolled := by
  rw [generate_value stopped]
  rcases (Roll.puzzle session.settings.roll (session.origin seed)).value with ⟨rolled | puzzle, source⟩
  · cases rolled <;> simp [eq_comm]
  · simp

variable {good : σ → Prop} (reliable : Reliable good)
include reliable

theorem origin_good (sound : good session.source) : good (session.origin seed) := by
  cases seed with
  | none => exact sound
  | some number => exact reliable.seeded number

theorem after_good (intact : session.Intact) (sound : good session.source) (call : Call) :
    good (session.after call).source := by
  have dealt (seed : Option Int) : good (generate seed session).value.2.source := by
    cases running : session.isRunning with
    | true =>
      rw [generate_of_running running]
      exact sound
    | false =>
      have ready : good (session.origin seed) := origin_good reliable sound
      have rolled := (Roll.puzzle_ensures reliable.bounded session.settings.roll rfl _ ready).1
      rw [generate_value running]
      generalize (Roll.puzzle session.settings.roll (session.origin seed)).value = told at rolled ⊢
      split <;> exact rolled
  cases asked : call.seed? with
  | none =>
    rw [after_source intact asked]
    exact sound
  | some seed =>
    obtain ⟨program, score, same⟩ := after_of_seed asked session
    rw [same]
    exact dealt seed

theorem good_afterAll (intact : session.Intact) (sound : good session.source) (calls : List Call) :
    good (session.afterAll calls).source := by
  induction calls generalizing session with
  | nil => exact sound
  | cons call calls ih =>
    exact ih (after_accounted intact call).intact (after_good reliable intact sound call)

theorem puzzle_of_fault (intact : session.Intact) (sound : good session.source)
    (failed : (answer call session).value.1 = .error fault) :
    call.seed?.isSome = true ∧ session.isRunning = false ∧
      if Roll.fits session.settings.roll = true then
        session.settings.size ≤ 0 ∨ fault = .roll (.draw .endless)
      else fault = .roll (.doesNotFit session.settings.obstacleCount session.settings.size) := by
  cases asked : call.seed? with
  | none =>
    obtain ⟨reply, answered⟩ := answer_ok intact asked
    cases answered.symm.trans failed
  | some seed =>
    rw [answer_error_iff asked] at failed
    cases running : session.isRunning with
    | true =>
      rw [generate_of_running running] at failed
      cases failed
    | false =>
      refine ⟨rfl, rfl, ?_⟩
      obtain ⟨rolled, rfl, hopeful, told⟩ := (generate_error_iff running).mp failed
      have ready : good (session.origin seed) := origin_good reliable sound
      have ensured := (Roll.puzzle_ensures reliable.bounded session.settings.roll rfl _ ready).2
      rw [told] at ensured
      by_cases fits : Roll.fits session.settings.roll = true
      · rw [if_pos fits]
        simp only [if_pos fits] at ensured
        rcases ensured with none_found | endless
        · exact absurd none_found (hopeful _)
        · by_cases positive : 0 < session.settings.size
          · exact .inr (congrArg SessionFault.roll (endless positive))
          · exact .inl (Int.not_lt.mp positive)
      · rw [if_neg fits]
        simp only [if_neg fits] at ensured
        exact congrArg SessionFault.roll ensured

end puzzles

/-- What can go wrong with a request, and the notice that is due then. -/
inductive Wrong (session : Session σ) : Call → Notice → Prop
  | uneditable {call : Call} {refusal : Refusal} (edits : call.isEdit = true)
      (refused : session.editRefusal? = some refusal) : Wrong session call (.refused refusal)
  | insert {kind : Datum} {parent : Option Int} {refusal : Refusal}
      (editable : session.editRefusal? = none)
      (rejected : session.program.insert kind parent (some session.mode) = .error refusal) :
      Wrong session (.insert kind parent) (.refused refusal)
  | remove {id : Option Int} (editable : session.editRefusal? = none)
      (missing : (session.program.remove id).1 = false) : Wrong session (.remove id) (.unknownBlock id)
  | setCount {id : Option Int} {value : Datum} {refusal : Refusal}
      (editable : session.editRefusal? = none)
      (rejected : session.program.setCount id value = .error refusal) :
      Wrong session (.setCount id value) (.refused refusal)
  | unknownMode {value : Datum} {fault : UnknownName} (unknown : Mode.ofDatum value = .error fault) :
      Wrong session (.setMode value) (.unknownMode fault.value)
  | unknownModeAsked {value : Datum} {fault : UnknownName}
      (unknown : Mode.ofDatum value = .error fault) :
      Wrong session (.attemptsRemaining (some value)) (.unknownMode fault.value)
  | modeWhileRunning {value : Datum} {mode : Mode} (known : Mode.ofDatum value = .ok mode)
      (running : session.isRunning = true) :
      Wrong session (.setMode value) (.refused .modeWhileRunning)
  | modeByProgress {value : Datum} {mode current : Mode} (known : Mode.ofDatum value = .ok mode)
      (stopped : session.isRunning = false) (ordinary : session.privileged = false)
      (now : session.progress.current = .ok current) (different : mode ≠ current) :
      Wrong session (.setMode value) (.refused (.modeByProgress current))
  | puzzleWhileRunning {seed : Option Int} (running : session.isRunning = true) :
      Wrong session (.generate seed) (.refused .puzzleWhileRunning)
  | nextWhileRunning (running : session.isRunning = true) :
      Wrong session .nextPuzzle (.refused .nextWhileRunning)
  | resetWhileRunning (running : session.isRunning = true) :
      Wrong session .reset (.refused .resetWhileRunning)
  | noPuzzle {call : Call} {seed : Option Int} {attempts : Int} (deals : call.seed? = some seed)
      (stopped : session.isRunning = false) (gave_up : (Roll.puzzle session.settings.roll
        (session.origin seed)).value.1 = .error (.noPuzzle attempts)) :
      Wrong session call (.noPuzzle attempts)
  | alreadyRunning {call : Call} (runs : call.isForRun = true) (running : session.isRunning = true) :
      Wrong session call .alreadyRunning
  | alreadyAttempted {call : Call} (runs : call.isForRun = true) (stopped : session.isRunning = false)
      (attempted : session.attempted = true) : Wrong session call .alreadyAttempted
  | locked {call : Call} (runs : call.isForRun = true) (stopped : session.isRunning = false)
      (fresh : session.attempted = false) (ordinary : session.privileged = false)
      (locked : session.progress.locked = true) : Wrong session call .locked
  | nothingRunning (stopped : session.isRunning = false) : Wrong session .abort .nothingRunning

/-- The request is answered by a refusal, and the player is told this notice. -/
def Refused (session : Session σ) (call : Call) (notice : Notice) : Prop :=
  ∃ reply, (answer call session).value.1 = .ok reply ∧ reply.isRefusal = true ∧
    .event (.notice notice) ∈ (answer call session).signals

theorem refused_of_start {call : Call} {notice : Notice} (intact : session.Intact)
    (runs : call.isForRun = true) (told : start session = ⟨(.ok false, session), spoken notice⟩) :
    session.Refused call notice := by
  cases call with
  | start => exact ⟨.granted false, by simp [answer, told, spoken, Reply.isRefusal]⟩
  | runToEnd => exact ⟨.outcome none, by simp [answer, runToEnd, told, spoken, Reply.isRefusal]⟩
  | runPaced abortAfter =>
    cases abortAfter with
    | none => exact ⟨.paced none none, by simp [answer, runPaced, told, spoken, Reply.isRefusal]⟩
    | some count =>
      obtain ⟨aborted, ok⟩ := exists_ok_of_faultless (abort_tallies session intact).1
      rcases stopped : abort session with ⟨⟨fault | value, later⟩, signals⟩ <;> rw [stopped] at ok <;>
        cases ok
      exact ⟨.paced none (some aborted), by
        simp [answer, runPaced, told, stopped, spoken, Reply.isRefusal]⟩
  | _ => cases runs

theorem refused_of_roll {call : Call} {seed : Option Int} {attempts : Int}
    (deals : call.seed? = some seed) (stopped : session.isRunning = false)
    (gave_up : (Roll.puzzle session.settings.roll (session.origin seed)).value.1 =
      .error (.noPuzzle attempts)) : session.Refused call (.noPuzzle attempts) := by
  have told (seed : Option Int) (gave_up : (Roll.puzzle session.settings.roll
      (session.origin seed)).value.1 = .error (.noPuzzle attempts)) : ∃ later signals,
      generate seed session = ⟨(.ok false, later), signals⟩ ∧
        .event (.notice (.noPuzzle attempts)) ∈ signals := by
    rcases rolled : Roll.puzzle session.settings.roll (session.origin seed) with
      ⟨⟨fault | puzzle, source⟩, signals⟩ <;> rw [rolled] at gave_up <;> cases gave_up
    cases seed <;> simp only [origin, Option.elim] at rolled <;>
      simp [generate, stopped, rollPuzzle, rolled, spoken]
  cases call with
  | generate other =>
    cases deals
    obtain ⟨later, signals, given, member⟩ := told seed gave_up
    exact ⟨.granted false, by simp [answer, given, member, Reply.isRefusal]⟩
  | nextPuzzle =>
    cases deals
    obtain ⟨later, signals, given, member⟩ := told none gave_up
    exact ⟨.granted false, by simp [answer, nextPuzzle, stopped, given, member, Reply.isRefusal]⟩
  | reset =>
    cases deals
    obtain ⟨later, signals, given, member⟩ := told none gave_up
    exact ⟨.granted false, by simp [answer, reset, stopped, given, member, Reply.isRefusal]⟩
  | _ => cases deals

theorem Wrong.refused {call : Call} {notice : Notice} (intact : session.Intact)
    (wrong : session.Wrong call notice) : session.Refused call notice := by
  cases wrong with
  | uneditable edits refused =>
    cases call with
    | insert kind parent =>
      exact ⟨.block none, by simp [answer, Session.insert, refused, spoken, Reply.isRefusal]⟩
    | remove id =>
      exact ⟨.granted false, by simp [answer, Session.remove, refused, spoken, Reply.isRefusal]⟩
    | setCount id value =>
      exact ⟨.number none, by simp [answer, Session.setCount, refused, spoken, Reply.isRefusal]⟩
    | _ => cases edits
  | insert editable rejected =>
    refine ⟨.block none, ?_⟩
    simp [answer, Session.insert, editable, onProgram, Edits.insert, rejected, spoken, Reply.isRefusal]
  | remove editable missing =>
    exact ⟨.granted false, by simp [answer, Session.remove, editable, missing, spoken, Reply.isRefusal]⟩
  | setCount editable rejected =>
    refine ⟨.number none, ?_⟩
    simp [answer, Session.setCount, editable, onProgram, Edits.setCount, rejected, spoken,
      Reply.isRefusal]
  | unknownMode unknown =>
    exact ⟨.granted false, by simp [answer, setMode, unknown, spoken, Reply.isRefusal]⟩
  | unknownModeAsked unknown =>
    exact ⟨.number none, by simp [answer, attemptsRemaining, unknown, spoken, Reply.isRefusal]⟩
  | modeWhileRunning known running =>
    exact ⟨.granted false, by simp [answer, setMode, known, running, spoken, Reply.isRefusal]⟩
  | modeByProgress known stopped ordinary now different =>
    refine ⟨.granted false, ?_⟩
    simp [answer, setMode, known, stopped, ordinary, now, different, spoken, Reply.isRefusal]
  | puzzleWhileRunning running =>
    exact ⟨.granted false, by simp [answer, generate, running, spoken, Reply.isRefusal]⟩
  | nextWhileRunning running =>
    exact ⟨.granted false, by simp [answer, nextPuzzle, running, spoken, Reply.isRefusal]⟩
  | resetWhileRunning running =>
    exact ⟨.granted false, by simp [answer, reset, running, spoken, Reply.isRefusal]⟩
  | noPuzzle deals stopped gave_up => exact refused_of_roll deals stopped gave_up
  | alreadyRunning runs running => exact refused_of_start intact runs (by simp [start, running])
  | alreadyAttempted runs stopped attempted =>
    exact refused_of_start intact runs (by simp [start, stopped, attempted])
  | locked runs stopped fresh ordinary locked =>
    exact refused_of_start intact runs (by simp [start, stopped, fresh, ordinary, entitle, locked])
  | nothingRunning stopped =>
    exact ⟨.granted false, by simp [answer, abort, stopped, spoken, Reply.isRefusal]⟩

/-- Every request is answered, and if something is wrong with it the answer is a refusal and a notice.
The one exception is a new puzzle asked for between runs with settings that leave no room for a puzzle:
then the roll fails, at once if the obstacles do not fit. Otherwise it is only that the source may look
for a number without end. The settings of a session that rolled its own first puzzle leave room. -/
theorem answered_unless_no_room {good : σ → Prop} (reliable : Reliable good) (settings : SessionSettings)
    (privileged : Bool) (source : σ) (sound : good source) (world : World) (calls : List Call)
    (call : Call) :
    let session := (ofWorld settings privileged source world).afterAll calls
    (∀ fault, (answer call session).value.1 = .error fault →
      call.seed?.isSome = true ∧ session.isRunning = false ∧
        if Roll.fits settings.roll = true then settings.size ≤ 0 ∨ fault = .roll (.draw .endless)
        else fault = .roll (.doesNotFit settings.obstacleCount settings.size)) ∧
    (call.seed?.isSome = true → session.isRunning = false →
      (Roll.fits settings.roll = false → (answer call session).value.1 =
        .error (.roll (.doesNotFit settings.obstacleCount settings.size))) ∧
      (Roll.fits settings.roll = true → settings.size ≤ 0 →
        (∀ source, good source → ∃ fault, (RandomSource.draw settings.size source).1 = .error fault) →
        ∃ fault, (answer call session).value.1 = .error (.roll (.draw fault)))) ∧
    (∀ notice, session.Wrong call notice → session.Refused call notice) ∧
    (∀ origin, (create settings privileged origin).value = .ok (ofWorld settings privileged source world) →
      Roll.fits settings.roll = true ∧ 0 < settings.size) := by
  intro session
  have fresh := intact_ofWorld settings privileged source world
  obtain ⟨intact, same, -⟩ := intact_afterAll fresh calls
  change session.settings = settings at same
  have still : good session.source := good_afterAll reliable fresh sound calls
  refine ⟨fun fault failed => ?_, fun asked stopped => ?_, fun notice wrong => wrong.refused intact,
    fun origin made => ?_⟩
  · have told := puzzle_of_fault reliable intact still failed
    rwa [same] at told
  · obtain ⟨seed, deals⟩ := Option.isSome_iff_exists.mp asked
    have fails {rolled : RollFault} (hopeful : ∀ attempts, rolled ≠ .noPuzzle attempts)
        (told : (Roll.puzzle settings.roll (session.origin seed)).value.1 = .error rolled) :
        (answer call session).value.1 = .error (.roll rolled) := by
      rw [answer_error_iff deals, generate_error_iff stopped, same]
      exact ⟨rolled, rfl, hopeful, told⟩
    refine ⟨fun tight => fails (fun _ same => ?_) ?_, fun fits no_size fails_there => ?_⟩
    · cases same
    · rw [Roll.puzzle, if_neg (by simp [tight])]
      rfl
    · obtain ⟨fault, drawn⟩ := fails_there _ (origin_good reliable still)
      have told := Roll.puzzle_of_no_size fits (by decide : (0 : Int) < 1000) drawn
      exact ⟨fault, fails (fun _ impossible => by cases impossible) told⟩
  · rcases rolled : Roll.puzzle settings.roll origin with ⟨⟨fault | puzzle, later⟩, signals⟩
    · rw [create, Told.value_bind, rolled] at made
      cases made
    · have ok : (Roll.puzzle settings.roll origin).value.1 = .ok puzzle := by rw [rolled]
      exact Roll.room_of_puzzle ok

/-- A session with the usual settings and a twister fails for no new puzzle but by an endless search, and
refuses a mode that there is not. -/
theorem answered_unless_no_room_corridor :
    let session := (ofWorld {} false (Dice.twister (.ofSeed 0)) (.ofPuzzle corridor)).afterAll
      [.insert (.text "forward") none]
    (∀ fault, (answer (.generate none) session).value.1 = .error fault →
      fault = .roll (.draw .endless)) ∧
    session.Refused (.setMode (.text "maze")) (.unknownMode (.text "maze")) := by
  intro session
  have sound : ∃ state, Dice.twister (.ofSeed 0) = .twister state := ⟨_, rfl⟩
  obtain ⟨faults, -⟩ := answered_unless_no_room reliable_twister {} false _ sound (.ofPuzzle corridor)
    [.insert (.text "forward") none] (.generate none)
  obtain ⟨-, -, refuses, -⟩ := answered_unless_no_room reliable_twister {} false _ sound
    (.ofPuzzle corridor) [.insert (.text "forward") none] (.setMode (.text "maze"))
  have unknown : Mode.ofDatum (.text "maze") = .error ⟨"Mode", .text "maze"⟩ := rfl
  refine ⟨fun fault failed => ?_, refuses _ (.unknownMode unknown)⟩
  obtain ⟨-, -, told⟩ := faults fault failed
  rw [if_pos (by decide)] at told
  exact told.resolve_left (by decide)

/-- On a board of one cell ten obstacles do not fit: the request for a new puzzle fails. -/
theorem no_room_on_one_cell :
    (answer (.generate none) (ofWorld { size := 1 } false (Dice.twister (.ofSeed 0))
      (.ofPuzzle corridor))).value.1 = .error (.roll (.doesNotFit 10 1)) := rfl

end BlockMaze.Session
