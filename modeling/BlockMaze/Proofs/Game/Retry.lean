import BlockMaze.Proofs.Game.Frozen
import BlockMaze.Proofs.Game.Ways

/-! Runs that are stopped and tried again. An abort puts back all that a run has changed but for the attempt
it counts as, and the run that begins next goes the way of the one that was stopped: the same engine, with
the same program, on the same board. -/
namespace BlockMaze.Session
open Text
variable {σ : Type} {session one other later : Session σ} {engine : Engine} {walk : Walk}

def reopened (session : Session σ) : Session σ :=
  { session with world := session.world.restart, attempted := false, stage := .idle }

theorem abort_of_running (intact : session.Intact) (running : session.isRunning = true) :
    ∃ run later, session.run = some run ∧
      Completed (session.holding (Engine.ended .lost (some .aborted) ⟨session.world, run⟩) session.walk)
        (some .lost) later ∧
      (abort session).value = (.ok true, later.reopened) := by
  obtain ⟨run, walk, has_run, has_walk, under_way⟩ := intact.held running
  obtain ⟨ended, -⟩ := @Engine.abort_results ⟨session.world, run⟩ under_way
  have aborted := abort_aborted intact.placed
  generalize (abort session).value = answer at aborted
  cases aborted with
  | idle idle => simp [running, has_run] at idle
  | stopped _ engine later _ same_run stopped completed =>
    cases has_run.symm.trans same_run
    cases stopped.symm.trans ended
    exact ⟨run, later, has_run, completed, rfl⟩

theorem Completed.program {outcome : Option Outcome} (completed : Completed session outcome later) :
    session.privileged = true ∧ later.progress = session.progress ∧ later.program = session.program ∨
    session.privileged = false ∧ ∃ mode, session.progress.current = .ok mode ∧
      later.progress = session.recorded outcome mode ∧
      (later.progress.current = .ok mode → later.program = session.program) := by
  cases completed with
  | privileged privileged => exact .inl ⟨privileged, rfl, rfl⟩
  | locked mode ordinary current => exact .inr ⟨ordinary, mode, current, rfl, fun _ => rfl⟩
  | same mode ordinary current => exact .inr ⟨ordinary, mode, current, rfl, fun _ => rfl⟩
  | promoted mode next ordinary current unlocked following different =>
    refine .inr ⟨ordinary, mode, current, rfl, fun still => ?_⟩
    exact absurd (Except.ok.inj (following.symm.trans still)) different

/-- What an abort leaves of a session whose run goes on. For an ordinary player the run counts as lost with
the moves it has made. -/
structure Undone (before after : Session σ) : Prop where
  settings : after.settings = before.settings
  privileged : after.privileged = before.privileged
  world : after.world = before.world.restart
  stage : after.stage = .idle
  attempted : after.attempted = false
  score : after.score = before.score
  counts : before.privileged = true ∧ after.progress = before.progress ∨
    before.privileged = false ∧ ∃ mode, before.progress.current = .ok mode ∧
      after.progress = (before.progress.noted mode ⟨false, before.world.moves⟩).advance.value.2
  program : after.progress.index = before.progress.index → after.program = before.program

theorem abort_undone (intact : session.Intact) (running : session.isRunning = true) :
    ∃ aborted, (abort session).value = (.ok true, aborted) ∧ Undone session aborted := by
  obtain ⟨run, later, has_run, completed, value⟩ := abort_of_running intact running
  obtain ⟨program, progress, mode, same⟩ := completed.frame
  refine ⟨_, value, congrArg (·.settings) same, congrArg (·.privileged) same, congrArg (·.world.restart) same,
    rfl, rfl, congrArg (·.score) same, ?_, ?_⟩
  · rcases completed.program with ⟨privileged, kept, -⟩ | ⟨ordinary, mode, current, recorded, -⟩
    · exact .inl ⟨privileged, kept⟩
    · exact .inr ⟨ordinary, mode, current, recorded⟩
  · intro index
    change later.progress.index = session.progress.index at index
    rcases completed.program with ⟨-, -, kept⟩ | ⟨-, mode, current, recorded, kept⟩
    · exact kept
    · apply kept
      have advance := Progress.advance_cases (intact.placed.noted mode ⟨false, session.world.moves⟩)
      have progress : later.progress =
        (session.progress.noted mode ⟨false, session.world.moves⟩).advance.value.2 := recorded
      rw [progress] at index ⊢
      exact (advance.current_of_index index).trans current

namespace Undone
variable {before after : Session σ}

theorem attempts (undone : Undone before after) (placed : before.progress.Placed)
    (ordinary : before.privileged = false) : ∃ mode, before.progress.current = .ok mode ∧
      after.progress.attempts = before.progress.attempts.put mode
        (before.progress.attempts.made mode ++ [⟨false, before.world.moves⟩]) := by
  rcases undone.counts with ⟨privileged, -⟩ | ⟨-, mode, current, recorded⟩
  · cases privileged.symm.trans ordinary
  · obtain ⟨index, locked, moved⟩ := (Progress.advance_cases (placed.noted mode _)).frame
    exact ⟨mode, current, congrArg (·.attempts) (recorded.trans moved)⟩

theorem unspent (undone : Undone before after) (placed : before.progress.Placed)
    (ordinary : before.privileged = false) (unlocked : before.progress.locked = false)
    (index : after.progress.index = before.progress.index)
    (locked : after.progress.locked = before.progress.locked) : after.progress.Unspent := by
  rcases undone.counts with ⟨privileged, -⟩ | ⟨-, mode, current, recorded⟩
  · cases privileged.symm.trans ordinary
  · have advance := Progress.advance_cases (placed.noted mode ⟨false, before.world.moves⟩)
    rw [recorded] at index locked ⊢
    obtain ⟨same, unspent⟩ := advance.same_of_kept unlocked index locked
    rw [same]
    exact unspent

end Undone

/-- A run may begin, and with the program as it is. -/
structure Ready (session : Session σ) : Prop where
  stopped : session.isRunning = false
  fresh : session.attempted = false
  placed : session.progress.Placed
  suits : session.program.Suits session.mode
  something : session.program.isEmpty = false
  rights : session.privileged = false → session.progress.locked = false ∧
    session.progress.current = .ok session.mode ∧ session.progress.Unspent

theorem Ready.entitled (ready : session.Ready) {granted : Bool}
    (entitled : Entitled session (.ok granted, later)) :
    granted = true ∧ later.program = session.program := by
  cases entitled with
  | privileged => exact ⟨rfl, rfl⟩
  | locked ordinary locked => cases (ready.rights ordinary).1.symm.trans locked
  | unspent mode ordinary unlocked current =>
    obtain ⟨-, matched, -⟩ := ready.rights ordinary
    cases current.symm.trans matched
    exact ⟨rfl, congrArg Prod.snd ready.suits.pruneForMode_eq⟩
  | locking mode progress ordinary unlocked current spent =>
    exact absurd ((ready.rights ordinary).2.2 unlocked mode current) (Int.not_lt.mpr spent)
  | opening mode next progress ordinary unlocked current spent =>
    exact absurd ((ready.rights ordinary).2.2 unlocked mode current) (Int.not_lt.mpr spent)

theorem Ready.starts (ready : session.Ready) : (start session).value.1 = .ok true ∧
    (start session).value.2.program = session.program := by
  have started := start_started ready.placed
  generalize (start session).value = answer at started
  cases started with
  | running running => cases ready.stopped.symm.trans running
  | attempted stopped attempted => cases ready.fresh.symm.trans attempted
  | locked later stopped fresh entitled => cases (ready.entitled entitled).1
  | empty later stopped fresh entitled empty =>
    rw [(ready.entitled entitled).2] at empty
    cases ready.something.symm.trans empty
  | began later stopped fresh entitled => exact ⟨rfl, (ready.entitled entitled).2⟩

/-- A run stopped on its way leaves the session ready for another try, unless the attempt that it counts as
opens the next mode or locks the player out. -/
theorem Undone.ready {before after : Session σ} (undone : Undone before after)
    (placed : before.progress.Placed) (still_placed : after.progress.Placed)
    (suits : after.program.Suits after.mode) (something : before.program.isEmpty = false)
    (matched : after.Matched) (unlocked : before.privileged = false → before.progress.locked = false)
    (index : after.progress.index = before.progress.index)
    (locked : after.progress.locked = before.progress.locked) : after.Ready where
  stopped := by simp [isRunning, undone.stage]
  fresh := undone.attempted
  placed := still_placed
  suits := suits
  something := by rw [undone.program index, something]
  rights := by
    intro ordinary
    have before_ordinary := undone.privileged.symm.trans ordinary
    have open_before := unlocked before_ordinary
    exact ⟨locked.trans open_before, matched ordinary,
      undone.unspent placed before_ordinary open_before index locked⟩

theorem Entitled.rights_of_granted (entitled : Entitled session (.ok true, later))
    (ordinary : later.privileged = false) :
    later.progress.locked = false ∧ later.progress.current = .ok later.mode := by
  cases entitled with
  | privileged privileged => cases privileged.symm.trans ordinary
  | unspent mode _ unlocked current => exact ⟨unlocked, current⟩
  | opening mode next progress _ _ _ _ _ unlocked following => exact ⟨unlocked, following⟩

theorem Entitled.attempts_eq {granted : Bool} (entitled : Entitled session (.ok granted, later))
    (placed : session.progress.Placed) : later.progress.attempts = session.progress.attempts ∧
      (session.privileged = true → later.progress = session.progress) := by
  obtain ⟨index, locked, moved⟩ := (Progress.advance_cases placed).frame
  have apart (ordinary : session.privileged = false) {goal : Prop} : session.privileged = true → goal := by
    intro privileged
    cases privileged.symm.trans ordinary
  cases entitled with
  | privileged | locked => exact ⟨rfl, fun _ => rfl⟩
  | unspent => exact ⟨rfl, fun _ => rfl⟩
  | locking mode progress ordinary unlocked current spent locks =>
    exact ⟨congrArg (·.attempts) (locks.symm.trans moved), apart ordinary⟩
  | opening mode next progress ordinary unlocked current spent opens =>
    exact ⟨congrArg (·.attempts) (opens.symm.trans moved), apart ordinary⟩

/-- Both runs are at the same place of the same engine, or the same engine has ended them. -/
inductive Alike (one other : Session σ) : Prop
  | underway (engine : Engine) (walk : Walk) (first : one.Underway engine walk)
      (second : other.Underway engine walk) : Alike one other
  | left (engine : Engine) (first : one.LeftBy engine) (second : other.LeftBy engine) : Alike one other

/-- But for a session's own remarks the same is told. -/
structure SameNews (signals others : List Signal) : Prop where
  news : newsIn signals = newsIn others
  boards : boardsIn signals = boardsIn others

theorem SameNews.append {early late others more : List Signal} (first : SameNews early others)
    (second : SameNews late more) : SameNews (early ++ late) (others ++ more) := by
  refine ⟨?_, ?_⟩
  · rw [newsIn_append, newsIn_append, first.news, second.news]
  · rw [boardsIn_append, boardsIn_append, first.boards, second.boards]

theorem sameNews_of_remarks {remarks others : List Signal}
    (own : ∀ signal ∈ remarks, signal.isRemark = true) (also_own : ∀ signal ∈ others, signal.isRemark = true) :
    SameNews remarks others :=
  ⟨(newsIn_of_remarks own).trans (newsIn_of_remarks also_own).symm,
    (heard_of_remarks own).2.trans (heard_of_remarks also_own).2.symm⟩

theorem Alike.step (alike : Alike one other) : (step other).value.1 = (step one).value.1 ∧
    Alike (step one).value.2 (step other).value.2 ∧ SameNews (step other).signals (step one).signals := by
  cases alike with
  | left engine first second =>
    have idle {session : Session σ} (stopped : session.isRunning = false) :
        Session.step session = ⟨(.ok none, session), []⟩ := by simp [Session.step, stopped]
    rw [idle first.stopped, idle second.stopped]
    exact ⟨rfl, .left engine first second, rfl, rfl⟩
  | underway engine walk first second =>
    cases goes_on : (engine.next walk).value.1.run.running with
    | true =>
      obtain ⟨stepped, onward⟩ := first.step_onward goes_on
      obtain ⟨also_stepped, also_onward⟩ := second.step_onward goes_on
      rw [stepped, also_stepped]
      exact ⟨rfl, .underway _ _ onward also_onward, rfl, rfl⟩
    | false =>
      obtain ⟨later, remarks, stepped, own, left⟩ := first.step_ended goes_on
      obtain ⟨also_later, also_remarks, also_stepped, also_own, also_left⟩ := second.step_ended goes_on
      rw [stepped, also_stepped]
      exact ⟨rfl, .left _ left also_left, .append ⟨rfl, rfl⟩ (sameNews_of_remarks also_own own)⟩

section requests
variable [RandomSource σ]

def repliesAll (session : Session σ) : List Call → List (Except SessionFault Reply)
  | [] => []
  | call :: calls => (answer call session).value.1 :: (session.after call).repliesAll calls

theorem repliesAll_append (calls others : List Call) (session : Session σ) :
    session.repliesAll (calls ++ others) =
      session.repliesAll calls ++ (session.afterAll calls).repliesAll others := by
  induction calls generalizing session with
  | nil => rfl
  | cons call calls ih => exact congrArg ((answer call session).value.1 :: ·) (ih (session.after call))

theorem afterAll_steps_of_stopped (stopped : session.isRunning = false) (count : Nat) :
    session.afterAll (List.replicate count .step) = session := by
  have idle : session.after .step = session := by simp [Session.after, Session.step, stopped]
  induction count with
  | zero => rfl
  | succ count ih =>
    change (session.after .step).afterAll _ = session
    rw [idle, ih]

theorem Underway.steps (underway : session.Underway engine walk) {count : Nat}
    (goes_on : (session.afterAll (List.replicate count .step)).isRunning = true) :
    ∃ (later : Engine) (place : Walk) (events : List Event),
      session.afterAll (List.replicate count .step) = session.holding later (some place) ∧
      later.world.puzzle = engine.world.puzzle ∧ events.length = count ∧
      session.repliesAll (List.replicate count .step) =
        events.map fun event => .ok (.event (some event)) := by
  induction count generalizing session engine walk with
  | zero =>
    refine ⟨engine, walk, [], ?_, rfl, rfl, rfl⟩
    rw [holding, ← underway.world, ← underway.has_run, ← underway.has_walk]
    rfl
  | succ count ih =>
    have first : session.afterAll (List.replicate (count + 1) .step) =
        (session.after .step).afterAll (List.replicate count .step) := rfl
    rw [first] at goes_on
    cases next_goes_on : (engine.next walk).value.1.run.running with
    | false =>
      obtain ⟨later, remarks, stepped, -, left⟩ := underway.step_ended next_goes_on
      have stops : session.after .step = later := by rw [Session.after, stepped]
      rw [stops, afterAll_steps_of_stopped left.stopped, left.stopped] at goes_on
      cases goes_on
    | true =>
      obtain ⟨stepped, onward⟩ := underway.step_onward next_goes_on
      have next : session.after .step = session.holding _ _ := congrArg (·.value.2) stepped
      rcases Engine.next_cases underway.consistent with ⟨-, stopped, -⟩ | ⟨command, -, -, event, -⟩
      · cases next_goes_on.symm.trans stopped
      · rw [next] at goes_on
        obtain ⟨later, place, events, after, puzzle, counted, replies⟩ := ih onward goes_on
        have reply : (answer .step session).value.1 = .ok (.event (some (engine.eventOf command))) := by
          rw [answer, Act.map_apply, stepped, event]
          rfl
        refine ⟨later, place, engine.eventOf command :: events, ?_, ?_, ?_, ?_⟩
        · rw [first, next, after]
          rfl
        · exact puzzle.trans (Engine.puzzle_after underway.consistent 1)
        · rw [List.length_cons, counted]
        · rw [List.replicate_succ, repliesAll, reply, next, replies]
          rfl

/-- Requests find the same run in both sessions: they have the same replies, the same is told but for the
session's own remarks, and the boards and the runs are left the same. -/
structure SameRun (one other : Session σ) (calls : List Call) : Prop where
  replies : other.repliesAll calls = one.repliesAll calls
  news : newsIn (other.toldAll calls) = newsIn (one.toldAll calls)
  boards : boardsIn (other.toldAll calls) = boardsIn (one.toldAll calls)
  world : (other.afterAll calls).world = (one.afterAll calls).world
  run : (other.afterAll calls).run = (one.afterAll calls).run
  running : (other.afterAll calls).isRunning = (one.afterAll calls).isRunning
  outcome : (one.afterAll calls).isRunning = false →
    (other.afterAll calls).lastOutcome = (one.afterAll calls).lastOutcome

theorem SameRun.cons {call : Call} {calls : List Call}
    (reply : (answer call other).value.1 = (answer call one).value.1)
    (told : SameNews (answer call other).signals (answer call one).signals)
    (rest : SameRun (one.after call) (other.after call) calls) : SameRun one other (call :: calls) := by
  have all := told.append ⟨rest.news, rest.boards⟩
  refine ⟨?_, all.news, all.boards, rest.world, rest.run, rest.running, rest.outcome⟩
  rw [repliesAll, repliesAll, reply, rest.replies]

theorem Alike.steps (alike : Alike one other) (count : Nat) :
    SameRun one other (List.replicate count .step) := by
  induction count generalizing one other with
  | zero =>
    cases alike with
    | underway engine walk first second =>
      refine ⟨rfl, rfl, rfl, second.world.trans first.world.symm, second.has_run.trans first.has_run.symm,
        second.running.trans first.running.symm, fun stopped => ?_⟩
      cases first.running.symm.trans stopped
    | left engine first second =>
      exact ⟨rfl, rfl, rfl, second.world.trans first.world.symm, second.run.trans first.run.symm,
        second.stopped.trans first.stopped.symm, fun _ => second.outcome.trans first.outcome.symm⟩
  | succ count ih =>
    obtain ⟨reply, onward, told⟩ := alike.step
    refine .cons ?_ ?_ (ih onward)
    · simp only [answer, Act.map_apply, reply]
    · simpa only [answer, Act.map_apply] using told

theorem sameRun_of_started {steps : Nat} (placed : one.progress.Placed) (also_placed : other.progress.Placed)
    (granted : (start one).value.1 = .ok true) (also_granted : (start other).value.1 = .ok true)
    (world : other.world.restart = one.world.restart) (settings : other.settings = one.settings)
    (program : (other.after .start).program = (one.after .start).program) :
    SameRun one other (.start :: List.replicate steps .step) := by
  obtain ⟨first, remarks, entitled, -, own, started⟩ := start_told placed granted
  obtain ⟨second, also_remarks, also_entitled, -, also_own, also_started⟩ := start_told also_placed also_granted
  have begun : one.after .start = first.begun := congrArg (·.value.2) started
  have also_begun : other.after .start = second.begun := congrArg (·.value.2) also_started
  have underway := entitled.underway placed
  have also_underway := also_entitled.underway also_placed
  have forest : second.program.forest = first.program.forest := by
    rw [begun, also_begun] at program
    exact congrArg Program.forest program
  rw [world, settings, forest] at also_underway
  have alike : Alike (one.after .start) (other.after .start) := by
    rw [begun, also_begun]
    exact .underway _ _ underway also_underway
  refine .cons ?_ ?_ (alike.steps steps)
  · simp only [answer, Act.map_apply, started, also_started]
  · simp only [answer, Act.map_apply, started, also_started, world]
    exact (sameNews_of_remarks also_own own).append ⟨rfl, rfl⟩

/-- How a session stands while a run goes on that another session has been granted. -/
structure Midway (session midway : Session σ) : Prop where
  settings : midway.settings = session.settings
  privileged : midway.privileged = session.privileged
  score : midway.score = session.score
  puzzle : midway.world.puzzle = session.world.puzzle
  program : midway.program = (session.after .start).program
  something : midway.program.isEmpty = false
  attempts : midway.progress.attempts = session.progress.attempts
  unrecorded : session.privileged = true → midway.progress = session.progress
  rights : midway.privileged = false →
    midway.progress.locked = false ∧ midway.progress.current = .ok midway.mode

theorem Entitled.midway {entitled : Session σ} {place : Option Walk}
    (rights : Entitled session (.ok true, entitled)) (placed : session.progress.Placed)
    (something : entitled.program.isEmpty = false) (begun : session.after .start = entitled.begun)
    (puzzle : engine.world.puzzle = session.world.puzzle) :
    Midway session (entitled.begun.holding engine place) where
  settings := rights.aside.settings
  privileged := rights.rights.2
  score := by
    obtain ⟨_, _, _, framed⟩ := rights.frame
    rw [framed]
    rfl
  puzzle := puzzle
  program := congrArg (·.program) begun.symm
  something := something
  attempts := (rights.attempts_eq placed).1
  unrecorded := (rights.attempts_eq placed).2
  rights := rights.rights_of_granted

theorem midway_of_started (placed : session.progress.Placed) (granted : (start session).value.1 = .ok true)
    {count : Nat} (goes_on : ((session.after .start).afterAll (List.replicate count .step)).isRunning = true) :
    Midway session ((session.after .start).afterAll (List.replicate count .step)) ∧
      ∃ events : List Event, events.length = count ∧
        (session.after .start).repliesAll (List.replicate count .step) =
          events.map fun event => .ok (.event (some event)) := by
  obtain ⟨entitled, remarks, rights, something, -, started⟩ := start_told placed granted
  have begun : session.after .start = entitled.begun := congrArg (·.value.2) started
  rw [begun] at goes_on
  obtain ⟨engine, walk, events, steps, puzzle, counted, replies⟩ := (rights.underway placed).steps goes_on
  have midway : Midway session (entitled.begun.holding engine (some walk)) :=
    rights.midway placed something begun puzzle
  rw [← steps, ← begun] at midway
  rw [← begun] at replies
  exact ⟨midway, events, counted, replies⟩

/-- A run may be stopped after any number of steps: the agent is put back to the start of the puzzle, the
session is idle and open to another try, the points stay, and an ordinary player has one more attempt, lost
with the moves made so far. Unless that attempt opens the next mode or locks the player out, the program stays
as well, and a run that begins next is the one that would have gone on: step for step it has the same replies,
those already given first, tells the same, and comes to the same boards and to the same end. -/
theorem retry_after_abort (settings : SessionSettings) (privileged : Bool) (source : σ) (world : World)
    (calls : List Call) (count : Nat) :
    let session := (ofWorld settings privileged source world).afterAll calls
    let begun := session.after .start
    let midway := begun.afterAll (List.replicate count .step)
    let aborted := midway.after .abort
    let again := aborted.after .start
    (start session).value.1 = .ok true → midway.isRunning = true →
      (abort midway).value.1 = .ok true ∧ aborted.world = .ofPuzzle session.world.puzzle ∧
      aborted.stage = .idle ∧ aborted.attempted = false ∧ aborted.score = session.score ∧
      (session.privileged = true → aborted.progress = session.progress) ∧
      (session.privileged = false → ∃ mode, midway.progress.current = .ok mode ∧
        aborted.progress.attempts = session.progress.attempts.put mode
          (session.progress.attempts.made mode ++ [⟨false, midway.world.moves⟩])) ∧
      (aborted.progress.index = midway.progress.index → aborted.progress.locked = midway.progress.locked →
        aborted.program = begun.program ∧ (start aborted).value.1 = .ok true ∧
        (∀ steps, SameRun session aborted (.start :: List.replicate steps .step)) ∧
        ∃ events : List Event, events.length = count ∧
          begun.repliesAll (List.replicate count .step) = events.map (fun event => .ok (.event (some event))) ∧
          ∀ more, again.repliesAll (List.replicate (count + more) .step) =
            begun.repliesAll (List.replicate count .step) ++
              midway.repliesAll (List.replicate more .step)) := by
  intro session begun midway aborted again granted goes_on
  have staged : session.Staged := staged_invariant.afterAll (staged_ofWorld settings privileged source world) calls
  have suited : session.Suited := suited_invariant.afterAll (suited_ofWorld settings privileged source world) calls
  have aborted_suited : aborted.Suited :=
    suited_invariant.after (suited_invariant.afterAll (suited_invariant.after suited .start) _) .abort
  have midway_staged : midway.Staged :=
    staged_invariant.afterAll (staged_invariant.after staged .start) (List.replicate count .step)
  obtain ⟨under_way, events, counted, replies⟩ := midway_of_started staged.placed granted goes_on
  change Midway session midway at under_way
  obtain ⟨ended, abort_value, undone⟩ := abort_undone midway_staged.intact goes_on
  have same : aborted = ended := congrArg Prod.snd abort_value
  rw [← same] at undone
  have world : aborted.world = .ofPuzzle session.world.puzzle := by
    rw [undone.world, World.restart, under_way.puzzle]
  refine ⟨congrArg Prod.fst abort_value, world, undone.stage, undone.attempted,
    undone.score.trans under_way.score, ?_, ?_, ?_⟩
  · intro privileged
    rcases undone.counts with ⟨-, unrecorded⟩ | ⟨ordinary, -⟩
    · exact unrecorded.trans (under_way.unrecorded privileged)
    · cases ordinary.symm.trans (under_way.privileged.trans privileged)
  · intro ordinary
    rw [← under_way.attempts]
    exact undone.attempts midway_staged.placed (under_way.privileged.trans ordinary)
  · intro index locked
    have program : aborted.program = begun.program := (undone.program index).trans under_way.program
    have midway_fit : midway.Fit := ⟨midway_staged.placed, fun ordinary => (under_way.rights ordinary).2⟩
    have aborted_fit : aborted.Fit := abort_keeps_fit midway midway_fit
    have ready : aborted.Ready :=
      undone.ready midway_staged.placed aborted_fit.placed aborted_suited.suits under_way.something
        aborted_fit.matched (fun ordinary => (under_way.rights ordinary).1) index locked
    obtain ⟨granted_again, program_again⟩ := ready.starts
    have settings : aborted.settings = session.settings := undone.settings.trans under_way.settings
    have same_run (steps : Nat) : SameRun session aborted (.start :: List.replicate steps .step) :=
      sameRun_of_started staged.placed aborted_fit.placed granted granted_again (by rw [world]; rfl) settings
        (program_again.trans program)
    refine ⟨program, granted_again, same_run, events, counted, replies, fun more => ?_⟩
    have replies_again : again.repliesAll _ = begun.repliesAll _ := (List.cons.inj (same_run (count + more)).replies).2
    rw [replies_again, List.replicate_add, repliesAll_append]

theorem retry_after_abort_corridor :
    let session := (ofWorld {} false (Dice.script []) (.ofPuzzle corridor)).afterAll
      [.insert (.text "turn_left") none, .insert (.text "forward") none]
    let midway := (session.after .start).afterAll (List.replicate 1 .step)
    let aborted := midway.after .abort
    (start session).value.1 = .ok true ∧ midway.isRunning = true ∧
      aborted.progress.index = midway.progress.index ∧ aborted.progress.locked = midway.progress.locked ∧
      (start aborted).value.1 = .ok true ∧
      ∀ steps, SameRun session aborted (.start :: List.replicate steps .step) := by
  obtain ⟨-, -, -, -, -, -, -, retried⟩ := retry_after_abort {} false (Dice.script []) (.ofPuzzle corridor)
    [.insert (.text "turn_left") none, .insert (.text "forward") none] 1 (by decide +kernel) (by decide +kernel)
  obtain ⟨-, granted_again, same_run, -⟩ := retried (by decide +kernel) (by decide +kernel)
  exact ⟨by decide +kernel, by decide +kernel, by decide +kernel, by decide +kernel, granted_again, same_run⟩

end requests

end BlockMaze.Session
