import BlockMaze.Proofs.Game.Rights
import BlockMaze.Proofs.Game.Tally

/-! The account of a session's runs. Whatever is asked for, every run that was begun is either going on
or has told its result, and the results told to an ordinary player are what is recorded as attempts. -/
namespace BlockMaze.Session
open Text
variable {σ : Type} {session before between after later : Session σ} {early late signals : List Signal}

/-- What becomes of a session's account along with a number of runs that begin. As long as the current
mode has an attempt left, the progress changes by the attempts recorded only. -/
structure Accounted (begun : Nat) (before : Session σ) (signals : List Signal) (after : Session σ) :
    Prop where
  settings : after.settings = before.settings
  quota : after.progress.quota = before.progress.quota
  progress : before.progress.Unspent →
    after.progress = before.progress.recordAll (before.counted signals)
  running : (results signals).length + after.isRunning.toNat = before.isRunning.toNat + begun
  intact : after.Intact

theorem Tallied.quota (tallied : Tallied before signals after) (intact : before.Intact) :
    after.progress.quota = before.progress.quota := by
  rw [tallied.progress]
  exact (intact.placed.recordAll _).2

structure Aside (before after : Session σ) : Prop where
  settings : after.settings = before.settings
  running : after.isRunning = before.isRunning
  run : after.run = before.run
  walk : after.walk = before.walk

theorem Aside.accounted (aside : Aside before after) (intact : before.Intact)
    (silent : results signals = []) (placed : after.progress.Placed)
    (quota : after.progress.quota = before.progress.quota)
    (progress : before.progress.Unspent → after.progress = before.progress) :
    Accounted 0 before signals after where
  settings := aside.settings
  quota := quota
  progress := fun unspent => by
    rw [counted_of_silent silent, progress unspent]
    rfl
  running := by rw [silent, aside.running, List.length_nil, Nat.zero_add, Nat.add_zero]
  intact := ⟨placed, by rw [aside.running, aside.run, aside.walk]; exact intact.held⟩

theorem Entitled.aside {granted : Bool} (entitled : Entitled session (.ok granted, later)) :
    Aside session later := by
  cases entitled <;> exact ⟨rfl, rfl, rfl, rfl⟩

theorem Entitled.progress_eq {granted : Bool} (entitled : Entitled session (.ok granted, later))
    (unspent : session.progress.Unspent) : later.progress = session.progress := by
  cases entitled with
  | privileged => rfl
  | locked => rfl
  | unspent => rfl
  | locking mode progress ordinary unlocked current spent =>
    exact absurd (unspent unlocked mode current) (Int.not_lt.mpr spent)
  | opening mode next progress ordinary unlocked current spent =>
    exact absurd (unspent unlocked mode current) (Int.not_lt.mpr spent)

theorem Entitled.rights {granted : Bool} (entitled : Entitled session (.ok granted, later)) :
    later.source = session.source ∧ later.privileged = session.privileged := by
  cases entitled <;> exact ⟨rfl, rfl⟩

theorem Entitled.placed {granted : Bool} (entitled : Entitled session (.ok granted, later))
    (placed : session.progress.Placed) :
    later.progress.Placed ∧ later.progress.quota = session.progress.quota := by
  have cases := Progress.advance_cases placed
  have advance := cases.placed placed
  have quota := cases.quota_eq
  cases entitled with
  | privileged => exact ⟨placed, rfl⟩
  | locked => exact ⟨placed, rfl⟩
  | unspent => exact ⟨placed, rfl⟩
  | locking mode progress ordinary unlocked current spent locks => exact locks ▸ ⟨advance, quota⟩
  | opening mode next progress ordinary unlocked current spent opens => exact opens ▸ ⟨advance, quota⟩

/-- The account of a request that may begin a run. The player's rights and the source of chance stay as
they are. -/
structure Ran (begun : Nat) (before : Session σ) (signals : List Signal) (after : Session σ) : Prop
    extends Accounted begun before signals after where
  source : after.source = before.source
  privileged : after.privileged = before.privileged

theorem Tallied.ran (tallied : Tallied before signals after) (intact : before.Intact) :
    Ran 0 before signals after where
  settings := tallied.settings
  quota := tallied.quota intact
  progress := fun _ => tallied.progress
  running := tallied.running
  intact := tallied.intact
  source := tallied.source
  privileged := tallied.privileged

theorem Ran.onward {begun : Nat} (ran : Ran begun before early between)
    (tallied : Tallied between late after) : Ran begun before (early ++ late) after where
  settings := tallied.settings.trans ran.settings
  quota := (tallied.quota ran.intact).trans ran.quota
  progress := fun unspent => by
    have same : between.counted late = before.counted late := by simp only [counted, ran.privileged]
    rw [counted_append, Progress.recordAll_append, tallied.progress, ran.progress unspent, same]
  running := by
    have one := ran.running
    have other := tallied.running
    rw [results_append, List.length_append]
    omega
  intact := tallied.intact
  source := tallied.source.trans ran.source
  privileged := tallied.privileged.trans ran.privileged

def began : Except SessionFault Bool → Bool
  | .ok granted => granted
  | .error _ => false

def begins (session : Session σ) : Call → Bool
  | .start | .runToEnd | .runPaced _ => began (start session).value.1
  | _ => false

theorem start_ran (intact : session.Intact) : faultOf? (start session).value.1 = none ∧
    Ran (began (start session).value.1).toNat session (start session).signals
      (start session).value.2 := by
  have silent := start_quiet.results session
  have started := start_started intact.placed
  generalize start session = answer at silent started ⊢
  rcases answer with ⟨value, signals⟩
  have refused {ended : Session σ} (aside : Aside session ended) (placed : ended.progress.Placed)
      (quota : ended.progress.quota = session.progress.quota)
      (progress : session.progress.Unspent → ended.progress = session.progress)
      (source : ended.source = session.source) (privileged : ended.privileged = session.privileged) :
      Ran 0 session signals ended :=
    { aside.accounted intact silent placed quota progress with source, privileged }
  have still : Ran 0 session signals session :=
    refused ⟨rfl, rfl, rfl, rfl⟩ intact.placed rfl (fun _ => rfl) rfl rfl
  cases started with
  | running => exact ⟨rfl, still⟩
  | attempted => exact ⟨rfl, still⟩
  | locked later stopped fresh entitled =>
    obtain ⟨source, privileged⟩ := entitled.rights
    obtain ⟨placed, quota⟩ := entitled.placed intact.placed
    exact ⟨rfl, refused entitled.aside placed quota entitled.progress_eq source privileged⟩
  | empty later stopped fresh entitled empty =>
    obtain ⟨source, privileged⟩ := entitled.rights
    obtain ⟨placed, quota⟩ := entitled.placed intact.placed
    have aside := entitled.aside
    exact ⟨rfl, refused ⟨aside.settings, aside.running, aside.run, aside.walk⟩ placed quota
      entitled.progress_eq source privileged⟩
  | began later stopped fresh entitled something =>
    obtain ⟨source, privileged⟩ := entitled.rights
    obtain ⟨placed, quota⟩ := entitled.placed intact.placed
    refine ⟨rfl, ⟨entitled.aside.settings, quota, fun unspent => ?_, ?_, placed,
      fun _ => ⟨_, _, rfl, rfl, rfl⟩⟩, source, privileged⟩
    · rw [counted_of_silent silent]
      exact entitled.progress_eq unspent
    · rw [silent, stopped]
      rfl

theorem exists_start (intact : session.Intact) : ∃ granted later signals,
    start session = ⟨(.ok granted, later), signals⟩ ∧ later.Intact ∧ results signals = [] := by
  obtain ⟨faultless, ran⟩ := start_ran intact
  have silent := start_quiet.results session
  rcases told : start session with ⟨⟨fault | granted, later⟩, signals⟩ <;>
    rw [told] at faultless ran silent
  · cases faultless
  · exact ⟨granted, later, signals, rfl, ran.intact, silent⟩

theorem start_then {α : Type} {rest : Bool → Play σ α} (obeys : ∀ began, Act.Obeys tallying (rest began))
    (intact : session.Intact) : faultOf? ((start >>= rest) session).value.1 = none ∧
      Ran (began (start session).value.1).toNat session ((start >>= rest) session).signals
        ((start >>= rest) session).value.2 := by
  obtain ⟨faultless, ran⟩ := start_ran intact
  rcases started : start session with ⟨⟨fault | answer, between⟩, early⟩
  · rw [started] at faultless
    cases faultless
  · rw [started] at ran
    rw [Act.bind_of_ok started]
    obtain ⟨faultless, tallied⟩ := obeys answer between ran.intact
    exact ⟨faultless, ran.onward tallied⟩

theorem runToEnd_ran (intact : session.Intact) : faultOf? (runToEnd session).value.1 = none ∧
    Ran (began (start session).value.1).toNat session (runToEnd session).signals
      (runToEnd session).value.2 :=
  start_then (onward_obeys tallying_composes step_tallies) intact

theorem runPaced_ran (intact : session.Intact) (abortAfter : Option Nat) :
    faultOf? (runPaced abortAfter session).value.1 = none ∧
      Ran (began (start session).value.1).toNat session (runPaced abortAfter session).signals
        (runPaced abortAfter session).value.2 := by
  rw [runPaced_eq]
  exact start_then (paced_obeys tallying_composes step_tallies abort_tallies abortAfter) intact

/-- What a request changes that has nothing to do with a run: rights if that is what is asked for, and
the source of chance if a puzzle is. -/
structure Unconcerned (call : Call) (before after : Session σ) : Prop extends Aside before after where
  progress : after.progress = before.progress
  privileged : (∀ privileged, call ≠ .setUser privileged) → after.privileged = before.privileged
  source : call.seed? = none → after.source = before.source

section requests
variable [RandomSource σ]

theorem answer_remarks {call : Call} (aside : call.isAside = true) (no_puzzle : call.seed? = none) :
    Remarks (answer call : Play σ Reply) := by
  cases call with
  | insert kind parent => exact (insert_remarks kind parent).map _
  | remove id => exact (remove_remarks id).map _
  | setCount id value => exact (setCount_remarks id value).map _
  | setMode value => exact (setMode_remarks value).map _
  | setUser privileged => exact (setUser_remarks privileged).map _
  | attemptsRemaining mode => exact (attemptsRemaining_remarks mode).map _
  | generate | nextPuzzle | reset => cases no_puzzle
  | _ => cases aside

theorem answer_quiet {call : Call} (aside : call.isAside = true) :
    Quiet (answer call : Play σ Reply) := by
  cases call with
  | generate seed => exact (generate_quiet seed).map _
  | nextPuzzle => exact nextPuzzle_quiet.map _
  | reset => exact reset_quiet.map _
  | _ => exact (answer_remarks aside rfl).quiet

theorem after_aside {call : Call} (aside : call.isAside = true) (placed : session.progress.Placed) :
    Unconcerned call session (session.after call) := by
  have answered := answer_answered placed aside
  rw [← answer_after]
  generalize answer call session = told at answered ⊢
  cases answered with
  | entrusted | demoted =>
    exact ⟨⟨rfl, rfl, rfl, rfl⟩, rfl, fun no_change => absurd rfl (no_change _), fun _ => rfl⟩
  | unlucky deals | broken deals =>
    exact ⟨⟨rfl, rfl, rfl, rfl⟩, rfl, fun _ => rfl, fun not_puzzle => by simp [deals] at not_puzzle⟩
  | dealt deals stopped =>
    exact ⟨⟨rfl, stopped.symm, rfl, rfl⟩, rfl, fun _ => rfl, fun not_puzzle => by
      simp [deals] at not_puzzle⟩
  | _ => exact ⟨⟨rfl, rfl, rfl, rfl⟩, rfl, fun _ => rfl, fun _ => rfl⟩

theorem answer_ran (intact : session.Intact) {call : Call} (of_run : call.isAside = false) :
    faultOf? (answer call session).value.1 = none ∧
      Ran (session.begins call).toNat session (answer call session).signals (session.after call) := by
  have mapped {α : Type} {act : Play σ α} {begun : Nat} {later : Session σ} (change : α → Reply)
      (ran : faultOf? (act session).value.1 = none ∧ Ran begun session (act session).signals later) :
      faultOf? ((change <$> act) session).value.1 = none ∧
        Ran begun session ((change <$> act) session).signals later := by
    rw [Act.map_apply]
    exact ⟨(faultOf?_map _ _).trans ran.1, ran.2⟩
  cases call with
  | start => exact mapped _ (start_ran intact)
  | step => exact mapped _ ((step_tallies session intact).imp_right fun tallied => tallied.ran intact)
  | runToEnd => exact mapped _ (runToEnd_ran intact)
  | runPaced abortAfter => exact mapped _ (runPaced_ran intact abortAfter)
  | abort => exact mapped _ ((abort_tallies session intact).imp_right fun tallied => tallied.ran intact)
  | _ => cases of_run

theorem after_accounted (intact : session.Intact) (call : Call) :
    Accounted (session.begins call).toNat session (answer call session).signals
      (session.after call) := by
  cases aside : call.isAside with
  | true =>
    have unconcerned := after_aside aside intact.placed
    have progress := unconcerned.progress
    have silent := (answer_quiet aside).results session
    have begins : session.begins call = false := by
      cases call <;> first | rfl | cases aside
    rw [begins]
    exact unconcerned.accounted intact silent (progress ▸ intact.placed) (by rw [progress])
      fun _ => progress
  | false => exact (answer_ran intact aside).2.toAccounted

theorem after_privileged (intact : session.Intact) {call : Call}
    (no_change : ∀ privileged, call ≠ .setUser privileged) :
    (session.after call).privileged = session.privileged := by
  cases aside : call.isAside with
  | true => exact (after_aside aside intact.placed).privileged no_change
  | false => exact (answer_ran intact aside).2.privileged

theorem after_source (intact : session.Intact) {call : Call} (not_puzzle : call.seed? = none) :
    (session.after call).source = session.source := by
  cases aside : call.isAside with
  | true => exact (after_aside aside intact.placed).source not_puzzle
  | false => exact (answer_ran intact aside).2.source

theorem after_setUser (placed : session.progress.Placed) (privileged : Bool) :
    (session.after (.setUser privileged)).privileged = privileged := by
  rw [Session.after]
  cases running : session.isRunning with
  | true => rw [setUser_of_running running]
  | false =>
    cases privileged with
    | true => rw [setUser_of_privileged]
    | false =>
      obtain ⟨mode, current⟩ := placed.exists_current
      rw [setUser_of_ordinary running current]
      rfl

end requests

end BlockMaze.Session
