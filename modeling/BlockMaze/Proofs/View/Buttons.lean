import BlockMaze.Proofs.Game.Accepted
import BlockMaze.View.Window

/-! The buttons of the window. Whatever has been done in it, a button that is enabled is one whose request
the session accepts. -/
namespace BlockMaze
open Text

namespace Window
variable {window next : Window}

theorem hear_session (signal : Signal) : (window.hear signal).session = window.session := by
  unfold hear
  split <;> rfl

theorem ask_session {α : Type} (act : Play Dice α) (window : Window) :
    (window.ask act).2.session = (act window.session).value.2 := by
  have heard (signals : List Signal) (window : Window) :
      (signals.foldl hear window).session = window.session := by
    induction signals generalizing window with
    | nil => rfl
    | cons signal signals ih => exact (ih (window.hear signal)).trans (hear_session signal)
  exact heard _ _

/-- The windows that clicks, scrolling, steps and the time lead to, with the buttons refreshed and the window
drawn in between. -/
inductive Reached : Window → Prop
  | opened {source : Dice} {session : Session Dice} (privileged : Bool) (speed : Option Int)
      (made : (Session.create {} privileged source).value = .ok session) : Reached (ofSession speed session)
  | clicked {window next : Window} {position : Position} (before : Reached window)
      (clicked : window.click position = .ok next) : Reached next
  | scrolled {window : Window} (before : Reached window) (amount : Int) :
      Reached { window with listing := { window.listing with scroll := window.listing.scroll - amount } }
  | waited {window : Window} (before : Reached window) (elapsed : Float) : Reached { window with elapsed }
  | stepped {window : Window} (before : Reached window) : Reached (window.perform Session.step)
  | refreshed {window : Window} (before : Reached window) : Reached window.refreshButtons
  | drawn {window : Window} (before : Reached window) : Reached window.draw.1

/-- The session is left as it was, or as one request leaves it that does not touch the player's rights. -/
def Moved (before after : Session Dice) : Prop :=
  after = before ∨ ∃ call, (∀ privileged, call ≠ .setUser privileged) ∧ after = before.after call

theorem moved_of_perform {α : Type} {act : Play Dice α} (call : Call)
    (asked : ∀ session, (act session).value.2 = session.after call)
    (no_change : ∀ privileged, call ≠ .setUser privileged) (window : Window) :
    Moved window.session (window.perform act).session :=
  .inr ⟨call, no_change, (ask_session act window).trans (asked window.session)⟩

theorem place_moved (kind : Kind) (window : Window) : Moved window.session (window.place kind).session := by
  let parent := (window.selectedBlock?.filter fun block => !block.content.isCommand).map (·.id)
  have kept : (window.place kind).session = (window.perform (Session.insert (.text kind.name) parent)).session := by
    unfold place
    dsimp only
    split
    · split <;> rfl
    · rfl
  rw [kept]
  exact moved_of_perform (.insert (.text kind.name) parent) (fun _ => rfl) nofun window

theorem bump_moved (change : Int) (window : Window) : Moved window.session (window.bump change).session := by
  unfold bump
  split
  · rename_i id count body _
    exact moved_of_perform (.setCount (some id) (.whole (count + change))) (fun _ => rfl) nofun window
  · exact .inl rfl

theorem press_moved (control : Control) (window : Window) :
    Moved window.session (window.press control).session := by
  cases control with
  | palette kind => exact place_moved kind window
  | remove =>
    simp only [press]
    split
    · rename_i id _
      exact moved_of_perform (.remove (some id)) (fun _ => rfl) nofun window
    · exact .inl rfl
  | fewer => exact bump_moved (-1) window
  | more => exact bump_moved 1 window
  | mode =>
    exact moved_of_perform (.setMode (.text window.session.mode.next.name)) (fun _ => rfl) nofun window
  | run => exact moved_of_perform .start (fun _ => rfl) nofun window.clearMessages
  | stop => exact moved_of_perform .abort (fun _ => rfl) nofun window
  | next => exact moved_of_perform .nextPuzzle (fun _ => rfl) nofun window.clearMessages
  | reset => exact moved_of_perform .reset (fun _ => rfl) nofun window.clearMessages

theorem click_moved {position : Position} (clicked : window.click position = .ok next) :
    Moved window.session next.session := by
  cases located : position.point with
  | error fault => simp [click, located, bind, Except.bind] at clicked
  | ok point =>
    cases hit : Control.all.find? fun control => (window.button control).hit point with
    | some control =>
      simp only [click, located, hit, bind, Except.bind, pure, Except.pure, Except.ok.injEq] at clicked
      exact clicked ▸ press_moved control window
    | none =>
      cases listed : window.listing.clickOn window.font position with
      | error fault => simp [click, located, hit, listed, bind, Except.bind] at clicked
      | ok listing =>
        simp only [click, located, hit, listed, bind, Except.bind, pure, Except.pure, Except.ok.injEq] at clicked
        exact clicked ▸ .inl rfl

theorem Reached.strokes (reached : Reached window) (input : List Stroke) :
    Reached (window.strokes input).1 := by
  fun_induction Window.strokes window input with
  | case1 => exact reached
  | case2 => exact reached
  | case3 window position rest later clicked ih => exact ih (reached.clicked clicked)
  | case4 => exact reached
  | case5 window amount rest listing ih => exact ih (reached.scrolled amount)
  | case6 window stroke rest _ _ _ ih => exact ih reached

theorem Reached.pass (reached : Reached window) {milliseconds : Measure}
    (passed : window.pass milliseconds = .ok next) : Reached next := by
  cases given : toFloat milliseconds with
  | error fault => simp [Window.pass, given, bind, Except.bind] at passed
  | ok time =>
    simp only [Window.pass, given, bind, Except.bind, pure, Except.pure, Except.ok.injEq] at passed
    exact passed ▸ reached.waited _

theorem Reached.advance (reached : Reached window) (advanced : window.advance = .ok next) : Reached next := by
  cases due : window.due with
  | error fault => simp [Window.advance, due, bind, Except.bind] at advanced
  | ok turn =>
    simp only [Window.advance, due, bind, Except.bind, pure, Except.pure] at advanced
    split at advanced
    · exact Except.ok.inj advanced ▸ (reached.waited 0).stepped
    · exact Except.ok.inj advanced ▸ reached

theorem Reached.frame (reached : Reached window) (milliseconds : Measure) (input : List Stroke) :
    Reached (window.frame milliseconds input).1 := by
  unfold Window.frame
  split
  · exact reached
  · rename_i later passed
    have stroked := (reached.pass passed).strokes input
    split
    · rename_i halted
      rwa [halted] at stroked
    · rename_i went_on
      rw [went_on] at stroked
      split
      · exact stroked
      · rename_i advanced
        exact (stroked.advance advanced).refreshed.drawn

/-- What a session keeps up under a window, where the rights never change. -/
structure Played (session : Session Dice) : Prop where
  staged : session.Staged
  suited : session.Suited
  fit : session.Fit
  recorded : ∃ attempts, session.Recorded 4 attempts

theorem played_create {source : Dice} {privileged : Bool} {session : Session Dice}
    (made : (Session.create {} privileged source).value = .ok session) : Played session := by
  obtain ⟨later, puzzle, rfl⟩ : ∃ later puzzle,
      session = Session.ofWorld {} privileged later (.ofPuzzle puzzle) := by
    rw [Session.create, Told.value_bind] at made
    rcases rolled : (Roll.puzzle ({} : SessionSettings).roll source).value with ⟨fault | puzzle, later⟩ <;>
      rw [rolled] at made <;> cases made
    exact ⟨later, puzzle, rfl⟩
  exact ⟨Session.staged_ofWorld _ _ _ _, Session.suited_ofWorld _ _ _ _, Session.fit_ofWorld _ _ _ _,
    [], Session.recorded_ofWorld rfl (by decide) _ _ _⟩

theorem Played.moved {before after : Session Dice} (played : Played before) (moved : Moved before after) :
    Played after := by
  obtain ⟨staged, suited, fit, attempts, recorded⟩ := played
  rcases moved with rfl | ⟨call, no_change, rfl⟩
  · exact ⟨staged, suited, fit, attempts, recorded⟩
  · have rights_kept : call = .setUser false → before.isRunning = false := fun same => absurd same (no_change false)
    exact ⟨Session.staged_invariant.after staged call, Session.suited_invariant.after suited call,
      Session.after_fit fit rights_kept, _, recorded.after call⟩

theorem Reached.played (reached : Reached window) : Played window.session := by
  induction reached with
  | opened privileged speed made => exact played_create made
  | clicked before clicked ih => exact ih.moved (click_moved clicked)
  | stepped before ih => exact ih.moved (moved_of_perform .step (fun _ => rfl) nofun _)
  | scrolled before amount ih => exact ih
  | waited before elapsed ih => exact ih
  | refreshed before ih => exact ih
  | drawn before ih => exact ih

theorem reached_ofOptions {options : Options} {atHand : Int}
    (opened : (ofOptions options atHand).value = .ok window) : Reached window := by
  have of_seed {seed : Int} (opened : (ofSeed options seed).value = .ok window) : Reached window := by
    rw [ofSeed, Told.value_bind] at opened
    cases made : (Session.create {} options.admin (Dice.twister (.ofSeed seed))).value with
    | error fault =>
      rw [made] at opened
      cases opened
    | ok session =>
      rw [made] at opened
      exact Except.ok.inj opened ▸ .opened options.admin options.speed.number? made
  unfold ofOptions at opened
  split at opened
  · exact of_seed opened
  · exact of_seed opened
  · cases opened

theorem editable_iff (session : Session Dice) :
    Control.editable session = true ↔ session.editRefusal? = none := by
  simp [Control.editable, Session.editRefusal?_eq_none_iff]

theorem lockedOut_eq_false_iff (session : Session Dice) : Control.lockedOut session = false ↔
    (session.privileged = false → session.progress.locked = false) := by
  unfold Control.lockedOut
  cases session.privileged <;> cases session.progress.locked <;> simp

/-- Whatever clicks, scrolling and steps a window has seen since it was opened, once its buttons are
refreshed they are enabled exactly if the session accepts what they ask for: those of the palette if a block
of the kind can be inserted at the top level, those for edits if the session does not deny edits at this time,
those for the run, for its stop and for the mode if these are granted, and the one for a new game if it is not
refused for a run. A run is refused for want of commands too, which its button does not show. -/
theorem enabled_iff_accepted (reached : Reached window) :
    let shown := window.refreshButtons
    let session := shown.session
    (∀ kind, shown.enabled (.palette kind) = true ↔
      ∃ block, (Session.insert (.text kind.name) none session).value.1 = .ok (some block)) ∧
    (∀ id, shown.enabled .remove = true ↔ ¬ EditDenied (Session.remove id session).signals) ∧
    (∀ control, control = .fewer ∨ control = .more → ∀ id value,
      (shown.enabled control = true ↔ ¬ EditDenied (Session.setCount id value session).signals)) ∧
    (session.program.isEmpty = false →
      (shown.enabled .run = true ↔ (Session.start session).value.1 = .ok true)) ∧
    (shown.enabled .stop = true ↔ (Session.abort session).value.1 = .ok true) ∧
    (shown.enabled .mode = true ↔
      (Session.setMode (.text session.mode.next.name) session).value.1 = .ok true) ∧
    (shown.enabled .reset = true ↔
      .event (.notice (.refused .resetWhileRunning)) ∉ (Session.reset session).signals) := by
  intro shown session
  have played : Played session := reached.played
  obtain ⟨staged, suited, fit, attempts, recorded⟩ := played
  have editable := editable_iff session
  refine ⟨fun kind => ?_, fun id => ?_, ?_, fun something => ?_, ?_, ?_, ?_⟩
  · rw [Session.inserted_iff, ← editable]
    exact Bool.and_eq_true_iff
  · rw [Session.remove_denied_iff, not_not]
    exact editable
  · rintro control (rfl | rfl) id value <;> rw [Session.setCount_denied_iff, not_not]
    · exact editable
    · exact editable
  · rw [Session.start_granted_iff fit suited recorded.progress_unspent something, ← editable]
    change (Control.editable session && !Control.lockedOut session) = true ↔ _
    rw [Bool.and_eq_true, Bool.not_eq_true', lockedOut_eq_false_iff]
  · exact (Session.abort_granted_iff staged.intact).symm
  · rw [Session.setMode_next_iff fit]
    change (session.privileged && !session.isRunning) = true ↔ _
    simp
  · rw [Session.reset_refused_iff]
    change (!session.isRunning) = true ↔ _
    simp

/-- A board whose last two rows are full of obstacles but for their ends. -/
def terrace : Puzzle where
  start := ⟨0, 0⟩
  goal := ⟨1, 0⟩
  obstacles := [⟨0, 4⟩, ⟨0, 5⟩, ⟨1, 4⟩, ⟨1, 5⟩, ⟨2, 4⟩, ⟨2, 5⟩, ⟨3, 4⟩, ⟨3, 5⟩, ⟨4, 4⟩, ⟨5, 4⟩]
  facing := .right
  size := 6
  moveLimit := 20
  start_inside := by decide
  goal_inside := by decide
  obstacles_inside := by decide
  start_free := by decide
  goal_free := by decide
  ordered := by decide

def terraceRolls : Dice :=
  .script [0, 0, 1, 0, 0, 4, 1, 4, 2, 4, 3, 4, 4, 4, 5, 4, 0, 5, 1, 5, 2, 5, 3, 5]

def onTerrace : Window := ofSession none (.ofWorld {} false (.script []) (.ofPuzzle terrace))

theorem reached_onTerrace : Reached onTerrace := by
  have rolled : (Roll.puzzle ({} : SessionSettings).roll terraceRolls).value = (.ok terrace, .script []) := by
    decide +kernel
  have made : (Session.create {} false terraceRolls).value =
      .ok (.ofWorld {} false (.script []) (.ofPuzzle terrace)) := by
    rw [Session.create, Told.value_bind, rolled]
    rfl
  exact .opened false none made

theorem enabled_iff_accepted_terrace :
    let window := onTerrace.press (.palette (.command .forward))
    Reached window ∧ window.session.program.isEmpty = false ∧ window.refreshButtons.enabled .run = true ∧
      (Session.start window.session).value.1 = .ok true := by
  intro window
  have clicked : onTerrace.click ⟨.whole 20, .whole 20⟩ = .ok window := by rfl
  have reached : Reached window := reached_onTerrace.clicked clicked
  have something : window.session.program.isEmpty = false := by decide +kernel
  have enabled : window.refreshButtons.enabled .run = true := by decide +kernel
  obtain ⟨-, -, -, run, -⟩ := enabled_iff_accepted reached
  exact ⟨reached, something, enabled, (run something).mp enabled⟩

end Window

end BlockMaze
