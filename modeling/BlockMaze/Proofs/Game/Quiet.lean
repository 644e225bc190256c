import BlockMaze.Game.Editing
import BlockMaze.Game.Running
import BlockMaze.Proofs.Game.Requests
import BlockMaze.Proofs.Report.Heard
import BlockMaze.Proofs.Report.Law
import BlockMaze.Proofs.Run.Results

/-! What a session tells of its own accord: notices, boards and records, but no events of a run. Those
come from the engine alone. Most of what a session does shows no board either. -/
namespace BlockMaze
open Text

/-- Notices that a run gives; all others are a session's own. -/
def Notice.isOfRun : Notice → Bool
  | commandLimit | conditionLimit | moveLimit _ => true
  | _ => false

def Event.isRemark : Event → Bool
  | .notice said => !said.isOfRun
  | _ => false

/-- Whether a signal is a record, or a notice of a session's own. -/
def Signal.isRemark : Signal → Bool
  | .event news => news.isRemark
  | .log _ => true
  | .board _ => false

def Signal.isAside : Signal → Bool
  | .event (.notice _) => true
  | .event _ => false
  | _ => true

abbrev Quiet {ε τ α : Type} (act : Act ε τ α) : Prop := act.Tells fun signal => signal.isAside = true

abbrev Remarks {ε τ α : Type} (act : Act ε τ α) : Prop := act.Tells fun signal => signal.isRemark = true

abbrev Journals {ε τ α : Type} (act : Act ε τ α) : Prop := act.Tells fun signal => signal.isLog = true

section told
variable {ε τ α : Type} {act : Act ε τ α}

theorem Remarks.quiet (remarks : Remarks act) : Quiet act :=
  remarks.weaken fun signal remark => by
    rcases signal with (_ | _ | _ | _ | _ | _) | _ | _ <;> first | rfl | cases remark

theorem Journals.remarks (journals : Journals act) : Remarks act :=
  journals.weaken fun signal log => by cases signal <;> first | rfl | cases log

theorem heard_of_remarks {signals : List Signal} (remarks : ∀ signal ∈ signals, signal.isRemark = true) :
    (∀ event ∈ eventsIn signals, event.isRemark = true) ∧ boardsIn signals = [] := by
  constructor
  · intro event heard
    obtain ⟨signal, member, same⟩ := List.mem_filterMap.mp heard
    have remark := remarks signal member
    cases signal <;> cases same
    exact remark
  · refine List.filterMap_eq_nil_iff.mpr fun signal member => ?_
    have remark := remarks signal member
    cases signal <;> first | rfl | cases remark

end told

theorem Quiet.results {ε τ α : Type} {act : Act ε τ α} (quiet : Quiet act) (state : τ) :
    results (act state).signals = [] := by
  refine results_eq_nil_iff.mpr fun signal member => ?_
  have aside := quiet state signal member
  rcases signal with (_ | _ | _ | _ | _ | _) | _ | _ <;> simp_all [Signal.isAside, Signal.result?]

namespace Progress

theorem advance_journals : Journals advance := by
  refine .bind .get fun progress => ?_
  dsimp only
  split
  · exact .pure false
  · refine .bind (.silent fun _ => rfl) fun used => ?_
    split
    · exact .pure false
    · split
      · refine .bind (.silent fun _ => rfl) fun mode => ?_
        refine .bind (.tell ?_) fun _ => .bind (.silent fun _ => rfl) fun _ => .pure true
        simp [Signal.isLog]
      · refine .bind (.tell ?_) fun _ => .bind (.silent fun _ => rfl) fun _ => .pure true
        simp [Signal.isLog]

theorem record_journals (attempt : Attempt) : Journals (record attempt) := by
  refine .bind .get fun progress => .bind (.silent fun _ => rfl) fun mode => ?_
  exact .bind (.silent fun _ => rfl) fun _ => advance_journals.discard

end Progress

namespace Session
variable {σ : Type}

theorem say_remarks (notice : Notice) (own : notice.isOfRun = false) :
    Remarks (say notice : Play σ Unit) := by
  intro session
  simp [Act.telling, spoken, Signal.isRemark, Event.isRemark, own]

theorem refuse_remarks (refusal : Refusal) : Remarks (refuse refusal : Play σ Unit) := by
  intro session
  simp [Act.telling, spoken, Signal.isRemark, Event.isRemark, Notice.isOfRun]

theorem publish_quiet : Quiet (publish : Play σ Unit) := by
  intro session
  simp [Act.telling, Signal.isAside]

theorem onProgress_remarks {α : Type} {act : Act PlaceFault Progress α} (remarks : Remarks act) :
    Remarks (onProgress act : Play σ α) := by
  intro session
  rw [onProgress_apply]
  exact remarks session.progress

theorem onProgram_remarks {ε α : Type} {act : Act ε Program α} (remarks : Remarks act) :
    Remarks (onProgram act : Play σ (Except ε α)) := fun session => remarks session.program

theorem currentMode_remarks : Remarks (currentMode : Play σ Mode) := .silent fun session => by simp

theorem applyMode_remarks (mode : Mode) : Remarks (applyMode mode : Play σ Unit) := by
  intro session
  rw [applyMode_apply, pruned]
  simp only [Act.telling]
  split <;> simp [spoken, Signal.isRemark, Event.isRemark, Notice.isOfRun]

theorem insert_remarks (kind : Datum) (parent : Option Int) :
    Remarks (insert kind parent : Play σ (Option Block)) := by
  refine .bind .get fun session => ?_
  split
  · exact .bind (refuse_remarks _) fun _ => .pure none
  · have edit : Remarks (Edits.insert kind parent (some session.mode)) := by
      refine .bind .get fun program => .bind (.silent fun _ => rfl) fun (block, program) => ?_
      refine .bind (.silent fun _ => rfl) fun _ => .bind (.tell ?_) fun _ => .pure block
      simp [Signal.isRemark]
    refine .bind (onProgram_remarks edit) fun answer => ?_
    split
    · exact .pure _
    · exact .bind (refuse_remarks _) fun _ => .pure none

theorem remove_remarks (id : Option Int) : Remarks (remove id : Play σ Bool) := by
  refine .bind .get fun session => ?_
  split
  · exact .bind (refuse_remarks _) fun _ => .pure false
  · dsimp only
    split
    · exact .bind (.silent fun _ => rfl) fun _ => .pure true
    · exact .bind (say_remarks _ rfl) fun _ => .pure false

theorem setCount_remarks (id : Option Int) (value : Datum) :
    Remarks (setCount id value : Play σ (Option Int)) := by
  refine .bind .get fun session => ?_
  split
  · exact .bind (refuse_remarks _) fun _ => .pure none
  · have edit : Remarks (Edits.setCount id value) := by
      refine .bind .get fun program => .bind (.silent fun _ => rfl) fun (count, program) => ?_
      exact .bind (.silent fun _ => rfl) fun _ => .pure count
    refine .bind (onProgram_remarks edit) fun answer => ?_
    split
    · exact .pure _
    · exact .bind (refuse_remarks _) fun _ => .pure none

theorem attemptsRemaining_remarks (mode : Option Datum) :
    Remarks (attemptsRemaining mode : Play σ (Option Int)) := by
  have counting (mode : Option Mode) :
      Remarks (attemptsRemaining.remainingIn mode : Play σ (Option Int)) := by
    refine .bind .get fun session => ?_
    split
    · exact .pure none
    · refine .bind (onProgress_remarks ?_) fun count => .pure (some count)
      exact .bind .get fun progress => .silent fun _ => rfl
  unfold attemptsRemaining
  split
  · exact .bind (say_remarks _ rfl) fun _ => .pure none
  · exact counting _
  · exact counting _

theorem setMode_remarks (value : Datum) : Remarks (setMode value : Play σ Bool) := by
  unfold setMode
  split
  · exact .bind (say_remarks _ rfl) fun _ => .pure false
  · rename_i mode _
    have taken : Remarks (do applyMode mode; return true : Play σ Bool) :=
      .bind (applyMode_remarks mode) fun _ => .pure true
    refine .bind .get fun session => ?_
    split
    · exact .bind (refuse_remarks _) fun _ => .pure false
    · split
      · refine .bind currentMode_remarks fun current => ?_
        split
        · exact .bind (refuse_remarks _) fun _ => .pure false
        · exact taken
      · exact taken

theorem setUser_remarks (privileged : Bool) : Remarks (setUser privileged : Play σ Unit) := by
  refine .bind (.silent fun _ => rfl) fun _ => .bind .get fun session => ?_
  split
  · exact .bind currentMode_remarks fun mode => applyMode_remarks mode
  · exact .pure ()

theorem entitle_remarks : Remarks (entitle : Play σ Bool) := by
  refine .bind .get fun session => ?_
  split
  · exact .bind (say_remarks _ rfl) fun _ => .pure false
  · refine .bind currentMode_remarks fun mode => .bind (applyMode_remarks mode) fun _ => ?_
    refine .bind .get fun later => .bind (onProgress_remarks (.silent fun _ => rfl)) fun used => ?_
    split
    · refine .bind (onProgress_remarks Progress.advance_journals.remarks).discard fun _ =>
        .bind .get fun moved => ?_
      split
      · exact .bind (say_remarks _ rfl) fun _ => .pure false
      · refine .bind currentMode_remarks fun mode => .bind (say_remarks _ rfl) fun _ => ?_
        refine .bind currentMode_remarks fun mode => .bind (applyMode_remarks mode) fun _ => .pure true
    · exact .pure true

theorem start_quiet : Quiet (start : Play σ Bool) := by
  refine .bind .get fun session => ?_
  split
  · exact .bind (say_remarks .alreadyRunning rfl).quiet fun _ => .pure false
  · refine .bind .get fun session => ?_
    split
    · exact .bind (say_remarks .alreadyAttempted rfl).quiet fun _ => .pure false
    · refine .bind .get fun session => ?_
      split
      on_goal 1 =>
        refine .bind entitle_remarks.quiet fun entitled => ?_
        split
        · exact .pure false
      -- with or without a check of the rights, the rest is the same
      all_goals
        refine .bind .get fun session => ?_
        split
        · exact .bind (.silent fun _ => rfl) fun _ =>
            .bind (say_remarks .noCommands rfl).quiet fun _ => .pure false
        · refine .bind (.silent fun _ => rfl) fun _ => .bind publish_quiet fun _ => ?_
          exact .bind (say_remarks .executing rfl).quiet fun _ =>
            .bind (.silent fun _ => rfl) fun _ => .pure true

theorem complete_remarks (outcome : Option Outcome) : Remarks (complete outcome : Play σ Unit) := by
  have verdict : (if outcome = some .won then Notice.succeeded else .failed).isOfRun = false := by
    split <;> rfl
  refine .bind (.silent fun _ => rfl) fun _ => .bind (say_remarks _ (by simpa using verdict)) fun _ => ?_
  refine .bind .get fun session => ?_
  split
  · exact .pure ()
  · refine .bind currentMode_remarks fun before => .bind .get fun session => ?_
    refine .bind (onProgress_remarks (Progress.record_journals _).remarks) fun _ => .bind .get fun later => ?_
    split
    · exact say_remarks _ rfl
    · refine .bind currentMode_remarks fun current => ?_
      split
      · exact .bind (applyMode_remarks current) fun _ => say_remarks _ rfl
      · exact .pure ()

section puzzles
variable [RandomSource σ]

theorem cell_journals (size : Int) : Journals (Roll.cell size : Act RollFault σ Cell) := by
  have number : Journals (Roll.number size : Act RollFault σ Int) := by
    refine .silent fun source => ?_
    unfold Roll.number
    split <;> rfl
  exact .bind number fun x => .bind number fun y => .pure _

theorem goal_journals (size : Int) (start : Cell) (patience : Nat) :
    Journals (Roll.goal size start patience : Act RollFault σ Cell) := by
  induction patience with
  | zero => exact .silent fun _ => rfl
  | succ patience ih =>
    refine .bind (cell_journals size) fun drawn => ?_
    split
    · exact ih
    · exact .pure drawn

theorem obstacles_journals (size count : Int) (start goal : Cell) (patience : Nat) (placed : List Cell) :
    Journals (Roll.obstacles size count start goal patience placed : Act RollFault σ (List Cell)) := by
  induction patience generalizing placed with
  | zero =>
    unfold Roll.obstacles
    split
    · exact .pure placed
    · exact .silent fun _ => rfl
  | succ patience ih =>
    unfold Roll.obstacles
    split
    · exact .pure placed
    · exact .bind (cell_journals size) fun drawn => ih _

theorem layout_journals (size count : Int) : Journals (Roll.layout size count : Act RollFault σ Layout) := by
  refine .bind (cell_journals size) fun start => .bind .get fun source => ?_
  refine .bind (goal_journals size start _) fun goal => .bind .get fun source => ?_
  exact .bind (obstacles_journals size count start goal _ []) fun obstacles => .pure _

omit [RandomSource σ] in
theorem lift_journals {ε α : Type} (wrong : ε → RollFault) (given : Except ε α) :
    Journals (Roll.lift wrong given : Act RollFault σ α) := by
  cases given <;> exact .silent fun _ => rfl

theorem attempts_journals (settings : RollSettings) (attempt left : Nat) :
    Journals (Roll.attempts settings attempt left : Act RollFault σ Puzzle) := by
  induction left generalizing attempt with
  | zero => exact .silent fun _ => rfl
  | succ left ih =>
    refine .bind (layout_journals _ _) fun ⟨start, goal, obstacles⟩ => ?_
    refine .bind (lift_journals _ _) fun facing => ?_
    split
    · exact .bind (.tell (by simp [Signal.isLog])) fun _ => lift_journals _ _
    · exact .bind (.tell (by simp [Signal.isLog])) fun _ => ih (attempt + 1)

theorem puzzle_journals (settings : RollSettings) :
    Journals (Roll.puzzle settings : Act RollFault σ Puzzle) := by
  unfold Roll.puzzle
  split
  · exact attempts_journals _ _ _
  · exact .silent fun _ => rfl

theorem rollPuzzle_journals : Journals (rollPuzzle : Play σ (Except RollFault Puzzle)) :=
  fun session => puzzle_journals session.settings.roll session.source

theorem generate_quiet (seed : Option Int) : Quiet (generate seed : Play σ Bool) := by
  refine .bind .get fun session => ?_
  split
  · exact .bind (refuse_remarks _).quiet fun _ => .pure false
  · dsimp only
    split
    on_goal 1 => refine .bind (.silent fun _ => rfl) fun _ => ?_
    -- whether or not the source is seeded anew, a puzzle is rolled
    all_goals
      refine .bind rollPuzzle_journals.remarks.quiet fun rolled => ?_
      split
      · refine .bind (.tell (by simp [Signal.isAside])) fun _ => ?_
        exact .bind (say_remarks (.noPuzzle _) rfl).quiet fun _ => .pure false
      · exact .silent fun _ => rfl
      · refine .bind (.silent fun _ => rfl) fun _ => .bind .get fun session => ?_
        refine .bind (.tell (by simp [Signal.isAside])) fun _ => .bind (.silent fun _ => rfl) fun _ => ?_
        exact .bind publish_quiet fun _ => .pure true

theorem nextPuzzle_quiet : Quiet (nextPuzzle : Play σ Bool) := by
  refine .bind .get fun session => ?_
  split
  · exact .bind (refuse_remarks _).quiet fun _ => .pure false
  · refine .bind (generate_quiet none) fun dealt => ?_
    split
    · exact .pure false
    · exact .bind (.silent fun _ => rfl) fun _ => .bind (say_remarks .newPuzzle rfl).quiet fun _ => .pure true

theorem reset_quiet : Quiet (reset : Play σ Bool) := by
  refine .bind .get fun session => ?_
  split
  · exact .bind (refuse_remarks _).quiet fun _ => .pure false
  · refine .bind (generate_quiet none) fun dealt => ?_
    split
    · exact .pure false
    · exact .bind (.silent fun _ => rfl) fun _ => .bind (say_remarks .gameReset rfl).quiet fun _ => .pure true

end puzzles

end Session
end BlockMaze
