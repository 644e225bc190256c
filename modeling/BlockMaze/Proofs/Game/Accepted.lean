import BlockMaze.Proofs.Game.Retry

/-! What a session accepts. For each sort of request it is said once, in terms of a few fields of the
session, when it is granted and when it is turned down for being made at the wrong time. -/
namespace BlockMaze

theorem Mode.ofDatum_name (mode : Mode) : ofDatum (.text mode.name) = .ok mode := by
  cases mode <;> rfl

theorem Mode.next_ne (mode : Mode) : mode.next ≠ mode := by
  cases mode <;> decide

/-- It is told that the program cannot be edited at this time. -/
def EditDenied (signals : List Signal) : Prop :=
  ∃ refusal, (refusal = .editWhileRunning ∨ refusal = .alreadyAttempted) ∧
    .event (.notice (.refused refusal)) ∈ signals

namespace Session
open Text
variable {σ : Type} {session : Session σ}

theorem editRefusal?_eq_none_iff :
    session.editRefusal? = none ↔ session.isRunning = false ∧ session.attempted = false := by
  unfold editRefusal?
  cases session.isRunning <;> cases session.attempted <;> simp

theorem editDenied_iff_of_refused {signals : List Signal} {refusal : Refusal}
    (refused : session.editRefusal? = some refusal)
    (told : signals = .log (.refused refusal) :: spoken (.refused refusal)) :
    EditDenied signals ↔ session.editRefusal? ≠ none := by
  have untimely : refusal = .editWhileRunning ∨ refusal = .alreadyAttempted := by
    unfold editRefusal? at refused
    split at refused
    · exact .inl (Option.some.inj refused).symm
    · split at refused
      · exact .inr (Option.some.inj refused).symm
      · cases refused
  have denied : EditDenied signals := ⟨refusal, untimely, by simp [told, spoken]⟩
  exact iff_of_true denied (refused ▸ Option.some_ne_none refusal)

theorem inserted_iff (kind : Kind) :
    (∃ block, (insert (.text kind.name) none session).value.1 = .ok (some block)) ↔
      session.editRefusal? = none ∧ session.mode.allows kind = true := by
  cases refused : session.editRefusal? with
  | some refusal => simp [insert, refused]
  | none =>
    cases allowed : session.mode.allows kind with
    | false => simp [insert_of_not_allowed session allowed]
    | true =>
      have given : session.program.insert (.text kind.name) none (some session.mode) =
          .ok (⟨session.program.nextId, Program.newContent kind⟩, session.program.append kind none) := by
        simp [Program.insert, Kind.ofDatum_name, modeRefusal?, allowed, Program.parentRefusal?]
      simp [insert, refused, onProgram, Edits.insert, given]

theorem remove_denied_iff (id : Option Int) :
    EditDenied (remove id session).signals ↔ session.editRefusal? ≠ none := by
  cases refused : session.editRefusal? with
  | some refusal =>
    rw [← refused]
    exact editDenied_iff_of_refused refused (by simp [remove, refused])
  | none =>
    cases found : (session.program.remove id).1 <;> simp [remove, refused, found, EditDenied, spoken]

theorem setCount_denied_iff (id : Option Int) (value : Datum) :
    EditDenied (setCount id value session).signals ↔ session.editRefusal? ≠ none := by
  cases refused : session.editRefusal? with
  | some refusal =>
    rw [← refused]
    exact editDenied_iff_of_refused refused (by simp [setCount, refused])
  | none =>
    cases given : session.program.setCount id value with
    | ok result => simp [setCount, refused, onProgram, Edits.setCount, given, EditDenied]
    | error refusal =>
      have other : refusal ≠ .editWhileRunning ∧ refusal ≠ .alreadyAttempted := by
        rw [Program.setCount] at given
        split at given
        · cases given
          simp
        · split at given
          · split at given <;> cases given
            simp
          · cases given
      simp [setCount, refused, onProgram, Edits.setCount, given, EditDenied, spoken, other]

theorem abort_granted_iff (intact : session.Intact) :
    (abort session).value.1 = .ok true ↔ session.isRunning = true := by
  cases running : session.isRunning with
  | false => simp [abort, running]
  | true =>
    obtain ⟨run, later, -, -, value⟩ := abort_of_running intact running
    simp [value]

/-- An ordinary player may ask for no mode but the one of the progress, which is the player's already. -/
theorem setMode_next_iff (fit : session.Fit) :
    (setMode (.text session.mode.next.name) session).value.1 = .ok true ↔
      session.privileged = true ∧ session.isRunning = false := by
  have named := Mode.ofDatum_name session.mode.next
  cases running : session.isRunning with
  | true => simp [setMode, named, running]
  | false =>
    cases ordinary : session.privileged with
    | true => simp [setMode, named, running, ordinary]
    | false =>
      have current := fit.matched ordinary
      simp [setMode, named, running, ordinary, current, Mode.next_ne]

theorem start_granted_iff (fit : session.Fit) (suited : session.Suited) (unspent : session.progress.Unspent)
    (something : session.program.isEmpty = false) : (start session).value.1 = .ok true ↔
      session.editRefusal? = none ∧ (session.privileged = false → session.progress.locked = false) := by
  rw [editRefusal?_eq_none_iff]
  constructor
  · intro granted
    have started := start_started fit.placed
    generalize (start session).value = answer at granted started
    cases started with
    | began later stopped fresh entitled => exact ⟨⟨stopped, fresh⟩, entitled.unlocked⟩
    | _ => cases granted
  · rintro ⟨⟨stopped, fresh⟩, unlocked⟩
    have ready : session.Ready :=
      ⟨stopped, fresh, fit.placed, suited.suits, something,
        fun ordinary => ⟨unlocked ordinary, fit.matched ordinary, unspent⟩⟩
    exact ready.starts.1

theorem reset_refused_iff [RandomSource σ] :
    .event (.notice (.refused .resetWhileRunning)) ∈ (reset session).signals ↔
      session.isRunning = true := by
  cases running : session.isRunning with
  | true => simp [reset, running, spoken]
  | false =>
    have logs := puzzle_journals session.settings.roll (session.origin none)
    have given := generate_told running none
    rcases rolled : Roll.puzzle session.settings.roll (session.origin none) with
      ⟨⟨fault | puzzle, source⟩, signals⟩ <;> rw [rolled] at logs given
    all_goals
      have silent : .event (.notice (.refused .resetWhileRunning)) ∉ signals := fun member => by
        cases logs _ member
    · cases fault <;> simp [reset, running, given, silent, spoken]
    · simp [reset, running, given, silent, spoken]

end Session

end BlockMaze
