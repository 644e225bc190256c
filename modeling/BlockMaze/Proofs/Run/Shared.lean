import BlockMaze.Proofs.Run.Budget

/-! Several walks of one engine. Each is set aside somewhere in the program while the others, a new start
or an abort change what they share; however their calls are mixed, a run ends once and stays as it ended
until the next one begins. -/
namespace BlockMaze

def Signal.isEnding : Signal → Bool
  | .event (.won _) => true
  | .event (.lost _ _) => true
  | _ => false

namespace Engine

def endings (signals : List Signal) : Nat := signals.countP Signal.isEnding

structure Shared where
  forest : Forest
  engine : Engine
  walks : List Walk := []

inductive Request
  | execute
  | next (which : Nat)
  | abort
  | finish (outcome : Outcome) (reason : Option Reason)
  deriving DecidableEq

namespace Shared

/-- Grants a request. A start adds a walk that has yet to take its first step. -/
def grant (shared : Shared) : Request → Told Shared
  | .execute =>
    pure { shared with engine := shared.engine.start, walks := shared.walks ++ [.ofForest shared.forest] }
  | .next which =>
    match shared.walks[which]? with
    | none => pure shared
    | some walk => do
      let (engine, walk, _) ← shared.engine.next walk
      return { shared with engine, walks := shared.walks.set which walk }
  | .abort => do return { shared with engine := ← shared.engine.abort }
  | .finish outcome reason => do return { shared with engine := ← shared.engine.finish outcome reason }

def grantAll (shared : Shared) : List Request → Told Shared
  | [] => pure shared
  | request :: requests => do
    let later ← shared.grant request
    later.grantAll requests

end Shared

theorem endings_append (first second : List Signal) :
    endings (first ++ second) = endings first + endings second := List.countP_append

theorem endings_commandSignals (engine : Engine) (command : Command) :
    endings (engine.commandSignals command) = 0 := by
  have noted : endings (engine.world.applySignals command) = 0 := by
    rcases applySignals_cases engine.world command with none_told | ⟨record, told⟩
    · rw [none_told]
      rfl
    · rw [told]
      rfl
  have told : Signal.isEnding (.event (engine.eventOf command)) = false := by
    cases command with
    | turn side => rfl
    | forward =>
      simp only [eventOf, Command.event]
      split <;> rfl
  rw [commandSignals, endings_append, noted, endings, List.countP_cons, List.countP_cons, told]
  rfl

/-- What becomes of an engine while no run is started. It is left alone, or its run goes on, or its run
is over and the news of that came last. -/
inductive Stretch (engine : Engine) : Engine → List Signal → Prop
  | still : Stretch engine engine []
  | onward {later : Engine} {signals : List Signal} (running : engine.run.running = true)
      (goes_on : later.run.running = true) (same : later.run.outcome = engine.run.outcome)
      (quiet : endings signals = 0) : Stretch engine later signals
  | done {later : Engine} {signals : List Signal} {ending : Signal}
      (running : engine.run.running = true) (stopped : later.run.running = false)
      (decided : later.run.outcome ≠ none) (quiet : endings signals = 0)
      (news : ending.isEnding = true) : Stretch engine later (signals ++ [ending])

section stretch
variable {engine between later : Engine} {early late signals : List Signal}

theorem Stretch.of_stopped (stretch : Stretch engine later signals)
    (stopped : engine.run.running = false) : later = engine ∧ signals = [] := by
  cases stretch with
  | still => exact ⟨rfl, rfl⟩
  | onward running => simp [stopped] at running
  | done running => simp [stopped] at running

theorem Stretch.trans (first : Stretch engine between early) (second : Stretch between later late) :
    Stretch engine later (early ++ late) := by
  cases first with
  | still => exact second
  | onward running goes_on same quiet =>
    cases second with
    | still =>
      rw [List.append_nil]
      exact .onward running goes_on same quiet
    | onward _ still_on unchanged also =>
      refine .onward running still_on (unchanged.trans same) ?_
      rw [endings_append, quiet, also]
    | done _ stopped decided also news =>
      rw [← List.append_assoc]
      refine .done running stopped decided ?_ news
      rw [endings_append, quiet, also]
  | done running stopped decided quiet news =>
    obtain ⟨rfl, rfl⟩ := second.of_stopped stopped
    rw [List.append_nil]
    exact .done running stopped decided quiet news

theorem Stretch.endings_le (stretch : Stretch engine later signals) : endings signals ≤ 1 := by
  cases stretch with
  | still => exact Nat.zero_le 1
  | onward _ _ _ quiet => omega
  | done _ _ _ quiet news =>
    rw [endings_append, quiet]
    simp [endings, news]

theorem Stretch.ended (stretch : Stretch engine later signals) (ending : endings signals = 1) :
    signals.getLast?.any Signal.isEnding = true ∧ later.run.running = false := by
  cases stretch with
  | still => cases ending
  | onward _ _ _ quiet => omega
  | done _ stopped _ _ news => exact ⟨by simpa using news, stopped⟩

theorem Stretch.decided (stretch : Stretch engine later signals)
    (before : engine.run.running = true ↔ engine.run.outcome = none) :
    later.run.running = true ↔ later.run.outcome = none := by
  cases stretch with
  | still => exact before
  | onward running goes_on same _ => rw [goes_on, same, ← before, running]
  | done _ stopped decided _ _ => simp [stopped, decided]

end stretch

variable {engine : Engine}

theorem finish_value (engine : Engine) (outcome : Outcome) (reason : Option Reason) :
    (engine.finish outcome reason).value = engine ∨
      (engine.finish outcome reason).value = engine.ended outcome reason := by
  rw [finish]
  split
  · cases outcome <;> exact .inr rfl
  · exact .inl rfl

theorem finish_stretch (engine : Engine) (outcome : Outcome) (reason : Option Reason) :
    Stretch engine (engine.finish outcome reason).value (engine.finish outcome reason).signals := by
  rw [finish]
  split
  · rename_i running
    have none_told : endings [] = 0 := rfl
    have logged : endings [.log (.runLost reason)] = 0 := rfl
    cases outcome with
    | won => exact .done running rfl (by simp) none_told rfl
    | lost => exact .done running rfl (by simp) logged rfl
    | empty => exact .done running rfl (by simp) logged rfl
  · exact .still

theorem stopped_stretch (running : engine.run.running = true) (notice : Notice) (reason : Reason) :
    Stretch engine (engine.ended .lost (some reason)) (engine.stopSignals notice reason) := by
  have quiet : endings [.event (.notice notice), .log (.runLost (some reason))] = 0 := rfl
  exact .done running rfl (by simp [ended]) quiet rfl

theorem settled_stretch (running : engine.run.running = true) (result : StepResult) :
    Stretch engine (engine.settled result).value (engine.settled result).signals := by
  have ended := finish_stretch engine .won none
  rw [finish_won running] at ended
  rw [settled]
  split
  · exact ended
  · split
    · exact stopped_stretch running _ _
    · exact .still

theorem next_stretch (engine : Engine) (walk : Walk) :
    Stretch engine (engine.next walk).value.1 (engine.next walk).signals := by
  rcases next_idle_or_advance engine walk with idle | ⟨running, stack, advance⟩
  · rw [idle]
    exact .still
  · generalize engine.next walk = told at advance
    cases advance with
    | commandLimit command after found spent => exact stopped_stretch running _ _
    | passLimit found => exact stopped_stretch running _ _
    | arrived found there =>
      have ended := finish_stretch engine .won none
      rwa [finish_won running] at ended
    | away found elsewhere =>
      have ended := finish_stretch engine .lost (some .endedAway)
      rwa [finish_lost running] at ended
    | obeyed command after found unspent =>
      have obeys : Stretch engine (engine.obeyed command) (engine.commandSignals command) :=
        .onward running running rfl (endings_commandSignals engine command)
      have goes_on : (engine.obeyed command).run.running = true := running
      exact obeys.trans (settled_stretch goes_on _)

structure Budgeted (limits : Limits) (engine : Engine) : Prop where
  limited : engine.run.limits = limits
  within : (engine.run.total : Int) ≤ max 0 limits.commands

theorem Budgeted.start {limits : Limits} (budgeted : Budgeted limits engine) :
    Budgeted limits engine.start :=
  ⟨budgeted.limited, Int.le_max_left 0 _⟩

theorem Budgeted.finish {limits : Limits} (budgeted : Budgeted limits engine) (outcome : Outcome)
    (reason : Option Reason) : Budgeted limits (engine.finish outcome reason).value := by
  rcases finish_value engine outcome reason with same | same <;> rw [same]
  · exact budgeted
  · exact ⟨budgeted.limited, budgeted.within⟩

theorem Budgeted.next {limits : Limits} (budgeted : Budgeted limits engine) (walk : Walk) :
    Budgeted limits (engine.next walk).value.1 := by
  rcases next_idle_or_advance engine walk with idle | ⟨_, stack, advance⟩
  · rw [idle]
    exact budgeted
  · have stopped (outcome : Outcome) (reason : Option Reason) :
        Budgeted limits (engine.ended outcome reason) := ⟨budgeted.limited, budgeted.within⟩
    generalize engine.next walk = told at advance
    cases advance with
    | commandLimit command after found spent => exact stopped _ _
    | passLimit found => exact stopped _ _
    | arrived found there => exact stopped _ _
    | away found elsewhere => exact stopped _ _
    | obeyed command after found unspent =>
      have left : (engine.run.total : Int) < limits.commands := by
        rw [exhausted, budgeted.limited, decide_eq_false_iff_not] at unspent
        exact Int.not_le.mp unspent
      refine ⟨settled_limits.trans budgeted.limited, ?_⟩
      change (((engine.obeyed command).settled _).value.run.total : Int) ≤ _
      rw [settled_total]
      simp only [Engine.obeyed]
      omega

namespace Shared

theorem grant_stretch (shared : Shared) {request : Request} (no_start : request ≠ .execute) :
    Stretch shared.engine (shared.grant request).value.engine (shared.grant request).signals := by
  cases request with
  | execute => exact absurd rfl no_start
  | next which =>
    simp only [grant]
    split
    · exact .still
    · rename_i walk _
      simp only [Told.value_bind, Told.signals_bind, Told.signals_pure, List.append_nil]
      exact next_stretch shared.engine walk
  | abort =>
    simp only [grant, Told.value_bind, Told.signals_bind, Told.signals_pure, List.append_nil]
    exact finish_stretch shared.engine .lost (some .aborted)
  | finish outcome reason =>
    simp only [grant, Told.value_bind, Told.signals_bind, Told.signals_pure, List.append_nil]
    exact finish_stretch shared.engine outcome reason

theorem grantAll_stretch (shared : Shared) {requests : List Request} (no_start : .execute ∉ requests) :
    Stretch shared.engine (shared.grantAll requests).value.engine
      (shared.grantAll requests).signals := by
  induction requests generalizing shared with
  | nil => exact .still
  | cons request requests ih =>
    simp only [List.mem_cons, not_or] at no_start
    have first := shared.grant_stretch (Ne.symm no_start.1)
    exact first.trans (ih (shared.grant request).value no_start.2)

theorem grant_budgeted {limits : Limits} {shared : Shared} (budgeted : Budgeted limits shared.engine)
    (request : Request) : Budgeted limits (shared.grant request).value.engine := by
  cases request with
  | execute => exact budgeted.start
  | next which =>
    simp only [grant]
    split
    · exact budgeted
    · rename_i walk _
      exact budgeted.next walk
  | abort => exact budgeted.finish .lost (some .aborted)
  | finish outcome reason => exact budgeted.finish outcome reason

theorem grantAll_budgeted {limits : Limits} {shared : Shared}
    (budgeted : Budgeted limits shared.engine) (requests : List Request) :
    Budgeted limits (shared.grantAll requests).value.engine := by
  induction requests generalizing shared with
  | nil => exact budgeted
  | cons request requests ih => exact ih (grant_budgeted budgeted request)

theorem grant_decided (shared : Shared) (request : Request)
    (before : request = .execute ∨
      (shared.engine.run.running = true ↔ shared.engine.run.outcome = none)) :
    (shared.grant request).value.engine.run.running = true ↔
      (shared.grant request).value.engine.run.outcome = none := by
  by_cases begins : request = .execute
  · subst begins
    exact ⟨fun _ => rfl, fun _ => rfl⟩
  · exact (shared.grant_stretch begins).decided (before.resolve_left begins)

theorem grantAll_decided (shared : Shared) (requests : List Request)
    (before : .execute ∈ requests ∨
      (shared.engine.run.running = true ↔ shared.engine.run.outcome = none)) :
    (shared.grantAll requests).value.engine.run.running = true ↔
      (shared.grantAll requests).value.engine.run.outcome = none := by
  induction requests generalizing shared with
  | nil => exact before.resolve_left List.not_mem_nil
  | cons request requests ih =>
    refine ih (shared.grant request).value ?_
    by_cases later : .execute ∈ requests
    · exact .inl later
    · refine .inr (shared.grant_decided request ?_)
      refine before.imp_left fun member => ?_
      exact ((List.mem_cons.mp member).resolve_right later).symm

/-- Whatever has been asked of a new engine, its count keeps to its budget, and once it was started, a
run is going on exactly as long as it has no outcome. As long as none is started, one end at most is
told, as the last thing told, and after it no walk tells or changes anything any more. -/
theorem ends_once_per_start (forest : Forest) (world : World) (limits : Limits)
    (requests : List Request) :
    let reached := ((Shared.mk forest ⟨world, { limits }⟩ []).grantAll requests).value
    (reached.engine.run.total : Int) ≤ max 0 limits.commands ∧
    (.execute ∈ requests →
      (reached.engine.run.running = true ↔ reached.engine.run.outcome = none)) ∧
    ∀ between, .execute ∉ between →
      let told := reached.grantAll between
      endings told.signals ≤ 1 ∧
      (endings told.signals = 1 → told.signals.getLast?.any Signal.isEnding = true ∧
        ∀ later, .execute ∉ later → (told.value.grantAll later).signals = [] ∧
          (told.value.grantAll later).value.engine = told.value.engine) := by
  intro reached
  have made : Budgeted limits (⟨world, { limits }⟩ : Engine) := ⟨rfl, Int.le_max_left 0 _⟩
  refine ⟨(grantAll_budgeted made requests).within,
    fun started => grantAll_decided _ requests (.inl started), ?_⟩
  intro between no_start told
  have stretch : Stretch reached.engine told.value.engine told.signals :=
    reached.grantAll_stretch no_start
  refine ⟨stretch.endings_le, fun ending => ?_⟩
  obtain ⟨last, stopped⟩ := stretch.ended ending
  refine ⟨last, fun later none_begins => ?_⟩
  obtain ⟨same, silent⟩ := (told.value.grantAll_stretch none_begins).of_stopped stopped
  exact ⟨silent, same⟩

end Shared

end Engine

/-- A second start finds the first walk halfway, which then wins; the second walk is left without a
run. -/
theorem ends_once_per_start_corridor :
    let forest : Forest := .command 1 (.turn .left) (.command 2 .forward .empty)
    let begun : Engine.Shared := ⟨forest, ⟨.ofPuzzle corridor, {}⟩, []⟩
    let reached := (begun.grantAll [.execute, .next 0, .execute]).value
    let told := reached.grantAll [.next 0]
    Engine.endings told.signals = 1 ∧
      (reached.engine.run.running = true ↔ reached.engine.run.outcome = none) ∧
      (told.value.grantAll [.next 1, .next 0, .abort]).signals = [] ∧
      (told.value.grantAll [.next 1, .next 0, .abort]).value.engine = told.value.engine := by
  intro forest begun reached told
  have won : Engine.endings told.signals = 1 := by decide +kernel
  obtain ⟨_, decided, once⟩ := Engine.Shared.ends_once_per_start forest (.ofPuzzle corridor) {}
    [.execute, .next 0, .execute]
  obtain ⟨_, after⟩ := once [.next 0] (by decide)
  exact ⟨won, decided (by decide), (after won).2 [.next 1, .next 0, .abort] (by decide)⟩

end BlockMaze
