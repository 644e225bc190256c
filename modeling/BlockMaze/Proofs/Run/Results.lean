import BlockMaze.Curriculum
import BlockMaze.Proofs.Run.Shared

/-! The result of a run, as the news of its end gives it: whether the run was won and how many moves it
made. -/
namespace BlockMaze

def Signal.result? : Signal → Option Attempt
  | .event (.won moves) => some ⟨true, moves⟩
  | .event (.lost _ moves) => some ⟨false, moves⟩
  | _ => none

def results (signals : List Signal) : List Attempt := signals.filterMap Signal.result?

@[simp] theorem results_nil : results [] = [] := rfl

@[simp] theorem results_board (board : Snapshot) : results [.board board] = [] := rfl

@[simp] theorem results_append (signals others : List Signal) :
    results (signals ++ others) = results signals ++ results others := List.filterMap_append

theorem results_eq_nil_iff {signals : List Signal} :
    results signals = [] ↔ ∀ signal ∈ signals, signal.result? = none := List.filterMap_eq_nil_iff

theorem result?_eq_none_iff {signal : Signal} : signal.result? = none ↔ signal.isEnding = false := by
  rcases signal with (_ | _ | _ | _ | _ | _) | _ | _ <;> simp [Signal.result?, Signal.isEnding]

theorem results_eq_nil_of_endings {signals : List Signal} (none_ends : Engine.endings signals = 0) :
    results signals = [] := by
  rw [Engine.endings, List.countP_eq_zero] at none_ends
  exact results_eq_nil_iff.mpr fun signal member =>
    result?_eq_none_iff.mpr (Bool.eq_false_iff.mpr (none_ends signal member))

namespace Engine

def result (engine : Engine) : Attempt := ⟨engine.run.outcome = some .won, engine.world.moves⟩

def resultsOfEnd (engine : Engine) : List Attempt :=
  if engine.run.running then [] else [engine.result]

variable {engine : Engine}

theorem settled_results (running : engine.run.running = true) (result : StepResult) :
    results (engine.settled result).signals = (engine.settled result).value.resultsOfEnd := by
  by_cases won : result = .won
  · rw [settled_of_won won]
    rfl
  · by_cases limited : engine.world.puzzle.moveLimit ≤ engine.world.moves
    · rw [settled_of_limit won limited]
      rfl
    · rw [settled_of_below won limited, resultsOfEnd, if_pos running, results_nil]

/-- A call tells the result of a run exactly if it ends the run. -/
theorem next_results (running : engine.run.running = true) (walk : Walk) :
    results (engine.next walk).signals = (engine.next walk).value.1.resultsOfEnd := by
  rcases next_idle_or_advance engine walk with idle | ⟨_, stack, advance⟩
  · rw [idle, resultsOfEnd, if_pos running, results_nil]
  · generalize engine.next walk = told at advance
    cases advance with
    | commandLimit command after found spent => rfl
    | passLimit found => rfl
    | arrived found there => rfl
    | away found elsewhere => rfl
    | obeyed command after found unspent =>
      have goes_on : (engine.obeyed command).run.running = true := running
      have silent := results_eq_nil_of_endings (endings_commandSignals engine command)
      change results (engine.commandSignals command ++ _) = _
      rw [results_append, silent, settled_results goes_on]
      rfl

theorem abort_results (running : engine.run.running = true) :
    engine.abort.value = engine.ended .lost (some .aborted) ∧
      results engine.abort.signals = [⟨false, engine.world.moves⟩] := by
  rw [abort, finish_lost running]
  exact ⟨rfl, rfl⟩

end Engine

end BlockMaze
