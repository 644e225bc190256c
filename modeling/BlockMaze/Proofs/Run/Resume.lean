import BlockMaze.Proofs.Run.Budget

/-! Where a walk that is taken up again asks whether the run is still going on: before every block, every
pass and every round, and once more at its end. No answer changes during one call, so that a single
question before the search does the same. -/
namespace BlockMaze

theorem Frame.weight_pos (cap : Nat) (frame : Frame) : 0 < frame.weight cap := by
  cases frame with
  | rest blocks => exact blocks.weight_pos cap
  | again left body => exact Nat.succ_pos _
  | loop predicate made body => exact Nat.succ_pos _

namespace Engine
variable {engine : Engine}

/-- One step of control that asks first and, once the run is over, leaves what it is inside of. Blocks
or passes of which none is left are left without asking. -/
def ask (engine : Engine) : Stack → Unwound
  | [] => .found .finished
  | .rest .empty :: below => .onto below
  | .again 0 _ :: below => .onto below
  | frame :: below => if engine.run.running then engine.unwind (frame :: below) else .onto below

theorem ask_of_running (running : engine.run.running = true) (stack : Stack) :
    engine.ask stack = engine.unwind stack := by
  unfold ask
  split
  · rfl
  · rfl
  · rfl
  · exact if_pos running

theorem ask_of_stopped (stopped : engine.run.running = false) (frame : Frame) (below : Stack) :
    engine.ask (frame :: below) = .onto below := by
  unfold ask
  split <;> simp_all

theorem ask_weight {stack next : Stack} (step : engine.ask stack = .onto next) :
    next.weight engine.run.limits.passes.toNat < stack.weight engine.run.limits.passes.toNat := by
  cases running : engine.run.running with
  | true => exact unwind_weight (ask_of_running running stack ▸ step)
  | false =>
    cases stack with
    | nil => cases step
    | cons frame below =>
      rw [ask_of_stopped running] at step
      cases step
      have positive := frame.weight_pos engine.run.limits.passes.toNat
      simp only [Stack.weight]
      omega

def seekAsking (engine : Engine) (stack : Stack) : Found :=
  match _step : engine.ask stack with
  | .onto next => engine.seekAsking next
  | .found result => result
  termination_by stack.weight engine.run.limits.passes.toNat
  decreasing_by exact ask_weight ‹_›

/-- Goes on as `next` does, with every question asked where it arises. -/
def resume (engine : Engine) : Walk → Told (Engine × Walk × Option Event)
  | .spent => pure (engine, .spent, none)
  | .pending stack =>
    match engine.seekAsking stack with
    | .finished =>
      if engine.run.running then engine.follow .finished else pure (engine, .spent, none)
    | found => engine.follow found

theorem seekAsking_of_running (running : engine.run.running = true) (stack : Stack) :
    engine.seekAsking stack = engine.seek stack := by
  fun_induction seekAsking engine stack with
  | case1 stack next step ih => exact ih.trans (seek_of_onto (ask_of_running running stack ▸ step)).symm
  | case2 stack result step => exact (seek_of_found (ask_of_running running stack ▸ step)).symm

theorem seekAsking_of_stopped (stopped : engine.run.running = false) (stack : Stack) :
    engine.seekAsking stack = .finished := by
  fun_induction seekAsking engine stack with
  | case1 stack next step ih => exact ih
  | case2 stack result step =>
    cases stack with
    | nil => exact (Unwound.found.inj step).symm
    | cons frame below =>
      rw [ask_of_stopped stopped] at step
      cases step

/-- Wherever a walk was left, asking at each step or once before the search comes to the same. -/
theorem resume_eq_next (engine : Engine) (walk : Walk) : engine.resume walk = engine.next walk := by
  cases walk with
  | spent => rfl
  | pending stack =>
    cases running : engine.run.running with
    | true =>
      have asked : (if engine.run.running then engine.follow .finished else pure (engine, .spent, none)) =
          engine.follow .finished := if_pos running
      rw [resume, seekAsking_of_running running, asked, next, if_pos running]
      cases engine.seek stack <;> rfl
    | false =>
      rw [resume, seekAsking_of_stopped running, next_of_not_running running]
      exact if_neg (by simp [running])

end Engine

end BlockMaze
