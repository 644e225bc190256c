import BlockMaze.Proofs.Run.Yields

/-! Runs that no one can tell apart. It is enough that their walks are related, that one call of each does
the same, and that the walks stay related. -/
namespace BlockMaze.Engine

/-- Runs of two programs that no one can tell apart: every call leaves the same engine and yields the
same event, and the whole runs send the same signals in order and end in the same way. -/
structure SameRun (engine : Engine) (one other : Forest) : Prop where
  engines : ∀ calls,
    (engine.start.after (.ofForest one) calls).1 = (engine.start.after (.ofForest other) calls).1
  yields : engine.yields one = engine.yields other
  told : engine.runToEnd one = engine.runToEnd other

structure SameCall (one other : Told (Engine × Walk × Option Event)) : Prop where
  engines : one.value.1 = other.value.1
  events : one.value.2.2 = other.value.2.2
  signals : one.signals = other.signals

/-- Calls of related walks do the same and leave walks that are related again. -/
def Lockstep (related : Engine → Walk → Walk → Prop) : Prop :=
  ∀ engine one other, related engine one other → SameCall (engine.next one) (engine.next other) ∧
    related (engine.next one).value.1 (engine.next one).value.2.1 (engine.next other).value.2.1

namespace Lockstep
variable {related : Engine → Walk → Walk → Prop} {engine : Engine} {one other : Walk}

theorem after_eq (lockstep : Lockstep related) (alike : related engine one other) (count : Nat) :
    (engine.after one count).1 = (engine.after other count).1 := by
  induction count generalizing engine one other with
  | zero => rfl
  | succ count ih =>
    obtain ⟨same, still⟩ := lockstep engine one other alike
    have rest := ih still
    rw [after, after, ← same.engines]
    exact rest

theorem drainWithin_eq (lockstep : Lockstep related) (alike : related engine one other)
    (bound count : Nat) : drainWithin bound count engine one = drainWithin bound count engine other ∧
      yieldsWithin bound engine one = yieldsWithin bound engine other := by
  induction bound generalizing engine one other count with
  | zero => exact ⟨rfl, rfl⟩
  | succ bound ih =>
    obtain ⟨same, still⟩ := lockstep engine one other alike
    cases first : (engine.next one).value.2.2 with
    | none =>
      have also := same.events.symm.trans first
      rw [drainWithin_told_of_silent first, drainWithin_told_of_silent also, yieldsWithin_of_silent first,
        yieldsWithin_of_silent also, same.engines, same.signals]
      exact ⟨rfl, rfl⟩
    | some event =>
      have also := same.events.symm.trans first
      obtain ⟨drained, yields⟩ := ih still (count + 1)
      rw [drainWithin_told_of_yielding first, drainWithin_told_of_yielding also,
        yieldsWithin_of_yielding first, yieldsWithin_of_yielding also, ← same.engines, ← same.signals,
        drained, yields]
      exact ⟨rfl, rfl⟩

theorem sameRun (lockstep : Lockstep related) {one other : Forest}
    (alike : related engine.start (.ofForest one) (.ofForest other)) : SameRun engine one other := by
  refine ⟨lockstep.after_eq alike, (lockstep.drainWithin_eq alike _ 0).2, ?_⟩
  have drained := (lockstep.drainWithin_eq alike (engine.start.budget + 1) 0).1
  rw [runToEnd_eq_drainWithin one le_rfl, runToEnd_eq_drainWithin other le_rfl, drained]

end Lockstep

end BlockMaze.Engine
