import BlockMaze.Proofs.Run.Course

/-! The events that a run yields, in order: what its calls yield one after the other. Draining makes these
calls and one more, and a larger bound on the calls changes nothing. -/
namespace BlockMaze.Engine

/-- The events of the calls up to the first that yields none. -/
def yieldsWithin : Nat → Engine → Walk → List Event
  | 0, _, _ => []
  | bound + 1, engine, walk =>
    match (engine.next walk).value.2.2 with
    | some event =>
      event :: yieldsWithin bound (engine.next walk).value.1 (engine.next walk).value.2.1
    | none => []

/-- The events that a run of a program yields, from its first command to its end. -/
def yields (engine : Engine) (forest : Forest) : List Event :=
  yieldsWithin (engine.start.budget + 1) engine.start (.ofForest forest)

variable {engine : Engine} {walk : Walk}

theorem yieldsWithin_of_silent (silent : (engine.next walk).value.2.2 = none) (bound : Nat) :
    yieldsWithin bound engine walk = [] := by
  cases bound with
  | zero => rfl
  | succ bound => rw [yieldsWithin, silent]

theorem yieldsWithin_of_yielding {event : Event} (yielding : (engine.next walk).value.2.2 = some event)
    (bound : Nat) :
    yieldsWithin (bound + 1) engine walk =
      event :: yieldsWithin bound (engine.next walk).value.1 (engine.next walk).value.2.1 := by
  rw [yieldsWithin, yielding]

theorem drainWithin_told_of_silent (silent : (engine.next walk).value.2.2 = none) (bound count : Nat) :
    drainWithin (bound + 1) count engine walk =
      ⟨((engine.next walk).value.1, count), (engine.next walk).signals⟩ := by
  have value := drainWithin_of_silent silent bound count
  have signals : (drainWithin (bound + 1) count engine walk).signals = (engine.next walk).signals := by
    simp only [drainWithin, Told.signals_bind, silent, Option.isSome_none, Bool.false_eq_true, if_false]
    exact List.append_nil _
  rw [← value, ← signals]

theorem drainWithin_told_of_yielding {event : Event}
    (yielding : (engine.next walk).value.2.2 = some event) (bound count : Nat) :
    drainWithin (bound + 1) count engine walk =
      let rest := drainWithin bound (count + 1) (engine.next walk).value.1 (engine.next walk).value.2.1
      ⟨rest.value, (engine.next walk).signals ++ rest.signals⟩ := by
  have some_event : (engine.next walk).value.2.2.isSome = true := by rw [yielding]; rfl
  have value := drainWithin_of_yielding some_event bound count
  have signals : (drainWithin (bound + 1) count engine walk).signals = (engine.next walk).signals ++
      (drainWithin bound (count + 1) (engine.next walk).value.1
        (engine.next walk).value.2.1).signals := by
    simp only [drainWithin, Told.signals_bind, some_event, if_true]
  dsimp only
  rw [← value, ← signals]

theorem drainWithin_of_stopped (stopped : engine.run.running = false) (bound count : Nat) (walk : Walk) :
    drainWithin bound count engine walk = ⟨(engine, count), []⟩ := by
  cases bound with
  | zero => rfl
  | succ bound => rw [drainWithin_told_of_silent] <;> rw [next_of_stopped stopped]

theorem drainWithin_of_ended (ended : (engine.next walk).value.1.run.running = false) (bound count : Nat) :
    ∃ yields, drainWithin (bound + 1) count engine walk =
      ⟨((engine.next walk).value.1, yields), (engine.next walk).signals⟩ := by
  cases event : (engine.next walk).value.2.2 with
  | none => exact ⟨count, drainWithin_told_of_silent event bound count⟩
  | some event =>
    refine ⟨count + 1, ?_⟩
    rw [drainWithin_told_of_yielding event, drainWithin_of_stopped ended]
    exact congrArg (Told.mk _) (List.append_nil _)

theorem drainWithin_signals {allowed : Signal → Prop}
    (told : ∀ engine walk, ∀ signal ∈ (next engine walk).signals, allowed signal) (bound count : Nat)
    (engine : Engine) (walk : Walk) :
    ∀ signal ∈ (drainWithin bound count engine walk).signals, allowed signal := by
  induction bound generalizing count engine walk with
  | zero => exact fun signal member => absurd member List.not_mem_nil
  | succ bound ih =>
    cases event : (engine.next walk).value.2.2 with
    | none =>
      rw [drainWithin_told_of_silent event]
      exact told engine walk
    | some event =>
      rw [drainWithin_told_of_yielding event]
      intro signal member
      rcases List.mem_append.mp member with now | later
      · exact told engine walk signal now
      · exact ih _ _ _ signal later

theorem yielded_of_stopped (stopped : engine.run.running = false) (walk : Walk) (count : Nat) :
    engine.yielded walk count = none := by
  induction count generalizing walk with
  | zero =>
    change (engine.next walk).value.2.2 = none
    rw [next_of_stopped stopped]
  | succ count ih =>
    change ((engine.next walk).value.1).yielded (engine.next walk).value.2.1 count = none
    rw [next_of_stopped stopped]
    exact ih .spent

theorem Drained.yieldsWithin_getElem? {yields bound : Nat} (drained : Drained engine walk yields)
    (enough : yields ≤ bound) (count : Nat) :
    (yieldsWithin (bound + 1) engine walk)[count]? = engine.yielded walk count := by
  induction yields generalizing engine walk bound count with
  | zero =>
    have silent : (engine.next walk).value.2.2 = none := drained.silent
    have stopped : (engine.next walk).value.1.run.running = false := drained.stopped
    rw [yieldsWithin_of_silent silent, List.getElem?_nil]
    cases count with
    | zero => exact silent.symm
    | succ count => exact (yielded_of_stopped stopped _ count).symm
  | succ yields ih =>
    obtain ⟨bound, rfl⟩ : ∃ less, bound = less + 1 := ⟨bound - 1, by omega⟩
    obtain ⟨event, first⟩ := Option.isSome_iff_exists.mp (drained.yielding 0 (by omega))
    have yielding : (engine.next walk).value.2.2 = some event := first
    rw [yieldsWithin_of_yielding yielding]
    cases count with
    | zero => exact yielding.symm
    | succ count => exact ih drained.tail (by omega) count

/-- The events of a run are what its calls yield one after the other, and none after them. -/
theorem yields_getElem? (engine : Engine) (forest : Forest) (count : Nat) :
    (engine.yields forest)[count]? = engine.start.yielded (.ofForest forest) count := by
  obtain ⟨yields, bounded, drained, _⟩ := exists_drained (consistent_start engine forest)
  exact drained.yieldsWithin_getElem? bounded count

theorem drainWithin_of_enough (consistent : Consistent engine walk) {bound : Nat}
    (enough : engine.budget ≤ bound) (count : Nat) :
    drainWithin (bound + 1) count engine walk = drainWithin (engine.budget + 1) count engine walk ∧
      yieldsWithin (bound + 1) engine walk = yieldsWithin (engine.budget + 1) engine walk := by
  induction left : engine.budget generalizing engine walk bound count with
  | zero =>
    rcases next_cases consistent with ⟨silent, _⟩ | ⟨command, _, unspent, _⟩
    · rw [drainWithin_told_of_silent silent, drainWithin_told_of_silent silent,
        yieldsWithin_of_silent silent, yieldsWithin_of_silent silent]
      exact ⟨rfl, rfl⟩
    · have fewer := budget_obeyed unspent command .moved
      omega
  | succ left ih =>
    rcases next_cases consistent with ⟨silent, _⟩ | ⟨command, _, unspent, event, same⟩
    · rw [drainWithin_told_of_silent silent, drainWithin_told_of_silent silent,
        yieldsWithin_of_silent silent, yieldsWithin_of_silent silent]
      exact ⟨rfl, rfl⟩
    · obtain ⟨bound, rfl⟩ : ∃ less, bound = less + 1 := ⟨bound - 1, by omega⟩
      have fewer := budget_obeyed unspent command (engine.world.apply command).1
      rw [← same] at fewer
      have covered : (engine.next walk).value.1.budget ≤ bound := by omega
      have rest := ih consistent.next covered (count + 1) (by omega)
      rw [drainWithin_told_of_yielding event, drainWithin_told_of_yielding event, rest.1,
        yieldsWithin_of_yielding event, yieldsWithin_of_yielding event, rest.2]
      exact ⟨rfl, rfl⟩

theorem runToEnd_eq_drainWithin (forest : Forest) {bound : Nat} (enough : engine.start.budget ≤ bound) :
    engine.runToEnd forest =
      ⟨(drainWithin (bound + 1) 0 engine.start (.ofForest forest)).value.1,
        (drainWithin (bound + 1) 0 engine.start (.ofForest forest)).signals⟩ := by
  rw [(drainWithin_of_enough (consistent_start engine forest) enough 0).1]
  simp [runToEnd, drain, bind, pure]

theorem yields_eq_yieldsWithin (forest : Forest) {bound : Nat} (enough : engine.start.budget ≤ bound) :
    engine.yields forest = yieldsWithin (bound + 1) engine.start (.ofForest forest) :=
  (drainWithin_of_enough (consistent_start engine forest) enough 0).2.symm

theorem yieldsWithin_take {calls bound : Nat} (fewer : calls ≤ bound) (engine : Engine) (walk : Walk) :
    (yieldsWithin bound engine walk).take calls = yieldsWithin calls engine walk := by
  induction calls generalizing engine walk bound with
  | zero => rfl
  | succ calls ih =>
    obtain ⟨bound, rfl⟩ : ∃ less, bound = less + 1 := ⟨bound - 1, by omega⟩
    cases yielding : (engine.next walk).value.2.2 with
    | none => rw [yieldsWithin_of_silent yielding, yieldsWithin_of_silent yielding, List.take_nil]
    | some event =>
      rw [yieldsWithin_of_yielding yielding, yieldsWithin_of_yielding yielding, List.take_succ_cons,
        ih (Nat.le_of_succ_le_succ fewer)]

/-- So many calls of a run yield the first so many of its events, or all if it has no more. -/
theorem yields_take (engine : Engine) (forest : Forest) (calls : Nat) :
    (engine.yields forest).take calls = yieldsWithin calls engine.start (.ofForest forest) := by
  have covered : engine.start.budget ≤ max calls engine.start.budget := Nat.le_max_right _ _
  have within : calls ≤ max calls engine.start.budget + 1 := Nat.le_succ_of_le (Nat.le_max_left _ _)
  rw [yields_eq_yieldsWithin forest covered, yieldsWithin_take within]

end BlockMaze.Engine
