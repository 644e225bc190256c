import BlockMaze.Proofs.Run.Budget
import BlockMaze.Proofs.Run.Yields

/-! Limits only cut a run short. Under larger limits a run goes the same way up to the call at which the
smaller ones end it, and all the way if they never do. -/
namespace BlockMaze

structure Limits.Within (less more : Limits) : Prop where
  commands : less.commands ≤ more.commands
  passes : less.passes ≤ more.passes

namespace Engine
variable {engine other : Engine} {more : Limits}

def Permits (engine : Engine) (made : Nat) : Prop :=
  (made : Int) < engine.run.limits.passes ∧ ¬ engine.exhausted = true

theorem unwind_of_permits (same : other.world = engine.world)
    (permits : ∀ made, engine.Permits made → other.Permits made) {stack : Stack}
    (allowed : engine.unwind stack ≠ .found .passLimit) : other.unwind stack = engine.unwind stack := by
  unfold unwind at allowed ⊢
  split
  case h_8 predicate made body below =>
    rw [same]
    by_cases holds : engine.world.check predicate = true
    · rw [if_pos holds, if_pos holds]
    · simp only [if_neg holds] at allowed ⊢
      have permitted : engine.Permits made := by
        refine Classical.byContradiction fun refused => allowed ?_
        unfold Permits at refused
        rw [if_neg refused]
      have also := permits made permitted
      unfold Permits at permitted also
      rw [if_pos permitted, if_pos also]
  all_goals rfl

theorem seek_of_permits (same : other.world = engine.world)
    (permits : ∀ made, engine.Permits made → other.Permits made) {stack : Stack}
    (allowed : engine.seek stack ≠ .passLimit) : other.seek stack = engine.seek stack := by
  obtain ⟨steps, -, unwinds⟩ := exists_unwinds engine stack
  generalize engine.seek stack = result at allowed unwinds
  induction unwinds with
  | found step =>
    have first := unwind_of_permits same permits
      (by rw [step]; exact fun limit => allowed (Unwound.found.inj limit))
    exact seek_of_found (first.trans step)
  | onto step _ ih =>
    have first := unwind_of_permits same permits (by rw [step]; exact fun limit => by cases limit)
    exact (seek_of_onto (first.trans step)).trans (ih allowed)

theorem seek_of_permits_iff (same : other.world = engine.world)
    (permits : ∀ made, engine.Permits made ↔ other.Permits made) (stack : Stack) :
    other.seek stack = engine.seek stack := by
  by_cases allowed : engine.seek stack = .passLimit
  · by_cases also : other.seek stack = .passLimit
    · rw [allowed, also]
    · exact (seek_of_permits same.symm (fun made => (permits made).mpr) also).symm
  · exact seek_of_permits same (fun made => (permits made).mp) allowed

def withLimits (limits : Limits) (engine : Engine) : Engine :=
  { engine with run := { engine.run with limits } }

theorem exhausted_withLimits (less : engine.run.limits.Within more) (unspent : engine.exhausted = false) :
    (engine.withLimits more).exhausted = false := by
  have affordable : ¬ engine.run.limits.commands ≤ engine.run.total := of_decide_eq_false unspent
  have commands := less.commands
  refine decide_eq_false ?_
  change ¬ more.commands ≤ engine.run.total
  omega

theorem permits_withLimits (less : engine.run.limits.Within more) (made : Nat)
    (permits : engine.Permits made) : (engine.withLimits more).Permits made := by
  have unspent := exhausted_withLimits less (by simpa using permits.2)
  exact ⟨lt_of_lt_of_le permits.1 less.passes, by simp [unspent]⟩

theorem permits_withLimits_iff (less : engine.run.limits.Within more)
    (passes : more.passes = engine.run.limits.passes) (unspent : engine.exhausted = false) (made : Nat) :
    engine.Permits made ↔ (engine.withLimits more).Permits made := by
  refine ⟨permits_withLimits less made, fun permits => ⟨?_, by simp [unspent]⟩⟩
  exact passes ▸ permits.1

theorem seek_withLimits (less : engine.run.limits.Within more) {stack : Stack}
    (allowed : engine.seek stack ≠ .passLimit) :
    (engine.withLimits more).seek stack = engine.seek stack := by
  have same : (engine.withLimits more).world = engine.world := rfl
  exact seek_of_permits same (permits_withLimits less) allowed

theorem seek_withLimits_of_unspent (less : engine.run.limits.Within more)
    (passes : more.passes = engine.run.limits.passes) (unspent : engine.exhausted = false)
    (stack : Stack) : (engine.withLimits more).seek stack = engine.seek stack := by
  have same : (engine.withLimits more).world = engine.world := rfl
  exact seek_of_permits_iff same (permits_withLimits_iff less passes unspent) stack

def relimited (limits : Limits) (told : Told (Engine × Walk × Option Event)) :
    Told (Engine × Walk × Option Event) :=
  ⟨(told.value.1.withLimits limits, told.value.2), told.signals⟩

theorem settled_withLimits (engine : Engine) (more : Limits) (result : StepResult) :
    (engine.withLimits more).settled result =
      ⟨(engine.settled result).value.withLimits more, (engine.settled result).signals⟩ := by
  unfold settled
  split
  · rfl
  · change (if engine.world.puzzle.moveLimit ≤ engine.world.moves then _ else _) = _
    split <;> rfl

theorem Advance.withLimits {stack : Stack} {told : Told (Engine × Walk × Option Event)}
    (advance : Advance engine stack told) (less : engine.run.limits.Within more)
    (found : (engine.withLimits more).seek stack = engine.seek stack)
    (affordable : ∀ command after, engine.seek stack = .command command after →
      engine.exhausted = false) :
    Advance (engine.withLimits more) stack (relimited more told) := by
  cases advance with
  | commandLimit command after here spent => cases (affordable command after here).symm.trans spent
  | passLimit here => exact .passLimit (found.trans here)
  | arrived here there => exact .arrived (found.trans here) there
  | away here elsewhere => exact .away (found.trans here) elsewhere
  | obeyed command after here unspent =>
    have settled := (engine.obeyed command).settled_withLimits more (engine.world.apply command).1
    have obeyed := Advance.obeyed command after (found.trans here) (exhausted_withLimits less unspent)
    change Advance _ stack
      ⟨((((engine.obeyed command).withLimits more).settled (engine.world.apply command).1).value, _),
        engine.commandSignals command ++
          (((engine.obeyed command).withLimits more).settled (engine.world.apply command).1).signals⟩
      at obeyed
    rwa [settled] at obeyed

/-- A call that ends the run as one of its two budgets is spent. -/
structure CutShort (told : Told (Engine × Walk × Option Event)) : Prop where
  silent : told.value.2.2 = none
  stopped : told.value.1.run.running = false
  lost : told.value.1.run.outcome = some .lost
  reason : told.value.1.run.reason = some .commandLimit ∨ told.value.1.run.reason = some .conditionLimit

theorem next_withLimits_of_not_running (stopped : engine.run.running = false) (walk : Walk) :
    (engine.withLimits more).next walk = relimited more (engine.next walk) := by
  have also : (engine.withLimits more).run.running = false := stopped
  rw [next_of_stopped stopped, next_of_stopped also]
  rfl

/-- Under larger limits a call does the same, unless it is cut short by the smaller ones. -/
theorem next_withLimits (less : engine.run.limits.Within more) (walk : Walk) :
    (engine.withLimits more).next walk = relimited more (engine.next walk) ∨
      CutShort (engine.next walk) := by
  cases walk with
  | spent => exact .inl rfl
  | pending stack =>
    cases running : engine.run.running with
    | false => exact .inl (next_withLimits_of_not_running running _)
    | true =>
      have going : (engine.withLimits more).run.running = true := running
      have advance := next_advance running stack
      have same {result : Found} (here : engine.seek stack = result) (allowed : result ≠ .passLimit) :
          (engine.withLimits more).seek stack = engine.seek stack :=
        seek_withLimits less (by rw [here]; exact allowed)
      generalize engine.next (.pending stack) = told at advance ⊢
      cases advance with
      | commandLimit command after here spent => exact .inr ⟨rfl, rfl, rfl, .inl rfl⟩
      | passLimit here => exact .inr ⟨rfl, rfl, rfl, .inr rfl⟩
      | arrived here there =>
        exact .inl ((Advance.arrived ((same here (by simp)).trans here) there).next_eq going)
      | away here elsewhere =>
        exact .inl ((Advance.away ((same here (by simp)).trans here) elsewhere).next_eq going)
      | obeyed command after here unspent =>
        have obeyed := Advance.obeyed command after here unspent
        exact .inl ((obeyed.withLimits less (same here (by simp)) fun _ _ _ => unspent).next_eq going)

theorem next_withLimits_of_unspent (less : engine.run.limits.Within more)
    (passes : more.passes = engine.run.limits.passes) (unspent : engine.exhausted = false)
    (walk : Walk) : (engine.withLimits more).next walk = relimited more (engine.next walk) := by
  cases walk with
  | spent => rfl
  | pending stack =>
    cases running : engine.run.running with
    | false => exact next_withLimits_of_not_running running _
    | true =>
      have found := seek_withLimits_of_unspent less passes unspent stack
      exact ((next_advance running stack).withLimits less found fun _ _ _ => unspent).next_eq running

theorem Consistent.next_limits {walk : Walk} (consistent : Consistent engine walk) :
    (engine.next walk).value.1.run.limits = engine.run.limits := by
  rcases next_cases consistent with ⟨_, _, _, _, same⟩ | ⟨command, _, _, _, same⟩
  · exact same
  · rw [same, settled_limits]
    rfl

theorem yieldsWithin_prefix {walk : Walk} (consistent : Consistent engine walk)
    (less : engine.run.limits.Within more) (bound : Nat) :
    yieldsWithin bound engine walk <+: yieldsWithin bound (engine.withLimits more) walk := by
  induction bound generalizing engine walk with
  | zero => exact List.prefix_rfl
  | succ bound ih =>
    cases first : (engine.next walk).value.2.2 with
    | none => rw [yieldsWithin_of_silent first]; exact List.nil_prefix
    | some event =>
      rcases next_withLimits less walk with same | cut
      · have also : ((engine.withLimits more).next walk).value.2.2 = some event := by rw [same]; exact first
        rw [yieldsWithin_of_yielding first, yieldsWithin_of_yielding also, same]
        have rest := ih consistent.next (consistent.next_limits.symm ▸ less)
        exact List.cons_prefix_cons.mpr ⟨rfl, rest⟩
      · cases cut.silent.symm.trans first

theorem yieldsWithin_eq_take {walk : Walk} (consistent : Consistent engine walk)
    (less : engine.run.limits.Within more) (passes : more.passes = engine.run.limits.passes)
    (bound : Nat) : yieldsWithin bound engine walk =
      (yieldsWithin bound (engine.withLimits more) walk).take engine.budget := by
  induction bound generalizing engine walk with
  | zero => exact (List.take_nil).symm
  | succ bound ih =>
    cases unspent : engine.exhausted with
    | true =>
      have nothing : engine.budget = 0 := by
        have spent := of_decide_eq_true unspent
        simp only [budget]
        omega
      rcases next_cases consistent with ⟨silent, _⟩ | ⟨_, _, affordable, _⟩
      · rw [yieldsWithin_of_silent silent, nothing, List.take_zero]
      · cases unspent.symm.trans affordable
    | false =>
      have same := next_withLimits_of_unspent less passes unspent walk
      rcases next_cases consistent with ⟨silent, _⟩ | ⟨command, _, _, event, obeyed⟩
      · have also : ((engine.withLimits more).next walk).value.2.2 = none := by rw [same]; exact silent
        rw [yieldsWithin_of_silent silent, yieldsWithin_of_silent also, List.take_nil]
      · have also : ((engine.withLimits more).next walk).value.2.2 = some (engine.eventOf command) := by
          rw [same]; exact event
        have fewer := budget_obeyed unspent command (engine.world.apply command).1
        rw [← obeyed] at fewer
        have limits := consistent.next_limits
        have rest := ih consistent.next (limits.symm ▸ less) (by rw [limits]; exact passes)
        rw [yieldsWithin_of_yielding event, yieldsWithin_of_yielding also, ← fewer, List.take_succ_cons,
          same, rest]
        rfl

/-- A run that was won, or lost for another reason than a spent budget. -/
def Uncut (engine : Engine) : Prop :=
  engine.run.outcome = some .won ∨
    engine.run.reason ≠ some .commandLimit ∧ engine.run.reason ≠ some .conditionLimit

theorem CutShort.not_uncut {told : Told (Engine × Walk × Option Event)} (cut : CutShort told) :
    ¬ told.value.1.Uncut := by
  rintro (won | ⟨affordable, permitted⟩)
  · cases cut.lost.symm.trans won
  · exact cut.reason.elim affordable permitted

theorem drainWithin_withLimits {walk : Walk} (consistent : Consistent engine walk)
    (less : engine.run.limits.Within more) (bound count : Nat)
    (uncut : (drainWithin bound count engine walk).value.1.Uncut) :
    drainWithin bound count (engine.withLimits more) walk =
      ⟨((drainWithin bound count engine walk).value.1.withLimits more,
        (drainWithin bound count engine walk).value.2), (drainWithin bound count engine walk).signals⟩ ∧
    yieldsWithin bound (engine.withLimits more) walk = yieldsWithin bound engine walk := by
  induction bound generalizing engine walk count with
  | zero => exact ⟨rfl, rfl⟩
  | succ bound ih =>
    rcases next_withLimits less walk with same | cut
    · cases first : (engine.next walk).value.2.2 with
      | none =>
        have also : ((engine.withLimits more).next walk).value.2.2 = none := by rw [same]; exact first
        rw [drainWithin_told_of_silent first, drainWithin_told_of_silent also,
          yieldsWithin_of_silent first, yieldsWithin_of_silent also, same]
        exact ⟨rfl, rfl⟩
      | some event =>
        have also : ((engine.withLimits more).next walk).value.2.2 = some event := by rw [same]; exact first
        rw [drainWithin_told_of_yielding first] at uncut
        obtain ⟨drained, yields⟩ := ih consistent.next (consistent.next_limits.symm ▸ less) (count + 1) uncut
        rw [drainWithin_told_of_yielding first, drainWithin_told_of_yielding also,
          yieldsWithin_of_yielding first, yieldsWithin_of_yielding also, same, ← yields]
        refine ⟨?_, rfl⟩
        simp only [relimited, drained]
    · rw [drainWithin_told_of_silent cut.silent] at uncut
      exact absurd uncut cut.not_uncut

theorem budget_start_withLimits (engine : Engine) (limits : Limits) :
    (engine.withLimits limits).start.budget = limits.commands.toNat := by
  change (limits.commands - ((0 : Nat) : Int)).toNat = _
  simp

variable {commands moreCommands passes morePasses : Int}

theorem yields_eq_take (engine : Engine) (forest : Forest) (fewer : commands ≤ moreCommands) :
    (engine.withLimits ⟨commands, passes⟩).yields forest =
      ((engine.withLimits ⟨moreCommands, passes⟩).yields forest).take commands.toNat := by
  have covered : (engine.withLimits ⟨commands, passes⟩).start.budget ≤ moreCommands.toNat := by
    rw [budget_start_withLimits]
    exact Int.toNat_le_toNat fewer
  have also := (budget_start_withLimits engine ⟨moreCommands, passes⟩).le
  have less : (engine.withLimits ⟨commands, passes⟩).start.run.limits.Within ⟨moreCommands, passes⟩ :=
    ⟨fewer, le_refl passes⟩
  have begun := consistent_start (engine.withLimits ⟨commands, passes⟩) forest
  have taken := yieldsWithin_eq_take begun less rfl (moreCommands.toNat + 1)
  rw [budget_start_withLimits] at taken
  rw [yields_eq_yieldsWithin forest covered, yields_eq_yieldsWithin forest also]
  exact taken

theorem yields_prefix (engine : Engine) (forest : Forest) (less : passes ≤ morePasses) :
    (engine.withLimits ⟨commands, passes⟩).yields forest <+:
      (engine.withLimits ⟨commands, morePasses⟩).yields forest := by
  have begun := consistent_start (engine.withLimits ⟨commands, passes⟩) forest
  have within : (engine.withLimits ⟨commands, passes⟩).start.run.limits.Within ⟨commands, morePasses⟩ :=
    ⟨le_refl commands, less⟩
  exact yieldsWithin_prefix begun within _

theorem runToEnd_of_uncut (engine : Engine) (forest : Forest) (fewer : commands ≤ moreCommands)
    (less : passes ≤ morePasses)
    (uncut : ((engine.withLimits ⟨commands, passes⟩).runToEnd forest).value.Uncut) :
    (engine.withLimits ⟨moreCommands, morePasses⟩).runToEnd forest =
      ⟨((engine.withLimits ⟨commands, passes⟩).runToEnd forest).value.withLimits
          ⟨moreCommands, morePasses⟩,
        ((engine.withLimits ⟨commands, passes⟩).runToEnd forest).signals⟩ ∧
    (engine.withLimits ⟨moreCommands, morePasses⟩).yields forest =
      (engine.withLimits ⟨commands, passes⟩).yields forest := by
  have covered : (engine.withLimits ⟨commands, passes⟩).start.budget ≤ moreCommands.toNat := by
    rw [budget_start_withLimits]
    exact Int.toNat_le_toNat fewer
  have also := (budget_start_withLimits engine ⟨moreCommands, morePasses⟩).le
  have within : (engine.withLimits ⟨commands, passes⟩).start.run.limits.Within
      ⟨moreCommands, morePasses⟩ := ⟨fewer, less⟩
  have begun := consistent_start (engine.withLimits ⟨commands, passes⟩) forest
  rw [runToEnd_eq_drainWithin forest covered] at uncut ⊢
  obtain ⟨drained, yields⟩ := drainWithin_withLimits begun within (moreCommands.toNat + 1) 0 uncut
  rw [runToEnd_eq_drainWithin forest also, yields_eq_yieldsWithin forest covered,
    yields_eq_yieldsWithin forest also]
  exact ⟨congrArg (fun told => Told.mk told.value.1 told.signals) drained, yields⟩

/-- Limits only cut runs short. Under any of them a run yields what its calls yield in turn. A budget of commands keeps so many of the events that a larger one
yields; fewer passes keep a beginning of them; and a run that neither limit ended is the same under
larger ones, in its events, its signals and all that it leaves behind. -/
theorem limits_only_cut_short (engine : Engine) (forest : Forest) (fewer : commands ≤ moreCommands)
    (less : passes ≤ morePasses) :
    let under (commands passes : Int) : Engine := engine.withLimits ⟨commands, passes⟩
    (∀ commands passes count, ((under commands passes).yields forest)[count]? =
      (under commands passes).start.yielded (.ofForest forest) count) ∧
    (under commands passes).yields forest =
      ((under moreCommands passes).yields forest).take commands.toNat ∧
    (under commands passes).yields forest <+: (under commands morePasses).yields forest ∧
    (let cut := (under commands passes).runToEnd forest
     let full := (under moreCommands morePasses).runToEnd forest
     cut.value.run.outcome = some .won ∨
       cut.value.run.reason ≠ some .commandLimit ∧ cut.value.run.reason ≠ some .conditionLimit →
     (under moreCommands morePasses).yields forest = (under commands passes).yields forest ∧
       full.signals = cut.signals ∧ full.value.world = cut.value.world ∧
       full.value.run.outcome = cut.value.run.outcome ∧ full.value.run.reason = cut.value.run.reason ∧
       full.value.run.total = cut.value.run.total) := by
  intro under
  refine ⟨fun commands passes => yields_getElem? (under commands passes) forest,
    yields_eq_take engine forest fewer, yields_prefix engine forest less, ?_⟩
  intro cut full uncut
  obtain ⟨same, yields⟩ := runToEnd_of_uncut engine forest fewer less uncut
  have told : full = ⟨cut.value.withLimits ⟨moreCommands, morePasses⟩, cut.signals⟩ := same
  refine ⟨yields, ?_⟩
  rw [told]
  exact ⟨rfl, rfl, rfl, rfl, rfl⟩

end Engine

/-- A run that is won by its sixth and last command, in the one pass allowed. -/
theorem limits_only_cut_short_corridor :
    let engine : Engine := ⟨.ofPuzzle corridor, {}⟩
    let forest : Forest := .guarded 1 .atGoal
      (.repeated 2 3 (.command 3 (.turn .left) .empty) (.command 4 (.turn .right)
        (.command 5 (.turn .right) (.command 6 .forward .empty)))) .empty
    let cut := (engine.withLimits ⟨6, 1⟩).runToEnd forest
    let full := (engine.withLimits ⟨500, 200⟩).runToEnd forest
    (6 : Int) ≤ 500 ∧ (1 : Int) ≤ 200 ∧ cut.value.run.outcome = some .won ∧
      full.signals = cut.signals ∧ full.value.run.total = 6 ∧
      (engine.withLimits ⟨6, 1⟩).yields forest = ((engine.withLimits ⟨500, 1⟩).yields forest).take 6 := by
  intro engine forest cut full
  have won : cut.value.run.outcome = some .won := by decide +kernel
  have total : cut.value.run.total = 6 := by decide +kernel
  obtain ⟨_, taken, _, same⟩ := engine.limits_only_cut_short forest
    (by decide : (6 : Int) ≤ 500) (by decide : (1 : Int) ≤ 200)
  obtain ⟨_, signals, _, _, _, counted⟩ := same (.inl won)
  exact ⟨by decide, by decide, won, signals, counted.trans total, taken⟩

end BlockMaze
