import BlockMaze.Curriculum
import BlockMaze.Proofs.Report.Act

/-! How progress moves on. A progress whose index is a place in its sequence keeps it there: the next
mode opens only before the last, and after it the player is locked out for good. -/
namespace BlockMaze

theorem itemAt_of_lt {α : Type} {items : List α} {place : Int} (low : 0 ≤ place)
    (high : place < items.length) (short : (items.length : Int) ≤ wordLimit) :
    ∃ item, itemAt items place = .ok item := by
  have index : place.toNat < items.length := by omega
  refine ⟨items[place.toNat], ?_⟩
  have fits : ¬ (place < -wordLimit ∨ wordLimit ≤ place) := by
    simp only [wordLimit] at *
    omega
  rw [itemAt, if_neg fits]
  simp [Int.not_lt.mpr low, low, List.getElem?_eq_getElem index]

namespace Progress

structure Placed (progress : Progress) : Prop where
  low : 0 ≤ progress.index
  high : progress.index < progress.sequence.length
  short : (progress.sequence.length : Int) ≤ wordLimit

variable {progress : Progress}

theorem Placed.exists_current (placed : progress.Placed) : ∃ mode, progress.current = .ok mode :=
  itemAt_of_lt placed.low placed.high placed.short

theorem used_of_current {mode : Mode} (current : progress.current = .ok mode) :
    progress.used none = .ok (progress.attempts.made mode).length := by
  simp [used, modeOr, current, bind, Except.bind, pure, Except.pure]

theorem remaining_of_modeOr {asked : Option Mode} {mode : Mode} (here : progress.modeOr asked = .ok mode) :
    progress.remaining asked = .ok (max 0 (progress.quota - (progress.attempts.made mode).length)) := by
  simp [remaining, used, here, bind, Except.bind, pure, Except.pure]

theorem placed_fresh (quota : Int) : ({ quota } : Progress).Placed :=
  ⟨Int.le_refl 0, (by decide : (0 : Int) < 3), (by decide : (3 : Int) ≤ wordLimit)⟩

def opened (progress : Progress) : Progress := { progress with index := progress.index + 1 }

inductive Advance (progress : Progress) : Told (Except PlaceFault Bool × Progress) → Prop
  | locked (locked : progress.locked = true) : Advance progress ⟨(.ok false, progress), []⟩
  | early (mode : Mode) (unlocked : progress.locked = false) (current : progress.current = .ok mode)
      (unspent : ((progress.attempts.made mode).length : Int) < progress.quota) :
      Advance progress ⟨(.ok false, progress), []⟩
  | opening (mode next : Mode) (unlocked : progress.locked = false)
      (current : progress.current = .ok mode)
      (spent : progress.quota ≤ (progress.attempts.made mode).length) (placed : progress.opened.Placed)
      (following : progress.opened.current = .ok next) :
      Advance progress ⟨(.ok true, progress.opened), [.log (.progressing next)]⟩
  | locking (mode : Mode) (unlocked : progress.locked = false) (current : progress.current = .ok mode)
      (spent : progress.quota ≤ (progress.attempts.made mode).length)
      (last : progress.index + 1 = progress.sequence.length) :
      Advance progress ⟨(.ok true, { progress with locked := true }), [.log .locking]⟩

theorem advance_cases (placed : progress.Placed) : Advance progress (advance progress) := by
  obtain ⟨mode, current⟩ := placed.exists_current
  have used := used_of_current current
  cases locked : progress.locked with
  | true =>
    have told : advance progress = ⟨(.ok false, progress), []⟩ := by simp [advance, locked]
    rw [told]
    exact .locked locked
  | false =>
    by_cases unspent : ((progress.attempts.made mode).length : Int) < progress.quota
    · have told : advance progress = ⟨(.ok false, progress), []⟩ := by
        simp [advance, locked, used, unspent]
      rw [told]
      exact .early mode locked current unspent
    · by_cases more : progress.index < progress.sequence.length - 1
      · have place : progress.opened.Placed := by
          refine ⟨?_, ?_, placed.short⟩ <;> have low := placed.low <;> simp only [opened] <;> omega
        obtain ⟨next, following⟩ := place.exists_current
        have told : advance progress = ⟨(.ok true, progress.opened), [.log (.progressing next)]⟩ := by
          have same : { progress with index := progress.index + 1, locked := false }.current =
              .ok next := by rw [← locked]; exact following
          simp [advance, locked, used, unspent, more, same, opened]
        rw [told]
        exact .opening mode next locked current (Int.not_lt.mp unspent) place following
      · have told : advance progress = ⟨(.ok true, { progress with locked := true }), [.log .locking]⟩ := by
          simp [advance, locked, used, unspent, more]
        rw [told]
        have high := placed.high
        exact .locking mode locked current (Int.not_lt.mp unspent) (by omega)

section
variable {told : Told (Except PlaceFault Bool × Progress)}

theorem Advance.placed (advance : Advance progress told) (placed : progress.Placed) :
    told.value.2.Placed := by
  cases advance with
  | locked => exact placed
  | early => exact placed
  | opening mode next unlocked current spent place following => exact place
  | locking => exact ⟨placed.low, placed.high, placed.short⟩

theorem Advance.exists_ok (advance : Advance progress told) :
    ∃ changed, told.value.1 = .ok changed := by
  cases advance <;> exact ⟨_, rfl⟩

theorem Advance.current_of_locked (advance : Advance progress told)
    (locked : told.value.2.locked = true) : told.value.2.current = progress.current := by
  cases advance with
  | opening mode next unlocked current spent place following =>
    cases unlocked.symm.trans locked
  | _ => rfl

theorem Advance.frame (advance : Advance progress told) :
    ∃ index locked, told.value.2 = { progress with index, locked } := by
  cases advance <;> exact ⟨_, _, rfl⟩

theorem Advance.current_of_index (advance : Advance progress told)
    (index : told.value.2.index = progress.index) : told.value.2.current = progress.current := by
  obtain ⟨place, locked, same⟩ := advance.frame
  rw [same] at index ⊢
  exact congrArg (itemAt progress.sequence) index

end

def noted (mode : Mode) (attempt : Attempt) (progress : Progress) : Progress :=
  { progress with
    attempts := progress.attempts.put mode (progress.attempts.made mode ++ [attempt]) }

theorem Placed.noted (placed : progress.Placed) (mode : Mode) (attempt : Attempt) :
    (progress.noted mode attempt).Placed :=
  ⟨placed.low, placed.high, placed.short⟩

theorem record_apply {mode : Mode} (placed : progress.Placed) (current : progress.current = .ok mode)
    (attempt : Attempt) : record attempt progress =
      ⟨(.ok (), (advance (progress.noted mode attempt)).value.2),
        (advance (progress.noted mode attempt)).signals⟩ := by
  obtain ⟨changed, ok⟩ := (advance_cases (placed.noted mode attempt)).exists_ok
  simp only [noted] at ok ⊢
  simp [record, current, ok]

end Progress

end BlockMaze
