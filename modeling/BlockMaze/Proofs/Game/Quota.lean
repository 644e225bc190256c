import Mathlib.Data.List.Perm.Subperm
import BlockMaze.Proofs.Game.Progress

/-! How attempts are filed. The player's attempts go to the modes of the sequence in order, a quota to
each; the last mode takes all that come after its turn has begun. With a quota of one attempt at least,
recording the attempts one by one files them so, whatever their number. -/
namespace BlockMaze

theorem getElem?_of_itemAt {α : Type} {items : List α} {place : Nat} {item : α}
    (found : itemAt items place = .ok item) : items[place]? = some item := by
  unfold itemAt at found
  split at found
  · cases found
  · simp only [if_neg (by omega : ¬ (place : Int) < 0), if_pos (by omega : (0 : Int) ≤ place),
      Int.toNat_natCast] at found
    split at found
    · rename_i same
      cases found
      exact same
    · cases found

namespace Progress

/-- The attempts that fall to the mode at a place: a quota of them, and to the last mode all that are
left. -/
def share (quota modes place : Nat) (attempts : List Attempt) : List Attempt :=
  if place + 1 < modes then (attempts.drop (place * quota)).take quota
  else attempts.drop (place * quota)

section share
variable {quota modes place other : Nat} {attempts : List Attempt}

theorem share_append_here (above : place * quota ≤ attempts.length)
    (room : place + 1 < modes → attempts.length < (place + 1) * quota) (attempt : Attempt) :
    share quota modes place (attempts ++ [attempt]) = share quota modes place attempts ++ [attempt] := by
  unfold share
  rw [List.drop_append_of_le_length above]
  split
  · rename_i more
    have few := room more
    rw [Nat.succ_mul] at few
    rw [List.take_of_length_le (by simp; omega), List.take_of_length_le (by simp; omega)]
  · rfl

theorem share_append_elsewhere (inside : other < modes) (here : place < modes)
    (above : place * quota ≤ attempts.length)
    (room : place + 1 < modes → attempts.length < (place + 1) * quota) (different : other ≠ place)
    (attempt : Attempt) :
    share quota modes other (attempts ++ [attempt]) = share quota modes other attempts := by
  unfold share
  rcases Nat.lt_or_gt_of_ne different with earlier | later
  · -- an earlier mode has had its quota
    have full : (other + 1) * quota ≤ place * quota := Nat.mul_le_mul_right quota earlier
    rw [Nat.succ_mul] at full
    rw [if_pos (by omega), if_pos (by omega), List.drop_append_of_le_length (by omega),
      List.take_append_of_le_length (by simp; omega)]
  · -- the turn of a later one has not come
    have few := room (by omega)
    have beyond : (place + 1) * quota ≤ other * quota := Nat.mul_le_mul_right quota later
    rw [List.drop_eq_nil_of_le (by simp; omega), List.drop_eq_nil_of_le (by omega)]

theorem length_share (within : place + 1 < modes → attempts.length ≤ (place + 1) * quota) :
    (share quota modes place attempts).length = attempts.length - place * quota := by
  rw [Nat.succ_mul] at within
  unfold share
  split <;> simp
  have few := within ‹_›
  omega

theorem length_share_le (more : place + 1 < modes) :
    (share quota modes place attempts).length ≤ quota := by
  rw [share, if_pos more]
  exact List.length_take_le quota _

end share

structure Filed (modes : List Mode) (quota place : Nat) (attempts : List Attempt)
    (progress : Progress) : Prop where
  sequence : progress.sequence = modes
  distinct : modes.Nodup
  quota_eq : progress.quota = quota
  positive : 0 < quota
  index : progress.index = place
  placed : progress.Placed
  above : place * quota ≤ attempts.length
  below : progress.locked = false → attempts.length < (place + 1) * quota
  spent : progress.locked = true → place + 1 = modes.length ∧ (place + 1) * quota ≤ attempts.length
  shares : ∀ other mode, modes[other]? = some mode →
    progress.attempts.made mode = share quota modes.length other attempts

section filed
variable {modes : List Mode} {quota place : Nat} {attempts : List Attempt} {progress : Progress}

theorem Filed.here (filed : Filed modes quota place attempts progress) : place < modes.length := by
  have inside := filed.placed.high
  rw [filed.index, filed.sequence] at inside
  omega

theorem Filed.room (filed : Filed modes quota place attempts progress)
    (more : place + 1 < modes.length) : attempts.length < (place + 1) * quota := by
  cases locked : progress.locked with
  | false => exact filed.below locked
  | true => exact absurd (filed.spent locked).1 (Nat.ne_of_lt more)

theorem Filed.exists_current (filed : Filed modes quota place attempts progress) :
    ∃ mode, progress.current = .ok mode ∧ modes[place]? = some mode := by
  obtain ⟨mode, current⟩ := filed.placed.exists_current
  refine ⟨mode, current, ?_⟩
  rw [Progress.current, filed.sequence, filed.index] at current
  exact getElem?_of_itemAt current

/-- Unless the player is locked out, the current mode has an attempt left. -/
def Unspent (progress : Progress) : Prop :=
  progress.locked = false → ∀ mode, progress.current = .ok mode →
    ((progress.attempts.made mode).length : Int) < progress.quota

theorem Filed.unspent (filed : Filed modes quota place attempts progress) : progress.Unspent := by
  intro unlocked mode current
  obtain ⟨other, same, found⟩ := filed.exists_current
  cases current.symm.trans same
  have few := filed.below unlocked
  rw [filed.shares place mode found, filed.quota_eq, length_share fun _ => Nat.le_of_lt few]
  rw [Nat.succ_mul] at few
  have positive := filed.positive
  omega

theorem Unspent.advance_eq (unspent : progress.Unspent) (placed : progress.Placed) :
    advance progress = ⟨(.ok false, progress), []⟩ := by
  have advance := advance_cases placed
  generalize progress.advance = told at advance
  cases advance with
  | locked locked => rfl
  | early mode unlocked current few => rfl
  | opening mode next unlocked current spent placed following =>
    exact absurd (unspent unlocked mode current) (Int.not_lt.mpr spent)
  | locking mode unlocked current spent last =>
    exact absurd (unspent unlocked mode current) (Int.not_lt.mpr spent)

theorem Advance.same_of_kept {told : Told (Except PlaceFault Bool × Progress)}
    (advance : Advance progress told) (unlocked : progress.locked = false)
    (index : told.value.2.index = progress.index) (kept : told.value.2.locked = progress.locked) :
    told.value.2 = progress ∧ progress.Unspent := by
  cases advance with
  | locked locked => cases unlocked.symm.trans locked
  | early mode _ current few =>
    refine ⟨rfl, fun _ other same => ?_⟩
    cases current.symm.trans same
    exact few
  | opening =>
    simp only [opened] at index
    omega
  | locking => simp [unlocked] at kept

theorem filed_of_unused (nonempty : modes ≠ []) (distinct : modes.Nodup) (positive : 0 < quota)
    {attempts : Attempts} (unused : ∀ mode, attempts.made mode = []) :
    Filed modes quota 0 [] { sequence := modes, attempts, quota } where
  sequence := rfl
  distinct := distinct
  quota_eq := rfl
  positive := positive
  index := rfl
  placed := by
    -- no mode comes twice, so that there are no more of them than modes at all
    have few : modes.length ≤ Mode.all.length :=
      (distinct.subperm fun mode _ => by cases mode <;> decide).length_le
    refine ⟨Int.le_refl 0, Int.natCast_pos.mpr (List.length_pos_iff.mpr nonempty), ?_⟩
    exact Int.le_trans (Int.ofNat_le.mpr few) (by decide)
  above := by simp
  below := fun _ => by simpa using positive
  spent := nofun
  shares := by
    intro other mode found
    simp [share, unused]

theorem filed_fresh {quota : Nat} (positive : 0 < quota) :
    Filed [.basic, .conditions, .loop] quota 0 [] { quota } :=
  filed_of_unused (by decide) (by decide) positive fun mode => by cases mode <;> rfl

theorem Filed.record (filed : Filed modes quota place attempts progress) (attempt : Attempt) :
    ∃ next, Filed modes quota next (attempts ++ [attempt]) (record attempt progress).value.2 := by
  obtain ⟨mode, current, found⟩ := filed.exists_current
  have enough := filed.above
  have above : place * quota ≤ (attempts ++ [attempt]).length := by
    simp
    omega
  -- the attempt goes to the current mode, and the other modes keep theirs
  have shares : ∀ other another, modes[other]? = some another →
      (progress.noted mode attempt).attempts.made another =
        share quota modes.length other (attempts ++ [attempt]) := by
    intro other another member
    simp only [noted, Attempts.made_put]
    by_cases same : other = place
    · subst same
      cases found.symm.trans member
      rw [if_pos rfl, filed.shares other mode found, share_append_here filed.above filed.room]
    · have inside := (List.getElem?_eq_some_iff.mp member).1
      have apart : another ≠ mode := by
        intro equal
        subst equal
        exact same ((List.getElem?_inj inside filed.distinct).mp (member.trans found.symm))
      rw [if_neg apart, filed.shares other another member,
        share_append_elsewhere inside filed.here filed.above filed.room same]
  have current_made : ((progress.noted mode attempt).attempts.made mode).length =
      attempts.length + 1 - place * quota := by
    rw [shares place mode found, length_share fun more => ?_]
    · simp
    · have few := filed.room more
      simp
      omega
  have noted_placed := filed.placed.noted mode attempt
  rw [record_apply filed.placed current]
  have advance := advance_cases noted_placed
  generalize (progress.noted mode attempt).advance = told at advance
  cases advance with
  | locked locked =>
    have last := filed.spent locked
    refine ⟨place, filed.sequence, filed.distinct, filed.quota_eq, filed.positive, filed.index,
      noted_placed, above, fun unlocked => ?_, fun _ => ⟨last.1, by simp; omega⟩, shares⟩
    cases locked.symm.trans unlocked
  | early other unlocked same few =>
    cases current.symm.trans same
    rw [current_made, noted, filed.quota_eq] at few
    refine ⟨place, filed.sequence, filed.distinct, filed.quota_eq, filed.positive, filed.index,
      noted_placed, above, fun _ => ?_, fun locked => ?_, shares⟩
    · rw [Nat.succ_mul, List.length_append, List.length_singleton]
      omega
    · cases locked.symm.trans unlocked
  | opening other next unlocked same spent opened_placed following =>
    cases current.symm.trans same
    have few := filed.below unlocked
    rw [current_made, noted, filed.quota_eq] at spent
    have full : attempts.length + 1 = (place + 1) * quota := by
      rw [Nat.succ_mul] at few ⊢
      omega
    have positive := filed.positive
    refine ⟨place + 1, filed.sequence, filed.distinct, filed.quota_eq, positive, ?_,
      opened_placed, ?_, fun _ => ?_, fun locked => ?_, shares⟩
    · have index := filed.index
      simp only [opened, noted]
      omega
    · simp [full]
    · rw [List.length_append, List.length_singleton, full, Nat.succ_mul (place + 1)]
      omega
    · cases locked.symm.trans unlocked
  | locking other unlocked same spent last =>
    cases current.symm.trans same
    have few := filed.below unlocked
    rw [current_made, noted, filed.quota_eq] at spent
    have full : attempts.length + 1 = (place + 1) * quota := by
      rw [Nat.succ_mul] at few ⊢
      omega
    refine ⟨place, filed.sequence, filed.distinct, filed.quota_eq, filed.positive, filed.index,
      ⟨noted_placed.low, noted_placed.high, noted_placed.short⟩, above, fun unlocked => ?_, fun _ => ?_,
      shares⟩
    · cases unlocked
    have index := filed.index
    have sequence := filed.sequence
    simp only [noted] at last
    refine ⟨?_, by simp [full]⟩
    rw [← sequence]
    omega

theorem Filed.index_eq (filed : Filed modes quota place attempts progress) :
    progress.index = (min (attempts.length / quota) (modes.length - 1) : Nat) := by
  have here := filed.here
  rw [filed.index]
  cases locked : progress.locked with
  | false =>
    have turn : attempts.length / quota = place :=
      Nat.div_eq_of_lt_le filed.above (filed.below locked)
    rw [turn, Nat.min_eq_left (by omega)]
  | true =>
    obtain ⟨last, full⟩ := filed.spent locked
    have beyond : place + 1 ≤ attempts.length / quota :=
      (Nat.le_div_iff_mul_le filed.positive).mpr full
    rw [Nat.min_eq_right (by omega)]
    omega

theorem Filed.locked_iff (filed : Filed modes quota place attempts progress) :
    progress.locked = true ↔ modes.length * quota ≤ attempts.length := by
  cases locked : progress.locked with
  | false =>
    have within : (place + 1) * quota ≤ modes.length * quota := Nat.mul_le_mul_right quota filed.here
    have few := filed.below locked
    simp
    omega
  | true =>
    obtain ⟨last, full⟩ := filed.spent locked
    simpa [← last] using full

theorem Filed.made_le (filed : Filed modes quota place attempts progress) {other : Nat} {mode : Mode}
    (found : modes[other]? = some mode) (more : other + 1 < modes.length) :
    (progress.attempts.made mode).length ≤ quota := by
  rw [filed.shares other mode found]
  exact length_share_le more

theorem Filed.made_last (filed : Filed modes quota place attempts progress) {other : Nat} {mode : Mode}
    (found : modes[other]? = some mode) (last : other + 1 = modes.length) :
    (progress.attempts.made mode).length = attempts.length - other * quota := by
  rw [filed.shares other mode found]
  exact length_share fun more => absurd last (Nat.ne_of_lt more)

theorem Filed.in_order (filed : Filed modes quota place attempts progress) :
    modes.flatMap progress.attempts.made = attempts := by
  -- from any mode on they are the attempts that come after the quotas of those before it
  have from_mode : ∀ left first, first + left + 1 = modes.length →
      (modes.drop first).flatMap progress.attempts.made = attempts.drop (first * quota) := by
    intro left
    induction left with
    | zero =>
      intro first last
      have inside : first < modes.length := by omega
      rw [List.drop_eq_getElem_cons inside, List.drop_eq_nil_of_le (by omega), List.flatMap_cons,
        List.flatMap_nil, List.append_nil,
        filed.shares first modes[first] (List.getElem?_eq_getElem inside), share, if_neg (by omega)]
    | succ left ih =>
      intro first more
      have inside : first < modes.length := by omega
      rw [List.drop_eq_getElem_cons inside, List.flatMap_cons, ih (first + 1) (by omega),
        filed.shares first modes[first] (List.getElem?_eq_getElem inside), share, if_pos (by omega),
        Nat.succ_mul, ← List.drop_drop, List.take_append_drop]
  have here := filed.here
  simpa using from_mode (modes.length - 1) 0 (by omega)

def recordAll (attempts : List Attempt) (progress : Progress) : Progress :=
  attempts.foldl (fun progress attempt => (record attempt progress).value.2) progress

theorem recordAll_append (attempts more : List Attempt) (progress : Progress) :
    progress.recordAll (attempts ++ more) = (progress.recordAll attempts).recordAll more :=
  List.foldl_append

theorem Filed.recordAll (filed : Filed modes quota place attempts progress) (more : List Attempt) :
    ∃ next, Filed modes quota next (attempts ++ more) (progress.recordAll more) := by
  induction more generalizing place attempts progress with
  | nil => exact ⟨place, by simpa [Progress.recordAll] using filed⟩
  | cons attempt more ih =>
    obtain ⟨next, recorded⟩ := filed.record attempt
    simpa [Progress.recordAll] using ih recorded

theorem Advance.quota_eq {told : Told (Except PlaceFault Bool × Progress)}
    (advance : Advance progress told) : told.value.2.quota = progress.quota := by
  cases advance <;> rfl

theorem Placed.recordAll (placed : progress.Placed) (more : List Attempt) :
    (progress.recordAll more).Placed ∧ (progress.recordAll more).quota = progress.quota := by
  induction more generalizing progress with
  | nil => exact ⟨placed, rfl⟩
  | cons attempt more ih =>
    obtain ⟨mode, current⟩ := placed.exists_current
    have noted := placed.noted mode attempt
    have advance := advance_cases noted
    obtain ⟨still_placed, quota⟩ := ih (advance.placed noted)
    have recorded : progress.recordAll (attempt :: more) =
        ((progress.noted mode attempt).advance.value.2).recordAll more := by
      rw [Progress.recordAll, List.foldl_cons, record_apply placed current]
      rfl
    rw [recorded]
    exact ⟨still_placed, quota.trans advance.quota_eq⟩

end filed

end Progress

end BlockMaze
