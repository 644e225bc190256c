import BlockMaze.Proofs.Game.Quota

/-! Progress by the number of attempts. Whenever the quota is looked at between two attempts, how far the
player has come and what is filed under every mode depends on the attempts alone. -/
namespace BlockMaze.Progress

/-- What progress is asked for: to record an attempt, or to see whether the next mode is due. -/
inductive Request
  | record (attempt : Attempt)
  | advance

def Request.attempt? : Request → Option Attempt
  | record attempt => some attempt
  | advance => none

def serve : Request → Act PlaceFault Progress Unit
  | .record attempt => record attempt
  | .advance => discard advance

def attemptsIn (requests : List Request) : List Attempt := requests.filterMap Request.attempt?

section filed
variable {modes : List Mode} {quota place : Nat} {attempts : List Attempt} {progress : Progress}

theorem Filed.serve (filed : Filed modes quota place attempts progress) (request : Request) :
    ∃ next later signals, Progress.serve request progress = ⟨(.ok (), later), signals⟩ ∧
      Filed modes quota next (attempts ++ request.attempt?.toList) later := by
  cases request with
  | record attempt =>
    obtain ⟨mode, current, _⟩ := filed.exists_current
    obtain ⟨next, recorded⟩ := filed.record attempt
    rw [record_apply filed.placed current] at recorded
    exact ⟨next, _, _, record_apply filed.placed current attempt, recorded⟩
  | advance =>
    have still := filed.unspent.advance_eq filed.placed
    refine ⟨place, progress, [], ?_, ?_⟩
    · rw [Progress.serve, Act.discard_apply, still]
      rfl
    · rwa [Request.attempt?, Option.toList_none, List.append_nil]

theorem Filed.serveAll (filed : Filed modes quota place attempts progress) (requests : List Request) :
    ∃ next later signals, requests.forM Progress.serve progress = ⟨(.ok (), later), signals⟩ ∧
      Filed modes quota next (attempts ++ attemptsIn requests) later := by
  induction requests generalizing place attempts progress with
  | nil => exact ⟨place, progress, [], rfl, by rwa [attemptsIn, List.filterMap_nil, List.append_nil]⟩
  | cons request requests ih =>
    obtain ⟨_, between, early, first, still⟩ := filed.serve request
    obtain ⟨next, later, late, rest, ended⟩ := ih still
    refine ⟨next, later, early ++ late, ?_, ?_⟩
    · refine (Act.bind_of_ok first _).trans ?_
      rw [rest]
    · have joined : attemptsIn (request :: requests) = request.attempt?.toList ++ attemptsIn requests := by
        cases request <;> rfl
      rwa [joined, ← List.append_assoc]

end filed

/-- Progress that begins with the first of its modes and no attempts serves every request. By then the player
has come as many modes further as quotas are spent, though not beyond the last mode, and is locked out once
they all are. A mode has the attempts of its turn, in order: a quota of them, and the last mode all that
are left. -/
theorem progress_by_attempts {modes : List Mode} (nonempty : modes ≠ []) (distinct : modes.Nodup)
    {quota : Nat} (positive : 1 ≤ quota) {unused : Attempts} (none_made : ∀ mode, unused.made mode = [])
    (requests : List Request) :
    let served := requests.forM serve { sequence := modes, attempts := unused, quota }
    let attempts := attemptsIn requests
    let later := served.value.2
    served.value.1 = .ok () ∧
    later.index = min (attempts.length / quota : Nat) (modes.length - 1) ∧
    (later.locked = true ↔ modes.length * quota ≤ attempts.length) ∧
    ∀ place mode, modes[place]? = some mode →
      later.attempts.made mode =
        (if place + 1 = modes.length then attempts.drop (place * quota)
          else (attempts.drop (place * quota)).take quota) ∧
      later.remaining (some mode) = .ok (max 0 (quota - (later.attempts.made mode).length : Int)) := by
  intro served attempts later
  have fresh := filed_of_unused nonempty distinct positive none_made
  obtain ⟨place, last, signals, told, filed⟩ := fresh.serveAll requests
  obtain rfl : later = last := by
    change served.value.2 = last
    rw [show served = _ from told]
  rw [List.nil_append] at filed
  have here := filed.here
  refine ⟨congrArg (·.value.1) told, filed.index_eq, filed.locked_iff, fun other mode found => ⟨?_, ?_⟩⟩
  · have inside := (List.getElem?_eq_some_iff.mp found).1
    rw [filed.shares other mode found, share]
    split <;> split <;> first | rfl | omega
  · rw [remaining_of_modeOr rfl, filed.quota_eq]

/-- Five attempts at two modes with a quota of two: the second mode has the three that came last. -/
theorem progress_by_attempts_two_modes :
    let modes : List Mode := [.loop, .basic]
    let unused : Attempts := { basic := none }
    let requests : List Request := [.advance, .record ⟨true, 3⟩, .advance, .record ⟨false, 1⟩, .advance,
      .advance, .record ⟨false, 0⟩, .record ⟨true, 7⟩, .advance, .record ⟨true, 5⟩]
    let served := requests.forM serve { sequence := modes, attempts := unused, quota := (2 : Nat) }
    modes ≠ [] ∧ modes.Nodup ∧ (∀ mode, unused.made mode = []) ∧
    served.value.1 = .ok () ∧ served.value.2.index = 1 ∧ served.value.2.locked = true ∧
    served.value.2.attempts.made .loop = [⟨true, 3⟩, ⟨false, 1⟩] ∧
    served.value.2.attempts.made .basic = [⟨false, 0⟩, ⟨true, 7⟩, ⟨true, 5⟩] := by
  intro modes unused requests served
  have nonempty : modes ≠ [] := by decide
  have distinct : modes.Nodup := by decide
  have none_made : ∀ mode, unused.made mode = [] := fun mode => by cases mode <;> rfl
  obtain ⟨ok, index, locked, filed⟩ :=
    progress_by_attempts nonempty distinct (by decide : 1 ≤ 2) none_made requests
  rw [show served = requests.forM serve _ from rfl]
  refine ⟨nonempty, distinct, none_made, ok, index.trans (by decide), locked.mpr (by decide), ?_, ?_⟩
  · exact (filed 0 .loop rfl).1.trans (by decide)
  · exact (filed 1 .basic rfl).1.trans (by decide)

end BlockMaze.Progress
