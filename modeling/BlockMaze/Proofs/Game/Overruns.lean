import BlockMaze.Proofs.Game.Attempts

/-! What quotas hold back whoever holds which rights, and when. A player's rights are read when a run
begins and again when it ends, and between the two they may have been taken away. -/
namespace BlockMaze.Session
open Text
variable {σ : Type} [RandomSource σ] {session : Session σ} {quota : Nat} {attempts : List Attempt}

theorem times_overrun_of_kept (recorded : session.Recorded quota attempts) (admitted : session.Admitted)
    {calls : List Call} (kept : ∀ front, front ++ [.setUser false] <+: calls →
      (session.afterAll front).isRunning = false) : session.times overrun calls = 0 := by
  induction calls generalizing session attempts with
  | nil => rfl
  | cons call calls ih =>
    have now : call = .setUser false → session.isRunning = false := by
      intro revoked
      exact kept [] (by simp [revoked])
    have later : ∀ front, front ++ [.setUser false] <+: calls →
        ((session.after call).afterAll front).isRunning = false := by
      intro front first
      exact kept (call :: front) (by simpa using first)
    rw [times, admitted.not_overrun call, Bool.toNat_false, Nat.zero_add]
    exact ih (recorded.after call) (admitted.after recorded fun revoked => .inl (now revoked)) later

/-- The quotas of all modes hold exactly as long as no run ends for a player who is locked out, and
those of all modes but the last hold anyway. Of a player who is locked out the last mode holds its quota
of attempts and one for each such run. There is none if rights are not taken away during runs. -/
theorem quotas_hold_iff_no_overrun (settings : SessionSettings) (privileged : Bool) (source : σ)
    (world : World) (positive : 1 ≤ settings.quota) (calls : List Call) :
    let fresh := ofWorld settings privileged source world
    let later := fresh.afterAll calls
    ((∀ mode, ((later.progress.attempts.made mode).length : Int) ≤ settings.quota) ↔
      fresh.times overrun calls = 0) ∧
    (∀ mode, mode ≠ .loop → ((later.progress.attempts.made mode).length : Int) ≤ settings.quota) ∧
    (later.progress.locked = true → ((later.progress.attempts.made .loop).length : Int) =
      settings.quota + fresh.times overrun calls) ∧
    ((∀ front, front ++ [.setUser false] <+: calls → (fresh.afterAll front).isRunning = false) →
      fresh.times overrun calls = 0) := by
  intro fresh later
  obtain ⟨quota, quota_eq⟩ := Int.eq_ofNat_of_zero_le (by omega : 0 ≤ settings.quota)
  have begun : fresh.Recorded quota [] := recorded_ofWorld quota_eq (by omega) privileged source world
  obtain ⟨attempts, recorded, beyond⟩ := begun.afterAll calls
  rw [List.nil_append, List.length_nil, Nat.zero_sub, Nat.zero_add] at beyond
  rw [List.nil_append] at recorded
  have earlier (mode : Mode) (different : mode ≠ .loop) :
      (later.progress.attempts.made mode).length ≤ quota := recorded.made_le different
  have last : (later.progress.attempts.made .loop).length = attempts.length - 2 * quota :=
    recorded.made_loop
  rw [quota_eq]
  refine ⟨⟨fun all => ?_, fun none_over mode => ?_⟩, fun mode different => ?_, fun locked => ?_, ?_⟩
  · have loop := all .loop
    omega
  · by_cases loop : mode = .loop
    · rw [loop]
      omega
    · exact Int.ofNat_le.mpr (earlier mode loop)
  · exact Int.ofNat_le.mpr (earlier mode different)
  · obtain ⟨place, filed⟩ := recorded.filed
    have full : 3 * quota ≤ attempts.length := by simpa using filed.locked_iff.mp locked
    omega
  · exact times_overrun_of_kept begun nofun

/-- With a quota of one, the player is locked out after three runs, is given all rights and begins a
run, and has them taken away before the run is stopped. -/
theorem quotas_hold_iff_no_overrun_corridor :
    let calls : List Call := [.insert (.text "forward") none, .start, .abort, .start, .abort, .start,
      .abort, .setUser true, .start, .setUser false, .abort]
    let later := (ofWorld { quota := 1 } false (Dice.script []) (.ofPuzzle corridor)).afterAll calls
    later.progress.locked = true ∧
      ((later.progress.attempts.made .loop).length : Int) =
        1 + (ofWorld { quota := 1 } false (Dice.script []) (.ofPuzzle corridor)).times overrun calls := by
  intro calls later
  obtain ⟨_, _, last, _⟩ := quotas_hold_iff_no_overrun { quota := 1 } false (Dice.script [])
    (.ofPuzzle corridor) (by decide) calls
  have locked : later.progress.locked = true := by decide +kernel
  exact ⟨locked, last locked⟩

/-- The run stopped last is a second attempt in loop mode, with a quota of one. -/
theorem second_attempt_in_loop_mode :
    let later := (ofWorld { quota := 1 } false (Dice.script []) (.ofPuzzle corridor)).afterAll
      [.insert (.text "forward") none, .start, .abort, .start, .abort, .start, .abort,
        .setUser true, .start, .setUser false, .abort]
    later.progress.quota = 1 ∧ (later.progress.attempts.made .loop).length = 2 := by
  decide +kernel

/-- A run of an ordinary player begins with an attempt left, unless the quota leaves none from the
beginning. With such a quota the first mode is passed over, and the run begins in the next. -/
theorem attempts_left_at_start (settings : SessionSettings) (privileged : Bool) (source : σ)
    (world : World) (calls : List Call) :
    let session := (ofWorld settings privileged source world).afterAll calls
    let started := (start session).value
    session.privileged = false → started.1 = .ok true →
      ∃ left, (attemptsRemaining none started.2).value = (.ok (some left), started.2) ∧
        (1 ≤ settings.quota → 1 ≤ left) ∧ (settings.quota < 1 → left = 0) := by
  intro session started ordinary begun
  have fresh := intact_ofWorld settings privileged source world
  obtain ⟨intact, -, quota_eq⟩ := intact_afterAll fresh calls
  change session.progress.quota = settings.quota at quota_eq
  obtain ⟨later, -, entitled, same⟩ := start_began intact.placed begun
  obtain ⟨placed, quota⟩ := entitled.placed intact.placed
  obtain ⟨mode, current⟩ := placed.exists_current
  have still_ordinary : later.begun.privileged = false := entitled.rights.2.trans ordinary
  change started.2 = later.begun at same
  rw [same, attemptsRemaining_of_ordinary still_ordinary current]
  refine ⟨_, rfl, fun positive => ?_, fun none_left => ?_⟩
  · obtain ⟨size, size_eq⟩ := Int.eq_ofNat_of_zero_le (by omega : 0 ≤ settings.quota)
    obtain ⟨attempts, recorded, -⟩ :=
      (recorded_ofWorld size_eq (by omega) privileged source world).afterAll calls
    -- the rights were checked without a change of mode
    have unspent := recorded.progress_unspent
    have kept : later.progress = session.progress := entitled.progress_eq unspent
    have room := unspent (entitled.unlocked ordinary) mode (kept ▸ current)
    change ((session.progress.attempts.made mode).length : Int) < session.progress.quota at room
    change 1 ≤ max 0 (later.progress.quota - (later.progress.attempts.made mode).length)
    rw [kept]
    omega
  · change max 0 (later.progress.quota - (later.progress.attempts.made mode).length) = 0
    change later.progress.quota = session.progress.quota at quota
    omega

theorem attempts_left_at_start_corridor :
    let session := (ofWorld { quota := 1 } false (Dice.script []) (.ofPuzzle corridor)).afterAll
      [.insert (.text "forward") none, .start, .abort]
    let started := (start session).value
    session.privileged = false ∧ started.1 = .ok true ∧ ∃ left,
      (attemptsRemaining none started.2).value = (.ok (some left), started.2) ∧ 1 ≤ left := by
  intro session started
  have ordinary : session.privileged = false := by decide +kernel
  have begun : started.1 = .ok true := by decide +kernel
  obtain ⟨left, remaining, some_left, _⟩ := attempts_left_at_start { quota := 1 } false
    (Dice.script []) (.ofPuzzle corridor) [.insert (.text "forward") none, .start, .abort] ordinary begun
  exact ⟨ordinary, begun, left, remaining, some_left (by decide)⟩

/-- With a quota of none, a run begins in the second mode, with no attempt left there. -/
theorem started_without_attempts :
    let session := (ofWorld { quota := 0 } false (Dice.script []) (.ofPuzzle corridor)).afterAll
      [.insert (.text "forward") none]
    let started := (start session).value
    session.privileged = false ∧ started.1 = .ok true ∧ started.2.mode = .conditions ∧
      (attemptsRemaining none started.2).value.1 = .ok (some 0) := by
  decide +kernel

end BlockMaze.Session
