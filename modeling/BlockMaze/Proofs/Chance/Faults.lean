import BlockMaze.Proofs.Chance.Winnable
import BlockMaze.Proofs.Report.Law

/-! How rolling a puzzle can fail. With a source that gives numbers within the bounds asked for, nothing
goes wrong but that no attempt yields a puzzle, unless the settings leave no room for one. -/
namespace BlockMaze
variable {σ : Type} [RandomSource σ]

/-- From these states on, a source gives a number within every bound that leaves one, or looks for it
without end. -/
structure Reliable (good : σ → Prop) : Prop where
  seeded : ∀ seed, good (RandomSource.ofSeed seed)
  kept : ∀ {source}, good source → ∀ bound, good (RandomSource.draw bound source).2
  draws : ∀ {source}, good source → ∀ {bound : Int}, 0 < bound →
    match (RandomSource.draw bound source).1 with
    | .ok number => 0 ≤ number ∧ number < bound
    | .error fault => fault = .endless

/-- What a roll needs of its source. -/
structure Bounded (good : σ → Prop) : Prop where
  kept : ∀ {source}, good source → ∀ bound, good (RandomSource.draw bound source).2
  draws : ∀ {source}, good source → ∀ {bound : Int}, 0 < bound →
    match (RandomSource.draw bound source).1 with
    | .ok number => 0 ≤ number ∧ number < bound
    | .error fault => fault = .endless

theorem Reliable.bounded {good : σ → Prop} (reliable : Reliable good) : Bounded good :=
  ⟨reliable.kept, reliable.draws⟩

namespace Roll

/-- On a board of some size, nothing but a search without end. -/
def Endless (size : Int) (fault : RollFault) : Prop := 0 < size → fault = .draw .endless

structure Sound (size : Int) (layout : Layout) : Prop where
  start_inside : layout.start.Inside size
  goal_inside : layout.goal.Inside size
  obstacles_inside : ∀ cell ∈ layout.obstacles, cell.Inside size
  start_free : layout.start ∉ layout.obstacles
  goal_free : layout.goal ∉ layout.obstacles

theorem Sound.exists_puzzle {settings : RollSettings} {layout : Layout} (sound : Sound settings.size layout)
    {facing : Facing} (known : Facing.ofDatum settings.facing = .ok facing) :
    ∃ puzzle, Puzzle.ofDraft (layout.draft settings) = .ok puzzle := by
  have start_free : layout.start ∉ Cell.arrange layout.obstacles := mt Cell.mem_arrange.mp sound.start_free
  have goal_free : layout.goal ∉ Cell.arrange layout.obstacles := mt Cell.mem_arrange.mp sound.goal_free
  have none_strays : (Cell.arrange layout.obstacles).find? (fun cell => !decide (cell.Inside settings.size)) =
      none := by
    rw [List.find?_eq_none]
    intro cell member
    simp [sound.obstacles_inside cell (Cell.mem_arrange.mp member)]
  unfold Layout.draft
  simp only [Puzzle.ofDraft, dif_pos sound.start_inside, dif_pos sound.goal_inside, dif_pos start_free,
    dif_pos goal_free]
  split
  · rename_i strays
    cases none_strays.symm.trans strays
  · split
    · rename_i unknown
      cases known.symm.trans unknown
    · exact ⟨_, rfl⟩

section ensures
variable {good : σ → Prop} (bounded : Bounded good)
include bounded

theorem number_ensures (size : Int) :
    Act.Ensures good (number size) (fun number => 0 < size → 0 ≤ number ∧ number < size)
      (Endless size) := by
  intro source sound
  have kept := bounded.kept sound size
  have draws (positive : 0 < size) := bounded.draws sound positive
  unfold number
  rcases drawn : RandomSource.draw size source with ⟨fault | number, later⟩ <;> rw [drawn] at kept draws
  · exact ⟨kept, fun positive => congrArg RollFault.draw (draws positive)⟩
  · exact ⟨kept, draws⟩

theorem cell_ensures (size : Int) :
    Act.Ensures good (cell size) (fun cell => 0 < size → cell.Inside size) (Endless size) := by
  refine .bind (number_ensures bounded size) fun x across => ?_
  refine .bind (number_ensures bounded size) fun y down => .pure fun positive => ?_
  exact ⟨(across positive).1, (across positive).2, (down positive).1, (down positive).2⟩

theorem goal_ensures (size : Int) (start : Cell) (patience : Nat) :
    Act.Ensures good (goal size start patience) (fun goal => goal ≠ start ∧ (0 < size → goal.Inside size))
      (Endless size) := by
  induction patience with
  | zero => exact .throw fun _ => rfl
  | succ patience ih =>
    refine .bind (cell_ensures bounded size) fun drawn inside => ?_
    split
    · exact ih
    · rename_i different
      exact .pure ⟨different, inside⟩

theorem obstacles_ensures (size count : Int) (start goal : Cell) (patience : Nat) (placed : List Cell)
    (clear : ∀ cell ∈ placed, cell ≠ start ∧ cell ≠ goal ∧ (0 < size → cell.Inside size)) :
    Act.Ensures good (obstacles size count start goal patience placed)
      (fun cells => ∀ cell ∈ cells, cell ≠ start ∧ cell ≠ goal ∧ (0 < size → cell.Inside size))
      (Endless size) := by
  induction patience generalizing placed with
  | zero =>
    unfold obstacles
    split
    · exact .pure clear
    · exact .throw fun _ => rfl
  | succ patience ih =>
    unfold obstacles
    split
    · exact .pure clear
    · refine .bind (cell_ensures bounded size) fun drawn inside => ih _ fun cell member => ?_
      split at member
      · exact clear cell member
      · rename_i apart
        rcases Cell.mem_place.mp member with rfl | earlier
        · exact ⟨fun same => apart (.inl same), fun same => apart (.inr same), inside⟩
        · exact clear cell earlier

theorem layout_ensures (size count : Int) :
    Act.Ensures good (layout size count) (fun layout => 0 < size → Sound size layout) (Endless size) := by
  refine .bind (cell_ensures bounded size) fun start start_inside => .bind .get fun source _ => ?_
  refine .bind (goal_ensures bounded size start _) fun goal ⟨_, goal_inside⟩ => .bind .get fun source _ => ?_
  refine .bind (obstacles_ensures bounded size count start goal _ [] ?_) fun placed clear =>
    .pure fun positive => ⟨start_inside positive, goal_inside positive, ?_, ?_, ?_⟩
  · exact fun cell none_placed => absurd none_placed List.not_mem_nil
  · exact fun cell member => (clear cell member).2.2 positive
  · exact fun member => (clear start member).1 rfl
  · exact fun member => (clear goal member).2.1 rfl

omit bounded in
omit [RandomSource σ] in
theorem lift_ensures {ε α : Type} {wrong : ε → RollFault} {given : Except ε α} {gives : α → Prop}
    {fails : RollFault → Prop} (possible : match given with
      | .ok value => gives value
      | .error fault => fails (wrong fault)) :
    Act.Ensures good (lift wrong given) gives fails := by
  cases given with
  | ok value => exact .pure possible
  | error fault => exact .throw possible

theorem attempts_ensures (settings : RollSettings) {facing : Facing}
    (known : Facing.ofDatum settings.facing = .ok facing) (attempt left : Nat) :
    Act.Ensures good (attempts settings attempt left) (fun _ => True)
      fun fault => fault = .noPuzzle settings.attempts ∨ Endless settings.size fault := by
  induction left generalizing attempt with
  | zero => exact .throw (.inl rfl)
  | succ left ih =>
    refine .bind ((layout_ensures bounded _ _).weaken fun _ => .inr) fun ⟨start, goal, placed⟩ sound => ?_
    have named : Act.Ensures good (lift .facing (Facing.ofDatum settings.facing) : Act RollFault σ Facing)
        (fun _ => True) fun fault => fault = .noPuzzle settings.attempts ∨ Endless settings.size fault :=
      lift_ensures (by rw [known]; trivial)
    refine .bind named fun facing _ => ?_
    split
    · refine .bind (.tell _) fun _ _ => lift_ensures ?_
      by_cases positive : 0 < settings.size
      · obtain ⟨puzzle, made⟩ := (sound positive).exists_puzzle known
        unfold Layout.draft at made
        rw [made]
        trivial
      · split
        · trivial
        · exact .inr fun some_size => absurd some_size positive
    · exact .bind (.tell _) fun _ _ => ih (attempt + 1)

/-- Rolling fails for want of room, for want of a solvable layout, or because a source looks for a
number without end. Only on boards of no size may more than that go wrong. -/
theorem puzzle_ensures (settings : RollSettings) {facing : Facing}
    (known : Facing.ofDatum settings.facing = .ok facing) :
    Act.Ensures good (puzzle settings) (fun _ => True) fun fault =>
      if fits settings = true then fault = .noPuzzle settings.attempts ∨ Endless settings.size fault
      else fault = .doesNotFit settings.obstacleCount settings.size := by
  unfold puzzle
  split
  · exact attempts_ensures bounded settings known 1 settings.attempts.toNat
  · exact .throw rfl

end ensures

theorem room_of_puzzle {settings : RollSettings} {source : σ} {rolled : Puzzle}
    (ok : (puzzle settings source).value.1 = .ok rolled) : fits settings = true ∧ 0 < settings.size := by
  have size := (puzzle_ok ok).size
  obtain ⟨low, high, _⟩ := rolled.start_inside
  exact ⟨(exists_layout_of_puzzle ok).1, by omega⟩

/-- On a board of no size the first number asked for is one below a bound that leaves none. -/
theorem puzzle_of_no_size {settings : RollSettings} {source : σ} {fault : DrawFault}
    (fits : fits settings = true) (some_attempt : 0 < settings.attempts)
    (drawn : (RandomSource.draw settings.size source).1 = .error fault) :
    (puzzle settings source).value.1 = .error (.draw fault) := by
  obtain ⟨left, count⟩ : ∃ left, settings.attempts.toNat = left + 1 := ⟨settings.attempts.toNat - 1, by omega⟩
  rw [puzzle, if_pos fits, count]
  rcases told : RandomSource.draw settings.size source with ⟨result, later⟩
  rw [told] at drawn
  cases drawn
  simp [attempts, layout, cell, number, told]

end Roll

theorem Twister.below_lt {bound patience number : Nat} {state later : Twister}
    (drawn : below bound patience state = (some number, later)) : number < bound := by
  induction patience generalizing state with
  | zero => cases drawn
  | succ patience ih =>
    rw [below] at drawn
    split at drawn
    rename_i bits _
    split at drawn
    · rename_i small
      cases drawn
      exact small
    · exact ih drawn

theorem reliable_twister : Reliable fun dice : Dice => ∃ state, dice = .twister state where
  seeded := fun seed => ⟨.ofSeed seed, rfl⟩
  kept := by
    rintro _ ⟨state, rfl⟩ bound
    change ∃ later, (Dice.draw bound (.twister state)).2 = .twister later
    simp only [Dice.draw]
    split
    · exact ⟨state, rfl⟩
    · split <;> exact ⟨_, rfl⟩
  draws := by
    rintro _ ⟨state, rfl⟩ bound positive
    change match (Dice.draw bound (.twister state)).1 with
      | .ok number => 0 ≤ number ∧ number < bound
      | .error fault => fault = .endless
    simp only [Dice.draw, if_neg (Int.not_le.mpr positive)]
    rcases drawn : Twister.below bound.toNat Dice.twisterPatience state with ⟨_ | number, later⟩
    · rfl
    · have small := Twister.below_lt drawn
      exact ⟨Int.natCast_nonneg number, by omega⟩

end BlockMaze
