import BlockMaze.Proofs.Chance.Spelling

/-! Puzzles rolled from a script of numbers: the first layout with a way to its goal is the one that comes out.
Since numbers spell a layout in one way only, there is no other first layout. -/
namespace BlockMaze

/-- The search finds a way to the goal. -/
def Layout.Leads (layout : Layout) (size : Int) (facing : Facing) : Prop :=
  reachable layout.start layout.goal layout.obstacles size facing = true

instance (layout : Layout) (size : Int) (facing : Facing) : Decidable (layout.Leads size facing) :=
  inferInstanceAs (Decidable (_ = true))

theorem Layout.Reads.subset {count : Int} {numbers rest : List Int} {layouts : List Layout}
    (reads : Reads count numbers layouts rest) : rest ⊆ numbers := by
  induction reads with
  | done => exact List.Subset.refl _
  | next _ _ ih => exact List.subset_append_of_subset_right _ ih

/-- Two readings of the same numbers agree as far as both go. -/
theorem Layout.Reads.agree {count : Int} {numbers start last : List Int} {layouts others : List Layout}
    (one : Reads count numbers layouts start) (other : Reads count numbers others last) :
    (∃ more, others = layouts ++ more ∧ Reads count start more last) ∨
      ∃ more, layouts = others ++ more ∧ Reads count last more start := by
  induction one generalizing others with
  | done start => exact .inl ⟨others, rfl, other⟩
  | @next layout layouts used numbers start spelled rest ih =>
    generalize same : used ++ numbers = script at other
    cases other with
    | done => exact .inr ⟨layout :: layouts, rfl, same ▸ .next spelled rest⟩
    | next also_spelled also_rest =>
      obtain ⟨rfl, rfl⟩ := Roll.spelled_unique spelled also_spelled same
      rcases ih also_rest with ⟨more, rfl, reads⟩ | ⟨more, rfl, reads⟩
      · exact .inl ⟨more, rfl, reads⟩
      · exact .inr ⟨more, rfl, reads⟩

theorem Layout.Reads.eq_of_leads {count size : Int} {facing : Facing} {used left last : List Int} {layout : Layout}
    {more : List Layout} (reads : Reads count (used ++ left) more last) (spelled : layout.Spelled count used)
    (leads : layout.Leads size facing) (missed : ∀ layout ∈ more, ¬ layout.Leads size facing) :
    used ++ left = last := by
  generalize same : used ++ left = numbers at reads
  cases reads with
  | done => rfl
  | next also_spelled _ =>
    obtain ⟨rfl, -⟩ := Roll.spelled_unique spelled also_spelled same
    exact absurd leads (missed layout List.mem_cons_self)

namespace Roll
open Dice

variable {settings : RollSettings} {facing : Facing} {layout : Layout} {failed : List Layout}
  {numbers used rest : List Int}

section attempts
variable (known : Facing.ofDatum settings.facing = .ok facing)
include known

theorem attempts_spelled (spelled : layout.Spelled settings.obstacleCount used) (attempt left : Nat)
    (rest : List Int) : (attempts settings attempt (left + 1) (script (used ++ rest))).value =
      if layout.Leads settings.size facing then
        ((lift .flaw (Puzzle.ofDraft (layout.draft settings)) : Act RollFault Dice Puzzle) (script rest)).value
      else (attempts settings (attempt + 1) left (script rest)).value := by
  have named : (lift .facing (Facing.ofDatum settings.facing) : Act RollFault Dice Facing) (script rest) =
      ⟨(.ok facing, script rest), []⟩ := by
    rw [known]
    rfl
  obtain ⟨start, goal, obstacles⟩ := layout
  rw [attempts, Act.bind_of_quiet (layout_script settings.size spelled rest)]
  dsimp only
  rw [Act.bind_of_quiet named, Act.ite_apply]
  split
  · rw [if_pos (show Layout.Leads _ _ _ from ‹_›)]
    rfl
  · rw [if_neg (show ¬ Layout.Leads _ _ _ from ‹_›)]
    rfl

theorem attempts_reads (reads : Layout.Reads settings.obstacleCount numbers failed rest)
    (missed : ∀ layout ∈ failed, ¬ layout.Leads settings.size facing) (attempt left : Nat) :
    (attempts settings attempt (failed.length + left) (script numbers)).value =
      (attempts settings (attempt + failed.length) left (script rest)).value := by
  induction reads generalizing attempt with
  | done rest => rw [List.length_nil, Nat.zero_add, Nat.add_zero]
  | @next layout layouts used numbers rest spelled more ih =>
    obtain ⟨first, others⟩ := List.forall_mem_cons.mp missed
    rw [List.length_cons, Nat.add_right_comm, attempts_spelled known spelled, if_neg first, ih others]
    rw [Nat.add_assoc attempt 1, Nat.add_comm 1]

end attempts

theorem attempts_out (out : Roll.layout settings.size settings.obstacleCount (script numbers) = ranOut)
    (attempt left : Nat) : attempts settings attempt (left + 1) (script numbers) = ranOut := by
  rw [attempts, bind_of_ranOut out]

/-- How far a script takes a number of attempts. -/
theorem exists_reads (size count : Int) (facing : Facing) (left : Nat) (numbers : List Int) :
    ∃ failed rest, Layout.Reads count numbers failed rest ∧
      (∀ layout ∈ failed, ¬ layout.Leads size facing) ∧
      (failed.length = left ∨ failed.length < left ∧ (Roll.layout size count (script rest) = ranOut ∨
        ∃ (layout : Layout) (used more : List Int), layout.Spelled count used ∧ rest = used ++ more ∧
          layout.Leads size facing)) := by
  -- Each attempt reads one layout, and only one that leads nowhere leaves the rest to the others.
  induction left generalizing numbers with
  | zero => exact ⟨[], numbers, .done numbers, List.forall_mem_nil _, .inl rfl⟩
  | succ left ih =>
    obtain ⟨layout, used, rest, spelled, rfl⟩ | out := layout_script_cases size count numbers
    · by_cases leads : layout.Leads size facing
      · refine ⟨[], _, .done _, List.forall_mem_nil _, .inr ⟨Nat.succ_pos _, .inr ?_⟩⟩
        exact ⟨layout, used, rest, spelled, rfl, leads⟩
      · obtain ⟨failed, last, reads, missed, goes⟩ := ih rest
        refine ⟨layout :: failed, last, .next spelled reads, List.forall_mem_cons.mpr ⟨leads, missed⟩, ?_⟩
        exact goes.imp (congrArg (· + 1)) (And.imp_left Nat.succ_lt_succ)
    · exact ⟨[], numbers, .done numbers, List.forall_mem_nil _, .inr ⟨Nat.succ_pos _, .inl out⟩⟩

/-- Within the attempts allowed, the first layout that leads to its goal. -/
inductive Finds (settings : RollSettings) (facing : Facing) (numbers : List Int) : Layout → List Int → Prop
  | intro {failed : List Layout} {layout : Layout} {used rest : List Int}
      (reads : Layout.Reads settings.obstacleCount numbers failed (used ++ rest))
      (spelled : layout.Spelled settings.obstacleCount used) (few : failed.length < settings.attempts)
      (missed : ∀ layout ∈ failed, ¬ layout.Leads settings.size facing)
      (leads : layout.Leads settings.size facing) : Finds settings facing numbers layout rest

/-- All the attempts allowed are spelled, and none of them leads to its goal. -/
inductive Misses (settings : RollSettings) (facing : Facing) (numbers : List Int) : List Int → Prop
  | intro {failed : List Layout} {rest : List Int} (reads : Layout.Reads settings.obstacleCount numbers failed rest)
      (all : failed.length = max 0 settings.attempts)
      (missed : ∀ layout ∈ failed, ¬ layout.Leads settings.size facing) : Misses settings facing numbers rest

theorem Finds.unique {one other : Layout} {left rest : List Int} (first : Finds settings facing numbers one left)
    (second : Finds settings facing numbers other rest) : one = other ∧ left = rest := by
  obtain @⟨failed, one, used, left, reads, spelled, -, missed, leads⟩ := first
  obtain @⟨others, other, again, rest, also_reads, also_spelled, -, also_missed, also_leads⟩ := second
  rcases reads.agree also_reads with ⟨more, rfl, between⟩ | ⟨more, rfl, between⟩
  · have same := between.eq_of_leads spelled leads fun layout member =>
      also_missed layout (List.mem_append_right _ member)
    exact spelled_unique spelled also_spelled same
  · have same := between.eq_of_leads also_spelled also_leads fun layout member =>
      missed layout (List.mem_append_right _ member)
    exact spelled_unique spelled also_spelled same.symm

section puzzle
variable (fits : fits settings = true) (known : Facing.ofDatum settings.facing = .ok facing)
include fits known

theorem puzzle_of_finds (in_range : ∀ number ∈ numbers, 0 ≤ number ∧ number < settings.size)
    (finds : Finds settings facing numbers layout rest) :
    ∃ puzzle, (Roll.puzzle settings (script numbers)).value = (.ok puzzle, script rest) ∧
      puzzle.start = layout.start ∧ puzzle.goal = layout.goal ∧ puzzle.obstacles = layout.obstacles ∧
      puzzle.facing = facing ∧ puzzle.size = settings.size ∧ puzzle.moveLimit = settings.moveLimit := by
  obtain @⟨failed, layout, used, rest, reads, spelled, few, missed, leads⟩ := finds
  have sound : Sound settings.size layout := sound_of_spelled spelled fun number member =>
    in_range number (reads.subset (List.mem_append_left _ member))
  obtain ⟨puzzle, made⟩ := sound.exists_puzzle known
  obtain ⟨start, goal, obstacles, size, moveLimit, named⟩ := Layout.draft_ok (ordered_of_spelled spelled) made
  cases known.symm.trans named
  refine ⟨puzzle, ?_, start, goal, obstacles, rfl, size, moveLimit⟩
  obtain ⟨left, count⟩ : ∃ left, settings.attempts.toNat = failed.length + (left + 1) :=
    ⟨settings.attempts.toNat - failed.length - 1, by omega⟩
  rw [Roll.puzzle, if_pos fits, count, attempts_reads known reads missed, attempts_spelled known spelled,
    if_pos leads, made]
  rfl

theorem puzzle_of_misses (misses : Misses settings facing numbers rest) :
    (Roll.puzzle settings (script numbers)).value = (.error (.noPuzzle settings.attempts), script rest) := by
  obtain @⟨failed, rest, reads, all, missed⟩ := misses
  have count : settings.attempts.toNat = failed.length + 0 := by omega
  rw [Roll.puzzle, if_pos fits, count, attempts_reads known reads missed]
  rfl

theorem finds_or_misses (numbers : List Int) :
    (∃ layout rest, Finds settings facing numbers layout rest) ∨ (∃ rest, Misses settings facing numbers rest) ∨
      (Roll.puzzle settings (script numbers)).value = (.error (.draw .exhausted), script []) := by
  have attempts : (Roll.puzzle settings (script numbers)).value =
      (Roll.attempts settings 1 settings.attempts.toNat (script numbers)).value := by
    rw [Roll.puzzle, if_pos fits]
  obtain ⟨failed, last, reads, missed, all | ⟨few, out | ⟨layout, used, rest, spelled, rfl, leads⟩⟩⟩ :=
    exists_reads settings.size settings.obstacleCount facing settings.attempts.toNat numbers
  · exact .inr (.inl ⟨last, .intro reads (by omega) missed⟩)
  · obtain ⟨left, count⟩ : ∃ left, settings.attempts.toNat = failed.length + (left + 1) :=
      ⟨settings.attempts.toNat - failed.length - 1, by omega⟩
    rw [attempts, count, attempts_reads known reads missed, attempts_out out]
    exact .inr (.inr rfl)
  · exact .inl ⟨layout, rest, .intro reads spelled (by omega) missed leads⟩

end puzzle

/-- The puzzle of the first layout that leads to its goal comes out, and the script stands behind its numbers. There
is no puzzle exactly if the attempts are spelled in vain. Otherwise the script runs out. At most one layout is
the first. -/
theorem puzzle_of_script (settings : RollSettings) (numbers : List Int)
    (in_range : ∀ number ∈ numbers, 0 ≤ number ∧ number < settings.size) (fits : fits settings = true)
    {facing : Facing} (known : Facing.ofDatum settings.facing = .ok facing) :
    let result := (Roll.puzzle settings (script numbers)).value
    (∀ layout rest, Finds settings facing numbers layout rest → ∃ puzzle, result = (.ok puzzle, script rest) ∧
      puzzle.start = layout.start ∧ puzzle.goal = layout.goal ∧ puzzle.obstacles = layout.obstacles ∧
      puzzle.facing = facing ∧ puzzle.size = settings.size ∧ puzzle.moveLimit = settings.moveLimit) ∧
    (∀ tried dice, result = (.error (.noPuzzle tried), dice) ↔
      tried = settings.attempts ∧ ∃ rest, Misses settings facing numbers rest ∧ dice = script rest) ∧
    ((∀ layout rest, ¬ Finds settings facing numbers layout rest) →
      (∀ rest, ¬ Misses settings facing numbers rest) → result = (.error (.draw .exhausted), script [])) ∧
    ∀ one other left rest, Finds settings facing numbers one left → Finds settings facing numbers other rest →
      one = other ∧ left = rest := by
  intro result
  have found {layout : Layout} {rest : List Int} (finds : Finds settings facing numbers layout rest) :=
    puzzle_of_finds fits known in_range finds
  have missed {rest : List Int} (misses : Misses settings facing numbers rest) :
      result = (.error (.noPuzzle settings.attempts), script rest) := puzzle_of_misses fits known misses
  refine ⟨fun layout rest finds => found finds, fun tried dice => ⟨fun none_found => ?_, ?_⟩,
    fun no_find no_miss => ?_, fun _ _ _ _ first second => first.unique second⟩
  · obtain ⟨layout, rest, finds⟩ | ⟨rest, misses⟩ | out := finds_or_misses fits known numbers
    · obtain ⟨puzzle, made, -⟩ := found finds
      cases made.symm.trans none_found
    · cases (missed misses).symm.trans none_found
      exact ⟨rfl, rest, misses, rfl⟩
    · cases out.symm.trans none_found
  · rintro ⟨rfl, rest, misses, rfl⟩
    exact missed misses
  · obtain ⟨layout, rest, finds⟩ | ⟨rest, misses⟩ | out := finds_or_misses fits known numbers
    · exact absurd finds (no_find layout rest)
    · exact absurd misses (no_miss rest)
    · exact out

def hedgeSettings : RollSettings := { size := 2, obstacleCount := 2, attempts := 2 }

/-- Both ways to the goal are closed. -/
def hedged : Layout := ⟨⟨0, 0⟩, ⟨1, 1⟩, [⟨0, 1⟩, ⟨1, 0⟩]⟩

def hedgedNumbers : List Int := [0, 0, 1, 1, 1, 0, 0, 1]

def beside : Layout := ⟨⟨0, 0⟩, ⟨1, 0⟩, [⟨0, 1⟩, ⟨1, 1⟩]⟩

/-- The start is drawn twice, and so is an obstacle. -/
def besideNumbers : List Int := [0, 0, 0, 0, 1, 0, 0, 1, 0, 1, 1, 1]

theorem hedged_spelled : hedged.Spelled 2 hedgedNumbers := by
  have fills : Cell.Fills 2 hedged.start hedged.goal [] [⟨1, 0⟩, ⟨0, 1⟩] :=
    (fills_cons .nil).mpr ⟨by decide, (fills_cons (by decide)).mpr ⟨by decide,
      (fills_nil (by decide)).mpr (by decide)⟩⟩
  exact .intro [] _ (by decide) (by decide) fills (by decide) (by decide)

theorem beside_spelled : beside.Spelled 2 besideNumbers := by
  have fills : Cell.Fills 2 beside.start beside.goal [] [⟨0, 1⟩, ⟨0, 1⟩, ⟨1, 1⟩] :=
    (fills_cons .nil).mpr ⟨by decide, (fills_cons (by decide)).mpr ⟨by decide,
      (fills_cons (by decide)).mpr ⟨by decide, (fills_nil (by decide)).mpr (by decide)⟩⟩⟩
  exact .intro [⟨0, 0⟩] _ (by decide) (by decide) fills (by decide) (by decide)

theorem beside_found : Finds hedgeSettings .right (hedgedNumbers ++ (besideNumbers ++ [1])) beside [1] := by
  have missed : ¬ hedged.Leads 2 .right := by decide +kernel
  have leads : beside.Leads 2 .right := by decide +kernel
  exact .intro (.next hedged_spelled (.done _)) beside_spelled (by decide) (List.forall_mem_singleton.mpr missed) leads

theorem puzzle_of_script_beside :
    let numbers := hedgedNumbers ++ (besideNumbers ++ [1])
    (∀ number ∈ numbers, 0 ≤ number ∧ number < hedgeSettings.size) ∧ fits hedgeSettings = true ∧
      Facing.ofDatum hedgeSettings.facing = .ok .right ∧ Finds hedgeSettings .right numbers beside [1] ∧
      ∃ puzzle, (Roll.puzzle hedgeSettings (script numbers)).value = (.ok puzzle, script [1]) ∧
        puzzle.start = beside.start ∧ puzzle.goal = beside.goal ∧ puzzle.obstacles = beside.obstacles := by
  intro numbers
  have in_range : ∀ number ∈ numbers, 0 ≤ number ∧ number < hedgeSettings.size := by decide
  have known : Facing.ofDatum hedgeSettings.facing = .ok .right := rfl
  obtain ⟨puzzle, made, start, goal, obstacles, -⟩ :=
    (puzzle_of_script hedgeSettings numbers in_range (by decide) known).1 beside [1] beside_found
  exact ⟨in_range, by decide, known, beside_found, puzzle, made, start, goal, obstacles⟩

end Roll

end BlockMaze
