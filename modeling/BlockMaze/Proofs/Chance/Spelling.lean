import Mathlib.Data.List.Sort
import BlockMaze.Proofs.Chance.Faults

/-! How numbers spell layouts. They are read in pairs, as the cells of one layout after the other, and a script of
them gives just these layouts. -/
namespace BlockMaze

def Cell.numbers (cell : Cell) : List Int := [cell.x, cell.y]

/-- The cells of a run other than start and goal. -/
def Cell.others (start goal : Cell) (run : List Cell) : Finset Cell :=
  (run.filter fun cell => cell ≠ start ∧ cell ≠ goal).toFinset

/-- A run with enough others, together with those already placed, and no longer than that takes. -/
structure Cell.Fills (count : Int) (start goal : Cell) (placed run : List Cell) : Prop where
  enough : count ≤ (placed.toFinset ∪ others start goal run).card
  shortest : ∀ shorter, shorter <+: run → count ≤ (placed.toFinset ∪ others start goal shorter).card → shorter = run

/-- A layout is spelled by its start, the start again any number of times, its goal, and the shortest run of cells
among which there are enough others: these are its obstacles. -/
inductive Layout.Spelled (count : Int) (layout : Layout) : List Int → Prop
  | intro (again run : List Cell) (same : ∀ cell ∈ again, cell = layout.start)
      (apart : layout.goal ≠ layout.start) (fills : Cell.Fills count layout.start layout.goal [] run)
      (obstacles : layout.obstacles.toFinset = Cell.others layout.start layout.goal run)
      (ordered : layout.obstacles.Pairwise Cell.Before) :
      Spelled count layout ((layout.start :: again ++ layout.goal :: run).flatMap Cell.numbers)

/-- Numbers spell these layouts one after the other, and the rest is left. -/
inductive Layout.Reads (count : Int) : List Int → List Layout → List Int → Prop
  | done (rest : List Int) : Reads count rest [] rest
  | next {layout : Layout} {layouts : List Layout} {used numbers rest : List Int}
      (spelled : layout.Spelled count used) (more : Reads count numbers layouts rest) :
      Reads count (used ++ numbers) (layout :: layouts) rest

namespace Cell

theorem mem_others {cell start goal : Cell} {run : List Cell} :
    cell ∈ others start goal run ↔ cell ∈ run ∧ cell ≠ start ∧ cell ≠ goal := by
  simp [others]

theorem placed_others (start goal drawn : Cell) (placed run : List Cell) :
    (if drawn = start ∨ drawn = goal then placed else place drawn placed).toFinset ∪ others start goal run =
      placed.toFinset ∪ others start goal (drawn :: run) := by
  ext cell
  split
  · rename_i taken
    simp only [Finset.mem_union, mem_others, List.mem_cons]
    grind
  · rename_i free
    simp only [Finset.mem_union, mem_others, List.mem_cons, List.mem_toFinset, mem_place]
    grind

theorem others_nil (start goal : Cell) : others start goal [] = ∅ := rfl

theorem length_of_ordered {cells : List Cell} (ordered : cells.Pairwise Before) :
    cells.length = cells.toFinset.card := (List.toFinset_card_of_nodup ordered.nodup).symm

theorem eq_of_ordered {one other : List Cell} (first : one.Pairwise Before) (second : other.Pairwise Before)
    (same : one.toFinset = other.toFinset) : one = other :=
  first.eq_of_mem_iff second fun cell => by rw [← List.mem_toFinset, same, List.mem_toFinset]

end Cell

namespace Roll
open Dice

variable {size count : Int} {start target : Cell}

abbrev ranOut {α : Type} : Told (Except RollFault α × Dice) := ⟨(.error (.draw .exhausted), script []), []⟩

theorem bind_of_ranOut {α β : Type} {act : Act RollFault Dice α} {numbers : List Int}
    (first : act (script numbers) = ranOut) (next : α → Act RollFault Dice β) :
    (act >>= next) (script numbers) = ranOut := Act.bind_of_error first next

theorem cell_script_cases (size : Int) (numbers : List Int) :
    (∃ (drawn : Cell) (rest : List Int), numbers = drawn.numbers ++ rest) ∨
      cell size (script numbers) = ranOut := by
  match numbers with
  | [] | [_] => exact .inr rfl
  | x :: y :: rest => exact .inl ⟨⟨x, y⟩, rest, rfl⟩

theorem bind_cell_script {β : Type} (size : Int) (drawn : Cell) (rest : List Int)
    (next : Cell → Act RollFault Dice β) :
    (cell size >>= next) (script (drawn.numbers ++ rest)) = next drawn (script rest) := by
  have first : cell size (script (drawn.numbers ++ rest)) = ⟨(.ok drawn, script rest), []⟩ := rfl
  exact Act.bind_of_quiet first next

theorem length_numbers (cells : List Cell) : (cells.flatMap Cell.numbers).length = 2 * cells.length := by
  induction cells with
  | nil => rfl
  | cons cell cells ih =>
    rw [List.flatMap_cons, List.length_append, ih]
    simp only [Cell.numbers, List.length_cons, List.length_nil]
    omega

theorem goal_script {drawn : Cell} {again : List Cell} (same : ∀ cell ∈ again, cell = start)
    (apart : drawn ≠ start) {patience : Nat} (patient : again.length < patience) (rest : List Int) :
    goal size start patience (script ((again ++ [drawn]).flatMap Cell.numbers ++ rest)) =
      ⟨(.ok drawn, script rest), []⟩ := by
  induction again generalizing patience with
  | nil =>
    obtain ⟨patience, rfl⟩ := Nat.exists_eq_succ_of_ne_zero patient.ne'
    rw [goal]
    exact (bind_cell_script size drawn rest _).trans (by rw [if_neg apart]; rfl)
  | cons first again ih =>
    obtain ⟨patience, rfl⟩ := Nat.exists_eq_succ_of_ne_zero (Nat.ne_zero_of_lt patient)
    obtain ⟨rfl, same⟩ := List.forall_mem_cons.mp same
    rw [goal, List.cons_append, List.flatMap_cons, List.append_assoc, bind_cell_script, if_pos rfl]
    exact ih same (by simpa using patient)

theorem goal_script_cases (size : Int) (start : Cell) {patience : Nat} {numbers : List Int}
    (patient : numbers.length < patience) :
    (∃ (again : List Cell) (drawn : Cell) (rest : List Int), (∀ cell ∈ again, cell = start) ∧ drawn ≠ start ∧
      numbers = (again ++ [drawn]).flatMap Cell.numbers ++ rest ∧
      goal size start patience (script numbers) = ⟨(.ok drawn, script rest), []⟩) ∨
      goal size start patience (script numbers) = ranOut := by
  induction patience generalizing numbers with
  | zero => cases patient
  | succ patience ih =>
    obtain ⟨drawn, rest, rfl⟩ | out := cell_script_cases size numbers
    · rw [goal, bind_cell_script]
      by_cases same : drawn = start
      · rw [if_pos same]
        have fewer : rest.length < patience := by
          simp only [Cell.numbers, List.length_append, List.length_cons, List.length_nil] at patient
          omega
        refine (ih fewer).imp_left ?_
        rintro ⟨again, goal, rest, repeated, apart, rfl, found⟩
        exact ⟨drawn :: again, goal, rest, List.forall_mem_cons.mpr ⟨same, repeated⟩, apart,
          by simp only [List.cons_append, List.flatMap_cons, List.append_assoc], found⟩
      · exact .inl ⟨[], drawn, rest, List.forall_mem_nil _, same, by simp, by rw [if_neg same]; rfl⟩
    · exact .inr (bind_of_ranOut out _)

theorem fills_nil {placed : List Cell} (ordered : placed.Pairwise Cell.Before) :
    Cell.Fills count start target placed [] ↔ count ≤ placed.length := by
  rw [Cell.length_of_ordered ordered]
  refine ⟨fun fills => by simpa [Cell.others_nil] using fills.enough, fun enough => ⟨?_, ?_⟩⟩
  · simpa [Cell.others_nil] using enough
  · exact fun shorter within _ => List.prefix_nil.mp within

theorem fills_cons {placed run : List Cell} {drawn : Cell} (ordered : placed.Pairwise Cell.Before) :
    Cell.Fills count start target placed (drawn :: run) ↔ ¬ count ≤ placed.length ∧
      Cell.Fills count start target (if drawn = start ∨ drawn = target then placed else Cell.place drawn placed) run := by
  rw [Cell.length_of_ordered ordered]
  constructor
  · rintro ⟨enough, shortest⟩
    refine ⟨fun full => ?_, by rwa [Cell.placed_others], fun shorter within full => ?_⟩
    · cases shortest [] (List.nil_prefix) (by simpa [Cell.others_nil] using full)
    · rw [Cell.placed_others] at full
      exact (List.cons.inj (shortest _ (List.prefix_cons_inj drawn |>.mpr within) full)).2
  · rintro ⟨few, enough, shortest⟩
    rw [Cell.placed_others] at enough
    refine ⟨enough, fun shorter within full => ?_⟩
    rcases shorter with _ | ⟨first, shorter⟩
    · exact absurd (by simpa [Cell.others_nil] using full) few
    · obtain ⟨rfl, tail⟩ := List.cons_prefix_cons.mp within
      rw [← Cell.placed_others] at full
      rw [shortest shorter tail full]

theorem place_unless_ordered {placed : List Cell} (ordered : placed.Pairwise Cell.Before) (drawn : Cell) :
    (if drawn = start ∨ drawn = target then placed else Cell.place drawn placed).Pairwise Cell.Before := by
  split
  · exact ordered
  · exact Cell.place_ordered drawn ordered

theorem obstacles_script {patience : Nat} {run placed drawn : List Cell} (patient : run.length ≤ patience)
    (before : placed.Pairwise Cell.Before) (ordered : drawn.Pairwise Cell.Before)
    (gathered : drawn.toFinset = placed.toFinset ∪ Cell.others start target run)
    (fills : Cell.Fills count start target placed run) (rest : List Int) :
    obstacles size count start target patience placed (script (run.flatMap Cell.numbers ++ rest)) =
      ⟨(.ok drawn, script rest), []⟩ := by
  induction run generalizing placed patience with
  | nil =>
    rw [Cell.others_nil, Finset.union_empty] at gathered
    cases Cell.eq_of_ordered ordered before gathered
    unfold obstacles
    rw [if_pos ((fills_nil before).mp fills)]
    rfl
  | cons cell run ih =>
    -- Before the last of a shortest run there are too few cells, so that another one is drawn.
    obtain ⟨patience, rfl⟩ := Nat.exists_eq_succ_of_ne_zero (Nat.ne_zero_of_lt patient)
    obtain ⟨few, fills⟩ := (fills_cons before).mp fills
    rw [obstacles, if_neg few, List.flatMap_cons, List.append_assoc]
    refine (bind_cell_script size cell _ _).trans ?_
    exact ih (Nat.le_of_succ_le_succ patient) (place_unless_ordered before cell)
      (by rwa [Cell.placed_others]) fills

theorem obstacles_script_cases (size count : Int) (start target : Cell) {patience : Nat} {placed : List Cell}
    {numbers : List Int} (patient : numbers.length < patience) (before : placed.Pairwise Cell.Before) :
    (∃ (run : List Cell) (rest : List Int), Cell.Fills count start target placed run ∧
      numbers = run.flatMap Cell.numbers ++ rest) ∨
      obstacles size count start target patience placed (script numbers) = ranOut := by
  induction patience generalizing placed numbers with
  | zero => cases patient
  | succ patience ih =>
    by_cases enough : count ≤ placed.length
    · exact .inl ⟨[], numbers, (fills_nil before).mpr enough, rfl⟩
    · rw [obstacles, if_neg enough]
      obtain ⟨drawn, rest, rfl⟩ | out := cell_script_cases size numbers
      · have fewer : rest.length < patience := by
          simp only [Cell.numbers, List.length_append, List.length_cons, List.length_nil] at patient
          omega
        refine (ih fewer (place_unless_ordered before drawn)).imp ?_ (bind_cell_script size drawn rest _).trans
        rintro ⟨run, rest, fills, rfl⟩
        exact ⟨drawn :: run, rest, (fills_cons before).mpr ⟨enough, fills⟩,
          by simp only [List.flatMap_cons, List.append_assoc]⟩
      · exact .inr (bind_of_ranOut out _)

theorem patience_script (numbers : List Int) : RandomSource.patience (script numbers) = numbers.length + 1 := rfl

theorem layout_script (size : Int) {layout : Layout} {used : List Int} (spelled : layout.Spelled count used)
    (rest : List Int) :
    Roll.layout size count (script (used ++ rest)) = ⟨(.ok layout, script rest), []⟩ := by
  obtain ⟨again, run, same, apart, fills, obstacles, ordered⟩ := spelled
  have split : (layout.start :: again ++ layout.goal :: run).flatMap Cell.numbers ++ rest =
      layout.start.numbers ++ ((again ++ [layout.goal]).flatMap Cell.numbers ++
        (run.flatMap Cell.numbers ++ rest)) := by
    simp only [List.cons_append, List.flatMap_cons, List.flatMap_append, List.flatMap_nil, List.append_assoc,
      List.nil_append]
  have placed : layout.obstacles.toFinset =
      [].toFinset ∪ Cell.others layout.start layout.goal run := by
    rw [obstacles, List.toFinset_nil, Finset.empty_union]
  rw [split, Roll.layout, bind_cell_script]
  refine (Act.bind_of_quiet (Act.get_apply _) _).trans ?_
  refine (Act.bind_of_quiet (goal_script same apart ?_ _) _).trans ?_
  · rw [patience_script, List.length_append, length_numbers]
    simp only [List.length_append]
    omega
  refine (Act.bind_of_quiet (Act.get_apply _) _).trans ?_
  refine (Act.bind_of_quiet (obstacles_script ?_ .nil ordered placed fills _) _).trans ?_
  · rw [patience_script, List.length_append, length_numbers]
    omega
  rfl

theorem layout_script_cases (size count : Int) (numbers : List Int) :
    (∃ (layout : Layout) (used rest : List Int), layout.Spelled count used ∧ numbers = used ++ rest) ∨
      Roll.layout size count (script numbers) = ranOut := by
  rw [Roll.layout]
  obtain ⟨start, afterStart, rfl⟩ | out := cell_script_cases size numbers
  case inr => exact .inr (bind_of_ranOut out _)
  rw [bind_cell_script]
  have patient (left : List Int) : left.length < RandomSource.patience (script left) := Nat.lt_succ_self _
  obtain ⟨again, goal, afterGoal, same, apart, rfl, found⟩ | out := goal_script_cases size start (patient afterStart)
  case inr => exact .inr ((Act.bind_of_quiet (Act.get_apply _) _).trans (bind_of_ranOut out _))
  obtain ⟨run, rest, fills, rfl⟩ | out := obstacles_script_cases size count start goal (patient afterGoal) .nil
  case inr =>
    refine .inr ((Act.bind_of_quiet (Act.get_apply _) _).trans ?_)
    refine (Act.bind_of_quiet found _).trans ?_
    exact (Act.bind_of_quiet (Act.get_apply _) _).trans (bind_of_ranOut out _)
  let others := run.filter fun cell => cell ≠ start ∧ cell ≠ goal
  have obstacles : (Cell.arrange others).toFinset = Cell.others start goal run := by
    ext cell
    rw [List.mem_toFinset, Cell.mem_arrange, Cell.others, List.mem_toFinset]
  refine .inl ⟨⟨start, goal, Cell.arrange others⟩, _, rest,
    .intro again run same apart fills obstacles (Cell.arrange_ordered others), ?_⟩
  simp only [List.cons_append, List.flatMap_cons, List.flatMap_append, List.flatMap_nil, List.append_assoc,
    List.nil_append]

/-- Numbers spell a layout in one way only. -/
theorem spelled_unique {one other : Layout} {used again left rest : List Int} (first : one.Spelled count used)
    (second : other.Spelled count again) (same : used ++ left = again ++ rest) : one = other ∧ left = rest := by
  have drawn := layout_script 0 first left
  rw [same, layout_script 0 second rest] at drawn
  cases drawn
  exact ⟨rfl, rfl⟩

theorem inside_of_mem {cells : List Cell} {cell : Cell} (member : cell ∈ cells)
    (in_range : ∀ number ∈ cells.flatMap Cell.numbers, 0 ≤ number ∧ number < size) : cell.Inside size := by
  have across := in_range cell.x (List.mem_flatMap.mpr ⟨cell, member, List.mem_cons_self⟩)
  have down := in_range cell.y (List.mem_flatMap.mpr ⟨cell, member, List.mem_cons_of_mem _ List.mem_cons_self⟩)
  exact ⟨across.1, across.2, down.1, down.2⟩

theorem sound_of_spelled {layout : Layout} {used : List Int} (spelled : layout.Spelled count used)
    (in_range : ∀ number ∈ used, 0 ≤ number ∧ number < size) : Sound size layout := by
  obtain ⟨again, run, same, apart, fills, obstacles, ordered⟩ := spelled
  have others {cell : Cell} (member : cell ∈ layout.obstacles) :
      cell ∈ run ∧ cell ≠ layout.start ∧ cell ≠ layout.goal := by
    rwa [← List.mem_toFinset, obstacles, Cell.mem_others] at member
  exact {
    start_inside := inside_of_mem (by simp) in_range
    goal_inside := inside_of_mem (by simp) in_range
    obstacles_inside := fun cell member => inside_of_mem (by simp [(others member).1]) in_range
    start_free := fun member => (others member).2.1 rfl
    goal_free := fun member => (others member).2.2 rfl }

theorem ordered_of_spelled {layout : Layout} {used : List Int} (spelled : layout.Spelled count used) :
    layout.obstacles.Pairwise Cell.Before := by
  obtain ⟨_, _, _, _, _, _, ordered⟩ := spelled
  exact ordered

end Roll

end BlockMaze
