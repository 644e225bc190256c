import Mathlib.Data.Finset.Prod
import Mathlib.Data.Nat.Find
import BlockMaze.Search.Reach

/-! Routes: chains of neighbouring cells, every one of them open except perhaps the first. Facings play
no part. On a board a shortest route visits no cell twice, which bounds its length. -/
namespace BlockMaze

def Cell.board (size : Int) : Finset Cell :=
  (Finset.range size.toNat ×ˢ Finset.range size.toNat).image fun place => ⟨place.1, place.2⟩

theorem Cell.mem_board {cell : Cell} {size : Int} : cell ∈ Cell.board size ↔ cell.Inside size := by
  simp only [Cell.board, Finset.mem_image, Finset.mem_product, Finset.mem_range, Prod.exists, Cell.inside_iff,
    eq_comm]

theorem Cell.card_board (size : Int) : (Cell.board size).card = size.toNat * size.toNat := by
  have apart : Function.Injective fun place : Nat × Nat => (⟨place.1, place.2⟩ : Cell) := by
    rintro ⟨column, row⟩ ⟨other, below⟩ same
    simpa [Int.ofNat_inj] using same
  rw [Cell.board, Finset.card_image_of_injective _ apart, Finset.card_product, Finset.card_range]

theorem Cell.card_board_of_nonneg {size : Int} (nonneg : 0 ≤ size) :
    ((Cell.board size).card : Int) = size * size := by
  rw [card_board, Int.natCast_mul, Int.toNat_of_nonneg nonneg]

/-- A route from one cell to another in a number of steps. -/
inductive Route (isOpen : Cell → Bool) : Cell → Cell → Nat → Prop
  | here (cell : Cell) : Route isOpen cell cell 0
  | onward {cell goal : Cell} {steps : Nat} (facing : Facing)
      (free : isOpen (cell.ahead facing) = true)
      (rest : Route isOpen (cell.ahead facing) goal steps) : Route isOpen cell goal (steps + 1)

namespace Route
variable {isOpen : Cell → Bool} {start middle goal : Cell} {first second steps : Nat}

theorem append (front : Route isOpen start middle first) (back : Route isOpen middle goal second) :
    Route isOpen start goal (first + second) := by
  induction front with
  | here => simpa using back
  | @onward cell goal steps facing free rest ih =>
    have longer := Route.onward facing free (ih back)
    rwa [Nat.add_right_comm]

theorem extend (route : Route isOpen start goal steps) (facing : Facing)
    (free : isOpen (goal.ahead facing) = true) :
    Route isOpen start (goal.ahead facing) (steps + 1) :=
  route.append (.onward facing free (.here _))

theorem split (route : Route isOpen start goal (first + second)) :
    ∃ middle, Route isOpen start middle first ∧ Route isOpen middle goal second := by
  induction first generalizing start with
  | zero => exact ⟨start, .here _, by simpa using route⟩
  | succ first ih =>
    rw [Nat.succ_add] at route
    cases route with
    | onward facing free rest =>
      obtain ⟨middle, front, back⟩ := ih rest
      exact ⟨middle, .onward facing free front, back⟩

theorem open_goal (route : Route isOpen start goal steps) : goal = start ∨ isOpen goal = true := by
  induction route with
  | here => exact .inl rfl
  | onward facing free rest ih =>
    rcases ih with same | open_end
    · exact .inr (same ▸ free)
    · exact .inr open_end

/-- A height that no step between open cells raises by more than one bounds how fast a route climbs. -/
theorem height_le (route : Route isOpen start goal steps) (height : Cell → Nat)
    (rises : ∀ cell facing, isOpen cell = true → isOpen (cell.ahead facing) = true →
      height (cell.ahead facing) ≤ height cell + 1) (open_start : isOpen start = true) :
    height goal ≤ height start + steps := by
  induction route with
  | here => exact Nat.le_refl _
  | @onward cell goal steps facing free rest ih =>
    have step := rises cell facing open_start free
    have above := ih free
    omega

/-- Along a shortest route the cells after different numbers of steps differ, so that there are no
more steps than cells beside the start. -/
theorem shortest_lt_card {cells : Finset Cell} (route : Route isOpen start goal steps)
    (shortest : ∀ fewer, Route isOpen start goal fewer → steps ≤ fewer) (from_start : start ∈ cells)
    (inside : ∀ cell, isOpen cell = true → cell ∈ cells) : steps < cells.card := by
  have halves : ∀ count, ∃ cell, count ≤ steps →
      Route isOpen start cell count ∧ Route isOpen cell goal (steps - count) := by
    intro count
    by_cases early : count ≤ steps
    · have whole : Route isOpen start goal (count + (steps - count)) := by
        rwa [Nat.add_sub_cancel' early]
      obtain ⟨cell, front, back⟩ := whole.split
      exact ⟨cell, fun _ => ⟨front, back⟩⟩
    · exact ⟨start, fun within => absurd within early⟩
  choose cell passed using halves
  have known : ∀ count ∈ Finset.range (steps + 1), cell count ∈ cells := by
    intro count within
    have early : count ≤ steps := by simpa [Nat.lt_succ_iff] using within
    rcases (passed count early).1.open_goal with same | free
    · exact same ▸ from_start
    · exact inside _ free
  -- one cell visited twice would let the route leave out what lies between
  have distinct : Set.InjOn cell (Finset.range (steps + 1)) := by
    intro one within other beyond same
    simp only [Finset.coe_range, Set.mem_Iio, Nat.lt_succ_iff] at within beyond
    have forth := (passed one within).1.append (same ▸ (passed other beyond).2)
    have back := (passed other beyond).1.append (same ▸ (passed one within).2)
    have least := shortest _ forth
    have least' := shortest _ back
    omega
  have enough := Finset.card_le_card_of_injOn cell known distinct
  rwa [Finset.card_range, Nat.succ_le_iff] at enough

theorem shorten {cells : Finset Cell} (route : Route isOpen start goal steps)
    (from_start : start ∈ cells) (inside : ∀ cell, isOpen cell = true → cell ∈ cells) :
    ∃ fewer, fewer < cells.card ∧ Route isOpen start goal fewer := by
  classical
  have some_route : ∃ count, Route isOpen start goal count := ⟨steps, route⟩
  refine ⟨Nat.find some_route, ?_, Nat.find_spec some_route⟩
  exact shortest_lt_card (Nat.find_spec some_route)
    (fun fewer other => Nat.find_min' some_route other) from_start inside

end Route

theorem openCell_inside {obstacles : List Cell} {size : Int} {cell : Cell}
    (free : openCell obstacles size cell = true) : cell.Inside size := by
  simp only [openCell, Bool.and_eq_true, decide_eq_true_eq] at free
  exact free.1

theorem openCell_eq_true_iff {obstacles : List Cell} {size : Int} {cell : Cell} :
    openCell obstacles size cell = true ↔ cell.Inside size ∧ cell ∉ obstacles := by
  simp [openCell]

end BlockMaze
