import BlockMaze.Proofs.Search.Reachable

/-! Reachable is connected. The search turns on the spot and steps ahead, yet all that its answer depends on
are chains of open cells that share sides. How the agent looks at first plays no part, nor does it matter
whether the start itself is open. -/
namespace BlockMaze

/-- Whether two cells share a side. -/
def Cell.Adjoins (one other : Cell) : Prop := (other.x - one.x).natAbs + (other.y - one.y).natAbs = 1

/-- One cell leads to another that adjoins it, lies on the board and is no obstacle. -/
structure Passage (obstacles : List Cell) (size : Int) (one other : Cell) : Prop where
  adjoins : one.Adjoins other
  inside : other.Inside size
  clear : other ∉ obstacles

theorem Cell.adjoins_iff_ahead {one other : Cell} :
    one.Adjoins other ↔ ∃ facing, other = one.ahead facing := by
  rcases one with ⟨x, y⟩
  rcases other with ⟨x', y'⟩
  constructor
  · intro adjoins
    simp only [Adjoins] at adjoins
    have sides : x' = x ∧ y' = y - 1 ∨ x' = x + 1 ∧ y' = y ∨ x' = x ∧ y' = y + 1 ∨ x' = x - 1 ∧ y' = y := by
      omega
    rcases sides with ⟨rfl, rfl⟩ | ⟨rfl, rfl⟩ | ⟨rfl, rfl⟩ | ⟨rfl, rfl⟩
    · exact ⟨.up, rfl⟩
    · exact ⟨.right, rfl⟩
    · exact ⟨.down, rfl⟩
    · exact ⟨.left, rfl⟩
  · rintro ⟨facing, same⟩
    cases facing <;> simp only [ahead, Cell.mk.injEq] at same <;> simp only [Adjoins] <;> omega

theorem passage_iff {obstacles : List Cell} {size : Int} {one other : Cell} :
    Passage obstacles size one other ↔
      openCell obstacles size other = true ∧ ∃ facing, other = one.ahead facing := by
  rw [openCell_eq_true_iff, ← Cell.adjoins_iff_ahead]
  exact ⟨fun passage => ⟨⟨passage.inside, passage.clear⟩, passage.adjoins⟩,
    fun ⟨⟨inside, clear⟩, adjoins⟩ => ⟨adjoins, inside, clear⟩⟩

namespace Route
variable {isOpen also : Cell → Bool} {start cell goal : Cell} {steps : Nat} {obstacles : List Cell}
  {size : Int}

theorem widen (route : Route isOpen cell goal steps)
    (wider : ∀ cell, isOpen cell = true → also cell = true) : Route also cell goal steps := by
  induction route with
  | here => exact .here _
  | onward facing free rest ih => exact .onward facing (wider _ free) ih

/-- A route need not come back to a cell: from that cell on, or else all along, there is one without it. -/
theorem avoiding (route : Route isOpen cell goal steps)
    (others : ∀ cell, cell ≠ start → isOpen cell = true → also cell = true) :
    (∃ count, Route also cell goal count) ∨ ∃ count, Route also start goal count := by
  induction route with
  | here cell => exact .inl ⟨0, .here cell⟩
  | @onward cell goal steps facing free rest ih =>
    rcases ih with ⟨count, ahead⟩ | back
    -- a step back to that cell begins the route anew
    · by_cases again : cell.ahead facing = start
      · exact .inr ⟨count, again ▸ ahead⟩
      · exact .inl ⟨count + 1, .onward facing (others _ again free) ahead⟩
    · exact .inr back

theorem exists_chain (route : Route (openCell obstacles size) cell goal steps) :
    ∃ cells, (cell :: cells).getLast? = some goal ∧
      (cell :: cells).IsChain (Passage obstacles size) := by
  induction route with
  | here cell => exact ⟨[], rfl, .singleton cell⟩
  | @onward cell goal steps facing free rest ih =>
    obtain ⟨cells, last, chain⟩ := ih
    refine ⟨cell.ahead facing :: cells, ?_, .cons_cons (passage_iff.mpr ⟨free, facing, rfl⟩) chain⟩
    rwa [List.getLast?_cons_cons]

theorem of_chain {cells : List Cell} (last : (cell :: cells).getLast? = some goal)
    (chain : (cell :: cells).IsChain (Passage obstacles size)) :
    ∃ steps, Route (openCell obstacles size) cell goal steps := by
  induction cells generalizing cell with
  | nil =>
    cases last
    exact ⟨0, .here cell⟩
  | cons next cells ih =>
    obtain ⟨passage, rest⟩ := List.isChain_cons_cons.mp chain
    obtain ⟨free, facing, rfl⟩ := passage_iff.mp passage
    rw [List.getLast?_cons_cons] at last
    obtain ⟨steps, route⟩ := ih last rest
    exact ⟨steps + 1, .onward facing free route⟩

theorem exists_iff_chain : (∃ steps, Route (openCell obstacles size) start goal steps) ↔
    ∃ cells : List Cell, cells.head? = some start ∧ cells.getLast? = some goal ∧
      cells.IsChain (Passage obstacles size) := by
  constructor
  · rintro ⟨steps, route⟩
    obtain ⟨cells, last, chain⟩ := route.exists_chain
    exact ⟨start :: cells, rfl, last, chain⟩
  · rintro ⟨cells, first, last, chain⟩
    cases cells with
    | nil => cases first
    | cons cell cells =>
      cases first
      exact of_chain last chain

theorem exists_blocked_iff : (∃ steps, Route (openCell (start :: obstacles) size) start goal steps) ↔
    ∃ steps, Route (openCell obstacles size) start goal steps := by
  constructor
  · rintro ⟨steps, route⟩
    refine ⟨steps, route.widen fun cell free => ?_⟩
    rw [openCell_eq_true_iff, List.mem_cons, not_or] at free
    exact openCell_eq_true_iff.mpr ⟨free.1, free.2.2⟩
  · rintro ⟨steps, route⟩
    refine or_self_iff.mp (route.avoiding fun cell elsewhere free => ?_)
    obtain ⟨inside, clear⟩ := openCell_eq_true_iff.mp free
    exact openCell_eq_true_iff.mpr ⟨inside, List.not_mem_cons_of_ne_of_not_mem elsewhere clear⟩

end Route

/-- The search finds the goal exactly if it is the start, or if a chain of cells leads there of which each
next one adjoins the one before it, lies on the board and is no obstacle. Nothing is asked of the start: it
may lie off the board, and as an obstacle it makes no difference. Nor does the first facing, nor how long
the search may go on beyond its bound. -/
theorem reachable_iff_connected (start goal : Cell) (obstacles : List Cell) (size : Int) (facing : Facing) :
    (reachable start goal obstacles size facing = true ↔
      goal = start ∨ ∃ cells : List Cell, cells.head? = some start ∧ cells.getLast? = some goal ∧
        cells.IsChain (Passage obstacles size)) ∧
    (∀ other, reachable start goal obstacles size other = reachable start goal obstacles size facing) ∧
    reachable start goal (start :: obstacles) size facing =
      reachable start goal obstacles size facing ∧
    ∀ more : Nat, Search.run (openCell obstacles size) goal (Search.bound size + more)
      (.ofStart ⟨start, facing⟩) = reachable start goal obstacles size facing := by
  refine ⟨?_, fun other => ?_, ?_, fun more => ?_⟩
  · rw [reachable_iff_route, Route.exists_iff_chain]
    refine ⟨.inr, ?_⟩
    rintro (rfl | chained)
    · exact ⟨[goal], rfl, rfl, .singleton goal⟩
    · exact chained
  · rw [Bool.eq_iff_iff, reachable_iff_route, reachable_iff_route]
  · rw [Bool.eq_iff_iff, reachable_iff_route, reachable_iff_route]
    exact Route.exists_blocked_iff
  · rw [Bool.eq_iff_iff, reachable_iff_route, Search.run_ofStart_iff_route (Nat.le_add_right _ more)]

end BlockMaze
