import Std.Data.TreeSet.Lemmas
import BlockMaze.Board.World
import BlockMaze.Search.Queue

/-! Breadth-first search for the goal over stances, that is cells with a facing. From a stance the agent may
step to a free cell on the board or turn to either side. The start itself is not checked. -/
namespace BlockMaze

structure Stance where
  cell : Cell
  facing : Facing
  deriving DecidableEq

namespace Stance

/-- By column, then by row, then by facing. -/
def order : Stance → Stance → Ordering :=
  compareLex (compareOn (·.cell.x))
    (compareLex (compareOn (·.cell.y)) (compareOn (·.facing.number)))

instance : Std.TransCmp order := inferInstanceAs (Std.TransCmp (compareLex _ _))

instance : Std.LawfulEqCmp order where
  compare_self := by simp [order, compareLex, compareOn]
  eq_of_compare {first second} same := by
    simp only [order, compareLex, compareOn, Ordering.then_eq_eq, Std.compare_eq_iff_eq] at same
    obtain ⟨column, row, facing⟩ := same
    have facings := congrArg Facing.ofNumber? facing
    simp only [Facing.ofNumber?_number, Option.some.injEq] at facings
    rcases first with ⟨⟨x, y⟩, facing⟩
    rcases second with ⟨⟨x', y'⟩, facing'⟩
    simp_all

/-- The stances one action away: a step if the cell ahead is open, then the two turns. -/
def next (isOpen : Cell → Bool) (stance : Stance) : List Stance :=
  let ahead := stance.cell.ahead stance.facing
  let turns : List Stance :=
    [⟨stance.cell, stance.facing.turn .right⟩, ⟨stance.cell, stance.facing.turn .left⟩]
  if isOpen ahead then ⟨ahead, stance.facing⟩ :: turns else turns

end Stance

/-- The stances waiting to be looked at and all that were ever queued. -/
structure Search where
  queue : Queue Stance
  seen : Std.TreeSet Stance Stance.order

namespace Search

def ofStart (start : Stance) : Search :=
  ⟨.ofList [start], (∅ : Std.TreeSet Stance Stance.order).insert start⟩

def visit (search : Search) (stance : Stance) : Search :=
  if search.seen.contains stance then search
  else ⟨search.queue.push stance, search.seen.insert stance⟩

/-- Looks at the first stance waiting and queues the new ones next to it. -/
def look (isOpen : Cell → Bool) (search : Search) : Option (Stance × Search) :=
  match search.queue.pop? with
  | none => none
  | some (stance, rest) => some (stance, (stance.next isOpen).foldl visit ⟨rest, search.seen⟩)

/-- Looks at stances in order, at most `bound` of them, until one stands on the goal or none is
left. -/
def run (isOpen : Cell → Bool) (goal : Cell) : Nat → Search → Bool
  | 0, _ => false
  | bound + 1, search =>
    match search.look isOpen with
    | none => false
    | some (stance, next) => if stance.cell = goal then true else run isOpen goal bound next

/-- No search looks at more stances: four on every cell of the board and four on the start. -/
def bound (size : Int) : Nat := 4 * (size.toNat * size.toNat + 1)

end Search

def openCell (obstacles : List Cell) (size : Int) (cell : Cell) : Bool :=
  decide (cell.Inside size) && !obstacles.contains cell

def reachable (start goal : Cell) (obstacles : List Cell) (size : Int) (facing : Facing) : Bool :=
  Search.run (openCell obstacles size) goal (Search.bound size) (.ofStart ⟨start, facing⟩)

def World.solvable (world : World) : Bool :=
  let puzzle := world.puzzle
  reachable puzzle.start puzzle.goal puzzle.obstacles puzzle.size puzzle.facing

end BlockMaze
