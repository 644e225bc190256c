import BlockMaze.Board.Facing

/-! Cells of the plane and sets of cells. A set is a list in increasing order, first by column and
then by row, so that equal sets are equal lists. -/
namespace BlockMaze

structure Cell where
  x : Int
  y : Int
  deriving DecidableEq

namespace Cell

/-- The neighbour one step ahead; `y` grows downward. -/
def ahead (cell : Cell) : Facing → Cell
  | .up => ⟨cell.x, cell.y - 1⟩
  | .right => ⟨cell.x + 1, cell.y⟩
  | .down => ⟨cell.x, cell.y + 1⟩
  | .left => ⟨cell.x - 1, cell.y⟩

def Inside (cell : Cell) (size : Int) : Prop :=
  0 ≤ cell.x ∧ cell.x < size ∧ 0 ≤ cell.y ∧ cell.y < size

instance (cell : Cell) (size : Int) : Decidable (cell.Inside size) :=
  inferInstanceAs (Decidable (_ ∧ _ ∧ _ ∧ _))

theorem inside_iff {cell : Cell} {size : Int} :
    cell.Inside size ↔ ∃ x y : Nat, (x < size.toNat ∧ y < size.toNat) ∧ cell = ⟨x, y⟩ := by
  constructor
  · rintro ⟨left, right, top, bottom⟩
    refine ⟨cell.x.toNat, cell.y.toNat, by omega, ?_⟩
    rw [Int.toNat_of_nonneg left, Int.toNat_of_nonneg top]
  · rintro ⟨x, y, within, rfl⟩
    simp only [Inside]
    omega

def clampOne (size value : Int) : Int := min (max value 0) (size - 1)

def clamp (cell : Cell) (size : Int) : Cell := ⟨clampOne size cell.x, clampOne size cell.y⟩

def text (cell : Cell) : String := "(" ++ toString cell.x ++ ", " ++ toString cell.y ++ ")"

def Before (first second : Cell) : Prop :=
  first.x < second.x ∨ (first.x = second.x ∧ first.y < second.y)

instance (first second : Cell) : Decidable (first.Before second) :=
  inferInstanceAs (Decidable (_ ∨ _))

theorem Before.trans {first middle last : Cell} (left : first.Before middle)
    (right : middle.Before last) : first.Before last := by
  unfold Before at *
  omega

instance : Std.Irrefl Before := ⟨fun cell before => by simp [Before] at before⟩

instance : Std.Antisymm Before :=
  ⟨fun one _ before after => absurd (before.trans after) (Std.Irrefl.irrefl one)⟩

theorem before_of_not {first second : Cell} (notBefore : ¬ first.Before second)
    (different : first ≠ second) : second.Before first := by
  have apart : ¬ (first.x = second.x ∧ first.y = second.y) :=
    fun same => different (by cases first; cases second; simp_all)
  unfold Before at *
  omega

def place (cell : Cell) : List Cell → List Cell
  | [] => [cell]
  | first :: rest =>
    if cell.Before first then cell :: first :: rest
    else if cell = first then first :: rest
    else first :: place cell rest

def arrange (cells : List Cell) : List Cell := cells.foldr place []

theorem mem_place {cell other : Cell} {cells : List Cell} :
    other ∈ place cell cells ↔ other = cell ∨ other ∈ cells := by
  induction cells with
  | nil => simp [place]
  | cons first rest ih =>
    simp only [place]
    split
    · simp
    · split
      · rename_i same
        subst same
        simp
      · simp only [List.mem_cons, ih]
        grind

theorem place_ordered (cell : Cell) {cells : List Cell} (ordered : cells.Pairwise Before) :
    (place cell cells).Pairwise Before := by
  induction cells with
  | nil => simp [place]
  | cons first rest ih =>
    obtain ⟨above, tail⟩ := List.pairwise_cons.mp ordered
    simp only [place]
    split
    · rename_i earlier
      refine List.pairwise_cons.mpr ⟨fun other member => ?_, ordered⟩
      rcases List.mem_cons.mp member with rfl | later
      · exact earlier
      · exact earlier.trans (above other later)
    · split
      · exact ordered
      · rename_i notEarlier different
        refine List.pairwise_cons.mpr ⟨fun other member => ?_, ih tail⟩
        rcases mem_place.mp member with rfl | later
        · exact before_of_not notEarlier different
        · exact above other later

theorem mem_arrange {cell : Cell} {cells : List Cell} : cell ∈ arrange cells ↔ cell ∈ cells := by
  induction cells with
  | nil => simp [arrange]
  | cons first rest ih =>
    change cell ∈ place first (arrange rest) ↔ _
    simp [mem_place, ih]

theorem arrange_ordered (cells : List Cell) : (arrange cells).Pairwise Before := by
  induction cells with
  | nil => exact .nil
  | cons first rest ih => exact place_ordered first ih

end Cell

end BlockMaze
