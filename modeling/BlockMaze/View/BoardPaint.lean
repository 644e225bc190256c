import BlockMaze.Board.World
import BlockMaze.View.Paint

/-! The board as drawn: tiles from left to right and top to bottom, then the agent as an arrowhead. -/
namespace BlockMaze
open Text

def tile : Int := 64

structure Area where
  x : Measure
  y : Measure
  width : Measure
  height : Measure
  deriving DecidableEq

namespace Area

def ofRect (rect : Rect) : Area :=
  ⟨.whole rect.x, .whole rect.y, .whole rect.width, .whole rect.height⟩

def ofDatum (value : Datum) : Except SurfaceFault Area :=
  match value with
  | .list items =>
    match items.toList.map Measure.ofDatum? with
    | [some x, some y, some width, some height] => .ok ⟨x, y, width, height⟩
    | _ => .error .notRect
  | _ => .error .notRect

/-- The area in whole numbers, which need not be pixels of the surface. -/
def rect (area : Area) : Except SurfaceFault Rect :=
  return ⟨← area.x.integer, ← area.y.integer, ← area.width.integer, ← area.height.integer⟩

end Area

/-- The arrowhead about the middle of a tile: the tip, and two corners 140 degrees to either side of
it, at 0.38 of a tile. Sines and cosines are those of doubles, so a tip along an axis can lie a hair
off it. -/
def arrowhead : Facing → List (Double × Double)
  | .up =>
    [(-4.467511523289544e-15, -24.32), (15.632594667576642, 18.63020085665354),
      (-15.632594667576637, 18.630200856653545)]
  | .right =>
    [(24.32, 0.0), (-18.63020085665354, 15.63259466757664),
      (-18.63020085665354, -15.63259466757664)]
  | .down =>
    [(1.4891705077631816e-15, 24.32), (-15.63259466757664, -18.63020085665354),
      (15.632594667576637, -18.630200856653545)]
  | .left =>
    [(-24.32, 2.978341015526363e-15), (18.63020085665354, -15.632594667576642),
      (18.630200856653545, 15.632594667576635)]

namespace Snapshot

def margin (board : Snapshot) (extent : Measure) : Measure :=
  (extent + .whole (-(board.size * tile))).floorHalf

def origin (board : Snapshot) (area : Area) : Measure × Measure :=
  (area.x + board.margin area.width, area.y + board.margin area.height)

def tileCorner (origin : Measure × Measure) (cell : Cell) : Measure × Measure :=
  (origin.1 + .whole (cell.x * tile), origin.2 + .whole (cell.y * tile))

def tilePaint (board : Snapshot) (origin : Measure × Measure) (cell : Cell) : List Paint :=
  let (x, y) := tileCorner origin cell
  let rect : Rect := ⟨x.pixel, y.pixel, tile - 1, tile - 1⟩
  let color : Color := if board.obstacles.contains cell then .obstacle else .floor
  .rect color rect 0 0 ::
    if cell = board.goal then [.rect .accent (rect.inflate (-12)) 0 6] else []

def agentCorners (board : Snapshot) (origin : Measure × Measure) : List (Double × Double) :=
  let (x, y) := tileCorner origin board.position
  let middle (corner : Measure) : Double := corner.toDouble + 32.0
  (arrowhead board.facing).map fun (dx, dy) => (middle x + dx, middle y + dy)

def contents (board : Snapshot) (area : Area) : List Paint :=
  let origin := board.origin area
  let side := List.range board.size.toNat
  let tiles := side.flatMap fun (y : Nat) => side.flatMap fun (x : Nat) =>
    board.tilePaint origin ⟨x, y⟩
  let color : Color := if board.position = board.goal then .good else .agent
  tiles ++ [.polygon color (board.agentCorners origin)]

def paint (board : Snapshot) (rect : Rect) : List Paint :=
  frame .panel rect 8 ++ board.contents (.ofRect rect)

/-- Whether all tiles are let onto the surface: the first and the last are the outermost. -/
def fits (board : Snapshot) (area : Area) : Bool :=
  let first := board.origin area
  let last := tileCorner first ⟨board.size - 1, board.size - 1⟩
  first.1.fits && first.2.fits && last.1.fits && last.2.fits

/-- Draws the board in an area as it is handed in. The panel behind it is drawn as large as the area
is, but the tiles have to be let onto the surface. -/
def paintIn (board : Snapshot) (area : Area) : Except SurfaceFault (List Paint) := do
  let rect ← area.rect
  if !area.x.addsTo (board.margin area.width) || !area.y.addsTo (board.margin area.height) then
    throw .tooLarge
  if !board.fits area then throw .notRect
  return frame .panel rect 8 ++ board.contents area

end Snapshot

end BlockMaze
