import BlockMaze.Text.Decimal
import BlockMaze.View.Measure

/-! Rectangles on a surface and the commands that draw on it. `y` grows downward. -/
namespace BlockMaze
open Text

structure Point where
  x : Int
  y : Int
  deriving DecidableEq

structure Rect where
  x : Int
  y : Int
  width : Int
  height : Int
  deriving DecidableEq

structure Position where
  x : Datum
  y : Datum
  deriving DecidableEq

def Position.point (position : Position) : Except SurfaceFault Point :=
  match Measure.pixel? position.x, Measure.pixel? position.y with
  | some x, some y => .ok ⟨x, y⟩
  | _, _ => .error .notPoint

/-- The value itself, or the end of the range that it exceeds; the lower end is looked at first. -/
def restrict (value low high : Int) : Int :=
  if value < low then low else if high < value then high else value

theorem restrict_bounds {low high : Int} (ordered : low ≤ high) (value : Int) :
    low ≤ restrict value low high ∧ restrict value low high ≤ high := by
  unfold restrict
  split
  · exact ⟨Int.le_refl _, ordered⟩
  · split <;> omega

namespace Rect

def ofDatum (value : Datum) : Except SurfaceFault Rect :=
  match value with
  | .list items =>
    match items.toList.map Measure.pixel? with
    | [some x, some y, some width, some height] => .ok ⟨x, y, width, height⟩
    | _ => .error .notRect
  | _ => .error .notRect

/-- The left and upper edges belong to a rectangle, the right and lower ones do not. -/
def contains (rect : Rect) (point : Point) : Bool :=
  let x := wrap point.x
  let y := wrap point.y
  rect.x ≤ x && x < wrap (rect.x + rect.width) && rect.y ≤ y && y < wrap (rect.y + rect.height)

/-- Grows a rectangle about its centre; halves are cut toward zero. -/
def inflate (rect : Rect) (amount : Int) : Rect :=
  ⟨wrap (rect.x - amount.tdiv 2), wrap (rect.y - amount.tdiv 2), wrap (rect.width + amount),
    wrap (rect.height + amount)⟩

def corner (rect : Rect) : Point := ⟨rect.x, rect.y⟩

/-- The middle of a rectangle; halves are cut downward. -/
def centre (rect : Rect) : Point :=
  ⟨wrap (rect.x + rect.width.fdiv 2), wrap (rect.y + rect.height.fdiv 2)⟩

def cornerAbout (centre : Point) (width height : Int) : Point :=
  ⟨wrap (centre.x - width.fdiv 2), wrap (centre.y - height.fdiv 2)⟩

end Rect

structure Color where
  red : Int
  green : Int
  blue : Int
  deriving DecidableEq

namespace Color

def background : Color := ⟨26, 28, 35⟩
def panel : Color := ⟨34, 37, 46⟩
def border : Color := ⟨60, 64, 75⟩
def text : Color := ⟨232, 235, 243⟩
def muted : Color := ⟨170, 173, 184⟩
def accent : Color := ⟨255, 208, 80⟩
def agent : Color := ⟨90, 170, 255⟩
def good : Color := ⟨44, 187, 93⟩
def bad : Color := ⟨235, 84, 84⟩
def button : Color := ⟨45, 50, 62⟩
def primary : Color := ⟨52, 120, 246⟩
def disabled : Color := ⟨38, 40, 48⟩
def obstacle : Color := ⟨120, 84, 60⟩
def floor : Color := ⟨243, 244, 248⟩
def selected : Color := ⟨70, 78, 104⟩

end Color

/-- Drawing commands. A line width of zero fills the rectangle. -/
inductive Paint
  | fill (color : Color)
  | rect (color : Color) (rect : Rect) (line radius : Nat)
  | polygon (color : Color) (corners : List (Double × Double))
  | text (text : String) (color : Color) (corner : Point)
  | clip (rect : Option Rect)
  deriving DecidableEq

structure Font where
  advance : Int := 9
  height : Int := 17

def Font.width (font : Font) (text : String) : Int := font.advance * text.length

def frame (fill : Color) (rect : Rect) (radius : Nat) : List Paint :=
  [.rect fill rect 0 radius, .rect .border rect 1 radius]

def Font.linesIn (font : Font) (height : Int) : Int := max 1 (height.fdiv font.height)

end BlockMaze
