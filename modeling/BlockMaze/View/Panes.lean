import BlockMaze.Program.Edit
import BlockMaze.Program.Listing
import BlockMaze.View.Paint

/-! The two panes of text. The program listing has indented rows, one of which can be selected by a
click; clicks are read off the rows as they were last drawn. The message pane keeps the latest lines and
shows the last of them. -/
namespace BlockMaze
open Text

structure Listing where
  rect : Rect
  selected : Option Int := none
  scroll : Int := 0
  rows : List (Nat × Block) := []
  deriving DecidableEq

namespace Listing

def inner (listing : Listing) : Rect := listing.rect.inflate (-14)

def rowAt (font : Font) (listing : Listing) (point : Point) : Option Block :=
  if listing.rect.contains point then
    let index := listing.scroll + (point.y - listing.inner.y).fdiv font.height
    if 0 ≤ index then (listing.rows[index.toNat]?).map (·.2) else none
  else none

/-- Selects a block found in a row, or nothing if it was selected already. -/
def select (listing : Listing) : Option Block → Listing
  | none => listing
  | some block =>
    { listing with selected := if listing.selected = some block.id then none else some block.id }

def click (font : Font) (point : Point) (listing : Listing) : Listing :=
  listing.select (listing.rowAt font point)

/-- The row at a position as it is handed in. Rows are counted off its height with nothing cut away,
in doubles if it is one, and a double among the rows counts none of them. -/
def rowFor (font : Font) (listing : Listing) (position : Position) :
    Except SurfaceFault (Option Block) := do
  let point ← position.point
  match Measure.ofDatum? position.y with
  | some (.fraction y) =>
    if !listing.rect.contains point then return none
    match (Measure.whole listing.scroll).double? with
    | none => throw .tooLarge
    | some scroll =>
      let place := scroll + (y + .ofInt (-listing.inner.y)).floorDiv font.height.toNat
      if place.integer?.any fun (index : Int) => 0 ≤ index && index < listing.rows.length then
        throw (.notRow (.notWhole "float"))
      return none
  | some (.whole y) => return listing.rowAt font ⟨point.x, y⟩
  | none => throw .notPoint

def clickOn (font : Font) (position : Position) (listing : Listing) :
    Except SurfaceFault Listing :=
  return listing.select (← listing.rowFor font position)

def visible (font : Font) (listing : Listing) : Int := font.linesIn listing.inner.height

/-- Takes over the rows of a program, drops a selection that is gone and keeps the scroll in range. -/
def refresh (font : Font) (program : Program) (listing : Listing) : Listing :=
  let rows := program.forest.outline
  { listing with
    rows
    selected := listing.selected.filter fun id => program.contains (some id)
    scroll := restrict listing.scroll 0 (max 0 (rows.length - listing.visible font)) }

def rowPaint (font : Font) (listing : Listing) (place : Nat) (depth : Nat) (block : Block) :
    List Paint :=
  let inner := listing.inner
  let y := inner.y + place * font.height
  let mark : List Paint := if listing.selected = some block.id then
      [.rect .selected ⟨inner.x, y, inner.width, font.height⟩ 0 4]
    else []
  mark ++ [.text (indentation "    " depth ++ block.content.label)
    (if block.content.isCommand then .text else .accent) ⟨inner.x + 4, y⟩]

def shownRows (font : Font) (listing : Listing) : List (Nat × Block) :=
  (listing.rows.drop listing.scroll.toNat).take (listing.visible font).toNat

def paint (font : Font) (listing : Listing) : List Paint :=
  let hint : List Paint := if listing.rows.isEmpty then
      [.text "Add blocks from the palette..." .muted listing.inner.corner]
    else []
  let rows := (listing.shownRows font).zipIdx.flatMap fun ((depth, block), place) =>
    listing.rowPaint font place depth block
  frame .panel listing.rect 8 ++ [.clip (some listing.inner)] ++ hint ++ rows ++ [.clip none]

/-- Draws a program; what is drawn is what later clicks refer to. -/
def draw (font : Font) (program : Program) (listing : Listing) : Listing × List Paint :=
  let listing := listing.refresh font program
  (listing, listing.paint font)

end Listing

structure Messages where
  rect : Rect
  lines : List (String × Color) := []
  deriving DecidableEq

namespace Messages

def capacity : Nat := 300

def lastOf {α : Type} (count : Nat) (items : List α) : List α := items.drop (items.length - count)

def add (text : String) (color : Color) (messages : Messages) : Messages :=
  { messages with lines := lastOf capacity (messages.lines ++ [(text, color)]) }

def clear (messages : Messages) : Messages := { messages with lines := [] }

def draw (font : Font) (messages : Messages) : List Paint :=
  let inner := messages.rect.inflate (-12)
  let shown := lastOf (font.linesIn inner.height).toNat messages.lines
  let rows : List Paint := shown.zipIdx.map fun ((text, color), place) =>
    .text text color ⟨inner.x, inner.y + place * font.height⟩
  frame .panel messages.rect 8 ++ [.clip (some inner)] ++ rows ++ [.clip none]

end Messages

end BlockMaze
