import BlockMaze.Game.Session
import BlockMaze.View.Paint

/-! Push buttons, and those of the window: where they are, what they say, and when they may be pressed. -/
namespace BlockMaze

structure Button where
  rect : Rect
  label : String
  primary : Bool := false
  enabled : Bool := true
  deriving DecidableEq

namespace Button

def hit (button : Button) (point : Point) : Bool := button.enabled && button.rect.contains point

/-- Whether a position as it is handed in hits; a disabled button does not look at it. -/
def hitBy (button : Button) (position : Position) : Except SurfaceFault Bool :=
  if button.enabled then return button.hit (← position.point) else return false

/-- A label cut to a number of characters: as it is if it fits, else its beginning and an ellipsis. -/
def shorten (label : List Char) (room : Int) : List Char :=
  if (label.length : Int) ≤ room ∨ label.length ≤ 1 then label
  else label.take ((max 1 room).toNat - 1) ++ ['…']

/-- The label as drawn, with ten pixels of the width left free. -/
def drawnLabel (font : Font) (button : Button) : String :=
  String.ofList (shorten button.label.toList ((button.rect.width - 10).fdiv font.advance))

def fillColor (button : Button) : Color :=
  if !button.enabled then .disabled else if button.primary then .primary else .button

def draw (font : Font) (button : Button) : List Paint :=
  let label := button.drawnLabel font
  let corner := Rect.cornerAbout button.rect.centre (font.width label) font.height
  frame button.fillColor button.rect 6 ++
    [.text label (if button.enabled then .text else .muted) corner]

end Button

inductive Control
  | palette (kind : Kind)
  | remove
  | fewer
  | more
  | mode
  | run
  | stop
  | next
  | reset
  deriving DecidableEq

namespace Control

/-- Every control, in the order of drawing and of the search for the one clicked. -/
def all : List Control :=
  Kind.all.map palette ++ [remove, fewer, more, mode, run, stop, next, reset]

def paletteLabel : Kind → String
  | .command .forward => "Forward"
  | .command (.turn .left) => "Left"
  | .command (.turn .right) => "Right"
  | .repeated => "Repeat"
  | .guarded .obstacleAhead => "Until obst."
  | .guarded .boundaryAhead => "Until edge"
  | .guarded .atGoal => "Until goal"

def paletteRect (kind : Kind) : Rect :=
  let place := Kind.all.idxOf kind
  ⟨14 + (place % 4 : Nat) * 110, 14 + (place / 4 : Nat) * 40, 102, 32⟩

def rect : Control → Rect
  | palette kind => paletteRect kind
  | remove => ⟨14, 98, 102, 30⟩
  | fewer => ⟨124, 98, 48, 30⟩
  | more => ⟨178, 98, 48, 30⟩
  | mode => ⟨234, 98, 212, 30⟩
  | run => ⟨14, 138, 102, 34⟩
  | stop => ⟨124, 138, 102, 34⟩
  | next => ⟨234, 138, 102, 34⟩
  | reset => ⟨344, 138, 102, 34⟩

def label (modeLabel : String) : Control → String
  | palette kind => paletteLabel kind
  | remove => "Remove"
  | fewer => "-"
  | more => "+"
  | mode => modeLabel
  | run => "Run"
  | stop => "Stop"
  | next => "Next"
  | reset => "Reset"

variable {σ : Type}

def lockedOut (session : Session σ) : Bool := session.progress.locked && !session.privileged

def editable (session : Session σ) : Bool := !session.isRunning && !session.attempted

def allowed (session : Session σ) : Control → Bool
  | palette kind => editable session && session.mode.allows kind
  | remove | fewer | more => editable session
  | mode => session.privileged && !session.isRunning
  | run => editable session && !lockedOut session
  | stop => session.isRunning
  | next => !session.isRunning && !lockedOut session
  | reset => !session.isRunning

end Control

end BlockMaze
