import BlockMaze.Chance.Dice
import BlockMaze.Game.Editing
import BlockMaze.Game.Puzzles
import BlockMaze.Game.Running
import BlockMaze.Options
import BlockMaze.View.BoardPaint
import BlockMaze.View.Control
import BlockMaze.View.Panes

/-! The game in a window: what clicks and the clock do to the session, and what is drawn. The
journal holds the records told so far, newest first. -/
namespace BlockMaze

structure Window where
  session : Session Dice
  board : Snapshot
  listing : Listing
  messages : Messages
  enabled : Control → Bool := fun _ => true
  modeLabel : String := "Mode"
  speed : Int
  elapsed : Float := 0
  journal : List Record := []
  font : Font := {}

inductive Stroke
  | click (position : Position) (button : Int)
  | wheel (amount : Int)
  | quit
  | other

inductive WindowFault
  | roll (fault : RollFault)
  | blankSeed
  | tooLarge
  | surface (fault : SurfaceFault)
  deriving DecidableEq

def WindowFault.message : WindowFault → String
  | roll fault => fault.message
  | blankSeed =>
    "The only supported seed types are: None,\nint, float, str, bytes, and bytearray."
  | tooLarge => SurfaceFault.tooLarge.message
  | surface fault => fault.message

/-- Why a frame is not drawn: the window was closed, or it cannot go on. -/
inductive Halt
  | closed
  | failed (fault : WindowFault)
  deriving DecidableEq

namespace Window

def width : Int := 886
def height : Int := 640

def leftWidth : Int := 460

def listingRect : Rect := ⟨14, 186, leftWidth - 28, 235⟩
def messagesRect : Rect := ⟨14, 433, leftWidth - 28, 193⟩
def boardRect : Rect := ⟨leftWidth, 14, width - leftWidth - 14, height - 60⟩

def statusCorner : Point := ⟨leftWidth, height - 36⟩

def usualSpeed : Int := 2

def fontNames : List String :=
  ["consolas", "menlo", "dejavusansmono", "couriernew", "liberationmono", "monospace"]

def pickFont (available : List String) : Option String := fontNames.find? available.contains

def ofSession (speed : Option Int) (session : Session Dice) : Window where
  session := session
  board := session.board
  listing := { rect := listingRect }
  messages := Messages.add "Ready." .muted { rect := messagesRect }
  speed := (speed.filter (· ≠ 0)).getD usualSpeed

def ofSeed (options : Options) (seed : Int) : Told (Except WindowFault Window) := do
  let rolled ← Session.create {} options.admin (.twister (.ofSeed seed))
  return match rolled with
    | .ok session => .ok (ofSession options.speed.number? session)
    | .error fault => .error (.roll fault)

/-- The window that options ask for; without a seed of theirs it takes the one at hand. -/
def ofOptions (options : Options) (atHand : Int) : Told (Except WindowFault Window) :=
  match options.seed with
  | .unset => ofSeed options atHand
  | .number seed => ofSeed options seed
  | .blank => pure (.error .blankSeed)

def journalLevel (options : Options) : Level := if options.verbose then .debug else .info

def eventColor : EventKind → Color
  | .won => .good
  | .lost | .blocked => .bad
  | _ => .muted

def hear (window : Window) : Signal → Window
  | .event event =>
    { window with messages := window.messages.add event.message (eventColor event.kind) }
  | .board board => { window with board }
  | .log record => { window with journal := record :: window.journal }

def ask {α : Type} (act : Play Dice α) (window : Window) : Option α × Window :=
  let told := act.run.run window.session
  let (result, session) := told.value
  (result.toOption, told.signals.foldl hear { window with session })

def perform {α : Type} (act : Play Dice α) (window : Window) : Window := (window.ask act).2

def selectedBlock? (window : Window) : Option Block :=
  window.session.program.find? window.listing.selected

/-- Places a block in the selected one if that can hold it, else at the top level. A new block that
can hold others becomes the selected one. -/
def place (kind : Kind) (window : Window) : Window :=
  let parent := (window.selectedBlock?.filter fun block => !block.content.isCommand).map (·.id)
  let (made, window) := window.ask (Session.insert (.text kind.name) parent)
  match made.join with
  | some block =>
    if block.content.isCommand then window
    else { window with listing := { window.listing with selected := some block.id } }
  | none => window

def bump (change : Int) (window : Window) : Window :=
  match window.selectedBlock? with
  | some ⟨id, .repeated count _⟩ =>
    window.perform (Session.setCount (some id) (.whole (count + change)))
  | _ => window

def clearMessages (window : Window) : Window := { window with messages := window.messages.clear }

def button (window : Window) (control : Control) : Button where
  rect := control.rect
  label := control.label window.modeLabel
  primary := control = .run
  enabled := window.enabled control

/-- Presses a control. Without a selection there is nothing to remove. -/
def press (window : Window) : Control → Window
  | .palette kind => window.place kind
  | .remove =>
    match window.listing.selected with
    | some id => window.perform (Session.remove (some id))
    | none => window
  | .fewer => window.bump (-1)
  | .more => window.bump 1
  | .mode => window.perform (Session.setMode (.text window.session.mode.next.name))
  | .run => window.clearMessages.perform Session.start
  | .stop => window.perform Session.abort
  | .next => window.clearMessages.perform Session.nextPuzzle
  | .reset => window.clearMessages.perform Session.reset

/-- A click presses the first button it hits; one that hits none goes to the listing. -/
def click (position : Position) (window : Window) : Except SurfaceFault Window := do
  let point ← position.point
  match Control.all.find? fun control => (window.button control).hit point with
  | some control => return window.press control
  | none => return { window with listing := ← window.listing.clickOn window.font position }

/-- Strokes in order, up to one that halts the window. -/
def strokes (window : Window) : List Stroke → Window × Option Halt
  | [] => (window, none)
  | .quit :: _ => (window, some .closed)
  | .click position 1 :: rest =>
    match window.click position with
    | .ok window => window.strokes rest
    | .error fault => (window, some (.failed (.surface fault)))
  | .wheel amount :: rest =>
    let listing := { window.listing with scroll := window.listing.scroll - amount }
    ({ window with listing } : Window).strokes rest
  | _ :: rest => window.strokes rest

def refreshButtons (window : Window) : Window :=
  { window with
    enabled := Control.allowed window.session
    modeLabel := "Mode: " ++ window.session.mode.name }

def toFloat (measure : Measure) : Except WindowFault Float :=
  match measure.double? with
  | some value => .ok value.toFloat
  | none => .error .tooLarge

def pass (milliseconds : Measure) (window : Window) : Except WindowFault Window := do
  return { window with elapsed := window.elapsed + (← toFloat milliseconds) / 1000 }

def due (window : Window) : Except WindowFault Bool := do
  if window.session.isRunning then
    return window.elapsed ≥ 1 / (← toFloat (.whole window.speed))
  else return false

def advance (window : Window) : Except WindowFault Window := do
  if ← window.due then return ({ window with elapsed := 0 } : Window).perform Session.step
  else return window

def statusLine (window : Window) : String :=
  let session := window.session
  let left := (window.ask (Session.attemptsRemaining none)).1.join
  let attempts := match left with
    | none => "unrestricted"
    | some count => toString count ++ " left"
  let state := if Control.lockedOut session then "LOCKED" else session.stage.name
  "Score: " ++ toString session.score ++ "   Attempts: " ++ attempts ++ "   Moves: " ++
    toString window.board.moves ++ "/" ++ toString window.board.moveLimit ++ "   " ++ state

/-- Draws everything; the listing takes over the rows it shows. -/
def draw (window : Window) : Window × List Paint :=
  let buttons := Control.all.flatMap fun control => (window.button control).draw window.font
  let (listing, rows) := window.listing.draw window.font window.session.program
  ({ window with listing },
    [.fill .background] ++ buttons ++ rows ++ window.messages.draw window.font ++
      window.board.paint boardRect ++ [.text window.statusLine .muted statusCorner])

/-- One frame: time passes, strokes are answered, the program may take a step, all is drawn. -/
def frame (milliseconds : Measure) (input : List Stroke) (window : Window) :
    Window × Except Halt (List Paint) :=
  match window.pass milliseconds with
  | .error fault => (window, .error (.failed fault))
  | .ok window =>
    match window.strokes input with
    | (window, some halt) => (window, .error halt)
    | (window, none) =>
      match window.advance with
      | .error fault => (window, .error (.failed fault))
      | .ok window =>
        let (window, paints) := window.refreshButtons.draw
        (window, .ok paints)

/-- The same frame several times, as long as it is drawn, and the number of frames begun. -/
def frames (milliseconds : Measure) (input : List Stroke) :
    Nat → Window → List Paint → Nat × Window × Except Halt (List Paint)
  | 0, window, paints => (0, window, .ok paints)
  | times + 1, window, _ =>
    match window.frame milliseconds input with
    | (window, .ok paints) =>
      let (begun, last) := frames milliseconds input times window paints
      (begun + 1, last)
    | halted => (1, halted)

end Window

end BlockMaze
