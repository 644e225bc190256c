import BlockMaze.View.Window

/-! The game on a terminal. Every line of input is a frame of the window: `click X Y`, `wheel N`,
`wait MILLISECONDS` or `quit`; the state of the window is printed after it. -/
namespace BlockMaze.Terminal

def usage : String := "usage: block-maze [-h] [--seed SEED] [--admin] [--speed SPEED] [-v]"

def frameOf (line : String) : Int × List Stroke :=
  let words := (line.splitOn " ").map fun word => word.trimAscii.toString
  match words.filter fun word => word != "" with
  | ["click", x, y] =>
    match x.toInt?, y.toInt? with
    | some x, some y => (0, [.click ⟨.whole x, .whole y⟩ 1])
    | _, _ => (0, [])
  | ["wheel", amount] => (0, [.wheel (amount.toInt?.getD 0)])
  | ["wait", milliseconds] => (milliseconds.toInt?.getD 0, [])
  | ["quit"] => (0, [.quit])
  | _ => (0, [])

def screen (window : Window) : List String :=
  [window.board.picture] ++ window.session.program.forest.describe "    " ++
    (Messages.lastOf 4 window.messages.lines).map (·.1) ++ [window.statusLine]

def write (level : Level) (records : List Record) : IO Unit :=
  for record in records do
    if level.rank ≤ record.level.rank then
      IO.eprintln (record.level.name ++ " " ++ record.component.name ++ ": " ++ record.message)

partial def play (level : Level) (window : Window) : IO UInt32 := do
  let line ← (← IO.getStdin).getLine
  if line.isEmpty then return 0
  let (time, strokes) := frameOf line
  let (window, ending) := ({ window with journal := [] } : Window).frame (.whole time) strokes
  write level window.journal.reverse
  match ending with
  | .ok _ =>
    for row in screen window do IO.println row
    play level window
  | .error .closed => return 0
  | .error (.failed fault) =>
    IO.eprintln fault.message
    return 1

end BlockMaze.Terminal

open BlockMaze in
def main (words : List String) : IO UInt32 := do
  match Options.ofWords words with
  | .error .help =>
    IO.println Terminal.usage
    return 0
  | .error fault =>
    IO.eprintln (Terminal.usage ++ "\nblock-maze: error: " ++ fault.message)
    return UInt32.ofNat fault.exitCode
  | .ok options =>
    match (Window.ofOptions options (← IO.rand 0 2147483647)).value with
    | .error fault =>
      IO.eprintln fault.message
      return 1
    | .ok window =>
      for row in Terminal.screen window do IO.println row
      Terminal.play (Window.journalLevel options) window
