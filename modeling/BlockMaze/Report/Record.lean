import BlockMaze.Report.Event

/-! The journal: what each part of the game notes down while it works. -/
namespace BlockMaze

inductive Level
  | debug
  | info
  | warning
  | error
  deriving DecidableEq

def Level.name : Level → String
  | debug => "DEBUG"
  | info => "INFO"
  | warning => "WARNING"
  | error => "ERROR"

def Level.rank : Level → Nat
  | debug => 0
  | info => 1
  | warning => 2
  | error => 3

inductive Component
  | board
  | program
  | run
  | puzzle
  | curriculum
  | session
  deriving DecidableEq

def Component.name : Component → String
  | board => "board"
  | program => "program"
  | run => "run"
  | puzzle => "puzzle"
  | curriculum => "curriculum"
  | session => "session"

inductive Record
  | moveBlocked (position target : Cell)
  | commandRun (number : Nat) (command : Command) (result : StepResult)
  | runLost (reason : Option Reason)
  | inserted (kind : Kind) (id : Int) (parent : Option Int)
  | pruned (count : Nat) (mode : Mode)
  | progressing (mode : Mode)
  | locking
  | solvable (attempt : Nat)
  | unsolvable (attempt : Nat) (start goal : Cell)
  | noticed (notice : Notice)
  | refused (refusal : Refusal)
  | noPuzzle (attempts : Int)
  | newPuzzle (board : Snapshot)
  deriving DecidableEq

namespace Record

def level : Record → Level
  | moveBlocked _ _ | commandRun _ _ _ | inserted _ _ _ | solvable _ | unsolvable _ _ _
  | newPuzzle _ => .debug
  | pruned _ _ | progressing _ | locking | noticed _ => .info
  | runLost _ | refused _ => .warning
  | noPuzzle _ => .error

def component : Record → Component
  | moveBlocked _ _ => .board
  | inserted _ _ _ | pruned _ _ => .program
  | commandRun _ _ _ | runLost _ => .run
  | solvable _ | unsolvable _ _ _ => .puzzle
  | progressing _ | locking => .curriculum
  | noticed _ | refused _ | noPuzzle _ | newPuzzle _ => .session

def message : Record → String
  | moveBlocked position target =>
    "Move from " ++ position.text ++ " blocked by obstacle at " ++ target.text
  | commandRun number command result =>
    "Command " ++ toString number ++ ": " ++ command.name ++ " -> " ++ result.name
  | runLost reason => "Run lost: " ++ reasonText reason
  | inserted kind id parent =>
    "Inserted " ++ kind.name ++ " as block " ++ toString id ++ " under " ++ idText parent
  | pruned count mode => prunedText count mode
  | progressing mode => "Progressing to " ++ mode.name ++ " mode"
  | locking => "All attempts exhausted; locking session"
  | solvable attempt => "Generated solvable puzzle after " ++ toString attempt ++ " attempt(s)"
  | unsolvable attempt start goal =>
    "Attempt " ++ toString attempt ++ " unsolvable (start=" ++ start.text ++ " goal=" ++
      goal.text ++ "), re-rolling"
  | noticed notice => notice.message
  | refused refusal => "Refused: " ++ refusal.message
  | noPuzzle attempts => "Puzzle generation failed: " ++ noPuzzleText attempts
  | newPuzzle board => "New puzzle:\n" ++ board.picture

end Record

end BlockMaze
