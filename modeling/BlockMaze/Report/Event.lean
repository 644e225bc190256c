import BlockMaze.Board.World
import BlockMaze.Program.Refusal

/-! What a game tells its player: how each command went, how a run ended, and notices. -/
namespace BlockMaze
open Text

inductive Outcome
  | won
  | lost
  | empty
  deriving DecidableEq

namespace Outcome

def name : Outcome → String
  | won => "won"
  | lost => "lost"
  | empty => "empty"

def all : List Outcome := [won, lost, empty]

def ofDatum (value : Datum) : Except UnknownName Outcome :=
  match all.find? fun outcome => value = .text outcome.name with
  | some outcome => .ok outcome
  | none => .error ⟨"Outcome", value⟩

end Outcome

inductive Reason
  | commandLimit
  | conditionLimit
  | moveLimit
  | endedAway
  | aborted
  | stated (text : String)
  deriving DecidableEq

def Reason.text : Reason → String
  | commandLimit => "command limit reached"
  | conditionLimit => "condition loop limit reached"
  | moveLimit => "max moves exceeded"
  | endedAway => "program ended, not at goal"
  | aborted => "aborted"
  | stated text => text

def reasonText : Option Reason → String
  | none => "None"
  | some reason => reason.text

inductive Notice
  | commandLimit
  | conditionLimit
  | moveLimit (limit : Int)
  | refused (refusal : Refusal)
  | unknownBlock (id : Option Int)
  | unknownMode (value : Datum)
  | pruned (count : Nat) (mode : Mode)
  | alreadyRunning
  | alreadyAttempted
  | nothingRunning
  | locked
  | nowLocked
  | moving (mode : Mode)
  | progressing (mode : Mode)
  | noCommands
  | executing
  | succeeded
  | failed
  | noPuzzle (attempts : Int)
  | newPuzzle
  | gameReset
  deriving DecidableEq

def noPuzzleText (attempts : Int) : String :=
  "No solvable puzzle found in " ++ toString attempts ++ " attempts."

def prunedText (count : Nat) (mode : Mode) : String :=
  "Removed " ++ toString count ++ " block(s) not available in " ++ mode.name ++ " mode"

namespace Notice

def message : Notice → String
  | commandLimit => "⚠️ Command limit reached. Stopping execution."
  | conditionLimit => "⚠️ Condition loop limit reached. Stopping execution."
  | moveLimit limit => "⚠️ Maximum moves (" ++ toString limit ++ ") exceeded!"
  | refused refusal => refusal.message
  | unknownBlock id => "No block with id " ++ idText id ++ "."
  | unknownMode value => "Unknown mode '" ++ value.shown ++ "'."
  | pruned count mode => prunedText count mode ++ "."
  | alreadyRunning => "A program is already running."
  | alreadyAttempted =>
    "This puzzle has already been attempted. Click \"Next Puzzle\" to continue."
  | nothingRunning => "Nothing is running."
  | locked => "🔒 You have exhausted all allowed attempts."
  | nowLocked => "🔒 All attempts exhausted. You can no longer play."
  | moving mode => "➡️ Moving to " ++ mode.name ++ " mode."
  | progressing mode => "➡️ Progressing to " ++ mode.name ++ " mode."
  | noCommands => "No commands in program. Add some blocks!"
  | executing => "📋 Executing program..."
  | succeeded => "✅ SUCCESS! +1 Point"
  | failed => "❌ FAILED! 0 Points"
  | noPuzzle attempts => "Could not generate a puzzle: " ++ noPuzzleText attempts
  | newPuzzle => "New puzzle! Good luck! 🎯"
  | gameReset => "Game reset! 🔄"

end Notice

inductive Event
  | moved (pose : Pose)
  | blocked (pose : Pose)
  | turned (side : Side) (pose : Pose)
  | won (moves : Nat)
  | lost (reason : Option Reason) (moves : Nat)
  | notice (notice : Notice)
  deriving DecidableEq

inductive EventKind
  | moved
  | blocked
  | turned
  | won
  | lost
  | diagnostic
  deriving DecidableEq

def EventKind.name : EventKind → String
  | moved => "moved"
  | blocked => "blocked"
  | turned => "turned"
  | won => "won"
  | lost => "lost"
  | diagnostic => "diagnostic"

namespace Event

def kind : Event → EventKind
  | moved _ => .moved
  | blocked _ => .blocked
  | turned _ _ => .turned
  | won _ => .won
  | lost _ _ => .lost
  | notice _ => .diagnostic

def message : Event → String
  | moved pose => "✓ Moved " ++ pose.facing.label
  | blocked _ => "⛔️ Cannot move there - obstacle!"
  | turned .left pose => "↺ Turned left (now facing " ++ pose.facing.label ++ ")"
  | turned .right pose => "↻ Turned right (now facing " ++ pose.facing.label ++ ")"
  | won moves => "🎉 Reached the goal in " ++ toString moves ++ " moves!"
  | lost reason _ => "❌ Run failed: " ++ reasonText reason ++ "."
  | notice n => n.message

def pose? : Event → Option Pose
  | moved pose => some pose
  | blocked pose => some pose
  | turned _ pose => some pose
  | _ => none

end Event

end BlockMaze
