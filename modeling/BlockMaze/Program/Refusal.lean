import BlockMaze.Program.Kind

/-! Why an edit or another request of the player is refused. -/
namespace BlockMaze
open Text

inductive Refusal
  | unknownKind (value : Datum)
  | repeatOutsideLoop
  | conditionOutsideConditions
  | unknownBlock (id : Option Int)
  | cannotHold (id : Int)
  | nestedRepeat
  | nestedCondition
  | countNotNumber
  | editWhileRunning
  | alreadyAttempted
  | puzzleWhileRunning
  | nextWhileRunning
  | resetWhileRunning
  | modeWhileRunning
  | modeByProgress (mode : Mode)
  deriving DecidableEq

def idText : Option Int → String
  | none => "None"
  | some id => toString id

namespace Refusal

def message : Refusal → String
  | unknownKind value => "Unknown block '" ++ value.shown ++ "'."
  | repeatOutsideLoop => "Repeat is only available in Loop mode."
  | conditionOutsideConditions => "Condition blocks are only available in Conditions mode."
  | unknownBlock id => "No block with id " ++ idText id ++ "."
  | cannotHold id => "Block " ++ toString id ++ " cannot hold other blocks."
  | nestedRepeat => "Nested Repeat blocks are not allowed."
  | nestedCondition => "Nested Condition blocks are not allowed."
  | countNotNumber => "Repeat count must be a number."
  | editWhileRunning => "Cannot edit the program while it is running."
  | alreadyAttempted =>
    "This puzzle has already been attempted. Click \"Next Puzzle\" to continue."
  | puzzleWhileRunning => "Cannot change the puzzle while the program is running."
  | nextWhileRunning => "Stop the program before moving on."
  | resetWhileRunning => "Stop the program before resetting."
  | modeWhileRunning => "Cannot change mode while the program is running."
  | modeByProgress mode => "Mode is set by your progress (" ++ mode.name ++ ")."

/-- Whether the request named a block that is not there; otherwise it broke a rule. -/
def isUnknownReference : Refusal → Bool
  | unknownBlock _ => true
  | _ => false

end Refusal

end BlockMaze
