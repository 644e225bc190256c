import BlockMaze.Text.Datum
import BlockMaze.Report.Told

/-! Progress through the modes of play. Each mode has a quota of runs; when it is spent the next
mode opens, and after the last one the player is locked out. -/
namespace BlockMaze

structure Attempt where
  success : Bool
  moves : Int
  deriving DecidableEq

/-- The attempts made in each mode; a mode may have no entry at all. -/
structure Attempts where
  basic : Option (List Attempt) := some []
  conditions : Option (List Attempt) := some []
  loop : Option (List Attempt) := some []
  deriving DecidableEq

namespace Attempts

def entry? (attempts : Attempts) : Mode → Option (List Attempt)
  | .basic => attempts.basic
  | .conditions => attempts.conditions
  | .loop => attempts.loop

def made (attempts : Attempts) (mode : Mode) : List Attempt := (attempts.entry? mode).getD []

def put (attempts : Attempts) (mode : Mode) (entry : List Attempt) : Attempts :=
  match mode with
  | .basic => { attempts with basic := some entry }
  | .conditions => { attempts with conditions := some entry }
  | .loop => { attempts with loop := some entry }

@[simp] theorem made_put (attempts : Attempts) (mode other : Mode) (entry : List Attempt) :
    (attempts.put mode entry).made other = if other = mode then entry else attempts.made other := by
  cases mode <;> cases other <;> rfl

end Attempts

structure Progress where
  sequence : List Mode := [.basic, .conditions, .loop]
  index : Int := 0
  attempts : Attempts := {}
  quota : Int := 4
  locked : Bool := false
  deriving DecidableEq

namespace Progress

def current (progress : Progress) : Except PlaceFault Mode :=
  itemAt progress.sequence progress.index

def modeOr (progress : Progress) : Option Mode → Except PlaceFault Mode
  | some mode => .ok mode
  | none => progress.current

def used (progress : Progress) (mode : Option Mode) : Except PlaceFault Nat := do
  return (progress.attempts.made (← progress.modeOr mode)).length

def remaining (progress : Progress) (mode : Option Mode) : Except PlaceFault Int := do
  return max 0 (progress.quota - (← progress.used mode))

/-- Opens the next mode, or locks after the last, once the quota of the current mode is spent; and
whether anything changed. -/
def advance : Act PlaceFault Progress Bool := do
  let progress ← get
  if progress.locked then return false
  let used ← progress.used none
  if used < progress.quota then return false
  if progress.index < progress.sequence.length - 1 then
    let advanced := { progress with index := progress.index + 1 }
    Act.tell [.log (.progressing (← advanced.current))]
    set advanced
  else
    Act.tell [.log .locking]
    set { progress with locked := true }
  return true

def record (attempt : Attempt) : Act PlaceFault Progress Unit := do
  let progress ← get
  let mode ← progress.current
  let made := progress.attempts.made mode ++ [attempt]
  set { progress with attempts := progress.attempts.put mode made }
  discard advance

end Progress

end BlockMaze
