import BlockMaze.Run.Control

/-! Walks: a program is run one command at a time, and between two commands the caller may do as it
likes. Several walks may belong to one engine; each keeps its own place, all share the counters. -/
namespace BlockMaze

inductive Walk
  | pending (stack : Stack)
  | spent
  deriving DecidableEq

def Walk.ofForest (forest : Forest) : Walk := .pending [.rest forest]

namespace Engine

/-- What comes of a place found in the program: its command is carried out and told as an event, or
the walk is over. A walk that comes to the end of its program ends the run. -/
def follow (engine : Engine) : Found → Told (Engine × Walk × Option Event)
  | .command command after => do
    let (engine, event) ← engine.perform command
    return (engine, if event.isSome then .pending after else .spent, event)
  | .passLimit => do
    let engine ← engine.stop .conditionLimit .conditionLimit
    return (engine, .spent, none)
  | .finished => do
    let engine ←
      if engine.world.atGoal then engine.finish .won none
      else engine.finish .lost (some .endedAway)
    return (engine, .spent, none)

/-- Goes on to the next command and returns its event, or none once the walk is over. -/
def next (engine : Engine) : Walk → Told (Engine × Walk × Option Event)
  | .spent => pure (engine, .spent, none)
  | .pending stack =>
    if engine.run.running then engine.follow (engine.seek stack)
    else pure (engine, .spent, none)

def budget (engine : Engine) : Nat := (engine.run.limits.commands - engine.run.total).toNat

/-- Goes on for at most `bound` commands, which are added to a count. -/
def drainWithin : Nat → Nat → Engine → Walk → Told (Engine × Nat)
  | 0, count, engine, _ => pure (engine, count)
  | bound + 1, count, engine, walk => do
    let (engine, walk, event) ← engine.next walk
    if event.isSome then drainWithin bound (count + 1) engine walk else return (engine, count)

/-- Goes on to the end of a walk and counts the commands. The budget bounds their number. -/
def drain (engine : Engine) (walk : Walk) : Told (Engine × Nat) :=
  drainWithin (engine.budget + 1) 0 engine walk

def runToEnd (engine : Engine) (forest : Forest) : Told Engine := do
  let (engine, _) ← engine.start.drain (.ofForest forest)
  return engine

end Engine

end BlockMaze
