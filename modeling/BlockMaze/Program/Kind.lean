import BlockMaze.Board.Facing

/-! The vocabulary of programs: commands, the conditions a block can wait for, the kinds of block
the palette offers, the modes of play that take them, and the counts of repetitions, which lie between
one and twenty. -/
namespace BlockMaze
open Text

inductive Command
  | forward
  | turn (side : Side)
  deriving DecidableEq

inductive Predicate
  | obstacleAhead
  | boundaryAhead
  | atGoal
  deriving DecidableEq

inductive Mode
  | basic
  | conditions
  | loop
  deriving DecidableEq

/-- What the palette can place: a command, a repetition, or a block that waits for a predicate. -/
inductive Kind
  | command (command : Command)
  | repeated
  | guarded (predicate : Predicate)
  deriving DecidableEq

namespace Command

def name : Command → String
  | forward => "forward"
  | turn .left => "turn_left"
  | turn .right => "turn_right"

def label : Command → String
  | forward => "Go Forward"
  | turn .left => "Turn Left"
  | turn .right => "Turn Right"

end Command

namespace Predicate

def name : Predicate → String
  | obstacleAhead => "obstacle_ahead"
  | boundaryAhead => "boundary_ahead"
  | atGoal => "at_goal"

def label : Predicate → String
  | obstacleAhead => "Until Obstacle Ahead"
  | boundaryAhead => "Until At Boundary"
  | atGoal => "Until At Goal"

def all : List Predicate := [obstacleAhead, boundaryAhead, atGoal]

def ofDatum (value : Datum) : Except UnknownName Predicate :=
  match all.find? fun predicate => value = .text predicate.name with
  | some predicate => .ok predicate
  | none => .error ⟨"Predicate", value⟩

end Predicate

namespace Kind

def name : Kind → String
  | command c => c.name
  | repeated => "repeat"
  | guarded .obstacleAhead => "until_obstacle"
  | guarded .boundaryAhead => "until_boundary"
  | guarded .atGoal => "until_goal"

def all : List Kind :=
  [command .forward, command (.turn .left), command (.turn .right), repeated,
    guarded .obstacleAhead, guarded .boundaryAhead, guarded .atGoal]

def ofDatum (value : Datum) : Except UnknownName Kind :=
  match all.find? fun kind => value = .text kind.name with
  | some kind => .ok kind
  | none => .error ⟨"BlockKind", value⟩

theorem ofDatum_name (kind : Kind) : ofDatum (.text kind.name) = .ok kind := by
  cases kind with
  | command c => rcases c with _ | (_ | _) <;> rfl
  | repeated => rfl
  | guarded predicate => cases predicate <;> rfl

end Kind

namespace Mode

def name : Mode → String
  | basic => "basic"
  | conditions => "conditions"
  | loop => "loop"

def all : List Mode := [basic, conditions, loop]

def ofDatum (value : Datum) : Except UnknownName Mode :=
  match all.find? fun mode => value = .text mode.name with
  | some mode => .ok mode
  | none => .error ⟨"Mode", value⟩

def next : Mode → Mode
  | basic => conditions
  | conditions => loop
  | loop => basic

/-- Repetitions belong to loop mode, guarded blocks to conditions mode, commands to every mode. -/
def allows : Mode → Kind → Bool
  | _, .command _ => true
  | mode, .repeated => mode = loop
  | mode, .guarded _ => mode = conditions

end Mode

def clampCount (count : Int) : Int := max 1 (min 20 count)

theorem clampCount_bounds (count : Int) : 1 ≤ clampCount count ∧ clampCount count ≤ 20 := by
  unfold clampCount
  omega

theorem clampCount_of_bounds {count : Int} (low : 1 ≤ count) (high : count ≤ 20) :
    clampCount count = count := by
  unfold clampCount
  omega

def countOfDatum (value : Datum) : Except NumberFault Int := value.integer.map clampCount

def passes (count : Int) : Nat := (clampCount count).toNat

end BlockMaze
