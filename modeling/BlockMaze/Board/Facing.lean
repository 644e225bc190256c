import BlockMaze.Text.Datum

/-! The four facings of the agent, numbered so that a turn to the right adds one modulo four. -/
namespace BlockMaze
open Text

inductive Side
  | left
  | right
  deriving DecidableEq

inductive Facing
  | up
  | right
  | down
  | left
  deriving DecidableEq

/-- A value that names nothing in the vocabulary it was looked up in. -/
structure UnknownName where
  vocabulary : String
  value : Datum
  deriving DecidableEq

def UnknownName.message (fault : UnknownName) : String :=
  fault.value.named ++ " is not a valid " ++ fault.vocabulary

structure UnknownTurn where
  value : Datum
  deriving DecidableEq

def UnknownTurn.message (fault : UnknownTurn) : String :=
  "Unknown turn direction " ++ fault.value.named

namespace Side

def name : Side → String
  | left => "left"
  | right => "right"

def ofDatum : Datum → Except UnknownTurn Side
  | .text "left" => .ok left
  | .text "right" => .ok right
  | value => .error ⟨value⟩

end Side

namespace Facing

def label : Facing → String
  | up => "up"
  | right => "right"
  | down => "down"
  | left => "left"

def number : Facing → Int
  | up => 0
  | right => 1
  | down => 2
  | left => 3

def ofNumber? : Int → Option Facing
  | 0 => some up
  | 1 => some right
  | 2 => some down
  | 3 => some left
  | _ => none

theorem ofNumber?_number (facing : Facing) : ofNumber? facing.number = some facing := by
  cases facing <;> rfl

def all : List Facing := [up, right, down, left]

def ofPlace (place : Datum) : Except PlaceFault Facing := itemAtDatum all place

def ofDatum (value : Datum) : Except UnknownName Facing :=
  match value.exactInteger?.bind ofNumber? with
  | some facing => .ok facing
  | none => .error ⟨"Facing", value⟩

def turn : Side → Facing → Facing
  | .right, up => right
  | .right, right => down
  | .right, down => left
  | .right, left => up
  | .left, up => left
  | .left, right => up
  | .left, down => right
  | .left, left => down

theorem number_turn_right (facing : Facing) :
    (facing.turn .right).number = (facing.number + 1) % 4 := by
  cases facing <;> rfl

theorem number_turn_left (facing : Facing) :
    (facing.turn .left).number = (facing.number - 1) % 4 := by
  cases facing <;> rfl

end Facing

end BlockMaze
