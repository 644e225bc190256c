import BlockMaze.Text.Numeral
import BlockMaze.Text.Decimal

/-! Loose values offered where a name, a number or a place in a sequence is expected. Places from zero on
count from the start, negative ones back from the end, and only those that fit a word of 64 bits are
looked up at all. -/
namespace BlockMaze.Text

mutual
inductive Datum
  | absent
  | flag (value : Bool)
  | whole (value : Int)
  | fraction (value : Double)
  | text (value : String)
  | list (items : Items)
  | record (fields : Fields)
  deriving DecidableEq
inductive Items
  | empty
  | item (first : Datum) (rest : Items)
  deriving DecidableEq
inductive Fields
  | empty
  | field (name : String) (value : Datum) (rest : Fields)
  deriving DecidableEq
end

/-- Why a value stands for no integer; `sort` is the sort of value it is. -/
inductive NumberFault
  | numeral (fault : NumeralFault)
  | notANumber
  | infinite
  | notNumeric (sort : String)
  deriving DecidableEq

def NumberFault.message : NumberFault → String
  | numeral fault => fault.message
  | notANumber => "cannot convert float NaN to integer"
  | infinite => "cannot convert float infinity to integer"
  | notNumeric sort =>
    "int() argument must be a string, a bytes-like object or a real number, not '" ++ sort ++ "'"

namespace Items

def ofList : List Datum → Items
  | [] => empty
  | first :: rest => item first (ofList rest)

def toList : Items → List Datum
  | empty => []
  | item first rest => first :: rest.toList

theorem toList_ofList (values : List Datum) : (ofList values).toList = values := by
  induction values with
  | nil => rfl
  | cons first rest ih => rw [ofList, toList, ih]

end Items

namespace Fields

def find? (name : String) : Fields → Option Datum
  | empty => none
  | field other value rest => if other = name then some value else rest.find? name

/-- Sets a field where it stands, or adds it at the end. -/
def put (name : String) (value : Datum) : Fields → Fields
  | empty => field name value empty
  | field other old rest =>
    if other = name then field name value rest else field other old (rest.put name value)

theorem find?_put_self (name : String) (value : Datum) :
    (fields : Fields) → (fields.put name value).find? name = some value
  | empty => by simp [put, find?]
  | field other old rest => by
    by_cases same : other = name
    · simp [put, find?, same]
    · simp [put, find?, same, find?_put_self name value rest]

theorem find?_put_of_ne {name other : String} (value : Datum) (different : name ≠ other) :
    (fields : Fields) → (fields.put name value).find? other = fields.find? other
  | empty => by simp [put, find?, different]
  | field first old rest => by
    by_cases same : first = name
    · simp [put, find?, same, different]
    · by_cases found : first = other
      · simp [put, find?, found, different.symm]
      · simp [put, find?, same, found, find?_put_of_ne value different rest]

end Fields

mutual

/-- The value as it is written down: text in quotes, lists and records with all they hold. -/
def Datum.named : Datum → String
  | .absent => "None"
  | .flag value => if value then "True" else "False"
  | .whole value => toString value
  | .fraction value => value.text
  | .text value => quoted value
  | .list items => "[" ++ ", ".intercalate items.named ++ "]"
  | .record fields => "\x7b" ++ ", ".intercalate fields.named ++ "\x7d"

def Items.named : Items → List String
  | .empty => []
  | .item first rest => first.named :: rest.named

def Fields.named : Fields → List String
  | .empty => []
  | .field name value rest => (quoted name ++ ": " ++ value.named) :: rest.named

end

namespace Datum

def shown : Datum → String
  | text value => value
  | other => other.named

def sort : Datum → String
  | absent => "NoneType"
  | flag _ => "bool"
  | whole _ => "int"
  | fraction _ => "float"
  | text _ => "str"
  | list _ => "list"
  | record _ => "dict"

/-- The integer a value stands for; fractions lose their fractional part. -/
def integer : Datum → Except NumberFault Int
  | flag value => .ok (if value then 1 else 0)
  | whole value => .ok value
  | fraction (.finite negative mantissa exponent) =>
    .ok (Double.signed negative (Double.wholePart mantissa exponent))
  | fraction (.infinite _) => .error .infinite
  | fraction .notANumber => .error .notANumber
  | text value => (Text.integer value).mapError .numeral
  | other => .error (.notNumeric other.sort)

/-- The integer a value equals, text and true fractions excluded. -/
def exactInteger? : Datum → Option Int
  | flag value => some (if value then 1 else 0)
  | whole value => some value
  | fraction value => value.integer?
  | _ => none

/-- Whether the value counts as true: all but nothing, false, zero and what is empty. -/
def holds : Datum → Bool
  | absent => false
  | flag value => value
  | whole value => value != 0
  | fraction value => !value.isZero
  | text value => value != ""
  | list items => items ≠ .empty
  | record fields => fields ≠ .empty

end Datum

end BlockMaze.Text

namespace BlockMaze
open Text

inductive PlaceFault
  | outOfRange
  | tooLarge
  | notWhole (sort : String)
  deriving DecidableEq

def PlaceFault.message (sequence : String) : PlaceFault → String
  | outOfRange => sequence ++ " index out of range"
  | tooLarge => "cannot fit 'int' into an index-sized integer"
  | notWhole sort => sequence ++ " indices must be integers or slices, not " ++ sort

def wordLimit : Int := 9223372036854775808

def itemAt {α : Type} (items : List α) (place : Int) : Except PlaceFault α :=
  if place < -wordLimit ∨ wordLimit ≤ place then .error .tooLarge
  else
    let index := if place < 0 then place + items.length else place
    if 0 ≤ index then
      match items[index.toNat]? with
      | some item => .ok item
      | none => .error .outOfRange
    else .error .outOfRange

def itemAtDatum {α : Type} (items : List α) : Datum → Except PlaceFault α
  | .whole place => itemAt items place
  | .flag place => itemAt items (if place then 1 else 0)
  | other => .error (.notWhole other.sort)

end BlockMaze
