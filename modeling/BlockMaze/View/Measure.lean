import BlockMaze.Text.Datum

/-! Measures are whole numbers or doubles. A surface counts in pixels, which are words of 32 bits:
whole numbers lose their higher bits, fractions are cut toward zero, and a double out of range
becomes the least word. -/
namespace BlockMaze
open Text

inductive Measure
  | whole (value : Int)
  | fraction (value : Double)
  deriving DecidableEq

inductive SurfaceFault
  | notRect
  | notPoint
  | notInteger (fault : NumberFault)
  | tooLarge
  | notRow (fault : PlaceFault)
  deriving DecidableEq

def SurfaceFault.message : SurfaceFault → String
  | notRect => "Argument must be rect style object"
  | notPoint => "argument must contain two numbers"
  | notInteger fault => fault.message
  | tooLarge => "int too large to convert to float"
  | notRow fault => fault.message "list"

def leastPixel : Int := -2147483648

/-- What is left of an integer when only its lower 32 bits are kept. -/
def wrap (value : Int) : Int := value.bmod 4294967296

theorem wrap_of_range {value : Int} (low : leastPixel ≤ value) (high : value < -leastPixel) :
    wrap value = value := by
  unfold leastPixel at low high
  exact Int.bmod_eq_of_le_mul_two (by omega) (by omega)

namespace Measure

def ofDatum? : Datum → Option Measure
  | .whole value => some (whole value)
  | .flag value => some (whole (if value then 1 else 0))
  | .fraction value => some (fraction value)
  | _ => none

def integer : Measure → Except SurfaceFault Int
  | whole value => .ok value
  | fraction value => (Datum.fraction value).integer.mapError .notInteger

def toDouble : Measure → Double
  | whole value => .ofInt value
  | fraction value => value

def double? : Measure → Option Double
  | whole value =>
    match Double.ofInt value with
    | .infinite _ => none
    | nearest => some nearest
  | fraction value => some value

def addsTo : Measure → Measure → Bool
  | whole _, whole _ => true
  | first, second => first.double?.isSome && second.double?.isSome

/-- Whole numbers add up exactly; a double makes the sum a double. -/
def add : Measure → Measure → Measure
  | whole first, whole second => whole (first + second)
  | first, second => fraction (first.toDouble + second.toDouble)

instance : Add Measure := ⟨add⟩

def floorHalf : Measure → Measure
  | whole value => whole (value.fdiv 2)
  | fraction value => fraction (value.floorDiv 2)

/-- Whether a measure is let onto the surface: whole numbers have to fit a word of 64 bits. -/
def fits : Measure → Bool
  | whole value => -wordLimit ≤ value && value < wordLimit
  | fraction _ => true

def pixel : Measure → Int
  | whole value => wrap value
  | fraction (.finite negative mantissa exponent) =>
    let value := Double.signed negative (Double.wholePart mantissa exponent)
    if leastPixel ≤ value ∧ value < -leastPixel then value else leastPixel
  | fraction _ => leastPixel

def pixel? (value : Datum) : Option Int := ((ofDatum? value).filter fits).map pixel

end Measure

end BlockMaze
