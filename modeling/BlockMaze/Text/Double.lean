/-! Binary fractions of double precision: 53 significant bits, and a least unit of 2 to the -1074. A
written decimal stands for the nearest of them, and a tie goes to the even mantissa. -/
namespace BlockMaze.Text

/-- A finite double is its mantissa times a power of two; zero has a sign too. -/
inductive Double
  | notANumber
  | infinite (negative : Bool)
  | finite (negative : Bool) (mantissa : Nat) (exponent : Int)
  deriving DecidableEq

/-- The quotient rounded to the nearest integer, a tie to the even one. -/
def roundDiv (num den : Nat) : Nat :=
  let floor := num / den
  let twice := 2 * (num % den)
  if den < twice || (twice = den && floor % 2 = 1) then floor + 1 else floor

/-- The greatest power of two not above `num / den`, as an exponent. -/
def binaryExponent (num den : Nat) : Int :=
  let guess : Int := (num.log2 : Int) - den.log2
  let fits := if 0 ≤ guess then den <<< guess.toNat ≤ num else den ≤ num <<< (-guess).toNat
  if fits then guess else guess - 1

namespace Double

def leastExponent : Int := -1074

def greatestExponent : Int := 971

/-- The double nearest to `num / den`, where `num` is positive. -/
def ofQuotient (negative : Bool) (num den : Nat) : Double :=
  let exponent := max (binaryExponent num den - 52) leastExponent
  let mantissa :=
    if 0 ≤ exponent then roundDiv num (den <<< exponent.toNat)
    else roundDiv (num <<< (-exponent).toNat) den
  let (mantissa, exponent) :=
    if mantissa = 1 <<< 53 then (1 <<< 52, exponent + 1) else (mantissa, exponent)
  if greatestExponent < exponent then infinite negative
  else if mantissa = 0 then finite negative 0 0
  else finite negative mantissa exponent

/-- The double nearest to `digits` times a power of ten. Powers far out of range are not computed. -/
def ofDecimal (negative : Bool) (digits : Nat) (exponent : Int) : Double :=
  let magnitude := (Nat.toDigits 10 digits).length + exponent
  if digits = 0 ∨ magnitude < -323 then finite negative 0 0
  else if 309 < magnitude then infinite negative
  else if 0 ≤ exponent then ofQuotient negative (digits * Nat.pow 10 exponent.toNat) 1
  else ofQuotient negative digits (Nat.pow 10 (-exponent).toNat)

def wholePart (mantissa : Nat) (exponent : Int) : Nat :=
  if 0 ≤ exponent then mantissa <<< exponent.toNat else mantissa >>> (-exponent).toNat

def signed (negative : Bool) (magnitude : Nat) : Int := if negative then -magnitude else magnitude

def integer? : Double → Option Int
  | finite negative mantissa exponent =>
    let whole := wholePart mantissa exponent
    if 0 ≤ exponent ∨ whole <<< (-exponent).toNat = mantissa then some (signed negative whole)
    else none
  | _ => none

def isZero : Double → Bool
  | finite _ mantissa _ => mantissa = 0
  | _ => false

def ofScaled (value exponent : Int) : Double :=
  if value = 0 then finite false 0 0
  else if 0 ≤ exponent then ofQuotient (value < 0) (value.natAbs <<< exponent.toNat) 1
  else ofQuotient (value < 0) value.natAbs (1 <<< (-exponent).toNat)

def ofInt (value : Int) : Double := ofScaled value 0

/-- The double nearest to the sum. A sum of zero is negative only if both parts are. -/
def add : Double → Double → Double
  | finite negative mantissa exponent, finite negative' mantissa' exponent' =>
    let unit := min exponent exponent'
    let sum := signed negative (mantissa <<< (exponent - unit).toNat) +
      signed negative' (mantissa' <<< (exponent' - unit).toNat)
    if sum = 0 then finite (negative && negative') 0 0 else ofScaled sum unit
  | infinite negative, infinite negative' =>
    if negative = negative' then infinite negative else notANumber
  | infinite negative, finite .. => infinite negative
  | finite .., infinite negative => infinite negative
  | _, _ => notANumber

def toFloat : Double → Float
  | notANumber => 0 / 0
  | infinite negative => (if negative then -1 else 1) / 0
  | finite negative mantissa exponent =>
    let magnitude := (Float.ofNat mantissa).scaleB exponent
    if negative then -magnitude else magnitude

def neg : Double → Double
  | finite negative mantissa exponent => finite (!negative) mantissa exponent
  | infinite negative => infinite (!negative)
  | notANumber => notANumber

/-- The remainder by a positive integer. It has the sign of the double and is itself a double. -/
def remainder (divisor : Nat) : Double → Double
  | finite negative mantissa exponent =>
    if 0 ≤ exponent then ofInt (signed negative ((mantissa <<< exponent.toNat) % divisor))
    else ofScaled (signed negative (mantissa % (divisor <<< (-exponent).toNat))) exponent
  | _ => notANumber

def quotient (divisor : Nat) : Double → Double
  | finite negative 0 _ => finite negative 0 0
  | finite negative mantissa exponent =>
    if 0 ≤ exponent then ofQuotient negative (mantissa <<< exponent.toNat) divisor
    else ofQuotient negative mantissa (divisor <<< (-exponent).toNat)
  | other => other

/-- The nearest whole number, the lower one of two that are equally near. -/
def nearestWhole : Double → Double
  | finite negative mantissa exponent =>
    if 0 ≤ exponent then finite negative mantissa exponent
    else
      let unit : Int := ((1 <<< (-exponent).toNat : Nat) : Int)
      ofInt (-(unit - 2 * signed negative mantissa).fdiv (2 * unit))
  | other => other

instance : Add Double := ⟨add⟩

instance : Neg Double := ⟨neg⟩

instance : OfScientific Double where
  ofScientific digits negative exponent :=
    ofDecimal false digits (if negative then -exponent else exponent)

/-- The quotient by a positive integer, cut down to a whole number. Below 2 to the 53 it is exact;
beyond, what is left after the remainder is rounded, and so is its quotient. -/
def floorDiv (divisor : Nat) (value : Double) : Double :=
  let rest := value.remainder divisor
  let whole := (value + -rest).quotient divisor
  match rest with
  | finite true _ _ => (whole + ofInt (-1)).nearestWhole
  | _ => whole.nearestWhole

end Double

end BlockMaze.Text
