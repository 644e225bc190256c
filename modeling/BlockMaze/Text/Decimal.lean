import BlockMaze.Text.Double

/-! Doubles as decimals. The shortest has the fewest digits that stand for the same double, nearest to
it among as many digits; its point is written out between 10 to the -4 and 10 to the 16, and an exponent
elsewhere. With a fixed number of places the value is taken exactly, and a tie goes to the even last
digit. -/
namespace BlockMaze.Text

namespace Double

def compareScaled (a : Nat) (tens : Int) (n : Nat) (twos : Int) : Ordering :=
  compare ((a * Nat.pow 10 tens.toNat) <<< (-twos).toNat)
    ((n * Nat.pow 10 (-tens).toNat) <<< twos.toNat)

/-- Whether a decimal lies among the numbers that round to a double. The ends of that range are
halfway to the neighbours, the lower of which is nearer at a power of two; a tie goes to an even
mantissa. -/
def readsBack (mantissa : Nat) (exponent : Int) (digits : Nat) (tens : Int) : Bool :=
  let narrow := mantissa = 1 <<< 52 && leastExponent < exponent
  let low := compareScaled digits tens (4 * mantissa - if narrow then 1 else 2) (exponent - 2)
  let high := compareScaled digits tens (4 * mantissa + 2) (exponent - 2)
  let even := mantissa % 2 = 0
  (low = .gt || (even && low = .eq)) && (high = .lt || (even && high = .eq))

/-- The number of digits before the decimal point, negative for zeros right after it. -/
def magnitude (mantissa : Nat) (exponent : Int) : Int :=
  let guess := ((mantissa.log2 + exponent) * 30103).fdiv 100000
  let above (power : Int) : Bool := compareScaled 1 power mantissa exponent = .gt
  (([guess - 1, guess, guess + 1].find? above).getD (guess + 2))

/-- The decimal with a given last place that stands for a double, if there is one: of the two
neighbours the nearer, and the even one of two that are equally near. -/
def withPlace? (mantissa : Nat) (exponent : Int) (place : Int) : Option Nat :=
  let below := (mantissa * Nat.pow 10 (-place).toNat) <<< exponent.toNat /
    (Nat.pow 10 place.toNat <<< (-exponent).toNat)
  match readsBack mantissa exponent below place, readsBack mantissa exponent (below + 1) place with
  | false, false => none
  | true, false => some below
  | false, true => some (below + 1)
  | true, true =>
    match compareScaled (2 * below + 1) place mantissa (exponent + 1) with
    | .gt => some below
    | .lt => some (below + 1)
    | .eq => some (if below % 2 = 0 then below else below + 1)

def strip (digits : Nat) (place : Int) : Nat → Nat × Int
  | 0 => (digits, place)
  | bound + 1 =>
    if digits % 10 = 0 ∧ digits ≠ 0 then strip (digits / 10) (place + 1) bound else (digits, place)

/-- The fewest digits that stand for a double, and the place of the last one. Seventeen always do. -/
def shortest (mantissa : Nat) (exponent : Int) : Nat × Int :=
  let top := magnitude mantissa exponent
  let found := (List.range 17).findSome? fun (count : Nat) =>
    let place := top - (count + 1)
    (withPlace? mantissa exponent place).map (·, place)
  let (digits, place) := found.getD (mantissa, 0)
  strip digits place 20

def zeros (count : Int) : List Char := List.replicate count.toNat '0'

def positional (digits : List Char) (point : Int) : List Char :=
  if point ≤ 0 then ['0', '.'] ++ zeros (-point) ++ digits
  else
    let whole := digits.take point.toNat ++ zeros (point - digits.length)
    let fraction := digits.drop point.toNat
    whole ++ ['.'] ++ if fraction.isEmpty then ['0'] else fraction

def scientific (digits : List Char) (power : Int) : List Char :=
  let size := Nat.toDigits 10 power.natAbs
  let fraction := digits.drop 1
  digits.take 1 ++ (if fraction.isEmpty then [] else '.' :: fraction) ++
    ['e', if power < 0 then '-' else '+'] ++ zeros (2 - size.length) ++ size

def text : Double → String
  | notANumber => "nan"
  | infinite negative => if negative then "-inf" else "inf"
  | finite negative mantissa exponent =>
    let (digits, place) := if mantissa = 0 then (0, 0) else shortest mantissa exponent
    let cs := Nat.toDigits 10 digits
    let point := cs.length + place
    String.ofList ((if negative then ['-'] else []) ++
      if -4 < point ∧ point ≤ 16 then positional cs point else scientific cs (point - 1))

def padded (width number : Nat) : String :=
  let digits := Nat.toDigits 10 number
  String.ofList (List.replicate (width - digits.length) '0' ++ digits)

def inPlaces (places mantissa : Nat) (exponent : Int) : Nat :=
  let scaled := mantissa * Nat.pow 10 places
  if 0 ≤ exponent then scaled <<< exponent.toNat else roundDiv scaled (1 <<< (-exponent).toNat)

/-- The double with a number of places after the point. The sign is kept where all digits are zero. -/
def toPlaces (places : Nat) : Double → String
  | notANumber => "nan"
  | infinite negative => if negative then "-inf" else "inf"
  | finite negative mantissa exponent =>
    let units := inPlaces places mantissa exponent
    let scale := Nat.pow 10 places
    (if negative then "-" else "") ++ toString (units / scale) ++ "." ++
      padded places (units % scale)

end Double

end BlockMaze.Text
