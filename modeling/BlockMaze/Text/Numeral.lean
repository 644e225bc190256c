import BlockMaze.Text.Quoted

/-! Written integers: blanks around, one optional sign, then decimal digits of any script with at
most one underscore between two of them. -/
namespace BlockMaze.Text

def isBlank (c : Char) : Bool :=
  let code := c.toNat
  (9 ≤ code && code ≤ 13) || (0x2000 ≤ code && code ≤ 0x200A) ||
    [0x20, 0x85, 0xA0, 0x1680, 0x2028, 0x2029, 0x202F, 0x205F, 0x3000].contains code

/-- The code points of the digit zero, in increasing order. A script writes the digits zero to nine with ten
consecutive code points, so that these determine all of them. -/
def zeros : List Nat := [
    0x30, 0x660, 0x6F0, 0x7C0, 0x966, 0x9E6, 0xA66, 0xAE6, 0xB66, 0xBE6, 0xC66, 0xCE6, 0xD66,
    0xDE6, 0xE50, 0xED0, 0xF20, 0x1040, 0x1090, 0x17E0, 0x1810, 0x1946, 0x19D0, 0x1A80, 0x1A90,
    0x1B50, 0x1BB0, 0x1C40, 0x1C50, 0xA620, 0xA8D0, 0xA900, 0xA9D0, 0xA9F0, 0xAA50, 0xABF0,
    0xFF10, 0x104A0, 0x10D30, 0x11066, 0x110F0, 0x11136, 0x111D0, 0x112F0, 0x11450, 0x114D0,
    0x11650, 0x116C0, 0x11730, 0x118E0, 0x11950, 0x11C50, 0x11D50, 0x11DA0, 0x16A60, 0x16AC0,
    0x16B50, 0x1D7CE, 0x1D7D8, 0x1D7E2, 0x1D7EC, 0x1D7F6, 0x1E140, 0x1E2F0, 0x1E950, 0x1FBF0]

def digit? (c : Char) : Option Nat :=
  (zeros.find? fun first => first ≤ c.toNat && c.toNat < first + 10).map (c.toNat - ·)

/-- The longest numeral that is read, in digits. Only reading has this limit: a number that is written, in a
message or elsewhere, is written in full however long it is. -/
def longestNumeral : Nat := 4300

inductive NumeralFault
  | malformed (source : String)
  | tooLong (digits : Nat)
  deriving DecidableEq

namespace NumeralFault

def message : NumeralFault → String
  | malformed source =>
    "invalid literal for int() with base 10: " ++
      String.ofList ((quoted source).toList.take 200)
  | tooLong digits =>
    "Exceeds the limit (" ++ toString longestNumeral ++
      " digits) for integer string conversion: value has " ++ toString digits ++
      " digits; use sys.set_int_max_str_digits() to increase the limit"

end NumeralFault

/-- The digits of a numeral without its sign, which needs one at either end and one on each side of
an underscore. -/
def digits? : List Char → Option (List Nat)
  | [] => none
  | [c] => (digit? c).map ([·])
  | c :: '_' :: rest => do return (← digit? c) :: (← digits? rest)
  | c :: rest => do return (← digit? c) :: (← digits? rest)

def ofDigits (ds : List Nat) : Nat := ds.foldl (fun value d => 10 * value + d) 0

def sign : List Char → Int × List Char
  | '+' :: rest => (1, rest)
  | '-' :: rest => (-1, rest)
  | rest => (1, rest)

/-- Reads blanks, a sign and digits up to what is neither a digit nor an underscore, where only
blanks may follow. A numeral of too many digits is refused before that end is looked at. -/
def integer (source : String) : Except NumeralFault Int :=
  let (factor, body) := sign (source.toList.dropWhile isBlank)
  let numeral := body.takeWhile fun c => (digit? c).isSome || c = '_'
  match digits? numeral with
  | none => .error (.malformed source)
  | some ds =>
    if longestNumeral < ds.length then .error (.tooLong ds.length)
    else if (body.drop numeral.length).all isBlank then .ok (factor * ofDigits ds)
    else .error (.malformed source)

end BlockMaze.Text
