import BlockMaze.Chance.Twister
import BlockMaze.Report.Told

/-! Sources of random numbers, and the two at hand: a twister, and a script of numbers that are given out
as they stand, whatever bound is asked for. -/
namespace BlockMaze

inductive DrawFault
  | emptyRange
  | exhausted
  | endless
  deriving DecidableEq

def DrawFault.message : DrawFault → String
  | emptyRange => "empty range for randrange()"
  | exhausted => "script exhausted"
  | endless => "no suitable number found"

/-- A source answers requests for a number below a bound, and may fail. Whoever keeps asking until
an answer suits gives up after `patience` unsuitable ones. -/
class RandomSource (σ : Type) where
  ofSeed : Int → σ
  draw : Int → σ → Except DrawFault Int × σ
  patience : σ → Nat

inductive Dice
  | twister (state : Twister)
  | script (numbers : List Int)
  deriving DecidableEq

namespace Dice

/-- Half of all numbers suit on average, so nobody waits that long for one. -/
def twisterPatience : Nat := 1 <<< 62

def draw (bound : Int) : Dice → Except DrawFault Int × Dice
  | script [] => (.error .exhausted, script [])
  | script (number :: rest) => (.ok number, script rest)
  | twister state =>
    if bound ≤ 0 then (.error .emptyRange, twister state)
    else match Twister.below bound.toNat twisterPatience state with
      | (some n, state) => (.ok n, twister state)
      | (none, state) => (.error .endless, twister state)

instance : RandomSource Dice where
  ofSeed seed := twister (.ofSeed seed)
  draw := draw
  patience
    | twister _ => twisterPatience
    | script numbers => numbers.length + 1

def left? : Dice → Option (List Int)
  | twister _ => none
  | script numbers => some numbers

end Dice

end BlockMaze
