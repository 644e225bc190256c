/-! The Mersenne twister with words of 32 bits and 624 of them, seeded from an integer of any size. -/
namespace BlockMaze

structure Twister where
  words : Array UInt32
  position : Nat
  deriving DecidableEq

namespace Twister

def width : Nat := 624

def word (words : Array UInt32) (i : Nat) : UInt32 := words.getD (i % width) 0

def scramble (w : UInt32) : UInt32 := w ^^^ (w >>> 30)

def ofWord (seed : UInt32) : Array UInt32 :=
  (List.range (width - 1)).foldl
    (fun words i => words.push (1812433253 * scramble (word words i) + UInt32.ofNat (i + 1)))
    #[seed]

/-- Replaces the word at a position between 1 and `width - 1`, or at `width`, where the first word
becomes the last and the position is 1. -/
def wrap (words : Array UInt32) (i : Nat) : Array UInt32 × Nat :=
  if width ≤ i then (words.setIfInBounds 0 (word words (width - 1)), 1) else (words, i)

/-- Mixes the key into the state, once round the longer of the two. -/
def absorb (key : Array UInt32) (words : Array UInt32) : Array UInt32 × Nat :=
  (List.range (max width key.size)).foldl
    (fun (words, i) k =>
      let j := k % key.size
      let mixed := (word words i ^^^ (scramble (word words (i - 1)) * 1664525)) +
        key.getD j 0 + UInt32.ofNat j
      wrap (words.setIfInBounds i mixed) (i + 1))
    (words, 1)

def diffuse (state : Array UInt32 × Nat) : Array UInt32 × Nat :=
  (List.range (width - 1)).foldl
    (fun (words, i) _ =>
      let mixed := (word words i ^^^ (scramble (word words (i - 1)) * 1566083941)) - UInt32.ofNat i
      wrap (words.setIfInBounds i mixed) (i + 1))
    state

def ofKey (key : Array UInt32) : Twister :=
  let (words, _) := diffuse (absorb key (ofWord 19650218))
  ⟨words.setIfInBounds 0 0x80000000, width⟩

/-- The 32-bit words of a number, least significant first; one word for zero. -/
def keyWords (n : Nat) : List UInt32 :=
  if small : n < 4294967296 then [UInt32.ofNat n]
  else UInt32.ofNat (n % 4294967296) :: keyWords (n / 4294967296)
  termination_by n
  decreasing_by exact Nat.div_lt_self (by omega) (by decide)

def ofSeed (seed : Int) : Twister := ofKey (keyWords seed.natAbs).toArray

def twist (words : Array UInt32) : Array UInt32 :=
  (List.range width).foldl
    (fun words i =>
      let y := (word words i &&& 0x80000000) ||| (word words (i + 1) &&& 0x7fffffff)
      let last : UInt32 := if y &&& 1 = 1 then 0x9908b0df else 0
      words.setIfInBounds i (word words (i + 397) ^^^ (y >>> 1) ^^^ last))
    words

def temper (y : UInt32) : UInt32 :=
  let y := y ^^^ (y >>> 11)
  let y := y ^^^ ((y <<< 7) &&& 0x9d2c5680)
  let y := y ^^^ ((y <<< 15) &&& 0xefc60000)
  y ^^^ (y >>> 18)

def next (state : Twister) : UInt32 × Twister :=
  if state.position < width then
    (temper (word state.words state.position), { state with position := state.position + 1 })
  else
    let words := twist state.words
    (temper (word words 0), ⟨words, 1⟩)

/-- A number of `count` random bits: the high bits of a word, or whole words from the least
significant on and then the high bits of one more. -/
def bits (count : Nat) (state : Twister) : Nat × Twister :=
  if count ≤ 32 then
    let (w, state) := state.next
    (w.toNat >>> (32 - count), state)
  else
    let (w, state) := state.next
    let (high, state) := state.bits (count - 32)
    (w.toNat + high <<< 32, state)
  termination_by count

/-- A number below `bound`: as many bits as the bound has, until they make up a smaller number. -/
def below (bound : Nat) : Nat → Twister → Option Nat × Twister
  | 0, state => (none, state)
  | patience + 1, state =>
    let (n, state) := state.bits (bound.log2 + 1)
    if n < bound then (some n, state) else below bound patience state

end Twister

end BlockMaze
