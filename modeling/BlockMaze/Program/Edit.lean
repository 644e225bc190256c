import BlockMaze.Program.Forest
import BlockMaze.Report.Told

/-! The player's program, what its blocks are looked up by, and its edits. Numbers are given out once each,
in order, and a refused edit leaves no trace. Every edit keeps the index in step with the forest; a number
in it stands for its block, and what that block encloses at the time is read off the forest. Edits that are
noted in the journal come last. -/
namespace BlockMaze
open Text

/-- The numbers of the blocks there are, and for each the number of the block around it, if any; the
newest come first. -/
structure Index where
  numbers : List Int := []
  around : List (Int × Option Int) := []
  deriving DecidableEq

namespace Index

def has (index : Index) (id : Int) : Bool := index.numbers.contains id

def parent? (index : Index) (id : Int) : Option Int := (index.around.lookup id).join

/-- A number among entries, then the numbers around it from the inside out. A block is older than what
it encloses, so that its own entry is further on. -/
def chainIn : List (Int × Option Int) → Int → List Int
  | [], _ => []
  | (number, around) :: older, id =>
    if number = id then
      number :: match around with
        | none => []
        | some outer => chainIn older outer
    else chainIn older id

def chain (index : Index) (id : Int) : List Int := chainIn index.around id

def insert (index : Index) (id : Int) (parent : Option Int) : Index where
  numbers := id :: index.numbers
  around := (id, parent) :: index.around

def forget (index : Index) (gone : List Int) : Index where
  numbers := index.numbers.filter fun id => !gone.contains id
  around := index.around.filter fun entry => !gone.contains entry.1

end Index

structure Program where
  forest : Forest := .empty
  index : Index := {}
  nextId : Int := 1
  deriving DecidableEq

def nestingRefusal? (kind : Kind) (around : List Block) : Option Refusal :=
  match kind with
  | .command _ => none
  | .repeated => if around.any (·.content.isRepeated) then some .nestedRepeat else none
  | .guarded _ => if around.any (·.content.isGuarded) then some .nestedCondition else none

def modeRefusal? (kind : Kind) : Option Mode → Option Refusal
  | none => none
  | some mode =>
    if mode.allows kind then none
    else if kind = .repeated then some .repeatOutsideLoop
    else some .conditionOutsideConditions

namespace Program

def isEmpty (program : Program) : Bool := program.forest = .empty

def size (program : Program) : Nat := program.index.numbers.length

/-- Blocks are looked up by number; no number names no block. -/
def find? (program : Program) (id : Option Int) : Option Block :=
  (id.filter program.index.has).bind program.forest.find?

def contains (program : Program) (id : Option Int) : Bool := id.any program.index.has

def parentOf? (program : Program) (id : Option Int) : Option Block :=
  (id.bind program.index.parent?).bind program.forest.find?

/-- A block, then each block around it from the inside out. -/
def ancestors (program : Program) (id : Int) : List Block :=
  (program.index.chain id).filterMap program.forest.find?

def parentRefusal? (program : Program) (kind : Kind) : Option Int → Option Refusal
  | none => none
  | some id =>
    match program.find? (some id) with
    | none => some (.unknownBlock (some id))
    | some block =>
      if block.content.isCommand then some (.cannotHold id)
      else nestingRefusal? kind (program.ancestors id)

def startCount : Int := 2

def append (program : Program) (kind : Kind) (parent : Option Int) : Program where
  forest := program.forest.onSiblings parent (· ++ .single program.nextId kind startCount)
  index := program.index.insert program.nextId parent
  nextId := program.nextId + 1

def newContent (kind : Kind) : Content :=
  match kind with
  | .command c => .command c
  | .repeated => .repeated startCount .empty
  | .guarded predicate => .guarded predicate .empty

/-- The new block and the program with it. The kind is looked up first, then the mode is asked, then
the parent. -/
def insert (program : Program) (name : Datum) (parent : Option Int) (mode : Option Mode) :
    Except Refusal (Block × Program) :=
  match Kind.ofDatum name with
  | .error _ => .error (.unknownKind name)
  | .ok kind =>
    match modeRefusal? kind mode with
    | some refusal => .error refusal
    | none =>
      match program.parentRefusal? kind parent with
      | some refusal => .error refusal
      | none => .ok (⟨program.nextId, newContent kind⟩, program.append kind parent)

/-- Whether the block was there, and the program without it. -/
def remove (program : Program) (id : Option Int) : Bool × Program :=
  match program.find? id with
  | none => (false, program)
  | some block =>
    let parent := program.index.parent? block.id
    (true, { program with
      forest := program.forest.onSiblings parent (·.without block.id)
      index := program.index.forget block.ids })

/-- The count stored, if the block is a repetition. -/
def setCount (program : Program) (id : Option Int) (value : Datum) :
    Except Refusal (Option Int × Program) :=
  match program.find? id with
  | none => .error (.unknownBlock id)
  | some ⟨target, content⟩ =>
    if content.isRepeated then
      match countOfDatum value with
      | .error _ => .error .countNotNumber
      | .ok count =>
        .ok (some count, { program with forest := program.forest.setCount target count })
    else .ok (none, program)

/-- Removes every block of a family and counts the removals; a block that went with one around it is
not counted. -/
def prune (program : Program) (family : Family) : Nat × Program :=
  (program.forest.walk.filter (family.covers ·.content)).foldl
    (fun (removed, left) block =>
      match left.remove (some block.id) with
      | (true, fewer) => (removed + 1, fewer)
      | (false, same) => (removed, same))
    (0, program)

/-- Removes what a mode does not take: repetitions first, then guarded blocks. -/
def pruneForMode (program : Program) (mode : Mode) : Nat × Program :=
  let (repeats, program) := if mode = .loop then (0, program) else program.prune .repeats
  let (guards, program) := if mode = .conditions then (0, program) else program.prune .guards
  (repeats + guards, program)

/-- Drops every block; numbers go on from where they were. -/
def clear (program : Program) : Program := { program with forest := .empty, index := {} }

end Program

namespace Edits

def insert (kind : Datum) (parent : Option Int) (mode : Option Mode) :
    Act Refusal Program Block := do
  let (block, program) ← (← get).insert kind parent mode
  set program
  Act.tell [.log (.inserted block.content.kind block.id parent)]
  return block

def setCount (id : Option Int) (value : Datum) : Act Refusal Program (Option Int) := do
  let (count, program) ← (← get).setCount id value
  set program
  return count

def pruneForMode {ε : Type} (mode : Mode) : Act ε Program Nat := do
  let (removed, program) := (← get).pruneForMode mode
  set program
  if removed ≠ 0 then Act.tell [.log (.pruned removed mode)]
  return removed

end Edits

end BlockMaze
