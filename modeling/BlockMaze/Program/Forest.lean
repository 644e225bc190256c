import BlockMaze.Program.Kind

/-! Programs as ordered forests of numbered blocks. A forest is empty or a block followed by the
rest of its siblings, so that every function on forests is one recursion over both directions. -/
namespace BlockMaze

inductive Forest
  | empty
  | command (id : Int) (command : Command) (rest : Forest)
  | repeated (id : Int) (count : Int) (body rest : Forest)
  | guarded (id : Int) (predicate : Predicate) (body rest : Forest)
  deriving DecidableEq, Inhabited

/-- One block apart from its number: what it does and what it encloses. -/
inductive Content
  | command (command : Command)
  | repeated (count : Int) (body : Forest)
  | guarded (predicate : Predicate) (body : Forest)
  deriving DecidableEq

structure Block where
  id : Int
  content : Content
  deriving DecidableEq

/-- Sorts of blocks that can be cleared out of a program together. -/
inductive Family
  | commands
  | repeats
  | guards
  | every
  deriving DecidableEq

def Family.covers : Family → Content → Bool
  | .every, _ => true
  | .commands, .command _ => true
  | .repeats, .repeated _ _ => true
  | .guards, .guarded _ _ => true
  | _, _ => false

namespace Content

def body : Content → Forest
  | command _ => .empty
  | repeated _ body => body
  | guarded _ body => body

def isCommand : Content → Bool
  | command _ => true
  | _ => false

def isRepeated : Content → Bool
  | repeated _ _ => true
  | _ => false

def isGuarded : Content → Bool
  | guarded _ _ => true
  | _ => false

def kind : Content → Kind
  | command c => .command c
  | repeated _ _ => .repeated
  | guarded predicate _ => .guarded predicate

end Content

namespace Forest

def blocks : Forest → List Block
  | empty => []
  | command id c rest => ⟨id, .command c⟩ :: rest.blocks
  | repeated id count body rest => ⟨id, .repeated count body⟩ :: rest.blocks
  | guarded id predicate body rest => ⟨id, .guarded predicate body⟩ :: rest.blocks

/-- Every block with its depth, enclosing blocks first; the top level has the given depth. -/
def outlineFrom (depth : Nat) : Forest → List (Nat × Block)
  | empty => []
  | command id c rest => (depth, ⟨id, .command c⟩) :: rest.outlineFrom depth
  | repeated id count body rest =>
    (depth, ⟨id, .repeated count body⟩) ::
      (body.outlineFrom (depth + 1) ++ rest.outlineFrom depth)
  | guarded id predicate body rest =>
    (depth, ⟨id, .guarded predicate body⟩) ::
      (body.outlineFrom (depth + 1) ++ rest.outlineFrom depth)

def outline (forest : Forest) : List (Nat × Block) := forest.outlineFrom 0

/-- Every block, enclosing blocks first. -/
def walk : Forest → List Block
  | empty => []
  | command id c rest => ⟨id, .command c⟩ :: rest.walk
  | repeated id count body rest => ⟨id, .repeated count body⟩ :: (body.walk ++ rest.walk)
  | guarded id predicate body rest => ⟨id, .guarded predicate body⟩ :: (body.walk ++ rest.walk)

def ids (forest : Forest) : List Int := forest.walk.map (·.id)

/-- The block of a number, then each block around it from the inside out. -/
def path? (target : Int) : Forest → Option (List Block)
  | empty => none
  | command id c rest =>
    if id = target then some [⟨id, .command c⟩] else rest.path? target
  | repeated id count body rest =>
    if id = target then some [⟨id, .repeated count body⟩]
    else match body.path? target with
      | some inner => some (inner ++ [⟨id, .repeated count body⟩])
      | none => rest.path? target
  | guarded id predicate body rest =>
    if id = target then some [⟨id, .guarded predicate body⟩]
    else match body.path? target with
      | some inner => some (inner ++ [⟨id, .guarded predicate body⟩])
      | none => rest.path? target

def find? (target : Int) (forest : Forest) : Option Block := (forest.path? target).bind List.head?

def append : Forest → Forest → Forest
  | empty, last => last
  | command id c rest, last => command id c (rest.append last)
  | repeated id count body rest, last => repeated id count body (rest.append last)
  | guarded id predicate body rest, last => guarded id predicate body (rest.append last)

instance : Append Forest := ⟨append⟩

def single (id : Int) : Kind → Int → Forest
  | .command c, _ => command id c empty
  | .repeated, count => repeated id count empty empty
  | .guarded predicate, _ => guarded id predicate empty empty

def onBody (target : Int) (change : Forest → Forest) : Forest → Forest
  | empty => empty
  | command id c rest => command id c (rest.onBody target change)
  | repeated id count body rest =>
    if id = target then repeated id count (change body) rest
    else repeated id count (body.onBody target change) (rest.onBody target change)
  | guarded id predicate body rest =>
    if id = target then guarded id predicate (change body) rest
    else guarded id predicate (body.onBody target change) (rest.onBody target change)

def onSiblings (parent : Option Int) (change : Forest → Forest) (forest : Forest) : Forest :=
  match parent with
  | none => change forest
  | some id => forest.onBody id change

/-- Takes a block out from among its siblings, with all it encloses. -/
def without (target : Int) : Forest → Forest
  | empty => empty
  | command id c rest => if id = target then rest else command id c (rest.without target)
  | repeated id count body rest =>
    if id = target then rest else repeated id count body (rest.without target)
  | guarded id predicate body rest =>
    if id = target then rest else guarded id predicate body (rest.without target)

def setCount (target value : Int) : Forest → Forest
  | empty => empty
  | command id c rest => command id c (rest.setCount target value)
  | repeated id count body rest =>
    if id = target then repeated id value body rest
    else repeated id count (body.setCount target value) (rest.setCount target value)
  | guarded id predicate body rest =>
    guarded id predicate (body.setCount target value) (rest.setCount target value)

end Forest

def Block.ids (block : Block) : List Int := block.id :: block.content.body.ids

end BlockMaze
