import BlockMaze.Program.Listing
import BlockMaze.Run.Walk

/-! Programs handed in with loose values for counts. A count that cannot be read does no harm before
its repetition begins; there it stops the walk, and the run stays as it is. Without such counts a
manuscript is walked like its forest. -/
namespace BlockMaze
open Text

/-- A program, and the repetitions by number whose counts could not be read. -/
structure Manuscript where
  forest : Forest
  misread : List (Int × NumberFault) := []

/-- The forest up to the first repetition whose count could not be read, and why. Nothing gets
beyond that one, not even to another pass of a repetition around it. -/
def Forest.cut (misread : List (Int × NumberFault)) : Forest → Forest × Option NumberFault
  | empty => (empty, none)
  | command id c rest =>
    let (rest, fault) := rest.cut misread
    (command id c rest, fault)
  | repeated id count body rest =>
    match misread.lookup id with
    | some fault => (empty, some fault)
    | none =>
      match body.cut misread with
      | (front, some fault) => (front, some fault)
      | (_, none) =>
        let (rest, fault) := rest.cut misread
        (repeated id count body rest, fault)
  | guarded id predicate body rest =>
    match body.cut misread with
    | (front, some fault) => (front, some fault)
    | (_, none) =>
      let (rest, fault) := rest.cut misread
      (guarded id predicate body rest, fault)

theorem Forest.cut_nil (forest : Forest) : forest.cut [] = (forest, none) := by
  induction forest <;> simp_all [Forest.cut]

namespace Manuscript

/-- A count as it is handed in, and the note of it if it cannot be read. -/
def readCount (id : Int) (value : Datum) : Int × List (Int × NumberFault) :=
  match value.integer with
  | .ok count => (count, [])
  | .error fault => (0, [(id, fault)])

/-- The commands up to a limit. A walk looks one command further before it stops. -/
def unroll (limit : Int) (script : Manuscript) : Except NumberFault (List Command) :=
  match script.forest.cut script.misread with
  | (front, none) => .ok (front.unroll limit)
  | (front, some fault) =>
    if (front.within (limit.toNat + 1)).length ≤ limit.toNat then .error fault
    else .ok (front.unroll limit)

def fault? (script : Manuscript) : Stack → Option NumberFault
  | .rest (.repeated id _ _ _) :: _ => script.misread.lookup id
  | _ => none

def seek (script : Manuscript) (engine : Engine) (stack : Stack) : Except NumberFault Found :=
  match script.fault? stack with
  | some fault => .error fault
  | none =>
    match _step : engine.unwind stack with
    | .onto next => script.seek engine next
    | .found result => .ok result
  termination_by stack.weight engine.run.limits.passes.toNat
  decreasing_by exact Engine.unwind_weight ‹_›

def next (script : Manuscript) : Walk → Act NumberFault Engine (Walk × Option Event)
  | .spent => return (.spent, none)
  | .pending stack => do
    let engine ← get
    if engine.run.running then
      let (engine, walk, event) ← engine.follow (← script.seek engine stack)
      set engine
      return (walk, event)
    else return (.spent, none)

def drainWithin (script : Manuscript) : Nat → Nat → Walk → Act NumberFault Engine Nat
  | 0, count, _ => return count
  | bound + 1, count, walk => do
    let (walk, event) ← script.next walk
    if event.isSome then script.drainWithin bound (count + 1) walk else return count

def drain (script : Manuscript) (walk : Walk) : Act NumberFault Engine Nat := do
  script.drainWithin ((← get).budget + 1) 0 walk

def runToEnd (script : Manuscript) : Act NumberFault Engine (Option Outcome) := do
  modify Engine.start
  discard (script.drain (.ofForest script.forest))
  return (← get).run.outcome

theorem unroll_of_readable {script : Manuscript} (readable : script.misread = []) (limit : Int) :
    script.unroll limit = .ok (script.forest.unroll limit) := by
  simp [unroll, readable, Forest.cut_nil]

theorem seek_of_readable {script : Manuscript} (readable : script.misread = []) (engine : Engine)
    (stack : Stack) : script.seek engine stack = .ok (engine.seek stack) := by
  have harmless : script.fault? stack = none := by
    unfold fault?
    split <;> simp [readable]
  rw [seek, harmless, Engine.seek]
  generalize step : engine.unwind stack = found
  cases found with
  | onto next => exact seek_of_readable readable engine next
  | found result => rfl
  termination_by stack.weight engine.run.limits.passes.toNat
  decreasing_by exact Engine.unwind_weight ‹_›

end Manuscript

end BlockMaze
