import BlockMaze.Game.Session

/-! Edits of the program, modes and rights in a session. -/
namespace BlockMaze.Session
open Text
variable {σ : Type}

/-- Programs are edited before a puzzle is attempted. -/
def editRefusal? (session : Session σ) : Option Refusal :=
  if session.isRunning then some .editWhileRunning
  else if session.attempted then some .alreadyAttempted
  else none

def insert (kind : Datum) (parent : Option Int) : Play σ (Option Block) := do
  let session ← get
  if let some refusal := session.editRefusal? then
    refuse refusal
    return none
  match ← onProgram (Edits.insert kind parent (some session.mode)) with
  | .ok block => return some block
  | .error refusal =>
    refuse refusal
    return none

def remove (id : Option Int) : Play σ Bool := do
  let session ← get
  if let some refusal := session.editRefusal? then
    refuse refusal
    return false
  let (removed, program) := session.program.remove id
  if removed then
    set { session with program }
    return true
  else
    say (.unknownBlock id)
    return false

def setCount (id : Option Int) (value : Datum) : Play σ (Option Int) := do
  let session ← get
  if let some refusal := session.editRefusal? then
    refuse refusal
    return none
  match ← onProgram (Edits.setCount id value) with
  | .ok count => return count
  | .error refusal =>
    refuse refusal
    return none

/-- The runs left in a mode, or in the current one; none where they are not counted. -/
def attemptsRemaining (mode : Option Datum) : Play σ (Option Int) := do
  match mode.map Mode.ofDatum with
  | some (.error fault) =>
    say (.unknownMode fault.value)
    return none
  | some (.ok mode) => remainingIn (some mode)
  | none => remainingIn none
where
  remainingIn (mode : Option Mode) : Play σ (Option Int) := do
    if (← get).privileged then return none
    return some (← onProgress do (← get).remaining mode)

def setMode (value : Datum) : Play σ Bool := do
  match Mode.ofDatum value with
  | .error fault =>
    say (.unknownMode fault.value)
    return false
  | .ok mode =>
    let session ← get
    if session.isRunning then
      refuse .modeWhileRunning
      return false
    if !session.privileged then
      let current ← currentMode
      if mode ≠ current then
        refuse (.modeByProgress current)
        return false
    applyMode mode
    return true

def setUser (privileged : Bool) : Play σ Unit := do
  modify fun session => { session with privileged }
  if !privileged && !(← get).isRunning then applyMode (← currentMode)

end BlockMaze.Session
