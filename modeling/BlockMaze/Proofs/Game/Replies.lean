import BlockMaze.Proofs.Game.Running
import BlockMaze.Proofs.Report.Law

/-! Sequences of requests, what a session replies to one, and all that it tells while they are made in a
row. A run that others may break in on is a request to start followed by requests to step, with theirs in
between. -/
namespace BlockMaze
open Text

inductive Call
  | insert (kind : Datum) (parent : Option Int)
  | remove (id : Option Int)
  | setCount (id : Option Int) (value : Datum)
  | setMode (value : Datum)
  | setUser (privileged : Bool)
  | attemptsRemaining (mode : Option Datum)
  | generate (seed : Option Int)
  | nextPuzzle
  | reset
  | start
  | step
  | runToEnd
  | runPaced (abortAfter : Option Nat)
  | abort
  deriving DecidableEq

namespace Session
variable {σ : Type} [RandomSource σ]

def after (call : Call) (session : Session σ) : Session σ :=
  match call with
  | .insert kind parent => (insert kind parent session).value.2
  | .remove id => (remove id session).value.2
  | .setCount id value => (setCount id value session).value.2
  | .setMode value => (setMode value session).value.2
  | .setUser privileged => (setUser privileged session).value.2
  | .attemptsRemaining mode => (attemptsRemaining mode session).value.2
  | .generate seed => (generate seed session).value.2
  | .nextPuzzle => (nextPuzzle session).value.2
  | .reset => (reset session).value.2
  | .start => (start session).value.2
  | .step => (step session).value.2
  | .runToEnd => (runToEnd session).value.2
  | .runPaced abortAfter => (runPaced abortAfter session).value.2
  | .abort => (abort session).value.2

def afterAll (calls : List Call) (session : Session σ) : Session σ :=
  calls.foldl (fun session call => session.after call) session

theorem afterAll_append (calls others : List Call) (session : Session σ) :
    session.afterAll (calls ++ others) = (session.afterAll calls).afterAll others :=
  List.foldl_append

end Session

inductive Reply
  | block (block : Option Block)
  | granted (granted : Bool)
  | number (number : Option Int)
  | event (event : Option Event)
  | outcome (outcome : Option Outcome)
  | paced (outcome : Option Outcome) (aborted : Option Bool)
  | done
  deriving DecidableEq

/-- Whether there is nothing in a reply but a refusal. -/
def Reply.isRefusal : Reply → Bool
  | .block inserted => inserted.isNone
  | .granted yes => !yes
  | .number found => found.isNone
  | .event told => told.isNone
  | .outcome reached => reached.isNone
  | .paced reached _ => reached.isNone
  | .done => false

/-- Whether a request has nothing to do with a run. -/
def Call.isAside : Call → Bool
  | .start | .step | .runToEnd | .runPaced _ | .abort => false
  | _ => true

def Call.isEdit : Call → Bool
  | .insert _ _ | .remove _ | .setCount _ _ => true
  | _ => false

def Call.isForRun : Call → Bool
  | .start | .runToEnd | .runPaced _ => true
  | _ => false

def Call.seed? : Call → Option (Option Int)
  | .generate seed => some seed
  | .nextPuzzle | .reset => some none
  | _ => none

namespace Session
variable {σ : Type} [RandomSource σ]

def answer : Call → Play σ Reply
  | .insert kind parent => .block <$> insert kind parent
  | .remove id => .granted <$> remove id
  | .setCount id value => .number <$> setCount id value
  | .setMode value => .granted <$> setMode value
  | .setUser privileged => (fun _ => .done) <$> setUser privileged
  | .attemptsRemaining mode => .number <$> attemptsRemaining mode
  | .generate seed => .granted <$> generate seed
  | .nextPuzzle => .granted <$> nextPuzzle
  | .reset => .granted <$> reset
  | .start => .granted <$> start
  | .step => .event <$> step
  | .runToEnd => .outcome <$> runToEnd
  | .runPaced abortAfter => (fun (outcome, aborted) => .paced outcome aborted) <$> runPaced abortAfter
  | .abort => .granted <$> abort

theorem answer_after (call : Call) (session : Session σ) :
    (answer call session).value.2 = session.after call := by
  cases call <;> simp [answer, after]

theorem after_of_seed {call : Call} {seed : Option Int} (deals : call.seed? = some seed)
    (session : Session σ) : ∃ program score,
      session.after call = { (generate seed session).value.2 with program, score } := by
  cases call with
  | generate seed =>
    cases deals
    exact ⟨_, _, rfl⟩
  | nextPuzzle =>
    cases deals
    rw [after, nextPuzzle_value]
    rcases (generate none session).value with ⟨fault | (_ | _), later⟩ <;> exact ⟨_, _, rfl⟩
  | reset =>
    cases deals
    rw [after, reset_value]
    rcases (generate none session).value with ⟨fault | (_ | _), later⟩ <;> exact ⟨_, _, rfl⟩
  | _ => cases deals

def toldAll (session : Session σ) : List Call → List Signal
  | [] => []
  | call :: calls => (answer call session).signals ++ (session.after call).toldAll calls

end Session

end BlockMaze
