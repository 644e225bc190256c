import BlockMaze.Program.Forest

/-! Programs listed: as lines of text, one block a line and indented by depth, and as the commands they
stand for. Of these a repetition counts as often as it says; the body of a guarded block counts once,
since only the board decides how often it runs. -/
namespace BlockMaze

def Content.label : Content → String
  | command c => c.label
  | repeated count _ => "Repeat " ++ toString count ++ " times"
  | guarded predicate _ => predicate.label

def indentation (unit : String) (depth : Nat) : String := String.join (List.replicate depth unit)

namespace Forest

def describe (unit : String) (forest : Forest) : List String :=
  forest.outline.map fun (depth, block) =>
    indentation unit depth ++ "[" ++ toString block.id ++ "] " ++ block.content.label

def expand : Forest → List Command
  | empty => []
  | command _ c rest => c :: rest.expand
  | repeated _ count body rest => (List.replicate (passes count) body.expand).flatten ++ rest.expand
  | guarded _ _ body rest => body.expand ++ rest.expand

/-- The first `budget` commands, found without unrolling the rest. -/
def within : Nat → Forest → List Command
  | _, empty => []
  | 0, command _ _ _ => []
  | budget + 1, command _ c rest => c :: rest.within budget
  | budget, repeated _ count body rest =>
    let front := (List.replicate (passes count) (body.within budget)).flatten.take budget
    front ++ rest.within (budget - front.length)
  | budget, guarded _ _ body rest =>
    let front := body.within budget
    front ++ rest.within (budget - front.length)

private theorem take_flatten_replicate {α : Type} (budget : Nat) (part : List α) (count : Nat) :
    (List.replicate count (part.take budget)).flatten.take budget =
      (List.replicate count part).flatten.take budget := by
  induction count with
  | zero => rfl
  | succ count ih =>
    simp only [List.replicate_succ, List.flatten_cons, List.take_append, List.take_take,
      Nat.min_self, List.length_take]
    congr 1
    by_cases short : part.length ≤ budget
    · rw [Nat.min_eq_right short]
      have shorter := congrArg (List.take (budget - part.length)) ih
      simpa only [List.take_take, Nat.min_eq_left (Nat.sub_le _ _)] using shorter
    · have none_left : budget - min budget part.length = 0 ∧ budget - part.length = 0 := by omega
      rw [none_left.1, none_left.2, List.take_zero, List.take_zero]

theorem within_eq_take (budget : Nat) (forest : Forest) :
    forest.within budget = forest.expand.take budget := by
  induction forest generalizing budget with
  | empty => cases budget <;> rfl
  | command id c rest ih =>
    cases budget with
    | zero => rfl
    | succ budget => simp only [within, expand, List.take_succ_cons, ih]
  | repeated id count body rest bodyIH restIH =>
    simp only [within, expand, List.take_append, bodyIH, restIH, take_flatten_replicate,
      List.length_take]
    congr 2
    omega
  | guarded id predicate body rest bodyIH restIH =>
    simp only [within, expand, List.take_append, bodyIH, restIH, List.length_take]
    congr 2
    omega

/-- The commands up to a limit; none for a negative limit. -/
def unroll (limit : Int) (forest : Forest) : List Command := forest.within limit.toNat

/-- The limit when none is asked for. -/
def unrollLimit : Int := 500

end Forest

end BlockMaze
