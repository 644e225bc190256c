import Mathlib.Algebra.Order.BigOperators.Group.List
import Mathlib.Algebra.Order.Ring.Int
import Mathlib.Data.List.Induction
import Mathlib.Tactic.Ring
import BlockMaze.Program.Desk
import BlockMaze.Proofs.Program.Edits
import BlockMaze.Proofs.Program.Places

/-! What unrollings list. Programs that are edited on a desk keep their sheets, whatever is edited and however
much of it is taken out, so that an unrolling goes on listing its own program as it is; and the commands of
a program are as many as the repetitions around each command block say. -/
namespace BlockMaze

namespace Forest
variable {forest : Forest} {low : Int} {inRepeat inGuard : Bool} {outer : List Block}

/-- All commands in order, each body as often as its block says. -/
def inFull : Forest → List Command
  | empty => []
  | command _ c rest => c :: rest.inFull
  | repeated _ count body rest => (List.replicate count.toNat body.inFull).flatten ++ rest.inFull
  | guarded _ _ body rest => body.inFull ++ rest.inFull

theorem Orderly.expand_eq (orderly : forest.Orderly low inRepeat inGuard) : forest.expand = forest.inFull := by
  induction forest generalizing low inRepeat inGuard with
  | empty => rfl
  | command id c rest ih => rw [expand, inFull, ih orderly.2]
  | repeated id count body rest body_ih rest_ih =>
    obtain ⟨_, ⟨_, least, most⟩, inside, after⟩ := orderly
    rw [expand, inFull, passes, clampCount_of_bounds least most, body_ih inside, rest_ih after]
  | guarded id predicate body rest body_ih rest_ih =>
    obtain ⟨_, _, inside, after⟩ := orderly
    rw [expand, inFull, body_ih inside, rest_ih after]

theorem Orderly.unroll_eq (orderly : forest.Orderly low inRepeat inGuard) (limit : Int) :
    forest.unroll limit = forest.inFull.take (max 0 limit).toNat := by
  rw [unroll, within_eq_take, orderly.expand_eq]
  congr 1
  omega

/-- The count of the repetition around a block, and one if there is none. -/
def timesIn : List Block → Int
  | [] => 1
  | ⟨_, .repeated count _⟩ :: _ => count
  | _ :: outer => timesIn outer

/-- For each command block in order, the count of the repetition around it; `outer` is around them all. -/
def timesFrom (outer : List Block) (forest : Forest) : List Int :=
  ((forest.placesIn outer).filter (·.1.content.isCommand)).map (timesIn ·.2)

def times (forest : Forest) : List Int := forest.timesFrom []

theorem timesIn_eq_one (plain : outer.any (·.content.isRepeated) = false) : timesIn outer = 1 := by
  induction outer with
  | nil => rfl
  | cons block outer ih =>
    rw [List.any_cons, Bool.or_eq_false_iff] at plain
    rcases block with ⟨id, c | ⟨count, body⟩ | ⟨predicate, body⟩⟩
    · exact ih plain.2
    · cases plain.1
    · exact ih plain.2

theorem timesIn_le
    (bounded : ∀ block ∈ outer, ∀ count body, block.content = .repeated count body → count ≤ 20) :
    timesIn outer ≤ 20 := by
  induction outer with
  | nil => decide
  | cons block outer ih =>
    obtain ⟨first, others⟩ := List.forall_mem_cons.mp bounded
    rcases block with ⟨id, c | ⟨count, body⟩ | ⟨predicate, body⟩⟩
    · exact ih others
    · exact first count body rfl
    · exact ih others

theorem timesFrom_command (id : Int) (c : Command) (rest : Forest) :
    (command id c rest).timesFrom outer = timesIn outer :: rest.timesFrom outer := rfl

theorem timesFrom_cons (block : Block) (encloses : block.content.isCommand = false) (rest : Forest) :
    (cons block rest).timesFrom outer =
      block.content.body.timesFrom (block :: outer) ++ rest.timesFrom outer := by
  simp [timesFrom, placesIn_cons, encloses]

/-- A command counts as often as the repetition around it says, of which there is at most one. -/
theorem Orderly.sum_timesFrom (orderly : forest.Orderly low inRepeat inGuard)
    (known : outer.any (·.content.isRepeated) = inRepeat) :
    (forest.timesFrom outer).sum = timesIn outer * forest.inFull.length := by
  induction forest generalizing low inRepeat inGuard outer with
  | empty => simp [timesFrom, placesIn, inFull]
  | command id c rest ih =>
    rw [timesFrom_command, List.sum_cons, ih orderly.2 known, inFull, List.length_cons]
    push_cast
    ring
  | repeated id count body rest body_ih rest_ih =>
    obtain ⟨_, ⟨outermost, least, _⟩, inside, after⟩ := orderly
    have split : (repeated id count body rest).timesFrom outer =
        body.timesFrom (⟨id, .repeated count body⟩ :: outer) ++ rest.timesFrom outer :=
      timesFrom_cons ⟨id, .repeated count body⟩ rfl rest
    have once : timesIn outer = 1 := timesIn_eq_one (known.trans outermost)
    have passes : (count.toNat : Int) = count := Int.toNat_of_nonneg (Int.le_trans (by decide) least)
    rw [split, List.sum_append, body_ih inside rfl, rest_ih after known, once, timesIn, inFull]
    simp [passes]
  | guarded id predicate body rest body_ih rest_ih =>
    obtain ⟨_, _, inside, after⟩ := orderly
    have split : (guarded id predicate body rest).timesFrom outer =
        body.timesFrom (⟨id, .guarded predicate body⟩ :: outer) ++ rest.timesFrom outer :=
      timesFrom_cons ⟨id, .guarded predicate body⟩ rfl rest
    have deeper : List.any (⟨id, .guarded predicate body⟩ :: outer) (·.content.isRepeated) = inRepeat := known
    rw [split, List.sum_append, body_ih inside deeper, rest_ih after known, timesIn, inFull,
      List.length_append]
    · push_cast
      ring
    · exact fun _ _ _ same => nomatch same

theorem Orderly.length_inFull (orderly : forest.Orderly low false inGuard) :
    (forest.inFull.length : Int) = forest.times.sum := by
  rw [times, orderly.sum_timesFrom rfl, timesIn, Int.one_mul]

theorem length_times (forest : Forest) :
    forest.times.length = forest.walk.countP (·.content.isCommand) := by
  rw [times, timesFrom, List.length_map, ← List.countP_eq_length_filter, ← places, ← places_fst,
    List.countP_map]
  rfl

theorem Orderly.le_of_mem_times (orderly : forest.Orderly low inRepeat inGuard) :
    ∀ count ∈ forest.times, count ≤ 20 := by
  intro count member
  obtain ⟨⟨block, outer⟩, placed, rfl⟩ := List.mem_map.mp member
  have stands := stands_of_mem_places (List.mem_of_mem_filter placed)
  refine timesIn_le fun around inside count body content => ?_
  obtain ⟨_, _, fits, _⟩ := orderly.of_mem_walk (stands.mem_walk_of_mem (List.mem_cons_of_mem _ inside))
  rw [content] at fits
  exact fits.2.2

theorem Orderly.length_inFull_le (orderly : forest.Orderly low false inGuard) :
    forest.inFull.length ≤ 20 * forest.walk.countP (·.content.isCommand) := by
  have bound := List.sum_le_card_nsmul forest.times 20 orderly.le_of_mem_times
  rw [← orderly.length_inFull, length_times, nsmul_eq_mul] at bound
  omega

end Forest

def Program.after (edits : List Edit) : Program := (({} : Program).editAll edits).2

namespace Desk

inductive Step
  | add
  | edit (place : Nat) (edit : Edit)

def take (desk : Desk) : Step → Desk
  | .add => desk.add
  | .edit place edit => desk.revise place fun program => (program.edit edit).2

def takeAll (desk : Desk) (steps : List Step) : Desk := steps.foldl take desk

def record (histories : List (List Edit)) : Step → List (List Edit)
  | .add => histories ++ [[]]
  | .edit place edit =>
    match histories[place]? with
    | none => histories
    | some edits => histories.set place (edits ++ [edit])

def histories (steps : List Step) : List (List Edit) := steps.foldl record []

def folderOf (place : Nat) (edits : List Edit) : Folder :=
  let program := Program.after edits
  ⟨place, program.index, program.nextId⟩

/-- Each program after its own edits, on the sheet that it began with. -/
def ofHistories (histories : List (List Edit)) : Desk where
  sheets := histories.map fun edits => (Program.after edits).forest
  folders := histories.mapIdx folderOf

section ofHistories
variable {histories : List (List Edit)} {place : Nat} {edits : List Edit}

theorem folders_ofHistories :
    (ofHistories histories).folders[place]? = histories[place]?.map (folderOf place) :=
  List.getElem?_mapIdx

theorem read_ofHistories (known : histories[place]? = some edits) :
    (ofHistories histories).read place = (Program.after edits).forest := by
  rw [read, ofHistories, List.getD_eq_getElem?_getD, List.getElem?_map, known]
  rfl

theorem program?_ofHistories (known : histories[place]? = some edits) :
    (ofHistories histories).program? place = some (Program.after edits) := by
  rw [program?, folders_ofHistories, known, Option.map_some, Option.map_some]
  simp only [folderOf, read_ofHistories known]

theorem take_ofHistories (histories : List (List Edit)) (step : Step) :
    (ofHistories histories).take step = ofHistories (record histories step) := by
  cases step with
  | add =>
    rw [take, add, record, ofHistories, ofHistories, List.map_append, List.mapIdx_concat, List.length_map]
    rfl
  | edit place edit =>
    rw [take, revise, record, folders_ofHistories]
    cases known : histories[place]? with
    | none => rfl
    | some edits =>
      simp only [Option.map_some, folderOf, read_ofHistories known]
      rw [ofHistories, ofHistories, List.map_set, List.mapIdx_set, folderOf, Program.after, Program.after,
        Program.editAll_concat]

end ofHistories

theorem takeAll_eq (steps : List Step) : ({} : Desk).takeAll steps = ofHistories (histories steps) := by
  induction steps using List.reverseRecOn with
  | nil => rfl
  | append_singleton steps step ih =>
    rw [takeAll, List.foldl_concat, ← takeAll, ih, take_ofHistories, histories, histories, List.foldl_concat]

theorem length_le_record (histories : List (List Edit)) (step : Step) :
    histories.length ≤ (record histories step).length := by
  cases step with
  | add => simp [record]
  | edit place edit =>
    rw [record]
    split
    · exact Nat.le_refl _
    · rw [List.length_set]

theorem length_le_histories (steps later : List Step) :
    (histories steps).length ≤ (histories (steps ++ later)).length := by
  rw [histories, histories, List.foldl_append]
  exact List.foldlRecOn later record (Nat.le_refl _) fun more longer step _ =>
    Nat.le_trans longer (length_le_record more step)

/-- An unrolling lists as many commands as it may of its program as the program then is, whatever edits have
been made since; and in full these are as many as the repetitions around the command blocks say. -/
theorem list_unrolling (steps later : List Step) (place : Nat) (limit : Int) (unrolling : Unrolling)
    (kept : (({} : Desk).takeAll steps).unrolling? place limit = some unrolling) :
    let desk := ({} : Desk).takeAll (steps ++ later)
    ∃ edits, (histories (steps ++ later))[place]? = some edits ∧
      desk.program? place = some (Program.after edits) ∧
      let forest := (Program.after edits).forest
      desk.list unrolling = forest.inFull.take (max 0 limit).toNat ∧
      (forest.inFull.length : Int) = forest.times.sum ∧
      forest.inFull.length ≤ 20 * forest.walk.countP (·.content.isCommand) := by
  intro desk
  rw [takeAll_eq, unrolling?, folders_ofHistories, Option.map_map, Option.map_eq_some_iff] at kept
  obtain ⟨begun, earlier, rfl⟩ := kept
  obtain ⟨known, _⟩ := List.getElem?_eq_some_iff.mp earlier
  obtain ⟨edits, had⟩ : ∃ edits, (histories (steps ++ later))[place]? = some edits :=
    ⟨_, List.getElem?_eq_getElem (Nat.lt_of_lt_of_le known (length_le_histories steps later))⟩
  have same : desk = ofHistories (histories (steps ++ later)) := takeAll_eq _
  have orderly := (Program.kept_new.editAll edits).orderly
  refine ⟨edits, had, ?_, ?_, orderly.length_inFull, orderly.length_inFull_le⟩
  · rw [same, program?_ofHistories had]
  · have written : desk.read place = (Program.after edits).forest := by rw [same, read_ofHistories had]
    exact (congrArg (Forest.unroll limit) written).trans (orderly.unroll_eq limit)

theorem list_unrolling_cleared :
    let steps : List Step := [.add, .edit 0 (.insert (.text "repeat") none none),
      .edit 0 (.insert (.text "forward") (some 1) none)]
    let later : List Step := [.edit 0 .clear, .add, .edit 1 (.insert (.text "forward") none none),
      .edit 0 (.insert (.text "turn_left") none none)]
    let desk := ({} : Desk).takeAll (steps ++ later)
    (({} : Desk).takeAll steps).unrolling? 0 3 = some ⟨0, 3⟩ ∧
      (({} : Desk).takeAll steps).list ⟨0, 3⟩ = [.forward, .forward] ∧ desk.list ⟨0, 3⟩ = [.turn .left] ∧
      ∃ edits, desk.program? 0 = some (Program.after edits) ∧
        desk.list ⟨0, 3⟩ = (Program.after edits).forest.inFull.take 3 := by
  intro steps later desk
  have kept : (({} : Desk).takeAll steps).unrolling? 0 3 = some ⟨0, 3⟩ := by rfl
  obtain ⟨edits, _, now, listed, _⟩ := list_unrolling steps later 0 3 ⟨0, 3⟩ kept
  exact ⟨kept, by rfl, by rfl, edits, now, listed⟩

end Desk

end BlockMaze
