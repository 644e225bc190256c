import Mathlib.Data.List.Induction
import BlockMaze.Proofs.Program.Suited
import BlockMaze.Proofs.Program.Thinned

/-! What clearing out a family or suiting a mode leaves and how much it counts. Blocks are removed one by one
from a list made beforehand; one that went with a block around it is not there any more when its turn comes,
and is not counted. -/
namespace BlockMaze

theorem Family.covers_repeats (content : Content) : repeats.covers content = content.isRepeated := by
  cases content <;> rfl

theorem Family.covers_guards (content : Content) : guards.covers content = content.isGuarded := by
  cases content <;> rfl

namespace Program
open Forest

def enclosing (program : Program) (block : Block) : List Block := (program.ancestors block.id).tail

variable {program later : Program} {family : Family} {block : Block} {outer : List Block}

theorem removing_fst {state : Nat × Program} (kept : state.2.Kept) (block : Block) :
    (removing state block).1 = state.1 + if block.id ∈ state.2.forest.ids then 1 else 0 := by
  rw [removing, Program.remove]
  cases found : state.2.find? (some block.id) with
  | none =>
    rw [if_neg ((kept.find?_eq_none_iff _).mp found)]
    rfl
  | some other =>
    obtain ⟨member, same⟩ := (kept.find?_iff _).mp found
    rw [if_pos (same ▸ mem_ids_of_mem_walk member)]

/-- The count and the program after the turns of the blocks in some places. -/
def cleared (program : Program) (family : Family) (done : List (Block × List Block)) : Nat × Program :=
  ((done.map Prod.fst).filter (family.covers ·.content)).foldl removing (0, program)

theorem prune_eq_cleared (program : Program) (family : Family) :
    program.prune family = program.cleared family program.forest.places := by
  rw [cleared, places_fst]
  rfl

theorem cleared_concat (done : List (Block × List Block)) :
    program.cleared family (done ++ [(block, outer)]) =
      if family.covers block.content then removing (program.cleared family done) block
      else program.cleared family done := by
  rw [cleared, List.map_append, List.filter_append, List.foldl_append, ← cleared]
  cases covered : family.covers block.content <;> simp [covered]

namespace Kept
variable {done after : List (Block × List Block)}

theorem enclosing_eq (kept : program.Kept) (stands : program.forest.Stands block outer) :
    program.enclosing block = outer := by
  rw [enclosing, kept.ancestors_eq stands, List.tail_cons]

theorem cleared (kept : program.Kept) (family : Family) (done : List (Block × List Block)) :
    (program.cleared family done).2.Kept := by
  induction done using List.reverseRecOn with
  | nil => exact kept
  | append_singleton done place ih =>
    rw [cleared_concat]
    split
    · rw [removing_program]
      exact ih.remove (some place.1.id)
    · exact ih

/-- When the turn of a block comes, it is there unless one around it was doomed as well: whatever is around
it had its turn before. -/
theorem live_iff (kept : program.Kept) (split : program.forest.places = done ++ (block, outer) :: after) :
    block.id ∈ (program.cleared family done).2.forest.ids ↔
      outer.all (!family.covers ·.content) = true := by
  have stands : program.forest.Stands block outer := stands_of_mem_places (by simp [split])
  have begun : (0, program).2.Kept := kept
  rw [Program.cleared, begun.removals_forest, mem_ids_sift_iff stands kept.distinct, List.all_eq_true,
    List.all_eq_true]
  have spared (around : Block) : around.keptBy (fun id _ =>
      !(((done.map Prod.fst).filter (family.covers ·.content)).map (·.id)).contains id) = true ↔
      ∀ place ∈ done, family.covers place.1.content = true → place.1.id ≠ around.id := by
    simp [Block.keptBy]
  constructor
  · intro live around member
    obtain ⟨further, before⟩ := mem_before_of_mem_outer split member
    have passed := (spared around).mp (live around (List.mem_cons_of_mem _ member)) _ before
    simpa using fun covered => passed covered rfl
  · intro uncovered around member
    rw [spared]
    intro place before covered same
    rcases List.mem_cons.mp member with rfl | outward
    · -- no number comes twice, so that no place before this one has its number
      have distinct := kept.distinct
      rw [ids, ← places_fst, split] at distinct
      simp only [List.map_append, List.map_cons, List.nodup_append] at distinct
      exact distinct.2.2 _ (List.mem_map_of_mem (List.mem_map_of_mem before)) _ List.mem_cons_self same
    · have placed : place ∈ program.forest.places := by simp [split, before]
      have present := (stands_of_mem_places placed).mem_walk
      have known := stands.mem_walk_of_mem (List.mem_cons_of_mem _ outward)
      obtain rfl := List.inj_on_of_nodup_map kept.distinct present known same
      simpa [covered] using uncovered _ outward

theorem cleared_fst (kept : program.Kept) (split : program.forest.places = done ++ after) :
    (program.cleared family done).1 =
      done.countP fun place => family.covers place.1.content && place.2.all (!family.covers ·.content) := by
  induction done using List.reverseRecOn generalizing after with
  | nil => rfl
  | append_singleton done place ih =>
    obtain ⟨block, outer⟩ := place
    rw [List.append_assoc, List.singleton_append] at split
    rw [cleared_concat, List.countP_append, List.countP_singleton, ← ih split]
    cases covered : family.covers block.content with
    | false => rfl
    | true =>
      rw [if_pos rfl, removing_fst (kept.cleared family done), Bool.true_and]
      simp only [kept.live_iff split]

theorem prune_fst (kept : program.Kept) (family : Family) : (program.prune family).1 =
    program.forest.walk.countP fun block =>
      family.covers block.content && (program.enclosing block).all (!family.covers ·.content) := by
  rw [prune_eq_cleared, kept.cleared_fst (List.append_nil _).symm, ← places_fst, List.countP_map]
  apply List.countP_congr
  intro place member
  rw [Function.comp, kept.enclosing_eq (stands_of_mem_places member)]

theorem uncovered_around (kept : program.Kept) (flat : family ≠ .every)
    (stands : program.forest.Stands block outer) (covered : family.covers block.content = true)
    {around : Block} (member : around ∈ outer) : family.covers around.content = false := by
  have inside := stands.mem_body_walk member
  have outward := stands.mem_walk_of_mem (List.mem_cons_of_mem _ member)
  have encloses := isCommand_of_mem_body inside
  have repeats := kept.coherent.repeats around outward
  have guards := kept.coherent.guards around outward
  cases family with
  | commands => cases content : around.content <;> simp_all [Family.covers, Content.isCommand]
  | repeats =>
    cases sort : around.content with
    | repeated count body =>
      have single := repeats (by rw [sort]; rfl) block inside
      cases content : block.content <;> simp_all [Family.covers, Content.isRepeated]
    | _ => rfl
  | guards =>
    cases sort : around.content with
    | guarded predicate body =>
      have single := guards (by rw [sort]; rfl) block inside
      cases content : block.content <;> simp_all [Family.covers, Content.isGuarded]
    | _ => rfl
  | every => exact absurd rfl flat

theorem prune_fst_of_flat (kept : program.Kept) (flat : family ≠ .every) :
    (program.prune family).1 = program.forest.walk.countP (family.covers ·.content) := by
  rw [kept.prune_fst]
  apply List.countP_congr
  intro block member
  obtain ⟨outer, stands⟩ := exists_stands_of_mem_walk member
  rw [kept.enclosing_eq stands, Bool.and_eq_true, and_iff_left_iff_imp]
  intro covered
  simpa using fun around near => kept.uncovered_around flat stands covered near

theorem leaves_prune (kept : program.Kept) (family : Family) : program.Leaves (program.prune family).2
    fun block => (program.ancestors block.id).all (!family.covers ·.content) := by
  apply (kept.refl_thinned.prune family).leaves kept (kept.prune_forest family)
  intro block outer stands
  simp [kept.ancestors_eq stands, Block.keptBy, family.covers_eq_takes]

theorem leaves_pruneForMode (kept : program.Kept) (mode : Mode) :
    program.Leaves (program.pruneForMode mode).2
      fun block => (program.ancestors block.id).all (mode.allows ·.content.kind) := by
  apply (kept.refl_thinned.pruneForMode mode).leaves kept (kept.pruneForMode_forest mode)
  intro block outer stands
  simp [kept.ancestors_eq stands, Block.keptBy]

theorem prune_again (kept : program.Kept) (family : Family) :
    (program.prune family).2.prune family = (0, (program.prune family).2) := by
  apply prune_of_uncovered
  intro block member
  rw [kept.prune_forest] at member
  simpa using keep_of_mem_sift member

theorem prune_eq_self (kept : program.Kept) (flat : family ≠ .every)
    (none_removed : (program.prune family).1 = 0) : program.prune family = (0, program) := by
  rw [kept.prune_fst_of_flat flat, List.countP_eq_zero] at none_removed
  apply prune_of_uncovered
  intro block member
  rw [← family.covers_eq_takes]
  exact Bool.eq_false_iff.mpr (none_removed block member)

end Kept

/-- Whatever edits a program came from, clearing out a family leaves the forest without the blocks of the
family and all they enclose, and everything else as it was. The count is that of the blocks that stood in no
other of the family, which is all of them unless the family is that of every block; and clearing out again
changes nothing. -/
theorem prune_filters (edits : List Edit) (family : Family) :
    let program := (editAll {} edits).2
    let (removed, later) := program.prune family
    later.forest = program.forest.sift (fun _ kind => !family.takes kind) ∧
    program.Leaves later (fun block => (program.ancestors block.id).all (!family.covers ·.content)) ∧
    removed = program.forest.walk.countP (fun block =>
      family.covers block.content && (program.enclosing block).all (!family.covers ·.content)) ∧
    (family ≠ .every → removed = program.forest.walk.countP (family.covers ·.content)) ∧
    later.prune family = (0, later) := by
  intro program
  have kept : program.Kept := kept_new.editAll edits
  exact ⟨kept.prune_forest family, kept.leaves_prune family, kept.prune_fst family,
    kept.prune_fst_of_flat, kept.prune_again family⟩

/-- Removes what a mode does not take, guarded blocks first. -/
def pruneGuardsFirst (program : Program) (mode : Mode) : Nat × Program :=
  let (guards, program) := if mode = .conditions then (0, program) else program.prune .guards
  let (repeats, program) := if mode = .loop then (0, program) else program.prune .repeats
  (repeats + guards, program)

namespace Kept

theorem pruneGuardsFirst_snd (kept : program.Kept) (mode : Mode) :
    (program.pruneGuardsFirst mode).2 = (program.pruneForMode mode).2 := by
  cases mode with
  | basic =>
    have guards := kept.refl_thinned.prune .guards
    have repeats := kept.refl_thinned.prune .repeats
    apply (guards.prune .repeats).eq_of_forest kept (repeats.prune .guards)
    rw [guards.kept.prune_forest, kept.prune_forest, repeats.kept.prune_forest, kept.prune_forest, sift_sift,
      sift_sift]
    exact sift_congr fun block _ => Bool.and_comm _ _
  | conditions => rfl
  | loop => rfl

theorem prune_repeats_fst (kept : program.Kept) :
    (program.prune .repeats).1 = program.forest.walk.countP (·.content.isRepeated) := by
  refine (kept.prune_fst_of_flat (by decide)).trans (List.countP_congr fun block _ => ?_)
  rw [Family.covers_repeats]

theorem prune_guards_fst (kept : program.Kept) :
    (program.prune .guards).1 = program.forest.walk.countP (·.content.isGuarded) := by
  refine (kept.prune_fst_of_flat (by decide)).trans (List.countP_congr fun block _ => ?_)
  rw [Family.covers_guards]

theorem contains_pruneForMode (kept : program.Kept) (mode : Mode)
    (stands : program.forest.Stands block outer) :
    (program.pruneForMode mode).2.contains (some block.id) =
      (block :: outer).all (mode.allows ·.content.kind) := by
  rw [(kept.leaves_pruneForMode mode).contains_eq kept.distinct stands.mem_walk, kept.ancestors_eq stands]

theorem pruneForMode_fst (kept : program.Kept) (mode : Mode) : (program.pruneForMode mode).1 =
    (if mode = .loop then 0 else program.forest.walk.countP (·.content.isRepeated)) +
    (if mode = .conditions then 0 else program.forest.walk.countP fun block =>
      block.content.isGuarded && (program.enclosing block).all fun around =>
        !around.content.isRepeated || (program.pruneForMode mode).2.contains (some around.id)) := by
  cases mode with
  | basic =>
    have once := (kept.refl_thinned.prune .repeats).kept
    have sort_kept (block : Block) : block.bare.content.isGuarded = block.content.isGuarded :=
      Content.isGuarded_withBody _ _
    have counted := once.prune_guards_fst.trans ((kept.leaves_prune .repeats).countP_eq _ sort_kept)
    refine congrArg₂ (· + ·) kept.prune_repeats_fst (counted.trans ?_)
    refine List.countP_congr fun block member => ?_
    obtain ⟨outer, stands⟩ := exists_stands_of_mem_walk member
    rw [kept.ancestors_eq stands, kept.enclosing_eq stands]
    have gone : (outer.all fun around => !around.content.isRepeated ||
        (program.pruneForMode .basic).2.contains (some around.id)) = outer.all (!·.content.isRepeated) := by
      rw [Bool.eq_iff_iff, List.all_eq_true, List.all_eq_true]
      refine forall₂_congr fun around near => ?_
      obtain ⟨further, outward, _⟩ := stands.exists_further near
      rw [kept.contains_pruneForMode .basic outward, List.all_cons]
      cases around.content <;> simp [Content.isRepeated, Content.kind, Mode.allows]
    rw [gone]
    cases content : block.content <;> simp [content, Family.covers_repeats, Content.isGuarded, Content.isRepeated]
  | conditions => exact kept.prune_repeats_fst
  | loop =>
    refine congrArg (0 + ·) (kept.prune_guards_fst.trans (List.countP_congr fun block member => ?_))
    obtain ⟨outer, stands⟩ := exists_stands_of_mem_walk member
    rw [kept.enclosing_eq stands, Bool.and_eq_true, iff_self_and, List.all_eq_true]
    intro sort around near
    -- what is around this block goes with nothing, as no guarded block is around it
    obtain ⟨further, outward, fewer⟩ := stands.exists_further near
    rw [kept.contains_pruneForMode .loop outward, Bool.or_eq_true, List.all_eq_true]
    refine .inr fun outer_block member => ?_
    have flat : Family.guards ≠ .every := by decide
    have outside := kept.uncovered_around flat stands (by rwa [Family.covers_guards])
      (List.cons_subset.mpr ⟨near, fewer⟩ member)
    cases content : outer_block.content <;> simp_all [Family.covers, Mode.allows, Content.kind]

end Kept

theorem Kept.pruneForMode_fst_eq_zero_iff (kept : program.Kept) (mode : Mode) :
    (program.pruneForMode mode).1 = 0 ↔ (program.pruneForMode mode).2 = program := by
  constructor
  · intro zero
    have repeats : (program.prune .repeats).1 = 0 → program.prune .repeats = (0, program) :=
      kept.prune_eq_self (by decide)
    have guards : (program.prune .guards).1 = 0 → program.prune .guards = (0, program) :=
      kept.prune_eq_self (by decide)
    cases mode with
    | basic =>
      have both : program.pruneForMode .basic = ((program.prune .repeats).1 +
          ((program.prune .repeats).2.prune .guards).1, ((program.prune .repeats).2.prune .guards).2) := rfl
      rw [both, Nat.add_eq_zero_iff] at zero
      rw [both, repeats zero.1]
      rw [repeats zero.1] at zero
      exact congrArg Prod.snd (guards zero.2)
    | conditions => exact congrArg Prod.snd (repeats zero)
    | loop => exact congrArg Prod.snd (guards ((Nat.zero_add _).symm.trans zero))
  · intro same
    have suits := kept.suits_pruneForMode mode
    rw [same] at suits
    rw [suits.pruneForMode_eq]

/-- Whatever edits a program came from, a mode leaves the blocks that are of kinds it takes and stand in none
of a kind it does not take, as they were and the same whichever sort is removed first. The count is that of
the repetitions, unless the mode takes them, and of the guarded blocks, unless it takes these, that stood in
no repetition that went as well; it is zero if and only if nothing changed. -/
theorem pruneForMode_leaves_allowed (edits : List Edit) (mode : Mode) :
    let program := (editAll {} edits).2
    let (removed, later) := program.pruneForMode mode
    later.forest = program.forest.sift (fun _ kind => mode.allows kind) ∧
    program.Leaves later (fun block => (program.ancestors block.id).all (mode.allows ·.content.kind)) ∧
    (program.pruneGuardsFirst mode).2 = later ∧
    removed = (if mode = .loop then 0 else program.forest.walk.countP (·.content.isRepeated)) +
      (if mode = .conditions then 0 else program.forest.walk.countP fun block =>
        block.content.isGuarded && (program.enclosing block).all fun around =>
          !around.content.isRepeated || later.contains (some around.id)) ∧
    (removed = 0 ↔ later = program) ∧
    ∀ block ∈ later.forest.walk, mode.allows block.content.kind = true := by
  intro program
  have kept : program.Kept := kept_new.editAll edits
  have suits := kept.suits_pruneForMode mode
  exact ⟨kept.pruneForMode_forest mode, kept.leaves_pruneForMode mode, kept.pruneGuardsFirst_snd mode,
    kept.pruneForMode_fst mode, kept.pruneForMode_fst_eq_zero_iff mode,
    fun block member => suits.allowed _ (List.mem_map_of_mem member)⟩

-- A guarded block in a repetition goes with it, and is counted only if it is removed before.
example : let mixed := (editAll {} [.insert (.text "repeat") none none,
      .insert (.text "until_goal") (some 1) none, .insert (.text "forward") none none]).2
    (mixed.pruneForMode .basic).1 = 1 ∧ (mixed.pruneGuardsFirst .basic).1 = 2 := by
  decide

end Program

end BlockMaze
