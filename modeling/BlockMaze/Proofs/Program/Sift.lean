import Mathlib.Data.List.Nodup
import BlockMaze.Proofs.Program.Edits

/-! Forests with blocks taken out wherever they stand, each with all it encloses. Removing one block, all
blocks of a family, or all that a mode does not take leaves such a forest. -/
namespace BlockMaze

@[simp] theorem Content.kind_withBody (body : Forest) (content : Content) :
    (content.withBody body).kind = content.kind := by
  cases content <;> rfl

def Family.takes : Family → Kind → Bool
  | .every, _ => true
  | .commands, .command _ => true
  | .repeats, .repeated => true
  | .guards, .guarded _ => true
  | _, _ => false

theorem Family.covers_eq_takes (family : Family) (content : Content) :
    family.covers content = family.takes content.kind := by
  cases family <;> cases content <;> rfl

namespace Forest

/-- The blocks to be kept, by number and kind, as far as what is around them is kept too. -/
def sift (keep : Int → Kind → Bool) : Forest → Forest
  | empty => empty
  | command id c rest =>
    if keep id (.command c) then command id c (rest.sift keep) else rest.sift keep
  | repeated id count body rest =>
    if keep id .repeated then repeated id count (body.sift keep) (rest.sift keep) else rest.sift keep
  | guarded id predicate body rest =>
    if keep id (.guarded predicate) then guarded id predicate (body.sift keep) (rest.sift keep)
    else rest.sift keep

variable {keep also : Int → Kind → Bool} {forest rest : Forest} {block : Block}

theorem sift_cons_of_keep (kept : keep block.id block.content.kind = true) : (cons block rest).sift keep =
    cons (block.withBody (block.content.body.sift keep)) (rest.sift keep) := by
  rcases block with ⟨id, c | ⟨count, body⟩ | ⟨predicate, body⟩⟩ <;> exact if_pos kept

theorem sift_cons_of_drop (dropped : keep block.id block.content.kind = false) :
    (cons block rest).sift keep = rest.sift keep := by
  rcases block with ⟨id, c | ⟨count, body⟩ | ⟨predicate, body⟩⟩ <;>
    exact if_neg (Bool.eq_false_iff.mp dropped)

theorem body_withBody_sift (block : Block) :
    (block.withBody (block.content.body.sift keep)).content.body = block.content.body.sift keep := by
  rcases block with ⟨id, c | ⟨count, body⟩ | ⟨predicate, body⟩⟩ <;> rfl

theorem keep_of_mem_sift (member : block ∈ (forest.sift keep).walk) :
    keep block.id block.content.kind = true := by
  induction forest using blockwise with
  | empty => cases member
  | cons first rest body_ih rest_ih =>
    cases kept : keep first.id first.content.kind with
    | false =>
      rw [sift_cons_of_drop kept] at member
      exact rest_ih member
    | true =>
      rw [sift_cons_of_keep kept, walk_cons, List.mem_cons, List.mem_append] at member
      rcases member with rfl | within | later
      · rw [← kept]
        exact congrArg (keep first.id) (Content.kind_withBody _ _)
      · rw [body_withBody_sift] at within
        exact body_ih within
      · exact rest_ih later

theorem sift_congr (same : ∀ block ∈ forest.walk,
    keep block.id block.content.kind = also block.id block.content.kind) :
    forest.sift keep = forest.sift also := by
  induction forest using blockwise with
  | empty => rfl
  | cons block rest body_ih rest_ih =>
    have first := same block (by simp)
    have later : rest.sift keep = rest.sift also := by
      apply rest_ih
      intro other member
      exact same other (by simp [member])
    cases kept : keep block.id block.content.kind with
    | false => rw [sift_cons_of_drop kept, sift_cons_of_drop (first.symm.trans kept), later]
    | true =>
      have inside : block.content.body.sift keep = block.content.body.sift also := by
        apply body_ih
        intro inner member
        exact same inner (by simp [member])
      rw [sift_cons_of_keep kept, sift_cons_of_keep (first.symm.trans kept), inside, later]

theorem sift_all (forest : Forest) : (forest.sift fun _ _ => true) = forest := by
  induction forest with
  | empty => rfl
  | command id c rest ih => simp [sift, ih]
  | repeated id count body rest body_ih rest_ih => simp [sift, body_ih, rest_ih]
  | guarded id predicate body rest body_ih rest_ih => simp [sift, body_ih, rest_ih]

theorem sift_eq_self (all : ∀ block ∈ forest.walk, keep block.id block.content.kind = true) :
    forest.sift keep = forest := (sift_congr all).trans forest.sift_all

theorem sift_sift (forest : Forest) : (forest.sift keep).sift also =
    forest.sift fun id kind => keep id kind && also id kind := by
  induction forest with
  | empty => rfl
  | command id c rest ih => cases kept : keep id (.command c) <;> simp [sift, kept, ih]
  | repeated id count body rest body_ih rest_ih =>
    cases kept : keep id .repeated <;> simp [sift, kept, body_ih, rest_ih]
  | guarded id predicate body rest body_ih rest_ih =>
    cases kept : keep id (.guarded predicate) <;> simp [sift, kept, body_ih, rest_ih]

def except (target : Int) : Int → Kind → Bool := fun id _ => id != target

theorem sift_except_of_absent {target : Int} (absent : target ∉ forest.ids) :
    forest.sift (except target) = forest := by
  apply sift_eq_self
  intro block member
  have other : block.id ≠ target := fun same => absent (same ▸ mem_ids_of_mem_walk member)
  simpa [except] using other

theorem without_eq_sift (distinct : forest.ids.Nodup) (member : block ∈ forest.blocks) :
    forest.without block.id = forest.sift (except block.id) := by
  induction forest using blockwise with
  | empty => cases member
  | cons first rest _ ih =>
    obtain ⟨outside, elsewhere, inside, after, apart⟩ := distinct_cons distinct
    rw [blocks_cons, List.mem_cons] at member
    rcases member with rfl | later
    · have dropped : except block.id block.id block.content.kind = false := bne_self_eq_false _
      rw [without_cons_self, sift_cons_of_drop dropped, sift_except_of_absent elsewhere]
    · have below : block.id ∈ rest.ids := mem_ids_of_mem_walk (blocks_subset_walk _ later)
      have other : first.id ≠ block.id := fun same => elsewhere (same ▸ below)
      have kept : except block.id first.id first.content.kind = true := bne_iff_ne.mpr other
      have absent : block.id ∉ first.content.body.ids := fun within => apart _ within below
      rw [without_cons_of_ne other, sift_cons_of_keep kept, ih after later,
        sift_except_of_absent absent, Block.withBody, Content.withBody_body]

theorem onBody_without_eq_sift {around : Block} {outer : List Block} (stands : Stands forest around outer)
    (distinct : forest.ids.Nodup) (encloses : around.content.isCommand = false)
    (member : block ∈ around.content.body.blocks) :
    forest.onBody around.id (·.without block.id) = forest.sift (except block.id) := by
  have within {around : Block} (member : block ∈ around.content.body.blocks) :
      block.id ∈ around.content.body.ids := mem_ids_of_mem_walk (blocks_subset_walk _ member)
  induction stands with
  | here around rest =>
    obtain ⟨outside, elsewhere, inside, after, apart⟩ := distinct_cons distinct
    have below := within member
    have other : around.id ≠ block.id := fun same => outside (same ▸ below)
    have kept : except block.id around.id around.content.kind = true := bne_iff_ne.mpr other
    rw [onBody_cons_self encloses, sift_cons_of_keep kept, without_eq_sift inside member,
      sift_except_of_absent (apart _ below)]
  | @inside first around outer rest stands ih =>
    obtain ⟨outside, elsewhere, inside, after, apart⟩ := distinct_cons distinct
    have below : block.id ∈ first.content.body.ids :=
      (body_ids_sublist stands.mem_walk).subset (within member)
    have other : first.id ≠ block.id := fun same => outside (same ▸ below)
    have kept : except block.id first.id first.content.kind = true := bne_iff_ne.mpr other
    rw [onBody_inside distinct stands.mem_ids, sift_cons_of_keep kept, ih inside encloses member,
      sift_except_of_absent (apart _ below)]
  | @later around outer rest first stands ih =>
    obtain ⟨outside, elsewhere, inside, after, apart⟩ := distinct_cons distinct
    have below : block.id ∈ rest.ids := (body_ids_sublist stands.mem_walk).subset (within member)
    have other : first.id ≠ block.id := fun same => elsewhere (same ▸ below)
    have kept : except block.id first.id first.content.kind = true := bne_iff_ne.mpr other
    have absent : block.id ∉ first.content.body.ids := fun within => apart _ within below
    rw [onBody_later distinct stands.mem_ids, sift_cons_of_keep kept, ih after encloses member,
      sift_except_of_absent absent, Block.withBody, Content.withBody_body]

end Forest

namespace Program
open Forest
variable {program : Program}

def removing (state : Nat × Program) (block : Block) : Nat × Program :=
  match state.2.remove (some block.id) with
  | (true, fewer) => (state.1 + 1, fewer)
  | (false, same) => (state.1, same)

theorem removing_program (state : Nat × Program) (block : Block) :
    (removing state block).2 = (state.2.remove (some block.id)).2 := by
  unfold removing
  split <;> simp_all

namespace Kept

theorem remove_forest (kept : program.Kept) (id : Int) :
    (program.remove (some id)).2.forest = program.forest.sift (except id) := by
  rw [Program.remove]
  cases found : program.find? (some id) with
  | none =>
    exact (sift_except_of_absent ((kept.find?_eq_none_iff id).mp found)).symm
  | some block =>
    obtain ⟨member, rfl⟩ := (kept.find?_iff id).mp found
    obtain ⟨outer, stands⟩ := exists_stands_of_mem_walk member
    simp only [kept.parent?_eq stands]
    cases outer with
    | nil => exact without_eq_sift kept.distinct stands.mem_blocks
    | cons around further =>
      have inside := stands.mem_blocks
      have encloses := isCommand_of_mem_body (blocks_subset_walk _ inside)
      exact onBody_without_eq_sift stands.parent kept.distinct encloses inside

/-- However many blocks are removed one after the other, those of other numbers stay. -/
theorem removals_forest {state : Nat × Program} (kept : state.2.Kept) (doomed : List Block) :
    (doomed.foldl removing state).2.forest =
      state.2.forest.sift fun id _ => !(doomed.map (·.id)).contains id := by
  induction doomed generalizing state with
  | nil => exact (sift_all _).symm
  | cons block doomed ih =>
    have first := removing_program state block
    have still : (removing state block).2.Kept := first ▸ kept.remove (some block.id)
    rw [List.foldl_cons, ih still, first, kept.remove_forest, sift_sift]
    apply sift_congr
    intro other member
    by_cases same : other.id = block.id <;> simp [except, same]

theorem prune_forest (kept : program.Kept) (family : Family) :
    (program.prune family).2.forest = program.forest.sift fun _ kind => !family.takes kind := by
  have begun : (0, program).2.Kept := kept
  refine (removals_forest begun _).trans ?_
  apply sift_congr
  intro block member
  -- a number stands for one block, so that it is doomed exactly if that block is of the family
  have alone : block.id ∈ (program.forest.walk.filter (family.covers ·.content)).map (·.id) ↔
      family.covers block.content = true := by
    rw [List.mem_map]
    constructor
    · rintro ⟨other, doomed, same⟩
      obtain ⟨live, covered⟩ := List.mem_filter.mp doomed
      have equal : other = block := List.inj_on_of_nodup_map kept.distinct live member same
      exact equal ▸ covered
    · intro covered
      exact ⟨block, List.mem_filter.mpr ⟨member, covered⟩, rfl⟩
  rw [← family.covers_eq_takes]
  cases covered : family.covers block.content <;> simp_all

theorem pruneForMode_forest (kept : program.Kept) (mode : Mode) :
    (program.pruneForMode mode).2.forest = program.forest.sift fun _ kind => mode.allows kind := by
  have same (one other : Kind → Bool) (equal : ∀ kind, one kind = other kind) :
      program.forest.sift (fun _ kind => one kind) = program.forest.sift fun _ kind => other kind :=
    sift_congr fun block _ => equal block.content.kind
  cases mode with
  | basic =>
    have once : (program.prune .repeats).2.Kept := kept.edit (.prune .repeats)
    refine (once.prune_forest .guards).trans ?_
    rw [kept.prune_forest, sift_sift]
    refine same (fun kind => !Family.repeats.takes kind && !Family.guards.takes kind) Mode.basic.allows ?_
    rintro (_ | _ | _) <;> rfl
  | conditions =>
    refine (kept.prune_forest .repeats).trans ?_
    refine same (fun kind => !Family.repeats.takes kind) Mode.conditions.allows ?_
    rintro (_ | _ | _) <;> rfl
  | loop =>
    refine (kept.prune_forest .guards).trans ?_
    refine same (fun kind => !Family.guards.takes kind) Mode.loop.allows ?_
    rintro (_ | _ | _) <;> rfl

end Kept

end Program

end BlockMaze
