import BlockMaze.Proofs.Program.Pruning
import BlockMaze.Proofs.Program.Views

/-! What removing a block takes away: the block and all it encloses, from the forest and from the index, and
nothing else. The numbers that went are not given again. -/
namespace BlockMaze

namespace Program
open Forest

/-- A program with no numbers but those of another and such as that one had not given yet. -/
structure Follows (program later : Program) : Prop where
  nextId : program.nextId ≤ later.nextId
  numbers : ∀ id ∈ later.index.numbers, id ∈ program.index.numbers ∨ program.nextId ≤ id

variable {program later last : Program} {block : Block} {outer : List Block}

namespace Follows

theorem refl (program : Program) : program.Follows program := ⟨Int.le_refl _, fun _ => .inl⟩

theorem trans (first : program.Follows later) (second : later.Follows last) : program.Follows last := by
  refine ⟨Int.le_trans first.nextId second.nextId, fun id member => ?_⟩
  rcases second.numbers id member with known | fresh
  · exact first.numbers id known
  · exact .inr (Int.le_trans first.nextId fresh)

theorem remove (program : Program) (id : Option Int) : program.Follows (program.remove id).2 := by
  refine ⟨Int.le_of_eq (program.remove_nextId id).symm, fun id member => .inl ?_⟩
  rw [Program.remove] at member
  split at member
  · exact member
  · exact (Index.mem_forget.mp member).1

theorem edit (program : Program) (edit : Edit) : program.Follows (program.edit edit).2 := by
  have removal (left : Program) (id : Option Int) (follows : program.Follows left) :
      program.Follows (left.remove id).2 := follows.trans (remove left id)
  have edited := program.edit_edited edit
  generalize program.edit edit = result at edited
  cases edited with
  | refused => exact refl program
  | inserted =>
    refine ⟨Int.le_of_lt (Int.lt_succ program.nextId), fun id member => ?_⟩
    exact (List.mem_cons.mp member).symm.imp_right fun new => Int.le_of_eq new.symm
  | removed id => exact remove program id
  | counted => exact ⟨Int.le_refl _, fun _ => .inl⟩
  | pruned family => exact prune_keeps program.Follows (refl program) removal family
  | suited mode => exact pruneForMode_keeps program.Follows (refl program) removal mode
  | cleared => exact ⟨Int.le_refl _, fun _ member => absurd member List.not_mem_nil⟩

theorem editAll (program : Program) (edits : List Edit) : program.Follows (program.editAll edits).2 := by
  induction edits generalizing program with
  | nil => exact refl program
  | cons first edits ih => exact (edit program first).trans (ih (program.edit first).2)

end Follows

namespace Kept

theorem parentOf?_mem {asked : Option Int} (kept : program.Kept)
    (found : program.parentOf? asked = some block) : block ∈ program.forest.walk := by
  obtain ⟨id, _, held⟩ := Option.bind_eq_some_iff.mp found
  exact ((find?_eq_some_iff kept.distinct).mp held).1

theorem find?_mem {asked : Option Int} (kept : program.Kept) (found : program.find? asked = some block) :
    block ∈ program.forest.walk := by
  cases asked with
  | none => cases found
  | some id => exact ((kept.find?_iff id).mp found).1

theorem parentOf?_of_absent (kept : program.Kept) {id : Int} (absent : id ∉ program.forest.ids) :
    program.parentOf? (some id) = none := by
  have unheld : program.index.around.lookup id = none := by
    rw [List.lookup_eq_none_iff]
    rintro ⟨number, around⟩ held
    have known : number ∈ program.index.numbers := kept.numbered ▸ List.mem_map_of_mem held
    have other : id ≠ number := fun same => absent (kept.numbers_perm.mem_iff.mp (same ▸ known))
    simpa using other
  rw [parentOf?, Option.bind_some, Index.parent?, unheld]
  rfl

/-- A number that was given and is not there any more does not come back. -/
theorem never_again (kept : program.Kept) {gone : Int} (given : gone < program.nextId)
    (absent : gone ∉ program.forest.ids) (edits : List Edit) :
    gone ∉ (program.editAll edits).1.map (·.id) ∧ gone ∉ (program.editAll edits).2.forest.ids := by
  constructor
  · rw [(editAll_numbers program edits).1, List.mem_map]
    rintro ⟨before, _, same⟩
    omega
  · rw [← (kept.editAll edits).numbers_perm.mem_iff]
    intro present
    rcases (Follows.editAll program edits).numbers gone present with known | fresh
    · exact absent (kept.numbers_perm.mem_iff.mp known)
    · omega

theorem leaves_remove (kept : program.Kept) (member : block ∈ program.forest.walk) :
    program.Leaves (program.remove (some block.id)).2 fun other => !block.ids.contains other.id := by
  apply (kept.refl_thinned.remove (some block.id)).leaves kept (kept.remove_forest block.id)
  intro other outer stands
  rw [Bool.eq_iff_iff, Bool.not_eq_true', ← Bool.not_eq_true, List.contains_iff_mem,
    ← stands.mem_outer_iff kept.distinct member, List.all_eq_true]
  constructor
  · intro outside around near
    have apart : around.id ≠ block.id := by
      intro same
      obtain rfl := List.inj_on_of_nodup_map kept.distinct (stands.mem_walk_of_mem near) member same
      exact outside near
    simpa [Block.keptBy, except] using apart
  · intro spared near
    simpa [Block.keptBy, except] using spared block near

theorem remove_some (kept : program.Kept) (member : block ∈ program.forest.walk) :
    (program.remove (some block.id)).1 = true ∧
      (program.remove (some block.id)).2.index = program.index.forget block.ids := by
  rw [Program.remove, (kept.find?_iff block.id).mpr ⟨member, rfl⟩]
  exact ⟨rfl, rfl⟩

theorem remove_eq_iff (kept : program.Kept) (id : Option Int) :
    program.remove id = (false, program) ↔ program.contains id = false := by
  constructor
  · intro unchanged
    rw [← Bool.not_eq_true, kept.contains_iff]
    rintro ⟨_, live, rfl⟩
    obtain ⟨block, member, rfl⟩ := List.mem_map.mp live
    simpa [unchanged] using (kept.remove_some member).1
  · intro absent
    have unfound : program.find? id = none := by
      cases id with
      | none => rfl
      | some id =>
        rw [kept.find?_eq_none_iff]
        intro live
        cases ((kept.contains_iff (some id)).mpr ⟨id, live, rfl⟩).symm.trans absent
    rw [Program.remove, unfound]

theorem size_remove (kept : program.Kept) (member : block ∈ program.forest.walk) :
    (program.remove (some block.id)).2.size + block.ids.length = program.size := by
  obtain ⟨outer, stands⟩ := exists_stands_of_mem_walk member
  have cut := (holders_cut stands kept.distinct).length_eq
  have entries (forest : Forest) (around : Option Int) :
      (forest.holders around).length = forest.ids.length := by
    rw [← holders_fst forest around, List.length_map]
  have enclosed (around : Option Int) : (block.holders around).length = block.ids.length := by
    rw [← block_holders_fst block around, List.length_map]
  rw [List.length_append, entries, entries, enclosed, ← kept.parent?_eq stands] at cut
  rw [(kept.remove _).size_eq, kept.size_eq, cut, Program.remove,
    (kept.find?_iff block.id).mpr ⟨member, rfl⟩]
  exact Nat.add_comm _ _

end Kept

/-- Whatever edits a program came from, removing a number that no block has changes nothing, and removing a
block takes it away with all it encloses: the rest is as it was, the index forgets their numbers and no
others, and none of these numbers is found or given again, whatever edits come later. -/
theorem remove_cuts_subtree (edits : List Edit) (id : Option Int) :
    let program := (editAll {} edits).2
    (program.remove id = (false, program) ↔ program.contains id = false) ∧
    (program.contains id = true → ∃ block ∈ program.forest.walk, id = some block.id ∧
      let (removed, later) := program.remove id
      removed = true ∧
      later.forest = program.forest.sift (fun other _ => other != block.id) ∧
      program.Leaves later (fun other => !block.ids.contains other.id) ∧
      later.index = program.index.forget block.ids ∧
      later.size + block.ids.length = program.size ∧
      ∀ further, let (inserted, last) := later.editAll further
        ∀ gone ∈ block.ids, gone ∉ inserted.map (·.id) ∧
          last.find? (some gone) = none ∧ last.parentOf? (some gone) = none ∧
          ∀ asked found, last.find? asked = some found ∨ last.parentOf? asked = some found →
            found.id ≠ gone) := by
  intro program
  have kept : program.Kept := kept_new.editAll edits
  refine ⟨kept.remove_eq_iff id, fun contained => ?_⟩
  obtain ⟨_, live, rfl⟩ := (kept.contains_iff id).mp contained
  obtain ⟨block, member, rfl⟩ := List.mem_map.mp live
  obtain ⟨removed, index⟩ := kept.remove_some member
  refine ⟨block, member, rfl, removed, kept.remove_forest block.id, kept.leaves_remove member, index,
    kept.size_remove member, ?_⟩
  intro further gone enclosed
  have left := kept.remove (some block.id)
  have last := left.editAll further
  have known : gone ∈ program.forest.ids := by
    rcases List.mem_cons.mp enclosed with rfl | inside
    · exact live
    · exact (body_ids_sublist member).subset inside
  have absent : gone ∉ (program.remove (some block.id)).2.forest.ids := by
    rw [← left.numbers_perm.mem_iff, index, Index.mem_forget]
    exact fun present => present.2 enclosed
  have given : gone < (program.remove (some block.id)).2.nextId := by
    rw [remove_nextId]
    exact kept.lt_nextId known
  obtain ⟨new, lost⟩ := left.never_again given absent further
  have elsewhere (found : Block) (present : found ∈ _) : found.id ≠ gone :=
    fun same => lost (same ▸ mem_ids_of_mem_walk present)
  exact ⟨new, (last.find?_eq_none_iff gone).mpr lost, last.parentOf?_of_absent lost,
    fun asked found answer => elsewhere found (answer.elim last.find?_mem last.parentOf?_mem)⟩

end Program

end BlockMaze
