import Mathlib.Data.List.Nodup
import BlockMaze.Proofs.Program.Forest

/-! Where the blocks of a forest stand. As long as no number occurs twice, searches by number find each
block where it stands. -/
namespace BlockMaze.Forest

/-- A block stands in a forest with these blocks around it, from the inside out. -/
inductive Stands : Forest → Block → List Block → Prop
  | here (block : Block) (rest : Forest) : Stands (.cons block rest) block []
  | inside {block inner : Block} {outer : List Block} (rest : Forest)
      (within : Stands block.content.body inner outer) :
      Stands (.cons block rest) inner (outer ++ [block])
  | later {other : Block} {outer : List Block} {rest : Forest} (block : Block)
      (after : Stands rest other outer) : Stands (.cons block rest) other outer

variable {forest : Forest} {block : Block} {outer : List Block}

theorem exists_stands_of_mem_walk (member : block ∈ forest.walk) : ∃ outer, Stands forest block outer := by
  induction forest using blockwise with
  | empty => cases member
  | cons first rest body_ih rest_ih =>
    rw [walk_cons, List.mem_cons, List.mem_append] at member
    rcases member with rfl | within | after
    · exact ⟨[], .here block rest⟩
    · obtain ⟨outer, stands⟩ := body_ih within
      exact ⟨outer ++ [first], .inside rest stands⟩
    · obtain ⟨outer, stands⟩ := rest_ih after
      exact ⟨outer, .later first stands⟩

theorem stands_of_mem_blocks (member : block ∈ forest.blocks) : Stands forest block [] := by
  induction forest using blockwise with
  | empty => cases member
  | cons first rest _ ih =>
    rw [blocks_cons, List.mem_cons] at member
    rcases member with rfl | after
    · exact .here block rest
    · exact .later first (ih after)

namespace Stands

theorem within {inner : Block} {deeper : List Block} (stands : Stands forest block outer)
    (inside : Stands block.content.body inner deeper) : Stands forest inner (deeper ++ block :: outer) := by
  induction stands with
  | here block rest => exact .inside rest inside
  | inside rest _ ih =>
    rw [← List.cons_append, ← List.append_assoc]
    exact .inside rest (ih inside)
  | later first _ ih => exact .later first (ih inside)

theorem child {inner : Block} (stands : Stands forest block outer)
    (member : inner ∈ block.content.body.blocks) : Stands forest inner (block :: outer) :=
  stands.within (stands_of_mem_blocks member)

theorem mem_walk (stands : Stands forest block outer) : block ∈ forest.walk := by
  induction stands with
  | here block rest => simp
  | inside rest _ ih => simp [ih]
  | later block _ ih => simp [ih]

theorem mem_ids (stands : Stands forest block outer) : block.id ∈ forest.ids :=
  mem_ids_of_mem_walk stands.mem_walk

theorem encloses {around : Block} (stands : Stands around.content.body block outer) :
    around.content.isCommand = false := isCommand_of_mem_body stands.mem_walk

theorem parent {around : Block} (stands : Stands forest block (around :: outer)) :
    Stands forest around outer := by
  generalize full : around :: outer = all at stands
  induction stands generalizing outer with
  | here block rest => cases full
  | @inside first inner within_outer rest within ih =>
    cases within_outer with
    | nil =>
      cases full
      exact .here around rest
    | cons innermost further =>
      cases full
      exact .inside rest (ih rfl)
  | later block _ ih => exact .later block (ih full)

theorem exists_further {around : Block} (stands : Stands forest block outer) (member : around ∈ outer) :
    ∃ further, Stands forest around further ∧ further ⊆ outer := by
  induction outer generalizing block with
  | nil => cases member
  | cons next rest ih =>
    rcases List.mem_cons.mp member with rfl | outward
    · exact ⟨rest, stands.parent, List.subset_cons_self _ _⟩
    · obtain ⟨further, stands, fewer⟩ := ih stands.parent outward
      exact ⟨further, stands, List.subset_cons_of_subset _ fewer⟩

theorem mem_walk_of_mem {around : Block} (stands : Stands forest block outer)
    (member : around ∈ block :: outer) : around ∈ forest.walk := by
  rcases List.mem_cons.mp member with rfl | outward
  · exact stands.mem_walk
  · obtain ⟨further, stands, _⟩ := stands.exists_further outward
    exact stands.mem_walk

theorem mem_body_walk {around : Block} (stands : Stands forest block outer) (member : around ∈ outer) :
    block ∈ around.content.body.walk := by
  induction stands with
  | here block rest => cases member
  | inside rest within ih =>
    rcases List.mem_append.mp member with near | last
    · exact ih near
    · exact List.mem_singleton.mp last ▸ within.mem_walk
  | later block _ ih => exact ih member

theorem mem_blocks (stands : Stands forest block outer) :
    block ∈ (outer.head?.elim forest (·.content.body)).blocks := by
  induction stands with
  | here block rest => simp
  | @inside first inner within_outer rest _ ih =>
    cases within_outer with
    | nil => exact ih
    | cons innermost further => exact ih
  | @later other outer rest block _ ih =>
    cases outer with
    | nil =>
      rw [List.head?_nil, Option.elim_none, blocks_cons]
      exact List.mem_cons_of_mem block ih
    | cons innermost further => exact ih

end Stands

theorem exists_stands_of_path? {target : Int} {path : List Block}
    (found : forest.path? target = some path) :
    ∃ block outer, path = block :: outer ∧ block.id = target ∧ Stands forest block outer := by
  induction forest using blockwise generalizing path with
  | empty => cases found
  | cons first rest body_ih rest_ih =>
    by_cases same : first.id = target
    · subst same
      rw [path?_cons_self] at found
      cases found
      exact ⟨first, [], rfl, rfl, .here first rest⟩
    · rw [path?_cons_of_ne same] at found
      cases within : first.content.body.path? target with
      | some inner =>
        rw [within] at found
        cases found
        obtain ⟨block, outer, rfl, named, stands⟩ := body_ih within
        exact ⟨block, outer ++ [first], rfl, named, .inside rest stands⟩
      | none =>
        rw [within] at found
        obtain ⟨block, outer, listed, named, stands⟩ := rest_ih found
        exact ⟨block, outer, listed, named, .later first stands⟩

theorem path?_of_absent {target : Int} (absent : target ∉ forest.ids) : forest.path? target = none := by
  cases found : forest.path? target with
  | none => rfl
  | some path =>
    obtain ⟨block, outer, _, named, stands⟩ := exists_stands_of_path? found
    exact absurd (named ▸ stands.mem_ids) absent

theorem Stands.path?_eq (stands : Stands forest block outer) (distinct : forest.ids.Nodup) :
    forest.path? block.id = some (block :: outer) := by
  induction stands with
  | here block rest => exact path?_cons_self
  | @inside first inner outer rest within ih =>
    obtain ⟨outside, _, inside, _⟩ := distinct_cons distinct
    have other : first.id ≠ inner.id := fun same => outside (same ▸ within.mem_ids)
    rw [path?_cons_of_ne other, ih inside]
    rfl
  | @later last outer rest first after ih =>
    obtain ⟨_, elsewhere, _, inside, apart⟩ := distinct_cons distinct
    have other : first.id ≠ last.id := fun same => elsewhere (same ▸ after.mem_ids)
    have absent : last.id ∉ first.content.body.ids := fun within => apart last.id within after.mem_ids
    rw [path?_cons_of_ne other, path?_of_absent absent]
    exact ih inside

theorem Stands.mem_outer_iff {inner : Block} (stands : Stands forest inner outer)
    (distinct : forest.ids.Nodup) (member : block ∈ forest.walk) :
    block ∈ inner :: outer ↔ inner.id ∈ block.ids := by
  rw [List.mem_cons, Block.ids, List.mem_cons]
  constructor
  · rintro (rfl | around)
    · exact .inl rfl
    · exact .inr (mem_ids_of_mem_walk (stands.mem_body_walk around))
  · rintro (same | enclosed)
    · exact .inl (List.inj_on_of_nodup_map distinct member stands.mem_walk same.symm)
    · obtain ⟨other, held, same⟩ := List.mem_map.mp enclosed
      obtain ⟨further, outward⟩ := exists_stands_of_mem_walk member
      obtain ⟨deeper, inside⟩ := exists_stands_of_mem_walk held
      have path := (outward.within inside).path?_eq distinct
      rw [same, stands.path?_eq distinct, Option.some.injEq, List.cons.injEq] at path
      simp [path.2]

theorem find?_eq_some_iff (distinct : forest.ids.Nodup) {target : Int} :
    forest.find? target = some block ↔ block ∈ forest.walk ∧ block.id = target := by
  constructor
  · intro found
    obtain ⟨path, listed, first⟩ := Option.bind_eq_some_iff.mp found
    obtain ⟨other, outer, rfl, named, stands⟩ := exists_stands_of_path? listed
    cases first
    exact ⟨stands.mem_walk, named⟩
  · rintro ⟨member, rfl⟩
    obtain ⟨outer, stands⟩ := exists_stands_of_mem_walk member
    rw [find?, stands.path?_eq distinct]
    rfl

end BlockMaze.Forest
