import BlockMaze.Proofs.Program.Edits
import BlockMaze.Proofs.Program.Places

/-! The readings of a program: by the blocks it consists of, by rows with depths, and by the index, which tells
what there is and what is around it. They are readings of one forest and agree. -/
namespace BlockMaze

/-- Blocks are taken off a stack one after the other, and what each encloses is put there in its place. -/
inductive Forest.Visits : List Block → List Block → Prop
  | done : Visits [] []
  | next (block : Block) {stack seen : List Block}
      (onward : Visits (block.content.body.blocks ++ stack) seen) : Visits (block :: stack) (block :: seen)

/-- From a number to the block of that number and on to the number around it, until there is none. Every
number on the way has its block and its entry. -/
inductive Program.Climbs (program : Program) : Int → List Block → Prop
  | top {id : Int} {block : Block} (found : program.find? (some id) = some block)
      (last : program.index.around.lookup id = some none) : Climbs program id [block]
  | out {id around : Int} {block : Block} {outer : List Block} (found : program.find? (some id) = some block)
      (held : program.index.around.lookup id = some (some around)) (onward : Climbs program around outer) :
      Climbs program id (block :: outer)

namespace Forest

theorem Visits.append_walk {stack seen : List Block} (forest : Forest) (rest : Visits stack seen) :
    Visits (forest.blocks ++ stack) (forest.walk ++ seen) := by
  induction forest using blockwise generalizing stack seen with
  | empty => exact rest
  | cons block siblings body_ih rest_ih =>
    rw [blocks_cons, walk_cons, List.cons_append, List.cons_append, List.append_assoc]
    exact .next block (body_ih (rest_ih rest))

theorem visits_walk (forest : Forest) : Visits forest.blocks forest.walk := by
  have visits := Visits.append_walk forest .done
  rwa [List.append_nil, List.append_nil] at visits

theorem outline_snd (forest : Forest) : forest.outline.map Prod.snd = forest.walk := by
  rw [outline_eq_places, List.map_map]
  exact forest.places_fst

theorem stands_of_outline {forest : Forest} {before after : List (Nat × Block)} {row : Nat × Block}
    (split : forest.outline = before ++ row :: after) :
    ∃ outer, Stands forest row.2 outer ∧ row.1 = outer.length ∧
      (before.findRev? fun other => other.1 + 1 = row.1).map Prod.snd = outer.head? := by
  rw [outline_eq_places] at split
  obtain ⟨earlier, onward, listed, rfl, further⟩ := List.map_eq_append_iff.mp split
  obtain ⟨⟨block, outer⟩, later, rfl, rfl, rfl⟩ := List.map_eq_cons_iff.mp further
  have member : (block, outer) ∈ forest.places := by simp [listed]
  refine ⟨outer, stands_of_mem_places member, rfl, ?_⟩
  have around := findRev?_places listed
  rw [List.findRev?_eq_find?_reverse] at around ⊢
  rw [← List.map_reverse, List.find?_map, Option.map_map]
  exact around

end Forest

namespace Program
namespace Kept
variable {program : Program} {block : Block} {outer : List Block}

theorem climbs (kept : program.Kept) (stands : program.forest.Stands block outer) :
    program.Climbs block.id (block :: outer) := by
  induction outer generalizing block with
  | nil => exact .top ((kept.find?_iff _).mpr ⟨stands.mem_walk, rfl⟩) (kept.lookup_eq stands)
  | cons around further ih =>
    exact .out ((kept.find?_iff _).mpr ⟨stands.mem_walk, rfl⟩) (kept.lookup_eq stands) (ih stands.parent)

theorem parentOf?_eq (kept : program.Kept) (stands : program.forest.Stands block outer) :
    program.parentOf? (some block.id) = outer.head? := by
  rw [parentOf?, Option.bind_some, kept.parent?_eq stands]
  cases outer with
  | nil => rfl
  | cons around further =>
    exact (Forest.find?_eq_some_iff kept.distinct).mpr ⟨stands.parent.mem_walk, rfl⟩

theorem outline_distinct (kept : program.Kept) : (program.forest.outline.map (·.2.id)).Nodup := by
  have distinct := kept.distinct
  rwa [Forest.ids, ← Forest.outline_snd, List.map_map] at distinct

theorem size_eq (kept : program.Kept) : program.size = program.forest.ids.length :=
  kept.numbers_perm.length_eq

theorem contains_iff (kept : program.Kept) (id : Option Int) :
    program.contains id = true ↔ ∃ live ∈ program.forest.ids, id = some live := by
  cases id with
  | none => simp [contains]
  | some id => simpa [contains] using kept.has_iff id

end Kept

/-- Whatever edits a program came from, the stack and the outline lead through the same blocks in the same
order, none of them twice; there are as many as the index counts, and those that it knows. Each stands as
deep as there are blocks around it; climbing from it by the index ends and leads through these, and the one it
is held by is in the last row before it that stands one level further out. -/
theorem views_agree (edits : List Edit) :
    let program := (editAll {} edits).2
    let rows := program.forest.outline
    Forest.Visits program.forest.blocks program.forest.walk ∧
    rows.map (·.2.id) = program.forest.ids ∧ rows.map Prod.snd = program.forest.walk ∧
    program.forest.ids.Nodup ∧ program.forest.ids.length = program.size ∧
    (∀ id, program.contains id = true ↔ ∃ live ∈ program.forest.ids, id = some live) ∧
    ∀ before row after, rows = before ++ row :: after →
      program.forest.Stands row.2 (program.ancestors row.2.id).tail ∧
      program.Climbs row.2.id (program.ancestors row.2.id) ∧
      row.1 + 1 = (program.ancestors row.2.id).length ∧
      program.parentOf? (some row.2.id) =
        (before.findRev? fun other => other.1 + 1 = row.1).map Prod.snd ∧
      (program.parentOf? (some row.2.id) = none ↔ row.1 = 0) := by
  intro program rows
  have kept : program.Kept := kept_new.editAll edits
  have listed := program.forest.outline_snd
  refine ⟨program.forest.visits_walk, ?_, listed, kept.distinct, kept.size_eq.symm, kept.contains_iff, ?_⟩
  · rw [Forest.ids, ← listed, List.map_map]
    rfl
  · intro before row after split
    obtain ⟨outer, stands, depth, last⟩ := Forest.stands_of_outline split
    rw [kept.ancestors_eq stands, kept.parentOf?_eq stands, last, depth]
    refine ⟨stands, kept.climbs stands, rfl, rfl, ?_⟩
    rw [List.head?_eq_none_iff, List.length_eq_zero_iff]

end Program

end BlockMaze
