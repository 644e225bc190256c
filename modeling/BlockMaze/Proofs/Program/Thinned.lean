import BlockMaze.Proofs.Program.Places
import BlockMaze.Proofs.Program.Sift

/-! What is left of a program after removals. The index forgot some numbers, so that the forest that is left
determines the program. Where the forest is sifted, the blocks that stay are as they were apart from what they
enclose, in the same order and with the same blocks around them. -/
namespace BlockMaze

def Block.bare (block : Block) : Block := block.withBody .empty

@[simp] theorem Block.bare_withBody (block : Block) (body : Forest) :
    (block.withBody body).bare = block.bare := by
  rcases block with ⟨id, c | ⟨count, old⟩ | ⟨predicate, old⟩⟩ <;> rfl

def Block.keptBy (keep : Int → Kind → Bool) (block : Block) : Bool := keep block.id block.content.kind

namespace Index
variable {index : Index} {gone : List Int}

theorem forget_nil (index : Index) : index.forget [] = index := by
  simp [forget]

theorem forget_forget (index : Index) (gone further : List Int) :
    (index.forget gone).forget further = index.forget (gone ++ further) := by
  simp [forget, List.filter_filter, Bool.and_comm]

theorem mem_forget {id : Int} : id ∈ (index.forget gone).numbers ↔ id ∈ index.numbers ∧ id ∉ gone := by
  simp [forget]

theorem forget_congr {other : List Int} (numbered : index.around.map Prod.fst = index.numbers)
    (same : ∀ id ∈ index.numbers, id ∈ gone ↔ id ∈ other) : index.forget gone = index.forget other := by
  have agree (id : Int) (known : id ∈ index.numbers) : gone.contains id = other.contains id := by
    rw [Bool.eq_iff_iff, List.contains_iff_mem, List.contains_iff_mem]
    exact same id known
  rw [forget, forget, mk.injEq]
  refine ⟨List.filter_congr fun id known => ?_, List.filter_congr fun entry held => ?_⟩
  · rw [agree id known]
  · rw [agree entry.1 (numbered ▸ List.mem_map_of_mem held)]

theorem parent?_forget {id : Int} (stays : id ∉ gone) :
    (index.forget gone).parent? id = index.parent? id := by
  have found : (index.around.filter fun entry => !gone.contains entry.1).lookup id =
      index.around.lookup id := by
    induction index.around with
    | nil => rfl
    | cons entry older ih =>
      by_cases same : id = entry.1
      · have entered : (!gone.contains entry.1) = true := by simpa [same] using stays
        rw [List.filter_cons, if_pos entered, List.lookup_cons, List.lookup_cons, same, beq_self_eq_true]
      · have passed : (id == entry.1) = false := beq_false_of_ne same
        rw [List.lookup_cons, passed, List.filter_cons]
        split
        · rw [List.lookup_cons, passed]
          exact ih
        · exact ih
  rw [parent?, parent?, forget, found]

end Index

namespace Forest
variable {keep : Int → Kind → Bool} {forest : Forest} {block : Block} {outer : List Block}

theorem placesIn_filter_of_drop (dropped : outer.all (·.keptBy keep) = false) :
    (forest.placesIn outer).filter (fun place => (place.1 :: place.2).all (·.keptBy keep)) = [] := by
  apply List.filter_eq_nil_iff.mpr
  rintro ⟨block, all⟩ member
  obtain ⟨inner, rfl, _⟩ := exists_stands_of_mem_placesIn member
  rw [List.all_cons, List.all_append, dropped, Bool.and_false, Bool.and_false]
  exact Bool.false_ne_true

theorem bare_walk_siftIn (forest : Forest) (around : outer.all (·.keptBy keep) = true) :
    (forest.sift keep).walk.map Block.bare =
      ((forest.placesIn outer).filter fun place => (place.1 :: place.2).all (·.keptBy keep)).map
        (·.1.bare) := by
  induction forest using blockwise generalizing outer with
  | empty => rfl
  | cons block rest body_ih rest_ih =>
    rw [placesIn_cons, List.filter_cons, List.filter_append]
    cases kept : block.keptBy keep with
    | false =>
      have dropped : (block :: outer).all (·.keptBy keep) = false := by
        rw [List.all_cons, kept, Bool.false_and]
      rw [sift_cons_of_drop kept, rest_ih around, placesIn_filter_of_drop dropped, dropped]
      rfl
    | true =>
      have inside : (block :: outer).all (·.keptBy keep) = true := by rw [List.all_cons, kept, around]; rfl
      rw [sift_cons_of_keep kept, walk_cons, body_withBody_sift, inside]
      simp [body_ih inside, rest_ih around]

/-- The blocks that stay when a forest is sifted are those that are kept with all around them. -/
theorem bare_walk_sift (forest : Forest) : (forest.sift keep).walk.map Block.bare =
    (forest.places.filter fun place => (place.1 :: place.2).all (·.keptBy keep)).map (·.1.bare) :=
  forest.bare_walk_siftIn List.all_nil

theorem mem_ids_sift_iff (stands : Stands forest block outer) (distinct : forest.ids.Nodup) :
    block.id ∈ (forest.sift keep).ids ↔ (block :: outer).all (·.keptBy keep) = true := by
  have listed : (forest.sift keep).ids = ((forest.sift keep).walk.map Block.bare).map (·.id) := by
    rw [List.map_map]
    rfl
  rw [listed, bare_walk_sift, List.map_map, List.mem_map]
  constructor
  · rintro ⟨⟨other, around⟩, member, same⟩
    obtain ⟨placed, kept⟩ := List.mem_filter.mp member
    have path := (stands_of_mem_places placed).path?_eq distinct
    rw [show other.id = block.id from same, stands.path?_eq distinct, Option.some.injEq] at path
    rwa [path]
  · intro kept
    exact ⟨(block, outer), List.mem_filter.mpr ⟨stands.mem_places, kept⟩, rfl⟩

/-- Blocks stay just as they and all around them are kept. -/
def Decides (forest : Forest) (keep : Int → Kind → Bool) (stays : Block → Bool) : Prop :=
  ∀ block outer, Stands forest block outer → stays block = (block :: outer).all (·.keptBy keep)

namespace Decides
variable {stays : Block → Bool}

theorem bare_walk (decides : forest.Decides keep stays) :
    (forest.sift keep).walk.map Block.bare = (forest.walk.filter stays).map Block.bare := by
  rw [bare_walk_sift, ← places_fst, List.filter_map, List.map_map]
  refine congrArg (List.map _) (List.filter_congr fun place member => ?_)
  exact (decides place.1 place.2 (stands_of_mem_places member)).symm

theorem mem_ids (decides : forest.Decides keep stays) (distinct : forest.ids.Nodup)
    (member : block ∈ forest.walk) : block.id ∈ (forest.sift keep).ids ↔ stays block = true := by
  obtain ⟨outer, stands⟩ := exists_stands_of_mem_walk member
  rw [mem_ids_sift_iff stands distinct, decides block outer stands]

theorem mem_dropped (decides : forest.Decides keep stays) (distinct : forest.ids.Nodup) {id : Int}
    (live : id ∈ forest.ids) :
    id ∈ (forest.walk.filter (!stays ·)).map (·.id) ↔ id ∉ (forest.sift keep).ids := by
  obtain ⟨block, member, rfl⟩ := List.mem_map.mp live
  rw [decides.mem_ids distinct member, List.mem_map]
  constructor
  · rintro ⟨other, gone, same⟩
    obtain ⟨present, dropped⟩ := List.mem_filter.mp gone
    obtain rfl := List.inj_on_of_nodup_map distinct present member same
    simpa using dropped
  · intro dropped
    exact ⟨block, List.mem_filter.mpr ⟨member, by simpa using dropped⟩, rfl⟩

theorem exists_bare (decides : forest.Decides keep stays) (member : block ∈ forest.walk)
    (stay : stays block = true) :
    ∃ left ∈ (forest.sift keep).walk, left.id = block.id ∧ left.bare = block.bare := by
  have listed : block.bare ∈ (forest.sift keep).walk.map Block.bare := by
    rw [decides.bare_walk]
    exact List.mem_map_of_mem (List.mem_filter.mpr ⟨member, stay⟩)
  obtain ⟨left, present, same⟩ := List.mem_map.mp listed
  have named : left.bare.id = block.bare.id := congrArg Block.id same
  exact ⟨left, present, named, same⟩

end Decides

end Forest

namespace Program

/-- What is left of a program after any removals. -/
structure Thinned (program later : Program) : Prop where
  kept : later.Kept
  index : ∃ gone, later.index = program.index.forget gone
  nextId : later.nextId = program.nextId

/-- What is left are the blocks that stay: they are as they were apart from what they enclose, and in their
order; each has the same block around it; and the index forgot the others and nothing else. -/
structure Leaves (program later : Program) (stays : Block → Bool) : Prop where
  blocks : later.forest.walk.map Block.bare = (program.forest.walk.filter stays).map Block.bare
  parents : ∀ block ∈ program.forest.walk, stays block = true →
    (later.parentOf? (some block.id)).map Block.bare = (program.parentOf? (some block.id)).map Block.bare
  index : later.index = program.index.forget ((program.forest.walk.filter (!stays ·)).map (·.id))
  nextId : later.nextId = program.nextId
  coherent : later.Coherent

variable {program later other : Program} {keep : Int → Kind → Bool} {stays : Block → Bool}

theorem Kept.refl_thinned (kept : program.Kept) : program.Thinned program :=
  ⟨kept, ⟨[], (Index.forget_nil _).symm⟩, rfl⟩

theorem Thinned.remove (thinned : program.Thinned later) (id : Option Int) :
    program.Thinned (later.remove id).2 := by
  obtain ⟨gone, forgot⟩ := thinned.index
  refine ⟨thinned.kept.remove id, ?_, (later.remove_nextId id).trans thinned.nextId⟩
  rw [Program.remove]
  cases later.find? id with
  | none => exact ⟨gone, forgot⟩
  | some block => exact ⟨gone ++ block.ids, by rw [← Index.forget_forget, ← forgot]⟩

theorem Thinned.prune (thinned : program.Thinned later) (family : Family) :
    program.Thinned (later.prune family).2 :=
  prune_keeps program.Thinned thinned (fun _ id left => left.remove id) family

theorem Thinned.pruneForMode (thinned : program.Thinned later) (mode : Mode) :
    program.Thinned (later.pruneForMode mode).2 :=
  pruneForMode_keeps program.Thinned thinned (fun _ id left => left.remove id) mode

theorem Thinned.index_eq (kept : program.Kept) (thinned : program.Thinned later) {gone : List Int}
    (lost : ∀ id ∈ program.forest.ids, id ∈ gone ↔ id ∉ later.forest.ids) :
    later.index = program.index.forget gone := by
  obtain ⟨forgotten, forgot⟩ := thinned.index
  rw [forgot]
  apply Index.forget_congr kept.numbered
  intro id known
  rw [lost id (kept.numbers_perm.mem_iff.mp known), ← thinned.kept.numbers_perm.mem_iff, forgot,
    Index.mem_forget]
  simp [known]

theorem Thinned.eq_of_forest (kept : program.Kept) (thinned : program.Thinned later)
    (also : program.Thinned other) (same : later.forest = other.forest) : later = other := by
  have lost : ∀ id ∈ program.forest.ids,
      id ∈ program.forest.ids.filter (· ∉ later.forest.ids) ↔ id ∉ later.forest.ids := by
    intro id live
    simp [live]
  have index := thinned.index_eq kept lost
  rw [same] at index lost
  cases later
  cases other
  rw [mk.injEq]
  exact ⟨same, index.trans (also.index_eq kept lost).symm, thinned.nextId.trans also.nextId.symm⟩

theorem Thinned.leaves (kept : program.Kept) (thinned : program.Thinned later)
    (sifted : later.forest = program.forest.sift keep) (decides : program.forest.Decides keep stays) :
    program.Leaves later stays := by
  have index : later.index = program.index.forget ((program.forest.walk.filter (!stays ·)).map (·.id)) :=
    thinned.index_eq kept fun id live => by rw [decides.mem_dropped kept.distinct live, sifted]
  have blocks := decides.bare_walk
  rw [← sifted] at blocks
  refine ⟨blocks, ?_, index, thinned.nextId, thinned.kept.coherent⟩
  intro block member stay
  obtain ⟨outer, stands⟩ := Forest.exists_stands_of_mem_walk member
  have known : block.id ∉ (program.forest.walk.filter (!stays ·)).map (·.id) := by
    rw [decides.mem_dropped kept.distinct stands.mem_ids, not_not]
    exact (decides.mem_ids kept.distinct member).mpr stay
  rw [parentOf?, parentOf?, Option.bind_some, Option.bind_some, index, Index.parent?_forget known,
    kept.parent?_eq stands]
  cases outer with
  | nil => rfl
  | cons around further =>
    have outward := stands.parent
    have also : stays around = true := by
      rw [decides block _ stands, List.all_cons, Bool.and_eq_true] at stay
      rw [decides around further outward]
      exact stay.2
    obtain ⟨left, present, named, same⟩ := decides.exists_bare outward.mem_walk also
    have found : later.forest.find? around.id = some left :=
      (Forest.find?_eq_some_iff thinned.kept.distinct).mpr ⟨sifted ▸ present, named⟩
    have before : program.forest.find? around.id = some around :=
      (Forest.find?_eq_some_iff kept.distinct).mpr ⟨outward.mem_walk, rfl⟩
    simp [found, before, same]

theorem Leaves.ids_eq (leaves : program.Leaves later stays) :
    later.forest.ids = (program.forest.walk.filter stays).map (·.id) := by
  have named := congrArg (List.map (·.id)) leaves.blocks
  rw [List.map_map, List.map_map] at named
  exact named

theorem Leaves.contains_eq (leaves : program.Leaves later stays) (distinct : program.forest.ids.Nodup)
    {block : Block} (member : block ∈ program.forest.walk) :
    later.contains (some block.id) = stays block := by
  rw [contains, Option.any_some, Bool.eq_iff_iff, Index.has, List.contains_iff_mem,
    leaves.coherent.numbers.mem_iff, leaves.ids_eq, List.mem_map]
  constructor
  · rintro ⟨other, left, same⟩
    obtain ⟨present, stay⟩ := List.mem_filter.mp left
    exact List.inj_on_of_nodup_map distinct present member same ▸ stay
  · exact fun stay => ⟨block, List.mem_filter.mpr ⟨member, stay⟩, rfl⟩

theorem Leaves.countP_eq (leaves : program.Leaves later stays) (test : Block → Bool)
    (plain : ∀ block, test block.bare = test block) :
    later.forest.walk.countP test = program.forest.walk.countP fun block => test block && stays block := by
  have counted (blocks : List Block) : (blocks.map Block.bare).countP test = blocks.countP test := by
    rw [List.countP_map]
    exact List.countP_congr fun block _ => by rw [Function.comp, plain]
  rw [← counted, leaves.blocks, counted, List.countP_filter]

end Program

end BlockMaze
