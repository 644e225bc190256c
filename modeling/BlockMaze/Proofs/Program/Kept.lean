import Mathlib.Data.List.Basic
import BlockMaze.Program.Edit
import BlockMaze.Proofs.Program.Order

/-! Programs whose index is in step with their forest: what the index then finds, and that every edit
keeps it so. Blocks are looked up among entries of falling numbers, of which each names an older block
around it. -/
namespace BlockMaze

namespace Index
variable {entries : List (Int × Option Int)} {id : Int} {around : Option Int}

theorem lookup_of_mem (falling : (entries.map Prod.fst).Pairwise (· > ·))
    (member : (id, around) ∈ entries) : entries.lookup id = some around := by
  induction entries with
  | nil => cases member
  | cons entry older ih =>
    rw [List.map_cons, List.pairwise_cons] at falling
    rcases List.mem_cons.mp member with rfl | later
    · exact List.lookup_cons_self
    · have newer : entry.1 > id := falling.1 id (List.mem_map_of_mem later)
      have other : (id == entry.1) = false := beq_false_of_ne (Int.ne_of_lt newer)
      rw [List.lookup_cons, other]
      exact ih falling.2 later

theorem mem_of_lookup (found : entries.lookup id = some around) : (id, around) ∈ entries := by
  obtain ⟨before, after, split, _⟩ := List.lookup_eq_some_iff.mp found
  simp [split]

theorem chainIn_of_mem (falling : (entries.map Prod.fst).Pairwise (· > ·))
    (older : ∀ entry ∈ entries, ∀ outer, entry.2 = some outer → outer < entry.1)
    (member : (id, around) ∈ entries) :
    chainIn entries id = id :: around.elim [] (chainIn entries) := by
  induction entries with
  | nil => cases member
  | cons entry rest ih =>
    rw [List.map_cons, List.pairwise_cons] at falling
    have passed (number : Int) (less : number < entry.1) :
        chainIn (entry :: rest) number = chainIn rest number := if_neg (Int.ne_of_gt less)
    have outward := older (id, around) member
    rcases List.mem_cons.mp member with rfl | later
    · refine (if_pos rfl).trans ?_
      cases around with
      | none => rfl
      | some outer => exact congrArg (id :: ·) (passed outer (outward outer rfl)).symm
    · have newer : id < entry.1 := falling.1 id (List.mem_map_of_mem later)
      rw [passed id newer, ih falling.2 (fun other known => older other (List.mem_cons_of_mem _ known)) later]
      cases around with
      | none => rfl
      | some outer =>
        exact congrArg (id :: ·) (passed outer (Int.lt_trans (outward outer rfl) newer)).symm

end Index

namespace Program

/-- The index in step with the forest, and the forest in order. -/
structure Kept (program : Program) : Prop where
  orderly : program.forest.Orderly 0 false false
  held : program.index.around.Perm (program.forest.holders none)
  numbered : program.index.around.map Prod.fst = program.index.numbers
  falling : program.index.numbers.Pairwise (· > ·)
  given : ∀ id ∈ program.index.numbers, id < program.nextId
  positive : 0 < program.nextId

namespace Kept
variable {program : Program} {block : Block} {outer : List Block}

theorem numbers_perm (kept : program.Kept) : program.index.numbers.Perm program.forest.ids := by
  rw [← kept.numbered, ← Forest.holders_fst program.forest none]
  exact kept.held.map Prod.fst

theorem distinct (kept : program.Kept) : program.forest.ids.Nodup :=
  kept.numbers_perm.nodup_iff.mp (kept.falling.imp Int.ne_of_gt)

theorem has_iff (kept : program.Kept) (id : Int) :
    program.index.has id = true ↔ id ∈ program.forest.ids := by
  rw [Index.has, List.contains_iff_mem]
  exact kept.numbers_perm.mem_iff

theorem lt_nextId (kept : program.Kept) {id : Int} (member : id ∈ program.forest.ids) :
    id < program.nextId := kept.given id (kept.numbers_perm.mem_iff.mpr member)

theorem find?_iff (kept : program.Kept) (id : Int) :
    program.find? (some id) = some block ↔ block ∈ program.forest.walk ∧ block.id = id := by
  rw [← Forest.find?_eq_some_iff kept.distinct, find?]
  by_cases live : program.index.has id = true
  · simp [Option.filter, live]
  · have absent : program.forest.find? id ≠ some block := fun found => by
      obtain ⟨member, rfl⟩ := (Forest.find?_eq_some_iff kept.distinct).mp found
      exact live ((kept.has_iff block.id).mpr (Forest.mem_ids_of_mem_walk member))
    simp [Option.filter, live, absent]

theorem find?_eq_none_iff (kept : program.Kept) (id : Int) :
    program.find? (some id) = none ↔ id ∉ program.forest.ids := by
  rw [Option.eq_none_iff_forall_not_mem, Forest.ids, List.mem_map]
  constructor
  · rintro absent ⟨block, live⟩
    exact absent block ((kept.find?_iff id).mpr live)
  · intro absent block found
    exact absent ⟨block, (kept.find?_iff id).mp found⟩

theorem lookup_eq (kept : program.Kept) (stands : program.forest.Stands block outer) :
    program.index.around.lookup block.id = some (outer.head?.map (·.id)) := by
  refine Index.lookup_of_mem (kept.numbered ▸ kept.falling) (kept.held.mem_iff.mpr ?_)
  simpa using stands.mem_holders none

theorem parent?_eq (kept : program.Kept) (stands : program.forest.Stands block outer) :
    program.index.parent? block.id = outer.head?.map (·.id) := by
  rw [Index.parent?, kept.lookup_eq stands]
  rfl

theorem chain_eq (kept : program.Kept) (stands : program.forest.Stands block outer) :
    program.index.chain block.id = (block :: outer).map (·.id) := by
  have older : ∀ entry ∈ program.index.around, ∀ outer, entry.2 = some outer → outer < entry.1 := by
    intro entry member outer held
    exact kept.orderly.holder_lt (by simp) (kept.held.mem_iff.mp member) held
  have member := Index.mem_of_lookup (kept.lookup_eq stands)
  rw [Index.chain, Index.chainIn_of_mem (kept.numbered ▸ kept.falling) older member]
  induction outer generalizing block with
  | nil => rfl
  | cons around further ih =>
    have outward := Index.mem_of_lookup (kept.lookup_eq stands.parent)
    refine congrArg (block.id :: ·) ?_
    refine (Index.chainIn_of_mem (kept.numbered ▸ kept.falling) older outward).trans ?_
    exact ih stands.parent outward

/-- Going from block to block by the index leads through the blocks around. -/
theorem ancestors_eq (kept : program.Kept) (stands : program.forest.Stands block outer) :
    program.ancestors block.id = block :: outer := by
  have found : ∀ around ∈ block :: outer, program.forest.find? around.id = some around :=
    fun around member =>
      (Forest.find?_eq_some_iff kept.distinct).mpr ⟨stands.mem_walk_of_mem member, rfl⟩
  rw [ancestors, kept.chain_eq stands, List.filterMap_map]
  exact (List.filterMap_congr found).trans List.filterMap_some

end Kept

theorem single_eq_cons (id : Int) (kind : Kind) :
    Forest.single id kind startCount = .cons ⟨id, newContent kind⟩ .empty := by
  cases kind <;> rfl

theorem fits_of_nestingRefusal? {kind : Kind} {around : List Block}
    (accepted : nestingRefusal? kind around = none) :
    (newContent kind).Fits (around.any (·.content.isRepeated)) (around.any (·.content.isGuarded)) := by
  cases kind with
  | command c => trivial
  | repeated =>
    have outermost : around.any (·.content.isRepeated) = false := by simpa [nestingRefusal?] using accepted
    exact ⟨outermost, by decide, by decide⟩
  | guarded predicate =>
    have outermost : around.any (·.content.isGuarded) = false := by simpa [nestingRefusal?] using accepted
    exact outermost

theorem bounds_of_countOfDatum {value : Text.Datum} {count : Int} (ok : countOfDatum value = .ok count) :
    1 ≤ count ∧ count ≤ 20 := by
  rw [countOfDatum] at ok
  cases number : value.integer with
  | error fault =>
    rw [number] at ok
    cases ok
  | ok whole =>
    rw [number] at ok
    cases ok
    exact clampCount_bounds whole

theorem setCount_ok {program later : Program} {id stored : Option Int} {value : Text.Datum}
    (ok : program.setCount id value = .ok (stored, later)) : later = program ∨
      ∃ target count, (1 ≤ count ∧ count ≤ 20) ∧
        later = { program with forest := program.forest.setCount target count } := by
  rw [setCount] at ok
  split at ok
  · cases ok
  · split at ok
    · split at ok
      · cases ok
      · rename_i counted
        cases ok
        exact .inr ⟨_, _, bounds_of_countOfDatum counted, rfl⟩
    · cases ok
      exact .inl rfl

theorem prune_keeps (holds : Program → Prop) {program : Program} (begun : holds program)
    (kept : ∀ left id, holds left → holds (Program.remove left id).2) (family : Family) :
    holds (program.prune family).2 := by
  refine List.foldlRecOn (motive := fun state : Nat × Program => holds state.2) _ _ begun ?_
  rintro ⟨removed, left⟩ before block -
  have after := kept left (some block.id) before
  rcases gone : left.remove (some block.id) with ⟨_ | _, fewer⟩
  · simpa only [gone] using after
  · simpa only [gone] using after

theorem pruneForMode_keeps (holds : Program → Prop) {program : Program} (begun : holds program)
    (kept : ∀ left id, holds left → holds (Program.remove left id).2) (mode : Mode) :
    holds (program.pruneForMode mode).2 := by
  cases mode with
  | basic => exact prune_keeps holds (prune_keeps holds begun kept .repeats) kept .guards
  | conditions => exact prune_keeps holds begun kept .repeats
  | loop => exact prune_keeps holds begun kept .guards

theorem newContent_body (kind : Kind) : (newContent kind).body = .empty := by
  cases kind <;> rfl

namespace Kept
variable {program : Program}

theorem accepted_parent (kept : program.Kept) {kind : Kind} {id : Int}
    (accepted : program.parentRefusal? kind (some id) = none) :
    ∃ block outer, block.id = id ∧ program.forest.Stands block outer ∧
      block.content.isCommand = false ∧ nestingRefusal? kind (block :: outer) = none := by
  rw [parentRefusal?] at accepted
  cases found : program.find? (some id) with
  | none => simp [found] at accepted
  | some block =>
    obtain ⟨member, rfl⟩ := (kept.find?_iff id).mp found
    obtain ⟨outer, stands⟩ := Forest.exists_stands_of_mem_walk member
    simp only [found, kept.ancestors_eq stands] at accepted
    cases encloses : block.content.isCommand with
    | true => simp [encloses] at accepted
    | false =>
      rw [encloses] at accepted
      exact ⟨block, outer, rfl, stands, encloses, accepted⟩

theorem enter (kept : program.Kept) (parent : Option Int) {forest : Forest}
    (orderly : forest.Orderly 0 false false)
    (held : ((program.nextId, parent) :: program.index.around).Perm (forest.holders none)) :
    Kept ⟨forest, program.index.insert program.nextId parent, program.nextId + 1⟩ where
  orderly := orderly
  held := held
  numbered := congrArg (program.nextId :: ·) kept.numbered
  falling := List.pairwise_cons.mpr ⟨kept.given, kept.falling⟩
  given := by
    intro id member
    rcases List.mem_cons.mp member with rfl | older
    · exact Int.lt_succ program.nextId
    · exact Int.lt_trans (kept.given id older) (Int.lt_succ program.nextId)
  positive := Int.lt_trans kept.positive (Int.lt_succ program.nextId)

theorem append (kept : program.Kept) {kind : Kind} {parent : Option Int}
    (accepted : program.parentRefusal? kind parent = none) : (program.append kind parent).Kept := by
  have hollow := newContent_body kind
  have added (around : Option Int) : (Forest.cons ⟨program.nextId, newContent kind⟩ .empty).holders around =
      [(program.nextId, around)] := by
    rw [Forest.holders_cons, Block.holders, hollow]
    rfl
  rw [Program.append, single_eq_cons]
  cases parent with
  | none =>
    have unrefused : nestingRefusal? kind [] = none := by cases kind <;> rfl
    refine kept.enter none ?_ ?_
    · exact kept.orderly.append_cons kept.positive (fun _ => kept.lt_nextId)
        (fits_of_nestingRefusal? unrefused) hollow
    · rw [Forest.onSiblings, Forest.holders_append, added]
      exact (kept.held.cons _).trans (List.perm_append_singleton _ _).symm
  | some id =>
    obtain ⟨block, outer, rfl, stands, encloses, unrefused⟩ := kept.accepted_parent accepted
    have fits := fits_of_nestingRefusal? unrefused
    refine kept.enter (some block.id) ?_ ?_
    · refine Forest.Orderly.onBody stands kept.distinct encloses _ kept.orderly fun inside => ?_
      refine inside.append_cons (kept.lt_nextId stands.mem_ids) (fun id member => ?_) ?_ hollow
      · exact kept.lt_nextId ((Forest.body_ids_sublist stands.mem_walk).subset member)
      · simpa using fits
    · obtain ⟨others, before, after⟩ := Forest.holders_onBody stands kept.distinct encloses
        (· ++ .cons ⟨program.nextId, newContent kind⟩ .empty) none
      rw [Forest.holders_append, added, List.append_assoc] at after
      exact ((kept.held.trans before).cons _).trans (List.perm_middle.symm.trans after.symm)

theorem forget (kept : program.Kept) {block : Block} {around : Option Int} {forest : Forest}
    (orderly : forest.Orderly 0 false false)
    (cut : (program.forest.holders none).Perm (block.holders around ++ forest.holders none)) :
    Kept { program with forest, index := program.index.forget block.ids } where
  orderly := orderly
  held := by
    have listed : (block.ids ++ forest.ids).Nodup := by
      have fallen := cut.map Prod.fst
      rw [List.map_append, Forest.holders_fst, Forest.holders_fst, Forest.block_holders_fst] at fallen
      exact fallen.nodup_iff.mp kept.distinct
    obtain ⟨_, _, apart⟩ := List.nodup_append.mp listed
    have gone : (block.holders around).filter (fun entry => !block.ids.contains entry.1) = [] := by
      refine List.filter_eq_nil_iff.mpr fun entry member => ?_
      have inside := List.mem_map_of_mem (f := Prod.fst) member
      rw [Forest.block_holders_fst] at inside
      simpa using inside
    have left : (forest.holders none).filter (fun entry => !block.ids.contains entry.1) =
        forest.holders none := by
      refine List.filter_eq_self.mpr fun entry member => ?_
      have outside := List.mem_map_of_mem (f := Prod.fst) member
      rw [Forest.holders_fst] at outside
      simpa using fun inside => apart _ inside _ outside rfl
    have fewer := (kept.held.trans cut).filter fun entry => !block.ids.contains entry.1
    rwa [List.filter_append, gone, left, List.nil_append] at fewer
  numbered := by
    rw [Index.forget, ← kept.numbered, List.filter_map]
    rfl
  falling := kept.falling.filter _
  given := fun id member => kept.given id (List.mem_of_mem_filter member)
  positive := kept.positive

/-- A block that is found goes with all it encloses, from the forest and from the index. -/
theorem remove (kept : program.Kept) (id : Option Int) : (program.remove id).2.Kept := by
  rw [Program.remove]
  cases found : program.find? id with
  | none => exact kept
  | some block =>
    obtain ⟨number, rfl⟩ : ∃ number, id = some number := by
      cases id with
      | none => cases found
      | some number => exact ⟨number, rfl⟩
    obtain ⟨member, rfl⟩ := (kept.find?_iff number).mp found
    obtain ⟨outer, stands⟩ := Forest.exists_stands_of_mem_walk member
    have cut := Forest.holders_cut stands kept.distinct
    rw [← kept.parent?_eq stands] at cut
    refine kept.forget ?_ cut
    rw [kept.parent?_eq stands]
    cases outer with
    | nil => exact kept.orderly.without block.id
    | cons around further =>
      have encloses := Forest.isCommand_of_mem_body (Forest.blocks_subset_walk _ stands.mem_blocks)
      exact Forest.Orderly.onBody stands.parent kept.distinct encloses _ kept.orderly
        fun inside => inside.without block.id

theorem setCount (kept : program.Kept) (target : Int) {count : Int} (bounded : 1 ≤ count ∧ count ≤ 20) :
    Kept { program with forest := program.forest.setCount target count } := by
  have held := kept.held
  rw [← Forest.holders_setCount _ target count] at held
  exact ⟨kept.orderly.setCount target bounded, held, kept.numbered, kept.falling, kept.given, kept.positive⟩

theorem clear (kept : program.Kept) : program.clear.Kept :=
  ⟨trivial, .nil, rfl, .nil, fun _ member => absurd member List.not_mem_nil, kept.positive⟩

end Kept

end Program

end BlockMaze
