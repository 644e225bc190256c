import BlockMaze.Proofs.Program.Kept

/-! Programs after any edits. However often and in whatever order a new program is edited, the index
names the blocks there are, the rules on order, nesting and counts hold, and no number is given twice. -/
namespace BlockMaze

inductive Edit
  | insert (name : Text.Datum) (parent : Option Int) (mode : Option Mode)
  | remove (id : Option Int)
  | setCount (id : Option Int) (value : Text.Datum)
  | prune (family : Family)
  | pruneForMode (mode : Mode)
  | clear

theorem Kind.ofDatum_ok_iff {name : Text.Datum} {kind : Kind} :
    ofDatum name = .ok kind ↔ name = .text kind.name := by
  refine ⟨fun ok => ?_, fun named => named ▸ ofDatum_name kind⟩
  rw [ofDatum] at ok
  split at ok
  · rename_i found
    cases ok
    simpa using List.find?_some found
  · cases ok

namespace Program

/-- The block inserted, if any, and the program after an edit; a refused one changes nothing. -/
def edit (program : Program) : Edit → List Block × Program
  | .insert name parent mode =>
    match program.insert name parent mode with
    | .ok (block, later) => ([block], later)
    | .error _ => ([], program)
  | .remove id => ([], (program.remove id).2)
  | .setCount id value =>
    match program.setCount id value with
    | .ok (_, later) => ([], later)
    | .error _ => ([], program)
  | .prune family => ([], (program.prune family).2)
  | .pruneForMode mode => ([], (program.pruneForMode mode).2)
  | .clear => ([], program.clear)

def editAll (program : Program) : List Edit → List Block × Program
  | [] => ([], program)
  | edit :: edits =>
    let (inserted, later) := program.edit edit
    let (others, last) := later.editAll edits
    (inserted ++ others, last)

/-- What holds of a program whose index says of each block what the forest says. -/
structure Coherent (program : Program) : Prop where
  numbers : program.index.numbers.Perm program.forest.ids
  distinct : program.forest.ids.Nodup
  found : ∀ id block, program.find? (some id) = some block ↔
    block ∈ program.forest.walk ∧ block.id = id
  held : (program.index.around.map Prod.fst).Perm program.forest.ids
  top : ∀ block ∈ program.forest.blocks, program.index.around.lookup block.id = some none
  inside : ∀ block ∈ program.forest.walk, ∀ inner ∈ block.content.body.blocks,
    program.index.around.lookup inner.id = some (some block.id)
  top_rising : (program.forest.blocks.map (·.id)).Pairwise (· < ·)
  rising : ∀ block ∈ program.forest.walk,
    (block.id :: block.content.body.blocks.map (·.id)).Pairwise (· < ·)
  repeats : ∀ block ∈ program.forest.walk, block.content.isRepeated = true →
    ∀ inner ∈ block.content.body.walk, inner.content.isRepeated = false
  guards : ∀ block ∈ program.forest.walk, block.content.isGuarded = true →
    ∀ inner ∈ block.content.body.walk, inner.content.isGuarded = false
  shallow : ∀ row ∈ program.forest.outline, row.1 ≤ 2
  counts : ∀ block ∈ program.forest.walk, ∀ count body, block.content = .repeated count body →
    1 ≤ count ∧ count ≤ 20

variable {program : Program}

theorem Kept.coherent (kept : program.Kept) : program.Coherent where
  numbers := kept.numbers_perm
  distinct := kept.distinct
  found := fun id _ => kept.find?_iff id
  held := kept.numbered ▸ kept.numbers_perm
  top := fun _ member => kept.lookup_eq (Forest.stands_of_mem_blocks member)
  inside := by
    intro block member inner within
    obtain ⟨outer, stands⟩ := Forest.exists_stands_of_mem_walk member
    exact kept.lookup_eq (stands.child within)
  top_rising := (List.pairwise_cons.mp kept.orderly.blocks_rising).2
  rising := by
    intro block member
    obtain ⟨_, _, _, inside, _⟩ := kept.orderly.of_mem_walk member
    exact inside.blocks_rising
  repeats := by
    intro block member sort inner within
    obtain ⟨_, _, _, inside, _⟩ := kept.orderly.of_mem_walk member
    rw [sort, Bool.or_true] at inside
    exact inside.not_isRepeated within
  guards := by
    intro block member sort inner within
    obtain ⟨_, _, _, inside, _⟩ := kept.orderly.of_mem_walk member
    rw [sort, Bool.or_true] at inside
    exact inside.not_isGuarded within
  shallow := fun _ member => Nat.le_trans (Nat.le_add_right _ _) (kept.orderly.depth_le member)
  counts := by
    intro block member count body content
    obtain ⟨_, _, fits, _⟩ := kept.orderly.of_mem_walk member
    rw [content] at fits
    exact fits.2

theorem kept_new : Kept {} := ⟨trivial, .nil, rfl, .nil, by simp, by decide⟩

theorem modeRefusal?_eq_none_iff {kind : Kind} {mode : Option Mode} :
    modeRefusal? kind mode = none ↔ ∀ given ∈ mode, given.allows kind = true := by
  cases mode with
  | none => simp [modeRefusal?]
  | some given =>
    cases allowed : given.allows kind with
    | true => simp [modeRefusal?, allowed]
    | false => by_cases repeated : kind = .repeated <;> simp_all [modeRefusal?]

inductive Inserts (program : Program) (name : Text.Datum) (parent : Option Int) (mode : Option Mode) :
    Except Refusal (Block × Program) → Prop
  | unnamed (unknown : ∀ kind : Kind, name ≠ .text kind.name) :
      Inserts program name parent mode (.error (.unknownKind name))
  | moded {kind : Kind} {refusal : Refusal} (named : name = .text kind.name)
      (refused : modeRefusal? kind mode = some refusal) : Inserts program name parent mode (.error refusal)
  | misplaced {kind : Kind} {refusal : Refusal} (named : name = .text kind.name)
      (allowed : modeRefusal? kind mode = none) (refused : program.parentRefusal? kind parent = some refusal) :
      Inserts program name parent mode (.error refusal)
  | taken {kind : Kind} (named : name = .text kind.name) (allowed : modeRefusal? kind mode = none)
      (accepted : program.parentRefusal? kind parent = none) : Inserts program name parent mode
        (.ok (⟨program.nextId, newContent kind⟩, program.append kind parent))

theorem insert_inserts (program : Program) (name : Text.Datum) (parent : Option Int) (mode : Option Mode) :
    Inserts program name parent mode (program.insert name parent mode) := by
  rw [insert]
  split
  · rename_i unknown
    refine .unnamed fun kind named => ?_
    rw [Kind.ofDatum_ok_iff.mpr named] at unknown
    cases unknown
  · rename_i known
    have named := Kind.ofDatum_ok_iff.mp known
    split
    · rename_i refused
      exact .moded named refused
    · rename_i allowed
      split
      · rename_i refused
        exact .misplaced named allowed refused
      · rename_i accepted
        exact .taken named allowed accepted

theorem insert_ok {name : Text.Datum} {parent : Option Int} {mode : Option Mode} {block : Block}
    {later : Program} (ok : program.insert name parent mode = .ok (block, later)) :
    ∃ kind, modeRefusal? kind mode = none ∧ program.parentRefusal? kind parent = none ∧
      block = ⟨program.nextId, newContent kind⟩ ∧ later = program.append kind parent := by
  have inserts := program.insert_inserts name parent mode
  rw [ok] at inserts
  cases inserts with
  | taken _ allowed accepted => exact ⟨_, allowed, accepted, rfl, rfl⟩

inductive Edited (program : Program) : Edit → List Block × Program → Prop
  | refused (edit : Edit) : Edited program edit ([], program)
  | inserted {name : Text.Datum} {parent : Option Int} {mode : Option Mode} {kind : Kind}
      (allowed : modeRefusal? kind mode = none) (accepted : program.parentRefusal? kind parent = none) :
      Edited program (.insert name parent mode)
        ([⟨program.nextId, newContent kind⟩], program.append kind parent)
  | removed (id : Option Int) : Edited program (.remove id) ([], (program.remove id).2)
  | counted {id : Option Int} {value : Text.Datum} (target : Int) {count : Int}
      (bounded : 1 ≤ count ∧ count ≤ 20) : Edited program (.setCount id value)
        ([], { program with forest := program.forest.setCount target count })
  | pruned (family : Family) : Edited program (.prune family) ([], (program.prune family).2)
  | suited (mode : Mode) : Edited program (.pruneForMode mode) ([], (program.pruneForMode mode).2)
  | cleared : Edited program .clear ([], program.clear)

theorem edit_edited (program : Program) (edit : Edit) : program.Edited edit (program.edit edit) := by
  cases edit with
  | insert name parent mode =>
    rw [Program.edit]
    split
    · rename_i ok
      obtain ⟨kind, allowed, accepted, rfl, rfl⟩ := insert_ok ok
      exact .inserted allowed accepted
    · exact .refused _
  | remove id => exact .removed id
  | setCount id value =>
    rw [Program.edit]
    split
    · rename_i ok
      rcases setCount_ok ok with rfl | ⟨target, count, bounded, rfl⟩
      · exact .refused _
      · exact .counted target bounded
    · exact .refused _
  | prune family => exact .pruned family
  | pruneForMode mode => exact .suited mode
  | clear => exact .cleared

theorem Kept.edit (kept : program.Kept) (edit : Edit) : (program.edit edit).2.Kept := by
  have edited := program.edit_edited edit
  generalize program.edit edit = result at edited
  cases edited with
  | refused => exact kept
  | inserted _ accepted => exact kept.append accepted
  | removed id => exact kept.remove id
  | counted target bounded => exact kept.setCount target bounded
  | pruned family => exact prune_keeps Kept kept (fun _ id before => before.remove id) family
  | suited mode => exact pruneForMode_keeps Kept kept (fun _ id before => before.remove id) mode
  | cleared => exact kept.clear

theorem Kept.editAll (kept : program.Kept) (edits : List Edit) : (program.editAll edits).2.Kept := by
  induction edits generalizing program with
  | nil => exact kept
  | cons edit edits ih => exact ih (kept.edit edit)

theorem editAll_concat (program : Program) (edits : List Edit) (edit : Edit) :
    (program.editAll (edits ++ [edit])).2 = ((program.editAll edits).2.edit edit).2 := by
  induction edits generalizing program with
  | nil => rfl
  | cons first edits ih => exact ih (program.edit first).2

theorem remove_nextId (program : Program) (id : Option Int) :
    (program.remove id).2.nextId = program.nextId := by
  rw [remove]
  split <;> rfl

theorem edit_numbers (program : Program) (edit : Edit) :
    ((program.edit edit).1 = [] ∧ (program.edit edit).2.nextId = program.nextId) ∨
      ∃ block, (program.edit edit).1 = [block] ∧ block.id = program.nextId ∧
        (program.edit edit).2.nextId = program.nextId + 1 := by
  have removal (left : Program) (id : Option Int) (same : left.nextId = program.nextId) :
      (left.remove id).2.nextId = program.nextId := (left.remove_nextId id).trans same
  have edited := program.edit_edited edit
  generalize program.edit edit = result at edited
  cases edited with
  | refused => exact .inl ⟨rfl, rfl⟩
  | inserted => exact .inr ⟨_, rfl, rfl, rfl⟩
  | removed id => exact .inl ⟨rfl, removal program id rfl⟩
  | counted => exact .inl ⟨rfl, rfl⟩
  | pruned family => exact .inl ⟨rfl, prune_keeps (·.nextId = program.nextId) rfl removal family⟩
  | suited mode => exact .inl ⟨rfl, pruneForMode_keeps (·.nextId = program.nextId) rfl removal mode⟩
  | cleared => exact .inl ⟨rfl, rfl⟩

theorem editAll_numbers (program : Program) (edits : List Edit) :
    (program.editAll edits).1.map (·.id) = (List.range (program.editAll edits).1.length).map
      (fun before : Nat => program.nextId + before) ∧
    (program.editAll edits).2.nextId = program.nextId + (program.editAll edits).1.length := by
  induction edits generalizing program with
  | nil => exact ⟨rfl, (Int.add_zero _).symm⟩
  | cons edit edits ih =>
    obtain ⟨numbered, next⟩ := ih (program.edit edit).2
    simp only [editAll]
    rcases program.edit_numbers edit with ⟨none_inserted, same⟩ | ⟨block, inserted, number, later⟩
    · rw [same] at numbered next
      rw [none_inserted]
      exact ⟨numbered, next⟩
    · rw [later] at numbered next
      rw [inserted, List.singleton_append, List.map_cons, List.length_cons, numbered, number, next]
      refine ⟨?_, by omega⟩
      rw [List.range_succ_eq_map, List.map_cons, List.map_map]
      refine congrArg₂ List.cons (Int.add_zero _).symm (List.map_congr_left fun before _ => ?_)
      simp only [Function.comp, Nat.succ_eq_add_one]
      omega

/-- After any edits of a new program, refused ones included, the index knows just the blocks of the
forest and what is around each of them, the forest keeps to its rules, and the blocks inserted so far
were numbered from one in order. -/
theorem coherent_after_edits (edits : List Edit) :
    let (inserted, program) := editAll {} edits
    program.Coherent ∧ (∀ id ∈ program.forest.ids, id ∈ inserted.map (·.id)) ∧
      inserted.map (·.id) = (List.range inserted.length).map (fun before : Nat => (before : Int) + 1) ∧
      program.nextId = inserted.length + 1 := by
  obtain ⟨numbered, next⟩ := editAll_numbers {} edits
  have kept := kept_new.editAll edits
  generalize editAll {} edits = result at numbered next kept
  obtain ⟨inserted, program⟩ := result
  have counted : inserted.map (·.id) =
      (List.range inserted.length).map (fun before : Nat => (before : Int) + 1) :=
    numbered.trans (List.map_congr_left fun before _ => Int.add_comm 1 before)
  have following : program.nextId = inserted.length + 1 := next.trans (Int.add_comm 1 _)
  refine ⟨kept.coherent, fun id member => ?_, counted, following⟩
  have low : 0 < id := kept.orderly.lt_of_mem_ids member
  have high : id < program.nextId := kept.lt_nextId member
  rw [counted]
  refine List.mem_map.mpr ⟨(id - 1).toNat, List.mem_range.mpr ?_, ?_⟩ <;> omega

-- The second repetition is refused and uses up no number, and the block removed takes its own along.
example : (editAll {} [.insert (.text "repeat") none none, .insert (.text "until_goal") (some 1) none,
    .insert (.text "repeat") (some 2) none, .insert (.text "forward") (some 2) none, .remove (some 2),
    .insert (.text "turn_left") (some 1) none]).2.index = ⟨[4, 1], [(4, some 1), (1, none)]⟩ := by
  decide

end Program

end BlockMaze
