import BlockMaze.Proofs.Program.Edits
import BlockMaze.Proofs.Report.Act
import BlockMaze.Program.Edit

/-! Which insertions a program takes. The blocks around a parent are looked up in the index, and the rule on
nesting speaks of the whole forest; they agree, so that a block is taken exactly if the forest with it is well
nested. A refused insertion leaves everything as it was. -/
namespace BlockMaze

namespace Forest

/-- No repetition stands inside a repetition and no guarded block inside a guarded block, however deep. -/
structure WellNested (forest : Forest) : Prop where
  repeats : ∀ block ∈ forest.walk, block.content.isRepeated = true →
    ∀ inner ∈ block.content.body.walk, inner.content.isRepeated = false
  guards : ∀ block ∈ forest.walk, block.content.isGuarded = true →
    ∀ inner ∈ block.content.body.walk, inner.content.isGuarded = false

/-- The second forest is the first with one more block, which comes last at the top level or last of what the
parent encloses. -/
inductive Gains (new : Block) : Option Int → Forest → Forest → Prop
  | top (forest : Forest) : Gains new none forest (forest ++ cons new empty)
  | here (parent : Block) (rest : Forest) (encloses : parent.content.isCommand = false) :
      Gains new (some parent.id) (cons parent rest)
        (cons (parent.withBody (parent.content.body ++ cons new empty)) rest)
  | inside {id : Int} {body : Forest} (block : Block) (rest : Forest)
      (within : Gains new (some id) block.content.body body) :
      Gains new (some id) (cons block rest) (cons (block.withBody body) rest)
  | later {id : Int} {rest longer : Forest} (block : Block) (after : Gains new (some id) rest longer) :
      Gains new (some id) (cons block rest) (cons block longer)

variable {forest later : Forest} {new block : Block} {outer : List Block}

theorem Stands.gains (stands : Stands forest block outer) (distinct : forest.ids.Nodup)
    (encloses : block.content.isCommand = false) (new : Block) :
    Gains new (some block.id) forest (forest.onBody block.id (· ++ cons new empty)) := by
  induction stands with
  | here block rest =>
    rw [onBody_cons_self encloses]
    exact .here block rest encloses
  | inside rest within ih =>
    obtain ⟨_, _, unmixed, _⟩ := distinct_cons distinct
    rw [onBody_inside distinct within.mem_ids]
    exact .inside _ rest (ih unmixed encloses)
  | later first after ih =>
    obtain ⟨_, _, _, unmixed, _⟩ := distinct_cons distinct
    rw [onBody_later distinct after.mem_ids]
    exact .later first (ih unmixed encloses)

theorem Gains.exists_parent {id : Int} (gains : Gains new (some id) forest later) :
    ∃ block ∈ forest.walk, block.id = id ∧ block.content.isCommand = false := by
  generalize named : some id = parent at gains
  induction gains with
  | top forest => cases named
  | here parent rest encloses =>
    cases named
    exact ⟨parent, by simp, rfl, encloses⟩
  | inside block rest _ ih =>
    obtain ⟨parent, member, found⟩ := ih named
    exact ⟨parent, by simp [member], found⟩
  | later block _ ih =>
    obtain ⟨parent, member, found⟩ := ih named
    exact ⟨parent, by simp [member], found⟩

/-- As long as no number occurs twice, there is one place for a block to be gained. -/
theorem Gains.eq_onSiblings {parent : Option Int} (gains : Gains new parent forest later)
    (distinct : forest.ids.Nodup) : later = forest.onSiblings parent (· ++ cons new empty) := by
  induction gains with
  | top forest => rfl
  | here parent rest encloses => exact (onBody_cons_self encloses (· ++ cons new empty)).symm
  | inside block rest within ih =>
    obtain ⟨_, _, unmixed, _⟩ := distinct_cons distinct
    obtain ⟨around, member, rfl, _⟩ := within.exists_parent
    rw [ih unmixed]
    exact (onBody_inside distinct (mem_ids_of_mem_walk member) _).symm
  | later block after ih =>
    obtain ⟨_, _, _, unmixed, _⟩ := distinct_cons distinct
    obtain ⟨around, member, rfl, _⟩ := after.exists_parent
    rw [ih unmixed]
    exact (onBody_later distinct (mem_ids_of_mem_walk member) _).symm

theorem Stands.exists_around (stands : Stands forest block outer) (distinct : forest.ids.Nodup)
    (encloses : block.content.isCommand = false) (change : Forest → Forest) :
    ∀ around ∈ block :: outer, ∃ same ∈ (forest.onBody block.id change).walk,
      same.content.isRepeated = around.content.isRepeated ∧
      same.content.isGuarded = around.content.isGuarded ∧
      (change block.content.body).walk ⊆ same.content.body.walk := by
  induction stands with
  | here block rest =>
    intro around member
    obtain rfl := List.mem_singleton.mp member
    rw [onBody_cons_self encloses]
    refine ⟨around.withBody (change around.content.body), by simp, Content.isRepeated_withBody _ _,
      Content.isGuarded_withBody _ _, ?_⟩
    rw [Block.withBody, Content.body_withBody encloses]
    exact List.Subset.refl _
  | @inside first inner outer rest within ih =>
    obtain ⟨_, _, unmixed, _⟩ := distinct_cons distinct
    have deeper := ih unmixed encloses
    rw [onBody_inside distinct within.mem_ids, walk_cons, Block.withBody,
      Content.body_withBody within.encloses]
    intro around member
    rw [← List.cons_append, List.mem_append, List.mem_singleton] at member
    rcases member with near | rfl
    · obtain ⟨same, known, alike⟩ := deeper around near
      exact ⟨same, List.mem_cons_of_mem _ (List.mem_append_left _ known), alike⟩
    · obtain ⟨same, known, _, _, holds⟩ := deeper inner List.mem_cons_self
      refine ⟨_, List.mem_cons_self, Content.isRepeated_withBody _ _, Content.isGuarded_withBody _ _, ?_⟩
      rw [Content.body_withBody within.encloses]
      exact List.Subset.trans holds (body_walk_sublist known).subset
  | later first after ih =>
    obtain ⟨_, _, _, unmixed, _⟩ := distinct_cons distinct
    rw [onBody_later distinct after.mem_ids, walk_cons]
    intro around member
    obtain ⟨same, known, alike⟩ := ih unmixed encloses around member
    exact ⟨same, List.mem_cons_of_mem _ (List.mem_append_right _ known), alike⟩

end Forest

namespace Program

/-- What it takes to insert a block of some kind: a mode that allows it, a place for it, and rules on nesting
that hold with the block in this place. -/
structure Insertable (program : Program) (kind : Kind) (parent : Option Int) (mode : Option Mode) :
    Prop where
  allowed : ∀ given ∈ mode, given.allows kind = true
  held : ∀ id ∈ parent, ∃ block ∈ program.forest.walk, block.id = id ∧ block.content.isCommand = false
  nested : ∃ later, Forest.Gains ⟨program.nextId, newContent kind⟩ parent program.forest later ∧
    later.WellNested

variable {program : Program} {kind : Kind} {parent : Option Int}

theorem Kept.wellNested (kept : program.Kept) : program.forest.WellNested :=
  ⟨kept.coherent.repeats, kept.coherent.guards⟩

theorem append_forest (program : Program) (kind : Kind) (parent : Option Int) :
    (program.append kind parent).forest =
      program.forest.onSiblings parent (· ++ .cons ⟨program.nextId, newContent kind⟩ .empty) := by
  rw [append, single_eq_cons]

theorem Kept.gains_append (kept : program.Kept) (accepted : program.parentRefusal? kind parent = none) :
    Forest.Gains ⟨program.nextId, newContent kind⟩ parent program.forest
      (program.append kind parent).forest := by
  rw [append_forest]
  cases parent with
  | none => exact .top program.forest
  | some id =>
    obtain ⟨block, outer, rfl, stands, encloses, _⟩ := kept.accepted_parent accepted
    exact stands.gains kept.distinct encloses _

theorem nestingRefusal?_of_wellNested {block : Block} {outer : List Block}
    (distinct : program.forest.ids.Nodup) (stands : program.forest.Stands block outer)
    (encloses : block.content.isCommand = false)
    (nested : (program.append kind (some block.id)).forest.WellNested) :
    nestingRefusal? kind (block :: outer) = none := by
  rw [append_forest] at nested
  have around := stands.exists_around distinct encloses
    (· ++ .cons ⟨program.nextId, newContent kind⟩ .empty)
  have inside : (⟨program.nextId, newContent kind⟩ : Block) ∈
      (block.content.body ++ .cons ⟨program.nextId, newContent kind⟩ .empty).walk := by
    simp [Forest.walk_append]
  cases kind with
  | command c => rfl
  | repeated =>
    have outermost : (block :: outer).any (·.content.isRepeated) = false := by
      rw [List.any_eq_false]
      intro other member sort
      obtain ⟨same, known, alike, _, holds⟩ := around other member
      cases nested.repeats same known (alike.trans sort) _ (holds inside)
    exact if_neg (Bool.eq_false_iff.mp outermost)
  | guarded predicate =>
    have outermost : (block :: outer).any (·.content.isGuarded) = false := by
      rw [List.any_eq_false]
      intro other member sort
      obtain ⟨same, known, _, alike, holds⟩ := around other member
      cases nested.guards same known (alike.trans sort) _ (holds inside)
    exact if_neg (Bool.eq_false_iff.mp outermost)

theorem Kept.insertable_iff (kept : program.Kept) {mode : Option Mode} :
    program.Insertable kind parent mode ↔
      modeRefusal? kind mode = none ∧ program.parentRefusal? kind parent = none := by
  rw [modeRefusal?_eq_none_iff]
  constructor
  · rintro ⟨allowed, held, later, gains, nested⟩
    refine ⟨allowed, ?_⟩
    cases parent with
    | none => rfl
    | some id =>
      obtain ⟨block, member, rfl, encloses⟩ := held id rfl
      obtain ⟨outer, stands⟩ := Forest.exists_stands_of_mem_walk member
      rw [gains.eq_onSiblings kept.distinct, ← append_forest] at nested
      simp only [parentRefusal?, (kept.find?_iff _).mpr ⟨member, rfl⟩, encloses, kept.ancestors_eq stands]
      exact nestingRefusal?_of_wellNested kept.distinct stands encloses nested
  · rintro ⟨allowed, accepted⟩
    refine ⟨allowed, ?_, _, kept.gains_append accepted, (kept.append accepted).wellNested⟩
    rintro id rfl
    exact (kept.gains_append accepted).exists_parent

theorem Kept.isUnknownReference_iff (kept : program.Kept) {refusal : Refusal}
    (refused : program.parentRefusal? kind parent = some refusal) :
    refusal.isUnknownReference = true ↔ ∃ id, parent = some id ∧ id ∉ program.forest.ids := by
  cases parent with
  | none => cases refused
  | some id =>
    cases found : program.find? (some id) with
    | none =>
      have absent := (kept.find?_eq_none_iff id).mp found
      rw [parentRefusal?, found] at refused
      cases refused
      exact iff_of_true rfl ⟨id, rfl, absent⟩
    | some block =>
      obtain ⟨member, rfl⟩ := (kept.find?_iff id).mp found
      have live := Forest.mem_ids_of_mem_walk member
      have known : ¬ ∃ other, some block.id = some other ∧ other ∉ program.forest.ids := by
        rintro ⟨_, same, absent⟩
        cases same
        exact absent live
      rw [parentRefusal?, found] at refused
      refine iff_of_false ?_ known
      dsimp only at refused
      split at refused
      · cases refused
        exact Bool.false_ne_true
      · cases kind <;> simp only [nestingRefusal?] at refused
        · cases refused
        all_goals
          split at refused <;> cases refused
          exact Bool.false_ne_true

theorem insert_told (program : Program) (name : Text.Datum) (parent : Option Int) (mode : Option Mode) :
    (Edits.insert name parent mode program).value = match program.insert name parent mode with
      | .ok (block, later) => (.ok block, later)
      | .error refusal => (.error refusal, program) := by
  cases given : program.insert name parent mode <;> simp [Edits.insert, given]

theorem isUnknownReference_of_modeRefusal? {mode : Option Mode} {refusal : Refusal}
    (refused : modeRefusal? kind mode = some refusal) : refusal.isUnknownReference = false := by
  cases mode with
  | none => cases refused
  | some given =>
    rw [modeRefusal?] at refused
    split at refused
    · cases refused
    · split at refused <;> cases refused <;> rfl

/-- Whatever edits a program came from, it takes a block exactly if the name is that of a kind, the mode
allows it, there is a place for it, and the forest with the block in this place is well nested. Then the
forest is this one, and the index has one more entry. Otherwise nothing changes, and an unknown reference is
told of only if the kind is known and allowed and no block has the number of the parent. -/
theorem taken_iff_insertable (edits : List Edit) (name : Text.Datum) (parent : Option Int)
    (mode : Option Mode) :
    let program := (editAll {} edits).2
    let told := Edits.insert name parent mode program
    ((∃ block, told.value.1 = .ok block) ↔
      ∃ kind : Kind, name = .text kind.name ∧ program.Insertable kind parent mode) ∧
    match told.value with
    | (.ok block, later) => ∃ kind : Kind, name = .text kind.name ∧
        block = ⟨program.nextId, newContent kind⟩ ∧
        (∀ forest, Forest.Gains block parent program.forest forest ↔ forest = later.forest) ∧
        later.index.numbers = program.nextId :: program.index.numbers ∧
        later.index.around = (program.nextId, parent) :: program.index.around ∧
        later.nextId = program.nextId + 1
    | (.error refusal, later) => later = program ∧
        (refusal.isUnknownReference = true ↔ ∃ kind : Kind, name = .text kind.name ∧
          (∀ given ∈ mode, given.allows kind = true) ∧
          ∃ id, parent = some id ∧ id ∉ program.forest.ids) := by
  intro program told
  have kept : program.Kept := kept_new.editAll edits
  have value : told.value = _ := insert_told program name parent mode
  have inserts := program.insert_inserts name parent mode
  have same_kind {kind other : Kind} (named : name = .text kind.name) (also : name = .text other.name) :
      other = kind := by
    have known := Kind.ofDatum_ok_iff.mpr named
    rw [Kind.ofDatum_ok_iff.mpr also] at known
    exact Except.ok.inj known
  generalize program.insert name parent mode = result at value inserts
  rw [value]
  cases inserts with
  | unnamed unknown =>
    refine ⟨iff_of_false nofun ?_, rfl, iff_of_false nofun ?_⟩ <;>
    · rintro ⟨kind, named, _⟩
      exact unknown kind named
  | moded named refused =>
    have forbidden : ¬ ∀ given ∈ mode, given.allows _ = true := fun allowed => by
      cases refused.symm.trans (modeRefusal?_eq_none_iff.mpr allowed)
    refine ⟨iff_of_false nofun ?_, rfl, iff_of_false ?_ ?_⟩
    · rintro ⟨other, also, insertable⟩
      exact forbidden (same_kind named also ▸ insertable.allowed)
    · simp [isUnknownReference_of_modeRefusal? refused]
    · rintro ⟨other, also, allowed, _⟩
      exact forbidden (same_kind named also ▸ allowed)
  | @misplaced kind refusal named moded refused =>
    refine ⟨iff_of_false nofun ?_, rfl, ?_⟩
    · rintro ⟨other, also, insertable⟩
      obtain rfl := same_kind named also
      cases refused.symm.trans (kept.insertable_iff.mp insertable).2
    · rw [kept.isUnknownReference_iff refused]
      refine ⟨fun absent => ⟨kind, named, modeRefusal?_eq_none_iff.mp moded, absent⟩, ?_⟩
      rintro ⟨_, _, _, absent⟩
      exact absent
  | @taken kind named moded accepted =>
    have gained := kept.gains_append accepted
    have insertable := kept.insertable_iff.mpr ⟨moded, accepted⟩
    refine ⟨iff_of_true ⟨_, rfl⟩ ⟨kind, named, insertable⟩, kind, named, rfl, fun forest => ?_, rfl, rfl,
      rfl⟩
    refine ⟨fun gains => ?_, fun same => same ▸ gained⟩
    exact (gains.eq_onSiblings kept.distinct).trans (gained.eq_onSiblings kept.distinct).symm

-- A guarded block may stand in a repetition, but then no repetition in the guarded block.
example :
    let mixed := (editAll {} [.insert (.text "repeat") none none,
      .insert (.text "until_goal") (some 1) (some .conditions)]).2
    mixed.insert (.text "repeat") (some 2) none = .error .nestedRepeat ∧
      (mixed.insert (.text "forward") (some 2) (some .basic)).isOk = true := by
  decide

end Program

end BlockMaze
