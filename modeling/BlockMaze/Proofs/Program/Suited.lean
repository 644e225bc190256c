import BlockMaze.Proofs.Program.Sift

/-! Programs that suit a mode: all their blocks are of kinds that the mode takes. Every edit made in that
mode keeps it so, and a suited program has blocks inside others on one level only. -/
namespace BlockMaze

namespace Forest
variable {block : Block} {rest last : Forest} {target : Int}

def kinds (forest : Forest) : List Kind := forest.walk.map (·.content.kind)

@[simp] theorem kinds_empty : empty.kinds = [] := rfl

@[simp] theorem kinds_cons : (cons block rest).kinds =
    block.content.kind :: (block.content.body.kinds ++ rest.kinds) := by
  simp [kinds]

theorem kinds_withBody (block : Block) (body : Forest) :
    (block.withBody body).content.body.kinds ⊆ body.kinds := by
  rcases block with ⟨id, c | ⟨count, old⟩ | ⟨predicate, old⟩⟩
  · exact List.nil_subset _
  · exact List.Subset.refl _
  · exact List.Subset.refl _

theorem kinds_sift_subset (keep : Int → Kind → Bool) (forest : Forest) :
    (forest.sift keep).kinds ⊆ forest.kinds := by
  induction forest using blockwise with
  | empty => exact List.Subset.refl _
  | cons block rest body_ih rest_ih =>
    intro kind member
    rw [kinds_cons, List.mem_cons, List.mem_append]
    cases kept : keep block.id block.content.kind with
    | false =>
      rw [sift_cons_of_drop kept] at member
      exact .inr (.inr (rest_ih member))
    | true =>
      rw [sift_cons_of_keep kept, kinds_cons, List.mem_cons, List.mem_append] at member
      rcases member with rfl | within | later
      · exact .inl (Content.kind_withBody _ _)
      · exact .inr (.inl (body_ih (kinds_withBody _ _ within)))
      · exact .inr (.inr (rest_ih later))

theorem kinds_append (forest last : Forest) : (forest ++ last).kinds = forest.kinds ++ last.kinds := by
  rw [kinds, walk_append, List.map_append, ← kinds, ← kinds]

theorem kinds_onBody_subset (forest : Forest) :
    (forest.onBody target (· ++ last)).kinds ⊆ forest.kinds ++ last.kinds := by
  induction forest using blockwise with
  | empty => exact List.nil_subset _
  | cons block rest body_ih rest_ih =>
    intro kind member
    rw [kinds_cons, List.mem_append, List.mem_cons, List.mem_append]
    by_cases here : block.id = target ∧ block.content.isCommand = false
    · obtain ⟨rfl, encloses⟩ := here
      rw [onBody_cons_self encloses, kinds_cons, List.mem_cons, List.mem_append] at member
      rcases member with rfl | within | later
      · exact .inl (.inl (Content.kind_withBody _ _))
      · have inside := kinds_withBody _ _ within
        rw [kinds_append, List.mem_append] at inside
        exact inside.imp_left fun old => .inr (.inl old)
      · exact .inl (.inr (.inr later))
    · have elsewhere : (cons block rest).onBody target (· ++ last) =
          cons (block.withBody (block.content.body.onBody target (· ++ last)))
            (rest.onBody target (· ++ last)) := by
        by_cases same : block.id = target
        · -- a command with this number encloses nothing that could be changed
          rcases block with ⟨id, c | ⟨count, body⟩ | ⟨predicate, body⟩⟩
          · rfl
          · exact absurd ⟨same, rfl⟩ here
          · exact absurd ⟨same, rfl⟩ here
        · exact onBody_cons_of_ne same _
      rw [elsewhere, kinds_cons, List.mem_cons, List.mem_append] at member
      rcases member with rfl | within | later
      · exact .inl (.inl (Content.kind_withBody _ _))
      · exact (List.mem_append.mp (body_ih (kinds_withBody _ _ within))).imp_left fun old => .inr (.inl old)
      · exact (List.mem_append.mp (rest_ih later)).imp_left fun old => .inr (.inr old)

theorem kinds_setCount (forest : Forest) (target value : Int) :
    (forest.setCount target value).kinds = forest.kinds := by
  induction forest with
  | empty => rfl
  | command id c rest ih => exact congrArg (.command c :: ·) ih
  | repeated id count body rest body_ih rest_ih =>
    have split (count : Int) (body rest : Forest) :
        (repeated id count body rest).kinds = .repeated :: (body.kinds ++ rest.kinds) :=
      @kinds_cons ⟨id, .repeated count body⟩ rest
    by_cases same : id = target
    · rw [setCount, if_pos same, split, split]
    · rw [setCount, if_neg same, split, split, body_ih, rest_ih]
  | guarded id predicate body rest body_ih rest_ih =>
    have split (body rest : Forest) :
        (guarded id predicate body rest).kinds = .guarded predicate :: (body.kinds ++ rest.kinds) :=
      @kinds_cons ⟨id, .guarded predicate body⟩ rest
    rw [setCount, split, split, body_ih, rest_ih]

end Forest

/-- Whether an edit is made in a mode. Only insertions ask for one. -/
def Edit.Within (mode : Mode) : Edit → Prop
  | .insert _ _ asked => asked = some mode
  | _ => True

namespace Program

structure Suits (mode : Mode) (program : Program) : Prop where
  kept : program.Kept
  allowed : ∀ kind ∈ program.forest.kinds, mode.allows kind = true

variable {program : Program} {mode : Mode}

theorem Kept.suits_pruneForMode (kept : program.Kept) (mode : Mode) :
    (program.pruneForMode mode).2.Suits mode := by
  refine ⟨kept.edit (.pruneForMode mode), ?_⟩
  rw [kept.pruneForMode_forest]
  intro kind member
  obtain ⟨block, left, rfl⟩ := List.mem_map.mp member
  exact Forest.keep_of_mem_sift left

theorem prune_of_uncovered {family : Family}
    (uncovered : ∀ block ∈ program.forest.walk, family.takes block.content.kind = false) :
    program.prune family = (0, program) := by
  have none_doomed : program.forest.walk.filter (family.covers ·.content) = [] := by
    apply List.filter_eq_nil_iff.mpr
    intro block member
    simp [family.covers_eq_takes, uncovered block member]
  rw [prune, none_doomed]
  rfl

theorem Suits.pruneForMode_eq (suits : program.Suits mode) :
    program.pruneForMode mode = (0, program) := by
  have uncovered {family : Family} (apart : ∀ kind, mode.allows kind = true → family.takes kind = false) :
      program.prune family = (0, program) :=
    prune_of_uncovered fun block member => apart _ (suits.allowed _ (List.mem_map_of_mem member))
  cases mode with
  | basic =>
    have no_repeats := @uncovered .repeats (by rintro (_ | _ | _) <;> simp [Mode.allows, Family.takes])
    have no_guards := @uncovered .guards (by rintro (_ | _ | _) <;> simp [Mode.allows, Family.takes])
    simp [pruneForMode, no_repeats, no_guards]
  | conditions =>
    have no_repeats := @uncovered .repeats (by rintro (_ | _ | _) <;> simp [Mode.allows, Family.takes])
    simp [pruneForMode, no_repeats]
  | loop =>
    have no_guards := @uncovered .guards (by rintro (_ | _ | _) <;> simp [Mode.allows, Family.takes])
    simp [pruneForMode, no_guards]

theorem Suits.of_subset (suits : program.Suits mode) {later : Program} (kept : later.Kept)
    (fewer : later.forest.kinds ⊆ program.forest.kinds) : later.Suits mode :=
  ⟨kept, fun kind member => suits.allowed kind (fewer member)⟩

theorem kinds_append_subset (program : Program) (kind : Kind) (parent : Option Int) :
    (program.append kind parent).forest.kinds ⊆ program.forest.kinds ++ [kind] := by
  have added : (Forest.single program.nextId kind startCount).kinds = [kind] := by cases kind <;> rfl
  rw [← added, append]
  cases parent with
  | none => exact fun kind member => Forest.kinds_append _ _ ▸ member
  | some id => exact Forest.kinds_onBody_subset _

theorem Suits.edit (suits : program.Suits mode) {edit : Edit} (within : edit.Within mode) :
    (program.edit edit).2.Suits mode := by
  have kept := suits.kept.edit edit
  have edited := program.edit_edited edit
  generalize program.edit edit = result at kept edited
  cases edited with
  | refused => exact suits
  | @inserted _ _ asked _ unrefused _ =>
    obtain rfl : asked = some mode := within
    have taken := modeRefusal?_eq_none_iff.mp unrefused mode rfl
    refine ⟨kept, fun other member => ?_⟩
    rcases List.mem_append.mp (kinds_append_subset _ _ _ member) with old | new
    · exact suits.allowed other old
    · exact List.mem_singleton.mp new ▸ taken
  | removed id =>
    cases id with
    | none => exact suits
    | some id =>
      apply suits.of_subset kept
      rw [suits.kept.remove_forest]
      exact Forest.kinds_sift_subset _ _
  | @counted _ _ target count _ =>
    exact suits.of_subset kept fun kind member => Forest.kinds_setCount _ target count ▸ member
  | pruned family =>
    apply suits.of_subset kept
    rw [suits.kept.prune_forest]
    exact Forest.kinds_sift_subset _ _
  | suited other =>
    apply suits.of_subset kept
    rw [suits.kept.pruneForMode_forest]
    exact Forest.kinds_sift_subset _ _
  | cleared => exact ⟨kept, fun kind member => absurd member List.not_mem_nil⟩

/-- No mode takes both sorts of blocks that enclose others, and none of a sort stands in another. -/
theorem Suits.depth_le (suits : program.Suits mode) {row : Nat × Block}
    (member : row ∈ program.forest.outline) : row.1 + (!row.2.content.isCommand).toNat ≤ 1 := by
  have sorts : ∀ block ∈ program.forest.walk,
      (block.content.isRepeated = true → (mode != .loop) = false) ∧
      (block.content.isGuarded = true → (mode == .loop) = false) := by
    intro block live
    have taken := suits.allowed _ (List.mem_map_of_mem live)
    cases mode <;> cases content : block.content <;> rw [content] at taken <;>
      simp_all [Content.kind, Mode.allows, Content.isRepeated, Content.isGuarded]
  have orderly := suits.kept.orderly.around (fun block live => (sorts block live).1)
    fun block live => (sorts block live).2
  have shallow := orderly.depth_le member
  have one_sort : (mode != .loop).toNat + (mode == .loop).toNat = 1 := by cases mode <;> rfl
  omega

end Program

end BlockMaze
