import BlockMaze.Program.Forest

/-! Forests one after the other, and forests block by block: what holds of none and of a first block
before the rest of its siblings holds of all. -/
namespace BlockMaze

def Content.withBody (body : Forest) : Content → Content
  | command c => command c
  | repeated count _ => repeated count body
  | guarded predicate _ => guarded predicate body

def Block.withBody (body : Forest) (block : Block) : Block :=
  { block with content := block.content.withBody body }

namespace Content

@[simp] theorem withBody_body (content : Content) : content.withBody content.body = content := by
  cases content <;> rfl

theorem body_withBody {content : Content} (encloses : content.isCommand = false) (body : Forest) :
    (content.withBody body).body = body := by
  cases content with
  | command c => cases encloses
  | repeated count old => rfl
  | guarded predicate old => rfl

@[simp] theorem isRepeated_withBody (body : Forest) (content : Content) :
    (content.withBody body).isRepeated = content.isRepeated := by
  cases content <;> rfl

@[simp] theorem isGuarded_withBody (body : Forest) (content : Content) :
    (content.withBody body).isGuarded = content.isGuarded := by
  cases content <;> rfl

end Content

namespace Forest

@[simp] theorem empty_append (forest : Forest) : empty ++ forest = forest := rfl

@[simp] theorem repeated_append (id count : Int) (body rest last : Forest) :
    repeated id count body rest ++ last = repeated id count body (rest ++ last) := rfl

section cons
variable {block : Block} {rest : Forest}

def cons (block : Block) (rest : Forest) : Forest :=
  match block.content with
  | .command c => command block.id c rest
  | .repeated count body => repeated block.id count body rest
  | .guarded predicate body => guarded block.id predicate body rest

@[elab_as_elim]
theorem blockwise {motive : Forest → Prop} (empty : motive .empty)
    (cons : ∀ block rest, motive block.content.body → motive rest → motive (.cons block rest))
    (forest : Forest) : motive forest := by
  induction forest with
  | empty => exact empty
  | command id c rest ih => exact cons ⟨id, .command c⟩ rest empty ih
  | repeated id count body rest body_ih rest_ih => exact cons ⟨id, .repeated count body⟩ rest body_ih rest_ih
  | guarded id predicate body rest body_ih rest_ih =>
    exact cons ⟨id, .guarded predicate body⟩ rest body_ih rest_ih

@[simp] theorem blocks_cons : (cons block rest).blocks = block :: rest.blocks := by
  rcases block with ⟨id, c | ⟨count, body⟩ | ⟨predicate, body⟩⟩ <;> rfl

@[simp] theorem walk_cons : (cons block rest).walk = block :: (block.content.body.walk ++ rest.walk) := by
  rcases block with ⟨id, c | ⟨count, body⟩ | ⟨predicate, body⟩⟩ <;> rfl

@[simp] theorem ids_cons :
    (cons block rest).ids = block.id :: (block.content.body.ids ++ rest.ids) := by
  simp [ids]

theorem distinct_cons (distinct : (cons block rest).ids.Nodup) :
    block.id ∉ block.content.body.ids ∧ block.id ∉ rest.ids ∧ block.content.body.ids.Nodup ∧
      rest.ids.Nodup ∧ ∀ id ∈ block.content.body.ids, id ∉ rest.ids := by
  rw [ids_cons, List.nodup_cons, List.mem_append, not_or, List.nodup_append] at distinct
  obtain ⟨⟨outside, elsewhere⟩, inside, after, apart⟩ := distinct
  exact ⟨outside, elsewhere, inside, after, fun id within later => apart id within id later rfl⟩

@[simp] theorem cons_append (last : Forest) : cons block rest ++ last = cons block (rest ++ last) := by
  rcases block with ⟨id, c | ⟨count, body⟩ | ⟨predicate, body⟩⟩ <;> rfl

theorem append_empty (forest : Forest) : forest ++ empty = forest := by
  induction forest using blockwise with
  | empty => rfl
  | cons block rest _ ih => rw [cons_append, ih]

theorem append_assoc (first second third : Forest) :
    first ++ second ++ third = first ++ (second ++ third) := by
  induction first using blockwise with
  | empty => rfl
  | cons block rest _ ih => rw [cons_append, cons_append, cons_append, ih]

theorem walk_append (first second : Forest) : (first ++ second).walk = first.walk ++ second.walk := by
  induction first using blockwise with
  | empty => rfl
  | cons block rest _ ih => rw [cons_append, walk_cons, walk_cons, ih, List.cons_append, List.append_assoc]

@[simp] theorem outlineFrom_cons (depth : Nat) : (cons block rest).outlineFrom depth =
    (depth, block) :: (block.content.body.outlineFrom (depth + 1) ++ rest.outlineFrom depth) := by
  rcases block with ⟨id, c | ⟨count, body⟩ | ⟨predicate, body⟩⟩ <;> rfl

theorem path?_cons_self : (cons block rest).path? block.id = some [block] := by
  rcases block with ⟨id, c | ⟨count, body⟩ | ⟨predicate, body⟩⟩ <;> simp [cons, path?]

theorem path?_cons_of_ne {target : Int} (other : block.id ≠ target) :
    (cons block rest).path? target = match block.content.body.path? target with
      | some inner => some (inner ++ [block])
      | none => rest.path? target := by
  rcases block with ⟨id, c | ⟨count, body⟩ | ⟨predicate, body⟩⟩
  · exact if_neg other
  · refine (if_neg other).trans ?_
    cases found : body.path? target <;> simp [Content.body, found]
  · refine (if_neg other).trans ?_
    cases found : body.path? target <;> simp [Content.body, found]

theorem onBody_cons_self (encloses : block.content.isCommand = false) (change : Forest → Forest) :
    (cons block rest).onBody block.id change =
      cons (block.withBody (change block.content.body)) rest := by
  rcases block with ⟨id, c | ⟨count, body⟩ | ⟨predicate, body⟩⟩
  · cases encloses
  · exact if_pos rfl
  · exact if_pos rfl

theorem onBody_cons_of_ne {target : Int} (other : block.id ≠ target) (change : Forest → Forest) :
    (cons block rest).onBody target change =
      cons (block.withBody (block.content.body.onBody target change)) (rest.onBody target change) := by
  rcases block with ⟨id, c | ⟨count, body⟩ | ⟨predicate, body⟩⟩
  · rfl
  · exact if_neg other
  · exact if_neg other

theorem without_cons_self : (cons block rest).without block.id = rest := by
  rcases block with ⟨id, c | ⟨count, body⟩ | ⟨predicate, body⟩⟩ <;> exact if_pos rfl

theorem without_cons_of_ne {target : Int} (other : block.id ≠ target) :
    (cons block rest).without target = cons block (rest.without target) := by
  rcases block with ⟨id, c | ⟨count, body⟩ | ⟨predicate, body⟩⟩ <;> exact if_neg other

end cons

theorem blocks_subset_walk (forest : Forest) : forest.blocks ⊆ forest.walk := by
  induction forest using blockwise with
  | empty => exact List.Subset.refl _
  | cons block rest _ ih =>
    intro other member
    rw [blocks_cons, List.mem_cons] at member
    rw [walk_cons, List.mem_cons, List.mem_append]
    exact member.imp_right fun later => .inr (ih later)

theorem isCommand_of_mem_body {block inner : Block} (member : inner ∈ block.content.body.walk) :
    block.content.isCommand = false := by
  rcases block with ⟨id, c | ⟨count, body⟩ | ⟨predicate, body⟩⟩
  · cases member
  · rfl
  · rfl

theorem body_walk_sublist {forest : Forest} {block : Block} (member : block ∈ forest.walk) :
    block.content.body.walk.Sublist forest.walk := by
  induction forest using blockwise with
  | empty => cases member
  | cons first rest body_ih rest_ih =>
    rw [walk_cons, List.mem_cons, List.mem_append] at member
    rw [walk_cons]
    rcases member with rfl | within | after
    · exact (List.sublist_append_left _ _).cons _
    · exact ((body_ih within).trans (List.sublist_append_left _ _)).cons _
    · exact ((rest_ih after).trans (List.sublist_append_right _ _)).cons _

theorem mem_ids_of_mem_walk {forest : Forest} {block : Block} (member : block ∈ forest.walk) :
    block.id ∈ forest.ids := List.mem_map_of_mem member

theorem body_ids_sublist {forest : Forest} {block : Block} (member : block ∈ forest.walk) :
    block.content.body.ids.Sublist forest.ids := (body_walk_sublist member).map _

theorem onBody_of_absent {forest : Forest} {target : Int} (absent : target ∉ forest.ids)
    (change : Forest → Forest) : forest.onBody target change = forest := by
  induction forest using blockwise with
  | empty => rfl
  | cons block rest body_ih rest_ih =>
    simp only [ids_cons, List.mem_cons, List.mem_append, not_or] at absent
    obtain ⟨other, outside, after⟩ := absent
    rw [onBody_cons_of_ne (Ne.symm other), body_ih outside, rest_ih after, Block.withBody,
      Content.withBody_body]

section onBody
variable {block : Block} {rest : Forest} {target : Int}

theorem onBody_inside (distinct : (cons block rest).ids.Nodup) (inside : target ∈ block.content.body.ids)
    (change : Forest → Forest) : (cons block rest).onBody target change =
      cons (block.withBody (block.content.body.onBody target change)) rest := by
  obtain ⟨outside, _, _, _, apart⟩ := distinct_cons distinct
  have other : block.id ≠ target := fun same => outside (same ▸ inside)
  rw [onBody_cons_of_ne other, onBody_of_absent (apart target inside)]

theorem onBody_later (distinct : (cons block rest).ids.Nodup) (after : target ∈ rest.ids)
    (change : Forest → Forest) :
    (cons block rest).onBody target change = cons block (rest.onBody target change) := by
  obtain ⟨_, elsewhere, _, _, apart⟩ := distinct_cons distinct
  have other : block.id ≠ target := fun same => elsewhere (same ▸ after)
  have absent : target ∉ block.content.body.ids := fun inside => apart target inside after
  rw [onBody_cons_of_ne other, onBody_of_absent absent, Block.withBody, Content.withBody_body]

end onBody

end Forest

end BlockMaze
