import BlockMaze.Proofs.Program.Path

/-! Which block holds which. Of all the numbers and the numbers around them, an edit changes those of the
blocks it edits and leaves the rest as they are. -/
namespace BlockMaze

/-- Every number with the number of the block that holds it; what `around` holds is at the top. -/
def Forest.holders (around : Option Int) : Forest → List (Int × Option Int)
  | empty => []
  | command id _ rest => (id, around) :: rest.holders around
  | repeated id _ body rest => (id, around) :: (body.holders (some id) ++ rest.holders around)
  | guarded id _ body rest => (id, around) :: (body.holders (some id) ++ rest.holders around)

def Block.holders (around : Option Int) (block : Block) : List (Int × Option Int) :=
  (block.id, around) :: block.content.body.holders (some block.id)

namespace Forest
variable {forest : Forest} {block : Block} {outer : List Block}

@[simp] theorem holders_cons (around : Option Int) (rest : Forest) :
    (cons block rest).holders around = block.holders around ++ rest.holders around := by
  rcases block with ⟨id, c | ⟨count, body⟩ | ⟨predicate, body⟩⟩ <;> rfl

theorem holders_withBody (encloses : block.content.isCommand = false) (around : Option Int)
    (body : Forest) :
    (block.withBody body).holders around = (block.id, around) :: body.holders (some block.id) := by
  rw [Block.holders, Block.withBody, Content.body_withBody encloses]

theorem holders_fst (forest : Forest) (around : Option Int) :
    (forest.holders around).map Prod.fst = forest.ids := by
  induction forest using blockwise generalizing around with
  | empty => rfl
  | cons block rest body_ih rest_ih => simp [Block.holders, body_ih, rest_ih]

theorem block_holders_fst (block : Block) (around : Option Int) :
    (block.holders around).map Prod.fst = block.ids :=
  congrArg (block.id :: ·) (holders_fst _ _)

@[simp] theorem holders_append (first second : Forest) (around : Option Int) :
    (first ++ second).holders around = first.holders around ++ second.holders around := by
  induction first using blockwise with
  | empty => rfl
  | cons block rest _ ih => rw [cons_append, holders_cons, holders_cons, ih, List.append_assoc]

@[simp] theorem holders_setCount (forest : Forest) (target value : Int) (around : Option Int) :
    (forest.setCount target value).holders around = forest.holders around := by
  induction forest generalizing around with
  | empty => rfl
  | command id c rest ih => simp [setCount, holders, ih]
  | repeated id count body rest body_ih rest_ih =>
    by_cases same : id = target <;> simp [setCount, same, holders, body_ih, rest_ih]
  | guarded id predicate body rest body_ih rest_ih => simp [setCount, holders, body_ih, rest_ih]

theorem Stands.mem_holders (stands : Stands forest block outer) (around : Option Int) :
    (block.id, (outer.head?.map (·.id)).or around) ∈ forest.holders around := by
  induction stands generalizing around with
  | here block rest => simp [Block.holders]
  | @inside first inner outer rest _ ih =>
    have held := ih (some first.id)
    cases outer with
    | nil => simpa [Block.holders] using .inr (.inl held)
    | cons innermost further => simpa [Block.holders] using .inr (.inl held)
  | later block _ ih => simpa using .inr (ih around)

theorem holders_without (distinct : forest.ids.Nodup) (member : block ∈ forest.blocks)
    (around : Option Int) : (forest.holders around).Perm
      (block.holders around ++ (forest.without block.id).holders around) := by
  induction forest using blockwise with
  | empty => cases member
  | cons first rest _ ih =>
    obtain ⟨_, elsewhere, _, inside, _⟩ := distinct_cons distinct
    rw [blocks_cons, List.mem_cons] at member
    rcases member with rfl | after
    · rw [without_cons_self, holders_cons]
    · have other : first.id ≠ block.id := fun same =>
        elsewhere (same ▸ mem_ids_of_mem_walk (blocks_subset_walk rest after))
      rw [without_cons_of_ne other, holders_cons, holders_cons]
      exact ((ih inside after).append_left _).trans (List.perm_append_comm_assoc _ _ _)

theorem holders_onBody (stands : Stands forest block outer) (distinct : forest.ids.Nodup)
    (encloses : block.content.isCommand = false) (change : Forest → Forest) (around : Option Int) :
    ∃ others,
      (forest.holders around).Perm (block.content.body.holders (some block.id) ++ others) ∧
      ((forest.onBody block.id change).holders around).Perm
        ((change block.content.body).holders (some block.id) ++ others) := by
  induction stands generalizing around with
  | here block rest =>
    refine ⟨(block.id, around) :: rest.holders around, ?_, ?_⟩
    · rw [holders_cons, Block.holders]
      exact List.perm_middle.symm
    · rw [onBody_cons_self encloses, holders_cons, holders_withBody encloses]
      exact List.perm_middle.symm
  | @inside first inner outer rest within ih =>
    obtain ⟨_, _, unmixed, _⟩ := distinct_cons distinct
    obtain ⟨others, before, after⟩ := ih unmixed encloses (some first.id)
    refine ⟨(first.id, around) :: others ++ rest.holders around, ?_, ?_⟩
    · rw [holders_cons, Block.holders]
      refine ((before.append_right _).cons _).trans ?_
      rw [List.append_assoc]
      exact List.perm_middle.symm
    · rw [onBody_inside distinct within.mem_ids, holders_cons, holders_withBody within.encloses]
      refine ((after.append_right _).cons _).trans ?_
      rw [List.append_assoc]
      exact List.perm_middle.symm
  | @later last outer rest first after ih =>
    obtain ⟨_, _, _, unmixed, _⟩ := distinct_cons distinct
    obtain ⟨others, before, later⟩ := ih unmixed encloses around
    refine ⟨first.holders around ++ others, ?_, ?_⟩
    · rw [holders_cons]
      exact (before.append_left _).trans (List.perm_append_comm_assoc _ _ _)
    · rw [onBody_later distinct after.mem_ids, holders_cons]
      exact (later.append_left _).trans (List.perm_append_comm_assoc _ _ _)

theorem holders_cut (stands : Stands forest block outer) (distinct : forest.ids.Nodup) :
    let parent := outer.head?.map (·.id)
    (forest.holders none).Perm (block.holders parent ++
      (forest.onSiblings parent (·.without block.id)).holders none) := by
  intro parent
  have member := stands.mem_blocks
  cases outer with
  | nil => exact holders_without distinct member none
  | cons around further =>
    have encloses := isCommand_of_mem_body (blocks_subset_walk _ member)
    have unmixed : around.content.body.ids.Nodup :=
      distinct.sublist (body_ids_sublist stands.parent.mem_walk)
    obtain ⟨others, before, after⟩ :=
      holders_onBody stands.parent distinct encloses (·.without block.id) none
    refine before.trans (((holders_without unmixed member (some around.id)).append_right others).trans ?_)
    rw [List.append_assoc]
    exact after.symm.append_left _

end Forest

end BlockMaze
