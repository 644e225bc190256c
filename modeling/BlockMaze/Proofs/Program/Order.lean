import BlockMaze.Proofs.Program.Holders

/-! How blocks are ordered, nested and counted. The rules speak of each block with the one before it, and
of what is around it only whether there is a repetition or a guarded block. -/
namespace BlockMaze

/-- What the blocks around it ask of a block. -/
def Content.Fits (inRepeat inGuard : Bool) : Content → Prop
  | command _ => True
  | repeated count _ => inRepeat = false ∧ 1 ≤ count ∧ count ≤ 20
  | guarded _ _ => inGuard = false

/-- Numbers above `low` that rise from sibling to sibling and from a block to what it encloses, no block
in another of its sort, and counts in their bounds. -/
def Forest.Orderly (low : Int) (inRepeat inGuard : Bool) : Forest → Prop
  | empty => True
  | command id _ rest => low < id ∧ rest.Orderly id inRepeat inGuard
  | repeated id count body rest => low < id ∧ (inRepeat = false ∧ 1 ≤ count ∧ count ≤ 20) ∧
      body.Orderly id true inGuard ∧ rest.Orderly id inRepeat inGuard
  | guarded id _ body rest => low < id ∧ inGuard = false ∧
      body.Orderly id inRepeat true ∧ rest.Orderly id inRepeat inGuard

theorem Content.fits_withBody {inRepeat inGuard : Bool} (content : Content) (body : Forest) :
    (content.withBody body).Fits inRepeat inGuard ↔ content.Fits inRepeat inGuard := by
  cases content <;> rfl

namespace Forest
variable {forest : Forest} {low : Int} {inRepeat inGuard : Bool}

theorem orderly_cons (block : Block) (rest : Forest) :
    (cons block rest).Orderly low inRepeat inGuard ↔
      low < block.id ∧ block.content.Fits inRepeat inGuard ∧
      block.content.body.Orderly block.id (inRepeat || block.content.isRepeated)
        (inGuard || block.content.isGuarded) ∧
      rest.Orderly block.id inRepeat inGuard := by
  rcases block with ⟨id, c | ⟨count, body⟩ | ⟨predicate, body⟩⟩ <;>
    simp [cons, Orderly, Content.Fits, Content.body, Content.isRepeated, Content.isGuarded]

theorem Orderly.above {lower : Int} (orderly : forest.Orderly low inRepeat inGuard)
    (below : lower ≤ low) : forest.Orderly lower inRepeat inGuard := by
  induction forest using blockwise with
  | empty => trivial
  | cons block rest _ _ =>
    rw [orderly_cons] at orderly ⊢
    exact ⟨Int.lt_of_le_of_lt below orderly.1, orderly.2⟩

theorem Orderly.lt_of_mem_ids (orderly : forest.Orderly low inRepeat inGuard) {id : Int}
    (member : id ∈ forest.ids) : low < id := by
  induction forest using blockwise generalizing low inRepeat inGuard with
  | empty => cases member
  | cons block rest body_ih rest_ih =>
    rw [orderly_cons] at orderly
    obtain ⟨first, _, inside, after⟩ := orderly
    rw [ids_cons, List.mem_cons, List.mem_append] at member
    rcases member with rfl | within | later
    · exact first
    · exact Int.lt_trans first (body_ih inside within)
    · exact Int.lt_trans first (rest_ih after later)

theorem Orderly.holder_lt (orderly : forest.Orderly low inRepeat inGuard) {around : Option Int}
    (outside : ∀ outer, around = some outer → outer ≤ low) {entry : Int × Option Int}
    (member : entry ∈ forest.holders around) {outer : Int} (held : entry.2 = some outer) :
    outer < entry.1 := by
  induction forest using blockwise generalizing low inRepeat inGuard around with
  | empty => cases member
  | cons block rest body_ih rest_ih =>
    rw [orderly_cons] at orderly
    obtain ⟨above, _, inside, after⟩ := orderly
    rw [holders_cons, Block.holders, List.mem_append, List.mem_cons] at member
    rcases member with (rfl | within) | later
    · exact Int.lt_of_le_of_lt (outside outer held) above
    · exact body_ih inside (fun other same => Int.le_of_eq (Option.some.inj same).symm) within
    · exact rest_ih after (fun other same => Int.le_of_lt (Int.lt_of_le_of_lt (outside other same) above))
        later

theorem Orderly.of_mem_walk (orderly : forest.Orderly low inRepeat inGuard) {block : Block}
    (member : block ∈ forest.walk) : ∃ aroundRepeat aroundGuard,
      block.content.Fits aroundRepeat aroundGuard ∧
      block.content.body.Orderly block.id (aroundRepeat || block.content.isRepeated)
        (aroundGuard || block.content.isGuarded) ∧
      (inRepeat = true → aroundRepeat = true) ∧ (inGuard = true → aroundGuard = true) := by
  induction forest using blockwise generalizing low inRepeat inGuard with
  | empty => cases member
  | cons first rest body_ih rest_ih =>
    rw [orderly_cons] at orderly
    obtain ⟨_, fits, inside, after⟩ := orderly
    rw [walk_cons, List.mem_cons, List.mem_append] at member
    rcases member with rfl | within | later
    · exact ⟨inRepeat, inGuard, fits, inside, id, id⟩
    · obtain ⟨aroundRepeat, aroundGuard, held, further, repeats, guards⟩ := body_ih inside within
      exact ⟨aroundRepeat, aroundGuard, held, further, fun known => repeats (by simp [known]),
        fun known => guards (by simp [known])⟩
    · exact rest_ih after later

theorem Orderly.not_isRepeated (orderly : forest.Orderly low true inGuard) {block : Block}
    (member : block ∈ forest.walk) : block.content.isRepeated = false := by
  obtain ⟨aroundRepeat, _, fits, _, repeats, _⟩ := orderly.of_mem_walk member
  cases content : block.content with
  | command c => rfl
  | repeated count body =>
    rw [content, repeats rfl] at fits
    cases fits.1
  | guarded predicate body => rfl

theorem Orderly.not_isGuarded (orderly : forest.Orderly low inRepeat true) {block : Block}
    (member : block ∈ forest.walk) : block.content.isGuarded = false := by
  obtain ⟨_, aroundGuard, fits, _, _, guards⟩ := orderly.of_mem_walk member
  cases content : block.content with
  | command c => rfl
  | repeated count body => rfl
  | guarded predicate body =>
    rw [content, guards rfl] at fits
    cases fits

theorem Orderly.blocks_rising (orderly : forest.Orderly low inRepeat inGuard) :
    (low :: forest.blocks.map (·.id)).Pairwise (· < ·) := by
  induction forest using blockwise generalizing low with
  | empty => exact List.pairwise_singleton _ _
  | cons block rest _ ih =>
    rw [orderly_cons] at orderly
    obtain ⟨first, _, _, after⟩ := orderly
    have rising := ih after
    rw [blocks_cons, List.map_cons, List.pairwise_cons]
    refine ⟨fun id member => ?_, rising⟩
    rcases List.mem_cons.mp member with rfl | later
    · exact first
    · exact Int.lt_trans first (List.rel_of_pairwise_cons rising later)

/-- There are two sorts of blocks to be inside of, and each at most once. -/
theorem Orderly.depth_le (orderly : forest.Orderly low inRepeat inGuard) {depth : Nat}
    {row : Nat × Block} (member : row ∈ forest.outlineFrom depth) :
    row.1 + inRepeat.toNat + inGuard.toNat + (!row.2.content.isCommand).toNat ≤ depth + 2 := by
  induction forest using blockwise generalizing low inRepeat inGuard depth with
  | empty => cases member
  | cons block rest body_ih rest_ih =>
    rw [orderly_cons] at orderly
    obtain ⟨_, fits, inside, after⟩ := orderly
    rw [outlineFrom_cons, List.mem_cons, List.mem_append] at member
    have repeats := inRepeat.toNat_le
    have guards := inGuard.toNat_le
    rcases member with rfl | within | later
    · cases content : block.content with
      | command c =>
        change depth + inRepeat.toNat + inGuard.toNat + 0 ≤ depth + 2
        omega
      | repeated count body =>
        rw [content] at fits
        obtain ⟨rfl, _⟩ := fits
        change depth + 0 + inGuard.toNat + 1 ≤ depth + 2
        omega
      | guarded predicate body =>
        rw [content] at fits
        obtain rfl := fits
        change depth + inRepeat.toNat + 0 + 1 ≤ depth + 2
        omega
    · have deeper := body_ih inside within
      cases content : block.content with
      | command c => simp [content, Content.body, outlineFrom] at within
      | repeated count body =>
        rw [content] at fits deeper
        obtain ⟨rfl, _⟩ := fits
        simp only [Content.isRepeated, Content.isGuarded, Bool.or_false, Bool.or_true, Bool.toNat_true,
          Bool.toNat_false] at deeper ⊢
        omega
      | guarded predicate body =>
        rw [content] at fits deeper
        obtain rfl := fits
        simp only [Content.isRepeated, Content.isGuarded, Bool.or_false, Bool.or_true, Bool.toNat_true,
          Bool.toNat_false] at deeper ⊢
        omega
    · exact rest_ih after later

theorem Orderly.around {aroundRepeat aroundGuard : Bool} (orderly : forest.Orderly low inRepeat inGuard)
    (repeats : ∀ block ∈ forest.walk, block.content.isRepeated = true → aroundRepeat = false)
    (guards : ∀ block ∈ forest.walk, block.content.isGuarded = true → aroundGuard = false) :
    forest.Orderly low aroundRepeat aroundGuard := by
  induction forest using blockwise generalizing low inRepeat inGuard aroundRepeat aroundGuard with
  | empty => trivial
  | cons block rest body_ih rest_ih =>
    rw [orderly_cons] at orderly ⊢
    obtain ⟨above, fits, inside, after⟩ := orderly
    have first : block ∈ (cons block rest).walk := by simp
    refine ⟨above, ?_, body_ih inside ?_ ?_, rest_ih after ?_ ?_⟩
    · cases content : block.content with
      | command c => trivial
      | repeated count body =>
        rw [content] at fits
        exact ⟨repeats block first (by rw [content]; rfl), fits.2⟩
      | guarded predicate body => exact guards block first (by rw [content]; rfl)
    · intro inner within sort
      cases outer : block.content.isRepeated with
      | true =>
        rw [outer, Bool.or_true] at inside
        cases (inside.not_isRepeated within).symm.trans sort
      | false => simpa using repeats inner (by simp [within]) sort
    · intro inner within sort
      cases outer : block.content.isGuarded with
      | true =>
        rw [outer, Bool.or_true] at inside
        cases (inside.not_isGuarded within).symm.trans sort
      | false => simpa using guards inner (by simp [within]) sort
    · exact fun other later => repeats other (by simp [later])
    · exact fun other later => guards other (by simp [later])

theorem Orderly.without (orderly : forest.Orderly low inRepeat inGuard) (target : Int) :
    (forest.without target).Orderly low inRepeat inGuard := by
  induction forest using blockwise generalizing low with
  | empty => trivial
  | cons block rest _ ih =>
    rw [orderly_cons] at orderly
    obtain ⟨first, fits, inside, after⟩ := orderly
    by_cases same : block.id = target
    · subst same
      rw [without_cons_self]
      exact after.above (Int.le_of_lt first)
    · rw [without_cons_of_ne same, orderly_cons]
      exact ⟨first, fits, inside, ih after⟩

theorem Orderly.append_cons {block : Block} (orderly : forest.Orderly low inRepeat inGuard)
    (least : low < block.id) (newest : ∀ id ∈ forest.ids, id < block.id)
    (fits : block.content.Fits inRepeat inGuard) (hollow : block.content.body = empty) :
    (forest ++ cons block empty).Orderly low inRepeat inGuard := by
  induction forest using blockwise generalizing low with
  | empty =>
    rw [empty_append, orderly_cons, hollow]
    exact ⟨least, fits, trivial, trivial⟩
  | cons first rest _ ih =>
    rw [orderly_cons] at orderly
    obtain ⟨above, held, inside, after⟩ := orderly
    rw [cons_append, orderly_cons]
    refine ⟨above, held, inside, ih after (newest first.id (by simp)) fun id member => ?_⟩
    exact newest id (by simp [member])

theorem Orderly.setCount (orderly : forest.Orderly low inRepeat inGuard) (target : Int) {value : Int}
    (bounded : 1 ≤ value ∧ value ≤ 20) : (forest.setCount target value).Orderly low inRepeat inGuard := by
  induction forest generalizing low inRepeat inGuard with
  | empty => trivial
  | command id c rest ih => exact ⟨orderly.1, ih orderly.2⟩
  | repeated id count body rest body_ih rest_ih =>
    obtain ⟨above, ⟨outermost, counted⟩, inside, after⟩ := orderly
    by_cases same : id = target
    · rw [Forest.setCount, if_pos same]
      exact ⟨above, ⟨outermost, bounded⟩, inside, after⟩
    · rw [Forest.setCount, if_neg same]
      exact ⟨above, ⟨outermost, counted⟩, body_ih inside, rest_ih after⟩
  | guarded id predicate body rest body_ih rest_ih =>
    obtain ⟨above, outermost, inside, after⟩ := orderly
    exact ⟨above, outermost, body_ih inside, rest_ih after⟩

theorem Orderly.onBody {block : Block} {outer : List Block} (stands : Stands forest block outer)
    (distinct : forest.ids.Nodup) (encloses : block.content.isCommand = false)
    (change : Forest → Forest) (orderly : forest.Orderly low inRepeat inGuard)
    (changed : block.content.body.Orderly block.id
        (inRepeat || (block :: outer).any (·.content.isRepeated))
        (inGuard || (block :: outer).any (·.content.isGuarded)) →
      (change block.content.body).Orderly block.id
        (inRepeat || (block :: outer).any (·.content.isRepeated))
        (inGuard || (block :: outer).any (·.content.isGuarded))) :
    (forest.onBody block.id change).Orderly low inRepeat inGuard := by
  induction stands generalizing low inRepeat inGuard with
  | here block rest =>
    rw [orderly_cons] at orderly
    obtain ⟨above, fits, inside, after⟩ := orderly
    simp only [List.any_cons, List.any_nil, Bool.or_false] at changed
    rw [onBody_cons_self encloses, orderly_cons]
    simp only [Block.withBody, Content.fits_withBody, Content.isRepeated_withBody,
      Content.isGuarded_withBody, Content.body_withBody encloses]
    exact ⟨above, fits, changed inside, after⟩
  | @inside first inner outer rest within ih =>
    rw [orderly_cons] at orderly
    obtain ⟨above, fits, inside, after⟩ := orderly
    obtain ⟨_, _, unmixed, _⟩ := distinct_cons distinct
    -- what is around is counted from the inside out, and here taken in from the outside
    have taken_in (flag : Bool) (sort : Block → Bool) : (flag || (inner :: (outer ++ [first])).any sort) =
        (flag || sort first || (inner :: outer).any sort) := by
      have last : [first].any sort = sort first := Bool.or_false _
      rw [← List.cons_append, List.any_append, last, Bool.or_comm _ (sort first), Bool.or_assoc]
    rw [taken_in, taken_in] at changed
    rw [onBody_inside distinct within.mem_ids, orderly_cons]
    simp only [Block.withBody, Content.fits_withBody, Content.isRepeated_withBody,
      Content.isGuarded_withBody, Content.body_withBody within.encloses]
    exact ⟨above, fits, ih unmixed encloses inside changed, after⟩
  | @later last outer rest first after ih =>
    rw [orderly_cons] at orderly
    obtain ⟨above, fits, inside, onward⟩ := orderly
    obtain ⟨_, _, _, unmixed, _⟩ := distinct_cons distinct
    rw [onBody_later distinct after.mem_ids, orderly_cons]
    exact ⟨above, fits, inside, ih unmixed encloses onward changed⟩

end Forest

end BlockMaze
