import BlockMaze.Proofs.Program.Path

/-! The blocks of a forest with what is around each of them, as they come one after the other. Rows of blocks
and depths hold the same: the block around a row is the last one before it that stands one level further
out. -/
namespace BlockMaze.Forest

/-- Every block with the blocks around it, the innermost first; `outer` is around them all. -/
def placesIn (outer : List Block) : Forest → List (Block × List Block)
  | empty => []
  | command id c rest => (⟨id, .command c⟩, outer) :: rest.placesIn outer
  | repeated id count body rest => (⟨id, .repeated count body⟩, outer) ::
      (body.placesIn (⟨id, .repeated count body⟩ :: outer) ++ rest.placesIn outer)
  | guarded id predicate body rest => (⟨id, .guarded predicate body⟩, outer) ::
      (body.placesIn (⟨id, .guarded predicate body⟩ :: outer) ++ rest.placesIn outer)

def places (forest : Forest) : List (Block × List Block) := forest.placesIn []

/-- What the next row can stand in, after some rows of which the last comes first. -/
def reach : List (Block × List Block) → List Block
  | [] => []
  | (block, outer) :: _ => block :: outer

/-- Rows, the last one first, of which each stands in the one before it or goes on outside of it. -/
inductive InTurn : List (Block × List Block) → Prop
  | none : InTurn []
  | next {rows : List (Block × List Block)} {outer : List Block} (block : Block)
      (within : outer <:+ reach rows) (earlier : InTurn rows) : InTurn ((block, outer) :: rows)

variable {forest : Forest} {block around : Block} {outer further : List Block}
  {rows : List (Block × List Block)}

@[simp] theorem placesIn_cons (rest : Forest) : (cons block rest).placesIn outer =
    (block, outer) :: (block.content.body.placesIn (block :: outer) ++ rest.placesIn outer) := by
  rcases block with ⟨id, c | ⟨count, body⟩ | ⟨predicate, body⟩⟩ <;> rfl

theorem placesIn_fst (forest : Forest) (outer : List Block) :
    (forest.placesIn outer).map Prod.fst = forest.walk := by
  induction forest using blockwise generalizing outer with
  | empty => rfl
  | cons block rest body_ih rest_ih => simp [body_ih, rest_ih]

theorem places_fst (forest : Forest) : forest.places.map Prod.fst = forest.walk := forest.placesIn_fst []

theorem exists_stands_of_mem_placesIn {all : List Block} (member : (block, all) ∈ forest.placesIn outer) :
    ∃ inner, all = inner ++ outer ∧ Stands forest block inner := by
  induction forest using blockwise generalizing outer with
  | empty => cases member
  | cons first rest body_ih rest_ih =>
    rw [placesIn_cons, List.mem_cons, List.mem_append] at member
    rcases member with here | within | after
    · cases here
      exact ⟨[], rfl, .here block rest⟩
    · obtain ⟨inner, rfl, stands⟩ := body_ih within
      exact ⟨inner ++ [first], by simp, .inside rest stands⟩
    · obtain ⟨inner, rfl, stands⟩ := rest_ih after
      exact ⟨inner, rfl, .later first stands⟩

theorem stands_of_mem_places (member : (block, outer) ∈ forest.places) : Stands forest block outer := by
  obtain ⟨inner, rfl, stands⟩ := exists_stands_of_mem_placesIn member
  rwa [List.append_nil]

theorem Stands.mem_placesIn (stands : Stands forest block outer) (around : List Block) :
    (block, outer ++ around) ∈ forest.placesIn around := by
  induction stands generalizing around with
  | here block rest => simp
  | @inside first inner outer rest within ih =>
    have deeper := ih (first :: around)
    simp [deeper]
  | later first after ih => simp [ih around]

theorem Stands.mem_places (stands : Stands forest block outer) : (block, outer) ∈ forest.places := by
  have member := stands.mem_placesIn []
  rwa [List.append_nil] at member

theorem outlineFrom_eq_placesIn (forest : Forest) (outer : List Block) :
    forest.outlineFrom outer.length = (forest.placesIn outer).map fun place => (place.2.length, place.1) := by
  induction forest using blockwise generalizing outer with
  | empty => rfl
  | cons block rest body_ih rest_ih =>
    have deeper := body_ih (block :: outer)
    rw [List.length_cons] at deeper
    simp [deeper, rest_ih]

theorem outline_eq_places (forest : Forest) :
    forest.outline = forest.places.map fun place => (place.2.length, place.1) :=
  forest.outlineFrom_eq_placesIn []

theorem InTurn.placesIn (forest : Forest) (earlier : InTurn rows) (within : outer <:+ reach rows) :
    InTurn ((forest.placesIn outer).reverse ++ rows) ∧
      outer <:+ reach ((forest.placesIn outer).reverse ++ rows) := by
  induction forest using blockwise generalizing outer rows with
  | empty => exact ⟨earlier, within⟩
  | cons block rest body_ih rest_ih =>
    have first : InTurn ((block, outer) :: rows) := .next block within earlier
    obtain ⟨inside, closed⟩ := body_ih first (List.suffix_refl (block :: outer))
    obtain ⟨after, open_⟩ := rest_ih inside ((List.suffix_cons block outer).trans closed)
    rw [placesIn_cons, List.reverse_cons, List.reverse_append, List.append_assoc, List.append_assoc,
      List.singleton_append]
    exact ⟨after, open_⟩

theorem inTurn_places (forest : Forest) : InTurn forest.places.reverse := by
  have all := (InTurn.placesIn forest .none (List.suffix_refl [])).1
  rwa [List.append_nil] at all

theorem InTurn.of_append {later : List (Block × List Block)} (turn : InTurn (later ++ rows)) : InTurn rows := by
  induction later with
  | nil => exact turn
  | cons row later ih =>
    cases turn with
    | next _ _ earlier => exact ih earlier

theorem InTurn.find?_eq (turn : InTurn rows) (within : around :: further <:+ reach rows) :
    rows.find? (fun row => row.2.length = further.length) = some (around, further) := by
  induction turn with
  | none => simp [reach] at within
  | @next rows outer block open_ earlier ih =>
    rw [reach, List.suffix_cons_iff] at within
    rcases within with same | deeper
    · cases same
      simp
    · have longer := deeper.length_le
      rw [List.length_cons] at longer
      have passed : ¬ outer.length = further.length := by omega
      rw [List.find?_cons_of_neg (by simpa using passed)]
      exact ih (deeper.trans open_)

variable {before after : List (Block × List Block)}

theorem InTurn.of_places (split : forest.places = before ++ (block, outer) :: after) :
    InTurn before.reverse ∧ outer <:+ reach before.reverse := by
  have turn := forest.inTurn_places
  rw [split, List.reverse_append, List.reverse_cons, List.append_assoc, List.singleton_append] at turn
  cases turn.of_append with
  | next _ within earlier => exact ⟨earlier, within⟩

/-- The block around a place is in the last place before it that is one level further out. -/
theorem findRev?_places (split : forest.places = before ++ (block, outer) :: after) :
    (before.findRev? fun row => row.2.length + 1 = outer.length).map Prod.fst = outer.head? := by
  obtain ⟨turn, within⟩ := InTurn.of_places split
  rw [List.findRev?_eq_find?_reverse]
  cases outer with
  | nil => simp
  | cons around further =>
    have found := turn.find?_eq within
    simpa using congrArg (Option.map Prod.fst) found

theorem mem_before_of_mem_outer (split : forest.places = before ++ (block, outer) :: after)
    (member : around ∈ outer) : ∃ further, (around, further) ∈ before := by
  obtain ⟨turn, within⟩ := InTurn.of_places split
  obtain ⟨inner, further, rfl⟩ := List.append_of_mem member
  have found := turn.find?_eq ((List.suffix_append inner _).trans within)
  exact ⟨further, List.mem_reverse.mp (List.mem_of_find?_eq_some found)⟩

end BlockMaze.Forest
