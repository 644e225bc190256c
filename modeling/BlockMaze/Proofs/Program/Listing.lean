import Mathlib.Data.List.Basic
import Mathlib.Logic.Function.Basic
import BlockMaze.Program.Listing
import BlockMaze.Proofs.Program.Thinned

/-! What the listing of a program tells. Each line gives the depth and the block, apart from what the block
encloses, and a forest can be put together again from these: from the last row back, a block takes in the
blocks that wait one level below it and then waits at its own level, before its later siblings. -/
namespace BlockMaze

theorem append_cons_inj {c : Char} {front other rest last : List Char} (absent : c ∉ front)
    (missing : c ∉ other) : front ++ c :: rest = other ++ c :: last ↔ front = other ∧ rest = last := by
  refine ⟨fun same => ?_, fun ⟨fronts, rests⟩ => by rw [fronts, rests]⟩
  induction front generalizing other with
  | nil =>
    cases other with
    | nil => exact ⟨rfl, List.tail_eq_of_cons_eq same⟩
    | cons first others => exact absurd (List.mem_cons.mpr (.inl (List.head_eq_of_cons_eq same))) missing
  | cons first front ih =>
    cases other with
    | nil => exact absurd (List.mem_cons.mpr (.inl (List.head_eq_of_cons_eq same).symm)) absent
    | cons second others =>
      obtain ⟨heads, tails⟩ := List.cons.inj same
      obtain ⟨fronts, rests⟩ := ih (List.not_mem_of_not_mem_cons absent)
        (List.not_mem_of_not_mem_cons missing) tails
      exact ⟨congrArg₂ _ heads fronts, rests⟩

section numbers

theorem toList_repr_ofNat (n : Nat) : (Int.ofNat n).repr.toList = Nat.toDigits 10 n := by
  change n.repr.toList = _
  simp

theorem toList_repr_negSucc (n : Nat) : (Int.negSucc n).repr.toList = '-' :: Nat.toDigits 10 (n + 1) := by
  change ("-" ++ (n + 1).repr).toList = _
  simp

theorem isDigit_of_mem_toDigits {c : Char} {n : Nat} (member : c ∈ Nat.toDigits 10 n) : c.isDigit = true :=
  Nat.isDigit_of_mem_toDigits (by decide) (Nat.le_refl 10) member

theorem bracket_not_mem_number (id : Int) : ']' ∉ id.repr.toList := by
  cases id with
  | ofNat n =>
    rw [toList_repr_ofNat]
    exact fun member => absurd (isDigit_of_mem_toDigits member) (by decide)
  | negSucc n =>
    rw [toList_repr_negSucc, List.mem_cons, not_or]
    exact ⟨by decide, fun member => absurd (isDigit_of_mem_toDigits member) (by decide)⟩

theorem toDigits_injective : Function.Injective (Nat.toDigits 10) :=
  Function.LeftInverse.injective (g := fun digits => Nat.ofDigitChars 10 digits 0) fun _ =>
    Nat.ofDigitChars_ten_toDigits

theorem minus_ne_toDigits (n : Nat) (digits : List Char) : '-' :: digits ≠ Nat.toDigits 10 n := fun same =>
  absurd (isDigit_of_mem_toDigits (same ▸ List.mem_cons_self)) (by decide)

theorem number_injective {id other : Int} (same : id.repr.toList = other.repr.toList) : id = other := by
  cases id with
  | ofNat n =>
    cases other with
    | ofNat m =>
      rw [toList_repr_ofNat, toList_repr_ofNat] at same
      rw [toDigits_injective same]
    | negSucc m =>
      rw [toList_repr_ofNat, toList_repr_negSucc] at same
      exact absurd same.symm (minus_ne_toDigits n _)
  | negSucc n =>
    cases other with
    | ofNat m =>
      rw [toList_repr_ofNat, toList_repr_negSucc] at same
      exact absurd same (minus_ne_toDigits m _)
    | negSucc m =>
      rw [toList_repr_negSucc, toList_repr_negSucc] at same
      rw [Nat.succ.inj (toDigits_injective (List.tail_eq_of_cons_eq same))]

end numbers

theorem Command.label_injective : Function.Injective Command.label := by
  rintro (_ | (_ | _)) (_ | (_ | _)) same <;> first | rfl | exact absurd same (by decide)

theorem Predicate.label_injective : Function.Injective Predicate.label := by
  rintro (_ | _ | _) (_ | _ | _) same <;> first | rfl | exact absurd same (by decide)

namespace Content

theorem label_head_repeated (content : Content) :
    content.label.toList.head? = some 'R' ↔ content.isRepeated = true := by
  rcases content with (_ | (_ | _)) | ⟨count, body⟩ | (_ | _ | _) <;>
    simp [label, Command.label, Predicate.label, isRepeated]

theorem label_head_guarded (content : Content) :
    content.label.toList.head? = some 'U' ↔ content.isGuarded = true := by
  rcases content with (_ | (_ | _)) | ⟨count, body⟩ | (_ | _ | _) <;>
    simp [label, Command.label, Predicate.label, isGuarded]

theorem withBody_eq_of_label {content other : Content} (same : content.label = other.label) (body : Forest) :
    content.withBody body = other.withBody body := by
  have repeats : content.isRepeated = other.isRepeated := by
    rw [Bool.eq_iff_iff, ← label_head_repeated, ← label_head_repeated, same]
  have guards : content.isGuarded = other.isGuarded := by
    rw [Bool.eq_iff_iff, ← label_head_guarded, ← label_head_guarded, same]
  cases content with
  | command c =>
    cases other with
    | command d => exact congrArg command (Command.label_injective same)
    | repeated => cases repeats
    | guarded => cases guards
  | repeated count inner =>
    cases other with
    | command => cases repeats
    | repeated another further =>
      have texts : count.repr = another.repr := by simpa [label] using same
      rw [withBody, withBody, number_injective (congrArg String.toList texts)]
    | guarded => cases repeats
  | guarded predicate inner =>
    cases other with
    | command => cases guards
    | repeated => cases guards
    | guarded another further => rw [withBody, withBody, Predicate.label_injective same]

end Content

section indentation
variable {unit : String}

theorem indentation_toList (depth : Nat) :
    (indentation unit depth).toList = (List.replicate depth unit.toList).flatten := by
  rw [indentation, String.toList_join, List.flatMap_def, List.map_replicate]

theorem bracket_not_mem_indentation (free : '[' ∉ unit.toList) (depth : Nat) :
    '[' ∉ (indentation unit depth).toList := by
  rw [indentation_toList, List.mem_flatten]
  rintro ⟨cs, member, bracket⟩
  exact free (List.eq_of_mem_replicate member ▸ bracket)

theorem eq_of_indentation (visible : unit.toList ≠ []) {depth other : Nat}
    (same : (indentation unit depth).toList = (indentation unit other).toList) : depth = other := by
  have lengths := congrArg List.length same
  have positive : unit.toList.length ≠ 0 := mt List.length_eq_zero_iff.mp visible
  rw [indentation_toList, indentation_toList, List.length_flatten, List.length_flatten] at lengths
  simpa only [List.map_replicate, List.sum_replicate_nat, Nat.mul_left_inj positive] using lengths

end indentation

/-- A block apart from what it encloses, with its depth. -/
def Block.row (placed : Nat × Block) : Nat × Block := (placed.1, placed.2.bare)

theorem Block.withBody_bare (block : Block) : block.bare.withBody block.content.body = block := by
  rcases block with ⟨id, c | ⟨count, body⟩ | ⟨predicate, body⟩⟩ <;> rfl

def Block.line (unit : String) (placed : Nat × Block) : String :=
  indentation unit placed.1 ++ "[" ++ toString placed.2.id ++ "] " ++ placed.2.content.label

theorem row_eq_of_line (unit : String) (visible : unit.toList ≠ []) (free : '[' ∉ unit.toList) :
    Block.row.FactorsThrough (Block.line unit) := by
  rintro ⟨depth, block⟩ ⟨otherDepth, other⟩ same
  have texts := congrArg String.toList same
  simp only [Block.line, String.toList_append, List.append_assoc] at texts
  obtain ⟨indents, after⟩ := (append_cons_inj (bracket_not_mem_indentation free depth)
    (bracket_not_mem_indentation free otherDepth)).mp texts
  obtain ⟨numbers, labels⟩ := (append_cons_inj (bracket_not_mem_number block.id)
    (bracket_not_mem_number other.id)).mp after
  have contents := Content.withBody_eq_of_label
    (String.toList_injective (List.tail_eq_of_cons_eq labels)) .empty
  rw [Block.row, Block.row, Prod.mk.injEq, Block.bare, Block.bare, Block.withBody, Block.withBody,
    contents, number_injective numbers]
  exact ⟨eq_of_indentation visible indents, rfl⟩

namespace Forest

def rows (depth : Nat) (forest : Forest) : List (Nat × Block) := (forest.outlineFrom depth).map Block.row

theorem rows_cons (depth : Nat) (block : Block) (rest : Forest) : (cons block rest).rows depth =
    Block.row (depth, block) :: (block.content.body.rows (depth + 1) ++ rest.rows depth) := by
  rw [rows, outlineFrom_cons, List.map_cons, List.map_append]
  rfl

/-- What waits at each level when the blocks have been read from the last one back to this one. -/
def shelve (placed : Nat × Block) (levels : Nat → Forest) : Nat → Forest :=
  Function.update (Function.update levels (placed.1 + 1) .empty) placed.1
    (.cons (placed.2.withBody (levels (placed.1 + 1))) (levels placed.1))

def ofRows (rows : List (Nat × Block)) : Forest := rows.foldr shelve (fun _ => .empty) 0

/-- A forest comes to stand before what waits at its level, and leaves nothing waiting below. -/
theorem foldr_shelve (forest : Forest) (depth : Nat) {levels : Nat → Forest}
    (clear : ∀ deeper > depth, levels deeper = .empty) :
    (forest.rows depth).foldr shelve levels = Function.update levels depth (forest ++ levels depth) := by
  induction forest using blockwise generalizing depth levels with
  | empty =>
    rw [empty_append, Function.update_eq_self]
    rfl
  | cons block rest body_ih rest_ih =>
    rw [rows_cons, List.foldr_cons, List.foldr_append, rest_ih depth clear]
    generalize later : Function.update levels depth (rest ++ levels depth) = after
    have here : after depth = rest ++ levels depth := by rw [← later, Function.update_self]
    have deep : ∀ deeper > depth, after deeper = .empty := fun deeper below => by
      rw [← later, Function.update_of_ne (Nat.ne_of_gt below), clear deeper below]
    have next : after (depth + 1) = .empty := deep _ (Nat.lt_succ_self depth)
    have other : depth ≠ depth + 1 := Nat.ne_of_lt (Nat.lt_succ_self depth)
    rw [body_ih (depth + 1) fun deeper below => deep deeper (Nat.lt_of_succ_lt below), next, append_empty]
    simp only [shelve, Block.row, Function.update_self, Function.update_idem, Function.update_of_ne other]
    rw [← next, Function.update_eq_self, here, ← later, Function.update_idem, Block.withBody_bare, cons_append]

theorem ofRows_rows (forest : Forest) : ofRows (forest.rows 0) = forest := by
  rw [ofRows, foldr_shelve forest 0 fun _ _ => rfl, Function.update_self, append_empty]

/-- The listing determines the program, down to numbers, counts and nesting; and the outline is enough to
rebuild it, without what its blocks enclose. -/
theorem describe_eq_iff (first second : Forest) :
    (first.describe " " = second.describe " " ↔ first = second) ∧
      ofRows (first.outline.map Block.row) = first := by
  refine ⟨⟨fun same => ?_, congrArg _⟩, first.ofRows_rows⟩
  have : Nonempty (Nat × Block) := ⟨0, 0, .command .forward⟩
  obtain ⟨read, reads⟩ := (Function.factorsThrough_iff Block.row).mp
    (row_eq_of_line " " (by decide) (by decide))
  have rows_eq (forest : Forest) : forest.rows 0 = (forest.describe " ").map read := by
    rw [rows, reads, ← List.map_map]
    rfl
  rw [← first.ofRows_rows, ← second.ofRows_rows, rows_eq, rows_eq, same]

end Forest
end BlockMaze
