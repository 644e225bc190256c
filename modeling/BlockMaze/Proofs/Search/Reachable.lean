import Mathlib.Data.Finset.Prod
import Mathlib.Data.Finset.Insert
import BlockMaze.Proofs.Search.Route

/-! The search decides whether a route exists. It looks at no stance twice, so the bound on its work
is never what ends it. -/
namespace BlockMaze

namespace Search
variable {isOpen : Cell → Bool} {done : List Stance} {search later : Search}
  {start stance other : Stance} {goal : Cell}

def met (done : List Stance) (search : Search) : List Stance := done ++ search.queue.toList

/-- What was seen is what was met, and everything was met once. -/
structure Tidy (done : List Stance) (search : Search) : Prop where
  seen_iff : ∀ stance, search.seen.contains stance = true ↔ stance ∈ met done search
  distinct : (met done search).Nodup

theorem tidy_ofStart (start : Stance) : Tidy [] (ofStart start) where
  seen_iff stance := by
    simp only [ofStart, Std.TreeSet.contains_insert, Std.TreeSet.contains_emptyc, Bool.or_false,
      beq_iff_eq, Std.LawfulEqCmp.compare_eq_iff_eq, met, Queue.toList_ofList, List.nil_append,
      List.mem_singleton]
    exact eq_comm
  distinct := by simp [ofStart, met]

theorem Tidy.visit (tidy : Tidy done search) (stance : Stance) : Tidy done (search.visit stance) := by
  unfold Search.visit
  split
  · exact tidy
  · rename_i unseen
    have fresh : stance ∉ met done search := fun member =>
      unseen ((tidy.seen_iff stance).mpr member)
    refine ⟨fun other => ?_, ?_⟩
    · have before := tidy.seen_iff other
      simp only [met, List.mem_append] at before
      simp only [Std.TreeSet.contains_insert, Bool.or_eq_true, beq_iff_eq,
        Std.LawfulEqCmp.compare_eq_iff_eq, before, met, Queue.toList_push, List.mem_append,
        List.mem_singleton]
      grind
    · have appended : met done ⟨search.queue.push stance, search.seen.insert stance⟩ =
          met done search ++ [stance] := by simp [met]
      rw [appended]
      exact tidy.distinct.append (List.nodup_singleton _) (by simpa using fresh)

theorem mem_met_visit (tidy : Tidy done search) :
    other ∈ met done (search.visit stance) ↔ other ∈ met done search ∨ other = stance := by
  unfold Search.visit
  split
  · rename_i seen
    have member := (tidy.seen_iff stance).mp seen
    exact ⟨.inl, fun either => either.elim id fun same => same ▸ member⟩
  · simp [met, or_assoc]

theorem Tidy.visits (tidy : Tidy done search) (stances : List Stance) :
    Tidy done (stances.foldl Search.visit search) ∧
      ∀ other, other ∈ met done (stances.foldl Search.visit search) ↔
        other ∈ met done search ∨ other ∈ stances := by
  induction stances generalizing search with
  | nil => exact ⟨tidy, fun other => by simp⟩
  | cons stance rest ih =>
    obtain ⟨kept, members⟩ := ih (tidy.visit stance)
    refine ⟨kept, fun other => ?_⟩
    rw [List.foldl_cons, members other, mem_met_visit tidy, List.mem_cons, or_assoc]

theorem look_eq_none (looked : search.look isOpen = none) : search.queue.toList = [] := by
  unfold Search.look at looked
  split at looked
  · rename_i popped
    exact Queue.pop?_eq_none_iff.mp popped
  · cases looked

theorem Tidy.look (tidy : Tidy done search) (looked : search.look isOpen = some (stance, later)) :
    stance ∈ search.queue.toList ∧ Tidy (done ++ [stance]) later ∧
      ∀ other, other ∈ met (done ++ [stance]) later ↔
        other ∈ met done search ∨ other ∈ stance.next isOpen := by
  unfold Search.look at looked
  split at looked
  · cases looked
  · rename_i first rest popped
    simp only [Option.some.injEq, Prod.mk.injEq] at looked
    obtain ⟨rfl, rfl⟩ := looked
    have content := Queue.toList_of_pop? popped
    have same : met (done ++ [first]) ⟨rest, search.seen⟩ = met done search := by
      simp [met, content]
    have taken : Tidy (done ++ [first]) ⟨rest, search.seen⟩ :=
      ⟨fun other => by rw [same]; exact tidy.seen_iff other, by rw [same]; exact tidy.distinct⟩
    obtain ⟨kept, members⟩ := taken.visits (first.next isOpen)
    exact ⟨by simp [content], kept, fun other => by rw [members other, same]⟩

/-- A search under way: all that was met lies on a route from the start, and what was looked at was
not on the goal and led nowhere else. -/
structure Explored (isOpen : Cell → Bool) (goal : Cell) (start : Stance) (done : List Stance)
    (search : Search) : Prop where
  tidy : Tidy done search
  begun : start ∈ met done search
  led : ∀ stance ∈ met done search, ∃ steps, Route isOpen start.cell stance.cell steps
  away : ∀ stance ∈ done, stance.cell ≠ goal
  closed : ∀ stance ∈ done, ∀ other ∈ stance.next isOpen, other ∈ met done search

theorem explored_ofStart (isOpen : Cell → Bool) (goal : Cell) (start : Stance) :
    Explored isOpen goal start [] (ofStart start) where
  tidy := tidy_ofStart start
  begun := by simp [met, ofStart]
  led stance member := by
    have same : stance = start := by simpa [met, ofStart] using member
    exact ⟨0, same ▸ .here _⟩
  away := by simp
  closed := by simp

end Search

theorem Stance.next_route {isOpen : Cell → Bool} {stance other : Stance}
    (near : other ∈ stance.next isOpen) :
    other.cell = stance.cell ∨
      (other.cell = stance.cell.ahead stance.facing ∧ isOpen other.cell = true) := by
  simp only [Stance.next] at near
  split at near
  · rename_i free
    rcases List.mem_cons.mp near with rfl | turned
    · exact .inr ⟨rfl, free⟩
    · simp only [List.mem_cons, List.not_mem_nil, or_false] at turned
      rcases turned with rfl | rfl <;> exact .inl rfl
  · simp only [List.mem_cons, List.not_mem_nil, or_false] at near
    rcases near with rfl | rfl <;> exact .inl rfl

theorem Stance.turn_mem_next (isOpen : Cell → Bool) (stance : Stance) (side : Side) :
    ⟨stance.cell, stance.facing.turn side⟩ ∈ stance.next isOpen := by
  cases side <;> simp only [Stance.next] <;> split <;> simp

theorem Stance.ahead_mem_next {isOpen : Cell → Bool} {stance : Stance}
    (free : isOpen (stance.cell.ahead stance.facing) = true) :
    ⟨stance.cell.ahead stance.facing, stance.facing⟩ ∈ stance.next isOpen := by
  simp [Stance.next, free]

theorem Facing.of_turns (holds : Facing → Prop)
    (kept : ∀ facing, holds facing → holds (facing.turn .right))
    {facing : Facing} (one : holds facing) (other : Facing) : holds other := by
  have second := kept _ one
  have third := kept _ second
  have fourth := kept _ third
  cases facing <;> cases other <;> assumption

namespace Search
variable {isOpen : Cell → Bool} {done : List Stance} {search later : Search}
  {start stance : Stance} {goal : Cell}

theorem Explored.look (explored : Explored isOpen goal start done search)
    (looked : search.look isOpen = some (stance, later)) (elsewhere : stance.cell ≠ goal) :
    Explored isOpen goal start (done ++ [stance]) later := by
  obtain ⟨waiting, tidy, members⟩ := explored.tidy.look looked
  have known : stance ∈ met done search := List.mem_append_right _ waiting
  refine ⟨tidy, (members start).mpr (.inl explored.begun), ?_, ?_, ?_⟩
  · intro other member
    rcases (members other).mp member with old | near
    · exact explored.led other old
    · obtain ⟨steps, route⟩ := explored.led stance known
      rcases Stance.next_route near with same | ⟨moved, free⟩
      · exact ⟨steps, same ▸ route⟩
      · exact ⟨steps + 1, moved ▸ route.extend stance.facing (moved ▸ free)⟩
  · intro other looked_at
    rcases List.mem_append.mp looked_at with old | new
    · exact explored.away other old
    · exact List.mem_singleton.mp new ▸ elsewhere
  · intro other looked_at near close
    refine (members near).mpr ?_
    rcases List.mem_append.mp looked_at with old | new
    · exact .inl (explored.closed other old near close)
    · exact .inr (List.mem_singleton.mp new ▸ close)

theorem Explored.unreached (explored : Explored isOpen goal start done search)
    (spent : search.queue.toList = []) (steps : Nat) : ¬ Route isOpen start.cell goal steps := by
  have all_done : met done search = done := by simp [met, spent]
  have around {cell : Cell} {facing : Facing} (looked_at : (⟨cell, facing⟩ : Stance) ∈ done)
      (other : Facing) : (⟨cell, other⟩ : Stance) ∈ done :=
    Facing.of_turns (fun facing => (⟨cell, facing⟩ : Stance) ∈ done)
      (fun facing member => all_done ▸ explored.closed _ member _ (Stance.turn_mem_next _ _ .right))
      looked_at other
  have kept {cell final : Cell} (route : Route isOpen cell final steps)
      (looked_at : (⟨cell, .up⟩ : Stance) ∈ done) : (⟨final, .up⟩ : Stance) ∈ done := by
    induction route with
    | here => exact looked_at
    | onward facing free rest ih =>
      have ahead := explored.closed _ (around looked_at facing) _ (Stance.ahead_mem_next free)
      exact ih (around (all_done ▸ ahead) .up)
  intro route
  have begun : start ∈ done := all_done ▸ explored.begun
  exact explored.away _ (kept route (around begun .up)) rfl

theorem length_le_card {trace : List Stance} {stances : Finset Stance} (distinct : trace.Nodup)
    (within : ∀ stance ∈ trace, stance ∈ stances) : trace.length ≤ stances.card := by
  classical
  rw [← List.toFinset_card_of_nodup distinct]
  exact Finset.card_le_card fun stance member => within stance (List.mem_toFinset.mp member)

theorem Explored.length_lt_card (explored : Explored isOpen goal start done search)
    (looked : search.look isOpen = some (stance, later)) {stances : Finset Stance}
    (within : ∀ stance, (∃ steps, Route isOpen start.cell stance.cell steps) → stance ∈ stances) :
    done.length < stances.card := by
  obtain ⟨waiting, tidy, -⟩ := explored.tidy.look looked
  have distinct : (done ++ [stance]).Nodup := tidy.distinct.of_append_left
  have known : ∀ other ∈ done ++ [stance], other ∈ met done search := by
    intro other member
    rcases List.mem_append.mp member with old | new
    · exact List.mem_append_left _ old
    · exact List.mem_append_right _ (List.mem_singleton.mp new ▸ waiting)
  have counted : (done ++ [stance]).length ≤ stances.card :=
    length_le_card distinct fun other member => within other (explored.led other (known other member))
  rwa [List.length_append, List.length_singleton] at counted

/-- The stances that a search looks at, in order, until one stands on the goal or none is left. No bound is
set to how many there are. -/
inductive Looks (isOpen : Cell → Bool) (goal : Cell) : Search → List Stance → Prop
  | spent {search : Search} (looked : search.look isOpen = none) : Looks isOpen goal search []
  | arrived {search later : Search} {stance : Stance}
      (looked : search.look isOpen = some (stance, later)) (there : stance.cell = goal) :
      Looks isOpen goal search [stance]
  | onward {search later : Search} {stance : Stance} {trace : List Stance}
      (looked : search.look isOpen = some (stance, later)) (elsewhere : stance.cell ≠ goal)
      (rest : Looks isOpen goal later trace) : Looks isOpen goal search (stance :: trace)

variable {trace other : List Stance}

theorem Looks.unique (looks : Looks isOpen goal search trace) (also : Looks isOpen goal search other) :
    trace = other := by
  induction looks generalizing other with
  | spent none_left =>
    cases also with
    | spent => rfl
    | arrived looked | onward looked => cases none_left.symm.trans looked
  | arrived looked there =>
    cases also with
    | spent none_left => cases none_left.symm.trans looked
    | arrived again =>
      cases looked.symm.trans again
      rfl
    | onward again elsewhere =>
      cases looked.symm.trans again
      exact absurd there elsewhere
  | onward looked elsewhere rest ih =>
    cases also with
    | spent none_left => cases none_left.symm.trans looked
    | arrived again there =>
      cases looked.symm.trans again
      exact absurd there elsewhere
    | onward again _ further =>
      cases looked.symm.trans again
      rw [ih further]

theorem Looks.run_eq_true_iff (looks : Looks isOpen goal search trace) {most : Nat}
    (enough : trace.length ≤ most) :
    run isOpen goal most search = true ↔ ∃ stance ∈ trace, stance.cell = goal := by
  induction looks generalizing most with
  | spent looked =>
    cases most with
    | zero => simp [run]
    | succ most => simp [run, looked]
  | arrived looked there =>
    obtain ⟨most, rfl⟩ := Nat.exists_eq_add_of_le' enough
    simp [run, looked, there]
  | onward looked elsewhere rest ih =>
    obtain ⟨most, rfl⟩ := Nat.exists_eq_add_of_le' (Nat.succ_le_of_lt (Nat.zero_lt_of_lt enough))
    simp only [run, looked, elsewhere, if_false, List.mem_cons, exists_eq_or_imp, false_or]
    exact ih (by simpa using enough)

/-- A search under way ends, and what it still looks at it did not look at before. It comes to the goal if a
route leads there. -/
theorem Explored.exists_looks {done : List Stance} {search : Search}
    (explored : Explored isOpen goal start done search) {stances : Finset Stance}
    (within : ∀ stance, (∃ steps, Route isOpen start.cell stance.cell steps) → stance ∈ stances) :
    ∃ trace, Looks isOpen goal search trace ∧ (done ++ trace).Nodup ∧
      (∀ stance ∈ trace, ∃ steps, Route isOpen start.cell stance.cell steps) ∧
      ((∃ steps, Route isOpen start.cell goal steps) → ∃ stance ∈ trace, stance.cell = goal) := by
  cases looked : search.look isOpen with
  | none =>
    have distinct : (done ++ []).Nodup := by
      simpa using explored.tidy.distinct.of_append_left
    refine ⟨[], .spent looked, distinct, nofun, fun ⟨steps, route⟩ => ?_⟩
    exact absurd route (explored.unreached (look_eq_none looked) steps)
  | some pair =>
    obtain ⟨stance, later⟩ := pair
    have room := explored.length_lt_card looked within
    obtain ⟨waiting, tidy, -⟩ := explored.tidy.look looked
    have reached := explored.led stance (List.mem_append_right _ waiting)
    by_cases there : stance.cell = goal
    · have here : ∃ other ∈ [stance], other.cell = goal := ⟨stance, List.mem_singleton_self _, there⟩
      refine ⟨[stance], .arrived looked there, tidy.distinct.of_append_left, ?_, fun _ => here⟩
      exact fun other member => List.mem_singleton.mp member ▸ reached
    · obtain ⟨trace, looks, distinct, led, found⟩ := (explored.look looked there).exists_looks within
      refine ⟨stance :: trace, .onward looked there looks, by simpa using distinct, ?_, fun route => ?_⟩
      · exact List.forall_mem_cons.mpr ⟨reached, led⟩
      · obtain ⟨last, member, arrived⟩ := found route
        exact ⟨last, List.mem_cons_of_mem _ member, arrived⟩
termination_by stances.card - done.length
decreasing_by
  rw [List.length_append, List.length_singleton]
  omega

def stances (size : Int) (start : Cell) : Finset Stance :=
  (insert start (Cell.board size) ×ˢ Facing.all.toFinset).image fun place => ⟨place.1, place.2⟩

theorem card_stances_le (size : Int) (start : Cell) : (stances size start).card ≤ bound size := by
  refine Finset.card_image_le.trans ?_
  rw [Finset.card_product, show (Facing.all.toFinset).card = 4 from rfl, bound, Nat.mul_comm]
  refine Nat.mul_le_mul_left 4 ((Finset.card_insert_le _ _).trans ?_)
  exact Nat.succ_le_succ (Cell.card_board size).le

theorem mem_stances_of_route {start : Cell} {obstacles : List Cell} {size : Int} (stance : Stance)
    (reached : ∃ steps, Route (openCell obstacles size) start stance.cell steps) :
    stance ∈ stances size start := by
  obtain ⟨cell, facing⟩ := stance
  obtain ⟨steps, route⟩ := reached
  have place : cell ∈ insert start (Cell.board size) := by
    rcases route.open_goal with same | free
    · exact Finset.mem_insert.mpr (.inl same)
    · exact Finset.mem_insert_of_mem (Cell.mem_board.mpr (openCell_inside free))
  have listed : facing ∈ Facing.all.toFinset := by cases facing <;> decide
  exact Finset.mem_image.mpr ⟨(cell, facing), Finset.mem_product.mpr ⟨place, listed⟩, rfl⟩

theorem exists_looks_ofStart (start goal : Cell) (obstacles : List Cell) (size : Int) (facing : Facing) :
    ∃ trace, Looks (openCell obstacles size) goal (.ofStart ⟨start, facing⟩) trace ∧ trace.Nodup ∧
      trace.length ≤ bound size ∧
      (∀ stance ∈ trace, ∃ steps, Route (openCell obstacles size) start stance.cell steps) ∧
      ((∃ stance ∈ trace, stance.cell = goal) ↔
        ∃ steps, Route (openCell obstacles size) start goal steps) := by
  obtain ⟨trace, looks, distinct, led, found⟩ :=
    (explored_ofStart (openCell obstacles size) goal ⟨start, facing⟩).exists_looks mem_stances_of_route
  rw [List.nil_append] at distinct
  have counted : trace.length ≤ (stances size start).card :=
    length_le_card distinct fun stance member => mem_stances_of_route stance (led stance member)
  refine ⟨trace, looks, distinct, counted.trans (card_stances_le size start), led, ?_, found⟩
  rintro ⟨stance, member, rfl⟩
  exact led stance member

theorem run_ofStart_iff_route {start goal : Cell} {obstacles : List Cell} {size : Int} {facing : Facing}
    {most : Nat} (enough : bound size ≤ most) :
    run (openCell obstacles size) goal most (.ofStart ⟨start, facing⟩) = true ↔
      ∃ steps, Route (openCell obstacles size) start goal steps := by
  obtain ⟨trace, looks, -, short, -, found⟩ := exists_looks_ofStart start goal obstacles size facing
  rw [looks.run_eq_true_iff (short.trans enough), found]

end Search

theorem reachable_iff_route {start goal : Cell} {obstacles : List Cell} {size : Int} {facing : Facing} :
    reachable start goal obstacles size facing = true ↔
      ∃ steps, Route (openCell obstacles size) start goal steps :=
  Search.run_ofStart_iff_route le_rfl

theorem World.solvable_iff_route {world : World} : world.solvable = true ↔
    ∃ steps, Route (openCell world.puzzle.obstacles world.puzzle.size) world.puzzle.start
      world.puzzle.goal steps :=
  reachable_iff_route

/-- Wherever the start is, the search ends and has looked at no stance twice, which makes four looks at most
for every cell of the board and four for the start. It looks at the start and at open cells only, and it answers
whether it has come to the goal. -/
theorem Search.each_looked_at_once (start goal : Cell) (obstacles : List Cell) (size : Int) (facing : Facing) :
    ∃ trace, Looks (openCell obstacles size) goal (.ofStart ⟨start, facing⟩) trace ∧
      (∀ other, Looks (openCell obstacles size) goal (.ofStart ⟨start, facing⟩) other → other = trace) ∧
      trace.Nodup ∧ (trace.length : Int) ≤ 4 * (max 0 size ^ 2 + 1) ∧
      (∀ stance ∈ trace, stance.cell = start ∨ stance.cell.Inside size ∧ stance.cell ∉ obstacles) ∧
      (reachable start goal obstacles size facing = true ↔ ∃ stance ∈ trace, stance.cell = goal) := by
  obtain ⟨trace, looks, distinct, short, led, -⟩ := exists_looks_ofStart start goal obstacles size facing
  refine ⟨trace, looks, fun other also => also.unique looks, distinct, ?_, fun stance member => ?_,
    looks.run_eq_true_iff short⟩
  · calc (trace.length : Int) ≤ (bound size : Nat) := Int.ofNat_le.mpr short
      _ = 4 * ((size.toNat : Int) * size.toNat + 1) := by rw [bound]; push_cast; rfl
      _ = 4 * (max 0 size ^ 2 + 1) := by rw [Int.ofNat_toNat, max_comm, sq]
  · obtain ⟨steps, route⟩ := led stance member
    exact route.open_goal.imp id openCell_eq_true_iff.mp

end BlockMaze
