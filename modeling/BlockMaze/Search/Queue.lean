/-! First-in first-out queues: a front to take from and a reversed back to add to. `toList` is the
content in order of departure, and every operation is described through it. -/
namespace BlockMaze

structure Queue (α : Type) where
  front : List α
  back : List α

namespace Queue
variable {α : Type}

def ofList (items : List α) : Queue α := ⟨items, []⟩

def toList (queue : Queue α) : List α := queue.front ++ queue.back.reverse

def push (queue : Queue α) (item : α) : Queue α := ⟨queue.front, item :: queue.back⟩

def pop? (queue : Queue α) : Option (α × Queue α) :=
  match queue.front with
  | item :: front => some (item, ⟨front, queue.back⟩)
  | [] =>
    match queue.back.reverse with
    | item :: front => some (item, ⟨front, []⟩)
    | [] => none

@[simp] theorem toList_ofList (items : List α) : (ofList items).toList = items := by
  simp [ofList, toList]

@[simp] theorem toList_push (queue : Queue α) (item : α) :
    (queue.push item).toList = queue.toList ++ [item] := by
  simp [push, toList]

theorem toList_of_pop? {queue rest : Queue α} {item : α} (popped : queue.pop? = some (item, rest)) :
    queue.toList = item :: rest.toList := by
  rcases queue with ⟨front, back⟩
  cases front with
  | cons first front =>
    simp only [pop?, Option.some.injEq, Prod.mk.injEq] at popped
    obtain ⟨rfl, rfl⟩ := popped
    rfl
  | nil =>
    simp only [pop?] at popped
    split at popped
    · rename_i first front turned
      simp only [Option.some.injEq, Prod.mk.injEq] at popped
      obtain ⟨rfl, rfl⟩ := popped
      simp [toList, turned]
    · simp at popped

theorem pop?_eq_none_iff {queue : Queue α} : queue.pop? = none ↔ queue.toList = [] := by
  rcases queue with ⟨front, back⟩
  cases front with
  | cons first front => simp [pop?, toList]
  | nil =>
    simp only [pop?, toList, List.nil_append]
    split <;> simp_all

end Queue

end BlockMaze
