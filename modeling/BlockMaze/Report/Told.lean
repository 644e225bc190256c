import BlockMaze.Report.Record

/-! Results together with what was told on the way. Everything that leaves the game other than as a
result is a signal, and signals keep their order. -/
namespace BlockMaze

inductive Signal
  | event (event : Event)
  | board (board : Snapshot)
  | log (record : Record)
  deriving DecidableEq

structure Told (α : Type) where
  value : α
  signals : List Signal

namespace Told

instance : Monad Told where
  pure value := ⟨value, []⟩
  bind first next :=
    let second := next first.value
    ⟨second.value, first.signals ++ second.signals⟩

variable {α β : Type}

@[simp] theorem value_pure (value : α) : (pure value : Told α).value = value := rfl

@[simp] theorem signals_pure (value : α) : (pure value : Told α).signals = [] := rfl

@[simp] theorem value_bind (first : Told α) (next : α → Told β) :
    (first >>= next).value = (next first.value).value := rfl

@[simp] theorem signals_bind (first : Told α) (next : α → Told β) :
    (first >>= next).signals = first.signals ++ (next first.value).signals := rfl

instance : LawfulMonad Told := LawfulMonad.mk' Told
  (fun first => by simp [Functor.map])
  (fun _ _ => by simp [bind, pure])
  (fun _ _ _ => by simp [bind])

end Told

def tell (signals : List Signal) : Told Unit := ⟨(), signals⟩

/-- A change of a state of type `σ` that may fail with `ε`, keeps the state it reached when it does,
and tells signals on the way. -/
abbrev Act (ε σ α : Type) := ExceptT ε (StateT σ Told) α

namespace Act
variable {ε σ τ α : Type}

def tell (signals : List Signal) : Act ε σ Unit := fun state => ⟨(.ok (), state), signals⟩

def on (part : σ → τ) (put : σ → τ → σ) (act : Act ε τ α) : Act ε σ α := fun state =>
  let told := act (part state)
  ⟨(told.value.1, put state told.value.2), told.signals⟩

end Act

namespace Signal

/-- What listeners without ears for events and boards still get. -/
def isLog : Signal → Bool
  | log _ => true
  | _ => false

end Signal

end BlockMaze
