import BlockMaze.Proofs.Report.Act

/-! Laws of acts. A law speaks of the state before an act, the signals told, the fault if there is one,
and the state after. Where it passes from two acts to one after the other, whole programs of acts obey
what their parts obey. What an act gives or how it fails is passed on to the act that follows. -/
namespace BlockMaze

def faultOf? {ε α : Type} : Except ε α → Option ε
  | .ok _ => none
  | .error fault => some fault

@[simp] theorem faultOf?_ok {ε α : Type} (value : α) : faultOf? (.ok value : Except ε α) = none := rfl

@[simp] theorem faultOf?_error {ε α : Type} (fault : ε) :
    faultOf? (.error fault : Except ε α) = some fault := rfl

theorem faultOf?_map {ε α β : Type} (change : α → β) (result : Except ε α) :
    faultOf? (result.map change) = faultOf? result := by
  cases result <;> rfl

theorem exists_ok_of_faultless {ε α : Type} {result : Except ε α} (faultless : faultOf? result = none) :
    ∃ value, result = .ok value := by
  cases result with
  | ok value => exact ⟨value, rfl⟩
  | error fault => cases faultless

namespace Act
variable {ε σ α β : Type}

abbrev Law (ε σ : Type) := σ → List Signal → Option ε → σ → Prop

structure Law.Composes (law : Law ε σ) : Prop where
  still : ∀ state, law state [] none state
  onward : ∀ {before between after early late fault}, law before early none between →
    law between late fault after → law before (early ++ late) fault after

def Obeys (law : Law ε σ) (act : Act ε σ α) : Prop :=
  ∀ state, law state (act state).signals (faultOf? (act state).value.1) (act state).value.2

section obeys
variable {law : Law ε σ} {act : Act ε σ α} (composes : law.Composes)
include composes

theorem Obeys.pure (value : α) : Obeys law (Pure.pure value : Act ε σ α) := composes.still

theorem Obeys.get : Obeys law (MonadState.get : Act ε σ σ) := composes.still

theorem Obeys.bind {next : α → Act ε σ β} (first : Obeys law act)
    (second : ∀ value, Obeys law (next value)) : Obeys law (act >>= next) := by
  intro state
  have early := first state
  rcases told : act state with ⟨⟨value | fault, later⟩, signals⟩
  · rw [bind_of_error told]
    rwa [told] at early
  · rw [bind_of_ok told]
    rw [told] at early
    exact composes.onward early (second _ later)

omit composes in
theorem Obeys.map (obeys : Obeys law act) (change : α → β) : Obeys law (change <$> act) := by
  intro state
  have same := obeys state
  rcases told : act state with ⟨⟨value | fault, later⟩, signals⟩ <;> rw [told] at same <;>
    simpa [told] using same

omit composes in
theorem Obeys.discard (obeys : Obeys law act) : Obeys law (Functor.discard act : Act ε σ PUnit) := by
  intro state
  have same := obeys state
  rcases told : act state with ⟨⟨value | fault, later⟩, signals⟩ <;> rw [told] at same <;>
    simpa [told] using same

end obeys

def telling (allowed : Signal → Prop) : Law ε σ := fun _ signals _ _ => ∀ signal ∈ signals, allowed signal

abbrev Tells (allowed : Signal → Prop) (act : Act ε σ α) : Prop := Obeys (telling allowed) act

section tells
variable {allowed : Signal → Prop}

theorem telling_composes : (telling allowed : Law ε σ).Composes where
  still := fun _ _ none_told => absurd none_told List.not_mem_nil
  onward := fun early late signal member =>
    (List.mem_append.mp member).elim (early signal) (late signal)

theorem Tells.pure (value : α) : Tells allowed (Pure.pure value : Act ε σ α) :=
  Obeys.pure telling_composes value

theorem Tells.get : Tells allowed (MonadState.get : Act ε σ σ) := Obeys.get telling_composes

theorem Tells.bind {act : Act ε σ α} {next : α → Act ε σ β} (first : Tells allowed act)
    (second : ∀ value, Tells allowed (next value)) : Tells allowed (act >>= next) :=
  Obeys.bind telling_composes first second

theorem Tells.silent {act : Act ε σ α} (silent : ∀ state, (act state).signals = []) :
    Tells allowed act := by
  intro state signal member
  rw [silent state] at member
  cases member

theorem Tells.tell {signals : List Signal} (all : ∀ signal ∈ signals, allowed signal) :
    Tells allowed (Act.tell signals : Act ε σ Unit) := fun _ => all

theorem Tells.weaken {also : Signal → Prop} {act : Act ε σ α} (tells : Tells allowed act)
    (weaker : ∀ signal, allowed signal → also signal) : Tells also act :=
  fun state signal member => weaker signal (tells state signal member)

end tells

/-- From a state of some kind the act comes to another of that kind, with a value or a fault as named. -/
def Ensures (kind : σ → Prop) (act : Act ε σ α) (gives : α → Prop) (fails : ε → Prop) : Prop :=
  ∀ state, kind state → kind (act state).value.2 ∧ match (act state).value.1 with
    | .ok value => gives value
    | .error fault => fails fault

section ensures
variable {kind : σ → Prop} {act : Act ε σ α} {gives : α → Prop} {fails : ε → Prop}

theorem Ensures.pure {value : α} (given : gives value) :
    Ensures kind (Pure.pure value : Act ε σ α) gives fails := fun _ known => ⟨known, given⟩

theorem Ensures.throw {fault : ε} (failed : fails fault) :
    Ensures kind (MonadExcept.throw fault : Act ε σ α) gives fails := fun _ known => ⟨known, failed⟩

theorem Ensures.get : Ensures kind (MonadState.get : Act ε σ σ) (fun _ => True) fails :=
  fun _ known => ⟨known, trivial⟩

theorem Ensures.tell (signals : List Signal) :
    Ensures kind (Act.tell signals : Act ε σ Unit) (fun _ => True) fails := fun _ known => ⟨known, trivial⟩

theorem Ensures.weaken {also_fails : ε → Prop} (ensures : Ensures kind act gives fails)
    (weaker : ∀ fault, fails fault → also_fails fault) : Ensures kind act gives also_fails := by
  intro state known
  obtain ⟨still, told⟩ := ensures state known
  refine ⟨still, ?_⟩
  generalize (act state).value.1 = result at told ⊢
  cases result with
  | ok value => exact told
  | error fault => exact weaker fault told

theorem Ensures.bind {next : α → Act ε σ β} {then_gives : β → Prop} (first : Ensures kind act gives fails)
    (second : ∀ value, gives value → Ensures kind (next value) then_gives fails) :
    Ensures kind (act >>= next) then_gives fails := by
  intro state known
  have early := first state known
  rcases told : act state with ⟨⟨fault | value, later⟩, signals⟩ <;> rw [told] at early
  · rw [bind_of_error told]
    exact early
  · rw [bind_of_ok told]
    exact second value early.2 later early.1

end ensures

end Act

end BlockMaze
