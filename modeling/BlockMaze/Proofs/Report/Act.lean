import BlockMaze.Report.Told

/-! How acts run. An act turns a state into a result, a later state and signals; each lemma says what
one way of building acts does to them. -/
namespace BlockMaze.Act
variable {ε σ τ α β : Type}

@[simp] theorem map_ok (change : α → β) (value : α) :
    (Except.ok value : Except ε α).map change = .ok (change value) := rfl

@[simp] theorem map_error (change : α → β) (fault : ε) :
    (Except.error fault : Except ε α).map change = .error fault := rfl

@[simp] theorem mapError_ok (change : ε → τ) (value : α) :
    (Except.ok value : Except ε α).mapError change = .ok value := rfl

@[simp] theorem mapError_error (change : ε → τ) (fault : ε) :
    (Except.error fault : Except ε α).mapError change = .error (change fault) := rfl

theorem bind_of_ok {act : Act ε σ α} {state later : σ} {value : α} {signals : List Signal}
    (first : act state = ⟨(.ok value, later), signals⟩) (next : α → Act ε σ β) :
    (act >>= next) state = ⟨(next value later).value, signals ++ (next value later).signals⟩ := by
  simp only [bind, ExceptT.bind, ExceptT.mk, StateT.bind, first]
  rfl

theorem bind_of_quiet {act : Act ε σ α} {state later : σ} {value : α}
    (first : act state = ⟨(.ok value, later), []⟩) (next : α → Act ε σ β) :
    (act >>= next) state = next value later := bind_of_ok first next

theorem bind_of_error {act : Act ε σ α} {state later : σ} {fault : ε} {signals : List Signal}
    (first : act state = ⟨(.error fault, later), signals⟩) (next : α → Act ε σ β) :
    (act >>= next) state = ⟨(.error fault, later), signals⟩ := by
  simp only [bind, ExceptT.bind, ExceptT.mk, StateT.bind, first]
  change Told.mk (Except.error fault, later) (signals ++ []) = _
  rw [List.append_nil]

theorem ok_of_bind {act : Act ε σ α} {next : α → Act ε σ β} {state : σ} {result : β}
    (ok : ((act >>= next) state).value.1 = .ok result) :
    ∃ value, (act state).value.1 = .ok value ∧
      (next value (act state).value.2).value.1 = .ok result := by
  rcases first : act state with ⟨⟨value | fault, later⟩, signals⟩
  · rw [bind_of_error first] at ok
    cases ok
  · rw [bind_of_ok first] at ok
    exact ⟨_, rfl, ok⟩

@[simp] theorem pure_apply (value : α) (state : σ) :
    (pure value : Act ε σ α) state = ⟨(.ok value, state), []⟩ := rfl

@[simp] theorem throw_apply (fault : ε) (state : σ) :
    (throw fault : Act ε σ α) state = ⟨(.error fault, state), []⟩ := rfl

@[simp] theorem get_apply (state : σ) : (get : Act ε σ σ) state = ⟨(.ok state, state), []⟩ := rfl

@[simp] theorem set_apply (later state : σ) :
    (set later : Act ε σ PUnit) state = ⟨(.ok ⟨⟩, later), []⟩ := rfl

@[simp] theorem modify_apply (change : σ → σ) (state : σ) :
    (modify change : Act ε σ PUnit) state = ⟨(.ok ⟨⟩, change state), []⟩ := rfl

@[simp] theorem tell_apply (signals : List Signal) (state : σ) :
    (Act.tell signals : Act ε σ Unit) state = ⟨(.ok (), state), signals⟩ := rfl

@[simp] theorem on_apply (part : σ → τ) (put : σ → τ → σ) (act : Act ε τ α) (state : σ) :
    Act.on part put act state =
      ⟨((act (part state)).value.1, put state (act (part state)).value.2),
        (act (part state)).signals⟩ := rfl

@[simp] theorem bind_apply (act : Act ε σ α) (next : α → Act ε σ β) (state : σ) :
    (act >>= next) state = match (act state).value with
      | (.ok value, later) =>
        ⟨(next value later).value, (act state).signals ++ (next value later).signals⟩
      | (.error fault, later) => ⟨(.error fault, later), (act state).signals⟩ := by
  rcases first : act state with ⟨⟨value | fault, later⟩, signals⟩
  · exact bind_of_error first next
  · exact bind_of_ok first next

@[simp] theorem map_apply (change : α → β) (act : Act ε σ α) (state : σ) :
    (change <$> act) state =
      ⟨((act state).value.1.map change, (act state).value.2), (act state).signals⟩ := by
  rw [map_eq_pure_bind, bind_apply]
  rcases (act state).value with ⟨value | fault, later⟩ <;> simp

@[simp] theorem discard_apply (act : Act ε σ α) (state : σ) :
    (discard act : Act ε σ PUnit) state =
      ⟨((act state).value.1.map fun _ => ⟨⟩, (act state).value.2), (act state).signals⟩ := by
  change (Functor.mapConst PUnit.unit act) state = _
  rw [map_const]
  exact map_apply _ act state

@[simp] theorem ite_apply {condition : Prop} [Decidable condition] (one other : Act ε σ α)
    (state : σ) : (if condition then one else other : Act ε σ α) state =
      if condition then one state else other state := by
  split <;> rfl

@[simp] theorem lift_apply (given : Except ε α) (state : σ) :
    (liftM given : Act ε σ α) state = ⟨(given, state), []⟩ := rfl

/-- An act keeps what holds of the state, also when it fails. -/
def Keeps (holds : σ → Prop) (act : Act ε σ α) : Prop :=
  ∀ state, holds state → holds (act state).value.2

section keeps
variable {holds : σ → Prop} {act : Act ε σ α}

theorem Keeps.pure (value : α) : Keeps holds (Pure.pure value : Act ε σ α) := fun _ before => before

theorem Keeps.bind {next : α → Act ε σ β} (first : Keeps holds act)
    (second : ∀ value, Keeps holds (next value)) : Keeps holds (act >>= next) := by
  intro state before
  have between := first state before
  rcases told : (act state).value with ⟨fault | value, later⟩
  · simpa [told] using between
  · simpa [told] using second value later (by simpa [told] using between)

theorem Keeps.get : Keeps holds (MonadState.get : Act ε σ σ) := fun _ before => before

theorem Keeps.map (kept : Keeps holds act) (change : α → β) : Keeps holds (change <$> act) := by
  intro state before
  simpa using kept state before

theorem Keeps.discard (kept : Keeps holds act) :
    Keeps holds (Functor.discard act : Act ε σ PUnit) := by
  intro state before
  simpa using kept state before

end keeps

end BlockMaze.Act
