import Mathlib.Tactic

/-!
# Computations that change a state and may throw

A throwing computation keeps the changes it made before it threw, as a program with exceptions
does.  `Survives` says that nothing is thrown.  A loop survives exactly when each of its rounds is
good for what the rounds before it left of the tracked part of the state.
-/

/-- Computations over `σ` that return an `α` or throw an `ε`. -/
abbrev Throwing (ε σ α : Type) := ExceptT ε (StateM σ) α

namespace Throwing

section Outcomes

variable {ε σ α β : Type}

/-- The result of a computation and the state it leaves. -/
def outcome (action : Throwing ε σ α) (state : σ) : Except ε α × σ := action.run.run state

@[simp] theorem outcome_pure (value : α) (state : σ) :
    outcome (pure value : Throwing ε σ α) state = (.ok value, state) := rfl

@[simp] theorem outcome_throw (exception : ε) (state : σ) :
    outcome (throw exception : Throwing ε σ α) state = (.error exception, state) := rfl

@[simp] theorem outcome_get (state : σ) :
    outcome (get : Throwing ε σ σ) state = (.ok state, state) := rfl

@[simp] theorem outcome_modify (change : σ → σ) (state : σ) :
    outcome (modify change : Throwing ε σ PUnit) state = (.ok ⟨⟩, change state) := rfl

@[simp] theorem outcome_bind (action : Throwing ε σ α) (next : α → Throwing ε σ β) (state : σ) :
    outcome (action >>= next) state =
      match outcome action state with
      | (.ok value, after) => outcome (next value) after
      | (.error exception, after) => (.error exception, after) := by
  simp only [outcome, ExceptT.run_bind, StateT.run_bind]
  rcases StateT.run (ExceptT.run action) state with ⟨_ | _, _⟩ <;> rfl

@[simp] theorem outcome_map (change : α → β) (action : Throwing ε σ α) (state : σ) :
    outcome (change <$> action) state =
      match outcome action state with
      | (.ok value, after) => (.ok (change value), after)
      | (.error exception, after) => (.error exception, after) := by
  rw [← bind_pure_comp, outcome_bind]
  rcases outcome action state with ⟨_ | _, _⟩ <;> rfl

@[simp] theorem outcome_tryCatch (body : Throwing ε σ α) (handler : ε → Throwing ε σ α)
    (state : σ) :
    outcome (tryCatch body handler) state =
      match outcome body state with
      | (.ok value, after) => (.ok value, after)
      | (.error exception, after) => outcome (handler exception) after := by
  change StateT.run (body.run >>= fun result => match result with
    | .ok value => pure (Except.ok value)
    | .error exception => (handler exception).run) state = _
  simp only [outcome, StateT.run_bind]
  rcases StateT.run (ExceptT.run body) state with ⟨_ | _, _⟩ <;> rfl

/-- Nothing is thrown. -/
def Survives (action : Throwing ε σ α) (state : σ) : Prop :=
  ∃ value after, outcome action state = (.ok value, after)

theorem survives_bind {action : Throwing ε σ α} {next : α → Throwing ε σ β} {state : σ} :
    Survives (action >>= next) state ↔
      ∃ value middle, outcome action state = (.ok value, middle) ∧
        Survives (next value) middle := by
  simp only [Survives, outcome_bind]
  rcases outcome action state with ⟨_ | _, _⟩ <;> simp

end Outcomes

/-! ## Loops -/

section Loops

variable {ε σ τ ι : Type}

/-- Each item is good for the value its predecessors left. -/
def Threaded (good : ι → τ → Prop) (advance : ι → τ → τ) : List ι → τ → Prop
  | [], _ => True
  | item :: items, value => good item value ∧ Threaded good advance items (advance item value)

section Threads

variable {good : ι → τ → Prop} {advance : ι → τ → τ}

theorem threaded_append {front back : List ι} {value : τ} :
    Threaded good advance (front ++ back) value ↔
      Threaded good advance front value ∧ Threaded good advance back
        (front.foldl (fun current item => advance item current) value) := by
  induction front generalizing value with
  | nil => simp [Threaded]
  | cons item front ih => simp [Threaded, ih, and_assoc]

theorem threaded_const_iff {alone : ι → Prop} {items : List ι} {value : τ} :
    Threaded (fun item _ => alone item) (fun _ current => current) items value ↔
      ∀ item ∈ items, alone item := by
  induction items with
  | nil => simp [Threaded]
  | cons item items ih => simp [Threaded, ih]

end Threads

/-- The rounds of a loop survive exactly the good items, and then advance what is tracked. -/
structure Rounds (body : ι → Throwing ε σ PUnit) (track : σ → τ) (good : ι → τ → Prop)
    (advance : ι → τ → τ) (item : ι) : Prop where
  survives_iff : ∀ state, Survives (body item) state ↔ good item (track state)
  advances : ∀ state after, outcome (body item) state = (.ok ⟨⟩, after) →
    track after = advance item (track state)

variable {body : ι → Throwing ε σ PUnit} {track : σ → τ} {good : ι → τ → Prop}
  {advance : ι → τ → τ}

theorem forM_survives_iff {items : List ι}
    (rounds : ∀ item ∈ items, Rounds body track good advance item) (state : σ) :
    Survives (items.forM body) state ↔ Threaded good advance items (track state) := by
  induction items generalizing state with
  | nil => exact ⟨fun _ => trivial, fun _ => ⟨⟨⟩, state, rfl⟩⟩
  | cons item items ih =>
      have round := rounds item List.mem_cons_self
      have later := ih fun other member => rounds other (List.mem_cons_of_mem item member)
      rw [Threaded, ← round.survives_iff]
      constructor
      · rintro ⟨⟨⟩, final, execution⟩
        simp only [List.forM_eq_forM, List.forM_cons, outcome_bind] at execution
        split at execution
        · rename_i after first
          refine ⟨⟨⟨⟩, after, first⟩, ?_⟩
          rw [← round.advances state after first, ← later after]
          exact ⟨⟨⟩, final, execution⟩
        · simp at execution
      · rintro ⟨⟨⟨⟩, after, first⟩, threaded⟩
        rw [← round.advances state after first, ← later after] at threaded
        obtain ⟨⟨⟩, final, execution⟩ := threaded
        refine ⟨⟨⟩, final, ?_⟩
        simpa only [List.forM_eq_forM, List.forM_cons, outcome_bind, first] using execution

theorem forM_advances {items : List ι}
    (rounds : ∀ item ∈ items, Rounds body track good advance item) {state after : σ}
    (execution : outcome (items.forM body) state = (.ok ⟨⟩, after)) :
    track after = items.foldl (fun value item => advance item value) (track state) := by
  induction items generalizing state with
  | nil =>
      obtain rfl : state = after := by simpa using execution
      rfl
  | cons item items ih =>
      have round := rounds item List.mem_cons_self
      simp only [List.forM_eq_forM, List.forM_cons, outcome_bind] at execution
      split at execution
      · rename_i middle first
        rw [List.foldl_cons, ← round.advances state middle first]
        exact ih (fun other member => rounds other (List.mem_cons_of_mem item member)) execution
      · simp at execution

end Loops

end Throwing
