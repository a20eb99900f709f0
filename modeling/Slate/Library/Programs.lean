import Mathlib.Data.List.Forall2
import Mathlib.Order.Defs.Unbundled

/-! Total correctness of programs that change a state and may throw. A program
meets its postcondition at a state only when it returns normally there; the
rules follow the shape of the program, so a proof never runs one by hand. -/

namespace Slate.Library

universe u

variable {ε σ α β : Type u}

/-- The program returns from this state, and its value and the state it leaves
satisfy the postcondition. -/
def Returns (program : EStateM ε σ α) (state : σ) (post : α → σ → Prop) : Prop :=
  match program state with
  | .ok value after => post value after
  | .error _ _ => False

theorem returns_iff {program : EStateM ε σ α} {state : σ} {post : α → σ → Prop} :
    Returns program state post ↔ ∃ value after, program state = .ok value after ∧ post value after := by
  unfold Returns
  cases program state with
  | ok value after =>
    constructor
    · exact fun holds => ⟨value, after, rfl, holds⟩
    · rintro ⟨_, _, same, holds⟩
      cases same
      exact holds
  | error thrown after => simp

theorem Returns.of_ok {program : EStateM ε σ α} {state after : σ} {value : α} {post : α → σ → Prop}
    (returns : Returns program state post) (ran : program state = .ok value after) : post value after := by
  rw [Returns, ran] at returns
  exact returns

/-- A run that can be computed. -/
theorem Returns.of_result [DecidableEq α] {program : EStateM ε σ α} {state : σ} {value : α}
    (result : (match program state with
      | .ok found _ => decide (found = value)
      | .error _ _ => false) = true) : Returns program state fun found _ => found = value := by
  unfold Returns
  cases ran : program state with
  | ok found after =>
    rw [ran] at result
    exact of_decide_eq_true result
  | error error after =>
    rw [ran] at result
    cases result

theorem Returns.mono {program : EStateM ε σ α} {state : σ} {post weaker : α → σ → Prop}
    (returns : Returns program state post) (implies : ∀ value after, post value after → weaker value after) :
    Returns program state weaker := by
  obtain ⟨value, after, ran, holds⟩ := returns_iff.mp returns
  exact returns_iff.mpr ⟨value, after, ran, implies value after holds⟩

theorem Returns.and {program : EStateM ε σ α} {state : σ} {post other : α → σ → Prop}
    (first : Returns program state post) (second : Returns program state other) :
    Returns program state fun value after => post value after ∧ other value after := by
  obtain ⟨value, after, ran, holds⟩ := returns_iff.mp first
  exact returns_iff.mpr ⟨value, after, ran, holds, second.of_ok ran⟩

/-- A program that returns, with a value that is good exactly on this condition, returns a
good value exactly on this condition. -/
theorem Returns.exactly {condition : Prop} (returns : Returns program state fun value after => (post value after ↔ condition)) :
    Returns program state post ↔ condition := by
  obtain ⟨value, after, ran, same⟩ := returns_iff.mp returns
  rw [Returns, ran]
  exact same

/-- Postconditions that agree wherever the program can end are met together. -/
theorem Returns.congr {program : EStateM ε σ α} {state : σ} {post other known : α → σ → Prop}
    (returns : Returns program state known) (same : ∀ value after, known value after → (post value after ↔ other value after)) :
    Returns program state post ↔ Returns program state other := by
  obtain ⟨value, after, ran, holds⟩ := returns_iff.mp returns
  rw [Returns, Returns, ran]
  exact same value after holds

@[simp] theorem returns_pure (value : α) (state : σ) (post : α → σ → Prop) :
    Returns (pure value : EStateM ε σ α) state post ↔ post value state := Iff.rfl

@[simp] theorem returns_bind (program : EStateM ε σ α) (next : α → EStateM ε σ β) (state : σ) (post : β → σ → Prop) :
    Returns (program >>= next) state post ↔
      Returns program state fun value after => Returns (next value) after post := by
  simp only [Returns, bind, EStateM.bind]
  cases program state <;> rfl

@[simp] theorem returns_get (state : σ) (post : σ → σ → Prop) :
    Returns (get : EStateM ε σ σ) state post ↔ post state state := Iff.rfl

@[simp] theorem returns_set (after state : σ) (post : PUnit → σ → Prop) :
    Returns (set after : EStateM ε σ PUnit) state post ↔ post ⟨⟩ after := Iff.rfl

@[simp] theorem returns_modify (change : σ → σ) (state : σ) (post : PUnit → σ → Prop) :
    Returns (modify change : EStateM ε σ PUnit) state post ↔ post ⟨⟩ (change state) := Iff.rfl

@[simp] theorem returns_modifyGet (change : σ → α × σ) (state : σ) (post : α → σ → Prop) :
    Returns (modifyGet change : EStateM ε σ α) state post ↔ post (change state).1 (change state).2 := Iff.rfl

@[simp] theorem returns_throw (thrown : ε) (state : σ) (post : α → σ → Prop) :
    Returns (throw thrown : EStateM ε σ α) state post ↔ False := Iff.rfl

@[simp] theorem returns_ite (condition : Prop) [Decidable condition] (first second : EStateM ε σ α) (state : σ)
    (post : α → σ → Prop) :
    Returns (if condition then first else second) state post ↔
      if condition then Returns first state post else Returns second state post := by
  split <;> rfl

/-- Two programs that go on alike after the same beginning. -/
theorem bind_at {program : EStateM ε σ α} {next other : α → EStateM ε σ β} {state : σ}
    (same : ∀ value after, program state = .ok value after → next value after = other value after) :
    (program >>= next) state = (program >>= other) state := by
  simp only [bind, EStateM.bind]
  cases ran : program state with
  | ok value after => exact same value after ran
  | error error after => rfl

section
variable {program : EStateM ε σ α} {next : α → EStateM ε σ β} {state after : σ}

theorem bind_returned {value : α} (ran : program state = .ok value after) : (program >>= next) state = next value after := by
  simp only [bind, EStateM.bind, ran]

theorem bind_thrown {error : ε} (ran : program state = .error error after) :
    (program >>= next) state = .error error after := by
  simp only [bind, EStateM.bind, ran]

variable {handler : ε → EStateM ε σ α}

theorem tryCatch_returned {value : α} (ran : program state = .ok value after) :
    tryCatch program handler state = .ok value after := by
  change EStateM.tryCatch program handler state = _
  delta EStateM.tryCatch
  rw [ran]

/-- A handler goes on from the state in which the error was thrown. -/
theorem tryCatch_thrown {error : ε} (ran : program state = .error error after) :
    tryCatch program handler state = handler error after := by
  change EStateM.tryCatch program handler state = _
  delta EStateM.tryCatch
  rw [ran]
  rfl

end

/-- Whenever the program returns from this state, its value and the state it leaves
satisfy the postcondition. -/
def Yields (program : EStateM ε σ α) (state : σ) (post : α → σ → Prop) : Prop :=
  match program state with
  | .ok value after => post value after
  | .error _ _ => True

theorem Yields.of_ok {program : EStateM ε σ α} {state after : σ} {value : α} {post : α → σ → Prop}
    (yields : Yields program state post) (ran : program state = .ok value after) : post value after := by
  rw [Yields, ran] at yields
  exact yields

theorem Yields.of_ran {program : EStateM ε σ α} {state : σ} {post : α → σ → Prop}
    (holds : ∀ value after, program state = .ok value after → post value after) : Yields program state post := by
  unfold Yields
  cases ran : program state with
  | ok value after => exact holds value after ran
  | error => trivial

theorem Yields.trivial (program : EStateM ε σ α) (state : σ) : Yields program state fun _ _ => True := by
  unfold Yields
  cases program state <;> exact True.intro

theorem Returns.yields {program : EStateM ε σ α} {state : σ} {post : α → σ → Prop} (returns : Returns program state post) :
    Yields program state post := by
  obtain ⟨value, after, ran, holds⟩ := returns_iff.mp returns
  rw [Yields, ran]
  exact holds

theorem Yields.and {program : EStateM ε σ α} {state : σ} {post other : α → σ → Prop}
    (first : Yields program state post) (second : Yields program state other) :
    Yields program state fun value after => post value after ∧ other value after := by
  unfold Yields at first second ⊢
  cases ran : program state with
  | ok value after =>
    rw [ran] at first second
    exact ⟨first, second⟩
  | error => trivial

theorem Yields.mono {program : EStateM ε σ α} {state : σ} {post weaker : α → σ → Prop}
    (yields : Yields program state post) (implies : ∀ value after, post value after → weaker value after) :
    Yields program state weaker := by
  unfold Yields at yields ⊢
  cases ran : program state with
  | ok value after =>
    rw [ran] at yields
    exact implies value after yields
  | error => trivial

@[simp] theorem yields_pure (value : α) (state : σ) (post : α → σ → Prop) :
    Yields (pure value : EStateM ε σ α) state post ↔ post value state := Iff.rfl

@[simp] theorem yields_bind (program : EStateM ε σ α) (next : α → EStateM ε σ β) (state : σ) (post : β → σ → Prop) :
    Yields (program >>= next) state post ↔
      Yields program state fun value after => Yields (next value) after post := by
  simp only [Yields, bind, EStateM.bind]
  cases program state <;> rfl

@[simp] theorem yields_get (state : σ) (post : σ → σ → Prop) :
    Yields (get : EStateM ε σ σ) state post ↔ post state state := Iff.rfl

@[simp] theorem yields_modify (change : σ → σ) (state : σ) (post : PUnit → σ → Prop) :
    Yields (modify change : EStateM ε σ PUnit) state post ↔ post ⟨⟩ (change state) := Iff.rfl

@[simp] theorem yields_throw (thrown : ε) (state : σ) (post : α → σ → Prop) :
    Yields (throw thrown : EStateM ε σ α) state post ↔ True := Iff.rfl

@[simp] theorem yields_ite (condition : Prop) [Decidable condition] (first second : EStateM ε σ α) (state : σ)
    (post : α → σ → Prop) :
    Yields (if condition then first else second) state post ↔
      if condition then Yields first state post else Yields second state post := by
  split <;> rfl

/-- What a program answers may be decided by how it goes on. -/
theorem Yields.after {program : EStateM ε σ α} {next : α → EStateM ε σ β} {state : σ} {good : β → Prop}
    (rest : ∀ value state, Yields (next value) state fun answer _ => good answer) :
    Yields (program >>= next) state fun answer _ => good answer := by
  rw [yields_bind]
  exact (Yields.trivial program state).mono fun value after _ => rest value after

/-- A loop that collects one result for each item. The invariant speaks of the
items already visited and of what was collected from them. -/
theorem returns_mapM (items : List α) (body : α → EStateM ε σ β) (state : σ)
    (invariant : List α → List β → σ → Prop) (start : invariant [] [] state)
    (step : ∀ before item after collected current, items = before ++ item :: after →
      invariant before collected current →
      Returns (body item) current fun result next => invariant (before ++ [item]) (collected ++ [result]) next) :
    Returns (items.mapM body) state fun results final => invariant items results final := by
  suffices rest : ∀ (before after : List α) (collected : List β) (current : σ), items = before ++ after →
      invariant before collected current →
      Returns (after.mapM body) current fun results final => invariant items (collected ++ results) final by
    simpa using rest [] items [] state rfl start
  intro before after
  induction after generalizing before with
  | nil =>
    intro collected current same holds
    have all : before = items := by simpa using same.symm
    subst all
    simpa using holds
  | cons item after ih =>
    intro collected current same holds
    rw [List.mapM_cons]
    simp only [returns_bind, returns_pure]
    refine (step before item after collected current same holds).mono ?_
    intro result next kept
    refine (ih (before ++ [item]) (collected ++ [result]) next (by simpa using same) kept).mono ?_
    intro results final done
    simpa using done

/-- A loop run for its effects only. -/
theorem returns_forM (items : List α) (body : α → EStateM ε σ PUnit) (state : σ)
    (invariant : List α → σ → Prop) (start : invariant [] state)
    (step : ∀ before item after current, items = before ++ item :: after → invariant before current →
      Returns (body item) current fun _ next => invariant (before ++ [item]) next) :
    Returns (items.forM body) state fun _ final => invariant items final := by
  suffices rest : ∀ (before after : List α) (current : σ), items = before ++ after → invariant before current →
      Returns (after.forM body) current fun _ final => invariant items final from rest [] items state rfl start
  intro before after
  induction after generalizing before with
  | nil =>
    intro current same holds
    have all : before = items := by simpa using same.symm
    subst all
    exact holds
  | cons item after ih =>
    intro current same holds
    change Returns (body item >>= fun _ => after.forM body) current _
    rw [returns_bind]
    refine (step before item after current same holds).mono ?_
    intro _ next kept
    exact ih (before ++ [item]) next (by simpa using same) kept

/-- A loop whose body preserves a property of the state, whatever the item. -/
theorem returns_mapM_keeps {items : List α} {body : α → EStateM ε σ β} {state : σ} (kept : σ → Prop)
    (start : kept state)
    (step : ∀ item ∈ items, ∀ current, kept current → Returns (body item) current fun _ next => kept next) :
    Returns (items.mapM body) state fun _ final => kept final := by
  apply returns_mapM items body state (fun _ _ current => kept current) start
  intro before item after collected current same holds
  exact step item (by simp [same]) current holds

/-- If the program returns from this state, the postcondition holds of its value and of
the state it leaves; if it throws, the other one holds of what is thrown and of the state. -/
def Ends (program : EStateM ε σ α) (state : σ) (post : α → σ → Prop) (thrown : ε → σ → Prop) : Prop :=
  match program state with
  | .ok value after => post value after
  | .error error after => thrown error after

section Ends
variable {program : EStateM ε σ α} {state : σ} {post weaker : α → σ → Prop} {thrown other : ε → σ → Prop}

theorem Ends.yields (ends : Ends program state post thrown) : Yields program state post := by
  unfold Ends at ends
  unfold Yields
  cases ran : program state with
  | ok value after =>
    rw [ran] at ends
    exact ends
  | error => trivial

theorem Returns.ends (returns : Returns program state post) : Ends program state post thrown := by
  obtain ⟨value, after, ran, holds⟩ := returns_iff.mp returns
  rw [Ends, ran]
  exact holds

theorem Ends.mono (ends : Ends program state post thrown) (returned : ∀ value after, post value after → weaker value after)
    (raised : ∀ error after, thrown error after → other error after) : Ends program state weaker other := by
  unfold Ends at ends ⊢
  cases ran : program state with
  | ok value after =>
    rw [ran] at ends
    exact returned value after ends
  | error error after =>
    rw [ran] at ends
    exact raised error after ends

theorem Ends.and (first : Ends program state post thrown) (second : Ends program state weaker other) :
    Ends program state (fun value after => post value after ∧ weaker value after) fun error after =>
      thrown error after ∧ other error after := by
  unfold Ends at first second ⊢
  cases ran : program state with
  | ok value after =>
    rw [ran] at first second
    exact ⟨first, second⟩
  | error error after =>
    rw [ran] at first second
    exact ⟨first, second⟩

theorem Ends.and_yields (ends : Ends program state post thrown) (yields : Yields program state weaker) :
    Ends program state (fun value after => post value after ∧ weaker value after) thrown := by
  unfold Ends at ends ⊢
  unfold Yields at yields
  cases ran : program state with
  | ok value after =>
    rw [ran] at ends yields
    exact ⟨ends, yields⟩
  | error error after =>
    rw [ran] at ends
    exact ends

/-- However a program ends, it meets a condition or the opposite. -/
theorem ends_not : Ends program state (fun value after => ¬ post value after) (fun error after => ¬ thrown error after) ↔
    ¬ Ends program state post thrown := by
  unfold Ends
  cases program state <;> rfl

/-- A program that returns meets what it meets whenever it returns. -/
theorem Returns.also (returns : Returns program state post) (yields : Yields program state weaker) :
    Returns program state fun value after => post value after ∧ weaker value after := by
  obtain ⟨value, after, ran, holds⟩ := returns_iff.mp returns
  exact returns_iff.mpr ⟨value, after, ran, holds, yields.of_ok ran⟩

@[simp] theorem ends_pure (value : α) (state : σ) (post : α → σ → Prop) (thrown : ε → σ → Prop) :
    Ends (pure value : EStateM ε σ α) state post thrown ↔ post value state := Iff.rfl

@[simp] theorem ends_throw (error : ε) (state : σ) (post : α → σ → Prop) (thrown : ε → σ → Prop) :
    Ends (throw error : EStateM ε σ α) state post thrown ↔ thrown error state := Iff.rfl

@[simp] theorem ends_bind (program : EStateM ε σ α) (next : α → EStateM ε σ β) (state : σ) (post : β → σ → Prop)
    (thrown : ε → σ → Prop) :
    Ends (program >>= next) state post thrown ↔
      Ends program state (fun value after => Ends (next value) after post thrown) thrown := by
  simp only [Ends, bind, EStateM.bind]
  cases program state <;> rfl

@[simp] theorem ends_get (state : σ) (post : σ → σ → Prop) (thrown : ε → σ → Prop) :
    Ends (get : EStateM ε σ σ) state post thrown ↔ post state state := Iff.rfl

@[simp] theorem ends_modify (change : σ → σ) (state : σ) (post : PUnit → σ → Prop) (thrown : ε → σ → Prop) :
    Ends (modify change : EStateM ε σ PUnit) state post thrown ↔ post ⟨⟩ (change state) := Iff.rfl

@[simp] theorem ends_modifyGet (change : σ → α × σ) (state : σ) (post : α → σ → Prop) (thrown : ε → σ → Prop) :
    Ends (modifyGet change : EStateM ε σ α) state post thrown ↔ post (change state).1 (change state).2 := Iff.rfl

@[simp] theorem ends_ite (condition : Prop) [Decidable condition] (first second : EStateM ε σ α) (state : σ)
    (post : α → σ → Prop) (thrown : ε → σ → Prop) :
    Ends (if condition then first else second) state post thrown ↔
      if condition then Ends first state post thrown else Ends second state post thrown := by
  split <;> rfl

@[simp] theorem ends_tryCatch (program : EStateM ε σ α) (handler : ε → EStateM ε σ α) (state : σ)
    (post : α → σ → Prop) (thrown : ε → σ → Prop) :
    Ends (tryCatch program handler) state post thrown ↔
      Ends program state post fun error after => Ends (handler error) after post thrown := by
  unfold Ends
  cases ran : program state with
  | ok value after => rw [tryCatch_returned ran]
  | error error after => rw [tryCatch_thrown ran]

@[simp] theorem returns_tryCatch (program : EStateM ε σ α) (handler : ε → EStateM ε σ α) (state : σ)
    (post : α → σ → Prop) :
    Returns (tryCatch program handler) state post ↔
      Ends program state post fun error after => Returns (handler error) after post := by
  unfold Ends Returns
  cases ran : program state with
  | ok value after => rw [tryCatch_returned ran]
  | error error after => rw [tryCatch_thrown ran]

@[simp] theorem yields_tryCatch (program : EStateM ε σ α) (handler : ε → EStateM ε σ α) (state : σ)
    (post : α → σ → Prop) :
    Yields (tryCatch program handler) state post ↔
      Ends program state post fun error after => Yields (handler error) after post := by
  unfold Ends Yields
  cases ran : program state with
  | ok value after => rw [tryCatch_returned ran]
  | error error after => rw [tryCatch_thrown ran]

end Ends

/-- Wherever it starts and however it ends, the program leaves a related state. -/
def Leads (relation : σ → σ → Prop) (program : EStateM ε σ α) : Prop :=
  ∀ state, Ends program state (fun _ after => relation state after) fun _ after => relation state after

namespace Leads

variable {relation : σ → σ → Prop}

theorem pure [Std.Refl relation] (value : α) : Leads relation (Pure.pure value : EStateM ε σ α) :=
  fun state => Std.Refl.refl state

theorem throw [Std.Refl relation] (thrown : ε) : Leads relation (MonadExcept.throw thrown : EStateM ε σ α) :=
  fun state => Std.Refl.refl state

theorem get [Std.Refl relation] : Leads relation (MonadState.get : EStateM ε σ σ) := fun state => Std.Refl.refl state

theorem modifies {change : σ → σ} (related : ∀ state, relation state (change state)) :
    Leads relation (modify change : EStateM ε σ PUnit) := related

theorem bind [IsTrans σ relation] {program : EStateM ε σ α} {next : α → EStateM ε σ β} (first : Leads relation program)
    (rest : ∀ value, Leads relation (next value)) : Leads relation (program >>= next) := by
  intro state
  rw [ends_bind]
  refine (first state).mono (fun value middle early => ?_) fun _ _ => id
  exact (rest value middle).mono (fun _ _ => IsTrans.trans _ _ _ early) fun _ _ => IsTrans.trans _ _ _ early

theorem ite {condition : Prop} [Decidable condition] {first second : EStateM ε σ α}
    (yes : condition → Leads relation first) (no : ¬ condition → Leads relation second) :
    Leads relation (if condition then first else second) := by
  split
  next holds => exact yes holds
  next fails => exact no fails

/-- What is caught has led to a related state too. -/
theorem tryCatch [IsTrans σ relation] {program : EStateM ε σ α} {handler : ε → EStateM ε σ α}
    (first : Leads relation program) (rest : ∀ thrown, Leads relation (handler thrown)) :
    Leads relation (MonadExcept.tryCatch program handler) := by
  intro state
  rw [ends_tryCatch]
  refine (first state).mono (fun _ _ => id) fun thrown middle early => ?_
  exact (rest thrown middle).mono (fun _ _ => IsTrans.trans _ _ _ early) fun _ _ => IsTrans.trans _ _ _ early

theorem mapM [Std.Refl relation] [IsTrans σ relation] {items : List α} {body : α → EStateM ε σ β}
    (each : ∀ item ∈ items, Leads relation (body item)) : Leads relation (items.mapM body) := by
  induction items with
  | nil => exact pure _
  | cons item rest ih =>
    rw [List.mapM_cons]
    refine (each item (by simp)).bind fun value => ?_
    exact (ih fun other member => each other (by simp [member])).bind fun _ => pure _

theorem forM [Std.Refl relation] [IsTrans σ relation] {items : List α} {body : α → EStateM ε σ PUnit}
    (each : ∀ item ∈ items, Leads relation (body item)) : Leads relation (items.forM body) := by
  induction items with
  | nil => exact pure _
  | cons item rest ih =>
    change Leads relation (body item >>= fun _ => rest.forM body)
    refine (each item (by simp)).bind fun _ => ?_
    exact ih fun other member => each other (by simp [member])

/-- What a program answers may decide where the rest of it leads. -/
theorem bind_yields [IsTrans σ relation] {program : EStateM ε σ α} {next : α → EStateM ε σ β} {good : α → Prop}
    (first : Leads relation program) (answers : ∀ state, Yields program state fun value _ => good value)
    (rest : ∀ value, good value → Leads relation (next value)) : Leads relation (program >>= next) := by
  intro state
  have early := first state
  have answered := answers state
  rw [ends_bind]
  unfold Ends at early ⊢
  unfold Yields at answered
  cases ran : program state with
  | ok value middle =>
    rw [ran] at early answered
    exact (rest value answered middle).mono (fun _ _ => IsTrans.trans _ _ _ early) fun _ _ => IsTrans.trans _ _ _ early
  | error error middle =>
    rw [ran] at early
    exact early

end Leads

def leftState : EStateM.Result ε σ α → σ
  | .ok _ after => after
  | .error _ after => after

theorem Leads.left {relation : σ → σ → Prop} {program : EStateM ε σ α} (leads : Leads relation program) (state : σ) :
    relation state (leftState (program state)) := by
  have ends := leads state
  unfold Ends at ends
  cases ran : program state with
  | ok value after =>
    rw [ran] at ends
    exact ends
  | error error after =>
    rw [ran] at ends
    exact ends

/-- From a state with a property to one with it. -/
def Preserving (property : σ → Prop) (before after : σ) : Prop := property before → property after

instance (property : σ → Prop) : IsPreorder σ (Preserving property) where
  refl _ := id
  trans _ _ _ early late holds := late (early holds)

/-- What is read of a state with the property may be used where the property is to be preserved. -/
theorem Leads.get_bind {property : σ → Prop} {next : σ → EStateM ε σ β}
    (rest : ∀ state, property state → Leads (Preserving property) (next state)) :
    Leads (Preserving property) (MonadState.get >>= next) := by
  intro state
  by_cases holds : property state
  · exact rest state holds state
  · unfold Ends
    split
    next => exact fun impossible => absurd impossible holds
    next => exact fun impossible => absurd impossible holds

/-- Each item gives a related result, and the state stays as it is. -/
theorem yields_mapM_each {items : List α} {body : α → EStateM ε σ β} {related : α → β → Prop}
    (each : ∀ item state, Yields (body item) state fun result after => after = state ∧ related item result) (state : σ) :
    Yields (items.mapM body) state fun results after => after = state ∧ List.Forall₂ related items results := by
  induction items with
  | nil => exact ⟨rfl, .nil⟩
  | cons item items ih =>
    rw [List.mapM_cons, yields_bind]
    refine (each item state).mono ?_
    rintro result _ ⟨rfl, first⟩
    rw [yields_bind]
    refine ih.mono ?_
    rintro results _ ⟨rfl, rest⟩
    exact ⟨rfl, .cons first rest⟩

section Histories
variable {ω : Type u}

def Permitted (execute : ω → EStateM ε σ PUnit) (permitted : ω → σ → Prop) : List ω → σ → Prop
  | [], _ => True
  | operation :: rest, state =>
      permitted operation state ∧ ∀ after, execute operation state = .ok ⟨⟩ after → Permitted execute permitted rest after

/-- An invariant that each permitted operation keeps, and under which it
returns, carries over to every history of permitted operations. -/
theorem returns_history {execute : ω → EStateM ε σ PUnit} {permitted : ω → σ → Prop} {invariant : σ → Prop}
    (step : ∀ operation state, invariant state → permitted operation state →
      Returns (execute operation) state fun _ after => invariant after)
    {history : List ω} {state : σ} (start : invariant state) (allowed : Permitted execute permitted history state) :
    Returns (history.forM execute) state fun _ final => invariant final := by
  induction history generalizing state with
  | nil => exact start
  | cons operation rest ih =>
    change Returns (execute operation >>= fun _ => rest.forM execute) state _
    rw [returns_bind]
    obtain ⟨_, after, ran, kept⟩ := returns_iff.mp (step operation state start allowed.1)
    exact returns_iff.mpr ⟨_, after, ran, ih kept (allowed.2 after ran)⟩

end Histories

theorem bind_ok {first : Except ε α} {next : α → Except ε β} {result : β} (ran : (first >>= next) = .ok result) :
    ∃ value, first = .ok value ∧ next value = .ok result := by
  cases first with
  | error => cases ran
  | ok value => exact ⟨value, rfl, ran⟩

end Slate.Library
