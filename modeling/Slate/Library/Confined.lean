import Slate.Library.Programs

/-! Programs of which it is known, wherever they start, where they lead and what they throw. -/

namespace Slate.Library
variable {ε σ α β : Type} {relation : σ → σ → Prop} {allowed : ε → Prop}

/-- Wherever it starts and however it ends, the program leaves a related state, and what it throws is allowed. -/
def Confined (relation : σ → σ → Prop) (allowed : ε → Prop) (program : EStateM ε σ α) : Prop :=
  ∀ state, Ends program state (fun _ after => relation state after) fun error after => allowed error ∧ relation state after

namespace Confined

theorem pure [Std.Refl relation] (value : α) : Confined relation allowed (Pure.pure value : EStateM ε σ α) :=
  fun state => Std.Refl.refl state

theorem throw [Std.Refl relation] {error : ε} (may : allowed error) :
    Confined relation allowed (MonadExcept.throw error : EStateM ε σ α) := fun state => ⟨may, Std.Refl.refl state⟩

theorem get [Std.Refl relation] : Confined relation allowed (MonadState.get : EStateM ε σ σ) := fun state => Std.Refl.refl state

theorem modifies {change : σ → σ} (related : ∀ state, relation state (change state)) :
    Confined relation allowed (modify change : EStateM ε σ PUnit) := related

theorem bind [IsTrans σ relation] {program : EStateM ε σ α} {next : α → EStateM ε σ β} (first : Confined relation allowed program)
    (rest : ∀ value, Confined relation allowed (next value)) : Confined relation allowed (program >>= next) := by
  intro state
  rw [ends_bind]
  apply (first state).mono
  · intro value middle early
    apply (rest value middle).mono
    · exact fun _ _ => IsTrans.trans _ _ _ early
    · exact fun _ _ halted => ⟨halted.1, IsTrans.trans _ _ _ early halted.2⟩
  · exact fun _ _ => id

theorem ite {condition : Prop} [Decidable condition] {first second : EStateM ε σ α} (yes : Confined relation allowed first)
    (no : Confined relation allowed second) : Confined relation allowed (if condition then first else second) := by
  split
  next => exact yes
  next => exact no

/-- A check before the rest of a program. -/
theorem check [Std.Refl relation] [IsTrans σ relation] {condition : Prop} [Decidable condition] {error : ε} (may : allowed error)
    {next : PUnit → EStateM ε σ α} (rest : ∀ value, Confined relation allowed (next value)) :
    Confined relation allowed (if condition then MonadExcept.throw error >>= next else next ⟨⟩) :=
  .ite ((throw may).bind rest) (rest ⟨⟩)

theorem mapM [Std.Refl relation] [IsTrans σ relation] {items : List α} {body : α → EStateM ε σ β}
    (each : ∀ item ∈ items, Confined relation allowed (body item)) : Confined relation allowed (items.mapM body) := by
  induction items with
  | nil => exact pure _
  | cons item rest ih =>
    rw [List.mapM_cons]
    apply (each item (.head _)).bind
    intro value
    exact (ih fun other member => each other (.tail _ member)).bind fun _ => pure _

theorem forM [Std.Refl relation] [IsTrans σ relation] {items : List α} {body : α → EStateM ε σ PUnit}
    (each : ∀ item ∈ items, Confined relation allowed (body item)) : Confined relation allowed (items.forM body) := by
  induction items with
  | nil => exact pure _
  | cons item rest ih =>
    change Confined relation allowed (body item >>= fun _ => rest.forM body)
    apply (each item (.head _)).bind
    intro _
    exact ih fun other member => each other (.tail _ member)

/-- More may be allowed. -/
theorem allow {more : ε → Prop} {program : EStateM ε σ α} (confined : Confined relation allowed program)
    (also : ∀ error, allowed error → more error) : Confined relation more program :=
  fun state => (confined state).mono (fun _ _ => id) fun error _ halted => ⟨also error halted.1, halted.2⟩

end Confined

/-- What a program yields is known however it ends. -/
theorem Ends.also {program : EStateM ε σ α} {state : σ} {post other : α → σ → Prop} {thrown : ε → σ → Prop}
    (ends : Ends program state post thrown) (yields : Yields program state other) :
    Ends program state (fun value after => post value after ∧ other value after) thrown := by
  unfold Ends at ends ⊢
  unfold Yields at yields
  cases ran : program state with
  | ok value after =>
    rw [ran] at ends yields
    exact ⟨ends, yields⟩
  | error error after =>
    rw [ran] at ends
    exact ends

end Slate.Library
