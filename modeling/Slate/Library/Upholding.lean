import Mathlib.Order.RelClasses
import Slate.Library.Programs
import Slate.Library.Serving

/-! Programs that uphold an invariant. From a state with it they lead to a related one with it,
and what they return or throw is known as well. -/

namespace Slate.Library
variable {ε σ α β : Type} {invariant : σ → Prop} {relation : σ → σ → Prop} {allowed : ε → Prop} {good better : α → Prop}

/-- However the program ends, it keeps the invariant and leaves a related state; what it
returns is good, and what it throws is allowed. -/
def Upholds (invariant : σ → Prop) (relation : σ → σ → Prop) (allowed : ε → Prop) (program : EStateM ε σ α)
    (good : α → Prop) : Prop :=
  ∀ state, invariant state → Ends program state (fun value after => invariant after ∧ relation state after ∧ good value)
    fun error after => invariant after ∧ relation state after ∧ allowed error

namespace Upholds

theorem pure [Std.Refl relation] {value : α} (holds : good value) :
    Upholds invariant relation allowed (Pure.pure value : EStateM ε σ α) good :=
  fun state kept => ⟨kept, Std.Refl.refl state, holds⟩

theorem throw [Std.Refl relation] {error : ε} (may : allowed error) :
    Upholds invariant relation allowed (MonadExcept.throw error : EStateM ε σ α) good :=
  fun state kept => ⟨kept, Std.Refl.refl state, may⟩

/-- What is read of the state has the invariant. -/
theorem get [Std.Refl relation] : Upholds invariant relation allowed (MonadState.get : EStateM ε σ σ) invariant :=
  fun state kept => ⟨kept, Std.Refl.refl state, kept⟩

theorem modifies {change : σ → σ} (keeps : ∀ state, invariant state → invariant (change state) ∧ relation state (change state)) :
    Upholds invariant relation allowed (modify change : EStateM ε σ PUnit) fun _ => True :=
  fun state kept => ⟨(keeps state kept).1, (keeps state kept).2, trivial⟩

theorem modifyGet {change : σ → α × σ}
    (keeps : ∀ state, invariant state → invariant (change state).2 ∧ relation state (change state).2 ∧ good (change state).1) :
    Upholds invariant relation allowed (MonadStateOf.modifyGet change : EStateM ε σ α) good :=
  keeps

theorem bind [IsTrans σ relation] {program : EStateM ε σ α} {next : α → EStateM ε σ β} {result : β → Prop}
    (first : Upholds invariant relation allowed program good)
    (rest : ∀ value, good value → Upholds invariant relation allowed (next value) result) :
    Upholds invariant relation allowed (program >>= next) result := by
  intro state kept
  rw [ends_bind]
  apply (first state kept).mono
  · rintro value middle ⟨keptToo, early, holds⟩
    apply (rest value holds middle keptToo).mono
    · exact fun _ _ last => ⟨last.1, IsTrans.trans _ _ _ early last.2.1, last.2.2⟩
    · exact fun _ _ last => ⟨last.1, IsTrans.trans _ _ _ early last.2.1, last.2.2⟩
  · exact fun _ _ => id

/-- From one state, where more is known of what the first program returns there. -/
theorem bind_ends [IsTrans σ relation] {program : EStateM ε σ α} {next : α → EStateM ε σ β} {result : β → Prop} {state : σ}
    {known : α → σ → Prop} (first : Upholds invariant relation allowed program good) (kept : invariant state)
    (yields : Yields program state known)
    (rest : ∀ value middle, good value → invariant middle → known value middle → Ends (next value) middle
      (fun value after => invariant after ∧ relation middle after ∧ result value)
      fun error after => invariant after ∧ relation middle after ∧ allowed error) :
    Ends (program >>= next) state (fun value after => invariant after ∧ relation state after ∧ result value)
      fun error after => invariant after ∧ relation state after ∧ allowed error := by
  rw [ends_bind]
  apply ((first state kept).and_yields yields).mono
  · rintro value middle ⟨⟨keptToo, early, holds⟩, knows⟩
    apply (rest value middle holds keptToo knows).mono
    · exact fun _ _ last => ⟨last.1, IsTrans.trans _ _ _ early last.2.1, last.2.2⟩
    · exact fun _ _ last => ⟨last.1, IsTrans.trans _ _ _ early last.2.1, last.2.2⟩
  · exact fun _ _ => id

theorem ite {condition : Prop} [Decidable condition] {first second : EStateM ε σ α}
    (yes : condition → Upholds invariant relation allowed first good)
    (no : ¬ condition → Upholds invariant relation allowed second good) :
    Upholds invariant relation allowed (if condition then first else second) good := by
  split
  next holds => exact yes holds
  next fails => exact no fails

theorem mono {program : EStateM ε σ α} (upholds : Upholds invariant relation allowed program good)
    (implies : ∀ value, good value → better value) : Upholds invariant relation allowed program better :=
  fun state kept => (upholds state kept).mono (fun _ _ last => ⟨last.1, last.2.1, implies _ last.2.2⟩) fun _ _ => id

theorem allow {more : ε → Prop} {program : EStateM ε σ α} (upholds : Upholds invariant relation allowed program good)
    (also : ∀ error, allowed error → more error) : Upholds invariant relation more program good :=
  fun state kept => (upholds state kept).mono (fun _ _ => id) fun _ _ last => ⟨last.1, last.2.1, also _ last.2.2⟩

/-- What is caught leaves a state with the invariant as well. -/
theorem tryCatch [IsTrans σ relation] {more : ε → Prop} {program : EStateM ε σ α} {handler : ε → EStateM ε σ α}
    (upholds : Upholds invariant relation allowed program good)
    (handled : ∀ error, allowed error → Upholds invariant relation more (handler error) good) :
    Upholds invariant relation more (MonadExcept.tryCatch program handler) good := by
  intro state kept
  rw [ends_tryCatch]
  apply (upholds state kept).mono
  · exact fun _ _ => id
  · rintro error middle ⟨keptToo, early, holds⟩
    apply (handled error holds middle keptToo).mono
    · exact fun _ _ last => ⟨last.1, IsTrans.trans _ _ _ early last.2.1, last.2.2⟩
    · exact fun _ _ last => ⟨last.1, IsTrans.trans _ _ _ early last.2.1, last.2.2⟩

/-- A program on a part of a state leaves the whole as it leaves the part. -/
theorem within {τ : Type} {part : τ → σ} {put : τ → σ → τ} {program : EStateM ε σ α} {whole : EStateM ε τ α}
    (upholds : Upholds invariant relation allowed program good) (gets : ∀ state after, part (put state after) = after)
    (runs : ∀ state post thrown, Ends whole state post thrown ↔ Ends program (part state)
      (fun value after => post value (put state after)) fun error after => thrown error (put state after)) :
    Upholds (fun state => invariant (part state)) (Order.Preimage part relation) allowed whole good := by
  intro state kept
  rw [runs]
  apply (upholds (part state) kept).mono
  · intro value after last
    dsimp only [Order.Preimage]
    rw [gets]
    exact last
  · intro error after last
    dsimp only [Order.Preimage]
    rw [gets]
    exact last

theorem mapM [Std.Refl relation] [IsTrans σ relation] {items : List α} {body : α → EStateM ε σ β} {result : β → Prop}
    (each : ∀ item ∈ items, Upholds invariant relation allowed (body item) result) :
    Upholds invariant relation allowed (items.mapM body) fun values => ∀ value ∈ values, result value := by
  induction items with
  | nil => exact pure fun _ member => False.elim (List.not_mem_nil member)
  | cons item rest ih =>
    rw [List.mapM_cons]
    apply (each item (.head _)).bind
    intro value holds
    apply (ih fun other member => each other (.tail _ member)).bind
    intro values others
    apply pure
    intro other member
    rcases List.mem_cons.mp member with rfl | later
    · exact holds
    · exact others other later

theorem forM [Std.Refl relation] [IsTrans σ relation] {items : List α} {body : α → EStateM ε σ PUnit}
    (each : ∀ item ∈ items, Upholds invariant relation allowed (body item) fun _ => True) :
    Upholds invariant relation allowed (items.forM body) fun _ => True := by
  induction items with
  | nil => exact pure trivial
  | cons item rest ih =>
    change Upholds invariant relation allowed (body item >>= fun _ => rest.forM body) _
    apply (each item (.head _)).bind
    intro _ _
    exact ih fun other member => each other (.tail _ member)

end Upholds

/-- Where each operation that meets the condition keeps the invariant and is served as it should
be, all operations of a sequence are, if they meet the condition. -/
theorem serveAll_each {ω : Type} {serve : ω → σ → α × σ} (invariant : σ → Prop) (condition : ω → Prop)
    (right : Served ω σ α → Prop)
    (step : ∀ operation state, invariant state → condition operation →
      invariant (serve operation state).2 ∧ right ⟨operation, state, (serve operation state).1, (serve operation state).2⟩)
    {operations : List ω} {start : σ} (holds : invariant start) (met : ∀ operation ∈ operations, condition operation) :
    ∀ served ∈ serveAll serve operations start, invariant served.after ∧ right served := by
  induction operations generalizing start with
  | nil => exact fun served member => False.elim (List.not_mem_nil member)
  | cons operation operations ih =>
    obtain ⟨kept, well⟩ := step operation start holds (met _ (.head _))
    intro served member
    rcases List.mem_cons.mp member with rfl | later
    · exact ⟨kept, well⟩
    · exact ih kept (fun other inside => met other (.tail _ inside)) served later

end Slate.Library
