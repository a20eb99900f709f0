import Mathlib.Logic.Basic

/-! Operations that one state serves one after the other. What holds of a state is kept by
each operation that meets a condition there, and so by a whole sequence of such. -/

namespace Slate.Library

variable {ω σ α ε : Type}

/-- One operation, with the state it starts from, its result and the state it leaves. -/
structure Served (ω σ α : Type) where
  operation : ω
  before : σ
  result : α
  after : σ

def serveAll (serve : ω → σ → α × σ) : List ω → σ → List (Served ω σ α)
  | [], _ => []
  | operation :: operations, state =>
    let served := serve operation state
    ⟨operation, state, served.1, served.2⟩ :: serveAll serve operations served.2

def servedState (serve : ω → σ → α × σ) (operations : List ω) (state : σ) : σ :=
  operations.foldl (fun current operation => (serve operation current).2) state

/-- What a program returns or throws, with the state it leaves. -/
def attempt (program : EStateM ε σ α) (state : σ) : Except ε α × σ :=
  match program state with
  | .ok value after => (.ok value, after)
  | .error thrown after => (.error thrown, after)

variable {serve : ω → σ → α × σ}

@[simp] theorem servedState_nil (state : σ) : servedState serve [] state = state := rfl

@[simp] theorem servedState_cons (operation : ω) (operations : List ω) (state : σ) :
    servedState serve (operation :: operations) state = servedState serve operations (serve operation state).2 := rfl

@[simp] theorem servedState_append (first second : List ω) (state : σ) :
    servedState serve (first ++ second) state = servedState serve second (servedState serve first state) :=
  List.foldl_append

theorem serveAll_append (first second : List ω) (state : σ) :
    serveAll serve (first ++ second) state = serveAll serve first state ++ serveAll serve second (servedState serve first state) := by
  induction first generalizing state with
  | nil => rfl
  | cons operation first ih => rw [List.cons_append, serveAll, ih, serveAll, servedState_cons, List.cons_append]

theorem result_of_mem {operations : List ω} {state : σ} {served : Served ω σ α}
    (member : served ∈ serveAll serve operations state) : served.result = (serve served.operation served.before).1 := by
  induction operations generalizing state with
  | nil => cases member
  | cons operation operations ih =>
    rcases List.mem_cons.mp member with rfl | later
    · rfl
    · exact ih later

/-- Where each operation that meets the condition keeps the invariant and is served well,
all operations of a sequence are, if they meet the condition. -/
theorem serveAll_good (invariant : σ → Prop) (condition : ω → σ → Prop) (good : ω → α → Prop)
    (step : ∀ operation state, invariant state → condition operation state →
      invariant (serve operation state).2 ∧ good operation (serve operation state).1)
    {operations : List ω} {start : σ} (holds : invariant start)
    (met : ∀ served ∈ serveAll serve operations start, condition served.operation served.before) :
    ∀ served ∈ serveAll serve operations start, good served.operation served.result := by
  induction operations generalizing start with
  | nil => exact fun served member => absurd member List.not_mem_nil
  | cons operation operations ih =>
    obtain ⟨kept, well⟩ := step operation start holds (met _ (.head _))
    intro served member
    rcases List.mem_cons.mp member with rfl | later
    · exact well
    · exact ih kept (fun served member => met served (.tail _ member)) served later

/-- An invariant that each operation keeps under the condition holds in the end. -/
theorem servedState_keeps (invariant : σ → Prop) (condition : ω → σ → Prop)
    (step : ∀ operation state, invariant state → condition operation state → invariant (serve operation state).2)
    {operations : List ω} {start : σ} (holds : invariant start)
    (met : ∀ served ∈ serveAll serve operations start, condition served.operation served.before) :
    invariant (servedState serve operations start) := by
  induction operations generalizing start with
  | nil => exact holds
  | cons operation operations ih =>
    exact ih (step operation start holds (met _ (.head _))) fun served member => met served (.tail _ member)

end Slate.Library
