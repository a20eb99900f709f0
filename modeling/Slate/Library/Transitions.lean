import Mathlib.Logic.Relation
import Mathlib.Order.Basic

/-! Transition systems given by a step function that says which actions are possible. -/

namespace Slate.Library

universe u v

variable {α : Type u} {σ : Type v} {step : α → σ → Option σ} {permitted other : α → σ → Prop} {start state : σ}

inductive Reached (step : α → σ → Option σ) (permitted : α → σ → Prop) (start : σ) : σ → Prop
  | start : Reached step permitted start start
  | step {before after : σ} (action : α) : Reached step permitted start before → permitted action before →
    step action before = some after → Reached step permitted start after

namespace Reached

/-- What every permitted action keeps holds wherever such actions lead. -/
theorem keeps {invariant : σ → Prop} (reached : Reached step permitted start state) (holds : invariant start)
    (preserves : ∀ action before after, permitted action before → step action before = some after →
      invariant before → invariant after) : invariant state := by
  induction reached with
  | start => exact holds
  | step action _ allowed stepped kept => exact preserves action _ _ allowed stepped kept

/-- A run by permitted actions. -/
theorem of_run {before : σ} (reached : Reached step (fun _ _ => True) start before) (actions : List α)
    (ran : actions.foldlM (fun current action => step action current) before = some state) :
    Reached step (fun _ _ => True) start state := by
  induction actions generalizing before with
  | nil =>
    cases ran
    exact reached
  | cons action actions induction =>
    rw [List.foldlM_cons] at ran
    obtain ⟨middle, stepped, rest⟩ := Option.bind_eq_some_iff.mp ran
    exact induction (reached.step action trivial stepped) rest

theorem trans {middle : σ} (first : Reached step permitted start middle) (more : Reached step permitted middle state) :
    Reached step permitted start state := by
  induction more with
  | start => exact first
  | step action _ allowed stepped reached => exact reached.step action allowed stepped

theorem mono (reached : Reached step permitted start state)
    (weaker : ∀ action state, permitted action state → other action state) : Reached step other start state := by
  induction reached with
  | start => exact .start
  | step action _ allowed stepped reached => exact reached.step action (weaker action _ allowed) stepped

/-- A run that goes on by one more step. -/
theorem path {next : σ} {action : α} (reached : Reached step permitted start state)
    (stepped : step action state = some next) :
    Relation.TransGen (fun after before => ∃ action, step action before = some after) next start := by
  induction reached generalizing next action with
  | start => exact .single ⟨action, stepped⟩
  | step earlier _ _ came ih => exact .trans (.single ⟨action, stepped⟩) (ih came)

end Reached

/-- No run goes on forever. -/
def Terminates (step : α → σ → Option σ) (start : σ) : Prop :=
  Acc (fun after before => ∃ action, step action before = some after) start

/-- Nothing more can happen. -/
def Stopped (step : α → σ → Option σ) (state : σ) : Prop := ∀ action, step action state = none

namespace Terminates

theorem reached (ends : Terminates step start) (reached : Reached step permitted start state) :
    Terminates step state := by
  induction reached with
  | start => exact ends
  | step action _ _ stepped ends => exact ends.inv ⟨action, stepped⟩

/-- Where no run goes on forever, actions of one kind come to a state where none of them is possible. -/
theorem exhausts (kind : α → Prop) (ends : Terminates step start) :
    ∃ state, Reached step (fun action _ => kind action) start state ∧ ∀ action, kind action → step action state = none := by
  induction ends with
  | intro start _ ih =>
    by_cases able : ∃ action, kind action ∧ (step action start).isSome
    · obtain ⟨action, chosen, some_⟩ := able
      obtain ⟨next, stepped⟩ := Option.isSome_iff_exists.mp some_
      obtain ⟨state, reached, done⟩ := ih next ⟨action, stepped⟩
      exact ⟨state, (Reached.start.step action chosen stepped).trans reached, done⟩
    · refine ⟨start, .start, fun action chosen => ?_⟩
      rw [← Option.not_isSome_iff_eq_none]
      exact fun some_ => able ⟨action, chosen, some_⟩

variable {β : Type*} {τ : Type*} {coarse : β → τ → Option τ}

/-- Each step is one of a machine whose runs end, or leaves that machine where it is and brings
closer to an end what is left to do aside from it. -/
theorem of_simulation (shown : σ → τ) (left : σ → Nat) (invariant : σ → Prop) (holds : invariant start)
    (preserves : ∀ action before after, step action before = some after → invariant before → invariant after)
    (simulates : ∀ action before after, step action before = some after → invariant before →
      (∃ action, coarse action (shown before) = some (shown after)) ∨
      shown after = shown before ∧ left after < left before)
    (ends : Terminates coarse (shown start)) : Terminates step start := by
  generalize place : shown start = state at ends
  induction ends generalizing start with
  | intro state _ ih =>
    induction bound : left start using Nat.strongRecOn generalizing start with
    | ind bound closer =>
      refine .intro _ fun after ⟨action, stepped⟩ => ?_
      have kept := preserves action _ _ stepped holds
      rcases simulates action _ _ stepped holds with ⟨action, moved_⟩ | ⟨same, less⟩
      · exact ih (shown after) ⟨action, place ▸ moved_⟩ kept rfl
      · exact closer (left after) (bound ▸ less) kept (same.trans place) rfl

/-- Each step is answered by one or more steps of a machine whose runs end. -/
theorem of_answered (follows : τ → σ → Prop) {slow : τ}
    (answers : ∀ action before after state, coarse action before = some after → follows before state →
      ∃ middle next answer, Reached step (fun _ _ => True) state middle ∧ step answer middle = some next ∧
        follows after next)
    (together : follows slow start) (ends : Terminates step start) : Terminates coarse slow := by
  have far := Acc.transGen ends
  induction far generalizing slow with
  | intro start _ ih =>
    refine .intro _ fun after ⟨action, stepped⟩ => ?_
    obtain ⟨middle, next, answer, reached, answered, still⟩ := answers action slow after start stepped together
    have path := reached.path answered
    exact ih next path still (Acc.inv_of_transGen ends path)

/-- A step that changes nothing could be taken forever. -/
theorem changes (ends : Terminates step start) (action : α) : step action start ≠ some start := by
  induction ends with
  | intro start _ ih => exact fun same => ih start ⟨action, same⟩ same

end Terminates

/-- Where the steps of a machine are answered, its runs are. -/
theorem Reached.answered {β : Type*} {τ : Type*} {coarse : β → τ → Option τ} (follows : τ → σ → Prop) {slow after : τ}
    (reached : Reached coarse (fun _ _ => True) slow after)
    (answers : ∀ action before after state, coarse action before = some after → follows before state →
      ∃ middle next answer, Reached step (fun _ _ => True) state middle ∧ step answer middle = some next ∧
        follows after next)
    (together : follows slow start) :
    ∃ state, Reached step (fun _ _ => True) start state ∧ follows after state := by
  induction reached with
  | start => exact ⟨start, .start, together⟩
  | step action _ _ stepped ih =>
    obtain ⟨state, came, follow⟩ := ih
    obtain ⟨middle, next, answer, more, answered, still⟩ := answers action _ _ state stepped follow
    exact ⟨next, (came.trans more).step answer trivial answered, still⟩

end Slate.Library
