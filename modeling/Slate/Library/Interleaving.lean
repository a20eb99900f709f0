import Slate.Library.Programs
import Mathlib.Logic.Function.Basic
import Mathlib.Logic.Relation

/-! Any number of calls that run at once over one shared state. Each call is a
program of atomic steps; a schedule says which call begins or moves next. The
calls see each other through the shared state only. -/

namespace Slate.Library

/-- What a call can be asked to do, where it starts and how it moves. A call
that has nothing left to do, or whose step throws, cannot move. -/
structure System (σ ω π : Type) where
  idle : π → Bool
  begin : ω → π
  advance : π → σ → Option (π × σ)

structure Pool (σ π : Type) where
  store : σ
  calls : Nat → π

inductive Event (ω : Type) where
  | start (call : Nat) (operation : ω)
  | advance (call : Nat)
  deriving DecidableEq, Repr

def Event.call {ω : Type} : Event ω → Nat
  | .start call _ => call
  | .advance call => call

namespace System

variable {σ ω π : Type} (system : System σ ω π)

def step : Event ω → Pool σ π → Option (Pool σ π)
  | .start call operation, pool =>
      if system.idle (pool.calls call) then
        some { pool with calls := Function.update pool.calls call (system.begin operation) }
      else none
  | .advance call, pool =>
      (system.advance (pool.calls call) pool.store).map fun moved =>
        { store := moved.2, calls := Function.update pool.calls call moved.1 }

def run (events : List (Event ω)) (pool : Pool σ π) : Option (Pool σ π) :=
  events.foldlM (fun current event => system.step event current) pool

variable {system}

theorem step_start {call : Nat} {operation : ω} {pool after : Pool σ π}
    (stepped : system.step (.start call operation) pool = some after) :
    system.idle (pool.calls call) = true ∧
      after = { pool with calls := Function.update pool.calls call (system.begin operation) } := by
  simp only [step] at stepped
  split at stepped
  next waiting => exact ⟨waiting, (Option.some.inj stepped).symm⟩
  next => cases stepped

theorem step_advance {call : Nat} {pool after : Pool σ π} (stepped : system.step (.advance call) pool = some after) :
    ∃ moved store, system.advance (pool.calls call) pool.store = some (moved, store) ∧
      after = { store, calls := Function.update pool.calls call moved } := by
  obtain ⟨⟨moved, store⟩, advanced, rfl⟩ := Option.map_eq_some_iff.mp stepped
  exact ⟨moved, store, advanced, rfl⟩

/-- A step moves one call and leaves every other where it is. -/
theorem step_moved {call : Nat} {pool after : Pool σ π} (stepped : system.step (.advance call) pool = some after) :
    system.advance (pool.calls call) pool.store = some (after.calls call, after.store) ∧
      ∀ other, other ≠ call → after.calls other = pool.calls other := by
  obtain ⟨moved, store, advanced, rfl⟩ := step_advance stepped
  dsimp only
  rw [Function.update_self]
  exact ⟨advanced, fun other different => Function.update_of_ne different _ _⟩

/-- A call that starts leaves the shared state and every other call as they are. -/
theorem step_started {call : Nat} {operation : ω} {pool after : Pool σ π}
    (stepped : system.step (.start call operation) pool = some after) :
    after.store = pool.store ∧ after.calls call = system.begin operation ∧
      ∀ other, other ≠ call → after.calls other = pool.calls other := by
  obtain ⟨-, rfl⟩ := step_start stepped
  exact ⟨rfl, Function.update_self _ _ _, fun other different => Function.update_of_ne different _ _⟩

theorem run_cons {event : Event ω} {events : List (Event ω)} {pool final : Pool σ π} :
    system.run (event :: events) pool = some final ↔
      ∃ middle, system.step event pool = some middle ∧ system.run events middle = some final := by
  simp only [run, List.foldlM_cons, Option.bind_eq_bind, Option.bind_eq_some_iff]

theorem run_append {first last : List (Event ω)} {pool final : Pool σ π} :
    system.run (first ++ last) pool = some final ↔
      ∃ middle, system.run first pool = some middle ∧ system.run last middle = some final := by
  simp only [run, List.foldlM_append, Option.bind_eq_bind, Option.bind_eq_some_iff]

/-- What every permitted event preserves holds at the end of the run. -/
theorem run_keeps {kept : Pool σ π → Prop} {events : List (Event ω)} {pool final : Pool σ π}
    (ran : system.run events pool = some final) (start : kept pool)
    (preserves : ∀ event ∈ events, ∀ before after, system.step event before = some after → kept before → kept after) :
    kept final := by
  induction events generalizing pool with
  | nil =>
    cases ran
    exact start
  | cons event events ih =>
    obtain ⟨middle, stepped, rest⟩ := run_cons.mp ran
    exact ih rest (preserves event (by simp) _ _ stepped start)
      (fun later member => preserves later (by simp [member]))

/-- A call that no event is about stays where it is. -/
theorem run_untouched {events : List (Event ω)} {pool final : Pool σ π} {call : Nat}
    (ran : system.run events pool = some final) (untouched : ∀ event ∈ events, event.call ≠ call) :
    final.calls call = pool.calls call := by
  induction events generalizing pool with
  | nil =>
    cases ran
    rfl
  | cons event events ih =>
    obtain ⟨middle, stepped, rest⟩ := run_cons.mp ran
    have other := (untouched event (by simp)).symm
    refine (ih rest fun later member => untouched later (by simp [member])).trans ?_
    cases event with
    | start moving operation => exact (step_started stepped).2.2 call other
    | advance moving => exact (step_moved stepped).2 call other

/-- A property of the shared state together with one of each call separately. -/
structure Confined (shared : σ → Prop) (own : Nat → π → Prop) (pool : Pool σ π) : Prop where
  shared : shared pool.store
  calls : ∀ call, own call (pool.calls call)

/-- When no call that keeps its own property can break the shared one, both
survive every schedule. -/
theorem run_confined {shared : σ → Prop} {own : Nat → π → Prop} {events : List (Event ω)} {pool final : Pool σ π}
    (ran : system.run events pool = some final) (start : Confined shared own pool)
    (begins : ∀ call operation, .start call operation ∈ events → own call (system.begin operation))
    (advances : ∀ call current store moved after, shared store → own call current →
      system.advance current store = some (moved, after) → shared after ∧ own call moved) :
    Confined shared own final := by
  have replaced : ∀ (calls : Nat → π) call current, (∀ other, own other (calls other)) → own call current →
      ∀ other, own other (Function.update calls call current other) := by
    intro calls call current each fresh other
    rcases eq_or_ne other call with rfl | different
    · simpa using fresh
    · simpa [different] using each other
  refine run_keeps ran start ?_
  intro event member before after stepped holds
  cases event with
  | start call operation =>
    obtain ⟨-, rfl⟩ := step_start stepped
    exact ⟨holds.shared, replaced _ _ _ holds.calls (begins call operation member)⟩
  | advance call =>
    obtain ⟨moved, store, advanced, rfl⟩ := step_advance stepped
    obtain ⟨first, second⟩ := advances call _ _ _ _ holds.shared (holds.calls call) advanced
    exact ⟨first, replaced _ _ _ holds.calls second⟩

/-- A call that begins in the middle of such a run has a property that every call
has when it begins and after each step. -/
theorem run_begun {shared : σ → Prop} {own : π → Prop} (fresh : π → Prop) {earlier later : List (Event ω)} {begun : Nat}
    {request : ω} {pool final : Pool σ π} (ran : system.run (earlier ++ .start begun request :: later) pool = some final)
    (start : Confined shared (fun _ => own) pool)
    (begins : ∀ call operation, .start call operation ∈ earlier ++ .start begun request :: later →
      own (system.begin operation) ∧ fresh (system.begin operation))
    (advances : ∀ current store moved after, shared store → own current →
      system.advance current store = some (moved, after) → shared after ∧ own moved ∧ fresh moved) :
    shared final.store ∧ fresh (final.calls begun) := by
  obtain ⟨middle, before, rest⟩ := run_append.mp ran
  obtain ⟨entered, begins', after⟩ := run_cons.mp rest
  have reached : Confined shared (fun _ => own) middle := by
    refine run_confined before start (fun call operation member => (begins call operation (by simp [member])).1) ?_
    intro call current store moved after kept mine advanced
    obtain ⟨shared', own', -⟩ := advances current store moved after kept mine advanced
    exact ⟨shared', own'⟩
  obtain ⟨-, rfl⟩ := step_start begins'
  have first := begins begun request (by simp)
  have started : Confined shared (fun call current => own current ∧ (call = begun → fresh current))
      { middle with calls := Function.update middle.calls begun (system.begin request) } := by
    refine ⟨reached.shared, fun call => ?_⟩
    dsimp only
    rcases eq_or_ne call begun with rfl | different
    · rw [Function.update_self]
      exact ⟨first.1, fun _ => first.2⟩
    · rw [Function.update_of_ne different]
      exact ⟨reached.calls call, fun same => absurd same different⟩
  have ended := run_confined after started
    (fun call operation member => (begins call operation (by simp [member])).imp_right fun holds _ => holds) ?_
  · exact ⟨ended.shared, (ended.calls begun).2 rfl⟩
  · rintro call current store moved after kept ⟨mine, -⟩ advanced
    obtain ⟨shared', own', fresh'⟩ := advances current store moved after kept mine advanced
    exact ⟨shared', own', fun _ => fresh'⟩

/-- Every event of the run meets a condition in the pool it happens in. -/
def Meets (system : System σ ω π) (condition : Event ω → Pool σ π → Prop) : List (Event ω) → Pool σ π → Prop
  | [], _ => True
  | event :: events, pool =>
      condition event pool ∧ ∀ after, system.step event pool = some after → Meets system condition events after

theorem meets_append {condition : Event ω → Pool σ π → Prop} {first last : List (Event ω)} {pool middle : Pool σ π}
    (meets : system.Meets condition (first ++ last) pool) (ran : system.run first pool = some middle) :
    system.Meets condition first pool ∧ system.Meets condition last middle := by
  induction first generalizing pool with
  | nil =>
    cases ran
    exact ⟨trivial, meets⟩
  | cons event events ih =>
    obtain ⟨next, stepped, rest⟩ := run_cons.mp ran
    refine ⟨⟨meets.1, fun after stepped' => ?_⟩, (ih (meets.2 next stepped) rest).2⟩
    obtain rfl : next = after := Option.some.inj (stepped.symm.trans stepped')
    exact (ih (meets.2 next stepped) rest).1

theorem meets_mono {condition weaker : Event ω → Pool σ π → Prop} {events : List (Event ω)} {pool : Pool σ π}
    (meets : system.Meets condition events pool) (implies : ∀ event pool, condition event pool → weaker event pool) :
    system.Meets weaker events pool := by
  induction events generalizing pool with
  | nil => trivial
  | cons event events ih => exact ⟨implies event pool meets.1, fun after stepped => ih (meets.2 after stepped)⟩

/-- What every event that meets the condition preserves holds at the end of the run. -/
theorem run_meets {condition : Event ω → Pool σ π → Prop} {kept : Pool σ π → Prop} {events : List (Event ω)}
    {pool final : Pool σ π} (ran : system.run events pool = some final) (meets : system.Meets condition events pool)
    (start : kept pool)
    (preserves : ∀ event before after, system.step event before = some after → condition event before → kept before →
      kept after) :
    kept final := by
  induction events generalizing pool with
  | nil =>
    cases ran
    exact start
  | cons event events ih =>
    obtain ⟨middle, stepped, rest⟩ := run_cons.mp ran
    exact ih rest (meets.2 middle stepped) (preserves event _ _ stepped meets.1 start)

variable (system)

/-- A call that runs without interference. -/
def Alone : π × σ → π × σ → Prop :=
  Relation.ReflTransGen fun before after => system.advance before.1 before.2 = some after

section Pieces
variable {ε α : Type}

/-- Each call that is not idle has a program to run in one step. -/
def ofPieces (idle : π → Bool) (begin : ω → π) (piece : π → EStateM ε σ π) : System σ ω π where
  idle := idle
  begin := begin
  advance := fun call store =>
    if idle call then none
    else match piece call store with
      | .ok moved after => some (moved, after)
      | .error _ _ => none

variable {idle : π → Bool} {begin : ω → π} {piece : π → EStateM ε σ π}

theorem advance_ofPieces {call moved : π} {store after : σ}
    (advanced : (ofPieces idle begin piece).advance call store = some (moved, after)) :
    idle call = false ∧ piece call store = .ok moved after := by
  simp only [ofPieces] at advanced
  split at advanced
  next => cases advanced
  next busy =>
    split at advanced
    next ran =>
      cases advanced
      exact ⟨by simpa using busy, ran⟩
    next => cases advanced

/-- What remains to be done of a call that runs alone never changes its outcome. -/
theorem alone_remaining {remaining : π → EStateM ε σ α}
    (moves : ∀ call, idle call = false → remaining call = piece call >>= remaining) {before after : π × σ}
    (alone : (ofPieces idle begin piece).Alone before after) :
    remaining before.1 before.2 = remaining after.1 after.2 := by
  induction alone with
  | refl => rfl
  | tail _ advanced same =>
    obtain ⟨busy, ran⟩ := advance_ofPieces advanced
    rw [same, moves _ busy]
    simp only [bind, EStateM.bind, ran]

end Pieces

end System
end Slate.Library
