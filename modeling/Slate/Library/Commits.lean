import Slate.Library.Interleaving
import Mathlib.Data.List.Perm.Basic
import Mathlib.Data.List.Nodup

/-! Calls that commit. In a run in which every step leaves a value alone, or applies to
it the effect of the call's own operation, the value ends up as if the operations had
been carried out one after another. -/

namespace Slate.Library

/-- The value that calls change, what each operation is to do to it, the operation that
a call was begun with, and whether the call has changed the value yet. -/
structure Commits (σ ω π ν : Type) where
  value : σ → ν
  effect : ω → ν → Option ν
  operation : π → Option ω
  committed : π → Bool

/-- The calls that the events begin, with what they are asked to do. -/
def begun {ω : Type} (events : List (Event ω)) : List (Nat × ω) :=
  events.filterMap fun event =>
    match event with
    | .start call operation => some (call, operation)
    | .advance _ => none

namespace Commits

variable {σ ω π ν : Type} (commits : Commits σ ω π ν) (system : System σ ω π)

/-- The operations, carried out in this order. -/
def sequential (order : List ω) (start : ν) : Option ν :=
  order.foldlM (fun value operation => commits.effect operation value) start

/-- A step of a call commits its operation, or is of no consequence. -/
inductive Steps (moved : π) (after : σ) (call : π) (store : σ) : Prop where
  | quiet (value : commits.value after = commits.value store) (committed : commits.committed moved = commits.committed call)
  | commit (operation : ω) (asked : commits.operation call = some operation)
      (pending : commits.committed call = false) (committed : commits.committed moved = true)
      (effect : commits.effect operation (commits.value store) = some (commits.value after))

/-- How calls begin: from idleness, and with nothing committed. -/
structure Begins : Prop where
  idle : ∀ call, system.idle call = true → commits.operation call = none ∧ commits.committed call = false
  fresh : ∀ operation, commits.operation (system.begin operation) = some operation ∧
    commits.committed (system.begin operation) = false

/-- What has been begun, and an order of what has been committed that explains the value. -/
structure Explained (start : ν) (begun order : List (Nat × ω)) (pool : Pool σ π) : Prop where
  begunOnce : (begun.map Prod.fst).Nodup
  begun : ∀ call operation, (call, operation) ∈ begun ↔ commits.operation (pool.calls call) = some operation
  orderedOnce : (order.map Prod.fst).Nodup
  ordered : ∀ call operation, (call, operation) ∈ order ↔
    commits.operation (pool.calls call) = some operation ∧ commits.committed (pool.calls call) = true
  value : commits.sequential (order.map Prod.snd) start = some (commits.value pool.store)

variable {commits system} {start : ν} {earlier order : List (Nat × ω)} {pool after : Pool σ π}

theorem sequential_append (first : List ω) (last : ω) (start : ν) :
    commits.sequential (first ++ [last]) start = commits.sequential first start >>= commits.effect last := by
  simp only [sequential, List.foldlM_append, List.foldlM_cons, List.foldlM_nil, bind_pure]

/-- A call that is not listed yet may be put at the end of the list. -/
theorem nodup_listed {listed : List (Nat × ω)} (once : (listed.map Prod.fst).Nodup) {call : Nat} (operation : ω)
    (absent : ∀ old, (call, old) ∉ listed) : ((listed ++ [(call, operation)]).map Prod.fst).Nodup := by
  rw [List.map_append, List.map_singleton, List.nodup_append]
  refine ⟨once, List.nodup_singleton _, ?_⟩
  intro other member mine same equal
  rw [List.mem_singleton] at same
  obtain ⟨⟨_, old⟩, found, rfl⟩ := List.mem_map.mp member
  dsimp only at equal
  subst equal same
  exact absent old found

theorem explained_start (begins : commits.Begins system) (explained : commits.Explained start earlier order pool)
    {call : Nat} {operation : ω} (stepped : system.step (.start call operation) pool = some after) :
    commits.Explained start (earlier ++ [(call, operation)]) order after := by
  obtain ⟨waiting, -⟩ := System.step_start stepped
  obtain ⟨store, mine, others⟩ := System.step_started stepped
  obtain ⟨unasked, pending⟩ := begins.idle _ waiting
  obtain ⟨asked, uncommitted⟩ := begins.fresh operation
  refine ⟨?_, ?_, explained.orderedOnce, ?_, store ▸ explained.value⟩
  · refine nodup_listed explained.begunOnce operation fun old listed => ?_
    have known := (explained.begun call old).mp listed
    rw [unasked] at known
    cases known
  · intro other old
    rw [List.mem_append, List.mem_singleton, Prod.mk.injEq]
    by_cases same : other = call
    · subst same
      rw [explained.begun, unasked, mine, asked]
      simp [eq_comm]
    · rw [explained.begun, others other same]
      simp [same]
  · intro other old
    by_cases same : other = call
    · subst same
      rw [explained.ordered, pending, mine, uncommitted]
      simp
    · rw [explained.ordered, others other same]

theorem explained_advance (explained : commits.Explained start earlier order pool) {call : Nat}
    (stepped : system.step (.advance call) pool = some after)
    (asked : commits.operation (after.calls call) = commits.operation (pool.calls call))
    (steps : commits.Steps (after.calls call) after.store (pool.calls call) pool.store) :
    ∃ order, commits.Explained start earlier order after := by
  obtain ⟨-, others⟩ := System.step_moved stepped
  have operations : ∀ other, commits.operation (after.calls other) = commits.operation (pool.calls other) := by
    intro other
    by_cases same : other = call
    · rw [same, asked]
    · rw [others other same]
  cases steps with
  | quiet value committed =>
    have commitments : ∀ other, commits.committed (after.calls other) = commits.committed (pool.calls other) := by
      intro other
      by_cases same : other = call
      · rw [same, committed]
      · rw [others other same]
    refine ⟨order, explained.begunOnce, ?_, explained.orderedOnce, ?_, value ▸ explained.value⟩
    · intro other operation
      rw [explained.begun, operations]
    · intro other operation
      rw [explained.ordered, operations, commitments]
  | commit operation known pending committed effect =>
    refine ⟨order ++ [(call, operation)], explained.begunOnce, ?_, ?_, ?_, ?_⟩
    · intro other old
      rw [explained.begun, operations]
    · refine nodup_listed explained.orderedOnce operation fun old listed => ?_
      have done := ((explained.ordered call old).mp listed).2
      rw [pending] at done
      cases done
    · intro other old
      rw [List.mem_append, List.mem_singleton, Prod.mk.injEq, operations]
      by_cases same : other = call
      · subst same
        rw [explained.ordered, pending, known, committed]
        simp [eq_comm]
      · rw [explained.ordered, others other same]
        simp [same]
    · rw [List.map_append, List.map_singleton, sequential_append, explained.value]
      exact effect

/-- When every call that has begun has committed, the value is the outcome of the
operations in some order. -/
theorem serializable {condition : Event ω → Pool σ π → Prop} {kept : Pool σ π → Prop} {events : List (Event ω)}
    {first final : Pool σ π} (begins : commits.Begins system) (ran : system.run events first = some final)
    (meets : system.Meets condition events first) (fresh : ∀ call, commits.operation (first.calls call) = none)
    (pending : ∀ call, commits.committed (first.calls call) = false) (holds : kept first)
    (preserves : ∀ event before after, system.step event before = some after → condition event before → kept before →
      kept after)
    (advances : ∀ call before after, system.step (.advance call) before = some after → condition (.advance call) before →
      kept before → commits.operation (after.calls call) = commits.operation (before.calls call) ∧
        commits.Steps (after.calls call) after.store (before.calls call) before.store)
    (finished : ∀ call operation, commits.operation (final.calls call) = some operation →
      commits.committed (final.calls call) = true) :
    ∃ order, order.Perm ((begun events).map Prod.snd) ∧
      commits.sequential order (commits.value first.store) = some (commits.value final.store) := by
  suffices explained : ∀ (events : List (Event ω)) (earlier order : List (Nat × ω)) (pool : Pool σ π),
      system.run events pool = some final → system.Meets condition events pool → kept pool →
      commits.Explained (commits.value first.store) earlier order pool →
      ∃ order, commits.Explained (commits.value first.store) (earlier ++ begun events) order final by
    have initially : commits.Explained (commits.value first.store) [] [] first :=
      ⟨List.nodup_nil, by simp [fresh], List.nodup_nil, by simp [pending], rfl⟩
    obtain ⟨order, last⟩ := explained events [] [] first ran meets holds initially
    refine ⟨order.map Prod.snd, List.Perm.map Prod.snd ?_, last.value⟩
    refine (List.perm_ext_iff_of_nodup (List.Nodup.of_map _ last.orderedOnce) (List.Nodup.of_map _ last.begunOnce)).mpr ?_
    rintro ⟨call, operation⟩
    rw [last.ordered, last.begun]
    exact and_iff_left_of_imp (finished call operation)
  intro events
  induction events with
  | nil =>
    intro earlier order pool ran _ _ explained
    cases ran
    exact ⟨order, by simpa [begun] using explained⟩
  | cons event events ih =>
    intro earlier order pool ran meets holds explained
    obtain ⟨middle, stepped, rest⟩ := System.run_cons.mp ran
    have later := preserves event pool middle stepped meets.1 holds
    cases event with
    | start call operation =>
      obtain ⟨order, last⟩ := ih (earlier ++ [(call, operation)]) order middle rest (meets.2 middle stepped) later
        (explained_start begins explained stepped)
      exact ⟨order, by simpa [begun] using last⟩
    | advance call =>
      obtain ⟨asked, steps⟩ := advances call pool middle stepped meets.1 holds
      obtain ⟨order, next⟩ := explained_advance explained stepped asked steps
      obtain ⟨order, last⟩ := ih earlier order middle rest (meets.2 middle stepped) later next
      exact ⟨order, by simpa [begun] using last⟩

end Commits
end Slate.Library
