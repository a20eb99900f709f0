import Mathlib.Order.Basic

/-! Programs with loops that may not end. An execution is what a program gives within
every number of passes through its loops. -/

namespace Slate.Library

universe u

variable {ε α β σ : Type}

/-- What a program gives within a number of passes, if it is done by then. -/
structure Execution (ε α : Type) where
  within : Nat → Option (Except ε α)
  kept : ∀ {fewer more outcome}, fewer ≤ more → within fewer = some outcome → within more = some outcome

inductive Next (σ α : Type)
  | again (state : σ)
  | done (value : α)

namespace Execution

def returns (value : α) : Execution ε α := ⟨fun _ => some (.ok value), fun _ given => given⟩

def throws (error : ε) : Execution ε α := ⟨fun _ => some (.error error), fun _ given => given⟩

def andThen (first : Execution ε α) (next : α → Execution ε β) : Execution ε β where
  within passes := match first.within passes with
    | none => none
    | some (.error error) => some (.error error)
    | some (.ok value) => (next value).within passes
  kept {fewer more outcome} le given := by
    cases before : first.within fewer with
    | none => simp [before] at given
    | some result =>
      rw [first.kept le before]
      rw [before] at given
      cases result with
      | error error => exact given
      | ok value => exact (next value).kept le given

instance : Monad (Execution ε) where
  pure := returns
  bind := andThen

/-- The program with what it throws put in another way. -/
def rethrow {δ : Type} (program : Execution ε α) (change : ε → δ) : Execution δ α where
  within passes := (program.within passes).map (Except.mapError change)
  kept le given := by
    obtain ⟨outcome, before, rfl⟩ := Option.map_eq_some_iff.mp given
    rw [program.kept le before]
    rfl

def loopWithin (body : σ → Execution ε (Next σ α)) : Nat → σ → Option (Except ε α)
  | 0, _ => none
  | passes + 1, state => match (body state).within passes with
    | none => none
    | some (.error error) => some (.error error)
    | some (.ok (.done value)) => some (.ok value)
    | some (.ok (.again next)) => loopWithin body passes next

theorem loopWithin_kept {body : σ → Execution ε (Next σ α)} {fewer more : Nat} {state : σ} {outcome : Except ε α}
    (le : fewer ≤ more) (given : loopWithin body fewer state = some outcome) :
    loopWithin body more state = some outcome := by
  induction fewer generalizing more state with
  | zero => cases given
  | succ fewer induction =>
    obtain ⟨more, rfl⟩ : ∃ n, more = n + 1 := ⟨more - 1, by omega⟩
    have le : fewer ≤ more := by omega
    rw [loopWithin] at given ⊢
    cases before : (body state).within fewer with
    | none => simp [before] at given
    | some result =>
      rw [(body state).kept le before]
      rw [before] at given
      rcases result with error | next | value
      · exact given
      · exact induction le given
      · exact given

def loop (body : σ → Execution ε (Next σ α)) (state : σ) : Execution ε α :=
  ⟨fun passes => loopWithin body passes state, loopWithin_kept⟩

def Gives (program : Execution ε α) (outcome : Except ε α) : Prop :=
  ∃ passes, program.within passes = some outcome

/-- The program returns or throws after finitely many passes. -/
def Ends (program : Execution ε α) : Prop := ∃ outcome, program.Gives outcome

variable {program first : Execution ε α} {next : α → Execution ε β} {body : σ → Execution ε (Next σ α)} {state : σ}

theorem Gives.ends {outcome : Except ε α} (given : program.Gives outcome) : program.Ends := ⟨outcome, given⟩

theorem Gives.unique {outcome other : Except ε α} (given : program.Gives outcome) (again : program.Gives other) :
    outcome = other := by
  obtain ⟨passes, given⟩ := given
  obtain ⟨others, again⟩ := again
  have most := program.kept (Nat.le_max_left passes others) given
  have alike := program.kept (Nat.le_max_right passes others) again
  exact Option.some.inj (most.symm.trans alike)

@[simp] theorem gives_pure {value : α} {outcome : Except ε α} :
    (pure value : Execution ε α).Gives outcome ↔ outcome = .ok value := by
  constructor
  · rintro ⟨_, given⟩
    exact (Option.some.inj given).symm
  · rintro rfl
    exact ⟨0, rfl⟩

@[simp] theorem gives_throws {error : ε} {outcome : Except ε α} :
    (throws error : Execution ε α).Gives outcome ↔ outcome = .error error := by
  constructor
  · rintro ⟨_, given⟩
    exact (Option.some.inj given).symm
  · rintro rfl
    exact ⟨0, rfl⟩

theorem gives_bind {outcome : Except ε β} : (first >>= next).Gives outcome ↔
    (∃ error, first.Gives (.error error) ∧ outcome = .error error) ∨
    ∃ value, first.Gives (.ok value) ∧ (next value).Gives outcome := by
  constructor
  · rintro ⟨passes, given⟩
    change (first.andThen next).within passes = some outcome at given
    dsimp only [andThen] at given
    cases before : first.within passes with
    | none => simp [before] at given
    | some result =>
      rw [before] at given
      cases result with
      | error error => exact .inl ⟨error, ⟨passes, before⟩, (Option.some.inj given).symm⟩
      | ok value => exact .inr ⟨value, ⟨passes, before⟩, passes, given⟩
  · rintro (⟨error, ⟨passes, before⟩, rfl⟩ | ⟨value, ⟨passes, before⟩, others, given⟩)
    · refine ⟨passes, ?_⟩
      change (first.andThen next).within passes = _
      dsimp only [andThen]
      rw [before]
    · refine ⟨max passes others, ?_⟩
      change (first.andThen next).within _ = _
      dsimp only [andThen]
      rw [first.kept (Nat.le_max_left passes others) before]
      exact (next value).kept (Nat.le_max_right passes others) given

theorem Gives.bind {value : α} {outcome : Except ε β} (before : first.Gives (.ok value))
    (after : (next value).Gives outcome) : (first >>= next).Gives outcome :=
  gives_bind.mpr (.inr ⟨value, before, after⟩)

theorem Gives.bind_error {error : ε} (before : first.Gives (.error error)) :
    (first >>= next).Gives (.error error) :=
  gives_bind.mpr (.inl ⟨error, before, rfl⟩)

/-- After a part that returns, only the rest matters. -/
theorem Gives.bind_iff {value : α} {outcome : Except ε β} (before : first.Gives (.ok value)) :
    (first >>= next).Gives outcome ↔ (next value).Gives outcome := by
  refine ⟨fun given => ?_, before.bind⟩
  rcases gives_bind.mp given with ⟨error, thrown, -⟩ | ⟨other, returned, after⟩
  · cases before.unique thrown
  · cases before.unique returned
    exact after

theorem Gives.bind_ends {value : α} (before : first.Gives (.ok value)) :
    (first >>= next).Ends ↔ (next value).Ends :=
  exists_congr fun _ => before.bind_iff

theorem gives_rethrow {δ : Type} {change : ε → δ} {outcome : Except δ α} :
    (program.rethrow change).Gives outcome ↔ ∃ before, program.Gives before ∧ outcome = before.mapError change := by
  constructor
  · rintro ⟨passes, given⟩
    obtain ⟨before, ran, rfl⟩ := Option.map_eq_some_iff.mp given
    exact ⟨before, ⟨passes, ran⟩, rfl⟩
  · rintro ⟨before, ⟨passes, ran⟩, rfl⟩
    exact ⟨passes, Option.map_eq_some_iff.mpr ⟨before, ran, rfl⟩⟩

theorem Ends.of_bind (ended : (first >>= next).Ends) : first.Ends := by
  obtain ⟨outcome, given⟩ := ended
  rcases gives_bind.mp given with ⟨error, thrown, -⟩ | ⟨value, returned, -⟩
  · exact thrown.ends
  · exact returned.ends

theorem gives_loop {outcome : Except ε α} : (loop body state).Gives outcome ↔
    (∃ error, (body state).Gives (.error error) ∧ outcome = .error error) ∨
    (∃ value, (body state).Gives (.ok (.done value)) ∧ outcome = .ok value) ∨
    ∃ after, (body state).Gives (.ok (.again after)) ∧ (loop body after).Gives outcome := by
  constructor
  · rintro ⟨_ | passes, given⟩
    · cases given
    change loopWithin body (passes + 1) state = some outcome at given
    rw [loopWithin] at given
    cases before : (body state).within passes with
    | none => simp [before] at given
    | some result =>
      rw [before] at given
      rcases result with error | after | value
      · exact .inl ⟨error, ⟨passes, before⟩, (Option.some.inj given).symm⟩
      · exact .inr (.inr ⟨after, ⟨passes, before⟩, passes, given⟩)
      · exact .inr (.inl ⟨value, ⟨passes, before⟩, (Option.some.inj given).symm⟩)
  · rintro (⟨error, ⟨passes, before⟩, rfl⟩ | ⟨value, ⟨passes, before⟩, rfl⟩ | ⟨after, ⟨passes, before⟩, others, given⟩)
    · refine ⟨passes + 1, ?_⟩
      change loopWithin body (passes + 1) state = _
      rw [loopWithin, before]
    · refine ⟨passes + 1, ?_⟩
      change loopWithin body (passes + 1) state = _
      rw [loopWithin, before]
    · refine ⟨max passes others + 1, ?_⟩
      change loopWithin body (max passes others + 1) state = _
      rw [loopWithin, (body state).kept (Nat.le_max_left passes others) before]
      exact loopWithin_kept (Nat.le_max_right passes others) given

theorem Gives.loop_error {error : ε} (thrown : (body state).Gives (.error error)) :
    (loop body state).Gives (.error error) :=
  gives_loop.mpr (.inl ⟨error, thrown, rfl⟩)

theorem Gives.loop_done {value : α} (last : (body state).Gives (.ok (.done value))) :
    (loop body state).Gives (.ok value) :=
  gives_loop.mpr (.inr (.inl ⟨value, last, rfl⟩))

/-- One pass after which the loop goes on. -/
theorem Gives.loop_iff {after : σ} {outcome : Except ε α} (pass : (body state).Gives (.ok (.again after))) :
    (loop body state).Gives outcome ↔ (loop body after).Gives outcome := by
  refine ⟨fun given => ?_, fun given => gives_loop.mpr (.inr (.inr ⟨after, pass, given⟩))⟩
  rcases gives_loop.mp given with ⟨error, thrown, -⟩ | ⟨value, last, -⟩ | ⟨other, again, rest⟩
  · cases pass.unique thrown
  · cases pass.unique last
  · cases pass.unique again
    exact rest

theorem Gives.loop_ends {after : σ} (pass : (body state).Gives (.ok (.again after))) :
    (loop body state).Ends ↔ (loop body after).Ends :=
  exists_congr fun _ => pass.loop_iff

/-- A loop that can always go on does not end. -/
theorem loop_endless (invariant : σ → Prop)
    (goesOn : ∀ state, invariant state → ∃ after, (body state).Gives (.ok (.again after)) ∧ invariant after)
    (holds : invariant state) : ¬ (loop body state).Ends := by
  rintro ⟨outcome, passes, given⟩
  change loopWithin body passes state = some outcome at given
  induction passes generalizing state with
  | zero => cases given
  | succ passes induction =>
    obtain ⟨after, pass, kept⟩ := goesOn state holds
    rw [loopWithin] at given
    cases before : (body state).within passes with
    | none => simp [before] at given
    | some result =>
      rw [before] at given
      obtain rfl := pass.unique ⟨passes, before⟩
      exact induction kept given

/-- What a loop that ended came to when each of its passes kept an invariant. -/
theorem Gives.loop_kept (invariant : σ → Prop) (outcomes : Except ε α → Prop) {outcome : Except ε α}
    (again : ∀ state after, invariant state → (body state).Gives (.ok (.again after)) → invariant after)
    (done : ∀ state value, invariant state → (body state).Gives (.ok (.done value)) → outcomes (.ok value))
    (thrown : ∀ state error, invariant state → (body state).Gives (.error error) → outcomes (.error error))
    (holds : invariant state) (given : (loop body state).Gives outcome) : outcomes outcome := by
  obtain ⟨passes, given⟩ := given
  change loopWithin body passes state = some outcome at given
  induction passes generalizing state with
  | zero => cases given
  | succ passes induction =>
    rw [loopWithin] at given
    cases before : (body state).within passes with
    | none => simp [before] at given
    | some result =>
      rw [before] at given
      rcases result with error | after | last
      · cases given
        exact thrown state error holds ⟨passes, before⟩
      · exact induction (again state after holds ⟨passes, before⟩) given
      · cases given
        exact done state last holds ⟨passes, before⟩

/-- A loop that breaks off in a pass that does not end does not end. -/
theorem loop_endless_of_body (stuck : ¬ (body state).Ends) : ¬ (loop body state).Ends := by
  rintro ⟨outcome, given⟩
  rcases gives_loop.mp given with ⟨error, thrown, -⟩ | ⟨value, last, -⟩ | ⟨after, pass, -⟩
  · exact stuck thrown.ends
  · exact stuck last.ends
  · exact stuck pass.ends

end Execution
end Slate.Library
