import Slate.Library.Executions

/-! Programs that make the same passes, and end in related ways. -/

namespace Slate.Library.Execution

variable {ε δ α β γ κ σ τ : Type}

inductive SameStage (thrown : ε → δ → Prop) (returned : α → β → Prop) : Option (Except ε α) → Option (Except δ β) → Prop
  | running : SameStage thrown returned none none
  | thrown {error : ε} {other : δ} (related : thrown error other) :
    SameStage thrown returned (some (.error error)) (some (.error other))
  | returned {value : α} {other : β} (related : returned value other) :
    SameStage thrown returned (some (.ok value)) (some (.ok other))

def Lockstep (thrown : ε → δ → Prop) (returned : α → β → Prop) (first : Execution ε α) (second : Execution δ β) : Prop :=
  ∀ passes, SameStage thrown returned (first.within passes) (second.within passes)

/-- How two passes of loops may end. -/
inductive SameNext (again : σ → τ → Prop) (done : α → β → Prop) : Next σ α → Next τ β → Prop
  | again {state : σ} {other : τ} (related : again state other) : SameNext again done (.again state) (.again other)
  | done {value : α} {other : β} (related : done value other) : SameNext again done (.done value) (.done other)

namespace Lockstep

variable {thrown : ε → δ → Prop} {returned : α → β → Prop} {first : Execution ε α} {second : Execution δ β}

theorem pure {value : α} {other : β} (related : returned value other) :
    Lockstep thrown returned (Pure.pure value : Execution ε α) (Pure.pure other : Execution δ β) :=
  fun _ => .returned related

theorem throws {error : ε} {other : δ} (related : thrown error other) :
    Lockstep thrown returned (Execution.throws error) (Execution.throws other) :=
  fun _ => .thrown related

theorem mono {weaker : α → β → Prop} (lockstep : Lockstep thrown returned first second)
    (implies : ∀ value other, returned value other → weaker value other) : Lockstep thrown weaker first second := by
  intro passes
  have stage := lockstep passes
  revert stage
  generalize first.within passes = given, second.within passes = also
  rintro (_ | related | related)
  · exact .running
  · exact .thrown related
  · exact .returned (implies _ _ related)

theorem bind {next : α → Execution ε γ} {otherNext : β → Execution δ κ} {ended : γ → κ → Prop}
    (lockstep : Lockstep thrown returned first second)
    (rest : ∀ value other, returned value other → Lockstep thrown ended (next value) (otherNext other)) :
    Lockstep thrown ended (first >>= next) (second >>= otherNext) := by
  intro passes
  change SameStage thrown ended ((first.andThen next).within passes) ((second.andThen otherNext).within passes)
  dsimp only [andThen]
  have stage := lockstep passes
  revert stage
  generalize first.within passes = given, second.within passes = also
  rintro (_ | related | related)
  · exact .running
  · exact .thrown related
  · exact rest _ _ related passes

theorem rethrow {ε' δ' : Type} {change : ε → ε'} {otherChange : δ → δ'} {changed : ε' → δ' → Prop}
    (lockstep : Lockstep thrown returned first second)
    (related : ∀ error other, thrown error other → changed (change error) (otherChange other)) :
    Lockstep changed returned (first.rethrow change) (second.rethrow otherChange) := by
  intro passes
  change SameStage changed returned ((first.within passes).map _) ((second.within passes).map _)
  have stage := lockstep passes
  revert stage
  generalize first.within passes = given, second.within passes = also
  rintro (_ | same | same)
  · exact .running
  · exact .thrown (related _ _ same)
  · exact .returned same

/-- Loops stay together as long as each pass keeps their states related. -/
theorem loop {body : σ → Execution ε (Next σ α)} {otherBody : τ → Execution δ (Next τ β)} {invariant : σ → τ → Prop}
    (pass : ∀ state other, invariant state other →
      Lockstep thrown (SameNext invariant returned) (body state) (otherBody other))
    {state : σ} {other : τ} (holds : invariant state other) :
    Lockstep thrown returned (Execution.loop body state) (Execution.loop otherBody other) := by
  intro passes
  change SameStage thrown returned (loopWithin body passes state) (loopWithin otherBody passes other)
  induction passes generalizing state other with
  | zero => exact .running
  | succ passes ih =>
    rw [loopWithin, loopWithin]
    have stage := pass state other holds passes
    revert stage
    generalize (body state).within passes = given, (otherBody other).within passes = also
    rintro (_ | related | (related | related))
    · exact .running
    · exact .thrown related
    · exact ih related
    · exact .returned related

/-- What both return is what they give. -/
theorem gave (lockstep : Lockstep thrown returned first second) :
    Lockstep thrown (fun value other => returned value other ∧ first.Gives (.ok value) ∧ second.Gives (.ok other)) first second := by
  intro passes
  have stage := lockstep passes
  revert stage
  generalize given : first.within passes = outcome, also : second.within passes = other
  rintro (_ | related | related)
  · exact .running
  · exact .thrown related
  · exact .returned ⟨related, ⟨passes, given⟩, passes, also⟩

theorem gives {outcome : Except ε α} (lockstep : Lockstep thrown returned first second) (given : first.Gives outcome) :
    ∃ other, second.Gives other ∧ SameStage thrown returned (some outcome) (some other) := by
  obtain ⟨passes, given⟩ := given
  have stage := lockstep passes
  rw [given] at stage
  generalize also : second.within passes = other at stage
  cases stage with
  | thrown related => exact ⟨_, ⟨passes, also⟩, .thrown related⟩
  | returned related => exact ⟨_, ⟨passes, also⟩, .returned related⟩

theorem symm (lockstep : Lockstep thrown returned first second) :
    Lockstep (fun error other => thrown other error) (fun value other => returned other value) second first := by
  intro passes
  have stage := lockstep passes
  revert stage
  generalize first.within passes = given, second.within passes = also
  rintro (_ | related | related)
  · exact .running
  · exact .thrown related
  · exact .returned related

end Lockstep

end Slate.Library.Execution
