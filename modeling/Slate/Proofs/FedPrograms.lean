import Slate.ProcessPipes

/-! What the run of a command is to be like, and a program alone with its input. What it writes is taken
from it there, and how its outputs are read is left out. -/

namespace Slate
open Library

inductive Pipe
  | stdin
  | output (stream : Output)
deriving Repr, DecidableEq

namespace Running

variable {σ : Type} (capacities : Capacities) (program : σ → Act σ) (running : Running σ)

/-- The pipe that this program waits for. -/
def parentWaits : Option Pipe :=
  match running.parent with
  | .writing (_ :: _) =>
    if running.stdinKept ∧ capacities.stdin ≤ running.stdin.length then some .stdin else none
  | .reading stream => if (running.channel stream).underflow.isNone then some (.output stream) else none
  | _ => none

def childWaits : Option Pipe :=
  match running.child with
  | .inl state =>
    match program state with
    | .read _ _ => if running.stdinKept ∧ running.stdin = [] ∧ !running.stdinEnded then some .stdin else none
    | .write stream _ _ =>
      if (running.channel stream).isOpen ∧ capacities.output stream ≤ (running.channel stream).pipe.length then
        some (.output stream)
      else none
    | _ => none
  | .inr _ => none

def Deadlocked : Prop :=
  ∃ held wanted, held ≠ wanted ∧ running.parentWaits capacities = some held ∧
    running.childWaits capacities program = some wanted

def Reaches (after : Running σ) : Prop := Reached (step capacities program) (fun _ _ => True) running after

/-- A command comes to its end however the two take turns, and what it has written is its result. -/
structure RunsThrough : Prop where
  neverDeadlocked : ∀ after, running.Reaches capacities program after → ¬ after.Deadlocked capacities program
  ends : Terminates (step capacities program) running
  returns : ∀ after, running.Reaches capacities program after → Stopped (step capacities program) after →
    ∃ status, after.parent = .returned status
  collects : ∀ after status, running.Reaches capacities program after → after.parent = .returned status →
    after.child = .inr status ∧ ∀ stream, (after.channel stream).collected = (after.channel stream).wrote

end Running

/-- A program with what is left to write of its input, and what it has written itself. -/
structure Fed (σ : Type) where
  child : σ ⊕ UInt8
  feeding : Option Bytes
  stdin : Bytes
  stdinEnded : Bool
  stdinKept : Bool
  wrote : Output → Bytes
  isOpen : Output → Bool

namespace Fed

variable {σ : Type}

/-- An output is emptied once the input was written, the second one once the first was closed. -/
def emptied (fed : Fed σ) : Output → Bool
  | .stdout => fed.feeding.isNone
  | .stderr => fed.feeding.isNone && !fed.isOpen .stdout

/-- A byte is taken when it fits into the pipe with all that was written, or when the pipe is emptied. -/
def Admits (capacities : Capacities) (fed : Fed σ) (stream : Output) : Prop :=
  (fed.wrote stream).length < capacities.output stream ∨ fed.emptied stream

instance (capacities : Capacities) (fed : Fed σ) (stream : Output) : Decidable (fed.Admits capacities stream) :=
  inferInstanceAs (Decidable (_ ∨ _))

def feed (capacities : Capacities) (part : Nat) (fed : Fed σ) : Option (Fed σ) :=
  match fed.feeding with
  | none => none
  | some [] => some { fed with feeding := none, stdinEnded := true }
  | some input =>
    let room := capacities.stdin - fed.stdin.length
    if fed.stdinKept ∧ room ≠ 0 then
      let result := accepted room part input.length
      some { fed with feeding := some (input.drop result), stdin := fed.stdin ++ input.take result }
    else none

def perform (capacities : Capacities) (fed : Fed σ) : Act σ → Option (Fed σ)
  | .read more next =>
    if !fed.stdinKept then some { fed with child := .inl (next []) }
    else if fed.stdin = [] ∧ !fed.stdinEnded then none
    else some { fed with child := .inl (next (fed.stdin.take (more + 1))), stdin := fed.stdin.drop (more + 1) }
  | .write stream byte next =>
    if !fed.isOpen stream then some { fed with child := .inl next }
    else if fed.Admits capacities stream then
      some { fed with child := .inl next, wrote := Function.update fed.wrote stream (fed.wrote stream ++ [byte]) }
    else none
  | .closeInput next => some { fed with stdinKept := false, child := .inl next }
  | .closeOutput stream next => some { fed with isOpen := Function.update fed.isOpen stream false, child := .inl next }
  | .exit status => some { fed with stdinKept := false, isOpen := fun _ => false, child := .inr status }

def step (capacities : Capacities) (program : σ → Act σ) : Turn → Fed σ → Option (Fed σ)
  | .parent part, fed => fed.feed capacities part
  | .child, fed =>
    match fed.child with
    | .inl state => fed.perform capacities (program state)
    | .inr _ => none

/-- What is left of the input goes into the pipe. -/
def Fits (capacities : Capacities) (fed : Fed σ) : Prop :=
  ∀ input ∈ fed.feeding, input.length + fed.stdin.length ≤ capacities.stdin

/-- A program is not to close its input before all of it was written, nor to wait for an input that does
not end. It may write more than a pipe holds only when the rest of its input goes into the pipe, and to the
second output only after it has closed the first. -/
def Minds (capacities : Capacities) (fed : Fed σ) : Act σ → Prop
  | .read _ _ => fed.stdinKept → fed.stdin = [] → fed.feeding = none → fed.stdinEnded
  | .write stream _ _ => fed.isOpen stream → capacities.output stream ≤ (fed.wrote stream).length →
      fed.Fits capacities ∧ (stream = .stderr → fed.isOpen .stdout = false)
  | .closeInput _ | .exit _ => ∀ input ∈ fed.feeding, input = []
  | .closeOutput _ _ => True

def Reaches (capacities : Capacities) (program : σ → Act σ) (fed after : Fed σ) : Prop :=
  Reached (step capacities program) (fun _ _ => True) fed after

/-- A program that comes to its end and minds in all of its states what it does. -/
structure Considerate (capacities : Capacities) (program : σ → Act σ) (start : Fed σ) : Prop where
  ends : Terminates (step capacities program) start
  minds : ∀ fed state, start.Reaches capacities program fed → fed.child = .inl state →
    fed.Minds capacities (program state)

end Fed

theorem accepted_le {room part count : Nat} (some_ : 0 < room) : accepted room part count ≤ room := by
  unfold accepted
  split <;> omega

namespace Fed

variable {σ : Type} {capacities : Capacities} {program : σ → Act σ} {start fed : Fed σ}

/-- Nothing is left of an input that is not kept. -/
def Served (fed : Fed σ) : Prop := ∀ input ∈ fed.feeding, fed.stdinKept = false → input = []

private theorem Served.of_feed {part : Nat} {after : Fed σ} (ran : fed.feed capacities part = some after) : after.Served := by
  unfold feed at ran
  split at ran
  next => cases ran
  next =>
    cases ran
    exact fun _ member => nomatch member
  next =>
    dsimp only at ran
    split at ran
    next kept =>
      cases ran
      intro input _ lost
      rw [kept.1] at lost
      cases lost
    next => cases ran

theorem Served.perform {after : Fed σ} {act : Act σ} (served : fed.Served) (minds : fed.Minds capacities act)
    (ran : fed.perform capacities act = some after) : after.Served := by
  cases act with
  | read more next =>
    rw [Fed.perform] at ran
    split at ran
    next =>
      cases ran
      exact served
    next =>
      split at ran
      next => cases ran
      next =>
        cases ran
        exact served
  | write stream byte next =>
    rw [Fed.perform] at ran
    split at ran
    next =>
      cases ran
      exact served
    next =>
      split at ran
      next =>
        cases ran
        exact served
      next => cases ran
  | closeInput next =>
    cases ran
    exact fun input member _ => minds input member
  | closeOutput stream next =>
    cases ran
    exact served
  | exit status =>
    cases ran
    exact fun input member _ => minds input member

theorem Considerate.served (considerate : Considerate capacities program start) (served : start.Served)
    (reached : start.Reaches capacities program fed) : fed.Served := by
  induction reached with
  | start => exact served
  | @step before after turn came _ stepped kept =>
    cases turn with
    | parent part => exact .of_feed stepped
    | child =>
      change (match before.child with
        | .inl state => before.perform capacities (program state)
        | .inr _ => none) = some after at stepped
      split at stepped
      next state alive => exact kept.perform (considerate.minds before state came alive) stepped
      next => cases stepped

/-- What is fed does not make more room for the rest. -/
theorem feed_keeps {part : Nat} {after : Fed σ} (within : fed.stdin.length ≤ capacities.stdin)
    (ran : fed.feed capacities part = some after) : after.child = fed.child ∧ after.isOpen = fed.isOpen ∧
    after.wrote = fed.wrote ∧ (after.Fits capacities → fed.Fits capacities) := by
  unfold feed at ran
  split at ran
  next => cases ran
  next left =>
    cases ran
    refine ⟨rfl, rfl, rfl, fun _ input member => ?_⟩
    rw [left] at member
    cases member
    simpa using within
  next input _ left =>
    dsimp only at ran
    split at ran
    next able =>
      cases ran
      refine ⟨rfl, rfl, rfl, fun fits rest member => ?_⟩
      rw [left] at member
      cases member
      have still := fits _ rfl
      have taken := @accepted_le (capacities.stdin - fed.stdin.length) part input.length (by omega)
      dsimp only at still
      rw [List.length_drop, List.length_append, List.length_take] at still
      omega
    next => cases ran

end Fed
end Slate
