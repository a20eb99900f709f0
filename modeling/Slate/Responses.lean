import Slate.Server
import Slate.Library.Json

/-! What the handlers of requests answer, and how they come to their end. -/

namespace Slate
open Library

structure Response where
  status : Nat
  body : Option Json := none

def generateError (message : String) : Json := .object [("kind", .string "Error"), ("message", .string message)]

/-- What ends a handler before its last line: it returns, or an exception leaves it, or an
assertion about a document fails, which nothing catches. -/
inductive Halt where
  | response (response : Response)
  | thrown (message : String)
  | assertion

abbrev HandlerM := EStateM Halt Server

namespace Handler
section
variable {σ α : Type}

def refuse (status : Nat) (message : String) : EStateM Halt σ α :=
  throw (.response ⟨status, some (generateError message)⟩)

def accessing : Option α → EStateM Halt σ α
  | some value => return value
  | none => throw .assertion

/-- Returns with an error unless a test, which may be an access that is asserted, holds. -/
def require (test : Option Bool) (status : Nat) (message : String) : EStateM Halt σ Unit := do
  if ← accessing test then return ⟨⟩ else refuse status message

end

def onStore {α : Type} (program : StoreM α) : HandlerM α := fun server =>
  match program server with
  | .ok value after => .ok value after
  | .error message after => .error (.thrown message) after

section
variable {σ α : Type} (state : σ)

@[simp] theorem yields_refuse (status : Nat) (message : String) (post : α → σ → Prop) :
    Yields (refuse status message : EStateM Halt σ α) state post ↔ True := Iff.rfl

@[simp] theorem yields_accessing (found : Option α) (post : α → σ → Prop) :
    Yields (accessing found) state post ↔ ∀ value, found = some value → post value state := by
  cases found with
  | none => exact iff_of_true ⟨⟩ fun value impossible => nomatch impossible
  | some value =>
    constructor
    · rintro holds _ ⟨⟩
      exact holds
    · exact fun holds => holds value rfl

@[simp] theorem yields_require (test : Option Bool) (status : Nat) (message : String) (post : Unit → σ → Prop) :
    Yields (require test status message) state post ↔ (test = some true → post ⟨⟩ state) := by
  rw [require, yields_bind, yields_accessing]
  cases test with
  | none => exact iff_of_true (fun value impossible => nomatch impossible) fun impossible => nomatch impossible
  | some holds =>
    cases holds with
    | false => exact iff_of_true (fun value same => Option.some.inj same ▸ ⟨⟩) fun impossible => nomatch impossible
    | true =>
      constructor
      · exact fun holds _ => holds true rfl
      · exact fun holds value same => Option.some.inj same ▸ holds rfl

@[simp] theorem yields_onStore (program : StoreM α) (server : Server) (post : α → Server → Prop) :
    Yields (onStore program) server post ↔ Yields program server post := by
  unfold Yields onStore
  cases program server <;> rfl

end

end Handler

end Slate
