import Mathlib.Data.List.Nodup

/-! Tables that are read a page at a time. A query answers with the matching rows of one
page, and with a key to go on from when more pages remain. -/

namespace Slate.Library

universe u

/-- A way of splitting every table into pages. -/
structure Paging (α : Type u) where
  pages : List α → List (List α)
  whole : ∀ rows, (pages rows).flatten.Perm rows

structure Page (α : Type u) where
  items : List α
  lastEvaluatedKey : Option Nat

namespace Paging

variable {α : Type u} (paging : Paging α)

/-- The page after the one with the key, or the first one without a key. -/
def query (rows : List α) (wanted : α → Bool) (exclusiveStartKey : Option Nat) : Page α :=
  let position := match exclusiveStartKey with
    | none => 0
    | some last => last + 1
  { items := ((paging.pages rows)[position]?.getD []).filter wanted
    lastEvaluatedKey := if position + 1 < (paging.pages rows).length then some position else none }

def single : Paging α := ⟨fun rows => [rows], fun rows => by simp⟩

def separate : Paging α := ⟨fun rows => rows.map fun row => [row], fun rows => by
  induction rows with
  | nil => exact .refl _
  | cons row rows ih => simpa using ih⟩

def OnFirst (rows : List α) (row : α) : Prop := row ∈ (paging.pages rows)[0]?.getD []

variable {paging} {rows : List α} {wanted : α → Bool} {row : α}

@[simp] theorem mem_query_none :
    row ∈ (paging.query rows wanted none).items ↔ paging.OnFirst rows row ∧ wanted row = true := by
  rw [query, List.mem_filter, OnFirst]

@[simp] theorem onFirst_single : (single : Paging α).OnFirst rows row ↔ row ∈ rows := by
  simp [OnFirst, single]

theorem first_sublist : ((paging.pages rows)[0]?.getD []).Sublist (paging.pages rows).flatten := by
  cases paging.pages rows with
  | nil => exact .refl _
  | cons page rest => simp

theorem OnFirst.mem (first : paging.OnFirst rows row) : row ∈ rows :=
  (paging.whole rows).mem_iff.mp (first_sublist.mem first)

/-- A query that at most one row can satisfy finds it, or none at all. -/
theorem query_cases (nodup : rows.Nodup)
    (unique : ∀ first ∈ rows, wanted first = true → ∀ second ∈ rows, wanted second = true → first = second) :
    (paging.query rows wanted none).items = [] ∨ ∃ row, (paging.query rows wanted none).items = [row] := by
  have distinct : (paging.query rows wanted none).items.Nodup :=
    (((paging.whole rows).nodup_iff.mpr nodup).sublist first_sublist).filter _
  cases items : (paging.query rows wanted none).items with
  | nil => exact .inl rfl
  | cons row rest =>
    refine .inr ⟨row, ?_⟩
    have chosen : ∀ other ∈ row :: rest, other ∈ rows ∧ wanted other = true := by
      intro other member
      rw [← items, mem_query_none] at member
      exact ⟨member.1.mem, member.2⟩
    cases rest with
    | nil => rfl
    | cons other rest =>
      obtain ⟨first, wantsFirst⟩ := chosen row (by simp)
      obtain ⟨second, wantsSecond⟩ := chosen other (by simp)
      have same := unique row first wantsFirst other second wantsSecond
      rw [items, same] at distinct
      simp at distinct

end Paging
end Slate.Library
