import Mathlib.Data.List.Basic
import Mathlib.Data.List.Perm.Basic

/-! Orders in which what belongs to something may be visited. -/

namespace Slate.Library

variable {α : Type} (children : α → List α)

/-- Finitely much belongs to the items: all of it, each item before what belongs to it. -/
inductive Spans : Nat → List α → List α → Prop
  | nil : Spans 0 [] []
  | cons {below beside : Nat} {item : α} {items inner others : List α} (inside : Spans below (children item) inner)
      (rest : Spans beside items others) : Spans (below + beside + 1) (item :: items) (item :: (inner ++ others))

/-- A queue of items: the first is visited, and what belongs to it is put behind the others. -/
inductive Queued : List α → List α → Prop
  | nil : Queued [] []
  | cons {item : α} {items visited : List α} (more : Queued (items ++ children item) visited) : Queued (item :: items) (item :: visited)

variable {children}

theorem Spans.append {count other : Nat} {items others visited later : List α} (first : Spans children count items visited)
    (second : Spans children other others later) : Spans children (count + other) (items ++ others) (visited ++ later) := by
  induction first with
  | nil => simpa using second
  | @cons below beside item items inner others' inside rest _ ih =>
    rw [List.cons_append, List.cons_append, List.append_assoc, show below + beside + 1 + other = below + (beside + other) + 1 by omega]
    exact .cons inside ih

/-- A queue comes to an end, and visits the same items. -/
theorem Spans.queued {count : Nat} {items visited : List α} (spans : Spans children count items visited) :
    ∃ queued, Queued children items queued ∧ queued.Perm visited := by
  induction count using Nat.strongRecOn generalizing items visited with
  | ind count ih =>
    cases spans with
    | nil => exact ⟨[], .nil, .nil⟩
    | @cons below beside item items inner others inside rest =>
      obtain ⟨queued, more, same⟩ := ih (beside + below) (by omega) (rest.append inside)
      exact ⟨item :: queued, .cons more, (same.trans List.perm_append_comm).cons item⟩

/-- What is visited was there from the beginning or belongs to something that was visited before. -/
theorem Queued.before {items visited : List α} (queued : Queued children items visited) {early late : List α} {item : α}
    (parts : visited = early ++ item :: late) : item ∈ items ∨ ∃ other ∈ early, item ∈ children other := by
  induction queued generalizing early with
  | nil => exact absurd parts (by simp)
  | @cons first items visited more ih =>
    cases early with
    | nil =>
      cases parts
      exact .inl (.head _)
    | cons head early =>
      cases parts
      rcases ih rfl with member | ⟨other, member, below⟩
      · rcases List.mem_append.mp member with there | new
        · exact .inl (.tail _ there)
        · exact .inr ⟨first, .head _, new⟩
      · exact .inr ⟨other, .tail _ member, below⟩

/-- Where something is in what many items give. -/
theorem flatMap_parts {β : Type*} {gives : α → List β} {items : List α} {early late : List β} {value : β}
    (parts : items.flatMap gives = early ++ value :: late) : ∃ before item after front back,
      items = before ++ item :: after ∧ gives item = front ++ value :: back ∧ early = before.flatMap gives ++ front := by
  induction items generalizing early with
  | nil => exact absurd parts (by simp)
  | cons item items ih =>
    rw [List.flatMap_cons, List.append_eq_append_iff] at parts
    rcases parts with ⟨middle, same, rest⟩ | ⟨middle, same, rest⟩
    · obtain ⟨before, found, after, front, back, rfl, inside, rfl⟩ := ih rest
      exact ⟨item :: before, found, after, front, back, rfl, inside, by rw [same, List.flatMap_cons, List.append_assoc]⟩
    · cases middle with
      | nil =>
        rw [List.nil_append] at rest
        obtain ⟨before, found, after, front, back, rfl, inside, whole⟩ := @ih [] rest.symm
        refine ⟨item :: before, found, after, front, back, rfl, inside, ?_⟩
        rw [List.flatMap_cons, List.append_assoc, ← whole, same, List.append_nil, List.append_nil]
      | cons head middle =>
        cases rest
        exact ⟨[], item, items, early, middle, rfl, same, rfl⟩

end Slate.Library
