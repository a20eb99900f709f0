import Mathlib.Data.List.Basic
import Mathlib.Order.MinMax

/-! The edit distance of two lists, which is the least cost of an alignment of them. -/

namespace Slate.Library

variable {α : Type}

/-- A sequence of edits that turns one list into another, with its cost. -/
inductive Alignment : List α → List α → Nat → Prop where
  | nil : Alignment [] [] 0
  | keep (a : α) {source target cost} : Alignment source target cost → Alignment (a :: source) (a :: target) cost
  | replace (a b : α) {source target cost} :
    Alignment source target cost → Alignment (a :: source) (b :: target) (cost + 1)
  | delete (a : α) {source target cost} : Alignment source target cost → Alignment (a :: source) target (cost + 1)
  | insert (b : α) {source target cost} : Alignment source target cost → Alignment source (b :: target) (cost + 1)

namespace Alignment

variable {source target : List α} {cost : Nat}

theorem symm (aligned : Alignment source target cost) : Alignment target source cost := by
  induction aligned with
  | nil => exact .nil
  | keep a _ ih => exact .keep a ih
  | replace a b _ ih => exact .replace b a ih
  | delete a _ ih => exact .insert a ih
  | insert b _ ih => exact .delete b ih

theorem of_nil (target : List α) : Alignment [] target target.length := by
  induction target with
  | nil => exact .nil
  | cons b target ih => exact .insert b ih

theorem append {source' target' : List α} {cost' : Nat} (aligned : Alignment source target cost)
    (aligned' : Alignment source' target' cost') : Alignment (source ++ source') (target ++ target') (cost + cost') := by
  induction aligned with
  | nil => simpa using aligned'
  | keep a _ ih => exact .keep a ih
  | replace a b _ ih => exact Nat.add_right_comm .. ▸ .replace a b ih
  | delete a _ ih => exact Nat.add_right_comm .. ▸ .delete a ih
  | insert b _ ih => exact Nat.add_right_comm .. ▸ .insert b ih

theorem reverse (aligned : Alignment source target cost) : Alignment source.reverse target.reverse cost := by
  induction aligned with
  | nil => exact .nil
  | keep a _ ih => simpa using ih.append (.keep a .nil)
  | replace a b _ ih => simpa using ih.append (.replace a b .nil)
  | delete a _ ih => simpa using ih.append (.delete a .nil)
  | insert b _ ih => simpa using ih.append (.insert b .nil)

/-- Every element of the target that is not inserted takes one of the source. -/
theorem length_le (aligned : Alignment source target cost) : target.length ≤ source.length + cost := by
  induction aligned <;> simp only [List.length_nil, List.length_cons] <;> omega

/-- Without the first element of its source a list is aligned at a cost of at most one more. -/
theorem tail {a : α} (aligned : Alignment (a :: source) target cost) :
    ∃ less ≤ cost + 1, Alignment source target less := by
  generalize whole : a :: source = list at aligned
  induction aligned with
  | nil => cases whole
  | keep b aligned _ =>
    cases whole
    exact ⟨_, Nat.le_refl _, .insert a aligned⟩
  | replace b c aligned _ =>
    cases whole
    exact ⟨_, Nat.le_succ _, .insert c aligned⟩
  | delete b aligned _ =>
    cases whole
    exact ⟨_, by omega, aligned⟩
  | insert b _ ih =>
    obtain ⟨less, bound, aligned⟩ := ih whole
    exact ⟨less + 1, by omega, .insert b aligned⟩

/-- A common first element costs nothing. -/
theorem of_keep {a : α} (aligned : Alignment (a :: source) (a :: target) cost) :
    ∃ less ≤ cost, Alignment source target less := by
  cases aligned with
  | keep _ aligned => exact ⟨_, Nat.le_refl _, aligned⟩
  | replace _ _ aligned => exact ⟨_, Nat.le_succ _, aligned⟩
  | delete _ aligned =>
    obtain ⟨less, bound, aligned⟩ := aligned.symm.tail
    exact ⟨less, bound, aligned.symm⟩
  | insert _ aligned => exact aligned.tail

end Alignment

variable [DecidableEq α]

/-- The edit distance: what the lists begin with in common is kept, and otherwise the cheapest
edit at the front is made. -/
def editDistance : List α → List α → Nat
  | [], target => target.length
  | source, [] => source.length
  | a :: source, b :: target =>
    if a = b then editDistance source target
    else min (min (editDistance (a :: source) target) (editDistance source (b :: target)))
      (editDistance source target) + 1
termination_by source target => source.length + target.length

namespace EditDistance

variable {source target : List α}

theorem nil_left (target : List α) : editDistance [] target = target.length := by rw [editDistance]

theorem nil_right (source : List α) : editDistance source [] = source.length := by
  cases source with
  | nil => exact nil_left []
  | cons a source => rw [editDistance]; simp

theorem cons_cons (a b : α) (source target : List α) : editDistance (a :: source) (b :: target) =
    if a = b then editDistance source target
    else min (min (editDistance (a :: source) target) (editDistance source (b :: target)))
      (editDistance source target) + 1 := by
  rw [editDistance]

theorem alignment (source target : List α) : Alignment source target (editDistance source target) := by
  fun_induction editDistance source target with
  | case1 target => exact .of_nil target
  | case2 source => exact (Alignment.of_nil source).symm
  | case3 source b target ih => exact .keep b ih
  | case4 a source b target _ inserted deleted replaced =>
    let edits (cost : Nat) : Prop := Alignment (a :: source) (b :: target) (cost + 1)
    have first : edits (editDistance (a :: source) target) := .insert b inserted
    have second : edits (editDistance source (b :: target)) := .delete a deleted
    exact min_rec' edits (min_rec' edits first second) (.replace a b replaced)

/-- No alignment costs less than the distance. -/
theorem le_cost {cost : Nat} (aligned : Alignment source target cost) : editDistance source target ≤ cost := by
  fun_induction editDistance source target generalizing cost with
  | case1 target =>
    have := aligned.length_le
    simpa using this
  | case2 source =>
    have := aligned.symm.length_le
    simpa using this
  | case3 source b target ih =>
    obtain ⟨less, bound, aligned⟩ := aligned.of_keep
    exact (ih aligned).trans bound
  | case4 a source b target different inserted deleted replaced =>
    cases aligned with
    | keep => exact absurd rfl different
    | replace _ _ aligned =>
      have := replaced aligned
      omega
    | delete _ aligned =>
      have := deleted aligned
      omega
    | insert _ aligned =>
      have := inserted aligned
      omega

theorem symm (source target : List α) : editDistance source target = editDistance target source :=
  Nat.le_antisymm (le_cost (alignment target source).symm) (le_cost (alignment source target).symm)

theorem reverse (source target : List α) : editDistance source.reverse target.reverse = editDistance source target := by
  apply Nat.le_antisymm
  · exact le_cost (alignment source target).reverse
  · have back := (alignment source.reverse target.reverse).reverse
    rw [List.reverse_reverse, List.reverse_reverse] at back
    exact le_cost back

theorem le_length (source target : List α) : editDistance source target ≤ source.length + target.length := by
  have whole := (Alignment.of_nil source).symm.append (Alignment.of_nil target)
  rw [List.append_nil, List.nil_append] at whole
  exact le_cost whole

/-- The distance can be computed from the back of the lists as well as from their front. -/
theorem concat (source target : List α) (a b : α) : editDistance (source ++ [a]) (target ++ [b]) =
    if a = b then editDistance source target
    else min (min (editDistance source (target ++ [b])) (editDistance (source ++ [a]) target))
      (editDistance source target) + 1 := by
  rw [← reverse (source ++ [a]), ← reverse source, ← reverse source (target ++ [b]), ← reverse (source ++ [a]) target]
  simp only [List.reverse_append, List.reverse_singleton, List.singleton_append]
  rw [cons_cons, min_comm (editDistance (a :: source.reverse) target.reverse)]

end EditDistance

end Slate.Library
