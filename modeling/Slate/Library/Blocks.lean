import Mathlib.Data.List.Basic

/-! Streams of whole blocks. -/

namespace Slate.Library

variable {α : Type} {size : Nat}

/-- A stream that has no part of a block at its end. -/
def Whole (size : Nat) (stream : List α) : Prop := stream.length % size = 0

def block (size : Nat) (stream : List α) (i : Nat) : List α := (stream.drop (size * i)).take size

def blockCount (size : Nat) (stream : List α) : Nat := stream.length / size

namespace Whole

theorem nil : Whole size ([] : List α) := Nat.zero_mod size

theorem length {stream : List α} (whole : Whole size stream) : stream.length = size * blockCount size stream :=
  (Nat.mul_div_cancel' (Nat.dvd_of_mod_eq_zero whole)).symm

theorem append {first second : List α} (left : Whole size first) (right : Whole size second) :
    Whole size (first ++ second) := by
  rw [Whole] at *
  rw [List.length_append, Nat.add_mod, left, right, Nat.zero_add, Nat.zero_mod]

theorem flatten {streams : List (List α)} (whole : ∀ stream ∈ streams, Whole size stream) : Whole size streams.flatten := by
  induction streams with
  | nil => exact nil
  | cons stream streams ih =>
    obtain ⟨first, others⟩ := List.forall_mem_cons.mp whole
    exact first.append (ih others)

end Whole

theorem blockCount_append (positive : 0 < size) {first : List α} (whole : Whole size first) (second : List α) :
    blockCount size (first ++ second) = blockCount size first + blockCount size second := by
  rw [blockCount, List.length_append, whole.length, Nat.mul_add_div positive]
  rfl

/-- The blocks of two streams in a row are those of the first, and then those of the second. -/
theorem block_append {first : List α} (whole : Whole size first) (second : List α) (i : Nat) :
    block size (first ++ second) i =
      if i < blockCount size first then block size first i else block size second (i - blockCount size first) := by
  have length := whole.length
  rw [block, List.drop_append]
  split
  next inside =>
    have room : size * i + size ≤ first.length := by
      rw [length, ← Nat.mul_succ]
      exact Nat.mul_le_mul_left size inside
    have none : size * i - first.length = 0 := by omega
    rw [none, List.drop_zero, List.take_append_of_le_length (by rw [List.length_drop]; omega)]
    rfl
  next beyond =>
    have past : first.length ≤ size * i := by
      rw [length]
      exact Nat.mul_le_mul_left size (Nat.not_lt.mp beyond)
    rw [List.drop_eq_nil_of_le past, List.nil_append, length, ← Nat.mul_sub]
    rfl

section
variable (good : List α → Prop)

def AllBlocks (size : Nat) (stream : List α) : Prop := ∀ i < blockCount size stream, good (block size stream i)

variable {good}

theorem AllBlocks.append (positive : 0 < size) {first second : List α} (whole : Whole size first)
    (left : AllBlocks good size first) (right : AllBlocks good size second) : AllBlocks good size (first ++ second) := by
  intro i inside
  rw [blockCount_append positive whole] at inside
  rw [block_append whole]
  split
  next early => exact left i early
  next late => exact right _ (by omega)

theorem AllBlocks.flatten (positive : 0 < size) {streams : List (List α)} (whole : ∀ stream ∈ streams, Whole size stream)
    (all : ∀ stream ∈ streams, AllBlocks good size stream) : AllBlocks good size streams.flatten := by
  induction streams with
  | nil =>
    intro i inside
    rw [blockCount, List.flatten_nil, List.length_nil, Nat.zero_div] at inside
    cases inside
  | cons stream streams ih =>
    obtain ⟨wholeFirst, wholeOthers⟩ := List.forall_mem_cons.mp whole
    obtain ⟨first, others⟩ := List.forall_mem_cons.mp all
    exact first.append positive wholeFirst (ih wholeOthers others)

end

end Slate.Library
