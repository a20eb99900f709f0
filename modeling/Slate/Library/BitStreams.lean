import Mathlib.Data.Nat.Bitwise
import Mathlib.Data.List.GetD

/-! Streams of bits, the highest first, that are cut into words of some width. -/

namespace Slate.Library

def bitAt (width : Nat) (words : List Nat) (p : Nat) : Bool :=
  (words.getD (p / width) 0).testBit (width - 1 - p % width)

/-- The bits of a word from `low` on, `count` of them. -/
def field (word count low : Nat) : Nat :=
  (word &&& ((1 <<< count - 1) <<< low)) >>> low

theorem testBit_field (word count low j : Nat) :
    (field word count low).testBit j = (decide (j < count) && word.testBit (low + j)) := by
  have ones : 1 <<< count - 1 = 2 ^ count - 1 := by rw [Nat.shiftLeft_eq, Nat.one_mul]
  rw [field, ones, Nat.testBit_shiftRight, Nat.testBit_and, Nat.testBit_shiftLeft,
    Nat.testBit_two_pow_sub_one, Nat.add_sub_cancel_left]
  simp [Bool.and_comm]

theorem field_low (word count : Nat) : field word count 0 = word &&& (1 <<< count - 1) := by
  rw [field, Nat.shiftLeft_zero, Nat.shiftRight_zero]

/-- Bits of a word of width `source` moved to a word of width `target`, offsets counted from the highest bit. -/
theorem testBit_placed (word : Nat) {source target start place count q : Nat} (fits : start + count ≤ source)
    (inside : q < target) (room : place + count ≤ target) :
    (field word count (source - start - count) <<< (target - place - count)).testBit (target - 1 - q) =
      (decide (place ≤ q ∧ q < place + count) && word.testBit (source - 1 - (start + (q - place)))) := by
  rw [Nat.testBit_shiftLeft, testBit_field]
  by_cases carried : place ≤ q ∧ q < place + count
  · have above : target - place - count ≤ target - 1 - q := by omega
    have below : target - 1 - q - (target - place - count) < count := by omega
    have same : source - start - count + (target - 1 - q - (target - place - count)) =
        source - 1 - (start + (q - place)) := by omega
    simp only [ge_iff_le, above, below, same, carried, and_self, decide_true, Bool.true_and]
  · have outside : ¬ (target - place - count ≤ target - 1 - q ∧
        target - 1 - q - (target - place - count) < count) := by omega
    rcases not_and_or.mp outside with low | high
    · simp only [ge_iff_le, low, carried, decide_false, Bool.false_and]
    · simp only [high, carried, decide_false, Bool.false_and, Bool.and_false]

variable {width : Nat}

theorem bitAt_cons_head (word : Nat) (words : List Nat) {p : Nat} (inside : p < width) :
    bitAt width (word :: words) p = word.testBit (width - 1 - p) := by
  rw [bitAt, Nat.div_eq_of_lt inside, Nat.mod_eq_of_lt inside]
  rfl

theorem bitAt_cons_tail (word : Nat) (words : List Nat) {p : Nat} (positive : 0 < width) (outside : width ≤ p) :
    bitAt width (word :: words) p = bitAt width words (p - width) := by
  obtain ⟨rest, rfl⟩ := Nat.exists_eq_add_of_le outside
  rw [bitAt, bitAt, Nat.add_sub_cancel_left, Nat.add_div_left _ positive, Nat.add_mod_left,
    List.getD_cons_succ]

theorem bitAt_set (words : List Nat) {index : Nat} (word p : Nat) (inside : index < words.length) :
    bitAt width (words.set index word) p =
      if p / width = index then word.testBit (width - 1 - p % width) else bitAt width words p := by
  by_cases here : p / width = index
  · rw [if_pos here, bitAt, here, List.getD_eq_getElem _ _ (by simpa using inside), List.getElem_set_self]
  · rw [if_neg here, bitAt, bitAt, List.getD_eq_getElem?_getD, List.getD_eq_getElem?_getD,
      List.getElem?_set_ne (Ne.symm here)]

/-- There are no bits after the last word. -/
theorem bitAt_outside (words : List Nat) {p : Nat} (positive : 0 < width) (outside : width * words.length ≤ p) :
    bitAt width words p = false := by
  have index : words.length ≤ p / width := by
    rwa [Nat.le_div_iff_mul_le positive, Nat.mul_comm]
  rw [bitAt, List.getD_eq_default _ _ index, Nat.zero_testBit]

theorem bitAt_inside (words : List Nat) (index : Nat) {offset : Nat} (inside : offset < width) :
    bitAt width words (width * index + offset) = (words.getD index 0).testBit (width - 1 - offset) := by
  have positive : 0 < width := by omega
  rw [bitAt, Nat.mul_add_div positive, Nat.div_eq_of_lt inside, Nat.mul_add_mod,
    Nat.mod_eq_of_lt inside, Nat.add_zero]

theorem bitAt_append_left {words : List Nat} (more : List Nat) {p : Nat}
    (inside : p < width * words.length) : bitAt width (words ++ more) p = bitAt width words p := by
  have index : p / width < words.length := Nat.div_lt_of_lt_mul inside
  rw [bitAt, bitAt, List.getD_append _ _ _ _ index]

theorem bitAt_append_single (words : List Nat) (word : Nat) {offset : Nat} (inside : offset < width) :
    bitAt width (words ++ [word]) (width * words.length + offset) = word.testBit (width - 1 - offset) := by
  rw [bitAt_inside _ _ inside, List.getD_append_right _ _ _ _ (Nat.le_refl _), Nat.sub_self]
  rfl

/-- Words are known by their bits. -/
theorem word_eq_of_bits {left right : Nat} (leftWord : left < 2 ^ width) (rightWord : right < 2 ^ width)
    (same : ∀ offset < width, left.testBit (width - 1 - offset) = right.testBit (width - 1 - offset)) :
    left = right := by
  apply Nat.eq_of_testBit_eq
  intro j
  by_cases inside : j < width
  · have at_offset := same (width - 1 - j) (by omega)
    rwa [show width - 1 - (width - 1 - j) = j by omega] at at_offset
  · have above : ∀ word < 2 ^ width, word.testBit j = false := fun word bound =>
      Nat.testBit_lt_two_pow (Nat.lt_of_lt_of_le bound (Nat.pow_le_pow_right (by omega) (by omega)))
    rw [above left leftWord, above right rightWord]

theorem words_eq_of_bits {left right : List Nat} (leftWords : ∀ word ∈ left, word < 2 ^ width)
    (rightWords : ∀ word ∈ right, word < 2 ^ width) (length : left.length = right.length)
    (same : ∀ p < width * left.length, bitAt width left p = bitAt width right p) : left = right := by
  apply List.ext_getElem length
  intro index inLeft inRight
  apply word_eq_of_bits (leftWords _ (List.getElem_mem inLeft)) (rightWords _ (List.getElem_mem inRight))
  intro offset inside
  have within : width * index + offset < width * left.length :=
    calc width * index + offset < width * index + width := by omega
      _ = width * (index + 1) := (Nat.mul_succ _ _).symm
      _ ≤ width * left.length := Nat.mul_le_mul_left _ inLeft
  have equal := same _ within
  rwa [bitAt_inside _ _ inside, bitAt_inside _ _ inside, List.getD_eq_getElem _ _ inLeft,
    List.getD_eq_getElem _ _ inRight] at equal

end Slate.Library
