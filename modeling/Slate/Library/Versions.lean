import Mathlib.Algebra.Group.Nat.Defs
import Mathlib.Data.List.TakeWhile

/-! The order of version texts that the rpm package manager uses. A text is read as a
sequence of segments, and sequences of segments are ordered lexicographically. -/

namespace Slate.Library

abbrev Bytes := List UInt8

namespace Versions
open Std

def tilde : UInt8 := 126

def isDigit (c : UInt8) : Bool := 48 ≤ c && c ≤ 57

def isAlpha (c : UInt8) : Bool := (65 ≤ c && c ≤ 90) || (97 ≤ c && c ≤ 122)

def isSeparator (c : UInt8) : Bool := !(isDigit c || isAlpha c || c == tilde)

def trim (text : Bytes) : Bytes := text.dropWhile isSeparator

def withoutZeros (digits : Bytes) : Bytes := digits.dropWhile (· == 48)

inductive Segment
  | tilde
  | finish
  | letters (text : Bytes)
  | number (digits : Bytes)
deriving Repr, DecidableEq

namespace Segment

/-- A tilde is older than the end of a text, which is older than letters; a number is newest. -/
def kind : Segment → Nat
  | tilde => 0
  | finish => 1
  | letters _ => 2
  | number _ => 3

/-- How many digits count. -/
def size : Segment → Nat
  | number digits => (withoutZeros digits).length
  | _ => 0

def text : Segment → Bytes
  | letters text => text
  | number digits => withoutZeros digits
  | _ => []

def compare : Segment → Segment → Ordering :=
  compareLex (compareOn kind) (compareLex (compareOn size) (compareOn text))

instance : TransCmp compare :=
  inferInstanceAs (TransCmp (compareLex (compareOn kind) (compareLex (compareOn size) (compareOn text))))

end Segment

/-- Which of two numbers is the smaller: the one with fewer digits, or else by its digits. -/
def compareNumbers (m n : Bytes) : Ordering :=
  let m := withoutZeros m
  let n := withoutZeros n
  (Ord.compare m.length n.length).then (Ord.compare m n)

def next (text : Bytes) : Segment × Bytes :=
  match trim text with
  | [] => (.finish, [])
  | c :: rest =>
    if c == tilde then
      (.tilde, rest)
    else if isDigit c then
      (.number ((c :: rest).takeWhile isDigit), (c :: rest).dropWhile isDigit)
    else
      (.letters ((c :: rest).takeWhile isAlpha), (c :: rest).dropWhile isAlpha)

theorem trim_front {text rest : Bytes} {c : UInt8} (front : trim text = c :: rest) : isSeparator c = false := by
  have first := List.head_dropWhile_not isSeparator (l := text) (by rw [show text.dropWhile isSeparator = c :: rest from front]; simp)
  simpa only [show text.dropWhile isSeparator = c :: rest from front, List.head_cons] using first

theorem next_shorter {text rest : Bytes} {segment : Segment} (found : next text = (segment, rest))
    (more : segment ≠ .finish) : rest.length < text.length := by
  have shorter : (trim text).length ≤ text.length := (List.dropWhile_suffix isSeparator).length_le
  unfold next at found
  split at found
  · simp_all
  next c left front =>
    have proper := trim_front front
    rw [front] at shorter
    have after : ∀ accepts : UInt8 → Bool, accepts c → ((c :: left).dropWhile accepts).length < (c :: left).length := by
      intro accepts first
      have tail := (List.dropWhile_suffix accepts (l := left)).length_le
      simp only [List.dropWhile_cons, first, if_true, List.length_cons]
      omega
    split at found
    · cases found
      simp only [List.length_cons] at shorter
      omega
    · split at found
      next digit =>
        cases found
        exact Nat.lt_of_lt_of_le (after isDigit digit) shorter
      next other _ =>
        cases found
        refine Nat.lt_of_lt_of_le (after isAlpha ?_) shorter
        simp_all [isSeparator]

/-- The segments of a text, up to and with its end. -/
def segments (text : Bytes) : List Segment :=
  match _found : next text with
  | (segment, rest) => if _more : segment = .finish then [.finish] else segment :: segments rest
termination_by text.length
decreasing_by exact next_shorter _found _more

def rpmvercmp (a b : Bytes) : Ordering :=
  match _found : next a, next b with
  | (.tilde, x), (.tilde, y) => rpmvercmp x y
  | (.tilde, _), _ => .lt
  | _, (.tilde, _) => .gt
  | (.finish, _), (.finish, _) => .eq
  | (.finish, _), _ => .lt
  | _, (.finish, _) => .gt
  | (.number m, x), (.number n, y) => (compareNumbers m n).then (rpmvercmp x y)
  | (.number _, _), (.letters _, _) => .gt
  | (.letters _, _), (.number _, _) => .lt
  | (.letters s, x), (.letters t, y) => (compare s t).then (rpmvercmp x y)
termination_by a.length
decreasing_by all_goals exact next_shorter _found (by simp)

theorem segments_eq (text : Bytes) :
    segments text = if (next text).1 = .finish then [.finish] else (next text).1 :: segments (next text).2 := by
  rw [segments]
  split
  next found => rw [found]; rfl

/-- The comparison looks at a segment of each text, and goes on where they are the same. -/
theorem rpmvercmp_step (a b : Bytes) : rpmvercmp a b = (Segment.compare (next a).1 (next b).1).then
    (if (next a).1 = .finish then .eq else rpmvercmp (next a).2 (next b).2) := by
  have alike : ∀ m n : Bytes, compareNumbers m n = Segment.compare (.number m) (.number n) := fun m n => rfl
  have worded : ∀ s t : Bytes, Ord.compare s t = Segment.compare (.letters s) (.letters t) := fun s t => rfl
  rw [rpmvercmp]
  rcases first : next a with ⟨s, x⟩
  rcases second : next b with ⟨t, y⟩
  cases s <;> cases t <;> simp only [alike, worded, reduceCtorEq, if_false, if_true, Ordering.then] <;> rfl

/-- The comparison is the lexicographic one of the segments. -/
theorem rpmvercmp_eq (a b : Bytes) : rpmvercmp a b = List.compareLex Segment.compare (segments a) (segments b) := by
  rw [rpmvercmp_step, segments_eq a, segments_eq b]
  have last : ∀ s : Segment, s ≠ .finish → Segment.compare s .finish ≠ .eq ∧ Segment.compare .finish s ≠ .eq := by
    intro s more
    cases s with
    | finish => exact absurd rfl more
    | tilde => exact ⟨by decide, by decide⟩
    | letters text => exact ⟨Ordering.noConfusion, Ordering.noConfusion⟩
    | number digits => exact ⟨Ordering.noConfusion, Ordering.noConfusion⟩
  by_cases left : (next a).1 = .finish <;> by_cases right : (next b).1 = .finish
  · simp only [left, right, if_true, List.compareLex_cons_cons, List.compareLex_nil_nil]
  · obtain ⟨-, different⟩ := last _ right
    rw [left, if_pos rfl, if_pos rfl, if_neg right, List.compareLex_cons_cons]
    cases compared : Segment.compare .finish (next b).1
    all_goals first | rfl | exact absurd compared different
  · obtain ⟨different, -⟩ := last _ left
    rw [right, if_pos rfl, if_neg left, if_neg left, List.compareLex_cons_cons]
    cases compared : Segment.compare (next a).1 .finish
    all_goals first | rfl | exact absurd compared different
  · have shorter : (next a).2.length < a.length := next_shorter rfl left
    rw [if_neg left, if_neg left, if_neg right, List.compareLex_cons_cons, rpmvercmp_eq (next a).2 (next b).2]
termination_by a.length

/-- Swapping the texts swaps the answer. -/
theorem rpmvercmp_swap (a b : Bytes) : rpmvercmp a b = (rpmvercmp b a).swap := by
  rw [rpmvercmp_eq, rpmvercmp_eq]
  exact OrientedCmp.eq_swap

theorem rpmvercmp_self (a : Bytes) : rpmvercmp a a = .eq := by
  rw [rpmvercmp_eq]
  exact ReflCmp.compare_self

theorem rpmvercmp_trans {a b c : Bytes} (first : (rpmvercmp a b).isLE) (second : (rpmvercmp b c).isLE) :
    (rpmvercmp a c).isLE := by
  rw [rpmvercmp_eq] at *
  exact TransCmp.isLE_trans first second

theorem next_trimmed {text : Bytes} (ended : trim text = []) : next text = (.finish, []) := by
  rw [next, ended]

theorem next_tilde {text rest : Bytes} (front : trim text = tilde :: rest) : next text = (.tilde, rest) := by
  rw [next, front]
  rfl

theorem next_number {text rest : Bytes} {c : UInt8} (front : trim text = c :: rest) (digit : isDigit c) :
    next text = (.number ((c :: rest).takeWhile isDigit), (c :: rest).dropWhile isDigit) := by
  have other : (c == tilde) = false := by
    by_contra same
    rw [Bool.not_eq_false, beq_iff_eq] at same
    exact absurd (same ▸ digit) (by decide)
  simp only [next, front, other, digit, if_true, Bool.false_eq_true, if_false]

theorem next_letters {text rest : Bytes} {c : UInt8} (front : trim text = c :: rest) (letter : isAlpha c) :
    next text = (.letters ((c :: rest).takeWhile isAlpha), (c :: rest).dropWhile isAlpha) := by
  have other : (c == tilde) = false := by
    by_contra same
    rw [Bool.not_eq_false, beq_iff_eq] at same
    exact absurd (same ▸ letter) (by decide)
  have nonnumeric : isDigit c = false := by
    simp only [isDigit, isAlpha] at *
    grind
  simp only [next, front, other, nonnumeric, Bool.false_eq_true, if_false]

def value : Bytes → Nat
  | [] => 0
  | c :: rest => (c.toNat - 48) * 10 ^ rest.length + value rest

theorem digit_range {c : UInt8} (digit : isDigit c) : 48 ≤ c.toNat ∧ c.toNat ≤ 57 := by
  simp only [isDigit, Bool.and_eq_true, decide_eq_true_eq, UInt8.le_iff_toNat_le] at digit
  exact digit

theorem value_lt {digits : Bytes} (all : ∀ c ∈ digits, isDigit c) : value digits < 10 ^ digits.length := by
  induction digits with
  | nil => exact Nat.one_pos
  | cons c rest ih =>
    obtain ⟨first, others⟩ := List.forall_mem_cons.mp all
    have range := digit_range first
    have below := ih others
    have most : (c.toNat - 48) * 10 ^ rest.length ≤ 9 * 10 ^ rest.length := Nat.mul_le_mul_right _ (by omega)
    rw [value, List.length_cons, Nat.pow_succ]
    omega

theorem value_withoutZeros (digits : Bytes) : value (withoutZeros digits) = value digits := by
  induction digits with
  | nil => rfl
  | cons c rest ih =>
    by_cases zero : c = 48
    · subst zero
      have skipped : withoutZeros (48 :: rest) = withoutZeros rest := rfl
      rw [skipped, ih, value]
      exact (Nat.zero_add _).symm.trans (congrArg (· + value rest) (Nat.zero_mul _).symm)
    · rw [withoutZeros, List.dropWhile_cons_of_neg (by simpa using zero)]

/-- A number that has no leading zero is as large as its digits allow. -/
theorem value_reaches {c : UInt8} {rest : Bytes} (digit : isDigit c) (leading : c ≠ 48) :
    10 ^ rest.length ≤ value (c :: rest) := by
  have range := digit_range digit
  have positive : 0 < c.toNat - 48 := by
    have other : c.toNat ≠ 48 := fun same => leading (UInt8.toNat_inj.mp same)
    omega
  exact Nat.le_add_right_of_le (Nat.le_mul_of_pos_left _ positive)

/-- Numbers of the same length are compared by their digits. -/
theorem compare_digits : ∀ {m n : Bytes}, m.length = n.length → (∀ c ∈ m, isDigit c) → (∀ c ∈ n, isDigit c) →
    Ord.compare m n = Ord.compare (value m) (value n)
  | [], [], _, _, _ => rfl
  | c :: m, d :: n, same, left, right => by
    obtain ⟨first, left⟩ := List.forall_mem_cons.mp left
    obtain ⟨second, right⟩ := List.forall_mem_cons.mp right
    have length : m.length = n.length := Nat.succ.inj same
    have below := value_lt left
    have above := value_lt right
    have lower := digit_range first
    have upper := digit_range second
    have shown : Ord.compare (c :: m) (d :: n) = (Ord.compare c d).then (Ord.compare m n) :=
      List.compare_cons_cons
    rw [shown, compare_digits length left right, value, value, length]
    rw [length] at below
    rcases Nat.lt_trichotomy c.toNat d.toNat with less | equal | more
    · have step : (c.toNat - 48 + 1) * 10 ^ n.length ≤ (d.toNat - 48) * 10 ^ n.length := Nat.mul_le_mul_right _ (by omega)
      have smaller : (c.toNat - 48) * 10 ^ n.length + value m < (d.toNat - 48) * 10 ^ n.length + value n := by
        rw [Nat.add_mul, Nat.one_mul] at step
        omega
      rw [Nat.compare_eq_lt.mpr smaller, show Ord.compare c d = .lt from Std.compare_eq_lt.mpr less]
      rfl
    · obtain rfl := UInt8.toNat_inj.mp equal
      rw [show Ord.compare c c = .eq from Std.compare_self, Ordering.eq_then]
      rcases Nat.lt_trichotomy (value m) (value n) with less | same | more
      · rw [Nat.compare_eq_lt.mpr less, Nat.compare_eq_lt.mpr (Nat.add_lt_add_left less _)]
      · rw [same]
        rw [Std.compare_self, Std.compare_self]
      · rw [Nat.compare_eq_gt.mpr more, Nat.compare_eq_gt.mpr (Nat.add_lt_add_left more _)]
    · have step : (d.toNat - 48 + 1) * 10 ^ n.length ≤ (c.toNat - 48) * 10 ^ n.length := Nat.mul_le_mul_right _ (by omega)
      have greater : (d.toNat - 48) * 10 ^ n.length + value n < (c.toNat - 48) * 10 ^ n.length + value m := by
        rw [Nat.add_mul, Nat.one_mul] at step
        omega
      rw [Nat.compare_eq_gt.mpr greater, show Ord.compare c d = .gt from Std.compare_eq_gt.mpr more]
      rfl

/-- Fewer digits make a smaller number, where none of them is a leading zero. -/
theorem value_shorter {m n : Bytes} (left : ∀ c ∈ m, isDigit c) (right : ∀ c ∈ n, isDigit c)
    (shorter : (withoutZeros m).length < (withoutZeros n).length) : value m < value n := by
  have digits : ∀ c ∈ withoutZeros m, isDigit c := fun c member => left c ((List.dropWhile_sublist _).mem member)
  rw [← value_withoutZeros m, ← value_withoutZeros n]
  cases shape : withoutZeros n with
  | nil => simp [shape] at shorter
  | cons d rest =>
    have member : d ∈ n := (List.dropWhile_sublist (· == 48)).mem (show d ∈ withoutZeros n by simp [shape])
    have leading : d ≠ 48 := by
      have front := List.head_dropWhile_not (· == 48) (l := n) (by rw [show n.dropWhile (· == 48) = d :: rest from shape]; simp)
      simpa only [show n.dropWhile (· == 48) = d :: rest from shape, List.head_cons, beq_eq_false_iff_ne] using front
    rw [shape, List.length_cons] at shorter
    calc value (withoutZeros m) < 10 ^ (withoutZeros m).length := value_lt digits
      _ ≤ 10 ^ rest.length := Nat.pow_le_pow_right (by decide) (by omega)
      _ ≤ value (d :: rest) := value_reaches (right d member) leading

/-- Numbers are compared by what their digits stand for. -/
theorem compareNumbers_value {m n : Bytes} (left : ∀ c ∈ m, isDigit c) (right : ∀ c ∈ n, isDigit c) :
    compareNumbers m n = Ord.compare (value m) (value n) := by
  have digits : ∀ {k : Bytes}, (∀ c ∈ k, isDigit c) → ∀ c ∈ withoutZeros k, isDigit c :=
    fun all c member => all c ((List.dropWhile_sublist _).mem member)
  rw [compareNumbers]
  rcases Nat.lt_trichotomy (withoutZeros m).length (withoutZeros n).length with less | same | more
  · rw [Nat.compare_eq_lt.mpr less, Nat.compare_eq_lt.mpr (value_shorter left right less)]
    rfl
  · rw [same, show Ord.compare (withoutZeros n).length (withoutZeros n).length = .eq from Std.compare_self, Ordering.eq_then,
      compare_digits same (digits left) (digits right), value_withoutZeros, value_withoutZeros]
  · rw [Nat.compare_eq_gt.mpr more, Nat.compare_eq_gt.mpr (value_shorter right left more)]
    rfl

end Versions
end Slate.Library
