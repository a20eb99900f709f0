import Mathlib.Data.Int.Log
import Mathlib.Data.Rat.Floor
import Mathlib.Tactic.FieldSimp
import Mathlib.Tactic.Linarith
import Mathlib.Tactic.NormNum
import Mathlib.Tactic.Positivity
import Mathlib.Tactic.Ring

/-! Decimal numbers: rounding to significant digits, writing and reading. -/

namespace Slate.Library

/-- The number `scaled / 10 ^ places`. -/
structure Decimal where
  scaled : Nat
  places : Nat
  deriving DecidableEq, Repr

def Decimal.value (decimal : Decimal) : ℚ := decimal.scaled / 10 ^ decimal.places

/-- The integer nearest to `num / den`, the even one of two. -/
def roundHalfEven (num den : Nat) : Nat :=
  let quotient := num / den
  let twice := 2 * (num % den)
  if twice < den ∨ twice = den ∧ quotient % 2 = 0 then quotient else quotient + 1

def Decimal.nearest (num den places : Nat) : Decimal :=
  ⟨roundHalfEven (num * 10 ^ places) den, places⟩

/-- `num / den` with as many places as leave it no more than so many digits. -/
def Decimal.significant (digits num den : Nat) : Nat → Decimal
  | 0 => nearest num den 0
  | places + 1 =>
    if (nearest num den (places + 1)).scaled < 10 ^ digits then nearest num den (places + 1)
    else significant digits num den places

/-- Zeros at the end are left out. -/
def Decimal.trimmed (scaled : Nat) : Nat → Decimal
  | 0 => ⟨scaled, 0⟩
  | places + 1 => if scaled % 10 = 0 then trimmed (scaled / 10) places else ⟨scaled, places + 1⟩

def lastDigits (scaled : Nat) : Nat → List Char
  | 0 => []
  | places + 1 => lastDigits (scaled / 10) places ++ [(scaled % 10).digitChar]

def Decimal.text (decimal : Decimal) : List Char :=
  Nat.toDigits 10 (decimal.scaled / 10 ^ decimal.places) ++
    if decimal.places = 0 then [] else '.' :: lastDigits decimal.scaled decimal.places

/-- A decimal at the beginning of a text, and what comes after it. -/
def readDecimal (text : List Char) : ℚ × List Char :=
  let whole := Nat.ofDigitChars 10 (text.takeWhile Char.isDigit) 0
  match text.dropWhile Char.isDigit with
  | '.' :: rest =>
    let fraction := rest.takeWhile Char.isDigit
    (whole + Nat.ofDigitChars 10 fraction 0 / 10 ^ fraction.length, rest.dropWhile Char.isDigit)
  | rest => (whole, rest)

/-- `decimal` is `x` up to half of the last of so many significant digits. -/
def RoundsTo (digits : Nat) (x decimal : ℚ) : Prop :=
  |decimal - x| ≤ 10 ^ (Int.log 10 x - (digits - 1)) / 2

theorem roundsTo_self (digits : Nat) (x : ℚ) : RoundsTo digits x x := by
  rw [RoundsTo, sub_self, abs_zero]
  exact div_nonneg (zpow_nonneg (by norm_num) _) (by norm_num)

theorem RoundsTo.near {digits : Nat} {x decimal : ℚ} {exponent : ℤ} (rounds : RoundsTo digits x decimal)
    (positive : 0 < x) (below : x < 10 ^ (exponent + 1)) : |decimal - x| ≤ 10 ^ (exponent - (digits - 1)) / 2 := by
  have logged : Int.log 10 x < exponent + 1 :=
    (Int.lt_zpow_iff_log_lt (by norm_num) positive).mp (by exact_mod_cast below)
  refine le_trans rounds (div_le_div_of_nonneg_right ?_ (by norm_num))
  exact zpow_le_zpow_right₀ (by norm_num) (by omega)

theorem roundsTo_of_le {digits : Nat} {x decimal : ℚ} {exponent : ℤ} (positive : 0 < x)
    (reached : 10 ^ exponent ≤ x) (near : |decimal - x| ≤ 10 ^ (exponent - (digits - 1)) / 2) :
    RoundsTo digits x decimal := by
  have logged : exponent ≤ Int.log 10 x :=
    (Int.zpow_le_iff_le_log (by norm_num) positive).mp (by exact_mod_cast reached)
  refine near.trans (div_le_div_of_nonneg_right ?_ (by norm_num))
  exact zpow_le_zpow_right₀ (by norm_num) (by omega)

theorem roundHalfEven_bounds (num : Nat) {den : Nat} (positive : 0 < den) :
    2 * (den * roundHalfEven num den) ≤ 2 * num + den ∧ 2 * num ≤ 2 * (den * roundHalfEven num den) + den := by
  have parts := Nat.div_add_mod num den
  have small := Nat.mod_lt num positive
  unfold roundHalfEven
  simp only
  split
  · omega
  · rw [Nat.mul_add, Nat.mul_one]
    omega

theorem roundHalfEven_near (num : Nat) {den : Nat} (positive : 0 < den) :
    |(roundHalfEven num den : ℚ) - num / den| ≤ 1 / 2 := by
  obtain ⟨above, below⟩ := roundHalfEven_bounds num positive
  have unit : (0 : ℚ) < den := by exact_mod_cast positive
  have upper : (2 : ℚ) * (den * roundHalfEven num den) ≤ 2 * num + den := by exact_mod_cast above
  have lower : (2 : ℚ) * num ≤ 2 * (den * roundHalfEven num den) + den := by exact_mod_cast below
  have exact_ : (num : ℚ) = num / den * den := by field_simp
  rw [abs_le]
  constructor
  · by_contra far
    have far := mul_lt_mul_of_pos_right (not_le.mp far) unit
    rw [sub_mul, ← exact_] at far
    linarith
  · by_contra far
    have far := mul_lt_mul_of_pos_right (not_le.mp far) unit
    rw [sub_mul, ← exact_] at far
    linarith

theorem nearest_near (num : Nat) {den : Nat} (positive : 0 < den) (places : Nat) :
    |(Decimal.nearest num den places).scaled - (num / den : ℚ) * 10 ^ places| ≤ 1 / 2 := by
  have near := roundHalfEven_near (num * 10 ^ places) positive
  have same : ((num * 10 ^ places : Nat) : ℚ) / den = num / den * 10 ^ places := by
    push_cast
    ring
  rwa [same] at near

theorem abs_mul_of_pos (a : ℚ) {b : ℚ} (positive : 0 < b) : |a| * b = |a * b| := by
  rw [abs_mul, abs_of_pos positive]

theorem nearest_value (num den places : Nat) :
    (Decimal.nearest num den places).value = (Decimal.nearest num den places).scaled / 10 ^ places := rfl

theorem value_nearest (num : Nat) {den : Nat} (positive : 0 < den) (places : Nat) :
    |(Decimal.nearest num den places).value - num / den| ≤ 1 / 2 / 10 ^ places := by
  have near := nearest_near num positive places
  have power : (0 : ℚ) < 10 ^ places := by positivity
  rw [le_div_iff₀ power, abs_mul_of_pos _ power, sub_mul, nearest_value, div_mul_cancel₀ _ power.ne']
  exact near

/-- A number that is near enough for some place is near enough for its significant digits, when
it has so many digits up to that place. -/
theorem roundsTo_of_near {digits places : Nat} {x decimal : ℚ} (positive : 0 < x)
    (near : |decimal - x| ≤ 1 / 2 / 10 ^ places) (enough : 10 ^ digits ≤ x * 10 ^ (places + 1)) :
    RoundsTo digits x decimal := by
  have reached : (10 : ℚ) ^ ((digits : ℤ) - (places + 1)) ≤ x := by
    rw [zpow_sub₀ (by norm_num), zpow_natCast, div_le_iff₀ (zpow_pos (by norm_num) _)]
    exact_mod_cast enough
  have same : (1 : ℚ) / 2 / 10 ^ places = 10 ^ ((digits : ℤ) - (places + 1) - (digits - 1)) / 2 := by
    rw [show (digits : ℤ) - (places + 1) - (digits - 1) = -(places : ℤ) by ring, zpow_neg, zpow_natCast]
    ring
  exact roundsTo_of_le positive reached (near.trans_eq same)

section Significant
variable {digits num den : Nat} (positive : 0 < den)
include positive

/-- Rounding may reach one more digit, and the number is then a power of ten. -/
theorem nearest_carry {places : Nat} (below : (num / den : ℚ) * 10 ^ (places + 1) < 10 ^ (digits + 1))
    (carried : 10 ^ (digits + 1) ≤ (Decimal.nearest num den (places + 1)).scaled) :
    (Decimal.nearest num den places).value = (Decimal.nearest num den (places + 1)).value ∧
      10 ^ digits * 10 - 1 / 2 ≤ (num / den : ℚ) * 10 ^ (places + 1) := by
  have fine_ := abs_le.mp (nearest_near num positive (places + 1))
  have coarse := abs_le.mp (nearest_near num positive places)
  have reached : (10 : ℚ) ^ (digits + 1) ≤ (Decimal.nearest num den (places + 1)).scaled := by
    exact_mod_cast carried
  rw [pow_succ (10 : ℚ) digits] at reached below
  have step : (num / den : ℚ) * 10 ^ (places + 1) = (num / den : ℚ) * 10 ^ places * 10 := by
    rw [pow_succ]
    ring
  have low : 10 ^ digits * 10 - 1 / 2 ≤ (num / den : ℚ) * 10 ^ (places + 1) := by
    linarith [fine_.2]
  have finer : (Decimal.nearest num den (places + 1)).scaled = 10 ^ digits * 10 := by
    have upper : ((Decimal.nearest num den (places + 1)).scaled : ℚ) < (10 ^ digits * 10 : Nat) + 1 := by
      push_cast
      linarith [fine_.2]
    have exactly : (Decimal.nearest num den (places + 1)).scaled < 10 ^ digits * 10 + 1 := by
      exact_mod_cast upper
    rw [pow_succ] at carried
    omega
  have coarser : (Decimal.nearest num den places).scaled = 10 ^ digits := by
    rw [step] at low below
    have upper : ((Decimal.nearest num den places).scaled : ℚ) < (10 ^ digits : Nat) + 1 := by
      push_cast
      linarith [coarse.2]
    have lower : ((10 ^ digits : Nat) : ℚ) < (Decimal.nearest num den places).scaled + 1 := by
      push_cast
      linarith [coarse.1]
    have not_above : (Decimal.nearest num den places).scaled < 10 ^ digits + 1 := by exact_mod_cast upper
    have not_below : 10 ^ digits < (Decimal.nearest num den places).scaled + 1 := by exact_mod_cast lower
    omega
  refine ⟨?_, low⟩
  rw [nearest_value, nearest_value, finer, coarser, pow_succ]
  push_cast
  field_simp

variable (some_ : 0 < num)
include some_

theorem ratio_pos : (0 : ℚ) < num / den := by
  have numerator : (0 : ℚ) < num := by exact_mod_cast some_
  have denominator : (0 : ℚ) < den := by exact_mod_cast positive
  positivity

/-- So many places are enough, or one more would be too many. -/
theorem nearest_rounds {places : Nat} (enough : (10 : ℚ) ^ (digits + 1) ≤ num / den * 10 ^ (places + 1) ∨
      10 ^ (digits + 1) ≤ (Decimal.nearest num den (places + 1)).scaled) :
    RoundsTo (digits + 1) (num / den) (Decimal.nearest num den places).value := by
  by_cases below : (num / den : ℚ) * 10 ^ (places + 1) < 10 ^ (digits + 1)
  · have carried := enough.resolve_left (not_le.mpr below)
    obtain ⟨same, low⟩ := nearest_carry positive below carried
    rw [same]
    refine roundsTo_of_near (ratio_pos positive some_) (value_nearest num positive (places + 1)) ?_
    have power : (1 : ℚ) ≤ 10 ^ digits := one_le_pow₀ (by norm_num)
    rw [pow_succ _ digits, pow_succ _ (places + 1), ← mul_assoc]
    linarith
  · exact roundsTo_of_near (ratio_pos positive some_) (value_nearest num positive places) (not_lt.mp below)

theorem significant_rounds : ∀ {places : Nat}, ((10 : ℚ) ^ (digits + 1) ≤ num / den * 10 ^ (places + 1) ∨
      10 ^ (digits + 1) ≤ (Decimal.nearest num den (places + 1)).scaled) →
    RoundsTo (digits + 1) (num / den) (Decimal.significant (digits + 1) num den places).value := by
  intro places
  induction places with
  | zero => exact fun enough => nearest_rounds positive some_ enough
  | succ places ih =>
    intro enough
    rw [Decimal.significant]
    split
    next => exact nearest_rounds positive some_ enough
    next many => exact ih (Or.inr (not_lt.mp many))

end Significant

theorem roundHalfEven_ge (num den : Nat) : num / den ≤ roundHalfEven num den := by
  unfold roundHalfEven
  simp only
  split <;> omega

/-- There are no more places than leave room for the digits before them. -/
theorem significant_places {digits num den place : Nat} (positive : 0 < den)
    (large : 10 ^ digits * den ≤ num * 10 ^ (place + 1)) (most : Nat) :
    (Decimal.significant digits num den most).places ≤ place := by
  induction most with
  | zero => exact Nat.zero_le _
  | succ places ih =>
    rw [Decimal.significant]
    split
    next few =>
      by_contra more
      have power : 10 ^ (place + 1) ≤ 10 ^ (places + 1) := Nat.pow_le_pow_right (by decide) (by
        have more : ¬ places + 1 ≤ place := more
        omega)
      have reached : 10 ^ digits ≤ num * 10 ^ (places + 1) / den :=
        (Nat.le_div_iff_mul_le positive).mpr (large.trans (Nat.mul_le_mul_left _ power))
      exact absurd few (not_lt.mpr (reached.trans (roundHalfEven_ge _ _)))
    next => exact ih

theorem value_scaled (decimal : Decimal) {places : Nat} (enough : decimal.places ≤ places) :
    decimal.value * 10 ^ places = (decimal.scaled * 10 ^ (places - decimal.places) : Nat) := by
  obtain ⟨more, rfl⟩ := Nat.exists_eq_add_of_le enough
  rw [Decimal.value, Nat.add_sub_cancel_left, pow_add]
  push_cast
  field_simp

theorem trimmed_value (decimal : Decimal) :
    (Decimal.trimmed decimal.scaled decimal.places).value = decimal.value := by
  obtain ⟨scaled, places⟩ := decimal
  simp only
  induction places generalizing scaled with
  | zero => rfl
  | succ places ih =>
    rw [Decimal.trimmed]
    split
    next zero =>
      have tens : (scaled : ℚ) = (scaled / 10 : Nat) * 10 := by
        exact_mod_cast (Nat.div_mul_cancel (Nat.dvd_of_mod_eq_zero zero)).symm
      rw [ih, Decimal.value, Decimal.value, tens, pow_succ]
      simp only
      field_simp
    next => rfl

theorem lastDigits_digits (scaled places : Nat) : ∀ c ∈ lastDigits scaled places, c.isDigit = true := by
  induction places generalizing scaled with
  | zero => exact fun _ member => absurd member List.not_mem_nil
  | succ places ih =>
    intro c member
    rcases List.mem_append.mp member with earlier | last
    · exact ih _ c earlier
    · rw [List.mem_singleton.mp last, Nat.isDigit_digitChar]
      exact decide_eq_true (Nat.mod_lt _ (by decide))

theorem lastDigits_length (scaled places : Nat) : (lastDigits scaled places).length = places := by
  induction places generalizing scaled with
  | zero => rfl
  | succ places ih => rw [lastDigits, List.length_append, ih, List.length_singleton]

theorem ofDigitChars_lastDigits (scaled places : Nat) :
    Nat.ofDigitChars 10 (lastDigits scaled places) 0 = scaled % 10 ^ places := by
  induction places generalizing scaled with
  | zero => rw [pow_zero, Nat.mod_one]; rfl
  | succ places ih =>
    rw [lastDigits, Nat.ofDigitChars_append, ih,
      Nat.ofDigitChars_cons_digitChar_of_lt_ten (Nat.mod_lt _ (by decide)), Nat.ofDigitChars_nil,
      pow_succ, Nat.mul_comm (10 ^ places) 10, Nat.mod_mul]
    omega

theorem takeWhile_digits {digits rest : List Char} (all : ∀ c ∈ digits, c.isDigit = true)
    (stops : ∀ c ∈ rest.head?, c.isDigit = false) :
    (digits ++ rest).takeWhile Char.isDigit = digits ∧ (digits ++ rest).dropWhile Char.isDigit = rest := by
  rw [List.takeWhile_append_of_pos all, List.dropWhile_append_of_pos all]
  cases rest with
  | nil => exact ⟨List.append_nil _, rfl⟩
  | cons c rest =>
    have stop := stops c rfl
    rw [List.takeWhile_cons_of_neg (by simp [stop]), List.dropWhile_cons_of_neg (by simp [stop]), List.append_nil]
    exact ⟨rfl, rfl⟩

theorem toDigits_digits (number : Nat) : ∀ c ∈ Nat.toDigits 10 number, c.isDigit = true :=
  fun _ member => Nat.isDigit_of_mem_toDigits (by decide) (by decide) member

/-- What was written is read again, up to where something else begins. -/
theorem readDecimal_text (decimal : Decimal) {rest : List Char}
    (stops : ∀ c ∈ rest.head?, c.isDigit = false ∧ c ≠ '.') :
    readDecimal (decimal.text ++ rest) = (decimal.value, rest) := by
  have divided := Nat.div_add_mod decimal.scaled (10 ^ decimal.places)
  have stopsDigits : ∀ c ∈ rest.head?, c.isDigit = false := fun c first => (stops c first).1
  by_cases whole : decimal.places = 0
  · have text : decimal.text ++ rest = Nat.toDigits 10 decimal.scaled ++ rest := by
      rw [Decimal.text, whole, if_pos rfl, List.append_nil, pow_zero, Nat.div_one]
    obtain ⟨taken, left⟩ := takeWhile_digits (toDigits_digits decimal.scaled) stopsDigits
    have value : decimal.value = (decimal.scaled : ℚ) := by
      rw [Decimal.value, whole, pow_zero, div_one]
    rw [text, readDecimal, taken, left, Nat.ofDigitChars_ten_toDigits, value]
    cases rest with
    | nil => rfl
    | cons c rest =>
      have dot := (stops c rfl).2
      split
      next heq =>
        cases heq
        exact absurd rfl dot
      next => rfl
  · have text : decimal.text ++ rest = Nat.toDigits 10 (decimal.scaled / 10 ^ decimal.places) ++
        '.' :: (lastDigits decimal.scaled decimal.places ++ rest) := by
      rw [Decimal.text, if_neg whole, List.append_assoc, List.cons_append]
    have dot : ∀ c ∈ ('.' :: (lastDigits decimal.scaled decimal.places ++ rest)).head?, c.isDigit = false := by
      intro c first
      cases first
      rfl
    obtain ⟨taken, left⟩ := takeWhile_digits (toDigits_digits (decimal.scaled / 10 ^ decimal.places)) dot
    obtain ⟨fraction, after⟩ := takeWhile_digits (lastDigits_digits decimal.scaled decimal.places) stopsDigits
    rw [text, readDecimal, taken, left]
    simp only [fraction, after, Nat.ofDigitChars_ten_toDigits, ofDigitChars_lastDigits, lastDigits_length]
    rw [Decimal.value]
    have parts : (decimal.scaled : ℚ) = 10 ^ decimal.places * (decimal.scaled / 10 ^ decimal.places : Nat) +
        (decimal.scaled % 10 ^ decimal.places : Nat) := by exact_mod_cast divided.symm
    congr 1
    rw [parts]
    field_simp

end Slate.Library
