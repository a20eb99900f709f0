import Mathlib.Data.List.TakeWhile
import Slate.Quantities

/-! Which quantities are written and read faithfully. -/

namespace Slate
open Library

/-- What a suffix in any case stands for. -/
def knownScale (suffix : List Char) : Option Int :=
  if suffix = [] then some 1 else lookups.lookup (suffix.map Char.toLower)

/-- The number of bytes that a text stands for. -/
def quantity (text : List Char) : Option ℚ :=
  let (value, suffix) := readDecimal text
  (knownScale suffix).map fun (scale : Int) => value * scale

/-- The unit that a number of bytes is written in. -/
def chosenUnit (value : Int) : Option Int :=
  (suffixVals.find? fun (_, unit) => value.tdiv unit < 1024).map Prod.snd

/-- A text stands for a number up to the rounding of the last of six digits. -/
def Denotes (text : String) (value : Int) : Prop :=
  ∃ unit q, chosenUnit value = some unit ∧ quantity text.toList = some q ∧
    RoundsTo 6 (value / unit) (q / unit)

def units : List (String × Nat) := [("Ki", 1024), ("Mi", 1048576), ("Gi", 1073741824), ("Ti", 1099511627776)]

private theorem suffixVals_eq : suffixVals = units.map fun (suffix, unit) => (suffix, (unit : Int)) := rfl

private theorem generateFrom_cons (number unit : Nat) (suffix : String) (more : List (String × Int)) :
    generateFrom number ((suffix, (unit : Int)) :: more) =
      if number / unit < 1024 then .ok (suffixed (number / unit : Nat) number suffix unit)
      else generateFrom number more := by
  rw [generateFrom, ← Int.ofNat_tdiv]
  by_cases fewer : number / unit < 1024
  · rw [if_pos fewer, if_pos (by exact_mod_cast fewer)]
  · rw [if_neg fewer, if_neg (by exact_mod_cast fewer)]

/-- Either the first unit is chosen that leaves less than 1024 of it, or there is none. -/
theorem generateFrom_cases (number : Nat) : ∀ table : List (String × Nat),
    (∃ suffix unit, (suffix, unit) ∈ table ∧ number / unit < 1024 ∧
      (table.find? fun entry => number / entry.2 < 1024) = some (suffix, unit) ∧
      generateFrom number (table.map fun (suffix, unit) => (suffix, (unit : Int))) =
        .ok (suffixed (number / unit : Nat) number suffix unit)) ∨
    ((∀ entry ∈ table, 1024 ≤ number / entry.2) ∧
      generateFrom number (table.map fun (suffix, unit) => (suffix, (unit : Int))) = .error .outsideTable) := by
  intro table
  induction table with
  | nil => exact Or.inr ⟨fun _ member => absurd member List.not_mem_nil, rfl⟩
  | cons entry table ih =>
    obtain ⟨suffix, unit⟩ := entry
    rw [List.map_cons, generateFrom_cons]
    by_cases fewer : number / unit < 1024
    · refine Or.inl ⟨suffix, unit, List.mem_cons_self, fewer, ?_, if_pos fewer⟩
      exact List.find?_cons_of_pos (decide_eq_true fewer)
    · rw [if_neg fewer]
      rcases ih with ⟨found, scale, member, few, first, ran⟩ | ⟨none_, failed⟩
      · refine Or.inl ⟨found, scale, List.mem_cons_of_mem _ member, few, ?_, ran⟩
        rwa [List.find?_cons_of_neg (by simpa using fewer)]
      · refine Or.inr ⟨?_, failed⟩
        intro entry member
        rcases List.mem_cons.mp member with rfl | member
        · exact not_lt.mp fewer
        · exact none_ entry member

private theorem chosenUnit_eq (number : Nat) :
    chosenUnit number = (units.find? fun entry => number / entry.2 < 1024).map fun entry => (entry.2 : Int) := by
  rw [chosenUnit, suffixVals_eq, List.find?_map, Option.map_map]
  have same : ∀ entry : String × Nat, decide ((number : Int).tdiv (entry.2 : Int) < 1024) =
      decide (number / entry.2 < 1024) := by
    intro entry
    rw [← Int.ofNat_tdiv]
    exact decide_eq_decide.mpr (by exact_mod_cast Iff.rfl)
  refine congrArg₂ Option.map rfl (congrArg (List.find? · units) ?_)
  funext entry
  obtain ⟨suffix, unit⟩ := entry
  rw [Function.comp_apply]
  exact same (suffix, unit)

structure Chosen (number : Nat) (suffix : String) (unit : Nat) : Prop where
  entry : (suffix, unit) ∈ units
  fewer : number < 1024 * unit
  reached : unit ≤ number ∨ unit = 1024
  positive : 0 < unit

private theorem chosen_of_find {number unit : Nat} {suffix : String}
    (found : (units.find? fun entry => number / entry.2 < 1024) = some (suffix, unit)) :
    Chosen number suffix unit := by
  have entry := List.mem_of_find?_eq_some found
  have fewer := List.find?_some found
  simp only [decide_eq_true_eq] at fewer
  have positive : 0 < unit := (by decide : ∀ entry ∈ units, 0 < entry.2) _ entry
  refine ⟨entry, (Nat.div_lt_iff_lt_mul positive).mp fewer, ?_, positive⟩
  simp only [units, List.find?_cons] at found
  split at found
  next => exact Or.inr (congrArg Prod.snd (Option.some.inj found)).symm
  next small =>
    split at found
    next =>
      have same : 1048576 = unit := congrArg Prod.snd (Option.some.inj found)
      simp only [decide_eq_false_iff_not] at small
      omega
    next small =>
      split at found
      next =>
        have same : 1073741824 = unit := congrArg Prod.snd (Option.some.inj found)
        simp only [decide_eq_false_iff_not] at small
        omega
      next small =>
        split at found
        next =>
          have same : 1099511627776 = unit := congrArg Prod.snd (Option.some.inj found)
          simp only [decide_eq_false_iff_not] at small
          omega
        next => cases found

/-- What is written is written in the unit that is chosen. -/
theorem generate_cases (number : Nat) :
    (number < 2 ^ 50 ∧ ∃ suffix unit, Chosen number suffix unit ∧ chosenUnit number = some (unit : Int) ∧
      generateSuffixedString number = .ok (suffixed (number / unit : Nat) number suffix unit)) ∨
    (2 ^ 50 ≤ number ∧ chosenUnit number = none ∧ generateSuffixedString number = .error .outsideTable) := by
  rw [chosenUnit_eq]
  rcases generateFrom_cases number units with ⟨suffix, unit, member, _, found, ran⟩ | ⟨none_, failed⟩
  · have chosen := chosen_of_find found
    have largest : unit ≤ 1099511627776 := (by decide : ∀ entry ∈ units, entry.2 ≤ 1099511627776) _ member
    have fewer := chosen.fewer
    refine Or.inl ⟨by omega, suffix, unit, chosen, ?_, ran⟩
    rw [found]
    rfl
  · have large : 1024 ≤ number / 1099511627776 := none_ ("Ti", 1099511627776) (by decide)
    refine Or.inr ⟨by omega, ?_, failed⟩
    have nothing : (units.find? fun entry => number / entry.2 < 1024) = none := by
      rw [List.find?_eq_none]
      intro entry member
      simpa using none_ entry member
    rw [nothing]
    rfl

example : generateSuffixedString (5 * 1024 + 512) = .ok "5.5Ki" := by decide +kernel

def printedRemainder (number unit : Nat) : Int := ((number % unit : Nat) : Int).bmod 4294967296

/-- The value before the suffix. -/
def printedValue (number unit : Nat) : ℚ :=
  if printedRemainder number unit = 0 then (number / unit : Nat)
  else (Decimal.significant 6 ((number / unit : Nat) * unit + printedRemainder number unit : Int).natAbs unit 9).value

/-- A text is looked at only up to its first character. -/
theorem head_of_all {p : Char → Prop} [DecidablePred p] {text : List Char} (all : text.head?.all (p ·)) :
    ∀ c ∈ text.head?, p c := by
  intro c first
  exact of_decide_eq_true ((Option.all_eq_true _ _).mp all c first)

private theorem knownScale_unit : ∀ entry ∈ units, knownScale entry.1.toList = some (entry.2 : Int) ∧
    ∀ c ∈ entry.1.toList.head?, c.isDigit = false ∧ c ≠ '.' := by
  have table : ∀ entry ∈ units, knownScale entry.1.toList = some (entry.2 : Int) ∧
      entry.1.toList.head?.all fun c => decide (c.isDigit = false ∧ c ≠ '.') := by decide +kernel
  intro entry member
  exact ⟨(table entry member).1, head_of_all (table entry member).2⟩

private theorem toString_whole (number : Nat) : (toString (number : Int)).toList = (⟨number, 0⟩ : Decimal).text := by
  rw [Decimal.text, if_pos rfl, List.append_nil, pow_zero, Nat.div_one]
  exact Nat.toList_repr

/-- What is left of a number when it is narrowed differs from it by a multiple of 2^32. -/
theorem bmod_parts (remainder : Nat) : ∃ wraps : Nat,
    (remainder : Int) = (remainder : Int).bmod 4294967296 + wraps * 4294967296 ∧
    -2147483648 ≤ (remainder : Int).bmod 4294967296 ∧ (remainder : Int).bmod 4294967296 < 2147483648 ∧
    (remainder < 2147483648 ↔ wraps = 0) := by
  refine ⟨(remainder + 2147483648) / 4294967296, ?_⟩
  rw [Int.bmod_def]
  simp only [Nat.cast_ofNat]
  split
  · refine ⟨by omega, by omega, by omega, ?_⟩
    omega
  · refine ⟨by omega, by omega, by omega, ?_⟩
    omega

theorem printedRemainder_parts (number unit : Nat) : ∃ wraps : Nat,
    ((number % unit : Nat) : Int) = printedRemainder number unit + wraps * 4294967296 ∧
    -2147483648 ≤ printedRemainder number unit ∧ printedRemainder number unit < 2147483648 ∧
    (number % unit < 2147483648 ↔ wraps = 0) :=
  bmod_parts (number % unit)

/-- What is printed is close to the whole units, and there are some unless all is exact. -/
theorem printed_large {number unit : Nat} {suffix : String} (chosen : Chosen number suffix unit)
    (rest : printedRemainder number unit ≠ 0) :
    (unit : Int) ≤ ((number / unit : Nat) * unit + printedRemainder number unit) * 1024 := by
  obtain ⟨wraps, same, above, below, fits⟩ := printedRemainder_parts number unit
  have divided := Nat.div_add_mod number unit
  have small := Nat.mod_lt number chosen.positive
  have entry := chosen.entry
  have reached := chosen.reached
  simp only [units, List.mem_cons, Prod.mk.injEq, List.not_mem_nil, or_false] at entry
  rcases entry with ⟨-, rfl⟩ | ⟨-, rfl⟩ | ⟨-, rfl⟩ | ⟨-, rfl⟩ <;> omega

theorem printed_nonneg {number unit : Nat} {suffix : String} (chosen : Chosen number suffix unit) :
    0 ≤ ((number / unit : Nat) * unit + printedRemainder number unit : Int) := by
  by_cases rest : printedRemainder number unit = 0
  · rw [rest, add_zero]
    exact mul_nonneg (Int.natCast_nonneg _) (Int.natCast_nonneg _)
  · have large := printed_large chosen rest
    have positive := chosen.positive
    omega

private theorem quantity_suffixed {number unit : Nat} {suffix : String} (chosen : Chosen number suffix unit) :
    quantity (suffixed (number / unit : Nat) number suffix unit).toList = some (printedValue number unit * unit) := by
  obtain ⟨scale, stops⟩ := knownScale_unit _ chosen.entry
  have remainder : ((number : Int).tmod (unit : Int)).bmod 4294967296 = printedRemainder number unit := by
    rw [← Int.ofNat_tmod]
    rfl
  rw [suffixed, remainder]
  by_cases whole : printedRemainder number unit = 0
  · rw [if_neg (not_not.mpr whole), String.toList_append, toString_whole, quantity, readDecimal_text _ stops]
    simp only [scale, printedValue, whole, if_true, Decimal.value, Option.map_some, pow_zero, div_one, Int.cast_natCast]
  · have nonneg := printed_nonneg chosen
    rw [if_pos whole, String.toList_append, String.toList_ofList, streamed,
      if_neg (not_lt.mpr nonneg), List.nil_append, quantity, readDecimal_text _ stops]
    simp only [scale, printedValue, whole, if_false, trimmed_value, Option.map_some, Int.toNat_natCast, Int.cast_natCast]

def printedRatio (number unit : Nat) : ℚ :=
  (((number / unit : Nat) * unit + printedRemainder number unit : Int) : ℚ) / unit

private theorem printed_natAbs {number unit : Nat} {suffix : String} (chosen : Chosen number suffix unit) :
    (((number / unit : Nat) * unit + printedRemainder number unit : Int).natAbs : ℚ) / unit =
      printedRatio number unit := by
  have abs := Int.natAbs_of_nonneg (printed_nonneg chosen)
  rw [printedRatio, ← abs, Int.cast_natCast, abs]

private theorem printedRatio_whole {number unit : Nat} (positive : 0 < unit) (whole : printedRemainder number unit = 0) :
    printedRatio number unit = (number / unit : Nat) := by
  have nonzero : (unit : ℚ) ≠ 0 := by exact_mod_cast positive.ne'
  rw [printedRatio, whole, add_zero, Int.cast_mul, Int.cast_natCast, Int.cast_natCast,
    mul_div_cancel_right₀ _ nonzero]

/-- What is printed is rounded right. -/
theorem printed_rounds {number unit : Nat} {suffix : String} (chosen : Chosen number suffix unit) :
    RoundsTo 6 (printedRatio number unit) (printedValue number unit) := by
  by_cases whole : printedRemainder number unit = 0
  · rw [printedRatio_whole chosen.positive whole, printedValue, if_pos whole]
    exact roundsTo_self 6 _
  · have large := printed_large chosen whole
    have positive := chosen.positive
    have nonneg := Int.natAbs_of_nonneg (printed_nonneg chosen)
    rw [printedValue, if_neg whole, ← printed_natAbs chosen]
    generalize ((number / unit : Nat) * unit + printedRemainder number unit : Int) = sum at large nonneg
    have some_ : 0 < sum.natAbs := by omega
    have bound : unit ≤ sum.natAbs * 1024 := by omega
    generalize sum.natAbs = count at some_ bound ⊢
    refine @significant_rounds 5 count unit positive some_ 9 (Or.inl ?_)
    have unit_pos : (0 : ℚ) < unit := by exact_mod_cast positive
    have some_rational : (0 : ℚ) < count := by exact_mod_cast some_
    have bound_rational : (unit : ℚ) ≤ count * 1024 := by exact_mod_cast bound
    rw [div_mul_eq_mul_div, le_div_iff₀ unit_pos]
    norm_num
    linarith

/-- The only unit that a remainder may be too large for. -/
abbrev largestUnit : Nat := 1099511627776

private theorem small_remainder {number unit : Nat} {suffix : String} (chosen : Chosen number suffix unit)
    (small : unit < largestUnit) : number % unit < 2147483648 := by
  have entry := chosen.entry
  have below := Nat.mod_lt number chosen.positive
  rw [largestUnit] at small
  simp only [units, List.mem_cons, Prod.mk.injEq, List.not_mem_nil, or_false] at entry
  rcases entry with ⟨-, rfl⟩ | ⟨-, rfl⟩ | ⟨-, rfl⟩ | ⟨-, rfl⟩ <;> omega

/-- What is printed is the number itself when its remainder is not narrowed. -/
theorem printedRatio_exact {number unit : Nat} (fits : number % unit < 2147483648) :
    printedRatio number unit = (number : ℚ) / unit := by
  obtain ⟨wraps, same, -, -, exact_⟩ := printedRemainder_parts number unit
  rw [exact_.mp fits, Nat.cast_zero, zero_mul, add_zero] at same
  have divided : (((number / unit : Nat) * unit + (number % unit : Nat) : Int) : ℚ) = number := by
    have parts : ((number / unit : Nat) * unit + (number % unit : Nat) : Int) = number := by
      exact_mod_cast Nat.div_add_mod' number unit
    rw [parts, Int.cast_natCast]
  rw [printedRatio, ← same, divided]

/-- How far what is printed is from the number and from its whole units. -/
theorem printedRatio_largest (number : Nat) : ∃ wraps : Nat, (number % largestUnit < 2147483648 ↔ wraps = 0) ∧
    (number : ℚ) / largestUnit = printedRatio number largestUnit + wraps / 256 ∧
    |printedRatio number largestUnit - (number / largestUnit : Nat)| ≤ 1 / 512 ∧
    (number : ℚ) / largestUnit = (number / largestUnit : Nat) + (number % largestUnit : Nat) / 1099511627776 := by
  obtain ⟨wraps, same, above, below, fits⟩ := printedRemainder_parts number largestUnit
  have divided : (number : ℚ) = (number / largestUnit : Nat) * 1099511627776 + (number % largestUnit : Nat) := by
    exact_mod_cast (Nat.div_add_mod' number largestUnit).symm
  have narrowed : ((number % largestUnit : Nat) : ℚ) =
      (printedRemainder number largestUnit : Int) + wraps * 4294967296 := by
    have cast := congrArg (Int.cast : Int → ℚ) same
    rwa [Int.cast_add, Int.cast_mul, Int.cast_natCast, Int.cast_natCast, Int.cast_ofNat] at cast
  have above : (-2147483648 : ℚ) ≤ (printedRemainder number largestUnit : Int) := by
    have cast : (((-2147483648 : Int) : ℚ)) ≤ (printedRemainder number largestUnit : Int) := Int.cast_le.mpr above
    rwa [Int.cast_neg, Int.cast_ofNat] at cast
  have below : ((printedRemainder number largestUnit : Int) : ℚ) < 2147483648 := by
    have cast : ((printedRemainder number largestUnit : Int) : ℚ) < ((2147483648 : Int) : ℚ) := Int.cast_lt.mpr below
    rwa [Int.cast_ofNat] at cast
  have ratio : printedRatio number largestUnit =
      (number / largestUnit : Nat) + (printedRemainder number largestUnit : Int) / 1099511627776 := by
    rw [printedRatio, Int.cast_add, Int.cast_mul, Int.cast_natCast, Int.cast_natCast, add_div]
    norm_num
  refine ⟨wraps, fits, ?_, ?_, ?_⟩
  · rw [ratio, divided, narrowed]
    norm_num
    ring
  · rw [ratio, add_sub_cancel_left, abs_le]
    constructor <;> linarith
  · rw [divided]
    norm_num
    ring

private theorem whole_units {number : Nat} {suffix : String} (chosen : Chosen number suffix largestUnit) :
    (1 : ℚ) ≤ (number / largestUnit : Nat) ∧ ((number / largestUnit : Nat) : ℚ) < 1024 := by
  have reached := chosen.reached
  have fewer := chosen.fewer
  rw [largestUnit] at reached fewer
  constructor
  · have one : 1 ≤ number / 1099511627776 := by omega
    exact_mod_cast one
  · have less : number / 1099511627776 < 1024 := by omega
    exact_mod_cast less

/-- Above a thousand there are two places, and what is printed is too close to the whole units to show them. -/
theorem printed_whole {number : Nat} {suffix : String} (chosen : Chosen number suffix largestUnit)
    (thousand : 1000 ≤ printedRatio number largestUnit) :
    printedValue number largestUnit = (number / largestUnit : Nat) := by
  by_cases rest : printedRemainder number largestUnit = 0
  · rw [printedValue, if_pos rest]
  · obtain ⟨_, -, -, close, -⟩ := printedRatio_largest number
    obtain ⟨-, fewer⟩ := whole_units chosen
    have close := abs_le.mp close
    have below : printedRatio number largestUnit < 10 ^ ((3 : ℤ) + 1) := by
      norm_num
      linarith
    have near := (printed_rounds chosen).near (by linarith) below
    norm_num at near
    have near := abs_le.mp near
    have ratio := printed_natAbs chosen
    rw [printedValue, if_neg rest] at near ⊢
    generalize ((number / largestUnit : Nat) * largestUnit + printedRemainder number largestUnit : Int).natAbs =
      sum at near ratio ⊢
    have large : 10 ^ 6 * largestUnit ≤ sum * 10 ^ (2 + 1) := by
      rw [← ratio, le_div_iff₀ (by norm_num)] at thousand
      have thousand : 1000 * largestUnit ≤ sum := by exact_mod_cast thousand
      omega
    have places := significant_places chosen.positive large 9
    have hundredths := value_scaled _ places
    generalize (Decimal.significant 6 sum largestUnit 9).scaled *
      10 ^ (2 - (Decimal.significant 6 sum largestUnit 9).places) = scaled at hundredths
    have upper : (scaled : ℚ) < (100 * (number / largestUnit) : Nat) + 1 := by
      rw [Nat.cast_mul, ← hundredths]
      norm_num
      linarith [near.2, close.2]
    have lower : ((100 * (number / largestUnit) : Nat) : ℚ) < scaled + 1 := by
      rw [Nat.cast_mul, ← hundredths]
      norm_num
      linarith [near.1, close.1]
    have upper : scaled < 100 * (number / largestUnit) + 1 := by exact_mod_cast upper
    have lower : 100 * (number / largestUnit) < scaled + 1 := by exact_mod_cast lower
    have exactly : scaled = 100 * (number / largestUnit) := by omega
    rw [exactly, Nat.cast_mul] at hundredths
    norm_num at hundredths
    linarith

theorem rounds_below_thousand {x decimal : ℚ} (positive : 0 < x) (below : x < 1000)
    (rounds : RoundsTo 6 x decimal) : |decimal - x| ≤ 1 / 2000 := by
  have small : x < 10 ^ ((2 : ℤ) + 1) := by
    norm_num
    linarith
  have near := rounds.near positive small
  norm_num at near
  linarith

private theorem rounds_above_thousand {x decimal : ℚ} (thousand : 1000 ≤ x) (below : x < 1025) :
    RoundsTo 6 x decimal ↔ |decimal - x| ≤ 1 / 200 := by
  have positive : 0 < x := by linarith
  constructor
  · intro rounds
    have small : x < 10 ^ ((3 : ℤ) + 1) := by
      norm_num
      linarith
    have near := rounds.near positive small
    norm_num at near
    linarith
  · intro near
    have reached : (10 : ℚ) ^ (3 : ℤ) ≤ x := by
      norm_num
      linarith
    refine roundsTo_of_le positive reached ?_
    norm_num
    linarith

/-- Half a hundredth of the largest unit. -/
theorem half_hundredth_iff (remainder : Nat) :
    ((remainder : ℚ) / 1099511627776 ≤ 1 / 200) ↔ 200 * remainder ≤ largestUnit := by
  have cast : ((200 * remainder : Nat) : ℚ) ≤ ((1099511627776 : Nat) : ℚ) ↔ 200 * remainder ≤ 1099511627776 :=
    Nat.cast_le
  rw [Nat.cast_mul, Nat.cast_ofNat, Nat.cast_ofNat] at cast
  rw [div_le_iff₀ (by norm_num)]
  refine Iff.trans ?_ cast
  constructor <;> intro small <;> linarith

/-- A remainder that was narrowed shows below a thousand units, and above unless it is rounded away. -/
theorem largest_rounds_iff {number : Nat} {suffix : String} (chosen : Chosen number suffix largestUnit) :
    RoundsTo 6 ((number : ℚ) / largestUnit) (printedValue number largestUnit) ↔
      number % largestUnit < 2147483648 ∨
        1000 * largestUnit ≤ number ∧ 200 * (number % largestUnit) ≤ largestUnit := by
  have rounds := printed_rounds chosen
  obtain ⟨one, fewer⟩ := whole_units chosen
  obtain ⟨wraps, fits, apart, close, parts⟩ := printedRatio_largest number
  by_cases exact_ : number % largestUnit < 2147483648
  · rw [← printedRatio_exact exact_]
    exact iff_of_true rounds (Or.inl exact_)
  have wrapped : (1 : ℚ) ≤ wraps := by
    have some_ : 1 ≤ wraps := Nat.one_le_iff_ne_zero.mpr (fun none_ => exact_ (fits.mpr none_))
    exact_mod_cast some_
  have close := abs_le.mp close
  have positive : 0 < printedRatio number largestUnit := by linarith [close.1]
  have fraction : ((number % largestUnit : Nat) : ℚ) / 1099511627776 < 1 := by
    have below : number % largestUnit < 1099511627776 := Nat.mod_lt _ chosen.positive
    rw [div_lt_one (by norm_num)]
    exact_mod_cast below
  have some_fraction : 0 ≤ ((number % largestUnit : Nat) : ℚ) / 1099511627776 :=
    div_nonneg (Nat.cast_nonneg _) (by norm_num)
  rw [or_iff_right exact_]
  by_cases thousand : 1000 * largestUnit ≤ number
  · have whole : (1000 : ℚ) ≤ (number / largestUnit : Nat) := by
      have whole : 1000 ≤ number / largestUnit := (Nat.le_div_iff_mul_le chosen.positive).mpr thousand
      exact_mod_cast whole
    rw [rounds_above_thousand (by linarith) (by linarith), ← half_hundredth_iff, abs_le]
    by_cases printed : 1000 ≤ printedRatio number largestUnit
    · rw [printed_whole chosen printed]
      constructor
      · intro ⟨lower, _⟩
        exact ⟨thousand, by linarith⟩
      · intro ⟨_, small⟩
        constructor <;> linarith
    · have near := abs_le.mp (rounds_below_thousand positive (not_le.mp printed) rounds)
      by_cases once : wraps = 1
      · have once : (wraps : ℚ) = 1 := by exact_mod_cast once
        rw [once] at apart
        constructor
        · intro _
          exact ⟨thousand, by linarith⟩
        · intro _
          constructor <;> linarith [near.1, near.2]
      · have twice : (2 : ℚ) ≤ wraps := by
          have one_more : 1 ≤ wraps := by exact_mod_cast wrapped
          have twice : 2 ≤ wraps := by omega
          exact_mod_cast twice
        constructor
        · intro ⟨lower, _⟩
          linarith [near.2]
        · intro ⟨_, small⟩
          linarith [close.1]
  · refine iff_of_false ?_ (fun right => thousand right.1)
    intro shown
    have below : (number : ℚ) / largestUnit < 1000 := by
      rw [div_lt_iff₀ (by norm_num)]
      exact_mod_cast not_le.mp thousand
    have near := abs_le.mp (rounds_below_thousand positive (by linarith) rounds)
    have shown := abs_le.mp (rounds_below_thousand (by linarith) below shown)
    linarith [near.2, shown.1]

theorem isSpace_digit {c : Char} (digit : c.isDigit = true) : isSpace c = false := by
  have bounds : 48 ≤ c.val ∧ c.val ≤ 57 := by simpa [Char.isDigit] using digit
  have low : 48 ≤ c.toNat := UInt32.le_iff_toNat_le.mp bounds.1
  have not_blank : (c == ' ') = false := by
    apply beq_false_of_ne
    rintro rfl
    exact absurd low (by decide)
  have above : '\r'.toNat < c.toNat := Nat.lt_of_lt_of_le (by decide) low
  rw [isSpace, not_blank, decide_eq_false (Nat.not_le.mpr above), Bool.and_false, Bool.or_false]

private theorem toLower_digit {c : Char} (digit : c.isDigit = true) : c.toLower = c := by
  have bounds : 48 ≤ c.val ∧ c.val ≤ 57 := by simpa [Char.isDigit] using digit
  delta Char.toLower
  rw [dif_neg]
  intro upper
  have high : 65 ≤ c.toNat := UInt32.le_iff_toNat_le.mp upper.1
  have low : c.toNat ≤ 57 := UInt32.le_iff_toNat_le.mp bounds.2
  omega

/-- A number without a sign, whatever follows it. -/
theorem stoi_digits {text : List Char} (some_ : text.takeWhile Char.isDigit ≠ []) :
    stoi text = if intMax < (Nat.ofDigitChars 10 (text.takeWhile Char.isDigit) 0 : Int) then .error .outOfRange
      else .ok (Nat.ofDigitChars 10 (text.takeWhile Char.isDigit) 0 : Int) := by
  cases text with
  | nil => exact absurd rfl some_
  | cons first rest =>
    have digit : first.isDigit = true := by
      by_contra other
      exact some_ (List.takeWhile_cons_of_neg other)
    have unsigned : signed (first :: rest) = (false, first :: rest) := by
      unfold signed
      split
      next heq =>
        cases heq
        exact absurd digit (by decide)
      next heq =>
        cases heq
        exact absurd digit (by decide)
      next => rfl
    rw [stoi, List.dropWhile_cons_of_neg (by rw [isSpace_digit digit]; decide), unsigned]
    have nonneg : ¬ (Nat.ofDigitChars 10 ((first :: rest).takeWhile Char.isDigit) 0 : Int) < -intMax - 1 := by
      unfold intMax
      omega
    simp only [some_, nonneg, if_false, false_or, Bool.false_eq_true]

/-- What follows the digits of a quantity once it is in lower case. -/
def lowerSuffix (text : List Char) : List Char := (text.dropWhile Char.isDigit).map Char.toLower

abbrev Matched (suffix : List Char) : Prop := suffix = [] ∨ suffix.length = 2 ∧ suffix.all Char.isAlpha = true

private theorem matchSuffix_lower {text : List Char} (some_ : text.takeWhile Char.isDigit ≠ [])
    (stops : ∀ c ∈ (lowerSuffix text).head?, c.isDigit = false) :
    matchSuffix ((String.ofList text).toList.map Char.toLower) =
      if Matched (lowerSuffix text) then some (text.takeWhile Char.isDigit, lowerSuffix text) else none := by
  have all : ∀ c ∈ text.takeWhile Char.isDigit, c.isDigit = true := fun c member => List.mem_takeWhile_imp member
  have lowered : (text.takeWhile Char.isDigit).map Char.toLower = text.takeWhile Char.isDigit :=
    (List.map_congr_left fun c member => toLower_digit (all c member)).trans (List.map_id _)
  have parts : text.map Char.toLower = text.takeWhile Char.isDigit ++ lowerSuffix text := by
    conv_lhs => rw [← List.takeWhile_append_dropWhile (p := Char.isDigit) (l := text)]
    rw [List.map_append, lowered]
    rfl
  obtain ⟨taken, left⟩ := takeWhile_digits all stops
  rw [String.toList_ofList, parts, matchSuffix, taken, left]
  exact if_congr (and_iff_right some_) rfl rfl

/-- What is read of a number and what follows it. -/
theorem parseStringSuffix_eq {text : List Char} (some_ : text.takeWhile Char.isDigit ≠ [])
    (stops : ∀ c ∈ (lowerSuffix text).head?, c.isDigit = false) :
    parseStringSuffix (String.ofList text) =
      if Matched (lowerSuffix text) then
        if intMax < (Nat.ofDigitChars 10 (text.takeWhile Char.isDigit) 0 : Int) then .error .outOfRange
        else if Nat.ofDigitChars 10 (text.takeWhile Char.isDigit) 0 * (lookups.lookup (lowerSuffix text)).getD 1 ≤ longMax
        then .ok (Nat.ofDigitChars 10 (text.takeWhile Char.isDigit) 0 * (lookups.lookup (lowerSuffix text)).getD 1)
        else .error .overflow
      else .ok 0 := by
  have read := stoi_digits some_
  have twice : (text.takeWhile Char.isDigit).takeWhile Char.isDigit = text.takeWhile Char.isDigit :=
    List.takeWhile_idem
  rw [parseStringSuffix, matchSuffix_lower some_ stops]
  by_cases matched : Matched (lowerSuffix text)
  · rw [if_pos matched, if_pos matched]
    simp only
    rw [@stoi_digits (text.takeWhile Char.isDigit) (by rwa [twice]), twice]
    by_cases large : intMax < (Nat.ofDigitChars 10 (text.takeWhile Char.isDigit) 0 : Int)
    · rw [if_pos large, if_pos large]
      rfl
    · rw [if_neg large, if_neg large]
      rfl
  · rw [if_neg matched, if_neg matched]

private theorem lookups_letters : ∀ entry ∈ lookups, Matched entry.1 ∧ ∀ c ∈ entry.1.head?, c.isDigit = false := by
  have table : ∀ entry ∈ lookups, Matched entry.1 ∧ entry.1.head?.all fun c => decide (c.isDigit = false) := by
    decide +kernel
  intro entry member
  exact ⟨(table entry member).1, head_of_all (table entry member).2⟩

/-- A suffix that is known is one of the table's, or there is none. -/
theorem knownScale_lower {suffix : List Char} {scale : Int} (known : knownScale suffix = some scale) :
    Matched (suffix.map Char.toLower) ∧ (∀ c ∈ (suffix.map Char.toLower).head?, c.isDigit = false) ∧
    (lookups.lookup (suffix.map Char.toLower)).getD 1 = scale := by
  rw [knownScale] at known
  split at known
  next none_ =>
    subst none_
    cases known
    refine ⟨Or.inl rfl, ?_, by decide +kernel⟩
    nofun
  next =>
    obtain ⟨l₁, l₂, same, _⟩ := List.lookup_eq_some_iff.mp known
    have entry : (suffix.map Char.toLower, scale) ∈ lookups := by
      rw [same]
      simp
    obtain ⟨matched, stops⟩ := lookups_letters _ entry
    exact ⟨matched, stops, by rw [known]; rfl⟩

private theorem digit_of_toLower {c : Char} (digit : c.isDigit = true) : c.toLower.isDigit = true := by
  rwa [toLower_digit digit]

/-- A number of so many units is read as long as the digits are those of an `int`. -/
theorem parseStringSuffix_iff {digits suffix : List Char} {scale : Int} (some_ : digits ≠ [])
    (all : ∀ c ∈ digits, c.isDigit = true) (known : knownScale suffix = some scale)
    (fits : (Nat.ofDigitChars 10 digits 0 : Int) * scale ≤ longMax) :
    parseStringSuffix (String.ofList (digits ++ suffix)) = .ok (Nat.ofDigitChars 10 digits 0 * scale) ↔
      Nat.ofDigitChars 10 digits 0 ≤ 2147483647 := by
  obtain ⟨matched, stops, scaled⟩ := knownScale_lower known
  have stopsHere : ∀ c ∈ suffix.head?, c.isDigit = false := by
    intro c first
    by_contra digit
    have lower : c.toLower ∈ (suffix.map Char.toLower).head? := by
      rw [List.head?_map]
      exact Option.mem_map_of_mem _ first
    have lowered := digit_of_toLower (Bool.eq_true_of_not_eq_false digit)
    rw [stops _ lower] at lowered
    cases lowered
  obtain ⟨taken, left⟩ := takeWhile_digits all stopsHere
  have lower : lowerSuffix (digits ++ suffix) = suffix.map Char.toLower := by rw [lowerSuffix, left]
  rw [parseStringSuffix_eq (by rwa [taken]) (by rwa [lower]), taken, lower, scaled, if_pos matched]
  by_cases small : Nat.ofDigitChars 10 digits 0 ≤ 2147483647
  · have inside : ¬ intMax < (Nat.ofDigitChars 10 digits 0 : Int) := by
      unfold intMax
      omega
    rw [if_neg inside, if_pos fits]
    exact iff_of_true rfl small
  · have outside : intMax < (Nat.ofDigitChars 10 digits 0 : Int) := by
      unfold intMax
      omega
    rw [if_pos outside]
    refine iff_of_false ?_ small
    nofun

private theorem generate_defined_iff (number : Nat) :
    (∃ text, generateSuffixedString number = .ok text) ↔ number < 2 ^ 50 := by
  rcases generate_cases number with ⟨small, suffix, unit, -, -, ran⟩ | ⟨large, -, failed⟩
  · exact iff_of_true ⟨_, ran⟩ small
  · refine iff_of_false ?_ (not_lt.mpr large)
    rintro ⟨text, ran⟩
    rw [failed] at ran
    cases ran

private theorem denotes_suffixed_iff {number unit : Nat} {suffix : String} (chosen : Chosen number suffix unit)
    (found : chosenUnit number = some (unit : Int)) :
    Denotes (suffixed (number / unit : Nat) number suffix unit) number ↔
      RoundsTo 6 ((number : ℚ) / unit) (printedValue number unit) := by
  have nonzero : (unit : ℚ) ≠ 0 := by exact_mod_cast chosen.positive.ne'
  rw [Denotes, found, quantity_suffixed chosen]
  constructor
  · rintro ⟨_, _, ⟨⟩, ⟨⟩, rounds⟩
    rwa [Int.cast_natCast, Int.cast_natCast, mul_div_cancel_right₀ _ nonzero] at rounds
  · intro rounds
    refine ⟨_, _, rfl, rfl, ?_⟩
    rwa [Int.cast_natCast, Int.cast_natCast, mul_div_cancel_right₀ _ nonzero]

theorem generate_denotes_iff (number : Nat) :
    (∃ text, generateSuffixedString number = .ok text ∧ Denotes text number) ↔
      number < 2 ^ 50 ∧ (number < 2 ^ 40 ∨ number % 2 ^ 40 < 2 ^ 31 ∨
        1000 * 2 ^ 40 ≤ number ∧ 200 * (number % 2 ^ 40) ≤ 2 ^ 40) := by
  rcases generate_cases number with ⟨small, suffix, unit, chosen, found, ran⟩ | ⟨large, -, failed⟩
  · have shown : (∃ text, generateSuffixedString number = .ok text ∧ Denotes text number) ↔
        RoundsTo 6 ((number : ℚ) / unit) (printedValue number unit) := by
      rw [ran, ← denotes_suffixed_iff chosen found]
      constructor
      · rintro ⟨text, same, denotes⟩
        rwa [← Except.ok.inj same] at denotes
      · exact fun denotes => ⟨_, rfl, denotes⟩
    rw [shown, and_iff_right small]
    by_cases largest : unit = largestUnit
    · subst largest
      have reached := chosen.reached
      have rounds := largest_rounds_iff chosen
      simp only [largestUnit] at reached rounds ⊢
      rw [rounds]
      omega
    · have entry := chosen.entry
      have fewer := chosen.fewer
      have below : unit < largestUnit := by
        simp only [units, List.mem_cons, Prod.mk.injEq, List.not_mem_nil, or_false] at entry
        rcases entry with ⟨-, rfl⟩ | ⟨-, rfl⟩ | ⟨-, rfl⟩ | ⟨-, rfl⟩
        · decide
        · decide
        · decide
        · exact absurd rfl largest
      rw [← printedRatio_exact (small_remainder chosen below)]
      refine iff_of_true (printed_rounds chosen) (Or.inl ?_)
      simp only [units, List.mem_cons, Prod.mk.injEq, List.not_mem_nil, or_false] at entry
      rcases entry with ⟨-, rfl⟩ | ⟨-, rfl⟩ | ⟨-, rfl⟩ | ⟨-, rfl⟩
      · omega
      · omega
      · omega
      · exact absurd rfl largest
  · refine iff_of_false ?_ (fun right => absurd right.1 (not_lt.mpr large))
    rintro ⟨text, ran, -⟩
    rw [failed] at ran
    cases ran

/-- Whole units are read as they were written. -/
theorem parse_generated {number unit : Nat} (found : chosenUnit number = some (unit : Int)) (whole : unit ∣ number) :
    ∃ text, generateSuffixedString number = .ok text ∧ parseStringSuffix text = .ok (number : Int) := by
  rcases generate_cases number with ⟨small, suffix, scale, chosen, same, ran⟩ | ⟨-, none_, -⟩
  · rw [same] at found
    have equal : scale = unit := by exact_mod_cast Option.some.inj found
    subst equal
    refine ⟨_, ran, ?_⟩
    have fewer : number / scale < 1024 := (Nat.div_lt_iff_lt_mul chosen.positive).mpr chosen.fewer
    have product : ((number / scale : Nat) : Int) * scale = number := by
      exact_mod_cast Nat.div_mul_cancel whole
    have text : suffixed (number / scale : Nat) number suffix scale =
        String.ofList (Nat.toDigits 10 (number / scale) ++ suffix.toList) := by
      rw [suffixed, ← Int.ofNat_tmod, Nat.mod_eq_zero_of_dvd whole]
      apply String.toList_inj.mp
      rw [if_neg (by decide), String.toList_append, String.toList_ofList]
      exact congrArg (· ++ suffix.toList) Nat.toList_repr
    have read := @parseStringSuffix_iff _ suffix.toList _ Nat.toDigits_ne_nil
      (toDigits_digits (number / scale)) (knownScale_unit _ chosen.entry).1
    rw [Nat.ofDigitChars_ten_toDigits, product] at read
    rw [text]
    refine (read ?_).mpr (by omega)
    unfold longMax
    omega
  · rw [none_] at found
    cases found

/-- Exactly when each of the conversions is right. -/
theorem memory_quantities_iff (number : Nat) (digits suffix : List Char) :
    ((∃ text, generateSuffixedString number = .ok text) ↔ number < 2 ^ 50) ∧
    ((∃ text, generateSuffixedString number = .ok text ∧ Denotes text number) ↔
      number < 2 ^ 50 ∧ (number < 2 ^ 40 ∨ number % 2 ^ 40 < 2 ^ 31 ∨
        1000 * 2 ^ 40 ≤ number ∧ 200 * (number % 2 ^ 40) ≤ 2 ^ 40)) ∧
    (∀ scale : Int, digits ≠ [] → (∀ c ∈ digits, c.isDigit = true) →
      knownScale suffix = some scale → (Nat.ofDigitChars 10 digits 0 : Int) * scale ≤ longMax →
      (parseStringSuffix (String.ofList (digits ++ suffix)) = .ok (Nat.ofDigitChars 10 digits 0 * scale) ↔
        Nat.ofDigitChars 10 digits 0 ≤ 2147483647)) ∧
    (∀ unit : Nat, chosenUnit number = some (unit : Int) → unit ∣ number →
      ∃ text, generateSuffixedString number = .ok text ∧ parseStringSuffix text = .ok (number : Int)) := by
  refine ⟨generate_defined_iff number, generate_denotes_iff number, ?_, ?_⟩
  · intro scale some_ all known fits
    exact parseStringSuffix_iff some_ all known fits
  · intro unit found whole
    exact parse_generated found whole

/-- `5Ki` -/
theorem memory_quantities_five :
    parseStringSuffix (String.ofList (['5'] ++ ['K', 'i'])) = .ok (Nat.ofDigitChars 10 ['5'] 0 * 1024) ∧
    ∃ text, generateSuffixedString ((5120 : Nat) : Int) = .ok text ∧ parseStringSuffix text = .ok ((5120 : Nat) : Int) := by
  obtain ⟨-, -, reads, round⟩ := memory_quantities_iff 5120 ['5'] ['K', 'i']
  constructor
  · apply (reads 1024 (by decide) (by simp) (by decide +kernel) (by decide)).mpr
    decide
  · apply round 1024
    · decide +kernel
    · decide

/-- A suffix outside of the table, one and a half of the largest unit written as one, and a number
that is too large for an `int`. -/
theorem memory_quantities_lost :
    (¬ ∃ text, generateSuffixedString ((1125899906842624 : Nat) : Int) = .ok text) ∧
    generateSuffixedString ((1649267441664 : Nat) : Int) = .ok "1Ti" ∧
    (¬ ∃ text, generateSuffixedString ((1649267441664 : Nat) : Int) = .ok text ∧
      Denotes text ((1649267441664 : Nat) : Int)) ∧
    parseStringSuffix (String.ofList ("2147483648".toList ++ [])) = .error .outOfRange := by
  refine ⟨?_, by decide +kernel, ?_, by decide +kernel⟩
  · rw [generate_defined_iff]
    omega
  · rw [generate_denotes_iff]
    omega

end Slate
