import Mathlib.Algebra.Polynomial.Div
import Mathlib.Algebra.Field.ZMod
import Mathlib.Tactic.LinearCombination

/-! Cyclic redundancy checks. A register of any width takes a message in bit by bit; read
as a polynomial over two elements, it holds the remainder of the message. The lowest bit
of a register is the coefficient of the highest power. -/

namespace Slate.Library.CyclicCheck
open Polynomial

variable {w : Nat}

def advance (generator register : BitVec w) : BitVec w :=
  if register.getLsbD 0 then generator ^^^ (register >>> 1) else register >>> 1

def lowest (bit : Bool) : BitVec w := (BitVec.ofBool bit).setWidth w

def feed (generator register : BitVec w) (bit : Bool) : BitVec w := advance generator (register ^^^ lowest bit)

def feedAll (generator register : BitVec w) (bits : List Bool) : BitVec w := bits.foldl (feed generator) register

def word : List Bool → BitVec w
  | [] => 0
  | bit :: bits => lowest bit ^^^ (word bits <<< 1)

variable {generator : BitVec w}

theorem getElem_lowest (bit : Bool) {i : Nat} (inside : i < w) : (lowest bit : BitVec w)[i] = (decide (i = 0) && bit) := by
  rw [lowest, BitVec.getElem_setWidth, BitVec.getLsbD_ofBool]

theorem advance_xor (a b : BitVec w) : advance generator (a ^^^ b) = advance generator a ^^^ advance generator b := by
  have cancel (p q : BitVec w) : p ^^^ q = generator ^^^ p ^^^ (generator ^^^ q) := by
    rw [BitVec.xor_comm generator p, BitVec.xor_assoc, ← BitVec.xor_assoc generator, BitVec.xor_self, BitVec.zero_xor]
  simp only [advance, BitVec.getLsbD_xor, BitVec.ushiftRight_xor_distrib]
  cases a.getLsbD 0 <;> cases b.getLsbD 0
  · rfl
  · exact (BitVec.xor_assoc ..).symm.trans ((congrArg (· ^^^ _) (BitVec.xor_comm ..)).trans (BitVec.xor_assoc ..))
  · exact (BitVec.xor_assoc ..).symm
  · exact cancel _ _

theorem iterate_advance_xor (count : Nat) (a b : BitVec w) : (advance generator)^[count] (a ^^^ b) =
    (advance generator)^[count] a ^^^ (advance generator)^[count] b := by
  induction count generalizing a b with
  | zero => rfl
  | succ count induction => simp only [Function.iterate_succ_apply, advance_xor, induction]

/-- Bits that are clear only move out. -/
theorem iterate_advance_clear {count : Nat} {register : BitVec w} (clear : ∀ i < count, register.getLsbD i = false) :
    (advance generator)^[count] register = register >>> count := by
  induction count generalizing register with
  | zero => simp
  | succ count induction =>
    have first : advance generator register = register >>> 1 := by simp [advance, clear 0 (Nat.succ_pos count)]
    rw [Function.iterate_succ_apply, first, induction, ← BitVec.shiftRight_add, Nat.add_comm]
    intro i below
    rw [BitVec.getLsbD_ushiftRight]
    exact clear (1 + i) (by omega)

/-- As many passes as bits that are looked up in a table. -/
theorem iterate_advance_low {count : Nat} {low register : BitVec w} (same : ∀ i < count, low.getLsbD i = register.getLsbD i) :
    (advance generator)^[count] register = (advance generator)^[count] low ^^^ ((low ^^^ register) >>> count) := by
  have clear : ∀ i < count, (low ^^^ register).getLsbD i = false := by
    intro i below
    rw [BitVec.getLsbD_xor, same i below, Bool.xor_self]
  rw [← iterate_advance_clear clear, iterate_advance_xor, ← BitVec.xor_assoc, BitVec.xor_self, BitVec.zero_xor]

theorem getElem_word (bits : List Bool) {i : Nat} (inside : i < w) : (word bits : BitVec w)[i] = bits.getD i false := by
  induction bits generalizing i with
  | nil => simp [word]
  | cons bit bits induction =>
    cases i with
    | zero => simp [word, getElem_lowest]
    | succ i =>
      have below : i < w := by omega
      simp [word, getElem_lowest, induction below]

/-- A message no longer than the register is taken in at once. -/
theorem feedAll_word {bits : List Bool} (short : bits.length ≤ w) (register : BitVec w) :
    feedAll generator register bits = (advance generator)^[bits.length] (register ^^^ word bits) := by
  induction bits generalizing register with
  | nil => simp [feedAll, word]
  | cons bit bits induction =>
    rw [List.length_cons] at short
    have moved : advance generator (word bits <<< 1) = word bits := by
      rw [show advance generator (word bits <<< 1) = word bits <<< 1 >>> 1 by simp [advance]]
      apply BitVec.eq_of_getElem_eq
      intro i inside
      rw [getElem_word bits inside, BitVec.getElem_ushiftRight, BitVec.getLsbD_shiftLeft]
      by_cases last : 1 + i < w
      · have same := getElem_word bits inside
        simp [last, BitVec.getLsbD_eq_getElem inside, same]
      · have beyond : bits.length ≤ i := by omega
        simp [last, beyond]
    calc feedAll generator register (bit :: bits)
      _ = feedAll generator (advance generator (register ^^^ lowest bit)) bits := rfl
      _ = (advance generator)^[bits.length] (advance generator (register ^^^ lowest bit) ^^^ word bits) :=
        induction (by omega) _
      _ = (advance generator)^[bits.length] (advance generator (register ^^^ word (bit :: bits))) := by
        rw [word, ← BitVec.xor_assoc, advance_xor _ (word bits <<< 1), moved]
      _ = (advance generator)^[(bit :: bits).length] (register ^^^ word (bit :: bits)) := rfl

theorem feedAll_append (register : BitVec w) (bits more : List Bool) :
    feedAll generator register (bits ++ more) = feedAll generator (feedAll generator register bits) more :=
  List.foldl_append

theorem advance_eq_zero (highest : generator.msb = true) {register : BitVec w} (gone : advance generator register = 0) :
    register = 0 := by
  have shifted : register.getLsbD 0 = false ∧ register >>> 1 = 0 := by
    cases low : register.getLsbD 0 with
    | false => exact ⟨rfl, by simpa [advance, low] using gone⟩
    | true =>
      have same : generator = register >>> 1 := by
        rw [advance, if_pos low] at gone
        exact BitVec.xor_eq_zero_iff.mp gone
      rw [same, BitVec.msb_ushiftRight] at highest
      simp at highest
  apply BitVec.eq_of_getLsbD_eq
  intro i inside
  cases i with
  | zero => simpa using shifted.1
  | succ i =>
    have bit := congrArg (BitVec.getLsbD · i) shifted.2
    simpa [Nat.add_comm 1 i] using bit

theorem advance_injective (highest : generator.msb = true) : Function.Injective (advance generator) := by
  intro a b same
  have gone : advance generator (a ^^^ b) = 0 := by rw [advance_xor, same, BitVec.xor_self]; rfl
  exact BitVec.xor_eq_zero_iff.mp (advance_eq_zero highest gone)

theorem feedAll_injective (highest : generator.msb = true) (bits : List Bool) :
    Function.Injective (feedAll generator · bits) := by
  induction bits with
  | nil => exact Function.injective_id
  | cons bit bits induction =>
    intro a b same
    exact (BitVec.xor_left_inj _).mp (advance_injective highest (induction same))

theorem word_injective {bits others : List Bool} (same : bits.length = others.length) (short : bits.length ≤ w)
    (words : (word bits : BitVec w) = word others) : bits = others := by
  apply List.ext_getElem same
  intro i inside within
  have below : i < w := by omega
  have bit : (word bits : BitVec w)[i] = (word others : BitVec w)[i] := by rw [words]
  rw [getElem_word bits below, getElem_word others below] at bit
  simpa [inside, within] using bit

/-- Messages that differ only within as many bits as a register has leave different registers. -/
theorem feedAll_burst (highest : generator.msb = true) {bits others : List Bool} (same : bits.length = others.length)
    (short : bits.length ≤ w) (differ : bits ≠ others) (register : BitVec w) (front back : List Bool) :
    feedAll generator register (front ++ bits ++ back) ≠ feedAll generator register (front ++ others ++ back) := by
  intro equal
  simp only [feedAll_append] at equal
  have equal := feedAll_injective highest back equal
  rw [feedAll_word short, feedAll_word (same.symm.le.trans short), same] at equal
  have equal := (advance_injective highest).iterate _ equal
  exact differ (word_injective same short ((BitVec.xor_right_inj _).mp equal))

def coefficient (bit : Bool) : ZMod 2 := if bit then 1 else 0

noncomputable def residue (register : BitVec w) : (ZMod 2)[X] :=
  ∑ i ∈ Finset.range w, C (coefficient (register.getLsbD i)) * X ^ (w - 1 - i)

/-- The polynomial that is divided by. The highest power is not in the register. -/
noncomputable def modulus (generator : BitVec w) : (ZMod 2)[X] := X ^ w + residue generator

noncomputable def message (bits : List Bool) : (ZMod 2)[X] :=
  bits.foldl (fun sum bit => sum * X + C (coefficient bit)) 0

theorem coefficient_xor (a b : Bool) : coefficient (a ^^ b) = coefficient a + coefficient b := by
  cases a <;> cases b <;> decide

theorem residue_xor (a b : BitVec w) : residue (a ^^^ b) = residue a + residue b := by
  simp only [residue, BitVec.getLsbD_xor, coefficient_xor, C_add, add_mul, Finset.sum_add_distrib]

@[simp] theorem residue_zero : residue (0 : BitVec w) = 0 := by simp [residue, coefficient]

theorem residue_add_self (register : BitVec w) : residue register + residue register = 0 := by
  rw [← residue_xor, BitVec.xor_self]
  exact residue_zero

theorem residue_degree (register : BitVec w) : (residue register).degree < w := by
  apply (degree_sum_le _ _).trans_lt
  apply (Finset.sup_lt_iff (WithBot.bot_lt_coe w)).mpr
  intro i inside
  have below : w - 1 - i < w := by
    have := Finset.mem_range.mp inside
    omega
  exact (degree_C_mul_X_pow_le _ _).trans_lt (WithBot.coe_lt_coe.mpr below)

theorem modulus_monic (generator : BitVec w) : (modulus generator).Monic :=
  monic_X_pow_add (residue_degree generator)

theorem modulus_degree (generator : BitVec w) : (modulus generator).degree = w := by
  rw [modulus, degree_add_eq_left_of_degree_lt, degree_X_pow]
  rw [degree_X_pow]
  exact residue_degree generator

theorem residue_ushiftRight (register : BitVec w) :
    residue (register >>> 1) + C (coefficient (register.getLsbD 0)) * X ^ w = X * residue register := by
  cases w with
  | zero => simp [residue, coefficient]
  | succ n =>
    have last : (register >>> 1).getLsbD n = false := by simp
    have term (i : Nat) (inside : i ∈ Finset.range n) : C (coefficient ((register >>> 1).getLsbD i)) * X ^ (n - i) =
        X * (C (coefficient (register.getLsbD (i + 1))) * X ^ (n - (i + 1))) := by
      have power : n - i = n - (i + 1) + 1 := by
        have := Finset.mem_range.mp inside
        omega
      rw [power, BitVec.getLsbD_ushiftRight, Nat.add_comm 1 i]
      ring
    rw [residue, residue, Finset.sum_range_succ, last, Finset.sum_range_succ', mul_add, Finset.mul_sum]
    simp only [Nat.add_sub_cancel, Nat.sub_zero]
    rw [Finset.sum_congr rfl term]
    simp only [coefficient, Bool.false_eq_true, if_false, C_0, zero_mul, add_zero]
    ring

theorem residue_advance (generator register : BitVec w) : residue (advance generator register) =
    X * residue register + C (coefficient (register.getLsbD 0)) * modulus generator := by
  have shifted := residue_ushiftRight register
  cases low : register.getLsbD 0 with
  | false => simpa [advance, low, coefficient] using shifted
  | true =>
    simp only [low, coefficient, if_true, C_1, one_mul] at shifted ⊢
    calc residue (advance generator register)
      _ = residue generator + residue (register >>> 1) := by rw [advance, if_pos low, residue_xor]
      _ = residue (register >>> 1) + (X ^ w + X ^ w) + residue generator := by
        rw [CharTwo.add_self_eq_zero, add_zero, add_comm]
      _ = X * residue register + modulus generator := by rw [← shifted, modulus]; ring

theorem residue_lowest (positive : 0 < w) (bit : Bool) :
    X * residue (lowest bit : BitVec w) = C (coefficient bit) * X ^ w := by
  have gone : (lowest bit : BitVec w) >>> 1 = 0 := by
    apply BitVec.eq_of_getLsbD_eq
    intro i inside
    simp [lowest]
  rw [← residue_ushiftRight, gone, residue_zero, zero_add]
  simp [lowest, positive]

theorem message_append (bits : List Bool) (bit : Bool) :
    message (bits ++ [bit]) = message bits * X + C (coefficient bit) := by
  rw [message, List.foldl_append]
  rfl

/-- What a register holds is known up to multiples of the modulus. -/
theorem modulus_dvd_feedAll (positive : 0 < w) (generator register : BitVec w) (bits : List Bool) :
    modulus generator ∣ residue (feedAll generator register bits) -
      (X ^ bits.length * residue register + X ^ w * message bits) := by
  induction bits using List.reverseRecOn with
  | nil => simp [feedAll, message]
  | append_singleton bits bit induction =>
    obtain ⟨quotient, exactly⟩ := induction
    generalize held : feedAll generator register bits = before at exactly
    have fed : feedAll generator register (bits ++ [bit]) = advance generator (before ^^^ lowest bit) := by
      rw [feedAll_append, held]
      rfl
    refine ⟨X * quotient + C (coefficient ((before ^^^ lowest bit).getLsbD 0)), ?_⟩
    rw [fed, residue_advance, residue_xor, mul_add, residue_lowest positive, message_append,
      List.length_append, List.length_singleton, pow_succ]
    linear_combination X * exactly

/-- A register holds the remainder of what it held and of the message. -/
theorem residue_feedAll (positive : 0 < w) (generator register : BitVec w) (bits : List Bool) :
    residue (feedAll generator register bits) =
      (X ^ bits.length * residue register + X ^ w * message bits) %ₘ modulus generator := by
  have reduced : residue (feedAll generator register bits) %ₘ modulus generator =
      residue (feedAll generator register bits) := by
    apply (modByMonic_eq_self_iff (modulus_monic generator)).mpr
    rw [modulus_degree]
    exact residue_degree _
  rw [← reduced]
  exact modByMonic_eq_of_dvd_sub (modulus_monic generator) (modulus_dvd_feedAll positive generator register bits)

end Slate.Library.CyclicCheck
