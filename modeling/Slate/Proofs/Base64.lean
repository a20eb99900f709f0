import Slate.Base64

/-! What is encoded in base64 is decoded again, and what a decoder touches. -/

namespace Slate
open Library

abbrev Bytes.bitAt (bytes : Bytes) (p : Nat) : Bool := Library.bitAt 8 (bytes.map UInt8.toNat) p

private theorem characterAt_eq (raw : Bytes) (index : Nat) :
    characterAt raw index = (raw.map UInt8.toNat).getD index 0 := by
  rw [characterAt, List.getD_eq_getElem?_getD, List.getD_eq_getElem?_getD, List.getElem?_map]
  cases raw[index]? <;> rfl

private theorem testBit_characterAt (raw : Bytes) (index : Nat) {offset : Nat} (inside : offset < 8) :
    (characterAt raw index).testBit (7 - offset) = Bytes.bitAt raw (8 * index + offset) := by
  rw [Bytes.bitAt, bitAt_inside _ _ inside, characterAt_eq]

/-- Where an encoder has got to: `taken` bits of its input are used. -/
structure Grabbed (taken : Nat) (input : Base64Input) : Prop where
  cursor : 8 * input.inputIdx + 8 = taken + input.availBits
  some_left : 0 < input.availBits
  at_most : input.availBits ≤ 8

private theorem initial_grabbed : Grabbed 0 {} := ⟨rfl, by decide, by decide⟩

def grabFirst (raw : Bytes) (input : Base64Input) (getBits : Nat) : Nat :=
  field (characterAt raw input.inputIdx) getBits (input.availBits - getBits) <<< (6 - getBits)

def grabSecond (raw : Bytes) (input : Base64Input) (getBits : Nat) : Nat :=
  field (characterAt raw (input.inputIdx + 1)) getBits (8 - getBits)

private theorem grab_within {raw : Bytes} {input : Base64Input} (enough : 6 < input.availBits) :
    input.grab raw = (grabFirst raw input 6, ⟨input.availBits - 6, input.inputIdx⟩) := by
  have getBits : min 6 input.availBits = 6 := by omega
  rw [Base64Input.grab, getBits, if_neg (by omega)]
  rfl

private theorem grab_exact {raw : Bytes} {input : Base64Input} (exact_ : input.availBits = 6) :
    input.grab raw = (grabFirst raw input 6, ⟨8, input.inputIdx + 1⟩) := by
  rw [Base64Input.grab, exact_]
  simp only [grabFirst, exact_, field]
  rfl

private theorem grab_across {raw : Bytes} {input : Base64Input} (short : input.availBits < 6) :
    input.grab raw = (grabFirst raw input input.availBits ||| grabSecond raw input (6 - input.availBits),
      ⟨8 - (6 - input.availBits), input.inputIdx + 1⟩) := by
  have getBits : min 6 input.availBits = input.availBits := by omega
  rw [Base64Input.grab, getBits, if_pos (Nat.sub_self _), if_pos short]
  rfl

theorem testBit_grabFirst {raw : Bytes} {input : Base64Input} {taken getBits q : Nat} (grabbed : Grabbed taken input)
    (there : getBits ≤ input.availBits) (few : getBits ≤ 6) (inside : q < 6) :
    (grabFirst raw input getBits).testBit (5 - q) = (decide (q < getBits) && Bytes.bitAt raw (taken + q)) := by
  have most := grabbed.at_most
  have cursor := grabbed.cursor
  have fits : 8 - input.availBits + getBits ≤ 8 := by omega
  have room : 0 + getBits ≤ 6 := by omega
  have placed := testBit_placed (characterAt raw input.inputIdx) fits inside room
  rw [show 8 - (8 - input.availBits) - getBits = input.availBits - getBits by omega, Nat.sub_zero] at placed
  rw [grabFirst, placed]
  by_cases here : q < getBits
  · have position : 8 * input.inputIdx + (8 - input.availBits + (q - 0)) = taken + q := by omega
    rw [testBit_characterAt raw _ (by omega), position]
    simp
  · simp [here]

private theorem testBit_grabSecond {raw : Bytes} {input : Base64Input} {taken q : Nat} (grabbed : Grabbed taken input)
    (short : input.availBits < 6) (inside : q < 6) :
    (grabSecond raw input (6 - input.availBits)).testBit (5 - q) =
      (decide (input.availBits ≤ q) && Bytes.bitAt raw (taken + q)) := by
  have cursor := grabbed.cursor
  have fits : 0 + (6 - input.availBits) ≤ 8 := by omega
  have room : input.availBits + (6 - input.availBits) ≤ 6 := by omega
  have placed := testBit_placed (characterAt raw (input.inputIdx + 1)) fits inside room
  rw [show 6 - input.availBits - (6 - input.availBits) = 0 by omega, Nat.shiftLeft_zero, Nat.sub_zero] at placed
  rw [grabSecond, placed]
  by_cases here : input.availBits ≤ q
  · have position : 8 * (input.inputIdx + 1) + (0 + (q - input.availBits)) = taken + q := by omega
    rw [testBit_characterAt raw _ (by omega), position]
    have below : q < input.availBits + (6 - input.availBits) := by omega
    simp [here, below]
  · simp [here]

theorem field_small (word count low : Nat) {j : Nat} (above : count ≤ j) : (field word count low).testBit j = false := by
  rw [testBit_field, decide_eq_false (by omega), Bool.false_and]

theorem grabFirst_small {raw : Bytes} {input : Base64Input} {getBits : Nat} (few : getBits ≤ 6) :
    grabFirst raw input getBits < 2 ^ 6 := by
  apply Nat.lt_pow_two_of_testBit
  intro j above
  rw [grabFirst, Nat.testBit_shiftLeft, field_small _ _ _ (by omega), Bool.and_false]

private theorem grabSecond_small {raw : Bytes} {input : Base64Input} {getBits : Nat} (few : getBits ≤ 6) :
    grabSecond raw input getBits < 2 ^ 6 := by
  apply Nat.lt_pow_two_of_testBit
  intro j above
  rw [grabSecond, field_small _ _ _ (by omega)]

structure Grabs (raw : Bytes) (taken : Nat) (grab : Nat × Base64Input) : Prop where
  small : grab.1 < 2 ^ 6
  bits : ∀ q < 6, grab.1.testBit (5 - q) = Bytes.bitAt raw (taken + q)
  next : Grabbed (taken + 6) grab.2

private theorem grab_grabs (raw : Bytes) {taken : Nat} {input : Base64Input} (grabbed : Grabbed taken input) :
    Grabs raw taken (input.grab raw) := by
  have cursor := grabbed.cursor
  have most := grabbed.at_most
  have left := grabbed.some_left
  rcases Nat.lt_trichotomy input.availBits 6 with short | equal | enough
  · rw [grab_across short]
    refine ⟨Nat.or_lt_two_pow (grabFirst_small (by omega)) (grabSecond_small (by omega)), ?_, ?_⟩
    · intro q inside
      rw [Nat.testBit_or, testBit_grabFirst grabbed (Nat.le_refl _) (by omega) inside,
        testBit_grabSecond grabbed short inside, ← Bool.and_or_distrib_right]
      have one : (decide (q < input.availBits) || decide (input.availBits ≤ q)) = true := by
        simpa using Nat.lt_or_ge q input.availBits
      rw [one, Bool.true_and]
    · exact ⟨by simp only; omega, by simp only; omega, by simp only; omega⟩
  · rw [grab_exact equal]
    refine ⟨grabFirst_small (Nat.le_refl _), ?_, ?_⟩
    · intro q inside
      rw [testBit_grabFirst grabbed (Nat.le_of_eq equal.symm) (Nat.le_refl _) inside,
        decide_eq_true inside, Bool.true_and]
    · exact ⟨by simp only; omega, by simp only; omega, by simp only; omega⟩
  · rw [grab_within enough]
    refine ⟨grabFirst_small (Nat.le_refl _), ?_, ?_⟩
    · intro q inside
      rw [testBit_grabFirst grabbed (by omega) (Nat.le_refl _) inside, decide_eq_true inside, Bool.true_and]
    · exact ⟨by simp only; omega, by simp only; omega, by simp only; omega⟩

structure Encodes (raw : Bytes) (taken count : Nat) (words : List Nat) : Prop where
  length : words.length = count
  small : ∀ word ∈ words, word < 2 ^ 6
  bits : ∀ p < 6 * count, bitAt 6 words p = Bytes.bitAt raw (taken + p)

private theorem encodedIndices_encodes (raw : Bytes) : ∀ (count : Nat) {taken : Nat} {input : Base64Input},
    Grabbed taken input → Encodes raw taken count (encodedIndices raw count input) := by
  intro count
  induction count with
  | zero => exact fun _ => ⟨rfl, by simp [encodedIndices], by simp⟩
  | succ count ih =>
    intro taken input grabbed
    obtain ⟨small, bits, next⟩ := grab_grabs raw grabbed
    obtain ⟨length, smalls, rest⟩ := ih next
    refine ⟨congrArg (· + 1) length, ?_, ?_⟩
    · intro word member
      rcases List.mem_cons.mp member with rfl | member
      · exact small
      · exact smalls word member
    · intro p inside
      rw [encodedIndices]
      by_cases first : p < 6
      · rw [bitAt_cons_head _ _ first]
        exact bits p first
      · rw [bitAt_cons_tail _ _ (by omega) (by omega), rest _ (by omega)]
        congr 1
        omega

/-- What a decoder has done with `values`: their bits are in its output, which has `cells` cells,
and it accessed the cells these bits fall in. -/
structure Decoded (cells : Nat) (values : List Nat) (output : Base64Output) : Prop where
  length : output.decoded.length = cells
  cursor : 8 * output.outData + output.curBits = 6 * values.length
  not_full : output.curBits < 8
  bits : ∀ p, Bytes.bitAt output.decoded p = bitAt 6 values p
  accessed : ∀ index, index ∈ output.accessed ↔ 8 * index < 6 * values.length

private theorem initial_decoded (cells : Nat) : Decoded cells [] { decoded := List.replicate cells 0 } := by
  refine ⟨List.length_replicate, rfl, Nat.zero_lt_succ _, ?_, by simp⟩
  intro p
  rw [Bytes.bitAt, bitAt, bitAt, List.map_replicate]
  by_cases inside : p / 8 < cells
  · simp [List.getD_eq_getElem?_getD, inside]
  · simp [List.getD_eq_getElem?_getD, inside]

theorem bitAt_orInto {output : Base64Output} {bits : Nat} (byte : bits < 2 ^ 8)
    (inside : output.outData < output.decoded.length) (p : Nat) :
    Bytes.bitAt (output.orInto bits).decoded p =
      (Bytes.bitAt output.decoded p || (decide (p / 8 = output.outData) && bits.testBit (7 - p % 8))) := by
  have cell : (output.decoded.getD output.outData 0 ||| UInt8.ofNat bits).toNat =
      (output.decoded.map UInt8.toNat).getD output.outData 0 ||| bits := by
    rw [UInt8.toNat_or, UInt8.toNat_ofNat_of_lt' byte, ← characterAt_eq]
    rfl
  rw [Bytes.bitAt, Base64Output.orInto, List.map_set, cell, bitAt_set _ _ _ (by simpa using inside)]
  by_cases here : p / 8 = output.outData
  · rw [if_pos here, Nat.testBit_or, decide_eq_true here, Bool.true_and, ← here]
    rfl
  · rw [if_neg here, decide_eq_false here, Bool.false_and, Bool.or_false]

def shoveFirst (output : Base64Output) (newBits putBits : Nat) : Nat :=
  field newBits putBits (6 - putBits) <<< (8 - output.curBits - putBits)

def shoveSecond (newBits putBits : Nat) : Nat :=
  (newBits &&& (1 <<< putBits - 1)) <<< (8 - putBits)

private theorem shove_within {output : Base64Output} {newBits : Nat} (room : output.curBits < 2) :
    output.shove newBits =
      { output.orInto (shoveFirst output newBits 6) with curBits := output.curBits + 6 } := by
  have putBits : min (8 - output.curBits) 6 = 6 := by omega
  rw [Base64Output.shove, putBits, if_neg (by omega)]
  rfl

private theorem shove_exact {output : Base64Output} {newBits : Nat} (room : output.curBits = 2) :
    output.shove newBits =
      { output.orInto (shoveFirst output newBits 6) with outData := output.outData + 1, curBits := 0 } := by
  rw [Base64Output.shove, room]
  simp only [shoveFirst, room, field]
  rfl

private theorem shove_across {output : Base64Output} {newBits : Nat} (room : 2 < output.curBits)
    (not_full : output.curBits < 8) :
    output.shove newBits =
      let next := { output.orInto (shoveFirst output newBits (8 - output.curBits)) with
        outData := output.outData + 1, curBits := 0 }
      { next.orInto (shoveSecond newBits (6 - (8 - output.curBits))) with
        curBits := 6 - (8 - output.curBits) } := by
  have putBits : min (8 - output.curBits) 6 = 8 - output.curBits := by omega
  rw [Base64Output.shove, putBits, if_pos (by omega), if_pos (by omega)]
  rfl

theorem shoveFirst_byte {output : Base64Output} {newBits putBits : Nat} (fits : output.curBits + putBits ≤ 8) :
    shoveFirst output newBits putBits < 2 ^ 8 := by
  apply Nat.lt_pow_two_of_testBit
  intro j above
  rw [shoveFirst, Nat.testBit_shiftLeft, field_small _ _ _ (by omega), Bool.and_false]

private theorem shoveSecond_byte {newBits putBits : Nat} (fits : putBits ≤ 8) : shoveSecond newBits putBits < 2 ^ 8 := by
  apply Nat.lt_pow_two_of_testBit
  intro j above
  rw [shoveSecond, ← field_low, Nat.testBit_shiftLeft, field_small _ _ _ (by omega), Bool.and_false]

/-- A bit of the characters when one more is read. -/
theorem bitAt_one_more (values : List Nat) (value p : Nat) :
    bitAt 6 (values ++ [value]) p =
      (bitAt 6 values p || (decide (6 * values.length ≤ p ∧ p < 6 * values.length + 6) &&
        value.testBit (5 - (p - 6 * values.length)))) := by
  by_cases old : p < 6 * values.length
  · rw [bitAt_append_left _ old, decide_eq_false (by omega), Bool.false_and, Bool.or_false]
  · obtain ⟨offset, rfl⟩ := Nat.exists_eq_add_of_le (Nat.le_of_not_lt old)
    rw [bitAt_outside values (by decide) (Nat.le_of_not_lt old), Bool.false_or, Nat.add_sub_cancel_left]
    by_cases new : offset < 6
    · rw [bitAt_append_single _ _ new, decide_eq_true (by omega), Bool.true_and]
    · rw [bitAt_outside _ (by decide) (by rw [List.length_append, List.length_singleton]; omega),
        decide_eq_false (by omega), Bool.false_and]

theorem testBit_shoveFirst {output : Base64Output} {newBits putBits start p : Nat}
    (cursor : 8 * output.outData + output.curBits = start) (fits : output.curBits + putBits ≤ 8) (few : putBits ≤ 6) :
    (decide (p / 8 = output.outData) && (shoveFirst output newBits putBits).testBit (7 - p % 8)) =
      (decide (start ≤ p ∧ p < start + putBits) && newBits.testBit (5 - (p - start))) := by
  have from_start : 0 + putBits ≤ 6 := by omega
  have inside : p % 8 < 8 := Nat.mod_lt _ (by decide)
  have placed := testBit_placed newBits from_start inside fits
  rw [Nat.sub_zero] at placed
  rw [shoveFirst, placed]
  by_cases here : p / 8 = output.outData
  · have position : output.curBits ≤ p % 8 ∧ p % 8 < output.curBits + putBits ↔
        start ≤ p ∧ p < start + putBits := by omega
    have offset : 0 + (p % 8 - output.curBits) = p - start := by omega
    simp only [here, decide_true, Bool.true_and, position, offset]
  · have elsewhere : ¬ (start ≤ p ∧ p < start + putBits) := by omega
    simp only [here, elsewhere, decide_false, Bool.false_and]

private theorem testBit_shoveSecond {newBits index putBits start p : Nat} (cursor : start + putBits = 8 * index)
    (few : putBits ≤ 6) :
    (decide (p / 8 = index) && (shoveSecond newBits (6 - putBits)).testBit (7 - p % 8)) =
      (decide (start + putBits ≤ p ∧ p < start + 6) && newBits.testBit (5 - (p - start))) := by
  have fits : putBits + (6 - putBits) ≤ 6 := by omega
  have room : 0 + (6 - putBits) ≤ 8 := by omega
  have inside : p % 8 < 8 := Nat.mod_lt _ (by decide)
  have placed := testBit_placed newBits fits inside room
  rw [show 6 - putBits - (6 - putBits) = 0 by omega, Nat.sub_zero, field_low] at placed
  rw [shoveSecond, placed]
  by_cases here : p / 8 = index
  · have position : 0 ≤ p % 8 ∧ p % 8 < 0 + (6 - putBits) ↔ start + putBits ≤ p ∧ p < start + 6 := by omega
    have offset : start + putBits ≤ p → putBits + (p % 8 - 0) = p - start := by omega
    by_cases carried : start + putBits ≤ p ∧ p < start + 6
    · simp only [here, decide_true, Bool.true_and, position, carried, offset carried.1]
    · simp only [here, decide_true, Bool.true_and, position, carried, decide_false, Bool.false_and]
  · have elsewhere : ¬ (start + putBits ≤ p ∧ p < start + 6) := by omega
    simp only [here, elsewhere, decide_false, Bool.false_and]

theorem orInto_accessed (output : Base64Output) (bits : Nat) (index : Nat) :
    index ∈ (output.orInto bits).accessed ↔ index ∈ output.accessed ∨ index = output.outData := by
  rw [Base64Output.orInto]
  simp

theorem orInto_length (output : Base64Output) (bits : Nat) :
    (output.orInto bits).decoded.length = output.decoded.length :=
  List.length_set

/-- Six more bits are in the output, and no cell was accessed in which none of them falls. -/
theorem shove_decoded {cells : Nat} {values : List Nat} {output : Base64Output}
    (decoded : Decoded cells values output) (value : Nat) (room : 6 * values.length + 6 ≤ 8 * cells) :
    Decoded cells (values ++ [value]) (output.shove value) := by
  have cursor := decoded.cursor
  have not_full := decoded.not_full
  have length := decoded.length
  have inside : output.outData < output.decoded.length := by omega
  have more : (values ++ [value]).length = values.length + 1 := List.length_append
  rcases Nat.lt_trichotomy output.curBits 2 with enough | equal | short
  · have fits : output.curBits + 6 ≤ 8 := by omega
    rw [shove_within enough]
    refine ⟨(orInto_length _ _).trans length, ?_, ?_, ?_, ?_⟩
    · simp only [more, Base64Output.orInto]
      omega
    · simp only
      omega
    · intro p
      rw [bitAt_orInto (shoveFirst_byte fits) inside, decoded.bits, testBit_shoveFirst cursor fits (by omega),
        bitAt_one_more]
    · intro index
      rw [orInto_accessed, decoded.accessed, more]
      omega
  · have fits : output.curBits + 6 ≤ 8 := by omega
    rw [shove_exact equal]
    refine ⟨(orInto_length _ _).trans length, ?_, Nat.zero_lt_succ _, ?_, ?_⟩
    · simp only [more]
      omega
    · intro p
      rw [bitAt_orInto (shoveFirst_byte fits) inside, decoded.bits, testBit_shoveFirst cursor fits (by omega),
        bitAt_one_more]
    · intro index
      rw [orInto_accessed, decoded.accessed, more]
      omega
  · have fits : output.curBits + (8 - output.curBits) ≤ 8 := by omega
    have start : 6 * values.length + (8 - output.curBits) = 8 * (output.outData + 1) := by omega
    rw [shove_across short not_full]
    refine ⟨?_, ?_, ?_, ?_, ?_⟩
    · exact (orInto_length _ _).trans ((orInto_length _ _).trans length)
    · simp only [more, Base64Output.orInto]
      omega
    · simp only
      omega
    · intro p
      have next_inside : output.outData + 1 < (output.orInto (shoveFirst output value (8 - output.curBits))).decoded.length := by
        rw [orInto_length]
        omega
      rw [bitAt_orInto (shoveSecond_byte (by omega)) next_inside, bitAt_orInto (shoveFirst_byte fits) inside,
        decoded.bits, testBit_shoveFirst cursor fits (by omega), testBit_shoveSecond start (by omega),
        bitAt_one_more, Bool.or_assoc, ← Bool.and_or_distrib_right]
      have whole : (decide (6 * values.length ≤ p ∧ p < 6 * values.length + (8 - output.curBits)) ||
          decide (6 * values.length + (8 - output.curBits) ≤ p ∧ p < 6 * values.length + 6)) =
          decide (6 * values.length ≤ p ∧ p < 6 * values.length + 6) := by
        rw [← Bool.decide_or]
        apply decide_eq_decide.mpr
        omega
      rw [whole]
    · intro index
      rw [orInto_accessed, orInto_accessed, decoded.accessed, more]
      simp only
      omega

/-- The characters of `values`, padded. -/
def characters (values : List Nat) (pad : Nat) : Bytes :=
  values.map (base64lookupTable.getD · 0) ++ List.replicate pad padCharacter

private theorem lookup_inverts : ∀ value : Fin 64,
    base64lookupTable.getD value.val 0 ≠ padCharacter ∧
    base64lookupTable.getD value.val 0 < 128 ∧
    lookupTable.getD (base64lookupTable.getD value.val 0).toNat (-1) = value.val := by
  decide +kernel

private theorem decodeCharacters_pad (pad : Nat) (output : Base64Output) :
    decodeCharacters (List.replicate pad padCharacter) output = .ok output := by
  cases pad with
  | zero => rfl
  | succ pad => exact if_pos rfl

theorem decodeCharacters_character {value : Nat} (small : value < 2 ^ 6) (coded : Bytes) (output : Base64Output) :
    decodeCharacters (base64lookupTable.getD value 0 :: coded) output = decodeCharacters coded (output.shove value) := by
  obtain ⟨not_pad, ascii, inverts⟩ := lookup_inverts ⟨value, small⟩
  simp only at not_pad ascii inverts
  have legal : ¬ (base64lookupTable.getD value 0 ≥ 128 ∨
      lookupTable.getD (base64lookupTable.getD value 0).toNat (-1) = -1) := by
    rw [inverts, not_or]
    exact ⟨UInt8.not_le.mpr ascii, by omega⟩
  rw [decodeCharacters, if_neg not_pad, if_neg legal, inverts, Int.toNat_natCast]

/-- A decoder that has room for the characters that are left reads them all. -/
theorem decodeCharacters_decoded {cells pad : Nat} : ∀ (values : List Nat) {done : List Nat} {output : Base64Output},
    (∀ value ∈ values, value < 2 ^ 6) → Decoded cells done output →
    6 * (done ++ values).length ≤ 8 * cells →
    ∃ final, decodeCharacters (characters values pad) output = .ok final ∧ Decoded cells (done ++ values) final := by
  intro values
  induction values with
  | nil =>
    intro done output _ decoded _
    exact ⟨output, decodeCharacters_pad pad output, by rwa [List.append_nil]⟩
  | cons value values ih =>
    intro done output small decoded room
    rw [List.append_cons] at room ⊢
    have step : 6 * done.length + 6 ≤ 8 * cells := by
      rw [List.length_append, List.length_append, List.length_singleton] at room
      omega
    have rest := ih (fun other member => small other (List.mem_cons_of_mem _ member))
      (shove_decoded decoded value step) room
    have first := decodeCharacters_character (small value List.mem_cons_self) (characters values pad) output
    obtain ⟨final, ran, right⟩ := rest
    exact ⟨final, first.trans ran, right⟩

private theorem not_pad_of_character {values : List Nat} (small : ∀ value ∈ values, value < 2 ^ 6) :
    ∀ next ∈ values.map (base64lookupTable.getD · 0), (next == padCharacter) = false := by
  intro next member
  obtain ⟨value, inside, rfl⟩ := List.mem_map.mp member
  exact beq_false_of_ne (lookup_inverts ⟨value, small value inside⟩).1

theorem decodedLength_characters {values : List Nat} (small : ∀ value ∈ values, value < 2 ^ 6) (pad : Nat) :
    decodedLength (characters values pad) = values.length * 3 / 4 := by
  have stripped : (characters values pad).rdropWhile (· == padCharacter) =
      values.map (base64lookupTable.getD · 0) := by
    rw [characters, List.rdropWhile, List.reverse_append, List.reverse_replicate,
      List.dropWhile_append_of_pos (by simp)]
    rw [List.dropWhile_eq_self_iff.mpr, List.reverse_reverse]
    intro nonempty
    have member := List.mem_reverse.mp (List.getElem_mem nonempty)
    rw [not_pad_of_character small _ member]
    decide
  rw [decodedLength, stripped, List.length_map]

/-- A decoder accepts what is made of characters and padding. -/
theorem decodeOutput_characters {values : List Nat} (small : ∀ value ∈ values, value < 2 ^ 6) (pad : Nat) :
    ∃ output, decodeOutput (characters values pad) = .ok output ∧
      Decoded (values.length * 3 / 4 + 1) values output := by
  have room : 6 * ([] ++ values).length ≤ 8 * (values.length * 3 / 4 + 1) := by
    rw [List.nil_append]
    omega
  rw [decodeOutput, decodedLength_characters small]
  exact decodeCharacters_decoded values small (initial_decoded _) room

private theorem contains_character : ∀ value : Fin 64,
    base64lookupTable.contains (base64lookupTable.getD value.val 0) = true := by
  decide +kernel

private theorem pad_not_contained : base64lookupTable.contains padCharacter = false := by
  decide +kernel

private theorem all_contained {values : List Nat} (small : ∀ value ∈ values, value < 2 ^ 6) :
    ∀ next ∈ values.map (base64lookupTable.getD · 0), base64lookupTable.contains next = true := by
  intro next member
  obtain ⟨value, inside, rfl⟩ := List.mem_map.mp member
  exact contains_character ⟨value, small value inside⟩

private theorem dropWhile_pad (pad : Nat) : (List.replicate pad padCharacter).dropWhile (· == padCharacter) = [] := by
  simp

private theorem sanityCheckBase64_characters {values : List Nat} (small : ∀ value ∈ values, value < 2 ^ 6) (pad : Nat) :
    sanityCheckBase64 (characters values pad) = true := by
  have rest : (characters values pad).dropWhile (base64lookupTable.contains ·) =
      List.replicate pad padCharacter := by
    rw [characters, List.dropWhile_append_of_pos (all_contained small), List.dropWhile_eq_self_iff]
    intro nonempty
    rw [List.getElem_replicate, pad_not_contained]
    decide
  rw [sanityCheckBase64, rest]
  split
  · rfl
  · rw [dropWhile_pad]
    rfl

private theorem characters_of_contained {front : Bytes}
    (contained : ∀ next ∈ front, base64lookupTable.contains next = true) :
    ∃ values : List Nat, (∀ value ∈ values, value < 2 ^ 6) ∧
      front = values.map (base64lookupTable.getD · 0) := by
  refine ⟨front.map (base64lookupTable.idxOf ·), ?_, ?_⟩
  · intro value member
    obtain ⟨next, inside, rfl⟩ := List.mem_map.mp member
    exact List.idxOf_lt_length_of_mem (List.contains_iff_mem.mp (contained next inside))
  · rw [List.map_map]
    refine (List.map_id front).symm.trans (List.map_congr_left ?_)
    intro next inside
    have found := List.idxOf_lt_length_of_mem (List.contains_iff_mem.mp (contained next inside))
    rw [Function.comp_apply, List.getD_eq_getElem _ _ found, List.getElem_idxOf]
    rfl

/-- What is accepted is made of characters and padding. -/
theorem characters_of_accepted {coded : Bytes} (accepted : sanityCheckBase64 coded = true) :
    ∃ values pad, (∀ value ∈ values, value < 2 ^ 6) ∧ coded = characters values pad := by
  have parts : coded.takeWhile (base64lookupTable.contains ·) ++ coded.dropWhile (base64lookupTable.contains ·) =
      coded := List.takeWhile_append_dropWhile
  have contained : ∀ next ∈ coded.takeWhile (base64lookupTable.contains ·),
      base64lookupTable.contains next = true := fun _ member => List.mem_takeWhile_imp member
  obtain ⟨values, small, front⟩ := characters_of_contained contained
  have padding : ∀ next ∈ coded.dropWhile (base64lookupTable.contains ·), next = padCharacter := by
    rw [sanityCheckBase64] at accepted
    split at accepted
    next rest =>
      rw [rest]
      exact fun _ member => absurd member List.not_mem_nil
    next =>
      intro next member
      have dropped := List.dropWhile_eq_nil_iff.mp (List.isEmpty_iff.mp accepted) next member
      exact beq_iff_eq.mp dropped
  refine ⟨values, (coded.dropWhile (base64lookupTable.contains ·)).length, small, ?_⟩
  rw [characters, ← front, ← List.eq_replicate_of_mem padding, parts]

private theorem encodedIndices_of (raw : Bytes) :
    Encodes raw 0 (encodedLength raw - padOf raw) (encodedIndices raw (encodedLength raw - padOf raw) {}) :=
  encodedIndices_encodes raw _ initial_grabbed

private theorem encodedIndices_length (raw : Bytes) : (encodedLength raw - padOf raw) * 3 / 4 = raw.length := by
  unfold encodedLength padOf
  omega

private theorem byte_words (bytes : Bytes) : ∀ word ∈ bytes.map UInt8.toNat, word < 2 ^ 8 := by
  intro word member
  obtain ⟨byte, -, rfl⟩ := List.mem_map.mp member
  exact byte.toNat_lt

/-- Byte strings are known by their bits. -/
theorem bytes_eq_of_bits {left right : Bytes} (length : left.length = right.length)
    (same : ∀ p < 8 * left.length, Bytes.bitAt left p = Bytes.bitAt right p) : left = right := by
  have equal : left.map UInt8.toNat = right.map UInt8.toNat := by
    apply words_eq_of_bits (byte_words left) (byte_words right)
    · rw [List.length_map, List.length_map, length]
    · rwa [List.length_map]
  exact List.map_injective_iff.mpr (fun _ _ => UInt8.toNat_inj.mp) equal

private theorem bitAt_take (bytes : Bytes) {count p : Nat} (inside : p < 8 * count) :
    Bytes.bitAt (bytes.take count) p = Bytes.bitAt bytes p := by
  have index : p / 8 < count := Nat.div_lt_of_lt_mul inside
  rw [Bytes.bitAt, Bytes.bitAt, bitAt, bitAt, List.map_take, List.getD_eq_getElem?_getD,
    List.getD_eq_getElem?_getD, List.getElem?_take_of_lt index]

/-- Encoding gives what decoding accepts and turns back into the same bytes. -/
theorem base64_round_trip (raw : Bytes) :
    sanityCheckBase64 (encodeBase64 raw) = true ∧ decodeBase64 (encodeBase64 raw) = .ok raw := by
  obtain ⟨length, small, bits⟩ := encodedIndices_of raw
  have shape : encodeBase64 raw =
      characters (encodedIndices raw (encodedLength raw - padOf raw) {}) (padOf raw) := rfl
  obtain ⟨output, ran, decoded⟩ := decodeOutput_characters small (padOf raw)
  have outLen := decodedLength_characters small (padOf raw)
  have cells := decoded.length
  rw [length, encodedIndices_length] at outLen cells
  rw [shape]
  refine ⟨sanityCheckBase64_characters small _, ?_⟩
  rw [decodeBase64, ran, outLen]
  refine congrArg Except.ok (bytes_eq_of_bits ?_ ?_)
  · rw [List.length_take, cells]
    omega
  · intro p inside
    rw [List.length_take, cells] at inside
    have before_end : p < 8 * raw.length := by omega
    have encoded : p < 6 * (encodedLength raw - padOf raw) := by
      have lengths := encodedIndices_length raw
      omega
    rw [bitAt_take _ before_end, decoded.bits, bits p encoded, Nat.zero_add]

/-- The characters of a string, without the padding. -/
theorem takeWhile_characters {values : List Nat} (small : ∀ value ∈ values, value < 2 ^ 6) (pad : Nat) :
    ((characters values pad).takeWhile (· != padCharacter)).length = values.length := by
  have none_left : (List.replicate pad padCharacter).takeWhile (· != padCharacter) = [] := by
    cases pad <;> rfl
  have all : ∀ next ∈ values.map (base64lookupTable.getD · 0), (next != padCharacter) = true := by
    intro next member
    rw [bne, not_pad_of_character small next member]
    rfl
  rw [characters, List.takeWhile_append_of_pos all, none_left, List.append_nil, List.length_map]

/-- The cells that bits fall in are those of the output unless some bits are left. -/
theorem cells_inside_iff (count : Nat) :
    (∀ index, 8 * index < 6 * count → index < count * 3 / 4) ↔ count % 4 = 0 := by
  constructor
  · intro inside
    by_contra rest
    have reached := inside (count * 3 / 4) (by omega)
    exact absurd reached (Nat.lt_irrefl _)
  · intro whole index bits
    omega

/-- No accepted string is refused, and the decoder stays inside its output exactly when the
characters make up whole groups of four. -/
theorem base64_decodes_inside_iff (coded : Bytes) (accepted : sanityCheckBase64 coded = true) :
    ∃ output, decodeOutput coded = .ok output ∧
      decodeBase64 coded = .ok (output.decoded.take (decodedLength coded)) ∧
      ((∀ index ∈ output.accessed, index < decodedLength coded) ↔
        (coded.takeWhile (· != padCharacter)).length % 4 = 0) := by
  obtain ⟨values, pad, small, rfl⟩ := characters_of_accepted accepted
  obtain ⟨output, ran, decoded⟩ := decodeOutput_characters small pad
  refine ⟨output, ran, by rw [decodeBase64, ran]; rfl, ?_⟩
  rw [takeWhile_characters small, decodedLength_characters small, ← cells_inside_iff]
  constructor
  · exact fun inside index bits => inside index ((decoded.accessed index).mpr bits)
  · exact fun inside index member => inside index ((decoded.accessed index).mp member)

/-- `QUJD` -/
theorem base64_decodes_inside_group :
    ∃ output, decodeOutput [81, 85, 74, 68] = .ok output ∧
      decodeBase64 [81, 85, 74, 68] = .ok (output.decoded.take (decodedLength [81, 85, 74, 68])) ∧
      ((∀ index ∈ output.accessed, index < decodedLength [81, 85, 74, 68]) ↔
        (([81, 85, 74, 68] : Bytes).takeWhile (· != padCharacter)).length % 4 = 0) :=
  base64_decodes_inside_iff [81, 85, 74, 68] (by decide +kernel)

/-- `QR==`: one byte, and bits of the second character go to the cell after it. -/
theorem base64_decodes_outside :
    ¬ (sanityCheckBase64 [81, 82, 61, 61] = true → ∃ output, decodeOutput [81, 82, 61, 61] = .ok output ∧
      ∀ index ∈ output.accessed, index < decodedLength [81, 82, 61, 61]) := by
  intro claimed
  obtain ⟨output, ran, inside⟩ := claimed (by decide +kernel)
  have expected : decodeOutput [81, 82, 61, 61] = .ok ⟨[65, 16], 1, 4, [0, 0, 1]⟩ := rfl
  rw [expected] at ran
  cases ran
  exact absurd (inside 1 (by decide)) (by decide +kernel)

end Slate
