import Slate.Library.Checksums
import Slate.Proofs.GzipStreams

/-! The trailer of a compressed archive holds the cyclic redundancy check of all that was
compressed, however it was cut into blocks, and its length. -/

namespace Slate
open Library Library.CyclicCheck Execution Polynomial

def bitsOf (bytes : Bytes) : List Bool := bytes.flatMap fun byte => (List.range 8).map byte.toBitVec.getLsbD

def crcGenerator : BitVec 32 := 0xedb88320

/-- One of the eight passes that make an entry of the table. -/
def crcPass (c : UInt32) : UInt32 := if c &&& 1 ≠ 0 then (0xedb88320 : UInt32) ^^^ (c >>> 1) else c >>> 1

private theorem crcPass_toBitVec (c : UInt32) : (crcPass c).toBitVec = advance crcGenerator c.toBitVec := by
  have low : (c &&& 1).toBitVec = (BitVec.ofBool (c.toBitVec.getLsbD 0)).setWidth 32 := by
    rw [UInt32.toBitVec_and]
    exact BitVec.and_one_eq_setWidth_ofBool_getLsbD
  have lowest : c &&& 1 ≠ 0 ↔ c.toBitVec.getLsbD 0 = true := by
    rw [ne_eq, ← UInt32.toBitVec_inj, low]
    cases c.toBitVec.getLsbD 0 <;> decide
  by_cases set : c.toBitVec.getLsbD 0 = true
  · rw [crcPass, if_pos (lowest.mpr set), advance, if_pos set]
    rfl
  · rw [crcPass, if_neg (mt lowest.mp set), advance, if_neg set]
    rfl

private theorem crcEntry_toBitVec (n : UInt32) : (crcEntry n).toBitVec = (advance crcGenerator)^[8] n.toBitVec := by
  have passes : crcEntry n = crcPass^[8] n := List.foldl_const crcPass n (List.range 8)
  have alike : Function.Semiconj UInt32.toBitVec crcPass (advance crcGenerator) := crcPass_toBitVec
  rw [passes]
  exact alike.iterate_right 8 n

private theorem crcTable_entry (index : UInt32) (below : index.toNat < 256) : crcTable[index.toNat]?.getD 0 = crcEntry index := by
  simp [crcTable, below]

/-- A byte that is looked up goes by as its eight bits. -/
theorem crcTable_feeds (c : UInt32) (byte : UInt8) :
    (crcTable[((c ^^^ byte.toUInt32) &&& 0xff).toNat]?.getD 0 ^^^ (c >>> 8)).toBitVec =
      feedAll crcGenerator c.toBitVec ((List.range 8).map byte.toBitVec.getLsbD) := by
  have below : ((c ^^^ byte.toUInt32) &&& 0xff).toNat < 256 := by
    rw [UInt32.toNat_and]
    exact Nat.lt_of_le_of_lt Nat.and_le_right (by decide)
  have same : ∀ i < 8, ((c ^^^ byte.toUInt32) &&& 0xff).toBitVec.getLsbD i = (c ^^^ byte.toUInt32).toBitVec.getLsbD i := by
    intro i inside
    have ones : (0xff : UInt32).toBitVec.getLsbD i = true := by
      have bits : ∀ i : Fin 8, (0xff : UInt32).toBitVec.getLsbD i = true := by decide
      exact bits ⟨i, inside⟩
    rw [UInt32.toBitVec_and, BitVec.getLsbD_and, ones, Bool.and_true]
  have none : ∀ i, (0xff : UInt32).toBitVec.getLsbD (8 + i) = false := by
    intro i
    have above : (255 : Nat) < 2 ^ (8 + i) := (by decide : 255 < 2 ^ 8).trans_le (Nat.pow_le_pow_right (by decide) (by omega))
    exact Nat.testBit_lt_two_pow above
  have high : (((c ^^^ byte.toUInt32) &&& 0xff).toBitVec ^^^ (c ^^^ byte.toUInt32).toBitVec) >>> 8 = c.toBitVec >>> 8 := by
    apply BitVec.eq_of_getLsbD_eq
    intro i inside
    have short : byte.toUInt32.toBitVec.getLsbD (8 + i) = false := by simp
    simp only [UInt32.toBitVec_and, UInt32.toBitVec_xor, BitVec.getLsbD_ushiftRight, BitVec.getLsbD_xor, BitVec.getLsbD_and,
      none, short, Bool.and_false, Bool.false_xor, Bool.xor_false]
  have taken : (word ((List.range 8).map byte.toBitVec.getLsbD) : BitVec 32) = byte.toUInt32.toBitVec := by
    apply BitVec.eq_of_getElem_eq
    intro i inside
    rw [getElem_word _ inside]
    by_cases low : i < 8
    · simp [low]
    · simp [low, BitVec.getLsbD_of_ge byte.toBitVec i (by omega)]
  calc (crcTable[((c ^^^ byte.toUInt32) &&& 0xff).toNat]?.getD 0 ^^^ (c >>> 8)).toBitVec
    _ = (advance crcGenerator)^[8] ((c ^^^ byte.toUInt32) &&& 0xff).toBitVec ^^^ (c.toBitVec >>> 8) := by
      rw [crcTable_entry _ below, UInt32.toBitVec_xor, crcEntry_toBitVec]
      rfl
    _ = (advance crcGenerator)^[8] (c.toBitVec ^^^ byte.toUInt32.toBitVec) := by
      rw [← high, ← iterate_advance_low same, UInt32.toBitVec_xor]
    _ = feedAll crcGenerator c.toBitVec ((List.range 8).map byte.toBitVec.getLsbD) := by
      rw [feedAll_word (by simp), taken, List.length_map, List.length_range]

theorem updateCRC_feeds (crc : UInt32) (buf : Bytes) : (updateCRC crc buf).toBitVec =
    feedAll crcGenerator (crc ^^^ 0xffffffff).toBitVec (bitsOf buf) ^^^ (0xffffffff : UInt32).toBitVec := by
  rw [updateCRC, UInt32.toBitVec_xor]
  congr 1
  generalize crc ^^^ 0xffffffff = c
  induction buf generalizing c with
  | nil => rfl
  | cons byte buf induction =>
    have bits : bitsOf (byte :: buf) = (List.range 8).map byte.toBitVec.getLsbD ++ bitsOf buf := List.flatMap_cons
    rw [List.foldl_cons, induction, bits, feedAll_append, crcTable_feeds]

/-- The check goes on from one block to the next. -/
theorem updateCRC_append (crc : UInt32) (block rest : Bytes) :
    updateCRC (updateCRC crc block) rest = updateCRC crc (block ++ rest) := by
  have undone (c : UInt32) : c ^^^ 0xffffffff ^^^ 0xffffffff = c := by rw [UInt32.xor_assoc, UInt32.xor_self, UInt32.xor_zero]
  simp only [updateCRC, undone, List.foldl_append]

noncomputable def crcPolynomial : (ZMod 2)[X] :=
  X ^ 32 + X ^ 26 + X ^ 23 + X ^ 22 + X ^ 16 + X ^ 12 + X ^ 11 + X ^ 10 + X ^ 8 + X ^ 7 + X ^ 5 + X ^ 4 + X ^ 2 + X + 1

/-- What the register holds at first and what is added at the end. -/
noncomputable def crcPreset : (ZMod 2)[X] := ∑ i ∈ Finset.range 32, X ^ i

private theorem modulus_crcGenerator : modulus crcGenerator = crcPolynomial := by
  simp [modulus, residue, Finset.sum_range_succ, crcGenerator, coefficient, crcPolynomial]
  ring

private theorem residue_crcPreset : residue (0xffffffff : UInt32).toBitVec = crcPreset := by
  simp [residue, Finset.sum_range_succ, coefficient, crcPreset]
  ring

private theorem residue_updateCRC (buf : Bytes) : residue (updateCRC 0 buf).toBitVec + crcPreset =
    (X ^ (8 * buf.length) * crcPreset + X ^ 32 * message (bitsOf buf)) %ₘ crcPolynomial := by
  have length : (bitsOf buf).length = 8 * buf.length := by
    induction buf with
    | nil => rfl
    | cons byte buf induction => simp [bitsOf, Nat.mul_succ] at induction ⊢; omega
  have preset : (0 ^^^ 0xffffffff : UInt32).toBitVec = (0xffffffff : UInt32).toBitVec := rfl
  rw [updateCRC_feeds, residue_xor, preset, residue_crcPreset, add_assoc, ← residue_crcPreset, residue_add_self, add_zero,
    residue_feedAll (by decide), length, modulus_crcGenerator]

variable {zlib : Deflater} {source compressed : Bytes}

private theorem deflateInput_keeps {finish : Bool} {before after : Deflation zlib} {start : Bytes} (begins : start <+: before.dest)
    (given : (deflateInput zlib finish before).Gives (.ok after)) : start <+: after.dest := by
  have kept : ∀ last, (Except.ok after : Except String (Deflation zlib)) = .ok last → start <+: last.dest := by
    apply given.loop_kept (fun zs => start <+: zs.dest) (fun outcome => ∀ last, outcome = .ok last → start <+: last.dest)
      _ _ _ begins
    · intro zs next begins pass
      dsimp only at pass
      split at pass
      · cases gives_throws.mp pass
      · split at pass
        · cases gives_pure.mp pass
          exact begins.trans (List.prefix_append ..)
        · cases gives_pure.mp pass
    · intro zs last begins pass value same
      cases same
      dsimp only at pass
      split at pass
      · cases gives_throws.mp pass
      · split at pass
        · cases gives_pure.mp pass
        · cases gives_pure.mp pass
          exact begins.trans (List.prefix_append ..)
    · intro zs error begins pass value impossible
      cases impossible
  exact kept after rfl

/-- What was read of a source is counted and checked. -/
structure Counted (source : Bytes) (state : Compression zlib) (read : Bytes) : Prop where
  begins : gzipPreamble <+: state.dest
  source : read ++ state.src.rest = source
  crc : state.crc = updateCRC 0 read
  totalSize : state.totalSize = UInt32.ofNat read.length

theorem Counted.more {state : Compression zlib} {read input : Bytes} (counted : Counted source state read) (src : InputStream)
    {zs : Deflation zlib} (begins : gzipPreamble <+: zs.dest) (rest : input ++ src.rest = state.src.rest) :
    Counted source (⟨src, zs.stream, zs.dest, updateCRC state.crc input, state.totalSize + UInt32.ofNat input.length⟩ :
      Compression zlib) (read ++ input) := by
  refine ⟨begins, ?_, ?_, ?_⟩
  · rw [List.append_assoc, rest, counted.source]
  · rw [counted.crc, updateCRC_append]
  · rw [counted.totalSize, List.length_append, UInt32.ofNat_add]

def deflateBlock (zlib : Deflater) (state : Compression zlib) : Execution String (Next (Compression zlib) (Compression zlib)) :=
  let (input, src) := state.src.read inBlockSize
  if src.fail && !src.eof then throws "Input stream failure" else do
  let zs ← deflateInput zlib src.eof ⟨state.stream, input, state.dest⟩
  let state := ⟨src, zs.stream, zs.dest, updateCRC state.crc input, state.totalSize + UInt32.ofNat input.length⟩
  pure (if src.eof then .done state else .again state)

/-- One pass reads a block, which is the last one when nothing is left. -/
theorem deflateBlock_counts {state : Compression zlib} {read : Bytes} {next : Next (Compression zlib) (Compression zlib)}
    (counted : Counted source state read) (ready : state.src.eof = false ∧ state.src.fail = false)
    (given : (deflateBlock zlib state).Gives (.ok next)) : match next with
      | .again after => ∃ read, Counted source after read ∧ after.src.eof = false ∧ after.src.fail = false
      | .done last => Counted source last source := by
  obtain ⟨⟨rest, eof, fail⟩, stream, dest, crc, totalSize⟩ := state
  obtain ⟨rfl, rfl⟩ : eof = false ∧ fail = false := ready
  rw [deflateBlock] at given
  by_cases short : rest.length < inBlockSize
  · simp only [InputStream.read_short short] at given
    rcases gives_bind.mp given with ⟨error, -, impossible⟩ | ⟨zs, deflated, pass⟩
    · cases impossible
    · cases gives_pure.mp pass
      have more := counted.more ⟨[], true, true⟩ (deflateInput_keeps counted.begins deflated) (List.append_nil rest)
      have whole : read ++ rest = source := counted.source
      rwa [whole] at more
  · have enough : inBlockSize ≤ rest.length := by omega
    simp only [InputStream.read_enough enough] at given
    rcases gives_bind.mp given with ⟨error, -, impossible⟩ | ⟨zs, deflated, pass⟩
    · cases impossible
    · cases gives_pure.mp pass
      exact ⟨_, counted.more ⟨rest.drop inBlockSize, false, false⟩ (deflateInput_keeps counted.begins deflated)
        (List.take_append_drop inBlockSize rest), rfl, rfl⟩

private theorem deflateAll_counts {state last : Compression zlib} {read : Bytes} (counted : Counted source state read)
    (ready : state.src.eof = false ∧ state.src.fail = false) (given : (deflateAll zlib state).Gives (.ok last)) :
    Counted source last source := by
  change (loop (deflateBlock zlib) state).Gives (.ok last) at given
  have kept : ∀ value, (Except.ok last : Except String (Compression zlib)) = .ok value → Counted source value source := by
    apply given.loop_kept (fun state => ∃ read, Counted source state read ∧ state.src.eof = false ∧ state.src.fail = false)
      (fun outcome => ∀ value, outcome = .ok value → Counted source value source) _ _ _ ⟨read, counted, ready⟩
    · rintro state after ⟨read, counted, ready⟩ pass
      exact deflateBlock_counts counted ready pass
    · rintro state last ⟨read, counted, ready⟩ pass value same
      cases same
      exact deflateBlock_counts counted ready pass
    · intro state error holds pass value impossible
      cases impossible
  exact kept last rfl

theorem gzipCompress_trails (given : (gzipCompress zlib source).Gives (.ok compressed)) : ∃ deflated,
    compressed = gzipPreamble ++ deflated ++ (written (updateCRC 0 source) ++ written (UInt32.ofNat source.length)) := by
  rw [gzipCompress] at given
  dsimp only at given
  split at given
  · cases gives_throws.mp given
  · rcases gives_bind.mp given with ⟨error, -, impossible⟩ | ⟨last, deflated, trailed⟩
    · cases impossible
    · have start : Counted source (⟨⟨source, false, false⟩, zlib.deflateInit2.2, gzipPreamble, 0, 0⟩ : Compression zlib) [] :=
        ⟨List.prefix_rfl, rfl, rfl, rfl⟩
      have counted := deflateAll_counts start ⟨rfl, rfl⟩ deflated
      obtain ⟨body, kept⟩ := counted.begins
      cases gives_pure.mp trailed
      exact ⟨body, by rw [kept, counted.crc, counted.totalSize, List.append_assoc]⟩

def emptyStream : Bytes := [3, 0]

/-- What zlib does with at most one byte, of which only the values here are known. -/
def byteDeflater : Deflater where
  Stream := Unit
  deflateInit2 := (zOk, ⟨⟩)
  deflate _ input finish _ :=
    let deflated : Bytes := match input with
      | [0] => [0x63, 0x00, 0x00]
      | [1] => [0x63, 0x04, 0x00]
      | _ => emptyStream
    { code := if finish then zStreamEnd else zOk, taken := input.length, given := if finish then deflated else [], stream := ⟨⟩ }

theorem byteDeflater_gives (byte : UInt8) (known : byte = 0 ∨ byte = 1) :
    ∃ compressed, (gzipCompress byteDeflater [byte]).Gives (.ok compressed) := by
  have compresses : byteDeflater.Compresses inBlockSize outBlockSize [byte]
      (byteDeflater.deflate ⟨⟩ [byte] true outBlockSize).given := by
    obtain rfl | rfl := known
    · exact ⟨rfl, .last (by decide) (by decide)⟩
    · exact ⟨rfl, .last (by decide) (by decide)⟩
  obtain ⟨trailer, -, given⟩ := gives_gzipCompress compresses
  exact ⟨_, given⟩

/-- The trailer of an archive is the check of its source, the remainder of a division, and the size of its source. -/
theorem gzipCompress_remainder (given : (gzipCompress zlib source).Gives (.ok compressed)) : ∃ deflated crc,
    compressed = gzipPreamble ++ deflated ++ (written crc ++ written (UInt32.ofNat source.length)) ∧
    residue crc.toBitVec + crcPreset =
      (X ^ (8 * source.length) * crcPreset + X ^ 32 * message (bitsOf source)) %ₘ crcPolynomial := by
  obtain ⟨deflated, rfl⟩ := gzipCompress_trails given
  exact ⟨deflated, updateCRC 0 source, rfl, residue_updateCRC source⟩

theorem byteDeflater_remainder : ∃ compressed, (gzipCompress byteDeflater [1]).Gives (.ok compressed) ∧ ∃ deflated crc,
    compressed = gzipPreamble ++ deflated ++ (written crc ++ written 1) ∧
    residue crc.toBitVec + crcPreset = (X ^ 8 * crcPreset + X ^ 32 * message (bitsOf [1])) %ₘ crcPolynomial := by
  obtain ⟨compressed, given⟩ := byteDeflater_gives 1 (.inr rfl)
  exact ⟨compressed, given, gzipCompress_remainder given⟩

private theorem written_injective : Function.Injective written := by
  intro a b same
  simp only [written, List.cons.injEq, and_true, ← UInt8.toNat_inj, UInt32.toNat_toUInt8, UInt32.toNat_shiftRight] at same
  obtain ⟨first, second, third, fourth⟩ := same
  have first : a.toNat % 256 = b.toNat % 256 := first
  have second : a.toNat >>> 8 % 256 = b.toNat >>> 8 % 256 := second
  have third : a.toNat >>> 16 % 256 = b.toNat >>> 16 % 256 := third
  have fourth : a.toNat >>> 24 % 256 = b.toNat >>> 24 % 256 := fourth
  simp only [Nat.shiftRight_eq_div_pow] at second third fourth
  have := a.toNat_lt
  have := b.toNat_lt
  apply UInt32.toNat_inj.mp
  omega

private theorem updateCRC_bursts {damaged : Bytes} {front bits changed back : List Bool}
    (whole : bitsOf source = front ++ bits ++ back) (broken : bitsOf damaged = front ++ changed ++ back)
    (same : bits.length = changed.length) (short : bits.length ≤ 32) (differ : bits ≠ changed) (crc : UInt32) :
    updateCRC crc source ≠ updateCRC crc damaged := by
  intro equal
  have equal := congrArg UInt32.toBitVec equal
  rw [updateCRC_feeds, updateCRC_feeds, whole, broken] at equal
  exact feedAll_burst (by decide) same short differ _ front back ((BitVec.xor_left_inj _).mp equal)

/-- Sources of one length that differ only within 32 bits in a row never have the same trailer. -/
theorem gzipCompress_bursts {other : Deflater} {damaged altered : Bytes} {front bits changed back : List Bool}
    (given : (gzipCompress zlib source).Gives (.ok compressed)) (again : (gzipCompress other damaged).Gives (.ok altered))
    (whole : bitsOf source = front ++ bits ++ back) (broken : bitsOf damaged = front ++ changed ++ back)
    (same : bits.length = changed.length) (short : bits.length ≤ 32) (differ : bits ≠ changed) :
    compressed.drop (compressed.length - 8) ≠ altered.drop (altered.length - 8) := by
  obtain ⟨body, rfl⟩ := gzipCompress_trails given
  obtain ⟨other, rfl⟩ := gzipCompress_trails again
  have trailer (start : Bytes) (crc size : UInt32) :
      (start ++ (written crc ++ written size)).drop ((start ++ (written crc ++ written size)).length - 8) =
        written crc ++ written size := by
    have length : (start ++ (written crc ++ written size)).length - 8 = start.length := by simp [written]
    rw [length, List.drop_left]
  rw [trailer, trailer]
  intro equal
  have checks := (List.append_inj equal rfl).1
  exact updateCRC_bursts whole broken same short differ 0 (written_injective checks)

theorem byteDeflater_bursts : ∃ compressed altered, (gzipCompress byteDeflater [0]).Gives (.ok compressed) ∧
    (gzipCompress byteDeflater [1]).Gives (.ok altered) ∧
    compressed.drop (compressed.length - 8) ≠ altered.drop (altered.length - 8) := by
  obtain ⟨compressed, given⟩ := byteDeflater_gives 0 (.inl rfl)
  obtain ⟨altered, again⟩ := byteDeflater_gives 1 (.inr rfl)
  have whole : bitsOf [0] = [] ++ [false] ++ List.replicate 7 false := by decide
  have broken : bitsOf [1] = [] ++ [true] ++ List.replicate 7 false := by decide
  exact ⟨compressed, altered, given, again, gzipCompress_bursts given again whole broken rfl (by decide) (by decide)⟩

end Slate
