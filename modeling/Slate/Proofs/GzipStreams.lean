import Slate.Proofs.Decompression

/-! Decompression always ends, and inverts compression, except for the streams that end in
the wrong place of a block and the headers that are read forever. -/

namespace Slate
open Library Execution

variable {inflater : Inflater} {deflater : Deflater} {format : StreamFormat} {dummies : Dummies}

/-- The input is compressed, and after it the rest, to the result. -/
def Finishes (zlib : Deflater) (stream : zlib.Stream) (input : Bytes) (finish : Bool) (rest dest result : Bytes) : Prop :=
  ∃ zs, (deflateInput zlib finish ⟨stream, input, dest⟩).Gives (.ok zs) ∧
    if finish then zs.dest = result
    else ∀ crc totalSize, ∃ last, (deflateAll zlib ⟨⟨rest, false, false⟩, zs.stream, zs.dest, crc, totalSize⟩).Gives (.ok last) ∧
      last.dest = result

private theorem deflateAll_of_finishes {stream : deflater.Stream} {rest dest result : Bytes} (crc totalSize : UInt32)
    (finishes : Finishes deflater stream (rest.take inBlockSize) (decide (rest.length < inBlockSize))
      (rest.drop inBlockSize) dest result) :
    ∃ last, (deflateAll deflater ⟨⟨rest, false, false⟩, stream, dest, crc, totalSize⟩).Gives (.ok last) ∧ last.dest = result := by
  obtain ⟨zs, gives, after⟩ := finishes
  by_cases short : rest.length < inBlockSize
  · rw [decide_eq_true short, List.take_of_length_le (by omega)] at gives
    rw [if_pos (decide_eq_true short)] at after
    refine ⟨⟨⟨[], true, true⟩, zs.stream, zs.dest, updateCRC crc rest, totalSize + UInt32.ofNat rest.length⟩,
      Gives.loop_done ?_, after⟩
    simp only [InputStream.read_short short]
    exact gives.bind (gives_pure.mpr rfl)
  · have enough : inBlockSize ≤ rest.length := by omega
    rw [decide_eq_false short] at gives
    rw [if_neg (by simpa using enough)] at after
    obtain ⟨last, given, same⟩ := after (updateCRC crc (rest.take inBlockSize))
      (totalSize + UInt32.ofNat (rest.take inBlockSize).length)
    refine ⟨last, (Gives.loop_iff ?_).mpr given, same⟩
    simp only [InputStream.read_enough enough]
    exact gives.bind (gives_pure.mpr rfl)

private theorem gives_deflateInput_last {zs : Deflation deflater} {finish : Bool}
    (ok : (deflater.deflate zs.stream zs.input finish outBlockSize).code ≠ zStreamError)
    (roomy : (deflater.deflate zs.stream zs.input finish outBlockSize).given.length ≠ outBlockSize) :
    (deflateInput deflater finish zs).Gives (.ok (zs.after (deflater.deflate zs.stream zs.input finish outBlockSize))) := by
  refine Gives.loop_done ?_
  rw [if_neg ok, if_neg roomy]
  exact gives_pure.mpr rfl

private theorem gives_deflateInput_again {zs : Deflation deflater} {finish : Bool} {outcome : Except String (Deflation deflater)}
    (ok : (deflater.deflate zs.stream zs.input finish outBlockSize).code ≠ zStreamError)
    (full : (deflater.deflate zs.stream zs.input finish outBlockSize).given.length = outBlockSize) :
    (deflateInput deflater finish zs).Gives outcome ↔
      (deflateInput deflater finish (zs.after (deflater.deflate zs.stream zs.input finish outBlockSize))).Gives outcome := by
  refine Gives.loop_iff ?_
  rw [if_neg ok, if_pos full]
  exact gives_pure.mpr rfl

private theorem makes_finishes {stream : deflater.Stream} {input rest made : Bytes} {finish : Bool}
    (makes : deflater.Makes inBlockSize outBlockSize stream input finish rest made) (dest : Bytes) :
    Finishes deflater stream input finish rest dest (dest ++ made) := by
  induction makes generalizing dest with
  | full ok full makes induction =>
    obtain ⟨zs, gives, after⟩ := induction (dest ++ _)
    rw [List.append_assoc] at after
    exact ⟨zs, (gives_deflateInput_again ok full).mpr gives, after⟩
  | @next stream input rest made ok roomy makes induction =>
    refine ⟨_, gives_deflateInput_last ok roomy, fun crc totalSize => ?_⟩
    have onward := deflateAll_of_finishes crc totalSize
      (induction (dest ++ (deflater.deflate stream input false outBlockSize).given))
    rwa [List.append_assoc] at onward
  | last ok roomy => exact ⟨_, gives_deflateInput_last ok roomy, rfl⟩

theorem gives_gzipCompress {source made : Bytes} (compresses : deflater.Compresses inBlockSize outBlockSize source made) :
    ∃ trailer, trailer.length = 8 ∧ (gzipCompress deflater source).Gives (.ok (gzipPreamble ++ (made ++ trailer))) := by
  obtain ⟨initialized, makes⟩ := compresses
  obtain ⟨last, given, same⟩ := deflateAll_of_finishes 0 0 (makes_finishes makes gzipPreamble)
  refine ⟨written last.crc ++ written last.totalSize, rfl, ?_⟩
  rw [gzipCompress]
  simp only [initialized, ne_eq, not_true_eq_false, ↓reduceIte]
  refine given.bind (gives_pure.mpr ?_)
  rw [same]
  simp

/-- The body begins with a whole stream that is decoded, and that ends before the last
block that is read into a full buffer. -/
def EndsEarly (format : StreamFormat) (body : Bytes) : Prop :=
  ∃ stream, format.Whole stream ∧ stream <+: body ∧ stream.length < 1024 * (body.length / 1024) ∧
    ∀ block, 1024 * (block + 1) < stream.length → ¬ FillsAt format stream block

/-- The byte strings on which decompression ends. -/
def DecompressionEnds (format : StreamFormat) (dummies : Dummies) (bytes : Bytes) : Prop :=
  match bodyOf dummies bytes with
  | .ok body => ¬ EndsEarly format body
  | .error stop => stop = .throws

/-- The streams that are decompressed to what they were made of. -/
def Recovered (format : StreamFormat) (stream : Bytes) : Prop :=
  8 ≤ (stream.length + 8) % 1024 ∧ ∀ block, 1024 * (block + 1) < stream.length → ¬ FillsAt format stream block

private theorem fillsAt_within {stream body : Bytes} {block : Nat} (within : stream <+: body)
    (below : 1024 * (block + 1) < stream.length) : FillsAt format body block ↔ FillsAt format stream block := by
  obtain ⟨rest, rfl⟩ := within
  rw [FillsAt, FillsAt, List.take_append_of_le_length (by omega), List.take_append_of_le_length (by omega)]

inductive Decompressed (inflater : Inflater) (format : StreamFormat) (body : Bytes) (program : Execution String Bytes) : Prop
  | fails (error : String) (thrown : program.Gives (.error error))
    (blocked : ∀ stream, format.Whole stream → stream <+: body →
      ∃ block, 1024 * (block + 1) < stream.length ∧ FillsAt format stream block)
  | hangs (early : EndsEarly format body) (endless : ¬ program.Ends)
  | recovers (stream : Bytes) (whole : format.Whole stream) (within : stream <+: body)
    (clear : ∀ block, 1024 * (block + 1) < stream.length → ¬ FillsAt format stream block)
    (inTime : ¬ stream.length < 1024 * (body.length / 1024)) (given : program.Gives (.ok (format.decoded stream)))

private theorem inflateBody_decompressed (inflates : inflater.Inflates format) (body : Bytes) :
    Decompressed inflater format body (inflateBody inflater ⟨body, false, false⟩) := by
  have start : AtBlock inflater format body 0 ⟨⟨body, false, false⟩, ⟨inflater.inflateInit2.2, [], [], zOk⟩, false⟩ :=
    { inside := Nat.zero_le _
      src := rfl
      input := rfl
      success := rfl
      reached := .start
      dest := format.decoded_nil.symm
      unended := fun whole isWhole within => by
        rw [Nat.mul_zero, List.take_zero, List.prefix_nil] at within
        exact format.whole_nil (within ▸ isWhole) }
  have rest : inflateBody inflater ⟨body, false, false⟩ = (do
      let state ← inflateAll inflater ⟨⟨body, false, false⟩, ⟨inflater.inflateInit2.2, [], [], zOk⟩, false⟩
      if !state.success then throws "Unexpected end of compressed stream" else pure state.zs.dest) :=
    if_neg (not_not.mpr inflates.initialized)
  rw [rest]
  rcases inflateAll_settled inflates start with ⟨⟨error, thrown⟩, blocked⟩ | ⟨stream, whole, within, clears, answered⟩
  · refine .fails error thrown.bind_error fun stream whole within => ?_
    obtain ⟨block, -, below, fills⟩ := blocked stream whole within
    exact ⟨block, below, (fillsAt_within within below).mp fills⟩
  · have clear : ∀ block, 1024 * (block + 1) < stream.length → ¬ FillsAt format stream block := fun block below fills =>
      clears block (Nat.zero_le _) below ((fillsAt_within within below).mpr fills)
    by_cases early : stream.length < 1024 * (body.length / 1024)
    · rw [if_pos early] at answered
      exact .hangs ⟨stream, whole, within, early, clear⟩ fun ended => answered ended.of_bind
    · rw [if_neg early] at answered
      obtain ⟨last, given, success, same⟩ := answered
      refine .recovers stream whole within clear early (given.bind ?_)
      rw [success, same]
      exact gives_pure.mpr rfl

/-- Nothing can be read after a seek past the end, and the buffer never fills. -/
theorem inflateBody_endless (inflates : inflater.Inflates format) {src : InputStream} (failed : src.fail = true)
    (unended : src.eof = false) : ¬ (inflateBody inflater src).Ends := by
  have rest : inflateBody inflater src = (do
      let state ← inflateAll inflater ⟨src, ⟨inflater.inflateInit2.2, [], [], zOk⟩, false⟩
      if !state.success then throws "Unexpected end of compressed stream" else pure state.zs.dest) :=
    if_neg (not_not.mpr inflates.initialized)
  rw [rest]
  intro ended
  refine absurd ended.of_bind (loop_endless_of_body fun ended => refill_endless failed unended ended.of_bind)

/-- A body begins with one whole stream at most. -/
theorem whole_unique_in {body first second : Bytes} (whole : format.Whole first) (other : format.Whole second)
    (within : first <+: body) (inside : second <+: body) : first = second := by
  rcases List.prefix_or_prefix_of_prefix within inside with shorter | longer
  · exact format.whole_unique whole other shorter
  · exact (format.whole_unique other whole longer).symm

private theorem inflateBody_ends_iff (inflates : inflater.Inflates format) (body : Bytes) :
    (inflateBody inflater ⟨body, false, false⟩).Ends ↔ ¬ EndsEarly format body := by
  rcases inflateBody_decompressed inflates body with
    ⟨error, thrown, blocked⟩ | ⟨early, endless⟩ | ⟨stream, whole, within, clear, inTime, given⟩
  · refine iff_of_true thrown.ends fun ⟨stream, whole, within, _, clear⟩ => ?_
    obtain ⟨block, below, fills⟩ := blocked stream whole within
    exact clear block below fills
  · exact iff_of_false endless (not_not.mpr early)
  · refine iff_of_true given.ends fun ⟨other, isWhole, inside, early, _⟩ => ?_
    rw [whole_unique_in isWhole whole inside within] at early
    exact inTime early

private theorem gzipDecompress_ends_iff (inflates : inflater.Inflates format) (bytes : Bytes) :
    (gzipDecompress inflater dummies bytes).Ends ↔ DecompressionEnds format dummies bytes := by
  have header : Agrees At (gzipHeader dummies ⟨bytes, false, false⟩) (headerOf dummies bytes) := agrees_gzipHeader
  rw [DecompressionEnds, bodyOf]
  match expected : headerOf dummies bytes with
  | .ok (some body) =>
    rw [expected] at header
    obtain ⟨src, given, rfl⟩ := header
    exact given.bind_ends.trans (inflateBody_ends_iff inflates body)
  | .ok none =>
    rw [expected] at header
    obtain ⟨src, given, failed, unended⟩ := header
    refine iff_of_false (fun ended => ?_) nofun
    exact inflateBody_endless inflates failed unended (given.bind_ends.mp ended)
  | .error .throws =>
    rw [expected] at header
    obtain ⟨error, thrown⟩ := header
    exact iff_of_true thrown.bind_error.ends rfl
  | .error .endless =>
    rw [expected] at header
    exact iff_of_false (fun ended => header ended.of_bind) nofun

/-- What zlib made of a source is decompressed to it again, unless the end of the stream is
met with less than eight bytes of the trailer in the last block, or a block decodes to a full buffer. -/
theorem recovered_iff (inflates : inflater.Inflates format) {source stream trailer : Bytes} (length : trailer.length = 8)
    (whole : format.Whole stream) (decoded : format.decoded stream = source) :
    (gzipDecompress inflater dummies (gzipPreamble ++ (stream ++ trailer))).Gives (.ok source) ↔ Recovered format stream := by
  have header : (gzipHeader dummies ⟨gzipPreamble ++ (stream ++ trailer), false, false⟩).Gives
      (.ok ⟨stream ++ trailer, false, false⟩) := ⟨0, rfl⟩
  refine header.bind_iff.trans ?_
  have within : stream <+: stream ++ trailer := List.prefix_append _ _
  have size : (stream ++ trailer).length = stream.length + 8 := by rw [List.length_append, length]
  rcases inflateBody_decompressed inflates (stream ++ trailer) with
    ⟨error, thrown, blocked⟩ | ⟨⟨other, isWhole, inside, early, clear⟩, endless⟩ | ⟨other, isWhole, inside, clear, inTime, given⟩
  · refine iff_of_false (fun given => nomatch thrown.unique given) fun ⟨_, clear⟩ => ?_
    obtain ⟨block, below, fills⟩ := blocked stream whole within
    exact clear block below fills
  · obtain rfl := whole_unique_in isWhole whole inside within
    refine iff_of_false (fun given => endless given.ends) fun ⟨enough, _⟩ => ?_
    omega
  · obtain rfl := whole_unique_in isWhole whole inside within
    rw [decoded] at given
    exact iff_of_true given ⟨by omega, clear⟩

/-- Decompression ends exactly when the header is read to its end and the stream does not
end before the last full block, and it inverts compression exactly when the stream leaves
the trailer to the last block and never fills the buffer with the end of a block. -/
theorem gzip_ends_and_inverts_iff (inflates : inflater.Inflates format) (dummies : Dummies) :
    (∀ bytes, (gzipDecompress inflater dummies bytes).Ends ↔ DecompressionEnds format dummies bytes) ∧
    ∀ (deflater : Deflater) (source stream : Bytes), deflater.Compresses inBlockSize outBlockSize source stream →
      format.Whole stream → format.decoded stream = source →
      ((∃ compressed, (gzipCompress deflater source).Gives (.ok compressed) ∧
        (gzipDecompress inflater dummies compressed).Gives (.ok source)) ↔ Recovered format stream) := by
  refine ⟨fun bytes => gzipDecompress_ends_iff inflates bytes, fun deflater source stream compresses whole decoded => ?_⟩
  obtain ⟨trailer, length, given⟩ := gives_gzipCompress compresses
  have recovers : (gzipDecompress inflater dummies (gzipPreamble ++ (stream ++ trailer))).Gives (.ok source) ↔
      Recovered format stream := recovered_iff inflates length whole decoded
  rw [← recovers]
  constructor
  · rintro ⟨compressed, gives, recovered⟩
    cases given.unique gives
    exact recovered
  · intro recovered
    exact ⟨_, given, recovered⟩

def letter : Bytes := [0x61]

def letterStream : Bytes := [0x4B, 4, 0]

/-- The code of the letter ends in the second byte. -/
def letterDecoded (taken : Bytes) : Bytes := if letterStream.take 2 <+: taken then letter else []

def letterFormat : StreamFormat where
  decoded := letterDecoded
  Whole stream := stream = letterStream
  decoded_nil := by decide
  whole_nil := by decide
  decoded_mono {first longer} within := by
    unfold letterDecoded
    split
    next coded => simp only [if_pos (coded.trans within), List.prefix_refl]
    next => exact List.nil_prefix
  whole_unique first other _ := first.trans other.symm

def letterDeflater : Deflater where
  Stream := Unit
  deflateInit2 := (zOk, ⟨⟩)
  deflate _ input finish _ :=
    { code := if finish then zStreamEnd else zOk, taken := input.length, given := if finish then letterStream else [], stream := ⟨⟩ }

/-- What is decoded of the input, once so much of the stream was taken. -/
def letterGiven (taken input : Bytes) : Bytes := if letterDecoded taken = [] then letterDecoded (taken ++ input) else []

/-- What is held between calls is what was taken of the stream. Without room nothing is done. -/
def letterInflate (taken input : Bytes) (room : Nat) : Progress Bytes :=
  if taken = letterStream then { code := zStreamEnd, taken := 0, given := [], stream := letterStream }
  else if letterStream <+: taken ++ input ∧ 0 < room then
    { code := zStreamEnd, taken := 3 - taken.length, given := letterGiven taken input, stream := letterStream }
  else if input ≠ [] ∧ taken ++ input <+: letterStream ∧ 0 < room then
    { code := zOk, taken := input.length, given := letterGiven taken input, stream := taken ++ input }
  else { code := -5, taken := 0, given := [], stream := taken }

abbrev letterInflater : Inflater where
  Stream := Bytes
  inflateInit2 := (zOk, [])
  inflate := letterInflate

private theorem letterDecoded_append (taken input : Bytes) :
    letterDecoded taken ++ letterGiven taken input = letterDecoded (taken ++ input) := by
  unfold letterGiven
  split
  next none => rw [none, List.nil_append]
  next some_ =>
    have coded : letterStream.take 2 <+: taken := by
      by_contra short
      exact some_ (if_neg short)
    rw [List.append_nil, letterDecoded, letterDecoded, if_pos coded, if_pos (coded.trans (List.prefix_append _ _))]

private theorem letterGiven_length (taken input : Bytes) : (letterGiven taken input).length ≤ 1 := by
  have most : ∀ bytes, (letterDecoded bytes).length ≤ 1 := by
    intro bytes
    unfold letterDecoded
    split <;> decide
  unfold letterGiven
  split
  next => exact most _
  next => exact Nat.zero_le _

private theorem letterDecoded_whole {bytes : Bytes} (whole : letterStream <+: bytes) : letterDecoded bytes = letter :=
  if_pos ((List.take_prefix 2 letterStream).trans whole)

private theorem letterInflate_cases {taken : Bytes} (unfinished : taken ≠ letterStream) (input : Bytes) (room : Nat) :
    (letterStream <+: taken ++ input ∧ 0 < room ∧ letterInflater.inflate taken input room =
      { code := zStreamEnd, taken := 3 - taken.length, given := letterGiven taken input, stream := letterStream }) ∨
    (¬ letterStream <+: taken ++ input ∧ input ≠ [] ∧ taken ++ input <+: letterStream ∧ 0 < room ∧
      letterInflater.inflate taken input room =
        { code := zOk, taken := input.length, given := letterGiven taken input, stream := taken ++ input }) ∨
    ((0 < room → ¬ letterStream <+: taken ++ input ∧ (taken ++ input <+: letterStream → input = [])) ∧
      letterInflater.inflate taken input room = { code := -5, taken := 0, given := [], stream := taken }) := by
  by_cases ended : letterStream <+: taken ++ input ∧ 0 < room
  · exact .inl ⟨ended.1, ended.2, (if_neg unfinished).trans (if_pos ended)⟩
  · by_cases beginning : input ≠ [] ∧ taken ++ input <+: letterStream ∧ 0 < room
    · refine .inr (.inl ⟨fun whole => ended ⟨whole, beginning.2.2⟩, beginning.1, beginning.2.1, beginning.2.2, ?_⟩)
      exact (if_neg unfinished).trans ((if_neg ended).trans (if_pos beginning))
    · refine .inr (.inr ⟨fun roomy => ⟨fun whole => ended ⟨whole, roomy⟩, fun within => ?_⟩, ?_⟩)
      · exact Classical.not_not.mp fun some_ => beginning ⟨some_, within, roomy⟩
      · exact (if_neg unfinished).trans ((if_neg ended).trans (if_neg beginning))

private theorem letterInflater_finished : letterInflater.Finished letterStream := fun _ _ => ⟨rfl, rfl, rfl, rfl⟩

/-- Until the end is reported, the stream holds all that was taken. -/
theorem letterInflater_reached {taken given : Bytes} {stream : letterInflater.Stream}
    (reached : letterInflater.Reached taken given stream) :
    given = letterDecoded taken ∧ stream = taken ∧ taken <+: letterStream ∧ taken ≠ letterStream := by
  induction reached with
  | start => exact ⟨by decide, rfl, List.nil_prefix, by decide⟩
  | @more taken given stream input room reached ok induction =>
    obtain ⟨rfl, rfl, -, unfinished⟩ := induction
    rcases letterInflate_cases unfinished input room with ⟨-, -, ran⟩ | ⟨short, -, within, -, ran⟩ | ⟨-, ran⟩
    · rw [ran] at ok
      cases ok
    · rw [ran, List.take_length]
      exact ⟨letterDecoded_append _ _, rfl, within, fun same => short (same ▸ List.prefix_refl _)⟩
    · rw [ran] at ok
      cases ok

private theorem letterInflater_step {taken given : Bytes} {stream : letterInflater.Stream}
    (reached : letterInflater.Reached taken given stream) {input : Bytes} {room : Nat}
    (ok : (letterInflater.inflate stream input room).code = zOk) :
    ¬ letterStream <+: taken ++ input ∧ input ≠ [] ∧ (letterInflater.inflate stream input room).taken = input.length ∧
      given ++ (letterInflater.inflate stream input room).given = letterDecoded (taken ++ input) := by
  obtain ⟨rfl, rfl, -, unfinished⟩ := letterInflater_reached reached
  rcases letterInflate_cases unfinished input room with ⟨-, -, ran⟩ | ⟨short, some_, -, -, ran⟩ | ⟨-, ran⟩
  · rw [ran] at ok
    cases ok
  · exact ⟨short, some_, by rw [ran], by rw [ran]; exact letterDecoded_append _ _⟩
  · rw [ran] at ok
    cases ok

theorem letterInflater_inflates : letterInflater.Inflates letterFormat where
  initialized := rfl
  takes (stream : Bytes) input room := by
    by_cases finished : stream = letterStream
    · subst finished
      exact Nat.zero_le _
    · rcases letterInflate_cases finished input room with ⟨ended, -, ran⟩ | ⟨-, -, -, -, ran⟩ | ⟨-, ran⟩
      · rw [ran]
        have bound := ended.length_le
        rw [List.length_append] at bound
        exact Nat.sub_le_of_le_add (by rw [Nat.add_comm]; exact bound)
      · rw [ran]
      · rw [ran]
        exact Nat.zero_le _
  fits (stream : Bytes) input room := by
    by_cases finished : stream = letterStream
    · subst finished
      exact Nat.zero_le _
    · rcases letterInflate_cases finished input room with ⟨-, roomy, ran⟩ | ⟨-, -, -, roomy, ran⟩ | ⟨-, ran⟩
      · rw [ran]
        exact (letterGiven_length stream input).trans roomy
      · rw [ran]
        exact (letterGiven_length stream input).trans roomy
      · rw [ran]
        exact Nat.zero_le _
  codes (stream : Bytes) input room nonneg := by
    by_cases finished : stream = letterStream
    · subst finished
      exact .inr rfl
    · rcases letterInflate_cases finished input room with ⟨-, -, ran⟩ | ⟨-, -, -, -, ran⟩ | ⟨-, ran⟩
      · exact .inr (by rw [ran])
      · exact .inl (by rw [ran])
      · rw [ran] at nonneg
        cases nonneg
  progresses reached ok := by
    obtain ⟨-, some_, took, -⟩ := letterInflater_step reached ok
    rw [took]
    exact .inl (List.length_pos_iff.mpr some_)
  decodes reached ok := by
    obtain ⟨-, -, took, gave⟩ := letterInflater_step reached ok
    rw [took, List.take_length, gave]
    exact List.prefix_refl _
  fully reached ok := by
    obtain ⟨-, -, took, gave⟩ := letterInflater_step reached ok
    exact .inr ⟨took, gave⟩
  stops reached ok whole within := by
    obtain ⟨short, -, took, -⟩ := letterInflater_step reached ok
    rw [took, List.take_length] at within
    exact absurd (whole ▸ within) short
  ends {taken given stream input room} reached ended := by
    obtain ⟨rfl, rfl, within, unfinished⟩ := letterInflater_reached reached
    rcases letterInflate_cases unfinished input room with ⟨whole, -, ran⟩ | ⟨-, -, -, -, ran⟩ | ⟨-, ran⟩
    · rw [ran]
      have same := List.prefix_iff_eq_take.mp whole
      rw [List.take_append, List.take_of_length_le within.length_le] at same
      refine ⟨same.symm, ?_, letterInflater_finished⟩
      have all : letterDecoded (stream ++ input.take (3 - stream.length)) = letter :=
        letterDecoded_whole (same ▸ List.prefix_refl _)
      exact (letterDecoded_append stream input).trans ((letterDecoded_whole whole).trans all.symm)
    · rw [ran] at ended
      cases ended
    · rw [ran] at ended
      cases ended
  fails {taken given stream input room whole} reached roomy failed isWhole before comparable := by
    obtain ⟨rfl, rfl, -, unfinished⟩ := letterInflater_reached reached
    obtain rfl : whole = letterStream := isWhole
    rcases letterInflate_cases unfinished input room with ⟨-, -, ran⟩ | ⟨-, -, -, -, ran⟩ | ⟨nothing, -⟩
    · rw [ran] at failed
      cases failed
    · rw [ran] at failed
      cases failed
    · exact ⟨(nothing roomy).2 (comparable.resolve_right (nothing roomy).1), rfl, unfinished⟩

private theorem letterDeflater_compresses : letterDeflater.Compresses inBlockSize outBlockSize letter letterStream :=
  ⟨rfl, .last (by decide) (by decide)⟩

/-- One letter is compressed and decompressed. -/
theorem gzip_inverts_letter :
    (∀ bytes, (gzipDecompress letterInflater ⟨0, 0⟩ bytes).Ends ↔ DecompressionEnds letterFormat ⟨0, 0⟩ bytes) ∧
    ((∃ compressed, (gzipCompress letterDeflater letter).Gives (.ok compressed) ∧
      (gzipDecompress letterInflater ⟨0, 0⟩ compressed).Gives (.ok letter)) ↔ Recovered letterFormat letterStream) ∧
    Recovered letterFormat letterStream :=
  have right := gzip_ends_and_inverts_iff letterInflater_inflates ⟨0, 0⟩
  have small : ∀ block, ¬ 1024 * (block + 1) < letterStream.length := fun block below => by
    have three : letterStream.length = 3 := rfl
    omega
  ⟨right.1, right.2 letterDeflater letter letterStream letterDeflater_compresses rfl (by decide), by decide,
    fun block below => absurd below (small block)⟩

/-- A header whose name does not end is read forever. -/
theorem gzip_unended_name : letterInflater.Inflates letterFormat ∧
    ¬ (gzipDecompress letterInflater ⟨0, 0⟩ [0x1F, 0x8B, 0x08, 0x08, 0, 0, 0, 0, 0, 0, 0x41]).Ends := by
  refine ⟨letterInflater_inflates, fun ended => ?_⟩
  rw [gzipDecompress_ends_iff letterInflater_inflates] at ended
  exact absurd (show Stop.endless = .throws from ended) nofun

end Slate
