import Slate.Proofs.GzipHeaders

/-! Decompression ends unless the header is read forever or a whole stream ends before the
last block that is read into a full buffer. -/

namespace Slate
open Library Execution

variable {zlib : Inflater} {format : StreamFormat} {taken given input body : Bytes} {stream : zlib.Stream}

/-- How much there is to give once all of the input was taken. -/
def gain (format : StreamFormat) (taken given input : Bytes) : Nat :=
  (format.decoded (taken ++ input)).length - given.length

/-- What comes of an input. An error is met in a stream only where it fills the buffer with
the last of its input. -/
def Inflated (zlib : Inflater) (format : StreamFormat) (taken given input : Bytes) :
    Except String (Inflation zlib) → Prop
  | .error _ => ∀ whole, format.Whole whole → taken <+: whole → (taken ++ input <+: whole ∨ whole <+: taken ++ input) →
    (taken ++ input <+: whole ∧ taken ++ input ≠ whole) ∧ gain format taken given input % decompSize = 0 ∧
      (input = [] ∨ 0 < gain format taken given input)
  | .ok zs =>
    (zs.result = zOk ∧ zs.input = [] ∧ zlib.Reached (taken ++ input) zs.dest zs.stream ∧
      zs.dest = format.decoded (taken ++ input) ∧ (∀ whole, format.Whole whole → ¬ whole <+: taken ++ input) ∧
      (gain format taken given input = 0 ∨ gain format taken given input % decompSize ≠ 0) ∧
      (input ≠ [] ∨ 0 < gain format taken given input)) ∨
    ∃ used ≤ input.length, zs.result = zStreamEnd ∧ zs.input = input.drop used ∧
      format.Whole (taken ++ input.take used) ∧ zs.dest = format.decoded (taken ++ input.take used) ∧
      zlib.Finished zs.stream

theorem decompSize_pos : 0 < decompSize := by decide

private theorem gives_inflateInput_error {zs : Inflation zlib} (failed : (zlib.inflate zs.stream zs.input decompSize).code < zOk) :
    (inflateInput zlib zs).Gives (.error (decompressionError (zlib.inflate zs.stream zs.input decompSize).code
      (zlib.inflate zs.stream zs.input decompSize).message)) := by
  refine Gives.loop_error ?_
  rw [if_pos failed]
  exact gives_throws.mpr rfl

theorem gives_inflateInput_last {zs : Inflation zlib} (ok : ¬ (zlib.inflate zs.stream zs.input decompSize).code < zOk)
    (roomy : (zlib.inflate zs.stream zs.input decompSize).given.length ≠ decompSize) :
    (inflateInput zlib zs).Gives (.ok (zs.after (zlib.inflate zs.stream zs.input decompSize))) := by
  refine Gives.loop_done ?_
  rw [if_neg ok, if_neg roomy]
  exact gives_pure.mpr rfl

private theorem gives_inflateInput_again {zs : Inflation zlib} {outcome : Except String (Inflation zlib)}
    (ok : ¬ (zlib.inflate zs.stream zs.input decompSize).code < zOk)
    (full : (zlib.inflate zs.stream zs.input decompSize).given.length = decompSize) :
    (inflateInput zlib zs).Gives outcome ↔
      (inflateInput zlib (zs.after (zlib.inflate zs.stream zs.input decompSize))).Gives outcome := by
  refine Gives.loop_iff ?_
  rw [if_neg ok, if_pos full]
  exact gives_pure.mpr rfl

/-- After the end of the stream the input is left alone. -/
theorem gives_inflateInput_finished {zs : Inflation zlib} (finished : zlib.Finished zs.stream) :
    (inflateInput zlib zs).Gives (.ok { zs with result := zStreamEnd }) := by
  obtain ⟨code, took, gave, same⟩ := finished zs.input decompSize
  have last : (inflateInput zlib zs).Gives _ := gives_inflateInput_last (by rw [code]; decide) (by rw [gave]; decide)
  rwa [Inflation.after, code, took, gave, same, List.drop_zero, List.append_nil] at last

private theorem given_within (inflates : zlib.Inflates format) (reached : zlib.Reached taken given stream)
    (ok : (zlib.inflate stream input decompSize).code = zOk) :
    given ++ (zlib.inflate stream input decompSize).given <+: format.decoded (taken ++ input) := by
  refine (inflates.decodes reached ok).trans (format.decoded_mono ?_)
  rw [List.prefix_append_right_inj]
  exact List.take_prefix _ _

/-- What a call gives is no longer there to give. -/
theorem gain_again (inflates : zlib.Inflates format) (reached : zlib.Reached taken given stream)
    (ok : (zlib.inflate stream input decompSize).code = zOk) :
    gain format taken given input = (zlib.inflate stream input decompSize).given.length +
      gain format (taken ++ input.take (zlib.inflate stream input decompSize).taken)
        (given ++ (zlib.inflate stream input decompSize).given)
        (input.drop (zlib.inflate stream input decompSize).taken) := by
  have whole : taken ++ input.take (zlib.inflate stream input decompSize).taken ++
      input.drop (zlib.inflate stream input decompSize).taken = taken ++ input := by
    rw [List.append_assoc, List.take_append_drop]
  have longer := (given_within inflates reached ok).length_le
  rw [List.length_append] at longer
  rw [gain, gain, whole, List.length_append]
  omega

/-- A call that leaves room took all of the input and gave all there was. -/
theorem Inflated.last (inflates : zlib.Inflates format) (reached : zlib.Reached taken given stream)
    (ok : (zlib.inflate stream input decompSize).code = zOk)
    (roomy : (zlib.inflate stream input decompSize).given.length ≠ decompSize) {result : Int} :
    Inflated zlib format taken given input
      (.ok (Inflation.after ⟨stream, input, given, result⟩ (zlib.inflate stream input decompSize))) := by
  rcases inflates.fully reached ok with ⟨full, -⟩ | ⟨all, everything⟩
  · exact absurd full roomy
  have fits := inflates.fits stream input decompSize
  have gained := gain_again inflates reached ok
  have more := reached.more ok
  rw [all, List.take_length] at more
  have none : gain format (taken ++ input) (given ++ (zlib.inflate stream input decompSize).given) [] = 0 := by
    rw [gain, List.append_nil, everything, Nat.sub_self]
  rw [all, List.take_length, List.drop_length, none, Nat.add_zero] at gained
  refine .inl ⟨ok, ?_, more, everything, ?_, ?_, ?_⟩
  · rw [Inflation.after, all, List.drop_length]
  · intro whole isWhole before
    have stopped := inflates.stops reached ok isWhole (by rwa [all, List.take_length])
    rw [all, List.take_length] at stopped
    obtain ⟨rfl, unfinished⟩ := stopped
    exact unfinished everything
  · rw [gained]
    by_cases none : (zlib.inflate stream input decompSize).given.length = 0
    · exact .inl none
    · refine .inr ?_
      rwa [Nat.mod_eq_of_lt (by omega)]
  · rcases inflates.progresses reached ok with took | gave
    · exact .inl (List.ne_nil_of_length_pos (by omega))
    · exact .inr (by rw [gained]; exact List.length_pos_iff.mpr gave)

/-- The step of `inflateInput_outcome` at a call that fills the buffer. -/
theorem Inflated.again (inflates : zlib.Inflates format) (reached : zlib.Reached taken given stream)
    (ok : (zlib.inflate stream input decompSize).code = zOk)
    (full : (zlib.inflate stream input decompSize).given.length = decompSize) {outcome : Except String (Inflation zlib)}
    (rest : Inflated zlib format (taken ++ input.take (zlib.inflate stream input decompSize).taken)
      (given ++ (zlib.inflate stream input decompSize).given)
      (input.drop (zlib.inflate stream input decompSize).taken) outcome) :
    Inflated zlib format taken given input outcome := by
  have gained := gain_again inflates reached ok
  rw [full] at gained
  have positive := decompSize_pos
  have took := inflates.takes stream input decompSize
  have split : taken ++ input.take (zlib.inflate stream input decompSize).taken ++
      input.drop (zlib.inflate stream input decompSize).taken = taken ++ input := by
    rw [List.append_assoc, List.take_append_drop]
  cases outcome with
  | error error =>
    intro whole isWhole before comparable
    have beginning : taken ++ input.take (zlib.inflate stream input decompSize).taken <+: taken ++ input := ⟨_, split⟩
    have still : taken ++ input.take (zlib.inflate stream input decompSize).taken <+: whole := by
      rcases comparable with shorter | longer
      · exact beginning.trans shorter
      · rcases List.prefix_or_prefix_of_prefix beginning longer with shorter | longer
        · exact shorter
        · exact (inflates.stops reached ok isWhole longer).1 ▸ List.prefix_refl _
    obtain ⟨stopped, fills, -⟩ := rest whole isWhole still (by rwa [split])
    rw [split] at stopped
    refine ⟨stopped, ?_, .inr (by omega)⟩
    rw [gained, Nat.add_mod_left]
    exact fills
  | ok zs =>
    rcases rest with ⟨code, none, more, all, unended, gains, progressed⟩ | ⟨used, le, code, left, isWhole, all, finished⟩
    · rw [split] at more all unended
      refine .inl ⟨code, none, more, all, unended, ?_, .inr (by omega)⟩
      rw [gained, Nat.add_mod_left]
      refine .inr (gains.resolve_left fun nothing => ?_)
      rcases inflates.fully reached ok with ⟨-, due⟩ | ⟨all, -⟩
      · have within := given_within inflates reached ok
        rw [gain, split] at nothing
        exact due (within.eq_of_length_le (by omega))
      · rw [all, List.drop_length] at progressed
        rcases progressed with some | some
        · exact some rfl
        · rw [all, List.drop_length] at nothing
          omega
    · refine .inr ⟨(zlib.inflate stream input decompSize).taken + used, ?_, code, ?_, ?_, ?_, finished⟩
      · rw [List.length_drop] at le
        omega
      · rw [left, List.drop_drop]
      · rwa [List.take_add, ← List.append_assoc]
      · rwa [List.take_add, ← List.append_assoc]

private theorem inflateInput_outcome (inflates : zlib.Inflates format) (reached : zlib.Reached taken given stream)
    (input : Bytes) (result : Int) :
    ∃ outcome, (inflateInput zlib ⟨stream, input, given, result⟩).Gives outcome ∧
      Inflated zlib format taken given input outcome := by
  induction left : input.length + gain format taken given input using Nat.strongRecOn
    generalizing taken given input stream result with
  | ind left induction =>
    subst left
    by_cases failed : (zlib.inflate stream input decompSize).code < zOk
    · refine ⟨_, gives_inflateInput_error failed, fun whole isWhole before comparable => ?_⟩
      obtain ⟨rfl, all, other⟩ := inflates.fails reached decompSize_pos failed isWhole before comparable
      rw [List.append_nil]
      refine ⟨⟨before, other⟩, ?_, .inl rfl⟩
      rw [gain, List.append_nil, ← all, Nat.sub_self, Nat.zero_mod]
    have took := inflates.takes stream input decompSize
    have fits := inflates.fits stream input decompSize
    rcases inflates.codes stream input decompSize (by simpa [zOk] using failed) with ok | ended
    · by_cases full : (zlib.inflate stream input decompSize).given.length = decompSize
      · have gained := gain_again inflates reached ok
        have positive := decompSize_pos
        have less : (input.drop (zlib.inflate stream input decompSize).taken).length +
            gain format (taken ++ input.take (zlib.inflate stream input decompSize).taken)
              (given ++ (zlib.inflate stream input decompSize).given)
              (input.drop (zlib.inflate stream input decompSize).taken) <
            input.length + gain format taken given input := by
          rw [List.length_drop]
          omega
        obtain ⟨outcome, gives, inflated⟩ := induction _ less (reached.more ok) _ (zlib.inflate stream input decompSize).code rfl
        exact ⟨outcome, (gives_inflateInput_again failed full).mpr gives, .again inflates reached ok full inflated⟩
      · exact ⟨_, gives_inflateInput_last failed full, .last inflates reached ok full⟩
    · obtain ⟨isWhole, all, finished⟩ := inflates.ends reached ended
      have right : Inflated zlib format taken given input
          (.ok { Inflation.after ⟨stream, input, given, result⟩ (zlib.inflate stream input decompSize) with
            result := zStreamEnd }) :=
        .inr ⟨_, took, rfl, rfl, isWhole, all, finished⟩
      refine ⟨_, ?_, right⟩
      by_cases full : (zlib.inflate stream input decompSize).given.length = decompSize
      · exact (gives_inflateInput_again failed full).mpr (gives_inflateInput_finished finished)
      · rw [← ended]
        exact gives_inflateInput_last failed full

theorem readBlockSize_pos : 0 < readBlockSize := by decide

private theorem gives_refill_full {rest : Bytes} (full : readBlockSize ≤ rest.length) :
    (refill ⟨rest, false, false⟩ []).Gives (.ok (⟨rest.drop readBlockSize, false, false⟩, rest.take readBlockSize)) := by
  have first : (refill ⟨rest, false, false⟩ []).Gives (.ok (⟨rest.drop readBlockSize, false, false⟩, rest.take readBlockSize)) ↔
      (refill ⟨rest.drop readBlockSize, false, false⟩ (rest.take readBlockSize)).Gives
        (.ok (⟨rest.drop readBlockSize, false, false⟩, rest.take readBlockSize)) := by
    refine Gives.loop_iff ?_
    simp [readBlockSize_pos, InputStream.read_enough full]
  refine first.mpr (Gives.loop_done ?_)
  simp [full]

private theorem gives_refill_eof {src : InputStream} {input : Bytes} (ended : src.eof = true) :
    (refill src input).Gives (.ok (src, input)) := by
  refine Gives.loop_done ?_
  simp [ended]

private theorem gives_refill_short {rest : Bytes} (short : rest.length < readBlockSize) :
    (refill ⟨rest, false, false⟩ []).Gives (.ok (⟨[], true, true⟩, rest)) := by
  have first : (refill ⟨rest, false, false⟩ []).Gives (.ok (⟨[], true, true⟩, rest)) ↔
      (refill ⟨[], true, true⟩ rest).Gives (.ok (⟨[], true, true⟩, rest)) := by
    refine Gives.loop_iff ?_
    simp [readBlockSize_pos, InputStream.read_short short]
  exact first.mpr (gives_refill_eof rfl)

/-- After a seek past the end there is nothing to read, and the end of the file is never met. -/
theorem refill_endless {src : InputStream} (failed : src.fail = true) (unended : src.eof = false) :
    ¬ (refill src []).Ends := by
  refine loop_endless (fun (state : InputStream × Bytes) =>
    state.1.fail = true ∧ state.1.eof = false ∧ state.2 = []) ?_ ⟨failed, unended, rfl⟩
  rintro ⟨src, input⟩ ⟨(failed : src.fail = true), (unended : src.eof = false), (rfl : input = [])⟩
  refine ⟨({ src with fail := true }, []), ?_, rfl, unended, rfl⟩
  simp [readBlockSize_pos, failed, unended]

/-- A pass over an input, and what it comes to. -/
theorem gives_pass {state after : Decompression zlib} {src : InputStream} {zs : Inflation zlib}
    (unfinished : state.success = false ∨ state.src.eof = false)
    (read : (nextInput state.src state.zs.input).Gives (.ok (src, input)))
    (inflated : (inflateInput zlib { state.zs with input }).Gives (.ok zs))
    (same : after = ⟨src, zs, state.success || zs.result == zStreamEnd⟩) (outcome : Except String (Decompression zlib)) :
    (inflateAll zlib state).Gives outcome ↔ (inflateAll zlib after).Gives outcome := by
  subst same
  refine Gives.loop_iff ?_
  rw [if_pos (by rcases unfinished with held | held <;> simp [held])]
  exact read.bind (inflated.bind (gives_pure.mpr rfl))

theorem gives_pass_error {state : Decompression zlib} {src : InputStream} {error : String}
    (unfinished : state.success = false ∨ state.src.eof = false)
    (read : (nextInput state.src state.zs.input).Gives (.ok (src, input)))
    (thrown : (inflateInput zlib { state.zs with input }).Gives (.error error)) :
    (inflateAll zlib state).Gives (.error error) := by
  refine Gives.loop_error ?_
  rw [if_pos (by rcases unfinished with held | held <;> simp [held])]
  exact read.bind thrown.bind_error

private theorem gives_inflateAll_done {state : Decompression zlib} (success : state.success = true)
    (ended : state.src.eof = true) : (inflateAll zlib state).Gives (.ok state) := by
  refine Gives.loop_done ?_
  simp [success, ended]

/-- All of the file was taken before a stream ended. -/
theorem gives_inflateAll_idle (state : Decompression zlib) (success : state.success = false)
    (ended : state.src.eof = true) (none : state.zs.input = [])
    (fails : (zlib.inflate state.zs.stream [] decompSize).code < 0) :
    ∃ error, (inflateAll zlib state).Gives (.error error) := by
  have read : (nextInput state.src state.zs.input).Gives (.ok (state.src, [])) := by
    rw [nextInput, none]
    exact gives_refill_eof ended
  exact ⟨_, gives_pass_error (.inl success) read (gives_inflateInput_error fails)⟩

/-- With input left after the end of the stream, nothing changes any more. -/
theorem inflateAll_endless {state : Decompression zlib} (unread : state.src.eof = false) (left : state.zs.input ≠ [])
    (finished : zlib.Finished state.zs.stream) : ¬ (inflateAll zlib state).Ends := by
  refine loop_endless (fun (state : Decompression zlib) =>
    state.src.eof = false ∧ state.zs.input ≠ [] ∧ zlib.Finished state.zs.stream) ?_ ⟨unread, left, finished⟩
  rintro state ⟨unread, left, finished⟩
  refine ⟨⟨state.src, { state.zs with result := zStreamEnd }, true⟩, ?_, unread, left, finished⟩
  rw [if_pos (by simp [unread])]
  have kept : (nextInput state.src state.zs.input).Gives (.ok (state.src, state.zs.input)) := by
    rw [nextInput, if_neg (by simpa using left)]
    exact gives_pure.mpr rfl
  refine kept.bind ((gives_inflateInput_finished finished).bind (gives_pure.mpr ?_))
  simp

/-- The end of the stream was met in a full buffer. -/
theorem inflateAll_finished (state : Decompression zlib) {rest : Bytes} (src : state.src = ⟨rest, false, false⟩)
    (finished : zlib.Finished state.zs.stream) :
    if state.zs.input ≠ [] ∨ readBlockSize ≤ rest.length then ¬ (inflateAll zlib state).Ends
    else ∃ last, (inflateAll zlib state).Gives (.ok last) ∧ last.success = true ∧ last.zs.dest = state.zs.dest := by
  have unread : state.src.eof = false := by rw [src]
  by_cases left : state.zs.input = []
  · have refilled {src : InputStream} {input : Bytes} (read : (refill state.src []).Gives (.ok (src, input))) :
        (nextInput state.src state.zs.input).Gives (.ok (src, input)) := by
      simpa [nextInput, left] using read
    split
    next more =>
      have full : readBlockSize ≤ rest.length := more.resolve_left (not_not.mpr left)
      have read := refilled (src ▸ gives_refill_full full)
      have pass := gives_pass (.inr unread) read (gives_inflateInput_finished finished) rfl
      rintro ⟨outcome, given⟩
      have after := (pass outcome).mp given
      refine absurd after.ends (inflateAll_endless ?_ ?_ finished)
      · rfl
      · refine List.ne_nil_of_length_pos ?_
        rw [List.length_take]
        have positive := readBlockSize_pos
        omega
    next none =>
      have short : rest.length < readBlockSize := by
        rw [not_or, Nat.not_le] at none
        exact none.2
      have read := refilled (src ▸ gives_refill_short short)
      refine ⟨_, (gives_pass (.inr unread) read (gives_inflateInput_finished finished) rfl _).mpr
        (gives_inflateAll_done ?_ rfl), ?_, rfl⟩
      · simp
      · simp
  · rw [if_pos (.inl left)]
    exact inflateAll_endless unread left finished

/-- A block decodes to a full buffer, or to several. The call after that finds nothing to do. -/
def FillsAt (format : StreamFormat) (body : Bytes) (block : Nat) : Prop :=
  let fill := (format.decoded (body.take (1024 * (block + 1)))).length - (format.decoded (body.take (1024 * block))).length
  0 < fill ∧ fill % decompSize = 0

/-- Before a block is read, when all the earlier ones were taken and decoded. -/
structure AtBlock (zlib : Inflater) (format : StreamFormat) (body : Bytes) (block : Nat) (state : Decompression zlib) :
    Prop where
  inside : 1024 * block ≤ body.length
  src : state.src = ⟨body.drop (1024 * block), false, false⟩
  input : state.zs.input = []
  success : state.success = false
  reached : zlib.Reached (body.take (1024 * block)) state.zs.dest state.zs.stream
  dest : state.zs.dest = format.decoded (body.take (1024 * block))
  unended : ∀ whole, format.Whole whole → ¬ whole <+: body.take (1024 * block)

/-- No whole stream is met without an error. -/
def Blocked (format : StreamFormat) (body : Bytes) (block : Nat) : Prop :=
  ∀ whole, format.Whole whole → whole <+: body →
    ∃ later ≥ block, 1024 * (later + 1) < whole.length ∧ FillsAt format body later

def Settled (zlib : Inflater) (format : StreamFormat) (body : Bytes) (block : Nat) (state : Decompression zlib) : Prop :=
  ((∃ error, (inflateAll zlib state).Gives (.error error)) ∧ Blocked format body block) ∨
  ∃ whole, format.Whole whole ∧ whole <+: body ∧
    (∀ later ≥ block, 1024 * (later + 1) < whole.length → ¬ FillsAt format body later) ∧
    if whole.length < 1024 * (body.length / 1024) then ¬ (inflateAll zlib state).Ends
    else ∃ last, (inflateAll zlib state).Gives (.ok last) ∧ last.success = true ∧ last.zs.dest = format.decoded whole

variable {state after : Decompression zlib} {block : Nat}

namespace AtBlock

theorem read (here : AtBlock zlib format body block state) :
    nextInput state.src state.zs.input = refill ⟨body.drop (1024 * block), false, false⟩ [] := by
  rw [nextInput, here.input, here.src]
  rfl

/-- The block that is read, after what was taken before. -/
theorem taken_append : body.take (1024 * block) ++ (body.drop (1024 * block)).take 1024 = body.take (1024 * (block + 1)) := by
  rw [← List.take_add]
  congr 1

theorem before (here : AtBlock zlib format body block state) {whole : Bytes} (isWhole : format.Whole whole)
    (inBody : whole <+: body) : body.take (1024 * block) <+: whole :=
  (List.prefix_or_prefix_of_prefix (List.take_prefix _ _) inBody).resolve_right (here.unended whole isWhole)

end AtBlock

/-- A pass after which the later blocks settle the run. -/
theorem Settled.of_pass (pass : ∀ outcome, (inflateAll zlib state).Gives outcome ↔ (inflateAll zlib after).Gives outcome)
    (clear : ¬ FillsAt format body block) (settled : Settled zlib format body (block + 1) after) :
    Settled zlib format body block state := by
  rcases settled with ⟨⟨error, thrown⟩, blocked⟩ | ⟨whole, isWhole, inBody, clears, answered⟩
  · refine .inl ⟨⟨error, (pass _).mpr thrown⟩, fun whole isWhole inBody => ?_⟩
    obtain ⟨later, ge, below, fills⟩ := blocked whole isWhole inBody
    exact ⟨later, by omega, below, fills⟩
  · refine .inr ⟨whole, isWhole, inBody, fun later ge below => ?_, ?_⟩
    · rcases Nat.eq_or_lt_of_le ge with rfl | gt
      · exact clear
      · exact clears later gt below
    · split
      next early =>
        rw [if_pos early] at answered
        rintro ⟨outcome, given⟩
        exact answered ⟨outcome, (pass outcome).mp given⟩
      next inTime =>
        rw [if_neg inTime] at answered
        obtain ⟨last, given, right⟩ := answered
        exact ⟨last, (pass _).mpr given, right⟩

private theorem settled_full (inflates : zlib.Inflates format) (here : AtBlock zlib format body block state)
    (full : 1024 * (block + 1) ≤ body.length)
    (onward : ∀ after, AtBlock zlib format body (block + 1) after → Settled zlib format body (block + 1) after) :
    Settled zlib format body block state := by
  have rest : (body.drop (1024 * block)).drop readBlockSize = body.drop (1024 * (block + 1)) := List.drop_drop
  have size : ((body.drop (1024 * block)).take 1024).length = 1024 := by
    rw [List.length_take, List.length_drop]
    omega
  have read : (nextInput state.src state.zs.input).Gives
      (.ok (⟨body.drop (1024 * (block + 1)), false, false⟩, (body.drop (1024 * block)).take 1024)) := by
    rw [here.read, ← rest]
    refine gives_refill_full ?_
    rw [List.length_drop, readBlockSize]
    omega
  have taken : body.take (1024 * block) ++ (body.drop (1024 * block)).take 1024 = body.take (1024 * (block + 1)) :=
    AtBlock.taken_append
  have gained : gain format (body.take (1024 * block)) state.zs.dest ((body.drop (1024 * block)).take 1024) =
      (format.decoded (body.take (1024 * (block + 1)))).length - (format.decoded (body.take (1024 * block))).length := by
    rw [gain, taken, here.dest]
  obtain ⟨outcome, gives, inflated⟩ :=
    inflateInput_outcome inflates here.reached ((body.drop (1024 * block)).take 1024) state.zs.result
  rcases outcome with error | zs
  · refine .inl ⟨⟨error, gives_pass_error (.inl here.success) read gives⟩, fun whole isWhole inBody => ?_⟩
    have comparable := List.prefix_or_prefix_of_prefix (List.take_prefix (1024 * (block + 1)) body) inBody
    rw [← taken] at comparable
    obtain ⟨⟨shorter, other⟩, fills, some⟩ := inflated whole isWhole (here.before isWhole inBody) comparable
    rw [taken] at shorter other
    refine ⟨block, Nat.le_refl _, ?_, ?_, ?_⟩
    · have le := shorter.length_le
      have ne : (body.take (1024 * (block + 1))).length ≠ whole.length := fun same => other (shorter.eq_of_length same)
      rw [List.length_take_of_le full] at le ne
      omega
    · rw [← gained]
      exact some.resolve_left (List.ne_nil_of_length_pos (by omega))
    · rwa [← gained]
  · obtain ⟨after, same⟩ : ∃ after : Decompression zlib, after =
        ⟨⟨body.drop (1024 * (block + 1)), false, false⟩, zs, state.success || zs.result == zStreamEnd⟩ := ⟨_, rfl⟩
    have pass := gives_pass (.inl here.success) read gives same
    rcases inflated with ⟨code, none, more, all, unended, gains, -⟩ | ⟨used, le, code, left, isWhole, all, finished⟩
    · refine .of_pass pass (fun fills => ?_) (onward _ ?_)
      · rw [gained] at gains
        rcases gains with nothing | other
        · have positive := fills.1
          omega
        · exact other fills.2
      · rw [taken] at more all unended
        subst same
        refine ⟨full, rfl, none, ?_, more, all, unended⟩
        simp [here.success, code, zOk, zStreamEnd]
    · have length : (body.take (1024 * block) ++ ((body.drop (1024 * block)).take 1024).take used).length =
          1024 * block + used := by
        rw [List.length_append, List.length_take_of_le here.inside, List.length_take_of_le le]
      refine .inr ⟨_, isWhole, ?_, ?_, ?_⟩
      · refine .trans ?_ (List.take_prefix (1024 * (block + 1)) body)
        rw [← taken, List.prefix_append_right_inj]
        exact List.take_prefix _ _
      · intro later ge below
        omega
      · have last := inflateAll_finished after (by rw [same]) (by rwa [same])
        rw [show after.zs = zs by rw [same], left] at last
        split
        next early =>
          rw [if_pos] at last
          · rintro ⟨outcome, given⟩
            exact last ⟨outcome, (pass outcome).mp given⟩
          · rw [List.length_drop, readBlockSize]
            by_cases ahead : used < 1024
            · exact .inl (List.ne_nil_of_length_pos (by rw [List.length_drop]; omega))
            · exact .inr (by omega)
        next inTime =>
          rw [if_neg] at last
          · obtain ⟨last, given, success, same⟩ := last
            exact ⟨last, (pass _).mpr given, success, same.trans all⟩
          · rw [List.length_drop, readBlockSize, ne_eq, List.drop_eq_nil_iff, size]
            omega

private theorem settled_short (inflates : zlib.Inflates format) (here : AtBlock zlib format body block state)
    (short : body.length < 1024 * (block + 1)) : Settled zlib format body block state := by
  have whole : body.take (1024 * block) ++ body.drop (1024 * block) = body := List.take_append_drop _ _
  have read : (nextInput state.src state.zs.input).Gives (.ok (⟨[], true, true⟩, body.drop (1024 * block))) := by
    rw [here.read]
    refine gives_refill_short ?_
    rw [List.length_drop, readBlockSize]
    omega
  obtain ⟨outcome, gives, inflated⟩ :=
    inflateInput_outcome inflates here.reached (body.drop (1024 * block)) state.zs.result
  rcases outcome with error | zs
  · refine .inl ⟨⟨error, gives_pass_error (.inl here.success) read gives⟩, fun stream isWhole inBody => ?_⟩
    obtain ⟨⟨shorter, other⟩, -⟩ := inflated stream isWhole (here.before isWhole inBody) (.inr (by rwa [whole]))
    rw [whole] at shorter other
    exact absurd (shorter.eq_of_length_le inBody.length_le) other
  · obtain ⟨after, same⟩ : ∃ after : Decompression zlib, after =
        ⟨⟨[], true, true⟩, zs, state.success || zs.result == zStreamEnd⟩ := ⟨_, rfl⟩
    have pass := gives_pass (.inl here.success) read gives same
    rcases inflated with ⟨code, none, more, all, unended, -⟩ | ⟨used, le, code, left, isWhole, all, finished⟩
    · rw [whole] at more all unended
      have unfinished : ¬ format.Whole body := fun isWhole => unended body isWhole (List.prefix_refl _)
      obtain ⟨error, thrown⟩ := gives_inflateAll_idle after (by simp [same, here.success, code, zOk, zStreamEnd])
        (by rw [same]) (by rw [same, none]) (by rw [same]; exact inflates.fails_idle more all unfinished _)
      exact .inl ⟨⟨error, (pass _).mpr thrown⟩, fun stream isWhole inBody => absurd inBody (unended stream isWhole)⟩
    · have length : (body.take (1024 * block) ++ (body.drop (1024 * block)).take used).length = 1024 * block + used := by
        rw [List.length_append, List.length_take_of_le here.inside, List.length_take_of_le le]
      refine .inr ⟨_, isWhole, ?_, ?_, ?_⟩
      · have longer := (List.prefix_append_right_inj (body.take (1024 * block))).mpr
          (List.take_prefix used (body.drop (1024 * block)))
        rwa [whole] at longer
      · intro later ge below
        rw [List.length_drop] at le
        omega
      · rw [if_neg (by omega)]
        have success : after.success = true := by simp [same, code]
        exact ⟨after, (pass _).mpr (gives_inflateAll_done success (by rw [same])), success, by rw [same, all]⟩

theorem inflateAll_settled (inflates : zlib.Inflates format) (here : AtBlock zlib format body block state) :
    Settled zlib format body block state := by
  induction left : body.length / 1024 + 1 - block generalizing block state with
  | zero =>
    have inside := here.inside
    omega
  | succ left induction =>
    by_cases full : 1024 * (block + 1) ≤ body.length
    · exact settled_full inflates here full fun after later => induction later (by omega)
    · exact settled_short inflates here (by omega)

end Slate
