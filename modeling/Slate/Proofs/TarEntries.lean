import Slate.Tar

/-! When what is taken from a tar archive is what its headers describe. -/

namespace Slate
open Library Execution

def ownSize (h : Bytes) : Option Int := scanSize (headerField h sizeOffset sizeLength)

/-- A number of bytes in whole blocks. -/
def paddedSize (size : Nat) : Nat := if size % 512 = 0 then size else size + (512 - size % 512)

/-- The entries are those of a stream, one after the other from its beginning. Each has a header with
its own size, and its contents are the bytes that follow the header; what is no regular file has none. -/
inductive EntriesFrom : Bytes → List TarEntry → Prop
  | done {rest : Bytes} : EntriesFrom rest []
  | skip {rest : Bytes} {entries : List TarEntry} (whole : headerSize ≤ rest.length)
      (empty : isEmptyHeader (rest.take headerSize) = true) (more : EntriesFrom (rest.drop headerSize) entries) :
      EntriesFrom rest entries
  | entry {rest : Bytes} {taken : TarEntry} {entries : List TarEntry} {size : Nat} (whole : headerSize ≤ rest.length)
      (header : taken.header = rest.take headerSize) (something : isEmptyHeader taken.header = false)
      (own : ownSize taken.header = some (size : Int)) (used : taken.size = size)
      (inside : size ≤ (rest.drop headerSize).length)
      (contents : if headerType taken.header = .regularFile then taken.record.data = (rest.drop headerSize).take size
        else size = 0)
      (more : EntriesFrom ((rest.drop headerSize).drop (paddedSize size)) entries) :
      EntriesFrom rest (taken :: entries)

/-- A header that is refused, whatever a variable holds that nothing was stored in. -/
def refuses (h : Bytes) : Bool :=
  (headerProblem h ((scanSize (h.drop sizeOffset)).getD 0)).isSome ||
    (headerType h == .regularFile && (scanSize (h.drop sizeOffset)).getD 0 < 0)

/-- The field for the size has a number that is not negative and ends in it, and as many bytes follow,
none unless the file is a regular one. -/
structure SoundHeader (h rest : Bytes) (size : Nat) : Prop where
  own : ownSize h = some (size : Int)
  ends : scanSize (h.drop sizeOffset) = some (size : Int)
  contents : if headerType h = .regularFile then size ≤ rest.length else size = 0

theorem SoundHeader.inside {h rest : Bytes} {size : Nat} (sound : SoundHeader h rest size) : size ≤ rest.length := by
  have enough := sound.contents
  split at enough
  · exact enough
  · exact enough ▸ Nat.zero_le _

/-- Read from its beginning, a stream has headers that are empty or sound, up to one that is refused or
that is not all there. -/
inductive RightStream : Bytes → Prop
  | short {rest : Bytes} (short : rest.length < headerSize) : RightStream rest
  | empty {rest : Bytes} (whole : headerSize ≤ rest.length) (empty : isEmptyHeader (rest.take headerSize) = true)
      (more : RightStream (rest.drop headerSize)) : RightStream rest
  | refused {rest : Bytes} (whole : headerSize ≤ rest.length) (something : isEmptyHeader (rest.take headerSize) = false)
      (refused : refuses (rest.take headerSize) = true) : RightStream rest
  | sound {rest : Bytes} {size : Nat} (whole : headerSize ≤ rest.length)
      (something : isEmptyHeader (rest.take headerSize) = false) (accepted : refuses (rest.take headerSize) = false)
      (sound : SoundHeader (rest.take headerSize) (rest.drop headerSize) size)
      (more : RightStream ((rest.drop headerSize).drop (paddedSize size))) : RightStream rest

/-- What callers get for a name is what was taken under that name. -/
def TarReader.OfEntries (reader : TarReader) : Prop :=
  ∀ name record, reader.files.lookup name = some record →
    ∃ taken ∈ reader.entries, headerName taken.header = name ∧ taken.record = record

/-- Where a stream is; nothing can be read from one that is not good. -/
def StandsAt (src : InputStream) (rest : Bytes) : Prop := src = ⟨rest, false, false⟩ ∨ src.good = false ∧ rest = []

theorem StandsAt.whole {src : InputStream} {rest : Bytes} (there : StandsAt src rest) {count : Nat} (some_ : 0 < count)
    (whole : count ≤ rest.length) : src = ⟨rest, false, false⟩ := by
  rcases there with same | ⟨-, empty⟩
  · exact same
  · rw [empty] at whole
    exact absurd (Nat.le_zero.mp whole) some_.ne'

/-- Where there is no header left to read, there is none afterwards either. -/
theorem StandsAt.read_short {src : InputStream} {rest : Bytes} (there : StandsAt src rest) (short : rest.length < headerSize) :
    ((src.read headerSize).2.eof || (src.read headerSize).2.fail) = true ∧ StandsAt (src.read headerSize).2 [] := by
  rcases there with rfl | ⟨bad, rfl⟩
  · rw [InputStream.read_short short]
    exact ⟨rfl, Or.inr ⟨rfl, rfl⟩⟩
  · have read : src.read headerSize = ([], { src with fail := true }) := by
      rw [InputStream.read, bad]
      rfl
    rw [read]
    refine ⟨Bool.or_true _, Or.inr ⟨?_, rfl⟩⟩
    rw [InputStream.good]
    exact Bool.and_false _

theorem getBytes_enough : ∀ {count : Nat} {rest : Bytes}, count ≤ rest.length →
    getBytes count ⟨rest, false, false⟩ = (rest.take count, ⟨rest.drop count, false, false⟩) := by
  intro count
  induction count with
  | zero => exact fun _ => rfl
  | succ count ih =>
    intro rest enough
    cases rest with
    | nil => exact absurd enough (by simp)
    | cons byte rest =>
      rw [getBytes, InputStream.get_cons]
      simp only [ih (Nat.le_of_succ_le_succ enough)]
      rfl

private theorem get_rest_le (src : InputStream) (before : UInt8) : (src.get before).2.rest.length ≤ src.rest.length := by
  rw [InputStream.get]
  split
  · split
    next => exact Nat.zero_le _
    next same =>
      rw [same]
      exact Nat.le_succ _
  · exact Nat.le_refl _

private theorem getBytes_rest_le (count : Nat) : ∀ src : InputStream,
    (getBytes count src).2.rest.length ≤ src.rest.length := by
  induction count with
  | zero => exact fun _ => Nat.le_refl _
  | succ count ih => exact fun src => (ih (src.get 0xFF).2).trans (get_rest_le src 0xFF)

private theorem ignore_rest_le (src : InputStream) (count : Nat) : (src.ignore count).rest.length ≤ src.rest.length := by
  rw [InputStream.ignore]
  split
  · split
    · rw [List.length_drop]
      exact Nat.sub_le _ _
    · exact Nat.zero_le _
  · exact Nat.le_refl _

private theorem skipPadding_rest_le (size : Int) (src : InputStream) :
    (skipPadding size src).rest.length ≤ src.rest.length := by
  rw [skipPadding]
  split
  · exact ignore_rest_le _ _
  · exact Nat.le_refl _

/-- After contents that are there the stream is at the next block, if there is one. -/
theorem skipPadding_at {rest : Bytes} {size : Nat} (inside : size ≤ rest.length) :
    StandsAt (skipPadding size ⟨rest.drop size, false, false⟩) (rest.drop (paddedSize size)) := by
  have remainder : (size : Int).tmod 512 = (size % 512 : Nat) := (Int.ofNat_tmod size 512).symm
  rw [skipPadding, remainder, paddedSize]
  by_cases whole : size % 512 = 0
  · rw [if_neg (by omega), if_pos whole]
    exact Or.inl rfl
  · rw [if_pos (by omega), if_neg whole, InputStream.ignore]
    have count : (512 - ((size % 512 : Nat) : Int)).toNat = 512 - size % 512 := by omega
    rw [if_pos (show InputStream.good ⟨rest.drop size, false, false⟩ = true from rfl), count]
    split
    · left
      rw [List.drop_drop]
    · next short =>
      right
      refine ⟨rfl, List.drop_eq_nil_of_le ?_⟩
      rw [List.length_drop] at short
      omega

/-- The size that is used when there was another one before. -/
def usedSize (h : Bytes) (before : Int) : Int := (scanSize (h.drop sizeOffset)).getD before

private theorem usedSize_none {h : Bytes} {before : Int} (none_ : scanSize (h.drop sizeOffset) = none) :
    usedSize h before = before := by
  rw [usedSize, none_]
  rfl

theorem usedSize_some {h : Bytes} {before size : Int} (some_ : scanSize (h.drop sizeOffset) = some size) :
    usedSize h before = size := by
  rw [usedSize, some_]
  rfl

/-- Only sizes that are too large make a header worse. -/
theorem headerProblem_none {h : Bytes} {size other : Int} (accepted : headerProblem h size = none)
    (bound : other ≤ 0x1FFFFFFFF) : headerProblem h other = none := by
  unfold headerProblem at accepted ⊢
  grind

private theorem refuses_any {h : Bytes} (refused : refuses h = true) (before : Int) :
    headerProblem h (usedSize h before) ≠ none ∨ headerType h = .regularFile ∧ usedSize h before < 0 := by
  rw [refuses, Bool.or_eq_true, Bool.and_eq_true, Option.isSome_iff_ne_none, beq_iff_eq, decide_eq_true_eq] at refused
  cases scanned : scanSize (h.drop sizeOffset) with
  | none =>
    rw [scanned] at refused
    rcases refused with problem | ⟨-, negative⟩
    · exact Or.inl fun accepted => problem (headerProblem_none accepted (by decide))
    · exact absurd negative (by decide)
  | some size =>
    rw [scanned] at refused
    rw [usedSize_some scanned]
    exact refused

private theorem refuses_none {h : Bytes} (accepted : refuses h = false) {before : Int} (nonneg : 0 ≤ before)
    (bound : before ≤ 0x1FFFFFFFF) :
    headerProblem h (usedSize h before) = none ∧ ¬ (headerType h = .regularFile ∧ usedSize h before < 0) := by
  rw [refuses, Bool.or_eq_false_iff, Option.isSome_eq_false_iff, Option.isNone_iff_eq_none, Bool.and_eq_false_iff,
    beq_eq_false_iff_ne, decide_eq_false_iff_not] at accepted
  obtain ⟨noProblem, nonnegative⟩ := accepted
  cases scanned : scanSize (h.drop sizeOffset) with
  | none =>
    rw [scanned] at noProblem
    rw [usedSize_none scanned]
    exact ⟨headerProblem_none noProblem bound, fun ⟨_, negative⟩ => absurd nonneg (Int.not_le.mpr negative)⟩
  | some size =>
    rw [scanned] at noProblem nonnegative
    rw [usedSize_some scanned]
    exact ⟨noProblem, fun ⟨regular, negative⟩ => nonnegative.elim (· regular) (· negative)⟩

private theorem takeWhile_mono {first longer : Bytes} (begins : first <+: longer) (wanted : UInt8 → Bool) :
    first.takeWhile wanted <+: longer.takeWhile wanted := by
  obtain ⟨more, rfl⟩ := begins
  rw [List.takeWhile_append]
  split
  · exact ((List.takeWhile_prefix wanted).trans (List.prefix_append first _))
  · exact List.prefix_refl _

private theorem dropWhile_mono {first longer : Bytes} (begins : first <+: longer) {unwanted : UInt8 → Bool}
    (left : first.dropWhile unwanted ≠ []) : first.dropWhile unwanted <+: longer.dropWhile unwanted := by
  obtain ⟨more, rfl⟩ := begins
  rw [List.dropWhile_append, if_neg (by simpa using left)]
  exact List.prefix_append _ _

/-- What is left of a text where its number may begin. -/
def numberText (text : Bytes) : Bytes := (text.takeWhile (· != 0)).dropWhile isSpaceByte

def hasSign (text : Bytes) : Bool := text.head? == some 0x2D || text.head? == some 0x2B

def octalDigits (text : Bytes) : Bytes :=
  (if hasSign (numberText text) then (numberText text).tail else numberText text).takeWhile isOctal

private theorem scanOctal_none {text : Bytes} : scanOctal text = none ↔ octalDigits text = [] := by
  rw [scanOctal]
  change (if octalDigits text = [] then none else _) = none ↔ _
  split
  next empty => simp only [empty]
  next some_ => simp only [some_, reduceCtorEq]

private theorem octalDigits_mono {first longer : Bytes} (begins : first <+: longer) (some_ : octalDigits first ≠ []) :
    octalDigits longer ≠ [] := by
  have left : numberText first ≠ [] := by
    intro empty
    exact some_ (by rw [octalDigits, empty]; rfl)
  have more : numberText first <+: numberText longer := dropWhile_mono (takeWhile_mono begins _) left
  have digits : octalDigits first <+: octalDigits longer := by
    rw [octalDigits, octalDigits]
    apply takeWhile_mono
    obtain ⟨rest, same⟩ := more
    rw [← same]
    cases number : numberText first with
    | nil => exact absurd number left
    | cons byte bytes =>
      rw [show hasSign (byte :: bytes ++ rest) = hasSign (byte :: bytes) from rfl]
      split
      · exact List.prefix_append bytes rest
      · exact List.prefix_append (byte :: bytes) rest
  exact fun none_ => some_ (List.prefix_nil.mp (none_ ▸ digits))

/-- Where the field has a number, a number is read. -/
theorem scanSize_of_ownSize {h : Bytes} {size : Int} (own : ownSize h = some size) :
    scanSize (h.drop sizeOffset) ≠ none := by
  intro none_
  have noDigits := scanOctal_none.mp (Option.map_eq_none_iff.mp none_)
  refine octalDigits_mono (List.take_prefix sizeLength (h.drop sizeOffset)) (fun empty => ?_) noDigits
  have missing : ownSize h = none := by
    rw [ownSize, headerField, scanSize, scanOctal_none.mpr empty]
    rfl
  exact absurd (missing.symm.trans own) nofun

section
variable {target h rest : Bytes} {garbage : Uninitialized} {pass : TarPass}

/-- What is thrown leaves the reader as it was after the header. -/
theorem readEntry_problem {message : String} (problem : headerProblem h (usedSize h pass.size) = some message) :
    readEntry target garbage h pass = throws (message, pass.reader) := by
  rw [usedSize] at problem
  rw [readEntry]
  dsimp only
  rw [problem]

private theorem readEntry_unfiled {message : String} (noProblem : headerProblem h (usedSize h pass.size) = none)
    (unfiled : fileRecord h (usedSize h pass.size) ((scanMode (h.drop modeOffset)).getD garbage.mode) pass.reader.src =
      .error message) : readEntry target garbage h pass = throws (message, pass.reader) := by
  rw [usedSize] at noProblem unfiled
  rw [readEntry]
  dsimp only
  rw [noProblem]
  dsimp only
  rw [unfiled]

/-- The entry is inserted, and the loop is left if its file is wanted. -/
def Takes (target : Bytes) (garbage : Uninitialized) (h : Bytes) (pass : TarPass) (record : FileRecord)
    (src : InputStream) : Prop :=
  readEntry target garbage h pass =
    let reader := pass.reader.insertFile h (usedSize h pass.size) record (skipPadding (usedSize h pass.size) src)
    pure (if headerName h = target ∨ target = [] then .done (headerName h, reader)
      else .again ⟨reader, usedSize h pass.size, 0⟩)

theorem readEntry_takes {record : FileRecord} {src : InputStream} (noProblem : headerProblem h (usedSize h pass.size) = none)
    (filed : fileRecord h (usedSize h pass.size) ((scanMode (h.drop modeOffset)).getD garbage.mode) pass.reader.src =
      .ok (record, src)) : Takes target garbage h pass record src := by
  rw [usedSize] at noProblem filed
  rw [Takes, usedSize, readEntry]
  dsimp only
  rw [noProblem]
  dsimp only
  rw [filed]

private theorem readEntry_refused (refused : refuses h = true) :
    ∃ message, readEntry target garbage h pass = throws (message, pass.reader) := by
  cases problem : headerProblem h (usedSize h pass.size) with
  | some message => exact ⟨message, readEntry_problem problem⟩
  | none =>
    obtain ⟨regular, negative⟩ := (refuses_any refused pass.size).resolve_left (not_not_intro problem)
    refine ⟨"basic_string::_M_create", readEntry_unfiled problem ?_⟩
    rw [fileRecord, regular]
    exact if_pos negative

private theorem fileRecord_rest_le {size mode : Int} {src after : InputStream} {record : FileRecord}
    (filed : fileRecord h size mode src = .ok (record, after)) : after.rest.length ≤ src.rest.length := by
  unfold fileRecord at filed
  split at filed
  · split at filed
    · cases filed
    · cases filed
      exact getBytes_rest_le _ _
  · cases filed
    exact Nat.le_refl _
  · cases filed
    exact Nat.le_refl _

private theorem fileRecord_ok {h : Bytes} {size mode : Int} {src : InputStream}
    (nonnegative : ¬ (headerType h = .regularFile ∧ size < 0)) :
    ∃ record after, fileRecord h size mode src = .ok (record, after) := by
  unfold fileRecord
  split
  next regular =>
    rw [if_neg fun negative => nonnegative ⟨regular, negative⟩]
    exact ⟨_, _, rfl⟩
  next => exact ⟨_, _, rfl⟩
  next => exact ⟨_, _, rfl⟩

/-- A header is refused, or its entry is taken and nothing is put back into the stream. -/
theorem readEntry_cases (target : Bytes) (garbage : Uninitialized) (h : Bytes) (pass : TarPass) :
    (∃ message, readEntry target garbage h pass = throws (message, pass.reader)) ∨
    ∃ record src, Takes target garbage h pass record src ∧ src.rest.length ≤ pass.reader.src.rest.length := by
  cases problem : headerProblem h (usedSize h pass.size) with
  | some message => exact Or.inl ⟨message, readEntry_problem problem⟩
  | none =>
    cases filed : fileRecord h (usedSize h pass.size) ((scanMode (h.drop modeOffset)).getD garbage.mode)
        pass.reader.src with
    | error message => exact Or.inl ⟨message, readEntry_unfiled problem filed⟩
    | ok filed_ => exact Or.inr ⟨filed_.1, filed_.2, readEntry_takes problem filed, fileRecord_rest_le filed⟩

/-- The contents of a sound header's file are the bytes after it. -/
theorem fileRecord_sound {size : Nat} {mode : Int} (sound : SoundHeader h rest size) :
    ∃ record, fileRecord h size mode ⟨rest, false, false⟩ = .ok (record, ⟨rest.drop size, false, false⟩) ∧
      if headerType h = .regularFile then record.data = rest.take size else size = 0 := by
  have contents := sound.contents
  unfold fileRecord
  split
  next regular =>
    rw [if_pos regular] at contents
    refine ⟨⟨.regularFile, rest.take size, mode⟩, ?_, by rw [if_pos regular]⟩
    rw [if_neg (Int.not_lt.mpr (Int.natCast_nonneg size)), Int.toNat_natCast, getBytes_enough contents]
  next link =>
    have irregular : headerType h ≠ .regularFile := by
      rw [link]
      decide
    rw [if_neg irregular] at contents
    subst contents
    exact ⟨_, rfl, by rw [if_neg irregular]⟩
  next type irregular _ =>
    rw [if_neg irregular] at contents
    subst contents
    exact ⟨_, rfl, by rw [if_neg irregular]⟩

/-- What is taken for a sound header is what it describes, and leaves the stream after it. -/
theorem readEntry_sound {size : Nat} (accepted : refuses h = false) (sound : SoundHeader h rest size)
    (good : pass.reader.src = ⟨rest, false, false⟩) :
    ∃ (taken : TarEntry) (reader : TarReader), taken.header = h ∧ taken.size = size ∧
      (if headerType h = .regularFile then taken.record.data = rest.take size else size = 0) ∧
      reader.entries = pass.reader.entries ++ [taken] ∧ StandsAt reader.src (rest.drop (paddedSize size)) ∧
      readEntry target garbage h pass = pure (if headerName h = target ∨ target = [] then .done (headerName h, reader)
        else .again ⟨reader, size, 0⟩) := by
  have used : ∀ before, usedSize h before = size := fun before => usedSize_some sound.ends
  have noProblem : headerProblem h (usedSize h pass.size) = none := by
    rw [used, ← used 0]
    exact (refuses_none accepted (Int.le_refl 0) (by decide)).1
  obtain ⟨record, filed, contents⟩ :=
    @fileRecord_sound h rest size ((scanMode (h.drop modeOffset)).getD garbage.mode) sound
  have takes : Takes target garbage h pass record ⟨rest.drop size, false, false⟩ :=
    readEntry_takes noProblem (by rw [used, good, filed])
  rw [Takes, used] at takes
  exact ⟨⟨h, size, record⟩, _, rfl, rfl, contents, rfl, skipPadding_at sound.inside, takes⟩

end

def resumeCalls : List (Bytes × Uninitialized) → TarPass → Execution TarThrown TarReader
  | [], pass => pure pass.reader
  | (target, garbage) :: calls, pass => do
    let (_, reader) ← loop (readPass target garbage) pass
    readCalls calls reader

/-- A call begins with what its variable for sizes happens to hold. -/
def firstPass (calls : List (Bytes × Uninitialized)) (reader : TarReader) : TarPass :=
  ⟨reader, (calls.head?.map (·.2.size)).getD 0, 0⟩

theorem readCalls_eq (calls : List (Bytes × Uninitialized)) (reader : TarReader) :
    readCalls calls reader = resumeCalls calls (firstPass calls reader) := by
  cases calls with
  | nil => rfl
  | cons call calls => rfl

section
variable {target : Bytes} {garbage : Uninitialized} {calls : List (Bytes × Uninitialized)} {pass : TarPass}
  {outcome : Except TarThrown TarReader}

private theorem resumeCalls_throws {thrown : TarThrown} (body : readPass target garbage pass = throws thrown) :
    (resumeCalls ((target, garbage) :: calls) pass).Gives outcome ↔ outcome = .error thrown := by
  have given : (resumeCalls ((target, garbage) :: calls) pass).Gives (.error thrown) :=
    Gives.bind_error (Gives.loop_error (by rw [body, gives_throws]))
  constructor
  · exact fun again => again.unique given
  · rintro rfl
    exact given

theorem resumeCalls_done {name : Bytes} {reader : TarReader}
    (body : readPass target garbage pass = pure (.done (name, reader))) :
    (resumeCalls ((target, garbage) :: calls) pass).Gives outcome ↔
      (resumeCalls calls (firstPass calls reader)).Gives outcome := by
  rw [← readCalls_eq]
  have last : (readPass target garbage pass).Gives (.ok (.done (name, reader))) := by rw [body, gives_pure]
  exact Gives.bind_iff (Gives.loop_done last)

theorem resumeCalls_again {after : TarPass} (body : readPass target garbage pass = pure (.again after)) :
    (resumeCalls ((target, garbage) :: calls) pass).Gives outcome ↔
      (resumeCalls ((target, garbage) :: calls) after).Gives outcome := by
  have goesOn : ∀ result, (loop (readPass target garbage) pass).Gives result ↔
      (loop (readPass target garbage) after).Gives result :=
    fun result => Gives.loop_iff (by rw [body, gives_pure])
  change (_ >>= _ : Execution TarThrown TarReader).Gives outcome ↔ (_ >>= _ : Execution TarThrown TarReader).Gives outcome
  rw [gives_bind, gives_bind]
  simp only [goesOn]

end

section
variable {target rest : Bytes} {garbage : Uninitialized} {pass : TarPass}

/-- A header that is not all there ends the call. -/
theorem readPass_short (there : StandsAt pass.reader.src rest) (short : rest.length < headerSize) :
    ∃ reader, readPass target garbage pass = pure (.done ([], reader)) ∧ reader.entries = pass.reader.entries ∧
      reader.files = pass.reader.files ∧ StandsAt reader.src [] := by
  obtain ⟨ended, after⟩ := there.read_short short
  refine ⟨{ pass.reader with src := (pass.reader.src.read headerSize).2, fileEnded := true }, ?_, rfl, rfl, after⟩
  rw [readPass]
  dsimp only
  rw [if_pos ended]

theorem readPass_whole (good : pass.reader.src = ⟨rest, false, false⟩) (whole : headerSize ≤ rest.length) :
    readPass target garbage pass =
      let reader := { pass.reader with src := ⟨rest.drop headerSize, false, false⟩ }
      if isEmptyHeader (rest.take headerSize) then
        if pass.nEmpty + 1 = 2 then pure (.done ([], { reader with fileEnded := true }))
        else pure (.again { pass with reader, nEmpty := pass.nEmpty + 1 })
      else readEntry target garbage (rest.take headerSize) { pass with reader } := by
  rw [readPass, good, InputStream.read_enough whole]
  rfl

end

/-- What was taken stays, and so does what became of it. -/
structure Grows (before after : TarReader) : Prop where
  entries : before.entries <+: after.entries
  files : before.OfEntries → after.OfEntries

theorem Grows.of_same {before after : TarReader} (entries : after.entries = before.entries)
    (files : after.files = before.files) : Grows before after where
  entries := ⟨[], by rw [entries, List.append_nil]⟩
  files kept name record found := by
    rw [files] at found
    rw [entries]
    exact kept name record found

theorem Grows.trans {first second third : TarReader} (grows : Grows first second) (more : Grows second third) :
    Grows first third :=
  ⟨grows.entries.trans more.entries, more.files ∘ grows.files⟩

theorem Grows.insertFile (reader : TarReader) (h : Bytes) (size : Int) (record : FileRecord) (src : InputStream) :
    Grows reader (reader.insertFile h size record src) where
  entries := List.prefix_append _ _
  files kept name other found := by
    rw [TarReader.insertFile] at found ⊢
    dsimp only at found ⊢
    have before : ∀ other, reader.files.lookup name = some other →
        ∃ taken ∈ reader.entries ++ [⟨h, size, record⟩], headerName taken.header = name ∧ taken.record = other := by
      intro other found
      obtain ⟨taken, mem, right⟩ := kept name other found
      exact ⟨taken, List.mem_append_left _ mem, right⟩
    split at found
    · exact before other found
    · rw [FiniteMap.lookup_insert] at found
      split at found
      next same =>
        cases found
        exact ⟨⟨h, size, record⟩, List.mem_append_right _ (List.mem_singleton_self _), same.symm, rfl⟩
      next => exact before other found

def finalReader : Except TarThrown TarReader → TarReader
  | .ok reader => reader
  | .error (_, reader) => reader

/-- A pass leaves the loop, or there is less to read after it. -/
theorem readPass_cases (target : Bytes) (garbage : Uninitialized) (pass : TarPass) :
    (∃ thrown, readPass target garbage pass = throws thrown ∧ Grows pass.reader thrown.2) ∨
    (∃ name reader, readPass target garbage pass = pure (.done (name, reader)) ∧ Grows pass.reader reader) ∨
    ∃ after, readPass target garbage pass = pure (.again after) ∧ Grows pass.reader after.reader ∧
      after.reader.src.rest.length < pass.reader.src.rest.length := by
  by_cases good : pass.reader.src.good = true ∧ headerSize ≤ pass.reader.src.rest.length
  · obtain ⟨good, whole⟩ := good
    have same : pass.reader.src = ⟨pass.reader.src.rest, false, false⟩ := by
      rw [InputStream.good, Bool.and_eq_true, Bool.not_eq_true', Bool.not_eq_true'] at good
      exact congrArg₂ (InputStream.mk pass.reader.src.rest) good.1 good.2
    have less : (pass.reader.src.rest.drop headerSize).length < pass.reader.src.rest.length := by
      rw [List.length_drop]
      exact Nat.sub_lt (Nat.lt_of_lt_of_le (by decide) whole) (by decide)
    rw [readPass_whole same whole]
    dsimp only
    split
    · split
      · exact Or.inr (Or.inl ⟨_, _, rfl, Grows.of_same rfl rfl⟩)
      · exact Or.inr (Or.inr ⟨_, rfl, Grows.of_same rfl rfl, less⟩)
    · rcases readEntry_cases target garbage (pass.reader.src.rest.take headerSize)
        { pass with reader := { pass.reader with src := ⟨pass.reader.src.rest.drop headerSize, false, false⟩ } } with
        ⟨message, problem⟩ | ⟨record, src, takes, shorter⟩
      · exact Or.inl ⟨_, problem, Grows.of_same rfl rfl⟩
      · right
        rw [Takes] at takes
        rw [takes]
        have grows : ∀ size src, Grows pass.reader (TarReader.insertFile
            { pass.reader with src := ⟨pass.reader.src.rest.drop headerSize, false, false⟩ }
            (pass.reader.src.rest.take headerSize) size record src) :=
          fun size src => (Grows.of_same rfl rfl).trans (Grows.insertFile _ _ size record src)
        split
        · exact Or.inl ⟨_, _, rfl, grows _ _⟩
        · exact Or.inr ⟨_, rfl, grows _ _, (skipPadding_rest_le _ _).trans_lt (Nat.lt_of_le_of_lt shorter less)⟩
  · have ended : ((pass.reader.src.read headerSize).2.eof || (pass.reader.src.read headerSize).2.fail) = true := by
      rw [InputStream.read]
      split
      next whole =>
        rw [if_neg fun enough => good ⟨whole, enough⟩]
        rfl
      next => exact Bool.or_true _
    refine Or.inr (Or.inl ⟨[], { pass.reader with src := (pass.reader.src.read headerSize).2, fileEnded := true }, ?_,
      Grows.of_same rfl rfl⟩)
    rw [readPass]
    dsimp only
    rw [if_pos ended]

private theorem resumeCalls_total (calls : List (Bytes × Uninitialized)) : ∀ pass : TarPass,
    ∃ outcome, (resumeCalls calls pass).Gives outcome ∧ Grows pass.reader (finalReader outcome) := by
  induction calls with
  | nil => exact fun pass => ⟨.ok pass.reader, gives_pure.mpr rfl, Grows.of_same rfl rfl⟩
  | cons call calls later =>
    obtain ⟨target, garbage⟩ := call
    intro pass
    induction left : pass.reader.src.rest.length using Nat.strongRecOn generalizing pass with
    | ind left again =>
      subst left
      rcases readPass_cases target garbage pass with ⟨thrown, body, grows⟩ | ⟨name, reader, body, grows⟩ |
        ⟨after, body, grows, less⟩
      · exact ⟨.error thrown, (resumeCalls_throws body).mpr rfl, grows⟩
      · obtain ⟨outcome, given, more⟩ := later (firstPass calls reader)
        exact ⟨outcome, (resumeCalls_done body).mpr given, grows.trans more⟩
      · obtain ⟨outcome, given, more⟩ := again _ less after rfl
        exact ⟨outcome, (resumeCalls_again body).mpr given, grows.trans more⟩

section
variable {rest : Bytes}

/-- An entry for a sound header is the first of those that begin there. -/
theorem EntriesFrom.sound {taken : TarEntry} {entries : List TarEntry} {size : Nat} (whole : headerSize ≤ rest.length)
    (something : isEmptyHeader (rest.take headerSize) = false)
    (sound : SoundHeader (rest.take headerSize) (rest.drop headerSize) size) (header : taken.header = rest.take headerSize)
    (used : taken.size = size)
    (contents : if headerType (rest.take headerSize) = .regularFile then
      taken.record.data = (rest.drop headerSize).take size else size = 0)
    (more : EntriesFrom ((rest.drop headerSize).drop (paddedSize size)) entries) :
    EntriesFrom rest (taken :: entries) := by
  rw [← header] at something sound contents
  exact .entry whole header something sound.own used sound.inside contents more

/-- Nothing is taken where there is nothing to read. -/
theorem resumeCalls_short (calls : List (Bytes × Uninitialized)) : ∀ {pass : TarPass} {rest : Bytes} {reader : TarReader},
    StandsAt pass.reader.src rest → rest.length < headerSize → (resumeCalls calls pass).Gives (.ok reader) →
    reader.entries = pass.reader.entries := by
  induction calls with
  | nil =>
    intro pass rest reader _ _ given
    cases gives_pure.mp given
    rfl
  | cons call calls later =>
    intro pass rest reader there short given
    obtain ⟨ended, body, entries, -, after⟩ := @readPass_short call.1 _ call.2 _ there short
    exact (later after (by decide) ((resumeCalls_done body).mp given)).trans entries

/-- In a stream that is right everything is taken from where it is. -/
theorem RightStream.entries (right : RightStream rest) : ∀ {calls : List (Bytes × Uninitialized)} {pass : TarPass}
    {reader : TarReader}, StandsAt pass.reader.src rest → (resumeCalls calls pass).Gives (.ok reader) →
    ∃ new, reader.entries = pass.reader.entries ++ new ∧ EntriesFrom rest new := by
  have stops : ∀ {rest : Bytes} {pass : TarPass} {reader : TarReader}, (resumeCalls [] pass).Gives (.ok reader) →
      ∃ new, reader.entries = pass.reader.entries ++ new ∧ EntriesFrom rest new := by
    intro rest pass reader given
    cases gives_pure.mp given
    exact ⟨[], (List.append_nil _).symm, .done⟩
  induction right with
  | short short =>
    intro calls pass reader there given
    exact ⟨[], (resumeCalls_short calls there short given).trans (List.append_nil _).symm, .done⟩
  | empty whole empty more ih =>
    intro calls pass reader there given
    rcases calls with _ | ⟨⟨target, garbage⟩, calls⟩
    · exact stops given
    have body : readPass target garbage pass = _ := readPass_whole (there.whole (by decide) whole) whole
    rw [empty, if_pos rfl] at body
    dsimp only at body
    by_cases second : pass.nEmpty + 1 = 2
    · rw [if_pos second] at body
      obtain ⟨new, entries, from_⟩ := ih (Or.inl rfl) ((resumeCalls_done body).mp given)
      exact ⟨new, entries, .skip whole empty from_⟩
    · rw [if_neg second] at body
      obtain ⟨new, entries, from_⟩ := ih (Or.inl rfl) ((resumeCalls_again body).mp given)
      exact ⟨new, entries, .skip whole empty from_⟩
  | refused whole something refused =>
    intro calls pass reader there given
    rcases calls with _ | ⟨⟨target, garbage⟩, calls⟩
    · exact stops given
    have body : readPass target garbage pass = _ := readPass_whole (there.whole (by decide) whole) whole
    rw [something, if_neg Bool.false_ne_true] at body
    obtain ⟨message, problem⟩ := readEntry_refused refused
    cases (resumeCalls_throws (body.trans problem)).mp given
  | @sound rest size whole something accepted sound more ih =>
    intro calls pass reader there given
    rcases calls with _ | ⟨⟨target, garbage⟩, calls⟩
    · exact stops given
    have body : readPass target garbage pass = _ := readPass_whole (there.whole (by decide) whole) whole
    rw [something, if_neg Bool.false_ne_true] at body
    obtain ⟨taken, between, header, used, contents, entries, after, takes⟩ :=
      @readEntry_sound target _ _ garbage { pass with reader := { pass.reader with src := ⟨rest.drop headerSize, false, false⟩ } }
        _ accepted sound rfl
    have later : ∃ new, reader.entries = between.entries ++ new ∧
        EntriesFrom ((rest.drop headerSize).drop (paddedSize size)) new := by
      have body := body.trans takes
      split at body
      · exact ih after ((resumeCalls_done body).mp given)
      · exact ih after ((resumeCalls_again body).mp given)
    obtain ⟨new, more, from_⟩ := later
    refine ⟨taken :: new, ?_, .sound whole something sound header used contents from_⟩
    rw [more, entries, List.append_assoc]
    rfl

private theorem EntriesFrom.of_empty {entries : List TarEntry} (from_ : EntriesFrom rest entries)
    (empty : isEmptyHeader (rest.take headerSize) = true) :
    EntriesFrom (rest.drop headerSize) entries := by
  cases from_ with
  | done => exact .done
  | skip _ _ more => exact more
  | entry _ header something =>
    rw [header, empty] at something
    cases something

/-- What an entry that begins a stream says of its header. -/
theorem EntriesFrom.of_something {taken : TarEntry} {entries : List TarEntry} (from_ : EntriesFrom rest (taken :: entries))
    (something : isEmptyHeader (rest.take headerSize) = false) (header : taken.header = rest.take headerSize)
    (used : taken.size = usedSize (rest.take headerSize) 0) :
    ∃ size, SoundHeader (rest.take headerSize) (rest.drop headerSize) size ∧
      EntriesFrom ((rest.drop headerSize).drop (paddedSize size)) entries := by
  cases from_ with
  | skip _ empty => exact absurd (something.symm.trans empty) nofun
  | @entry _ _ _ size _ _ _ own taken_ inside contents more =>
    rw [header] at own contents
    refine ⟨size, ⟨own, ?_, ?_⟩, more⟩
    · cases scanned : scanSize ((rest.take headerSize).drop sizeOffset) with
      | none => exact absurd scanned (scanSize_of_ownSize own)
      | some other =>
        rw [usedSize_some scanned, taken_] at used
        rw [← used]
    · split at contents
      next regular =>
        rw [if_pos regular]
        exact inside
      next irregular =>
        rw [if_neg irregular]
        exact contents

/-- Calls for one file after the other, each with nothing in its variables. -/
def nextCalls (count : Nat) : List (Bytes × Uninitialized) := List.replicate count ([], ⟨0, 0⟩)

/-- A header is sound if the entry that is taken for it is one of the stream. -/
theorem sound_of_entries {pass : TarPass} (there : StandsAt pass.reader.src rest) (whole : headerSize ≤ rest.length)
    (something : isEmptyHeader (rest.take headerSize) = false) (accepted : refuses (rest.take headerSize) = false)
    (unset : pass.size = 0) (all : ∀ reader, (resumeCalls (nextCalls 1) pass).Gives (.ok reader) →
      ∃ new, reader.entries = pass.reader.entries ++ new ∧ EntriesFrom rest new) :
    ∃ size, SoundHeader (rest.take headerSize) (rest.drop headerSize) size := by
  have body : readPass [] ⟨0, 0⟩ pass = _ := readPass_whole (there.whole (by decide) whole) whole
  rw [something, if_neg Bool.false_ne_true] at body
  have used := @refuses_none _ accepted pass.size (by omega) (by omega)
  obtain ⟨record, src, filed⟩ := fileRecord_ok used.2
  have takes := @readEntry_takes [] _ ⟨0, 0⟩
    { pass with reader := { pass.reader with src := ⟨rest.drop headerSize, false, false⟩ } } _ _ used.1 filed
  rw [Takes] at takes
  dsimp only at takes
  rw [if_pos (Or.inr rfl)] at takes
  obtain ⟨new, entries, from_⟩ := all _ ((resumeCalls_done (body.trans takes)).mpr (gives_pure.mpr rfl))
  obtain rfl := List.append_cancel_left entries
  obtain ⟨size, sound, -⟩ := from_.of_something something rfl (by rw [unset])
  exact ⟨size, sound⟩

/-- Where everything is taken from where it is, the stream is right. -/
theorem rightStream_of_entries : ∀ {count : Nat} {rest : Bytes} {pass : TarPass}, rest.length = count →
    StandsAt pass.reader.src rest → pass.size = 0 →
    (∀ calls reader, (resumeCalls (nextCalls (calls + 1)) pass).Gives (.ok reader) →
      ∃ new, reader.entries = pass.reader.entries ++ new ∧ EntriesFrom rest new) → RightStream rest := by
  intro count
  induction count using Nat.strongRecOn with
  | ind count ih =>
    rintro rest pass rfl there unset all
    by_cases whole : headerSize ≤ rest.length
    case neg => exact .short (Nat.not_le.mp whole)
    have less : (rest.drop headerSize).length < rest.length := by
      rw [List.length_drop]
      exact Nat.sub_lt (Nat.lt_of_lt_of_le (by decide) whole) (by decide)
    have body : readPass [] ⟨0, 0⟩ pass = _ := readPass_whole (there.whole (by decide) whole) whole
    dsimp only at body
    cases empty : isEmptyHeader (rest.take headerSize) with
    | true =>
      refine .empty whole empty ?_
      rw [empty, if_pos rfl] at body
      by_cases second : pass.nEmpty + 1 = 2
      · rw [if_pos second] at body
        refine @ih _ less _ ⟨{ pass.reader with src := ⟨rest.drop headerSize, false, false⟩, fileEnded := true }, 0, 0⟩
          rfl (Or.inl rfl) rfl fun calls reader given => ?_
        obtain ⟨new, entries, from_⟩ := all (calls + 1) reader ((resumeCalls_done body).mpr given)
        exact ⟨new, entries, from_.of_empty empty⟩
      · rw [if_neg second] at body
        refine @ih _ less _ ⟨{ pass.reader with src := ⟨rest.drop headerSize, false, false⟩ }, pass.size, pass.nEmpty + 1⟩
          rfl (Or.inl rfl) unset fun calls reader given => ?_
        obtain ⟨new, entries, from_⟩ := all calls reader ((resumeCalls_again body).mpr given)
        exact ⟨new, entries, from_.of_empty empty⟩
    | false =>
      rw [empty, if_neg Bool.false_ne_true] at body
      cases refused : refuses (rest.take headerSize) with
      | true => exact .refused whole empty refused
      | false =>
        obtain ⟨size, sound⟩ := sound_of_entries there whole empty refused unset (all 0)
        obtain ⟨taken, between, header, used, -, entries, after, takes⟩ :=
          @readEntry_sound [] _ _ ⟨0, 0⟩ { pass with reader := { pass.reader with src := ⟨rest.drop headerSize, false, false⟩ } }
            _ refused sound rfl
        rw [if_pos (Or.inr rfl)] at takes
        refine .sound whole empty refused sound (@ih _ ?_ _ ⟨between, 0, 0⟩ rfl after rfl fun calls reader given => ?_)
        · rw [List.length_drop]
          exact (Nat.sub_le _ _).trans_lt less
        obtain ⟨new, more, from_⟩ := all (calls + 1) reader ((resumeCalls_done (body.trans takes)).mpr given)
        obtain ⟨outcome, again, grows⟩ := resumeCalls_total (nextCalls (calls + 1)) ⟨between, 0, 0⟩
        cases again.unique given
        obtain ⟨later, kept⟩ := grows.entries
        have same : new = taken :: later := by
          rw [finalReader, more, entries, List.append_assoc] at kept
          exact (List.append_cancel_left kept).symm
        rw [same] at from_
        obtain ⟨other, otherSound, from_⟩ := from_.of_something empty header (used.trans (usedSize_some sound.ends).symm)
        obtain rfl : other = size := Int.ofNat.inj (Option.some.inj (otherSound.own.symm.trans sound.own))
        exact ⟨later, kept.symm, from_⟩

end

def textBytes (text : String) : Bytes := text.toList.map fun c => UInt8.ofNat c.toNat

def filled (text : String) (length : Nat) : Bytes := textBytes text ++ List.replicate (length - text.length) 0

def loneHeader : Bytes :=
  filled "a" nameLength ++ filled "644" 8 ++ filled "0" 8 ++ filled "0" 8 ++ filled "1" sizeLength ++ filled "0" 12 ++
    filled "1360" checksumLength ++ filled "0" 356

end Slate
