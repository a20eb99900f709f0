import Slate.Proofs.Extractions
import Slate.Proofs.TarStreams

/-! When a tar reader gives back what a tar writer was given. -/

namespace Slate
open Library Execution

/-- A file as its name, its type, and its contents or the target of the link. -/
structure ArchivedFile where
  name : Bytes
  type : FileType
  data : Bytes
  deriving DecidableEq

/-- What an operation puts into an archive. -/
def TarOperation.archived : TarOperation → Option ArchivedFile
  | appendFile filepath data => some ⟨filepath, .regularFile, data⟩
  | appendDirectory path => some ⟨path, .directory, []⟩
  | appendSymLink filepath linkTarget => some ⟨filepath, .symbolicLink, linkTarget⟩
  | endStream => none

/-- The files that a reader gives one after the other, up to a call that gives none. The record of each
is taken and dropped. -/
inductive ReadsFiles (garbage : Nat → Uninitialized) : Nat → TarReader → List ArchivedFile → TarReader → Prop
  | done {calls : Nat} {reader after : TarReader} (read : (readFiles [] (garbage calls) reader).Gives (.ok ([], after))) :
      ReadsFiles garbage calls reader [] after
  | next {calls : Nat} {reader middle after : TarReader} {name : Bytes} {files : List ArchivedFile}
      (read : (readFiles [] (garbage calls) reader).Gives (.ok (name, middle))) (named : name ≠ [])
      (more : ReadsFiles garbage (calls + 1) (middle.dropFile name) files after) :
      ReadsFiles garbage calls reader (⟨name, (middle.fileAt name).type, (middle.fileAt name).data⟩ :: files) after

/-- All that is appended is read again, from headers with valid checksums. -/
def RoundTrips (operations : List (Owner × TarOperation)) : Prop :=
  ∀ garbage, ∃ after, ReadsFiles garbage 0 (tarReader (({} : TarWriter).run operations).destroy)
    (operations.filterMap fun request => request.2.archived) after ∧
    ∀ taken ∈ after.entries, checksumValid taken.header = true

/-- Something is appended under a name, and neither the name nor the target of a link has a NUL. -/
def TarOperation.Named : TarOperation → Prop
  | appendFile filepath _ => filepath ≠ [] ∧ 0 ∉ filepath
  | appendDirectory path => path ≠ [] ∧ 0 ∉ path
  | appendSymLink filepath linkTarget => (filepath ≠ [] ∧ 0 ∉ filepath) ∧ 0 ∉ linkTarget
  | endStream => False

/-- A name has a hundred bytes, or a slash before its last hundred bytes but not at its beginning that leaves
at most 155 before it. -/
def NameFits (name : Bytes) : Prop :=
  name.length ≤ 100 ∨ ¬ (name.length = 101 ∧ name[0]? = some slash) ∧
    ∃ i, name.length - 101 ≤ i ∧ i ≤ 155 ∧ name[i]? = some slash

/-- What comes back as it is: the size fits 32 bits, and a NUL fits behind the target of a link. -/
def TarOperation.Fits : TarOperation → Prop
  | appendFile filepath data => NameFits filepath ∧ data.length < 4294967296
  | appendDirectory path => NameFits path
  | appendSymLink filepath linkTarget => NameFits filepath ∧ linkTarget.length < 100
  | endStream => True

/-- What is printed of a number. -/
def octalNumeral (number : Nat) : Bytes := if number = 0 then [0x30] else octalText number

private theorem octal_byte {digit : Nat} (small : digit < 8) :
    isOctal (UInt8.ofNat (0x30 + digit)) = true ∧ octalDigit (UInt8.ofNat (0x30 + digit)) = digit := by
  interval_cases digit <;> exact ⟨rfl, rfl⟩

private theorem octalNumeral_digits (number : Nat) : ∀ c ∈ octalNumeral number, isOctal c = true := by
  intro c member
  unfold octalNumeral at member
  split at member
  next =>
    rw [List.mem_singleton.mp member]
    rfl
  next =>
    rw [octalText, List.mem_reverse] at member
    obtain ⟨digit, inside, rfl⟩ := List.mem_map.mp member
    exact (octal_byte (Nat.digits_lt_base (by decide) inside)).1

theorem octalNumeral_value (number : Nat) :
    (octalNumeral number).foldl (fun value digit => 8 * value + octalDigit digit) 0 = number := by
  unfold octalNumeral
  split
  next zero => exact zero.symm
  next =>
    rw [octalText, List.foldl_reverse, List.foldr_map]
    refine Eq.trans ?_ (Nat.ofDigits_digits 8 number)
    rw [Nat.ofDigits_eq_foldr]
    apply List.foldr_ext
    intro digit member value
    rw [(octal_byte (Nat.digits_lt_base (by decide) member)).2, Nat.add_comm]
    rfl

private theorem octalNumeral_length {number width : Nat} (positive : 0 < width) (small : number < 8 ^ width) :
    (octalNumeral number).length ≤ width := by
  unfold octalNumeral
  split
  · exact positive
  · rw [octalText_length]
    exact (Nat.digits_length_le_iff (by decide) number).mpr small

theorem sprintfOctal_eq (fill : UInt8) (width number : Nat) : sprintfOctal fill width number =
    List.replicate (width - (octalNumeral number).length) fill ++ octalNumeral number ++ [0] := rfl

theorem sprintfOctal_exact {fill : UInt8} {width number : Nat} (positive : 0 < width) (small : number < 8 ^ width) :
    (sprintfOctal fill width number).length = width + 1 := by
  have fits := octalNumeral_length positive small
  rw [sprintfOctal_eq, List.length_append, List.length_append, List.length_replicate, List.length_singleton]
  omega

theorem isOctal_ne {c other : UInt8} (octal : isOctal c = true) (low : other.toNat < 48) : c ≠ other := by
  rw [isOctal, Bool.and_eq_true, decide_eq_true_eq, UInt8.le_iff_toNat_le] at octal
  rintro rfl
  exact absurd octal.1 (Nat.not_le.mpr low)

private theorem isOctal_noSpace {c : UInt8} (octal : isOctal c = true) : isSpaceByte c = false := by
  have high : ¬ c ≤ 0x0D := by
    rw [isOctal, Bool.and_eq_true, decide_eq_true_eq, UInt8.le_iff_toNat_le] at octal
    rw [UInt8.le_iff_toNat_le]
    exact Nat.not_le.mpr (Nat.lt_of_lt_of_le (by decide) octal.1)
  rw [isSpaceByte, beq_false_of_ne (isOctal_ne octal (by decide)), decide_eq_false high, Bool.and_false]
  rfl

private theorem scanOctal_digits {digits rest : Bytes} (some_ : digits ≠ []) (octal : ∀ c ∈ digits, isOctal c = true)
    (small : digits.foldl (fun value digit => 8 * value + octalDigit digit) 0 < 2 ^ 64) :
    scanOctal (digits ++ 0 :: rest) = some (digits.foldl (fun value digit => 8 * value + octalDigit digit) 0) := by
  have plain : ∀ c ∈ digits, (c != 0) = true := fun c member => bne_iff_ne.mpr (isOctal_ne (octal c member) (by decide))
  have text : (digits ++ 0 :: rest).takeWhile (· != 0) = digits := by
    rw [List.takeWhile_append_of_pos plain, List.takeWhile_cons_of_neg (by decide), List.append_nil]
  obtain ⟨first, others, rfl⟩ := List.exists_cons_of_ne_nil some_
  have begins : isOctal first = true := octal first (.head _)
  have number : (first :: others).dropWhile isSpaceByte = first :: others :=
    List.dropWhile_cons_of_neg (by rw [isOctal_noSpace begins]; decide)
  have minus : ((first :: others).head? == some 0x2D) = false :=
    beq_false_of_ne fun same => isOctal_ne begins (by decide) (Option.some.inj same)
  have plus : ((first :: others).head? == some 0x2B) = false :=
    beq_false_of_ne fun same => isOctal_ne begins (by decide) (Option.some.inj same)
  rw [scanOctal]
  simp only [text, number, minus, plus, Bool.or_false, Bool.false_eq_true, if_false, List.takeWhile_eq_self_iff.mpr octal,
    reduceCtorEq, Nat.not_le.mpr small]

private theorem headerField_copyTo {h : Bytes} {offset : Nat} {text : Bytes} (room : offset ≤ h.length) :
    headerField (copyTo h offset text) offset text.length = text := by
  have before : (h.take offset).length = offset := by rw [List.length_take, Nat.min_eq_left room]
  rw [headerField, copyTo, List.append_assoc, List.drop_append_of_le_length (Nat.le_of_eq before.symm), List.drop_of_length_le (Nat.le_of_eq before),
    List.nil_append, List.take_left]

/-- Bytes that are not overwritten stay. -/
theorem copyTo_getElem? {h : Bytes} {offset i : Nat} {text : Bytes} (room : offset + text.length ≤ h.length)
    (apart : i < offset ∨ offset + text.length ≤ i) : (copyTo h offset text)[i]? = h[i]? := by
  have before : (h.take offset).length = offset := by rw [List.length_take, Nat.min_eq_left (by omega)]
  rw [copyTo, List.append_assoc]
  rcases apart with early | late
  · rw [List.getElem?_append_left (by omega), List.getElem?_take_of_lt early]
  · rw [List.getElem?_append_right (by omega), before, List.getElem?_append_right (by omega), List.getElem?_drop]
    congr 1
    omega

private theorem headerField_getElem? (h : Bytes) (offset length i : Nat) :
    (headerField h offset length)[i]? = if i < length then h[offset + i]? else none := by
  rw [headerField, List.getElem?_take, List.getElem?_drop]

theorem headerField_add (h : Bytes) (offset first second : Nat) :
    headerField h offset (first + second) = headerField h offset first ++ headerField h (offset + first) second := by
  rw [headerField, headerField, headerField, List.take_add, List.drop_drop]

private theorem headerField_drop (h : Bytes) (offset first second : Nat) :
    headerField h (offset + first) second = (headerField h offset (first + second)).drop first := by
  rw [headerField, headerField, List.drop_take, List.drop_drop, Nat.add_sub_cancel_left]

private theorem headerField_rest {h : Bytes} {offset : Nat} (length : h.length = headerSize) :
    headerField h offset (headerSize - offset) = h.drop offset := by
  apply List.take_of_length_le
  rw [List.length_drop, length]

structure Overwrites (h after : Bytes) (offset : Nat) (text : Bytes) : Prop where
  length : after.length = headerSize
  field : headerField after offset text.length = text
  apart : ∀ other length, other + length ≤ offset ∨ offset + text.length ≤ other →
    headerField after other length = headerField h other length

theorem copyTo_overwrites {h : Bytes} {offset : Nat} {text : Bytes} (length : h.length = headerSize)
    (room : offset + text.length ≤ headerSize) : Overwrites h (copyTo h offset text) offset text where
  length := copyTo_header length room
  field := headerField_copyTo (by omega)
  apart other count apart := by
    apply List.ext_getElem?
    intro i
    rw [headerField_getElem?, headerField_getElem?]
    split
    next inside => exact copyTo_getElem? (by omega) (by omega)
    next => rfl

theorem Overwrites.keep {h after text : Bytes} {offset other length : Nat} (laid : Overwrites h after offset text) (count : Nat)
    (short : text.length ≤ count) (apart : other + length ≤ offset ∨ offset + count ≤ other) :
    headerField after other length = headerField h other length :=
  laid.apart other length (by omega)

/-- Behind a text that was put into an empty field there are zeros. -/
theorem Overwrites.filled {h after text : Bytes} {offset length : Nat} (laid : Overwrites h after offset text)
    (empty : headerField h offset length = List.replicate length 0) (fits : text.length ≤ length) :
    headerField after offset length = text ++ List.replicate (length - text.length) 0 := by
  have parts := headerField_add after offset text.length (length - text.length)
  have whole : text.length + (length - text.length) = length := by omega
  rw [laid.field, laid.apart _ _ (.inr (Nat.le_refl _)), headerField_drop, whole, empty, List.drop_replicate] at parts
  exact parts

private theorem storedChecksum_blanks (count : Nat) (rest : Bytes) :
    storedChecksum false 0 (List.replicate count 0x20 ++ rest) = storedChecksum false 0 rest := by
  induction count with
  | zero => rfl
  | succ count ih =>
    rw [List.replicate_succ, List.cons_append, storedChecksum]
    exact ih

private theorem storedChecksum_digits {digits rest : Bytes} (octal : ∀ c ∈ digits, isOctal c = true) (sum : Nat) :
    storedChecksum true sum (digits ++ 0 :: rest) =
      some (digits.foldl (fun value digit => 8 * value + octalDigit digit) sum) := by
  induction digits generalizing sum with
  | nil => rfl
  | cons c digits ih =>
    have first : isOctal c = true := octal c (.head _)
    have going : (c == 0 || c == 0x20) = false := by
      rw [beq_false_of_ne (isOctal_ne first (by decide)), beq_false_of_ne (isOctal_ne first (by decide))]
      rfl
    rw [List.cons_append, storedChecksum, if_neg (by decide), if_neg (by rw [going]; decide), if_pos first]
    exact ih (fun other member => octal other (.tail _ member)) _

/-- A checksum is read as it was printed. -/
theorem storedChecksum_printed (number : Nat) (rest : Bytes) :
    storedChecksum false 0 (sprintfOctal 0x20 6 number ++ rest) = some number := by
  have octal := octalNumeral_digits number
  have value := octalNumeral_value number
  have some_ : octalNumeral number ≠ [] := by
    intro none_
    have printed := octalNumeral_value number
    unfold octalNumeral at none_
    split at none_
    · cases none_
    next positive =>
      rw [octalText, List.reverse_eq_nil_iff, List.map_eq_nil_iff] at none_
      exact positive (Nat.digits_eq_nil_iff_eq_zero.mp none_)
  rw [sprintfOctal_eq, List.append_assoc, List.append_assoc, storedChecksum_blanks]
  obtain ⟨first, others, numeral⟩ := List.exists_cons_of_ne_nil some_
  rw [numeral] at octal value ⊢
  have begins : isOctal first = true := octal first (.head _)
  rw [List.cons_append, storedChecksum, if_pos (by decide), if_neg (by rw [isOctal_noSpace begins]; decide), if_pos begins]
  refine (storedChecksum_digits (fun other member => octal other (.tail _ member)) (octalDigit first)).trans ?_
  rw [← value, List.foldl_cons, Nat.mul_zero, Nat.zero_add]

/-- What setting the checksum comes to. -/
structure Checked (h header : Bytes) : Prop where
  length : header.length = headerSize
  valid : checksumValid header = true
  apart : ∀ other length, other + length ≤ checksumOffset ∨ checksumOffset + checksumLength ≤ other →
    headerField header other length = headerField h other length

private theorem setChecksum_checked {h header : Bytes} (length : h.length = headerSize) (done : setChecksum h = .ok header) :
    Checked h header := by
  have blank := @copyTo_overwrites h checksumOffset checksumText length (by decide)
  unfold setChecksum at done
  simp only at done
  split at done
  · cases done
  next few =>
    generalize blanked : copyTo h checksumOffset checksumText = clean at blank few done
    have small : (clean.map UInt8.toNat).sum < 8 ^ 6 := Nat.lt_of_le_of_lt (Nat.not_lt.mp few) (by decide)
    have count : (sprintfOctal 0x20 6 (clean.map UInt8.toNat).sum).length = 7 := sprintfOctal_exact (by decide) small
    have summed := @copyTo_overwrites _ checksumOffset (sprintfOctal 0x20 6 (clean.map UInt8.toNat).sum) blank.length (by rw [count]; decide)
    have closed := @copyTo_overwrites _ (checksumOffset + 7) [0x20] summed.length (by decide)
    rw [Except.ok.inj done] at closed
    have before : ∀ other length, other + length ≤ checksumOffset ∨ checksumOffset + checksumLength ≤ other →
        headerField header other length = headerField clean other length := by
      intro other length apart
      rw [closed.apart _ _ (by simp [checksumLength] at apart ⊢; omega),
        summed.apart _ _ (by rw [count]; simp [checksumLength] at apart; omega)]
    have stored : headerField header checksumOffset checksumLength = sprintfOctal 0x20 6 (clean.map UInt8.toNat).sum ++ [0x20] := by
      rw [show checksumLength = 7 + 1 from rfl, headerField_add, closed.apart _ _ (.inl (Nat.le_refl _)), ← count, summed.field, count]
      exact congrArg _ closed.field
    have cleared : header.take checksumOffset ++ List.replicate checksumLength 0x20 ++ header.drop (checksumOffset + checksumLength) =
        clean := by
      rw [← headerField_rest closed.length, before _ _ (.inr (Nat.le_refl _)), headerField_rest blank.length,
        show header.take checksumOffset = headerField header 0 checksumOffset from rfl, before _ _ (.inl (Nat.le_of_eq (Nat.zero_add _)))]
      refine Eq.trans ?_ ((congrArg (· ++ _) (headerField_add clean 0 checksumOffset checksumLength).symm).trans
        (List.take_append_drop (checksumOffset + checksumLength) clean))
      rw [Nat.zero_add, show headerField clean checksumOffset checksumLength = List.replicate checksumLength 0x20 from blank.field]
    refine ⟨closed.length, ?_, fun other length apart => (before other length apart).trans (blank.apart other length apart)⟩
    rw [checksumValid, cleared, stored, storedChecksum_printed]
    exact beq_self_eq_true _

/-- A header with the fields that are read again. -/
structure WrittenHeader (header fileName : Bytes) (fileSize : Nat) (fileType : TypeCode) (linkTarget : Bytes) : Prop where
  length : header.length = headerSize
  valid : checksumValid header = true
  name : ∃ placed, placeName (List.replicate headerSize 0) fileName = .ok placed ∧ headerName header = headerName placed
  mode : headerField header modeOffset modeLength = sprintfOctal 0x30 7 0o644
  size : headerField header sizeOffset sizeLength = sprintfOctal 0x30 11 (fileSize % 4294967296)
  type : headerField header typeflagOffset 1 = [0x30 + fileType.digit]
  linkname : headerField header linknameOffset 100 = linkTarget ++ List.replicate (100 - linkTarget.length) 0
  magic : headerField header magicOffset 6 = [0x75, 0x73, 0x74, 0x61, 0x72, 0]

private theorem headerName_eq {h other : Bytes} (name : headerField h 0 nameLength = headerField other 0 nameLength)
    (directory : headerField h prefixOffset prefixLength = headerField other prefixOffset prefixLength) :
    headerName h = headerName other := by
  rw [headerName, headerName, directory]
  exact congrArg (fun text : Bytes => _ ++ text.takeWhile (· != 0)) name

theorem headerField_zeros {offset length : Nat} (inside : offset + length ≤ headerSize) :
    headerField (List.replicate headerSize 0) offset length = List.replicate length 0 := by
  rw [headerField, List.drop_replicate, List.take_replicate, Nat.min_eq_left (by omega)]

/-- A name leaves the fields between it and its prefix as they are. -/
theorem placeName_between {fileName placed : Bytes} (done : placeName (List.replicate headerSize 0) fileName = .ok placed)
    {offset length : Nat} (early : 100 ≤ offset) (late : offset + length ≤ prefixOffset) :
    headerField placed offset length = List.replicate length 0 := by
  have bound : prefixOffset ≤ headerSize := by decide
  rw [← headerField_zeros (Nat.le_trans late bound)]
  unfold placeName at done
  split at done
  · split at done
    · cases done
    · split at done
      · cases done
      next short _ splitIdx found =>
        have before := splitIndex_le found
        have size : headerSize = 512 := rfl
        have place : prefixOffset = 345 := rfl
        have front := @copyTo_overwrites _ prefixOffset (fileName.take splitIdx) (List.length_replicate (n := headerSize) (a := (0 : UInt8)))
          (by rw [List.length_take]; omega)
        have start : fileName.length - 101 ≤ splitIdx := (List.mem_range'_1.mp (List.mem_of_find?_eq_some found)).1
        have back := @copyTo_overwrites _ 0 (fileName.drop (splitIdx + 1)) front.length (by rw [List.length_drop]; omega)
        cases done
        rw [back.apart _ _ (.inr (by rw [List.length_drop]; omega)), front.apart _ _ (.inl late)]
  next short =>
    have whole := @copyTo_overwrites _ 0 fileName (List.length_replicate (n := headerSize) (a := (0 : UInt8))) (by
      have size : headerSize = 512 := rfl
      omega)
    cases done
    rw [whole.apart _ _ (.inr (by omega))]

def headerFields (owner : Owner) (fileSize : Nat) (fileType : TypeCode) (h : Bytes) : Bytes :=
  let h := copyTo h modeOffset (sprintfOctal 0x30 7 0o644)
  let h := copyTo h uidOffset (sprintfOctal 0x30 7 owner.uid.toNat)
  let h := copyTo h gidOffset (sprintfOctal 0x30 7 owner.gid.toNat)
  let h := copyTo h sizeOffset (sprintfOctal 0x30 11 (fileSize % 4294967296))
  let h := copyTo h mtimeOffset (sprintfOctal 0x30 11 owner.time.toNat)
  let h := copyTo h typeflagOffset [0x30 + fileType.digit]
  let h := copyTo h magicOffset [0x75, 0x73, 0x74, 0x61, 0x72, 0]
  copyTo h versionOffset [0x20, 0]

theorem headerPosixUstar_eq {owner : Owner} {fileName placed : Bytes} {fileSize : Nat} {fileType : TypeCode}
    (small : fileSize ≤ 0o77777777777) (done : placeName (List.replicate headerSize 0) fileName = .ok placed) :
    headerPosixUstar owner fileName fileSize fileType = setChecksum (headerFields owner fileSize fileType placed) := by
  rw [headerPosixUstar, if_neg (Nat.not_lt.mpr small), done, headerFields]
  simp only [bind, Except.bind]

structure FieldsWritten (h after : Bytes) (fileSize : Nat) (fileType : TypeCode) : Prop where
  length : after.length = headerSize
  outside : ∀ other length, other + length ≤ modeOffset ∨ versionOffset + 2 ≤ other →
    headerField after other length = headerField h other length
  mode : headerField after modeOffset modeLength = sprintfOctal 0x30 7 0o644
  size : headerField after sizeOffset sizeLength = sprintfOctal 0x30 11 (fileSize % 4294967296)
  type : headerField after typeflagOffset 1 = [0x30 + fileType.digit]
  linkname : headerField after linknameOffset 100 = headerField h linknameOffset 100
  magic : headerField after magicOffset 6 = [0x75, 0x73, 0x74, 0x61, 0x72, 0]

theorem headerFields_written {h : Bytes} (name : h.length = headerSize) (owner : Owner) (fileSize : Nat) (fileType : TypeCode) :
    FieldsWritten h (headerFields owner fileSize fileType h) fileSize fileType := by
  have whole : headerSize = 512 := rfl
  have count : (sprintfOctal 0x30 11 (fileSize % 4294967296)).length = 12 :=
    sprintfOctal_exact (by decide) (Nat.lt_trans (Nat.mod_lt fileSize (by decide)) (by decide))
  have modeCount : (sprintfOctal 0x30 7 0o644).length = 8 := sprintfOctal_exact (by decide) (by decide)
  have uidCount := @sprintf_field 0x30 7 _ (by decide) owner.uid.toNat_lt
  have gidCount := @sprintf_field 0x30 7 _ (by decide) owner.gid.toNat_lt
  have timeCount := @sprintf_field 0x30 11 _ (by decide) owner.time.toNat_lt
  have mode := @copyTo_overwrites _ modeOffset (sprintfOctal 0x30 7 0o644) name (by decide)
  have uid := @copyTo_overwrites _ uidOffset (sprintfOctal 0x30 7 owner.uid.toNat) mode.length (by rw [uidOffset]; omega)
  have gid := @copyTo_overwrites _ gidOffset (sprintfOctal 0x30 7 owner.gid.toNat) uid.length (by rw [gidOffset]; omega)
  have bytes := @copyTo_overwrites _ sizeOffset (sprintfOctal 0x30 11 (fileSize % 4294967296)) gid.length (by rw [sizeOffset]; omega)
  have time := @copyTo_overwrites _ mtimeOffset (sprintfOctal 0x30 11 owner.time.toNat) bytes.length (by rw [mtimeOffset]; omega)
  have typed := @copyTo_overwrites _ typeflagOffset [0x30 + fileType.digit] time.length (show typeflagOffset + 1 ≤ headerSize by decide)
  have magic := @copyTo_overwrites _ magicOffset [0x75, 0x73, 0x74, 0x61, 0x72, 0] typed.length (by decide)
  have version := @copyTo_overwrites _ versionOffset [0x20, 0] magic.length (by decide)
  -- each field is followed through what is written after it
  unfold headerFields
  dsimp only
  constructor
  · exact version.length
  · intro other length apart
    simp only [modeOffset, versionOffset] at apart
    rw [version.keep 2 (by decide) (by simp only [versionOffset]; omega),
      magic.keep 6 (by decide) (by simp only [magicOffset]; omega), typed.keep 1 (Nat.le_refl _) (by simp only [typeflagOffset]; omega),
      time.keep 12 timeCount (by simp only [mtimeOffset]; omega), bytes.keep 12 count.le (by simp only [sizeOffset]; omega),
      gid.keep 12 gidCount (by simp only [gidOffset]; omega), uid.keep 12 uidCount (by simp only [uidOffset]; omega),
      mode.keep 8 modeCount.le (by simp only [modeOffset]; omega)]
  · rw [version.keep 2 (by decide) (by decide), magic.keep 6 (by decide) (by decide),
      typed.keep 1 (Nat.le_refl _) (by decide), time.keep 12 timeCount (by decide), bytes.keep 12 count.le (by decide),
      gid.keep 12 gidCount (by decide), uid.keep 12 uidCount (by decide), show modeLength = 8 from rfl, ← modeCount, mode.field]
  · rw [version.keep 2 (by decide) (by decide), magic.keep 6 (by decide) (by decide),
      typed.keep 1 (Nat.le_refl _) (by decide), time.keep 12 timeCount (by decide), show sizeLength = 12 from rfl, ← count, bytes.field]
  · rw [version.keep 2 (by decide) (by decide), magic.keep 6 (by decide) (by decide)]
    exact typed.field
  · rw [version.keep 2 (by decide) (by decide), magic.keep 6 (by decide) (by decide),
      typed.keep 1 (Nat.le_refl _) (by decide), time.keep 12 timeCount (by decide), bytes.keep 12 count.le (by decide),
      gid.keep 12 gidCount (by decide), uid.keep 12 uidCount (by decide), mode.keep 8 modeCount.le (by decide)]
  · rw [version.keep 2 (by decide) (by decide)]
    exact magic.field

theorem headerPosixUstar_written {owner : Owner} {fileName header : Bytes} {fileSize : Nat} {fileType : TypeCode}
    (made : headerPosixUstar owner fileName fileSize fileType = .ok header) : WrittenHeader header fileName fileSize fileType [] := by
  have begun := made
  unfold headerPosixUstar at begun
  split at begun
  · cases begun
  next small =>
    obtain ⟨placed, done, -⟩ := bind_ok begun
    rw [headerPosixUstar_eq (Nat.not_lt.mp small) done] at made
    have fields := headerFields_written (placeName_length List.length_replicate done) owner fileSize fileType
    have checked := setChecksum_checked fields.length made
    refine ⟨checked.length, checked.valid, ⟨placed, done, headerName_eq ?_ ?_⟩, ?_, ?_, ?_, ?_, ?_⟩
    · rw [checked.apart _ _ (by decide), fields.outside _ _ (by decide)]
    · rw [checked.apart _ _ (by decide), fields.outside _ _ (by decide)]
    · rw [checked.apart _ _ (by decide), fields.mode]
    · rw [checked.apart _ _ (by decide), fields.size]
    · rw [checked.apart _ _ (by decide), fields.type]
    · rw [checked.apart _ _ (by decide), fields.linkname, placeName_between done (by decide) (by decide)]
      rfl
    · rw [checked.apart _ _ (by decide), fields.magic]

private theorem symLinkEntry_written {owner : Owner} {filepath linkTarget header : Bytes}
    (made : symLinkEntry owner filepath linkTarget = .ok header) : linkTarget.length ≤ 100 ∧
      WrittenHeader header filepath 0 .symLink linkTarget := by
  obtain ⟨symEntry, entry, made⟩ := bind_ok made
  split at made
  · cases made
  next short =>
    have before := headerPosixUstar_written entry
    have room : linknameOffset + linkTarget.length ≤ headerSize := by
      rw [linknameOffset, headerSize]
      omega
    have linked := copyTo_overwrites before.length room
    have checked := setChecksum_checked linked.length made
    have outside : ∀ other length, other + length ≤ checksumOffset ∨ checksumOffset + checksumLength ≤ other →
        other + length ≤ linknameOffset ∨ linknameOffset + 100 ≤ other →
        headerField header other length = headerField symEntry other length := by
      intro other length checksum linkname
      rw [checked.apart _ _ checksum, linked.keep 100 (Nat.not_lt.mp short) linkname]
    obtain ⟨placed, named, same⟩ := before.name
    refine ⟨Nat.not_lt.mp short, checked.length, checked.valid, ⟨placed, named, ?_⟩, ?_, ?_, ?_, ?_, ?_⟩
    · rw [← same]
      exact headerName_eq (outside _ _ (by decide) (by decide)) (outside _ _ (by decide) (by decide))
    · rw [outside _ _ (by decide) (by decide), before.mode]
    · rw [outside _ _ (by decide) (by decide), before.size]
    · rw [outside _ _ (by decide) (by decide), before.type]
    · rw [checked.apart _ _ (by decide), linked.filled before.linkname (Nat.not_lt.mp short)]
    · rw [outside _ _ (by decide) (by decide), before.magic]

theorem takeWhile_zeros {text : Bytes} (plain : 0 ∉ text) (count : Nat) :
    (text ++ List.replicate count 0).takeWhile (· != 0) = text := by
  have whole : ∀ c ∈ text, (c != 0) = true := by
    intro c member
    rw [bne_iff_ne]
    rintro rfl
    exact plain member
  rw [List.takeWhile_append_of_pos whole, List.takeWhile_replicate]
  exact List.append_nil text

private theorem headerName_short {fileName placed : Bytes} (plain : 0 ∉ fileName) (short : fileName.length ≤ 100)
    (done : placeName (List.replicate headerSize 0) fileName = .ok placed) : headerName placed = fileName := by
  rw [placeName, if_neg (Nat.not_lt.mpr short)] at done
  cases done
  have whole := @copyTo_overwrites _ 0 fileName (List.length_replicate (n := headerSize) (a := (0 : UInt8)))
    (Nat.le_trans (Nat.add_le_add_left short 0) (by decide))
  have name := whole.filled (headerField_zeros (by decide)) short
  rw [headerName, whole.keep 100 short (.inr (by decide)), headerField_zeros (by decide)]
  exact (congrArg (List.takeWhile (· != 0)) name).trans (takeWhile_zeros plain _)

private theorem headerName_split {fileName placed : Bytes} {splitIdx : Nat} (plain : 0 ∉ fileName) (long : 100 < fileName.length)
    (found : splitIndex fileName = some splitIdx) (done : placeName (List.replicate headerSize 0) fileName = .ok placed) :
    headerName placed = (if (fileName.take splitIdx).take prefixLength = [] then [] else
      (fileName.take splitIdx).take prefixLength ++ [slash]) ++ fileName.drop (splitIdx + 1) := by
  have before := splitIndex_le found
  have start : fileName.length - 101 ≤ splitIdx := (List.mem_range'_1.mp (List.mem_of_find?_eq_some found)).1
  rw [placeName, if_pos long, found] at done
  split at done
  · cases done
  next short =>
    cases done
    have early : (fileName.take splitIdx).length ≤ 156 := by
      rw [List.length_take]
      omega
    have late : (fileName.drop (splitIdx + 1)).length ≤ 100 := by
      rw [List.length_drop]
      omega
    have front := @copyTo_overwrites _ prefixOffset (fileName.take splitIdx) (List.length_replicate (n := headerSize) (a := (0 : UInt8)))
      (Nat.le_trans (Nat.add_le_add_left early _) (by decide))
    have back := @copyTo_overwrites _ 0 (fileName.drop (splitIdx + 1)) front.length (Nat.le_trans (Nat.add_le_add_left late 0) (by decide))
    have directory := front.filled (headerField_zeros (by decide)) early
    have name := back.filled ((front.apart _ _ (.inl (by decide))).trans (headerField_zeros (by decide))) late
    rw [← back.keep 100 late (.inr (by decide))] at directory
    have shorter := congrArg (List.take prefixLength) directory
    rw [headerField, List.take_take, List.take_append, List.take_replicate] at shorter
    have plainFront : 0 ∉ (fileName.take splitIdx).take prefixLength :=
      fun member => plain (List.mem_of_mem_take (List.mem_of_mem_take member))
    have plainBack : 0 ∉ fileName.drop (splitIdx + 1) := fun member => plain (List.mem_of_mem_drop member)
    rw [headerName]
    simp only [show ∀ h, headerField h prefixOffset prefixLength = (h.drop prefixOffset).take (min prefixLength 156) from fun _ => rfl,
      shorter, takeWhile_zeros plainFront]
    exact congrArg _ ((congrArg (List.takeWhile (· != 0)) name).trans (takeWhile_zeros plainBack _))

/-- A name is split at the first slash that leaves little enough behind it. -/
theorem splitIndex_first {fileName : Bytes} {splitIdx : Nat} (found : splitIndex fileName = some splitIdx) :
    fileName[splitIdx]? = some slash ∧ fileName.length - 101 ≤ splitIdx ∧ splitIdx ≤ 156 ∧
      ∀ i, fileName.length - 101 ≤ i → i < splitIdx → fileName[i]? ≠ some slash := by
  rw [splitIndex, List.find?_range'_eq_some, List.mem_range'_1] at found
  obtain ⟨there, ⟨start, inside⟩, first⟩ := found
  refine ⟨eq_of_beq there, start, by omega, ?_⟩
  intro i late early same
  have other := first i late early
  rw [same] at other
  cases other

private theorem headerName_iff {fileName placed : Bytes} (plain : 0 ∉ fileName)
    (done : placeName (List.replicate headerSize 0) fileName = .ok placed) : headerName placed = fileName ↔ NameFits fileName := by
  by_cases long : 100 < fileName.length
  · cases found : splitIndex fileName with
    | none =>
      rw [placeName, if_pos long, found] at done
      split at done <;> cases done
    | some splitIdx =>
      obtain ⟨there, start, bound, first⟩ := splitIndex_first found
      have inside : splitIdx < fileName.length := (List.getElem?_eq_some_iff.mp there).1
      rw [headerName_split plain long found done]
      by_cases fits : splitIdx ≠ 0 ∧ splitIdx ≤ 155
      · have whole : (fileName.take splitIdx).take prefixLength = fileName.take splitIdx := by
          rw [List.take_take, Nat.min_eq_right (show splitIdx ≤ prefixLength from fits.2)]
        have some_ : fileName.take splitIdx ≠ [] := by
          intro none_
          have length := congrArg List.length none_
          rw [List.length_take, List.length_nil] at length
          omega
        rw [whole, if_neg some_]
        refine iff_of_true ?_ (.inr ⟨?_, splitIdx, start, fits.2, there⟩)
        · have slashes : fileName.drop splitIdx = slash :: fileName.drop (splitIdx + 1) := by
            rw [List.drop_eq_getElem_cons inside, (List.getElem?_eq_some_iff.mp there).2]
          rw [List.append_assoc, List.singleton_append, ← slashes, List.take_append_drop]
        · rintro ⟨least, begins⟩
          exact first 0 (by omega) (by omega) begins
      · refine iff_of_false ?_ ?_
        · intro same
          have length := congrArg List.length same
          rw [List.length_append, List.length_drop] at length
          split at length
          next =>
            rw [List.length_nil] at length
            omega
          next some_ =>
            have positive : splitIdx ≠ 0 := by
              rintro rfl
              exact some_ rfl
            rw [List.length_append, List.length_take, List.length_take, List.length_singleton, prefixLength] at length
            omega
        · rintro (short | ⟨begins, i, late, early, other⟩)
          · exact absurd short (Nat.not_le.mpr long)
          · by_cases zero : splitIdx = 0
            · subst zero
              exact begins ⟨by omega, there⟩
            · exact first i late (by omega) other
  · exact iff_of_true (headerName_short plain (Nat.not_lt.mp long) done) (.inl (Nat.not_lt.mp long))

private theorem sprintfOctal_zeros {width number : Nat} (positive : 0 < width) (small : number < 8 ^ width) :
    ∃ digits, digits ≠ [] ∧ (∀ c ∈ digits, isOctal c = true) ∧
      digits.foldl (fun value digit => 8 * value + octalDigit digit) 0 = number ∧ sprintfOctal 0x30 width number = digits ++ [0] := by
  refine ⟨List.replicate (width - (octalNumeral number).length) 0x30 ++ octalNumeral number, ?_, ?_, ?_, sprintfOctal_eq _ _ _⟩
  · intro none_
    have length := @sprintfOctal_exact 0x30 _ _ positive small
    rw [sprintfOctal_eq, none_] at length
    exact absurd (Nat.succ.inj length) positive.ne
  · intro c member
    rcases List.mem_append.mp member with zero | digit
    · rw [List.eq_of_mem_replicate zero]
      rfl
    · exact octalNumeral_digits number c digit
  · have zeros : ∀ count, (List.replicate count (0x30 : UInt8)).foldl (fun value digit => 8 * value + octalDigit digit) 0 = 0 := by
      intro count
      induction count with
      | zero => rfl
      | succ count ih => exact ih
    rw [List.foldl_append, zeros, octalNumeral_value]

/-- A field with a number that ends in it is read as that number, whatever comes behind it. -/
theorem scanOctal_field {h : Bytes} {offset width number : Nat} (positive : 0 < width) (small : number < 8 ^ width)
    (fits : number < 2 ^ 64) (field : headerField h offset (width + 1) = sprintfOctal 0x30 width number) :
    scanOctal (h.drop offset) = some number ∧ scanOctal (headerField h offset (width + 1)) = some number ∧
      properlyTerminated (headerField h offset (width + 1)) = true := by
  obtain ⟨digits, some_, octal, value, printed⟩ := sprintfOctal_zeros positive small
  rw [printed] at field
  have rest : h.drop offset = digits ++ 0 :: (h.drop offset).drop (width + 1) := by
    calc h.drop offset = headerField h offset (width + 1) ++ (h.drop offset).drop (width + 1) := (List.take_append_drop _ _).symm
      _ = digits ++ 0 :: (h.drop offset).drop (width + 1) := by rw [field, List.append_assoc]; rfl
  have read := @scanOctal_digits digits ((h.drop offset).drop (width + 1)) some_ octal (value ▸ fits)
  have own := @scanOctal_digits digits [] some_ octal (value ▸ fits)
  rw [value] at read own
  refine ⟨rest ▸ read, field ▸ own, ?_⟩
  rw [field, properlyTerminated, List.any_append]
  exact Bool.or_true _

def TypeCode.read : TypeCode → FileType
  | regularFile => .regularFile
  | symLink => .symbolicLink
  | directory => .directory

section
variable {header fileName linkTarget : Bytes} {fileSize : Nat} {fileType : TypeCode}

def writtenSize (fileSize : Nat) : Nat := fileSize % 4294967296

private theorem writtenSize_lt (fileSize : Nat) : writtenSize fileSize < 8 ^ 11 :=
  Nat.lt_trans (Nat.mod_lt fileSize (by decide)) (by decide)

theorem WrittenHeader.ends (written : WrittenHeader header fileName fileSize fileType linkTarget) :
    scanSize (header.drop sizeOffset) = some (writtenSize fileSize : Int) := by
  have small := writtenSize_lt fileSize
  obtain ⟨scanned, -⟩ := scanOctal_field (by decide) small (Nat.lt_trans small (by decide)) written.size
  rw [scanSize, scanned, Option.map_some, Int.bmod_eq_of_le (by omega) (by omega)]

theorem WrittenHeader.headerType (written : WrittenHeader header fileName fileSize fileType linkTarget) :
    headerType header = fileType.read := by
  have digit := congrArg List.head? written.type
  rw [headerField, List.head?_take, if_neg (by decide), List.head?_drop, List.head?_cons] at digit
  rw [Slate.headerType, List.getD_eq_getElem?_getD, digit, Option.getD_some]
  cases fileType <;> rfl

theorem WrittenHeader.noProblem (written : WrittenHeader header fileName fileSize fileType linkTarget) :
    headerProblem header (writtenSize fileSize) = none := by
  have small := writtenSize_lt fileSize
  have size := (scanOctal_field (by decide) small (Nat.lt_trans small (by decide)) written.size).2.2
  have mode := (scanOctal_field (by decide) (by decide) (by decide) written.mode).2.2
  have bound : ¬ ((writtenSize fileSize : Int) > 0x1FFFFFFFF) := by omega
  rw [headerProblem, written.valid, show sizeLength = 11 + 1 from rfl, size, show modeLength = 7 + 1 from rfl, mode, if_neg bound]
  rfl

theorem WrittenHeader.occupied (written : WrittenHeader header fileName fileSize fileType linkTarget) :
    isEmptyHeader header = false := by
  rw [isEmptyHeader, List.all_eq_false]
  have member : (0x75 : UInt8) ∈ headerField header magicOffset 6 := by
    rw [written.magic]
    exact .head _
  exact ⟨0x75, List.mem_of_mem_drop (List.mem_of_mem_take member), by decide⟩

/-- A target that fills its field goes on in the next one. -/
theorem WrittenHeader.linkname_iff (written : WrittenHeader header fileName fileSize fileType linkTarget) (plain : 0 ∉ linkTarget)
    (short : linkTarget.length ≤ 100) : (header.drop linknameOffset).takeWhile (· != 0) = linkTarget ↔ linkTarget.length < 100 := by
  have rest : header.drop linknameOffset = linkTarget ++ List.replicate (100 - linkTarget.length) 0 ++ header.drop magicOffset := by
    calc header.drop linknameOffset = headerField header linknameOffset 100 ++ (header.drop linknameOffset).drop 100 :=
          (List.take_append_drop _ _).symm
      _ = linkTarget ++ List.replicate (100 - linkTarget.length) 0 ++ header.drop magicOffset := by
          rw [written.linkname, List.drop_drop]
          rfl
  have whole : ∀ c ∈ linkTarget, (c != 0) = true := by
    intro c member
    rw [bne_iff_ne]
    rintro rfl
    exact plain member
  rw [rest, List.append_assoc, List.takeWhile_append_of_pos whole]
  by_cases less : linkTarget.length < 100
  · obtain ⟨count, left⟩ : ∃ count, 100 - linkTarget.length = count + 1 := ⟨99 - linkTarget.length, by omega⟩
    rw [left, List.replicate_succ, List.cons_append, List.takeWhile_cons_of_neg (by decide), List.append_nil]
    exact iff_of_true rfl less
  · refine iff_of_false (fun same => ?_) less
    have magic := congrArg List.head? written.magic
    rw [headerField, List.head?_take, if_neg (by decide), List.head?_cons] at magic
    obtain ⟨more, next⟩ := List.head?_eq_some_iff.mp magic
    rw [show 100 - linkTarget.length = 0 by omega, List.replicate_zero, List.nil_append, next, List.takeWhile_cons_of_pos (by decide)] at same
    exact absurd (List.append_right_eq_self.mp same) (List.cons_ne_nil _ _)

variable {reader : TarReader} {rest : Bytes} {garbage : Uninitialized}

/-- The next file of a reader that stands at a written header. -/
theorem WrittenHeader.readFiles (written : WrittenHeader header fileName fileSize fileType linkTarget)
    (good : reader.src = ⟨header ++ rest, false, false⟩) {record : FileRecord} {src : InputStream}
    (filed : fileRecord header (writtenSize fileSize) ((scanMode (header.drop modeOffset)).getD garbage.mode) ⟨rest, false, false⟩ =
      .ok (record, src)) :
    (readFiles [] garbage reader).Gives
      (.ok (headerName header, reader.insertFile header (writtenSize fileSize) record (skipPadding (writtenSize fileSize) src))) := by
  have taken : (header ++ rest).take headerSize = header := by rw [← written.length, List.take_left]
  have dropped : (header ++ rest).drop headerSize = rest := by rw [← written.length, List.drop_left]
  have whole : headerSize ≤ (header ++ rest).length := by
    rw [List.length_append, written.length]
    exact Nat.le_add_right _ _
  apply Gives.loop_done
  rw [readPass_whole good whole, taken, dropped]
  dsimp only
  rw [written.occupied, if_neg (by decide)]
  have used : ∀ before, usedSize header before = writtenSize fileSize := fun before => usedSize_some written.ends
  have takes : Takes [] garbage header ⟨{ reader with src := ⟨rest, false, false⟩ }, garbage.size, 0⟩ record src :=
    readEntry_takes (by rw [used, written.noProblem]) (by rw [used]; exact filed)
  rw [Takes, used] at takes
  rw [takes, gives_pure, if_pos (.inr rfl)]
  rfl

end

private theorem insertFile_taken {reader : TarReader} (empty : ∀ name, reader.files.lookup name = none) (h : Bytes) (size : Int)
    (record : FileRecord) (src : InputStream) :
    (reader.insertFile h size record src).fileAt (headerName h) = record ∧
      ∀ name, ((reader.insertFile h size record src).dropFile (headerName h)).files.lookup name = none := by
  obtain ⟨held, there, same⟩ := insertFile_lookup reader h size record src
  constructor
  · rw [TarReader.fileAt, there, same (empty _)]
    rfl
  · intro name
    refine (FiniteMap.lookup_erase _ _ _).trans ?_
    split
    next => rfl
    next other => rw [insertFile_lookup_ne other, empty]

/-- One call gives the next file, which is right on a condition; then the reader goes on behind it. -/
structure ReadsNext (garbage : Uninitialized) (reader : TarReader) (file : ArchivedFile) (fits : Prop) (more : Bytes)
    (name : Bytes) (middle : TarReader) : Prop where
  gives : (readFiles [] garbage reader).Gives (.ok (name, middle))
  right : (⟨name, (middle.fileAt name).type, (middle.fileAt name).data⟩ : ArchivedFile) = file ↔ fits
  behind : fits → middle.src = ⟨more, false, false⟩
  empty : ∀ other, (middle.dropFile name).files.lookup other = none
  taken : ∃ entry, middle.entries = reader.entries ++ [entry] ∧ checksumValid entry.header = true

section
variable {header fileName linkTarget more : Bytes} {fileSize : Nat} {fileType : TypeCode} {reader : TarReader}

private theorem WrittenHeader.name_iff (written : WrittenHeader header fileName fileSize fileType linkTarget) (plain : 0 ∉ fileName) :
    headerName header = fileName ↔ NameFits fileName := by
  obtain ⟨placed, done, same⟩ := written.name
  rw [same]
  exact headerName_iff plain done

/-- What is no regular file has nothing behind its header. -/
theorem WrittenHeader.readsNext (written : WrittenHeader header fileName 0 fileType linkTarget) (irregular : fileType ≠ .regularFile)
    (plain : 0 ∉ fileName) (good : reader.src = ⟨header ++ more, false, false⟩) (empty : ∀ name, reader.files.lookup name = none)
    (garbage : Uninitialized) (data : Bytes) : ∃ name middle, ReadsNext garbage reader ⟨fileName, fileType.read, data⟩
      (NameFits fileName ∧ (if fileType = .symLink then (header.drop linknameOffset).takeWhile (· != 0) else []) = data) more name middle := by
  have type := written.headerType
  obtain ⟨record, filed, kind, contents⟩ : ∃ record, fileRecord header (writtenSize 0)
      ((scanMode (header.drop modeOffset)).getD garbage.mode) ⟨more, false, false⟩ = .ok (record, ⟨more, false, false⟩) ∧
      record.type = fileType.read ∧
      record.data = if fileType = .symLink then (header.drop linknameOffset).takeWhile (· != 0) else [] := by
    unfold fileRecord
    rw [type]
    cases fileType with
    | regularFile => exact absurd rfl irregular
    | symLink => exact ⟨_, rfl, rfl, rfl⟩
    | directory => exact ⟨_, rfl, rfl, rfl⟩
  obtain ⟨held, dropped⟩ := insertFile_taken empty header (writtenSize 0) record (skipPadding (writtenSize 0) ⟨more, false, false⟩)
  refine ⟨headerName header, _, written.readFiles good filed, ?_, fun _ => rfl, dropped, ⟨header, _, record⟩, rfl, written.valid⟩
  rw [held, kind, contents, ← written.name_iff plain, ArchivedFile.mk.injEq]
  exact and_congr_right fun _ => and_iff_right rfl

private theorem paddedData_eq (data : Bytes) : ∃ count, paddedData data = data ++ List.replicate count 0 ∧
    data.length + count = paddedSize data.length := by
  unfold paddedData paddedSize
  simp only
  split
  next => exact ⟨512 - data.length % 512, rfl, rfl⟩
  next even => exact ⟨0, (List.append_nil data).symm, by rw [if_pos (not_not.mp even), Nat.add_zero]⟩

/-- The contents of a file are all read if their size is the one that was written. -/
theorem WrittenHeader.readsFile {data : Bytes} (written : WrittenHeader header fileName data.length .regularFile [])
    (plain : 0 ∉ fileName) (good : reader.src = ⟨header ++ (paddedData data ++ more), false, false⟩) (room : headerSize ≤ more.length)
    (empty : ∀ name, reader.files.lookup name = none) (garbage : Uninitialized) :
    ∃ name middle, ReadsNext garbage reader ⟨fileName, .regularFile, data⟩ (NameFits fileName ∧ data.length < 4294967296) more
      name middle := by
  obtain ⟨count, padded, length⟩ := paddedData_eq data
  have least : writtenSize data.length ≤ data.length := Nat.mod_le _ _
  have inside : writtenSize data.length ≤ (paddedData data ++ more).length := by
    rw [padded, List.length_append, List.length_append]
    omega
  have filed : fileRecord header (writtenSize data.length) ((scanMode (header.drop modeOffset)).getD garbage.mode)
      ⟨paddedData data ++ more, false, false⟩ = .ok (⟨.regularFile, (paddedData data ++ more).take (writtenSize data.length),
        (scanMode (header.drop modeOffset)).getD garbage.mode⟩, ⟨(paddedData data ++ more).drop (writtenSize data.length), false, false⟩) := by
    have regular : Slate.headerType header = .regularFile := written.headerType
    rw [fileRecord, regular]
    simp only [Int.not_lt.mpr (Int.natCast_nonneg (writtenSize data.length)), if_false, Int.toNat_natCast, getBytes_enough inside]
  have taken : (paddedData data ++ more).take (writtenSize data.length) = data ↔ data.length < 4294967296 := by
    rw [padded, List.append_assoc, List.take_append_of_le_length least]
    constructor
    · intro same
      have whole := congrArg List.length same
      rw [List.length_take, Nat.min_eq_left least] at whole
      exact whole ▸ Nat.mod_lt _ (by decide)
    · intro small
      rw [writtenSize, Nat.mod_eq_of_lt small, List.take_length]
  obtain ⟨held, dropped⟩ := insertFile_taken empty header (writtenSize data.length) _
    (skipPadding (writtenSize data.length) ⟨(paddedData data ++ more).drop (writtenSize data.length), false, false⟩)
  refine ⟨headerName header, _, written.readFiles good filed, ?_, ?_, dropped, ⟨header, _, _⟩, rfl, written.valid⟩
  · rw [held, ← written.name_iff plain, ← taken, ArchivedFile.mk.injEq]
    exact and_congr_right fun _ => and_iff_right rfl
  · rintro ⟨-, small⟩
    have same : writtenSize data.length = data.length := Nat.mod_eq_of_lt small
    have behind : (paddedData data ++ more).drop (paddedSize (writtenSize data.length)) = more := by
      rw [same, ← length, padded]
      exact List.drop_left' (by rw [List.length_append, List.length_replicate])
    have stands := skipPadding_at inside
    rw [behind] at stands
    exact stands.whole (by decide) room

/-- What an operation has written is read as the file that it was given if it fits. -/
theorem entry_readsNext {owner : Owner} {operation : TarOperation} {bytes : Bytes} (made : operation.entry owner = .ok bytes)
    (named : operation.Named) {file : ArchivedFile} (archived : operation.archived = some file)
    (good : reader.src = ⟨bytes ++ more, false, false⟩) (room : headerSize ≤ more.length)
    (empty : ∀ name, reader.files.lookup name = none) (garbage : Uninitialized) :
    ∃ name middle, ReadsNext garbage reader file operation.Fits more name middle := by
  cases operation with
  | appendFile filepath data =>
    cases archived
    obtain ⟨header, headed, made⟩ := bind_ok made
    cases made
    rw [List.append_assoc] at good
    exact (headerPosixUstar_written headed).readsFile named.2 good room empty garbage
  | appendDirectory path =>
    cases archived
    have written : WrittenHeader bytes path 0 .directory [] := headerPosixUstar_written made
    obtain ⟨name, middle, reads⟩ := written.readsNext (by decide) named.2 good empty garbage []
    refine ⟨name, middle, reads.gives, reads.right.trans (and_iff_left rfl), fun fits => reads.behind ⟨fits, rfl⟩, reads.empty, reads.taken⟩
  | appendSymLink filepath linkTarget =>
    cases archived
    obtain ⟨short, written⟩ := symLinkEntry_written made
    obtain ⟨name, middle, reads⟩ := written.readsNext (by decide) named.1.2 good empty garbage linkTarget
    rw [if_pos rfl, written.linkname_iff named.2 short] at reads
    exact ⟨name, middle, reads⟩
  | endStream => cases archived

end

/-- The end of a stream gives no file. -/
theorem readFiles_endMarker {reader : TarReader} (good : reader.src = ⟨endMarker, false, false⟩) (garbage : Uninitialized) :
    ∃ after, (readFiles [] garbage reader).Gives (.ok ([], after)) ∧ after.entries = reader.entries := by
  have zeros : ∀ count, isEmptyHeader (List.replicate count 0) = true := fun count =>
    List.all_eq_true.mpr fun c member => beq_iff_eq.mpr (List.eq_of_mem_replicate member)
  have first : (readPass [] garbage ⟨reader, garbage.size, 0⟩).Gives (.ok (.again
      ⟨{ reader with src := ⟨List.replicate headerSize 0, false, false⟩ }, garbage.size, 1⟩)) := by
    rw [readPass_whole good (by rw [endMarker_length]; decide)]
    dsimp only
    rw [endMarker, List.take_replicate, zeros, if_pos rfl, if_neg (by decide), gives_pure, List.drop_replicate]
    rfl
  have second : (readPass [] garbage ⟨{ reader with src := ⟨List.replicate headerSize 0, false, false⟩ }, garbage.size, 1⟩).Gives
      (.ok (.done ([], { reader with src := ⟨[], false, false⟩, fileEnded := true }))) := by
    rw [readPass_whole rfl (by rw [List.length_replicate])]
    dsimp only
    rw [List.take_replicate, zeros, if_pos rfl, if_pos rfl, gives_pure, List.drop_replicate, Nat.sub_self, List.replicate_zero]
  exact ⟨_, first.loop_iff.mpr second.loop_done, rfl⟩

theorem TarOperation.Named.archived {operation : TarOperation} (named : operation.Named) :
    ∃ file, operation.archived = some file ∧ file.name ≠ [] := by
  cases operation with
  | appendFile filepath data => exact ⟨_, rfl, named.1⟩
  | appendDirectory path => exact ⟨_, rfl, named.1⟩
  | appendSymLink filepath linkTarget => exact ⟨_, rfl, named.1.1⟩
  | endStream => exact absurd named id

private theorem readsFiles_iff (garbage : Nat → Uninitialized) {operations : List (Owner × TarOperation)}
    (accepted : ∀ request ∈ operations, ∃ bytes, request.2.entry request.1 = .ok bytes)
    (named : ∀ request ∈ operations, request.2.Named) (calls : Nat) {reader : TarReader}
    (good : reader.src = ⟨(operations.map writtenBytes).flatten ++ endMarker, false, false⟩)
    (empty : ∀ name, reader.files.lookup name = none) (valid : ∀ taken ∈ reader.entries, checksumValid taken.header = true) :
    (∃ after, ReadsFiles garbage calls reader (operations.filterMap fun request => request.2.archived) after ∧
      ∀ taken ∈ after.entries, checksumValid taken.header = true) ↔ ∀ request ∈ operations, request.2.Fits := by
  induction operations generalizing calls reader with
  | nil =>
    obtain ⟨after, read, entries⟩ := readFiles_endMarker good (garbage calls)
    exact iff_of_true ⟨after, .done read, entries ▸ valid⟩ fun request member => absurd member List.not_mem_nil
  | cons request operations ih =>
    obtain ⟨bytes, made⟩ := accepted request (.head _)
    have written : writtenBytes request = bytes := by
      rw [writtenBytes, made]
      rfl
    obtain ⟨file, archived, nonempty⟩ := (named request (.head _)).archived
    rw [List.map_cons, List.flatten_cons, List.append_assoc, written] at good
    have room : headerSize ≤ ((operations.map writtenBytes).flatten ++ endMarker).length := by
      rw [List.length_append, endMarker_length, headerSize]
      omega
    obtain ⟨name, middle, reads⟩ := entry_readsNext made (named request (.head _)) archived good room empty (garbage calls)
    obtain ⟨entry, entries, checked⟩ := reads.taken
    have later : ∀ taken ∈ (middle.dropFile name).entries, checksumValid taken.header = true := by
      intro taken member
      rcases List.mem_append.mp (entries ▸ member : taken ∈ reader.entries ++ [entry]) with old | new
      · exact valid taken old
      · exact List.mem_singleton.mp new ▸ checked
    have files : (request :: operations).filterMap (fun request => request.2.archived) =
        file :: operations.filterMap fun request => request.2.archived := List.filterMap_cons_some archived
    rw [files, List.forall_mem_cons]
    have going := fun fits : request.2.Fits => @ih (fun other late => accepted other (.tail _ late))
      (fun other late => named other (.tail _ late)) (calls + 1) (middle.dropFile name) (reads.behind fits) reads.empty later
    constructor
    · rintro ⟨after, more, final⟩
      generalize wanted : file :: operations.filterMap (fun request => request.2.archived) = read at more
      cases more with
      | done => cases wanted
      | next read _ more =>
        cases reads.gives.unique read
        have fits : request.2.Fits := reads.right.mp (List.cons.inj wanted).1.symm
        refine ⟨fits, (going fits).mp ⟨after, ?_, final⟩⟩
        rw [(List.cons.inj wanted).2]
        exact more
    · rintro ⟨fits, others⟩
      obtain ⟨after, more, final⟩ := (going fits).mpr others
      have same := reads.right.mpr fits
      refine ⟨after, ?_, final⟩
      rw [← same] at nonempty ⊢
      exact .next reads.gives nonempty more

theorem run_readsFiles_iff (garbage : Nat → Uninitialized) {operations : List (Owner × TarOperation)}
    (accepted : ∀ request ∈ operations, ∃ bytes, request.2.entry request.1 = .ok bytes)
    (named : ∀ request ∈ operations, request.2.Named) :
    (∃ after, ReadsFiles garbage 0 (tarReader (({} : TarWriter).run operations).destroy)
      (operations.filterMap fun request => request.2.archived) after ∧
      ∀ taken ∈ after.entries, checksumValid taken.header = true) ↔ ∀ request ∈ operations, request.2.Fits := by
  apply readsFiles_iff garbage accepted named 0
  · rw [run_destroy]
    rfl
  · exact fun _ => rfl
  · exact fun _ member => absurd member List.not_mem_nil

/-- What is appended under names without a NUL is read again just as it was if all of it fits. -/
theorem tarRoundTrips_iff {operations : List (Owner × TarOperation)}
    (accepted : ∀ request ∈ operations, ∃ bytes, request.2.entry request.1 = .ok bytes)
    (named : ∀ request ∈ operations, request.2.Named) : RoundTrips operations ↔ ∀ request ∈ operations, request.2.Fits :=
  ⟨fun round => (run_readsFiles_iff (fun _ => ⟨0, 0⟩) accepted named).mp (round _),
    fun fits garbage => (run_readsFiles_iff garbage accepted named).mpr fits⟩

def chartOperations : List (Owner × TarOperation) :=
  [(⟨0, 0, 0⟩, .appendDirectory (textBytes "web")), (⟨0, 0, 0⟩, .appendFile (textBytes "web/Chart.yaml") (textBytes "name: web")),
    (⟨0, 0, 0⟩, .appendSymLink (textBytes "web/link") (textBytes "Chart.yaml"))]

theorem chartOperations_roundTrip : RoundTrips chartOperations := by
  have accepted : ∀ request ∈ chartOperations, (request.2.entry request.1).toOption.isSome = true := by decide +kernel
  refine (tarRoundTrips_iff ?_ ?_).mpr ?_
  · intro request member
    have some_ := accepted request member
    cases made : request.2.entry request.1 with
    | error message =>
      rw [made] at some_
      cases some_
    | ok bytes => exact ⟨bytes, rfl⟩
  · simp only [chartOperations, List.forall_mem_cons, TarOperation.Named]
    exact ⟨by decide, by decide, by decide, fun _ member => absurd member List.not_mem_nil⟩
  · simp only [chartOperations, List.forall_mem_cons, TarOperation.Fits]
    exact ⟨.inl (by decide), ⟨.inl (by decide), by decide⟩, ⟨.inl (by decide), by decide⟩, fun _ member => absurd member List.not_mem_nil⟩

end Slate
