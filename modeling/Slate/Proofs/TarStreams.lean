import Slate.Library.Blocks
import Slate.Library.Programs
import Slate.TarWriter
import Mathlib.Data.Nat.Digits.Lemmas

/-! What a tar writer leaves in its stream. The end of a stream is written whenever it is
asked for, and again by the destructor, as the writer never notes that it has ended. -/

namespace Slate
open Library

def occupied (h : Bytes) : Prop := isEmptyHeader h = false

/-- The stream of a writer is whole after every operation. At last it has what was accepted,
entry by entry, each with a header that is not empty, and then the end of the stream once;
and nothing is accepted after that end. Where no block of the contents of a file is empty,
no block of the stream is but the last two. -/
structure WellFormedRun (operations : List (Owner × TarOperation)) : Prop where
  aligned : ∀ before, before <+: operations → Whole headerSize (({} : TarWriter).run before).sink
  completed : (({} : TarWriter).run operations).destroy = (({} : TarWriter).accepted operations).flatten ++ endMarker
  finished : Whole headerSize (({} : TarWriter).run operations).destroy
  headed : ∀ entry ∈ ({} : TarWriter).accepted operations, entry ≠ [] ∧ occupied (block headerSize entry 0)
  alone : (∀ owner filepath data, (owner, .appendFile filepath data) ∈ operations →
      AllBlocks occupied headerSize (paddedData data)) →
    ∀ i, i + 2 < blockCount headerSize (({} : TarWriter).run operations).destroy →
      occupied (block headerSize (({} : TarWriter).run operations).destroy i)
  refused : ∀ before later owner operation, operations = before ++ (owner, operation) :: later →
    operation ≠ .endStream → (∃ other, (other, .endStream) ∈ before) →
      ∃ error, (({} : TarWriter).run before).operate owner operation = .error error

private theorem copyTo_length {h : Bytes} {offset : Nat} {text : Bytes} (room : offset + text.length ≤ h.length) :
    (copyTo h offset text).length = h.length := by
  rw [copyTo, List.length_append, List.length_append, List.length_take, List.length_drop]
  omega

theorem octalText_length (number : Nat) : (octalText number).length = (Nat.digits 8 number).length := by
  rw [octalText, List.length_reverse, List.length_map]

private theorem sprintfOctal_length {number digits : Nat} (fill : UInt8) (width : Nat) (positive : 0 < digits)
    (small : number < 8 ^ digits) :
    (sprintfOctal fill width number).length ≤ max width digits + 1 := by
  have count : (if number = 0 then [0x30] else octalText number : Bytes).length ≤ digits := by
    split
    · exact positive
    · rw [octalText_length]
      exact (Nat.digits_length_le_iff (by decide) number).mpr small
  unfold sprintfOctal
  simp only [List.length_append, List.length_replicate, List.length_singleton]
  omega

theorem copyTo_header {h : Bytes} {offset : Nat} {text : Bytes} (length : h.length = headerSize)
    (room : offset + text.length ≤ headerSize) : (copyTo h offset text).length = headerSize := by
  rw [copyTo_length (length ▸ room), length]

private theorem copyTo_at {h : Bytes} {offset : Nat} (c : UInt8) (room : offset ≤ h.length) :
    (copyTo h offset [c])[offset]? = some c := by
  have taken : (h.take offset).length = offset := by rw [List.length_take, Nat.min_eq_left room]
  rw [copyTo, List.append_assoc, List.getElem?_append_right (Nat.le_of_eq taken), taken, Nat.sub_self]
  rfl

/-- The last byte of the checksum is a blank, so that no header is empty. -/
structure Headed (header : Bytes) : Prop where
  length : header.length = headerSize
  blank : header[checksumOffset + 7]? = some 0x20

theorem Headed.occupied {header : Bytes} (headed : Headed header) : occupied header := by
  rw [Slate.occupied, isEmptyHeader, List.all_eq_false]
  obtain ⟨inside, same⟩ := List.getElem?_eq_some_iff.mp headed.blank
  exact ⟨0x20, same ▸ List.getElem_mem inside, by decide⟩

private theorem setChecksum_headed {h header : Bytes} (length : h.length = headerSize) (done : setChecksum h = .ok header) :
    Headed header := by
  have blank : (copyTo h checksumOffset checksumText).length = headerSize := copyTo_header length (by decide)
  unfold setChecksum at done
  simp only at done
  split at done
  · cases done
  next few =>
    have small : ((copyTo h checksumOffset checksumText).map UInt8.toNat).sum < 8 ^ 6 :=
      Nat.lt_of_le_of_lt (Nat.not_lt.mp few) (by decide)
    have text := sprintfOctal_length 0x20 6 (by decide) small
    have summed : (copyTo (copyTo h checksumOffset checksumText) checksumOffset (sprintfOctal 0x20 6
        ((copyTo h checksumOffset checksumText).map UInt8.toNat).sum)).length = headerSize :=
      copyTo_header blank (Nat.le_trans (Nat.add_le_add_left text _) (by decide))
    cases done
    exact ⟨copyTo_header summed (by decide), copyTo_at 0x20 (by rw [summed]; decide)⟩

theorem splitIndex_le {fileName : Bytes} {splitIdx : Nat} (found : splitIndex fileName = some splitIdx) : splitIdx ≤ 156 := by
  have member := List.mem_of_find?_eq_some found
  rw [List.mem_range'_1] at member
  omega

theorem placeName_length {h placed fileName : Bytes} (length : h.length = headerSize) (done : placeName h fileName = .ok placed) :
    placed.length = headerSize := by
  have size : headerSize = 512 := rfl
  unfold placeName at done
  split at done
  · split at done
    · cases done
    · split at done
      · cases done
      next short _ splitIdx found =>
        have early := splitIndex_le found
        cases done
        refine copyTo_header (copyTo_header length ?_) ?_
        · rw [List.length_take, prefixOffset]
          omega
        · rw [List.length_drop]
          omega
  next short =>
    cases done
    exact copyTo_header length (by omega)

theorem sprintf_field (fill : UInt8) {width number : Nat} (narrow : width ≤ 11) (small : number < 4294967296) :
    (sprintfOctal fill width number).length ≤ 12 := by
  have enough : number < 8 ^ 11 := Nat.lt_trans small (by decide)
  have length := sprintfOctal_length fill width (by decide) enough
  omega

theorem headerPosixUstar_headed {owner : Owner} {fileName header : Bytes} {fileSize : Nat} {fileType : TypeCode}
    (made : headerPosixUstar owner fileName fileSize fileType = .ok header) : Headed header := by
  unfold headerPosixUstar at made
  split at made
  · cases made
  obtain ⟨h, placed, made⟩ := bind_ok made
  have name : h.length = headerSize := placeName_length List.length_replicate placed
  have field : ∀ {h : Bytes} (offset width number : Nat), h.length = headerSize → offset ≤ 500 → width ≤ 11 →
      number < 4294967296 → (copyTo h offset (sprintfOctal 0x30 width number)).length = headerSize := by
    intro h offset width number length early narrow small
    have size : headerSize = 512 := rfl
    have room := sprintf_field 0x30 narrow small
    exact copyTo_header length (by omega)
  have mode := field modeOffset 7 0o644 name (by decide) (by decide) (by decide)
  have uid := field uidOffset 7 owner.uid.toNat mode (by decide) (by decide) owner.uid.toNat_lt
  have gid := field gidOffset 7 owner.gid.toNat uid (by decide) (by decide) owner.gid.toNat_lt
  have size := field sizeOffset 11 (fileSize % 4294967296) gid (by decide) (by decide) (Nat.mod_lt fileSize (by decide))
  have time := field mtimeOffset 11 owner.time.toNat size (by decide) (by decide) owner.time.toNat_lt
  have typed : (copyTo _ typeflagOffset [0x30 + fileType.digit]).length = headerSize :=
    copyTo_header time (show typeflagOffset + 1 ≤ headerSize by decide)
  have magic : (copyTo _ magicOffset [0x75, 0x73, 0x74, 0x61, 0x72, 0]).length = headerSize := copyTo_header typed (by decide)
  have version : (copyTo _ versionOffset [0x20, 0]).length = headerSize := copyTo_header magic (by decide)
  exact setChecksum_headed version made

private theorem paddedData_whole (data : Bytes) : Whole headerSize (paddedData data) := by
  unfold paddedData Whole
  simp only
  change _ % 512 = 0
  split
  · rw [List.length_append, List.length_replicate]
    omega
  next even => exact not_not.mp even

theorem Headed.whole {header : Bytes} (headed : Headed header) : Whole headerSize header := by
  rw [Whole, headed.length, Nat.mod_self]

theorem Headed.count {header : Bytes} (headed : Headed header) : blockCount headerSize header = 1 := by
  rw [blockCount, headed.length]
  rfl

theorem Headed.block {header : Bytes} (headed : Headed header) : block headerSize header 0 = header := by
  rw [Library.block, Nat.mul_zero, List.drop_zero, ← headed.length, List.take_length]

/-- What an append writes is a header, and the contents of a file after it. -/
theorem entry_headed {owner : Owner} {operation : TarOperation} {bytes : Bytes} (append : operation ≠ .endStream)
    (made : operation.entry owner = .ok bytes) :
    ∃ header contents, bytes = header ++ contents ∧ Headed header ∧
      (contents = [] ∨ ∃ filepath data, operation = .appendFile filepath data ∧ contents = paddedData data) := by
  cases operation with
  | appendFile filepath data =>
    obtain ⟨header, headed, made⟩ := bind_ok made
    cases made
    exact ⟨header, paddedData data, rfl, headerPosixUstar_headed headed, .inr ⟨filepath, data, rfl, rfl⟩⟩
  | appendDirectory path => exact ⟨bytes, [], (List.append_nil _).symm,
    headerPosixUstar_headed (show headerPosixUstar owner path 0 .directory = .ok bytes from made), .inl rfl⟩
  | appendSymLink filepath linkTarget =>
    obtain ⟨symEntry, headed, made⟩ := bind_ok made
    split at made
    · cases made
    next short =>
      have size : headerSize = 512 := rfl
      have linked : (copyTo symEntry linknameOffset linkTarget).length = headerSize :=
        copyTo_header (headerPosixUstar_headed headed).length (by rw [linknameOffset]; omega)
      exact ⟨bytes, [], (List.append_nil _).symm, setChecksum_headed linked made, .inl rfl⟩
  | endStream => exact absurd rfl append

theorem endMarker_length : endMarker.length = 2 * headerSize := List.length_replicate

private theorem endMarker_whole : Whole headerSize endMarker := by rw [Whole, endMarker_length, Nat.mul_mod_left]

private theorem entry_whole {owner : Owner} {operation : TarOperation} {bytes : Bytes} (made : operation.entry owner = .ok bytes) :
    Whole headerSize bytes := by
  by_cases append : operation = .endStream
  · subst append
    cases made
    exact endMarker_whole
  · obtain ⟨header, contents, rfl, headed, none | ⟨filepath, data, -, rfl⟩⟩ := entry_headed append made
    · rw [none, List.append_nil]
      exact headed.whole
    · exact headed.whole.append (paddedData_whole data)

/-- What an operation adds to a stream that has not ended: nothing when it throws. -/
def writtenBytes (request : Owner × TarOperation) : Bytes := (request.2.entry request.1).toOption.getD []

private theorem written_whole (request : Owner × TarOperation) : Whole headerSize (writtenBytes request) := by
  unfold writtenBytes
  cases made : request.2.entry request.1 with
  | error => exact .nil
  | ok bytes => exact entry_whole made

theorem operate_going (sink : Bytes) (owner : Owner) (operation : TarOperation) :
    (TarWriter.mk sink false).operate owner operation =
      (operation.entry owner).map fun bytes => ⟨sink ++ bytes, false⟩ := by
  cases operation <;> rfl

/-- A writer never notes the end of its stream. -/
theorem run_going (sink : Bytes) (operations : List (Owner × TarOperation)) :
    (TarWriter.mk sink false).run operations = ⟨sink ++ (operations.map writtenBytes).flatten, false⟩ := by
  induction operations generalizing sink with
  | nil => rw [TarWriter.run, List.map_nil, List.flatten_nil, List.append_nil]
  | cons request rest ih =>
    obtain ⟨owner, operation⟩ := request
    rw [TarWriter.run, operate_going, List.map_cons, List.flatten_cons, ← List.append_assoc, ← ih, writtenBytes]
    cases operation.entry owner with
    | error => rw [show sink ++ ((Except.error _ : Except String Bytes).toOption.getD []) = sink from List.append_nil _]; rfl
    | ok bytes => rfl

private theorem run_empty (operations : List (Owner × TarOperation)) :
    ({} : TarWriter).run operations = ⟨(operations.map writtenBytes).flatten, false⟩ := run_going [] operations

theorem run_destroy (operations : List (Owner × TarOperation)) :
    (({} : TarWriter).run operations).destroy = (operations.map writtenBytes).flatten ++ endMarker := by
  rw [run_empty]
  rfl

/-- What is accepted is what the operations that append have written, where they did not throw. -/
theorem accepted_going (sink : Bytes) (operations : List (Owner × TarOperation)) :
    (TarWriter.mk sink false).accepted operations =
      ((operations.filter fun request => request.2 ≠ .endStream).filterMap fun request => (request.2.entry request.1).toOption) := by
  induction operations generalizing sink with
  | nil => rfl
  | cons request rest ih =>
    obtain ⟨owner, operation⟩ := request
    rw [TarWriter.accepted, operate_going, List.filter_cons]
    cases made : operation.entry owner with
    | error message =>
      have append : operation ≠ .endStream := by
        rintro rfl
        cases made
      rw [if_pos (decide_eq_true append), List.filterMap_cons_none (by rw [made]; rfl)]
      exact ih sink
    | ok bytes =>
      by_cases append : operation = .endStream
      · rw [if_neg (by simpa using append)]
        exact (if_pos append).trans (ih _)
      · rw [if_pos (decide_eq_true append), List.filterMap_cons_some (show _ = some bytes by rw [made]; rfl), ← ih (sink ++ bytes)]
        refine (if_neg append).trans ?_
        rw [List.drop_left]

theorem accepted_entry {operations : List (Owner × TarOperation)} {bytes : Bytes}
    (member : bytes ∈ ({} : TarWriter).accepted operations) :
    ∃ owner operation, (owner, operation) ∈ operations ∧ operation ≠ .endStream ∧ operation.entry owner = .ok bytes := by
  rw [show ({} : TarWriter) = ⟨[], false⟩ from rfl, accepted_going, List.mem_filterMap] at member
  obtain ⟨⟨owner, operation⟩, inside, some_⟩ := member
  obtain ⟨there, append⟩ := List.mem_filter.mp inside
  refine ⟨owner, operation, there, of_decide_eq_true append, ?_⟩
  cases made : operation.entry owner with
  | error =>
    rw [made] at some_
    cases some_
  | ok found =>
    rw [made] at some_
    exact congrArg Except.ok (Option.some.inj some_)

/-- What is accepted is all that is written, where the end of the stream is not asked for. -/
theorem accepted_flatten {operations : List (Owner × TarOperation)} (open_ : ∀ request ∈ operations, request.2 ≠ .endStream) :
    (({} : TarWriter).accepted operations).flatten = (operations.map writtenBytes).flatten := by
  rw [show ({} : TarWriter) = ⟨[], false⟩ from rfl, accepted_going,
    List.filter_eq_self.mpr fun request member => decide_eq_true (open_ request member)]
  clear open_
  induction operations with
  | nil => rfl
  | cons request rest ih =>
    rw [List.map_cons, List.flatten_cons, ← ih]
    unfold writtenBytes
    cases made : request.2.entry request.1 with
    | error => rw [List.filterMap_cons_none (by rw [made]; rfl)]; rfl
    | ok bytes => rw [List.filterMap_cons_some (show _ = some bytes by rw [made]; rfl)]; rfl

/-- Each end that is asked for is written besides what is accepted. -/
theorem written_length (operations : List (Owner × TarOperation)) : (operations.map writtenBytes).flatten.length =
    (({} : TarWriter).accepted operations).flatten.length +
      operations.countP (fun request => request.2 = .endStream) * endMarker.length := by
  rw [show ({} : TarWriter) = ⟨[], false⟩ from rfl, accepted_going]
  induction operations with
  | nil => rw [List.countP_nil, Nat.zero_mul]; rfl
  | cons request rest ih =>
    obtain ⟨owner, operation⟩ := request
    rw [List.map_cons, List.flatten_cons, List.length_append, ih, List.filter_cons, List.countP_cons]
    by_cases append : operation = .endStream
    · rw [if_neg (by simpa using append), if_pos (decide_eq_true append), Nat.add_mul, Nat.one_mul]
      subst append
      have added : (writtenBytes (owner, .endStream)).length = endMarker.length := rfl
      omega
    · rw [if_pos (decide_eq_true append), if_neg (by simpa using append), Nat.add_zero]
      unfold writtenBytes
      cases made : operation.entry owner with
      | error => rw [List.filterMap_cons_none (by rw [made]; rfl)]; exact Nat.zero_add _
      | ok bytes =>
        rw [List.filterMap_cons_some (show _ = some bytes by rw [made]; rfl), List.flatten_cons, List.length_append, Nat.add_assoc]
        rfl

private theorem written_allBlocks {operations : List (Owner × TarOperation)}
    (filledData : ∀ owner filepath data, (owner, .appendFile filepath data) ∈ operations → AllBlocks occupied headerSize (paddedData data))
    {bytes : Bytes} (member : bytes ∈ ({} : TarWriter).accepted operations) : AllBlocks occupied headerSize bytes := by
  obtain ⟨owner, operation, inside, append, made⟩ := accepted_entry member
  obtain ⟨header, contents, rfl, headed, more⟩ := entry_headed append made
  have first : AllBlocks occupied headerSize header := by
    intro i inside
    rw [headed.count, Nat.lt_one_iff] at inside
    rw [inside, headed.block]
    exact headed.occupied
  refine first.append (by decide) headed.whole ?_
  rcases more with rfl | ⟨filepath, data, rfl, rfl⟩
  · intro i inside
    cases inside
  · exact filledData owner filepath data inside

/-- An end that is asked for makes the stream longer than what was accepted and one end. -/
theorem WellFormedRun.going {operations : List (Owner × TarOperation)} (formed : WellFormedRun operations) :
    ∀ request ∈ operations, request.2 ≠ .endStream := by
  intro request member ends
  have length := congrArg List.length formed.completed
  rw [run_destroy, List.length_append, List.length_append, written_length] at length
  have count : 0 < operations.countP fun request => request.2 = .endStream :=
    List.countP_pos_iff.mpr ⟨request, member, decide_eq_true ends⟩
  have more : endMarker.length ≤ (operations.countP fun request => request.2 = .endStream) * endMarker.length :=
    Nat.le_mul_of_pos_left _ count
  have positive : 0 < endMarker.length := by rw [endMarker_length]; decide
  omega

/-- A tar stream is well formed exactly if its end is left to the destructor. -/
theorem tarWriter_wellFormed_iff (operations : List (Owner × TarOperation)) :
    WellFormedRun operations ↔ ∀ request ∈ operations, request.2 ≠ .endStream := by
  have parts : ∀ bytes ∈ operations.map writtenBytes, Whole headerSize bytes := by
    intro bytes member
    obtain ⟨request, -, rfl⟩ := List.mem_map.mp member
    exact written_whole request
  constructor
  · exact WellFormedRun.going
  · intro open_
    refine ⟨?_, ?_, ?_, ?_, ?_, ?_⟩
    · intro before _
      rw [run_empty]
      refine Whole.flatten fun bytes member => ?_
      obtain ⟨request, -, rfl⟩ := List.mem_map.mp member
      exact written_whole request
    · rw [run_destroy, accepted_flatten open_]
    · rw [run_destroy]
      exact (Whole.flatten parts).append endMarker_whole
    · intro bytes member
      obtain ⟨owner, operation, -, append, made⟩ := accepted_entry member
      obtain ⟨header, contents, rfl, headed, -⟩ := entry_headed append made
      refine ⟨fun none => ?_, ?_⟩
      · have empty := congrArg List.length none
        rw [List.length_append, headed.length] at empty
        cases Nat.eq_zero_of_add_eq_zero_right empty
      · rw [block_append headed.whole, headed.count, if_pos Nat.one_pos, headed.block]
        exact headed.occupied
    · intro filledData i inside
      rw [run_destroy, ← accepted_flatten open_] at inside ⊢
      have whole : ∀ bytes ∈ ({} : TarWriter).accepted operations, Whole headerSize bytes := by
        intro bytes member
        obtain ⟨owner, operation, -, -, made⟩ := accepted_entry member
        exact entry_whole made
      have marker : blockCount headerSize endMarker = 2 := by rw [blockCount, endMarker_length]; rfl
      rw [blockCount_append (by decide) (Whole.flatten whole), marker] at inside
      rw [block_append (Whole.flatten whole), if_pos (by omega)]
      exact AllBlocks.flatten (by decide) whole (fun bytes => written_allBlocks filledData) i (by omega)
    · rintro before later owner operation rfl _ ⟨other, member⟩
      exact absurd rfl (open_ _ (List.mem_append_left _ member))

/-- The end of the stream is asked for, and a directory is appended after it. -/
theorem tarWriter_malformed : ¬ ∀ operations : List (Owner × TarOperation), WellFormedRun operations :=
  fun formed => (formed [(⟨0, 0, 0⟩, .endStream), (⟨0, 0, 0⟩, .appendDirectory [0x61])]).going _ (.head _) rfl

end Slate
