import Slate.Extraction
import Slate.Library.Lockstep
import Slate.Proofs.TarEntries

/-! When the files that an extraction keeps in memory have no part in what it extracts. -/

namespace Slate
open Library Execution

section
variable (first second : TarReader)

/-- Two readers in the same place, neither of which has taken anything in this call. -/
def SameCall (pass other : TarPass) : Prop :=
  ∃ src size nEmpty, pass = ⟨{ first with src }, size, nEmpty⟩ ∧ other = ⟨{ second with src }, size, nEmpty⟩

def SameTaken (result other : Bytes × TarReader) : Prop :=
  result.1 = other.1 ∧ (result.1 ≠ [] → ∃ h size record src, result.1 = headerName h ∧
    result.2 = first.insertFile h size record src ∧ other.2 = second.insertFile h size record src)

variable {first second}

private theorem readEntry_together (garbage : Uninitialized) (h : Bytes) (src : InputStream) (size : Int) (nEmpty : Nat) :
    Lockstep (fun thrown other => thrown.1 = other.1) (SameNext (SameCall first second) (SameTaken first second))
      (readEntry [] garbage h ⟨{ first with src }, size, nEmpty⟩) (readEntry [] garbage h ⟨{ second with src }, size, nEmpty⟩) := by
  unfold readEntry
  dsimp only
  cases headerProblem h ((scanSize (h.drop sizeOffset)).getD size) with
  | some problem => exact Lockstep.throws rfl
  | none =>
    dsimp only
    cases fileRecord h ((scanSize (h.drop sizeOffset)).getD size) ((scanMode (h.drop modeOffset)).getD garbage.mode) src with
    | error unfiled => exact Lockstep.throws rfl
    | ok filed =>
      dsimp only
      rw [if_pos (Or.inr rfl), if_pos (Or.inr rfl)]
      exact Lockstep.pure (.done ⟨rfl, fun _ => ⟨_, _, _, _, rfl, rfl, rfl⟩⟩)

private theorem readPass_together (garbage : Uninitialized) {pass other : TarPass} (same : SameCall first second pass other) :
    Lockstep (fun thrown other => thrown.1 = other.1) (SameNext (SameCall first second) (SameTaken first second))
      (readPass [] garbage pass) (readPass [] garbage other) := by
  obtain ⟨src, size, nEmpty, rfl, rfl⟩ := same
  have nothing : ∀ reader other, SameTaken first second ([], reader) ([], other) :=
    fun reader other => ⟨rfl, fun impossible => absurd rfl impossible⟩
  unfold readPass
  dsimp only
  generalize src.read headerSize = read
  by_cases ended : (read.2.eof || read.2.fail) = true
  · rw [if_pos ended, if_pos ended]
    exact Lockstep.pure (.done (nothing _ _))
  · rw [if_neg ended, if_neg ended]
    by_cases empty : isEmptyHeader read.1 = true
    · rw [if_pos empty, if_pos empty]
      by_cases marker : nEmpty + 1 = 2
      · rw [if_pos marker, if_pos marker]
        exact Lockstep.pure (.done (nothing _ _))
      · rw [if_neg marker, if_neg marker]
        exact Lockstep.pure (.again ⟨_, _, _, rfl, rfl⟩)
    · rw [if_neg empty, if_neg empty]
      exact readEntry_together garbage read.1 read.2 size nEmpty

/-- What a reader holds in memory is no matter for what it takes next. -/
theorem readFiles_together (garbage : Uninitialized) (src : first.src = second.src) :
    Lockstep (fun thrown other => thrown.1 = other.1) (SameTaken first second)
      (readFiles [] garbage first) (readFiles [] garbage second) := by
  refine Lockstep.loop (fun pass other => readPass_together garbage) ⟨first.src, garbage.size, 0, rfl, ?_⟩
  rw [src]

end

theorem insertFile_lookup (reader : TarReader) (h : Bytes) (size : Int) (record : FileRecord) (src : InputStream) :
    ∃ held, (reader.insertFile h size record src).files.lookup (headerName h) = some held ∧
      (reader.files.lookup (headerName h) = none → held = record) := by
  rw [TarReader.insertFile]
  dsimp only
  cases there : reader.files.lookup (headerName h) with
  | some held => exact ⟨held, there, fun impossible => by cases impossible⟩
  | none => exact ⟨record, (FiniteMap.lookup_insert _ _ _ _).trans (if_pos rfl), fun _ => rfl⟩

theorem insertFile_lookup_ne {reader : TarReader} {h name : Bytes} {size : Int} {record : FileRecord} {src : InputStream}
    (other : name ≠ headerName h) : (reader.insertFile h size record src).files.lookup name = reader.files.lookup name := by
  rw [TarReader.insertFile]
  dsimp only
  split
  · rfl
  · exact (FiniteMap.lookup_insert _ _ _ _).trans (if_neg other)

/-- A reader once so many files have been taken from an archive. -/
inductive Taken (garbage : Nat → Uninitialized) (source : Bytes) : Nat → TarReader → Prop
  | start : Taken garbage source 0 (tarReader source)
  | next {count : Nat} {before after : TarReader} {name : Bytes} (taken : Taken garbage source count before)
      (read : (readFiles [] (garbage count) before).Gives (.ok (name, after))) (named : name ≠ []) :
      Taken garbage source (count + 1) after

/-- Files of one name have one type and the same contents, or link target. -/
def SameFile (first second : FileRecord) : Prop := first.type = second.type ∧ first.data = second.data

instance (first second : FileRecord) : Decidable (SameFile first second) := inferInstanceAs (Decidable (_ ∧ _))

def Unshadowed (garbage : Nat → Uninitialized) (source : Bytes) : Prop :=
  ∀ count reader, Taken garbage source count reader → ∀ first ∈ reader.entries, ∀ second ∈ reader.entries,
    headerName first.header = headerName second.header → SameFile first.record second.record

section
variable {σ : Type} {os : OperatingSystem σ} {garbage : Nat → Uninitialized} {source : Bytes}

private theorem extractFile_sameFile (truePrefix baseFileName : Bytes) {file other : FileRecord} (same : SameFile file other) :
    extractFile os truePrefix baseFileName file = extractFile os truePrefix baseFileName other := by
  unfold extractFile extractRecord
  rw [same.1, same.2]

/-- One extraction drops what it has extracted, the other one does not. -/
structure SameExtraction (garbage : Nat → Uninitialized) (source : Bytes) (dropping keeping : ExtractionPass σ) : Prop where
  src : dropping.reader.src = keeping.reader.src
  fileEnded : dropping.reader.fileEnded = keeping.reader.fileEnded
  files : dropping.files = keeping.files
  calls : dropping.calls = keeping.calls
  dropped : ∀ name, dropping.reader.files.lookup name = none
  kept : keeping.reader.OfEntries
  taken : Taken garbage source keeping.calls keeping.reader

def SameThrown (thrown other : ExtractionThrown σ) : Prop := thrown.message = other.message ∧ thrown.files = other.files

private theorem inFiles_together {α : Type} (program : FileM σ α) (first second : TarReader) (files : σ) :
    Lockstep SameThrown (fun result other => result = other) (inFiles program first files) (inFiles program second files) := by
  unfold inFiles
  cases program files with
  | ok value after => exact Lockstep.pure rfl
  | error message after => exact Lockstep.throws ⟨rfl, rfl⟩

private theorem extractPass_together (truePrefix : Bytes) (unshadowed : Unshadowed garbage source) {dropping keeping : ExtractionPass σ}
    (same : SameExtraction garbage source dropping keeping) :
    Lockstep SameThrown (SameNext (SameExtraction garbage source) fun result other => result.2 = other.2)
      (extractPass os truePrefix true garbage dropping) (extractPass os truePrefix false garbage keeping) := by
  unfold extractPass
  rw [same.fileEnded]
  cases ended : keeping.reader.fileEnded with
  | true => exact Lockstep.pure (.done same.files)
  | false =>
    rw [if_neg Bool.false_ne_true, same.calls]
    refine Lockstep.bind (Lockstep.rethrow (readFiles_together _ same.src).gave fun thrown other alike => ?_) ?_
    · exact ⟨congrArg message alike, same.files⟩
    rintro ⟨name, reader⟩ ⟨other, keeper⟩ ⟨⟨alike, taken⟩, -, read⟩
    obtain rfl : name = other := alike
    by_cases named : name = []
    · simp only [named, if_true]
      exact Lockstep.pure (.done same.files)
    · obtain ⟨h, size, record, src, rfl, rfl, rfl⟩ := taken named
      have later := Taken.next same.taken read named
      have kept := (Grows.insertFile keeping.reader h size record src).files same.kept
      obtain ⟨dropped, there, fresh⟩ := insertFile_lookup dropping.reader h size record src
      obtain ⟨held, holds, -⟩ := insertFile_lookup keeping.reader h size record src
      obtain rfl := fresh (same.dropped _)
      obtain ⟨earlier, member, name, rfl⟩ := kept _ _ holds
      have sameFile := unshadowed _ _ later _ (List.mem_append_right _ (.head _)) _ member name.symm
      simp only [if_neg named, TarReader.fileAt, there, holds, Option.getD_some]
      rw [extractFile_sameFile truePrefix _ sameFile, same.files]
      refine Lockstep.bind (inFiles_together _ _ _ _) ?_
      rintro ⟨-, after⟩ _ rfl
      refine Lockstep.pure (.again ⟨rfl, ?_, rfl, rfl, fun name => ?_, kept, later⟩)
      · exact same.fileEnded
      · change ((dropping.reader.insertFile h size dropped src).files.erase (headerName h)).lookup name = none
        rw [FiniteMap.lookup_erase]
        split
        · rfl
        · next other => exact (insertFile_lookup_ne other).trans (same.dropped name)

/-- Both extractions end in the same way, with the same files, or neither of them ends. -/
theorem extractToFileSystem_together (directory : Bytes) (files : σ) (unshadowed : Unshadowed garbage source) :
    Lockstep SameThrown (fun result other => result.2 = other.2)
      (extractToFileSystem os directory true garbage (tarReader source) files)
      (extractToFileSystem os directory false garbage (tarReader source) files) := by
  unfold extractToFileSystem
  have fresh : ¬ (!(tarReader source).files.pairs.isEmpty) = true := Bool.false_ne_true
  rw [if_neg fresh, if_neg fresh]
  refine Lockstep.bind (inFiles_together _ _ _ _) ?_
  rintro ⟨truePrefix, after⟩ _ rfl
  refine Lockstep.loop (fun dropping keeping => extractPass_together truePrefix unshadowed) ?_
  exact ⟨rfl, rfl, rfl, rfl, fun name => rfl, (fun name record found => nomatch found), .start⟩

/-- The flag does not change what is extracted from an archive whose files of one name have one type
and the same contents, whatever the files are to begin with. -/
theorem extraction_flag (os : OperatingSystem σ) (garbage : Nat → Uninitialized) (source directory : Bytes) (files : σ)
    (unshadowed : Unshadowed garbage source) :
    (∀ reader after, (extractToFileSystem os directory true garbage (tarReader source) files).Gives (.ok (reader, after)) →
      ∃ other, (extractToFileSystem os directory false garbage (tarReader source) files).Gives (.ok (other, after))) ∧
    ∀ reader after, (extractToFileSystem os directory false garbage (tarReader source) files).Gives (.ok (reader, after)) →
      ∃ other, (extractToFileSystem os directory true garbage (tarReader source) files).Gives (.ok (other, after)) := by
  have together := @extractToFileSystem_together _ os _ _ directory files unshadowed
  constructor
  · intro reader after given
    obtain ⟨outcome, also, stage⟩ := together.gives given
    cases stage with
    | @returned value other related =>
      obtain rfl : after = other.2 := related
      exact ⟨other.1, also⟩
  · intro reader after given
    obtain ⟨outcome, also, stage⟩ := together.symm.gives given
    cases stage with
    | @returned value other related =>
      obtain rfl : other.2 = after := related
      exact ⟨other.1, also⟩

end

def EPERM : Nat := 1

/-- A file system that has one directory and supports no others, and no links either. -/
def flatSystem : OperatingSystem (List (Bytes × Bytes)) where
  getcwd _ := .ok [slash]
  readlink path files := .error (if path = [slash] ∨ (files.lookup path).isSome then EINVAL else ENOENT)
  stat path files := if path = [slash] ∨ (files.lookup path).isSome then 0 else ENOENT
  mkdir _ _ files := (EPERM, files)
  symlink _ _ files := (EPERM, files)
  ofstream path data files :=
    if path.head? = some slash ∧ path.tail ≠ [] ∧ slash ∉ path.tail then (true, (path, data) :: files.filter (·.1 ≠ path))
    else (false, files)

def tarBlock (text : String) : Bytes := filled text headerSize

/-- A file "a" of one byte, and another one. -/
def twoFiles (first second : String) : Bytes :=
  loneHeader ++ tarBlock first ++ loneHeader ++ tarBlock second ++ List.replicate (2 * headerSize) 0

def extracted (source : Bytes) (dropAfterExtracting : Bool) : Option (Option (List (Bytes × Bytes))) :=
  ((extractToFileSystem flatSystem [] dropAfterExtracting (fun _ => ⟨0, 0⟩) (tarReader source) []).within 8).map
    fun outcome => outcome.toOption.map Prod.snd

theorem extracted_gives {source : Bytes} {dropAfterExtracting : Bool} {files : List (Bytes × Bytes)}
    (ran : extracted source dropAfterExtracting = some (some files)) : ∃ reader,
      (extractToFileSystem flatSystem [] dropAfterExtracting (fun _ => ⟨0, 0⟩) (tarReader source) []).Gives (.ok (reader, files)) := by
  obtain ⟨outcome, given, returned⟩ := Option.map_eq_some_iff.mp ran
  cases outcome with
  | error thrown => cases returned
  | ok result =>
    cases returned
    exact ⟨result.1, 8, given⟩

def readNext (reader : TarReader) : Option (Bytes × TarReader) :=
  ((readFiles [] ⟨0, 0⟩ reader).within 3).bind Except.toOption

private theorem readNext_of_gives {reader after : TarReader} {name : Bytes} (given : (readFiles [] ⟨0, 0⟩ reader).Gives (.ok (name, after)))
    (over_ : (readNext reader).isSome = true) : readNext reader = some (name, after) := by
  obtain ⟨result, next⟩ := Option.isSome_iff_exists.mp over_
  obtain ⟨outcome, within_, returned⟩ := Option.bind_eq_some_iff.mp next
  cases outcome with
  | error thrown => cases returned
  | ok value =>
    cases returned
    cases given.unique ⟨3, within_⟩
    exact next

def readerAfter (source : Bytes) : Nat → TarReader
  | 0 => tarReader source
  | count + 1 => ((readNext (readerAfter source count)).map Prod.snd).getD (tarReader [])

def twins : Bytes := twoFiles "1" "1"

private theorem twins_unshadowed : Unshadowed (fun _ => ⟨0, 0⟩) twins := by
  have reads : ∀ count < 3, (readNext (readerAfter twins count)).isSome = true := by decide +kernel
  have ends : (readNext (readerAfter twins 2)).map Prod.fst = some [] := by decide +kernel
  have alike : ∀ count < 3, ∀ first ∈ (readerAfter twins count).entries, ∀ second ∈ (readerAfter twins count).entries,
      headerName first.header = headerName second.header → SameFile first.record second.record := by decide +kernel
  have reader : ∀ count reader, Taken (fun _ => ⟨0, 0⟩) twins count reader → count < 3 ∧ reader = readerAfter twins count := by
    intro count reader taken
    induction taken with
    | start => exact ⟨by decide, rfl⟩
    | @next count before after name _ read named ih =>
      obtain ⟨early, rfl⟩ := ih
      have next := readNext_of_gives read (reads count early)
      have last : count ≠ 2 := by
        rintro rfl
        rw [next] at ends
        exact named (Option.some.inj ends)
      refine ⟨by omega, ?_⟩
      rw [readerAfter, next]
      rfl
  intro count other taken
  obtain ⟨early, rfl⟩ := reader count other taken
  exact alike count early

theorem extraction_flag_twins : ∃ reader,
    (extractToFileSystem flatSystem [] false (fun _ => ⟨0, 0⟩) (tarReader twins) []).Gives
      (.ok (reader, [(textBytes "/a", textBytes "1")])) := by
  obtain ⟨reader, given⟩ := extracted_gives
    (show extracted twins true = some (some [(textBytes "/a", textBytes "1")]) by decide +kernel)
  exact (extraction_flag flatSystem (fun _ => ⟨0, 0⟩) twins [] [] twins_unshadowed).1 reader _ given

/-- A file that comes again with other contents is extracted as it was before, if it was not dropped. -/
theorem extraction_shadowed : ¬ ∀ (σ : Type) (os : OperatingSystem σ) (garbage : Nat → Uninitialized) (source directory : Bytes)
    (files after kept : σ) (reader other : TarReader),
      (extractToFileSystem os directory true garbage (tarReader source) files).Gives (.ok (reader, after)) →
      (extractToFileSystem os directory false garbage (tarReader source) files).Gives (.ok (other, kept)) → after = kept := by
  intro same
  obtain ⟨reader, dropped⟩ := extracted_gives
    (show extracted (twoFiles "1" "2") true = some (some [(textBytes "/a", textBytes "2")]) by decide +kernel)
  obtain ⟨other, kept⟩ := extracted_gives
    (show extracted (twoFiles "1" "2") false = some (some [(textBytes "/a", textBytes "1")]) by decide +kernel)
  exact absurd (same _ _ _ _ _ _ _ _ _ _ dropped kept) (by decide)

end Slate
