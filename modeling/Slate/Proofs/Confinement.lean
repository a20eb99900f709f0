import Mathlib.Data.List.Induction
import Slate.Library.Confined
import Slate.Proofs.Extractions
import Slate.Proofs.ResolvedPaths

/-! Where the extraction of an archive leaves something. Whatever is in the archive, and wherever
links lead, files and links are put only where the prefix of the extraction says. -/

namespace Slate
open Library Execution

def pathStep (name : Bytes) : PathStep Bytes :=
  if name = [] ∨ name = [0x2E] then .here else if name = [0x2E, 0x2E] then .up else .entry name

def pathSteps (path : Bytes) : List (PathStep Bytes) := (path.splitOn slash).map pathStep

/-- A link leads on from the root when it begins with a slash. -/
def linkRoute (target : Bytes) : Bool × List (PathStep Bytes) := (target.head? == some slash, pathSteps target)

/-- Where a path leads that begins with a slash. -/
def locate (links : Nat) (tree : FileTree Bytes Bytes Bytes) (follow : Bool) (path : Bytes) : Except WalkError (List Bytes) :=
  FileTree.walk linkRoute tree follow links [] (pathSteps path)

variable {σ : Type}

/-- Documented behaviour of the calls on paths that begin with a slash: each of them walks through the
tree of files, and changes it at most at the place where its path leads, if it does not fail. -/
structure Kernel (os : OperatingSystem σ) (links : Nat) (tree : σ → FileTree Bytes Bytes Bytes) : Prop where
  getcwd : ∀ {files cwd}, os.getcwd files = .ok cwd → 0 ∉ cwd
  target : ∀ {files path target}, os.readlink path files = .ok target → 0 ∉ target
  present : ∀ {files path}, path.head? = some slash → os.readlink path files = .error EINVAL →
    ∃ place node, locate links (tree files) false path = .ok place ∧ tree files place = some node ∧ ¬ node.IsLink
  absent : ∀ {files path place}, path.head? = some slash → os.readlink path files = .error ENOENT →
    locate links (tree files) false path = .ok place → tree files place = none
  mkdir : ∀ path mode files, tree (os.mkdir path mode files).2 = tree files ∨
    ∃ place, tree files place = none ∧ tree (os.mkdir path mode files).2 = (tree files).put place .directory
  symlink : ∀ text path files, path.head? = some slash → tree (os.symlink text path files).2 = tree files ∨
    ∃ place, locate links (tree files) false path = .ok place ∧ tree files place = none ∧
      tree (os.symlink text path files).2 = (tree files).put place (.link text)
  ofstream : ∀ path data files, path.head? = some slash → tree (os.ofstream path data files).2 = tree files ∨
    ∃ place contents, locate links (tree files) true path = .ok place ∧ tree files place ≠ some .directory ∧
      tree (os.ofstream path data files).2 = (tree files).put place (.file contents)

theorem pathSteps_slash (first rest : Bytes) : pathSteps (first ++ slash :: rest) = pathSteps first ++ pathSteps rest := by
  rw [pathSteps, List.splitOn_append_cons_self, List.map_append]
  rfl

theorem pathSteps_name {name : Bytes} (clean : EntryName name) : pathSteps name = [.entry name] := by
  rw [pathSteps, List.splitOn_eq_singleton clean.plain]
  simp [pathStep, clean.some_, clean.dot, clean.dots]

theorem pathSteps_ne_nil (path : Bytes) : pathSteps path ≠ [] := by
  simp [pathSteps, List.splitOn_ne_nil]

private theorem pathSteps_render {names : List Bytes} (clean : ∀ name ∈ names, EntryName name) (first : Bytes) :
    pathSteps (first ++ render names) = pathSteps first ++ names.map .entry := by
  induction names generalizing first with
  | nil => simp
  | cons name names induction =>
    have path : first ++ render (name :: names) = (first ++ slash :: name) ++ render names := by simp [render]
    rw [path, induction (fun other member => clean other (.tail _ member)), pathSteps_slash, pathSteps_name (clean name (.head _)),
      List.append_assoc]
    rfl

section
variable {links : Nat} {tree : FileTree Bytes Bytes Bytes} {names place : List Bytes}

/-- A walk that goes past some entries without links goes past them whatever follows. -/
theorem locate_enters {follow : Bool} {rest : Bytes} (clean : ∀ name ∈ names, EntryName name) (plain : FileTree.Plain tree [] names)
    (found : locate links tree follow (render names ++ slash :: rest) = .ok place) (following : Bool) (more : Bytes) :
    ∃ jump, locate links tree following (render names ++ slash :: more) = FileTree.walkWith tree jump following names (pathSteps more) := by
  obtain ⟨jump, walked⟩ := @FileTree.walk_eq _ _ _ linkRoute tree follow links
  obtain ⟨other, walks⟩ := @FileTree.walk_eq _ _ _ linkRoute tree following links
  have steps (rest : Bytes) : pathSteps (render names ++ slash :: rest) = .here :: (names.map .entry ++ pathSteps rest) := by
    have start := pathSteps_render clean []
    rw [List.nil_append] at start
    rw [pathSteps_slash, start]
    rfl
  rw [locate, walked, steps] at found
  have directory := FileTree.walkWith_directory found
  rw [FileTree.walkWith_here directory] at found
  refine ⟨other, ?_⟩
  rw [locate, walks, steps, FileTree.walkWith_here directory, FileTree.walkWith_plain plain found]
  rfl

theorem locate_directory {follow : Bool} {rest : Bytes} (clean : ∀ name ∈ names, EntryName name)
    (plain : FileTree.Plain tree [] names) (found : locate links tree follow (render names ++ slash :: rest) = .ok place) :
    tree names = some .directory := by
  obtain ⟨jump, walked⟩ := locate_enters clean plain found follow rest
  rw [found] at walked
  obtain ⟨step, steps, same⟩ := List.exists_cons_of_ne_nil (pathSteps_ne_nil rest)
  rw [same] at walked
  exact FileTree.walkWith_directory walked.symm

/-- Without following the last entry, a path leads to the entry. -/
theorem locate_entry {follow : Bool} {rest name : Bytes} (clean : ∀ name ∈ names, EntryName name) (plain : FileTree.Plain tree [] names)
    (found : locate links tree follow (render names ++ slash :: rest) = .ok place) (last : EntryName name) :
    locate links tree false (render (names ++ [name])) = .ok (names ++ [name]) := by
  obtain ⟨jump, walked⟩ := locate_enters clean plain found false name
  rw [render_snoc, walked, pathSteps_name last]
  exact FileTree.walkWith_entry_last (locate_directory clean plain found)

end

section
variable {os : OperatingSystem σ} {links : Nat} {tree : σ → FileTree Bytes Bytes Bytes} {files : σ}

theorem render_absolute (names : List Bytes) (name : Bytes) : (render (names ++ [name])).head? = some slash := by
  cases names with
  | nil => rfl
  | cons first names => rfl

theorem Traced.located (kernel : Kernel os links tree) {names : List Bytes} (traced : Traced os files names) :
    FileTree.Plain (tree files) [] names := by
  induction names using List.reverseRecOn with
  | nil => exact .nil
  | append_singleton names name induction =>
    have before := traced.begin (List.prefix_append names [name])
    have plain := induction before
    obtain ⟨place, node, found, there, noLink⟩ :=
      kernel.present (render_absolute names name) (traced.present names name List.prefix_rfl)
    have last := traced.clean name (List.mem_append_right _ (.head _))
    rw [render_snoc] at found
    have entry := locate_entry before.clean plain found last
    rw [render_snoc, found] at entry
    cases entry
    exact plain.snoc there noLink

/-- A resolved path leads where it says, unless it ends in a slash. -/
theorem ResolvedPath.located (kernel : Kernel os links tree) {path : Bytes} {place : List Bytes} {follow : Bool}
    (resolved : ResolvedPath os files path) (found : locate links (tree files) follow path = .ok place) :
    render place = path ∨ tree files place = some .directory := by
  cases resolved with
  | @present names traced some_ =>
    left
    rcases List.eq_nil_or_concat names with rfl | ⟨front, last, rfl⟩
    · exact absurd rfl some_
    rw [List.concat_eq_append] at traced found ⊢
    have before := traced.begin (List.prefix_append front [last])
    have plain := before.located kernel
    rw [render_snoc] at found
    obtain ⟨jump, walked⟩ := locate_enters before.clean plain found follow last
    rw [found, pathSteps_name (traced.clean last (List.mem_append_right _ (.head _)))] at walked
    obtain ⟨node, there, noLink⟩ := traced.located kernel front last List.prefix_rfl
    rw [List.nil_append] at there
    rw [FileTree.walkWith_entry there noLink (FileTree.walkWith_directory walked.symm), FileTree.walkWith] at walked
    cases walked
    rfl
  | @directory names traced =>
    right
    have plain := traced.located kernel
    have directory := locate_directory traced.clean plain found
    obtain ⟨jump, walked⟩ := locate_enters traced.clean plain found follow []
    have steps : pathSteps [] = [.here] := rfl
    rw [found, steps, FileTree.walkWith_here directory, FileTree.walkWith] at walked
    cases walked
    exact directory
  | @missing names name traced absent =>
    left
    have plain := traced.located kernel
    rw [render_snoc] at found
    have none_ := kernel.absent (render_absolute names name) absent.2 (locate_entry traced.clean plain found absent.1)
    obtain ⟨jump, walked⟩ := locate_enters traced.clean plain found follow name
    rw [found, pathSteps_name absent.1] at walked
    simp only [FileTree.walkWith, locate_directory traced.clean plain found, none_] at walked
    cases walked
    rfl
  | @beyond names name traced absent rest closed =>
    have plain := traced.located kernel
    have path : render (names ++ [name]) ++ slash :: rest = render names ++ slash :: (name ++ slash :: rest) := by
      simp [render_snoc]
    rw [path] at found
    have none_ := kernel.absent (render_absolute names name) absent.2 (locate_entry traced.clean plain found absent.1)
    obtain ⟨jump, walked⟩ := locate_enters traced.clean plain found follow (name ++ slash :: rest)
    obtain ⟨step, steps, same⟩ := List.exists_cons_of_ne_nil (pathSteps_ne_nil rest)
    rw [found, pathSteps_slash, pathSteps_name absent.1, same] at walked
    exact absurd walked.symm (FileTree.walkWith_missing none_ _)

/-- A name that a header gives has no zero in it. -/
theorem headerName_closed (h : Bytes) : 0 ∉ headerName h := by
  have cut (field : Bytes) : 0 ∉ field.takeWhile (· != 0) := by
    intro member
    have other := List.mem_takeWhile_imp member
    simp at other
  intro member
  rw [headerName] at member
  rcases List.mem_append.mp member with front | back
  · split at front
    next => cases front
    next =>
      rcases List.mem_append.mp front with directory | same
      · exact cut _ directory
      · exact absurd same (by decide)
  · exact cut _ back

private theorem readFiles_name {garbage : Uninitialized} {reader after : TarReader} {name : Bytes}
    (read : (readFiles [] garbage reader).Gives (.ok (name, after))) : 0 ∉ name := by
  obtain ⟨outcome, again, stage⟩ := (readFiles_together garbage (rfl : reader.src = reader.src)).gives read
  cases stage with
  | returned taken =>
    by_cases none_ : name = []
    · simp [none_]
    · obtain ⟨h, size, record, src, same, rest⟩ := taken.2 none_
      rw [show name = headerName h from same]
      exact headerName_closed h

private theorem confined_examine (path : Bytes) : Confined (· = ·) (fun _ => True) (examine os path) := by
  apply Confined.get.bind
  intro files
  split
  next => exact .pure _
  next =>
    refine .ite (.throw trivial) (.ite (.pure _) (.ite (.throw trivial) (.ite (.throw trivial) (.ite (.pure _) (.throw trivial)))))

private theorem confined_processComponent (state : Resolution) (next : Option Nat) (component : Bytes) :
    Confined (· = ·) (fun _ => True) (processComponent os state next component) := by
  refine .ite (.pure _) (.ite (.pure _) (.ite (.pure _) ?_))
  apply (confined_examine _).bind
  intro examined
  cases examined with
  | present => exact .pure _
  | missing => exact .pure _
  | symlink linkPath =>
    have rest : Confined (σ := σ) (· = ·) (fun _ => True) (unprocessed state.orig next) := by
      cases next with
      | some pos => exact .pure _
      | none => exact .throw trivial
    exact rest.bind fun _ => .ite (.pure _) (.pure _)

private theorem confined_resolve (left : Nat) (state : Resolution) : Confined (· = ·) (fun _ => True) (resolve os left state) := by
  induction left generalizing state with
  | zero => exact .throw trivial
  | succ left induction =>
    rw [resolve]
    split
    next => exact (confined_processComponent _ _ _).bind fun _ => .pure _
    next => exact .ite (induction _) ((confined_processComponent _ _ _).bind fun _ => induction _)

private theorem confined_realpathHyp (orig : Bytes) : Confined (· = ·) (fun _ => True) (realpathHyp os orig) := by
  refine .ite (confined_resolve _ _) ?_
  apply Confined.get.bind
  intro files
  split
  next => exact .throw trivial
  next => exact confined_resolve _ _

/-- Files and links are put only where the prefix says, and never in the place of a directory. Elsewhere,
at most directories are made. -/
def WithinPrefix (truePrefix : Bytes) (before after : FileTree Bytes Bytes Bytes) : Prop :=
  ∀ place, after place = before place ∨ (before place = none ∧ after place = some .directory) ∨
    (truePrefix <+: render place ∧ before place ≠ some .directory)

variable {truePrefix : Bytes}

theorem WithinPrefix.of_eq {before after : FileTree Bytes Bytes Bytes} (same : after = before) : WithinPrefix truePrefix before after :=
  fun place => .inl (congrFun same place)

theorem WithinPrefix.trans {before middle after : FileTree Bytes Bytes Bytes} (first : WithinPrefix truePrefix before middle)
    (second : WithinPrefix truePrefix middle after) : WithinPrefix truePrefix before after := by
  intro place
  rcases second place with same | ⟨none_, made⟩ | ⟨within, other⟩
  · rw [same]
    exact first place
  · rcases first place with same | ⟨missing, directory⟩ | within
    · exact .inr (.inl ⟨same ▸ none_, made⟩)
    · rw [directory] at none_
      cases none_
    · exact .inr (.inr within)
  · rcases first place with same | ⟨missing, directory⟩ | already
    · exact .inr (.inr ⟨within, same ▸ other⟩)
    · exact absurd directory other
    · exact .inr (.inr already)

theorem WithinPrefix.put {before : FileTree Bytes Bytes Bytes} {place : List Bytes} {node : Node Bytes Bytes}
    (allowed : (before place = none ∧ node = .directory) ∨ (truePrefix <+: render place ∧ before place ≠ some .directory)) :
    WithinPrefix truePrefix before (before.put place node) := by
  intro other
  by_cases same : other = place
  · subst same
    have placed : before.put other node other = some node := if_pos rfl
    rcases allowed with ⟨none_, rfl⟩ | within
    · exact .inr (.inl ⟨none_, placed⟩)
    · exact .inr (.inr within)
  · exact .inl (if_neg same)

instance : Std.Refl fun before after : σ => WithinPrefix truePrefix (tree before) (tree after) := ⟨fun _ => .of_eq rfl⟩

instance : IsTrans σ fun before after => WithinPrefix truePrefix (tree before) (tree after) := ⟨fun _ _ _ => .trans⟩

def filesAfter : Except (ExtractionThrown σ) (TarReader × σ) → σ
  | .ok result => result.2
  | .error thrown => thrown.files

def passAfter : Except (ExtractionThrown σ) (Next (ExtractionPass σ) (TarReader × σ)) → σ
  | .ok (.again after) => after.files
  | .ok (.done result) => result.2
  | .error thrown => thrown.files

/-- Where an extraction puts things. -/
def prefixOf (os : OperatingSystem σ) (directory : Bytes) : FileM σ Bytes :=
  if directory = [] then return [] else realpathHyp os directory

section
variable (kernel : Kernel os links tree)
include kernel

private theorem confined_mkdir (path : Bytes) (mode : Nat) :
    Confined (fun before after => WithinPrefix truePrefix (tree before) (tree after)) (fun _ : Bytes => True)
      (modifyGet (os.mkdir path mode) : FileM σ Nat) := by
  intro files
  rw [ends_modifyGet]
  rcases kernel.mkdir path mode files with same | ⟨place, none_, made⟩
  · exact .of_eq same
  · rw [made]
    exact .put (.inl ⟨none_, rfl⟩)

private theorem confined_makeIfNonexistent (mode : Nat) (path : Bytes) :
    Confined (fun before after => WithinPrefix truePrefix (tree before) (tree after)) (fun _ => True) (makeIfNonexistent os mode path) := by
  apply Confined.get.bind
  intro files
  refine .ite (.pure _) (.check trivial fun _ => ?_)
  exact (confined_mkdir kernel _ _).bind fun _ => .ite (.throw trivial) (.pure _)

private theorem confined_mkdirP (path : Bytes) (mode : Nat) :
    Confined (fun before after => WithinPrefix truePrefix (tree before) (tree after)) (fun _ => True) (mkdirP os path mode) := by
  refine .check trivial fun _ => .check trivial fun _ => ?_
  apply (Confined.forM fun slashPos _ => confined_makeIfNonexistent kernel mode (path.take slashPos)).bind
  intro _
  exact .ite (confined_makeIfNonexistent kernel mode path) (.pure _)

private theorem ends_realpathHyp {orig : Bytes} (closed : 0 ∉ orig) (files : σ) : Library.Ends (realpathHyp os orig) files
    (fun path after => after = files ∧ ResolvedPath os files path) fun _ after => after = files := by
  have ended := @confined_realpathHyp _ os orig files
  have resolved := @realpathHyp_resolved _ os files (fun path target => kernel.target) (fun cwd => kernel.getcwd) orig
  unfold Library.Ends at ended ⊢
  cases ran : realpathHyp os orig files with
  | ok path after => exact resolved closed ran
  | error thrown after =>
    rw [ran] at ended
    exact ended.2.symm

/-- What is put where a resolved path leads is put within the prefix, if the path begins with it. -/
theorem withinPrefix_put {path : Bytes} {place : List Bytes} {node : Node Bytes Bytes} {files : σ} {follow : Bool}
    (resolved : ResolvedPath os files path) (inside : truePrefix <+: path)
    (found : locate links (tree files) follow path = .ok place) (other : tree files place ≠ some .directory) :
    WithinPrefix truePrefix (tree files) ((tree files).put place node) := by
  rcases resolved.located kernel found with same | directory
  · exact .put (.inr ⟨same ▸ inside, other⟩)
  · exact absurd directory other

private theorem ends_extractRecord {path : Bytes} (file : FileRecord) {files : σ} (resolved : ResolvedPath os files path)
    (inside : truePrefix <+: path) :
    Library.Ends (extractRecord os truePrefix path file) files (fun _ after => WithinPrefix truePrefix (tree files) (tree after))
      fun _ after => WithinPrefix truePrefix (tree files) (tree after) := by
  have text : cString path = path := cString_closed resolved.closed
  unfold extractRecord
  split
  next =>
    have written : WithinPrefix truePrefix (tree files) (tree (os.ofstream path file.data files).2) := by
      rcases kernel.ofstream path file.data files resolved.absolute with same | ⟨place, contents, found, other, put⟩
      · exact .of_eq same
      · rw [put]
        exact withinPrefix_put kernel resolved inside found other
    rw [ends_bind, ends_modifyGet, text, ends_ite]
    split
    next => exact written
    next => exact written
  next =>
    have linked (linkPath : Bytes) : WithinPrefix truePrefix (tree files) (tree (os.symlink linkPath path files).2) := by
      rcases kernel.symlink linkPath path files resolved.absolute with same | ⟨place, found, none_, put⟩
      · exact .of_eq same
      · rw [put]
        exact withinPrefix_put kernel resolved inside found (by rw [none_]; exact fun impossible => by cases impossible)
    rw [ends_bind]
    apply (confined_realpathHyp file.data files).mono
    · rintro linkPath after rfl
      dsimp only
      rw [text, ends_ite]
      split
      next => exact .of_eq rfl
      next =>
        rw [ends_bind, ends_modifyGet, ends_ite]
        split
        next => exact linked _
        next => exact linked _
    · rintro error after ⟨-, rfl⟩
      exact .of_eq rfl
  next => exact (confined_mkdirP kernel path 0o755 files).mono (fun _ _ => id) fun _ _ => And.right
  next => exact .of_eq rfl

private theorem confined_extractFile {baseFileName : Bytes} (closed : 0 ∉ baseFileName) (prefixClosed : 0 ∉ truePrefix)
    (file : FileRecord) :
    Confined (fun before after => WithinPrefix truePrefix (tree before) (tree after)) (fun _ => True)
      (extractFile os truePrefix baseFileName file) := by
  intro files
  have name : 0 ∉ (if truePrefix = [] then baseFileName else truePrefix ++ [slash] ++ baseFileName) := by
    split
    next => exact closed
    next => simp [closed, prefixClosed, slash]
  rw [extractFile, extractionPath, ends_bind, ends_bind]
  apply (ends_realpathHyp kernel name files).mono
  · rintro filePath after ⟨rfl, resolved⟩
    dsimp only
    rw [ends_ite]
    split
    next => exact ⟨trivial, .of_eq rfl⟩
    next inside =>
      have inside : truePrefix <+: filePath := by simpa [List.isPrefixOf_iff_prefix] using inside
      exact (ends_extractRecord kernel file resolved inside).mono (fun _ _ => id) fun _ _ halted => ⟨trivial, halted⟩
  · rintro error after rfl
    exact ⟨trivial, .of_eq rfl⟩

/-- One pass of the loop, however it ends. -/
theorem extractPass_within (prefixClosed : 0 ∉ truePrefix) (dropAfterExtracting : Bool) (garbage : Nat → Uninitialized)
    {pass : ExtractionPass σ} {outcome : Except (ExtractionThrown σ) (Next (ExtractionPass σ) (TarReader × σ))}
    (given : (extractPass os truePrefix dropAfterExtracting garbage pass).Gives outcome) :
    WithinPrefix truePrefix (tree pass.files) (tree (passAfter outcome)) := by
  rw [extractPass] at given
  split at given
  next =>
    cases gives_pure.mp given
    exact .of_eq rfl
  next =>
  rcases gives_bind.mp given with ⟨error, thrown, rfl⟩ | ⟨⟨baseFileName, reader⟩, read, rest⟩
  · obtain ⟨before, -, same⟩ := gives_rethrow.mp thrown
    cases before with
    | ok value => cases same
    | error early =>
      cases same
      exact .of_eq rfl
  · obtain ⟨before, read, same⟩ := gives_rethrow.mp read
    cases before with
    | error early => cases same
    | ok value =>
      obtain rfl : (baseFileName, reader) = value := Except.ok.inj same
      have name := readFiles_name read
      dsimp only at rest
      split at rest
      next =>
        cases gives_pure.mp rest
        exact .of_eq rfl
      next =>
        have extracted := confined_extractFile kernel name prefixClosed (reader.fileAt baseFileName) pass.files
        unfold Library.Ends at extracted
        rw [inFiles] at rest
        cases ran : extractFile os truePrefix baseFileName (reader.fileAt baseFileName) pass.files with
        | ok value after =>
          rw [ran] at rest extracted
          rcases gives_bind.mp rest with ⟨error, thrown, rfl⟩ | ⟨result, kept, last⟩
          · cases gives_pure.mp thrown
          · cases gives_pure.mp kept
            cases gives_pure.mp last
            exact extracted
        | error thrown after =>
          rw [ran] at rest extracted
          rcases gives_bind.mp rest with ⟨error, raised, rfl⟩ | ⟨result, kept, last⟩
          · cases gives_throws.mp raised
            exact extracted.2
          · cases gives_throws.mp kept

/-- Wherever its links lead, an archive is extracted within the prefix. -/
theorem extraction_within {directory : Bytes} (closed : 0 ∉ directory) (dropAfterExtracting : Bool)
    (garbage : Nat → Uninitialized) (reader : TarReader) {files : σ} {outcome : Except (ExtractionThrown σ) (TarReader × σ)}
    (given : (extractToFileSystem os directory dropAfterExtracting garbage reader files).Gives outcome) :
    tree (filesAfter outcome) = tree files ∨ ∃ truePrefix, prefixOf os directory files = .ok truePrefix files ∧
      WithinPrefix truePrefix (tree files) (tree (filesAfter outcome)) := by
  rw [extractToFileSystem] at given
  split at given
  next =>
    cases gives_throws.mp given
    exact .inl rfl
  next =>
  have resolved : Library.Ends (prefixOf os directory) files (fun path after => after = files ∧ 0 ∉ path)
      fun _ after => after = files := by
    rw [prefixOf, ends_ite]
    split
    next => exact ⟨rfl, List.not_mem_nil⟩
    next => exact (ends_realpathHyp kernel closed files).mono (fun _ _ both => ⟨both.1, both.2.closed⟩) fun _ _ => id
  unfold Library.Ends at resolved
  change (inFiles (prefixOf os directory) reader files >>= fun result =>
    loop (extractPass os result.1 dropAfterExtracting garbage) ⟨reader, result.2, 0⟩).Gives outcome at given
  rw [inFiles] at given
  cases ran : prefixOf os directory files with
  | error thrown after =>
    rw [ran] at given resolved
    obtain rfl := resolved
    rcases gives_bind.mp given with ⟨error, thrown, rfl⟩ | ⟨value, read, rest⟩
    · cases gives_throws.mp thrown
      exact .inl rfl
    · cases gives_throws.mp read
  | ok truePrefix after =>
    rw [ran] at given resolved
    obtain ⟨rfl, prefixClosed⟩ := resolved
    refine .inr ⟨truePrefix, rfl, ?_⟩
    rcases gives_bind.mp given with ⟨error, thrown, rfl⟩ | ⟨value, read, rest⟩
    · cases gives_pure.mp thrown
    · cases gives_pure.mp read
      apply rest.loop_kept (fun pass => WithinPrefix truePrefix (tree after) (tree pass.files))
        (fun outcome => WithinPrefix truePrefix (tree after) (tree (filesAfter outcome))) _ _ _ (.of_eq rfl)
      · intro pass next before gave
        exact before.trans (extractPass_within kernel prefixClosed dropAfterExtracting garbage gave)
      · intro pass result before gave
        exact before.trans (extractPass_within kernel prefixClosed dropAfterExtracting garbage gave)
      · intro pass thrown before gave
        exact before.trans (extractPass_within kernel prefixClosed dropAfterExtracting garbage gave)

end

end

def EIO : Nat := 5
def EEXIST : Nat := 17
def ENOTDIR : Nat := 20

def errno : WalkError → Nat
  | .noEntry => ENOENT
  | .notDirectory => ENOTDIR
  | .tooManyLinks => ELOOP

/-- The calls on a tree of files in which everything is permitted, with its root as the current directory.
A link whose text is none cannot be read. -/
def treeSystem : OperatingSystem (FileTree Bytes Bytes Bytes) where
  getcwd _ := .ok [slash]
  readlink path tree := match locate 40 tree false path with
    | .error error => .error (errno error)
    | .ok place => match tree place with
      | none => .error ENOENT
      | some (.link text) => if 0 ∈ text ∨ 4096 ≤ text.length then .error EIO else .ok text
      | some _ => .error EINVAL
  stat path tree := match locate 40 tree true path with
    | .error error => errno error
    | .ok place => if (tree place).isSome then 0 else ENOENT
  mkdir path _ tree := match locate 40 tree false path with
    | .error error => (errno error, tree)
    | .ok place => if (tree place).isSome then (EEXIST, tree) else (0, tree.put place .directory)
  symlink text path tree := match locate 40 tree false path with
    | .error error => (errno error, tree)
    | .ok place => if (tree place).isSome then (EEXIST, tree) else (0, tree.put place (.link text))
  ofstream path data tree := match locate 40 tree true path with
    | .error _ => (false, tree)
    | .ok place => match tree place with
      | some .directory => (false, tree)
      | _ => (true, tree.put place (.file data))

theorem treeSystem_kernel : Kernel treeSystem 40 id where
  getcwd given := by
    cases given
    decide
  target {files path target} given := by
    dsimp only [treeSystem] at given
    split at given
    next => cases given
    next =>
      split at given
      next => cases given
      next =>
        split at given
        next => cases given
        next sound =>
          cases given
          exact fun member => sound (.inl member)
      next => cases given
  present {files path} _ given := by
    dsimp only [treeSystem] at given
    split at given
    next error _ => cases error <;> cases given
    next place found =>
      split at given
      next => cases given
      next => split at given <;> cases given
      next node noLink there => exact ⟨place, node, found, there, by cases node with
        | link text => exact absurd rfl (noLink text)
        | _ => exact id⟩
  absent {files path place} _ given found := by
    dsimp only [treeSystem] at given
    change locate 40 files false path = .ok place at found
    rw [found] at given
    dsimp only at given
    split at given
    next none_ => exact none_
    next => split at given <;> cases given
    next => cases given
  mkdir path mode files := by
    dsimp only [treeSystem, id]
    split
    next => exact .inl rfl
    next place found =>
      split
      next => exact .inl rfl
      next none_ => exact .inr ⟨place, by simpa using none_, rfl⟩
  symlink text path files _ := by
    dsimp only [treeSystem, id]
    split
    next => exact .inl rfl
    next place found =>
      split
      next => exact .inl rfl
      next none_ => exact .inr ⟨place, found, by simpa using none_, rfl⟩
  ofstream path data files _ := by
    dsimp only [treeSystem, id]
    split
    next => exact .inl rfl
    next place found =>
      split
      next => exact .inl rfl
      next other => exact .inr ⟨place, data, found, other, rfl⟩

def linkedTree : FileTree Bytes Bytes Bytes := fun place =>
  if place = [] ∨ place = [textBytes "d"] then some .directory
  else if place = [textBytes "l"] then some (.link (textBytes "d"))
  else none

/-- A directory can be made elsewhere, by going up behind a directory that does not exist. -/
example : (match extractFile treeSystem (textBytes "/d") (textBytes "m/x/../../../e") ⟨.directory, [], 0o755⟩ linkedTree with
    | .ok _ after => after [textBytes "e"]
    | .error _ _ => none) = some .directory := by decide +kernel

theorem extraction_within_linked : ∃ outcome,
    (extractToFileSystem treeSystem (textBytes "/l/") true (fun _ => ⟨0, 0⟩) (tarReader twins) linkedTree).Gives outcome ∧
      (filesAfter outcome : FileTree Bytes Bytes Bytes) [textBytes "d", textBytes "a"] = some (.file (textBytes "1")) ∧
      (filesAfter outcome = linkedTree ∨ ∃ truePrefix, prefixOf treeSystem (textBytes "/l/") linkedTree = .ok truePrefix linkedTree ∧
        WithinPrefix truePrefix linkedTree (filesAfter outcome)) := by
  have ran : (((extractToFileSystem treeSystem (textBytes "/l/") true (fun _ => ⟨0, 0⟩) (tarReader twins) linkedTree).within 8).map
      fun outcome => (filesAfter outcome : FileTree Bytes Bytes Bytes) [textBytes "d", textBytes "a"]) =
        some (some (.file (textBytes "1"))) := by
    decide +kernel
  obtain ⟨outcome, given, extracted⟩ := Option.map_eq_some_iff.mp ran
  exact ⟨outcome, ⟨8, given⟩, extracted, extraction_within treeSystem_kernel (by decide) true _ _ ⟨8, given⟩⟩

end Slate
