import Slate.Archiving
import Slate.Library.Traversals
import Slate.Proofs.TarRoundTrips
import Mathlib.Algebra.Order.BigOperators.Group.List

/-! What a reader is given of a directory that was put into an archive. -/

namespace Slate
open Library Execution

section
variable (os : Directories) (clean : Bytes → Bytes)

def directoryItems (path : Bytes) : List (Bytes × ItemType) := (os.opendir (cString path)).getD []

def directoriesAmong (directory : Bytes) (items : List (Bytes × ItemType)) : List Bytes :=
  (items.filter fun item => !isDots item.1 && item.2 == .directory).map fun item => itemPath directory item.1

def subdirectories (path : Bytes) : List Bytes := directoriesAmong path (directoryItems os path)

/-- What an item is archived as, apart from its own items; nothing if it cannot be read. -/
def itemOperations (directory : Bytes) (item : Bytes × ItemType) : Option (List TarOperation) :=
  let path := itemPath directory item.1
  if isDots item.1 then some []
  else match item.2 with
    | .directory => some []
    | .regular => (os.ifstream (cString path)).map fun data => [.appendFile (clean path) data]
    | .symlink => (linkText os path).map fun text => [.appendSymLink (clean path) text]
    | .other => some []

def directoryOperations (path : Bytes) : List TarOperation :=
  .appendDirectory (clean path) :: (directoryItems os path).flatMap fun item => (itemOperations os clean path item).getD []

/-- A directory can be opened, and all files and links in it can be read. -/
structure ReadableDirectory (path : Bytes) : Prop where
  opens : ∃ items, os.opendir (cString path) = some items
  items : ∀ item ∈ directoryItems os path, ∃ operations, itemOperations os clean path item = some operations

/-- The files that a directory is to give back, apart from those in its own directories. -/
def directoryFiles (path : Bytes) : List ArchivedFile := (directoryOperations os clean path).filterMap TarOperation.archived

end

def ParentsFirst (clean : Bytes → Bytes) (base : Bytes) (directories : List Bytes) (files : List ArchivedFile) : Prop :=
  ∀ early file late, files = early ++ file :: late → file = ⟨clean base, .directory, []⟩ ∨
    ∃ directory ∈ directories, ∃ name, file.name = clean (itemPath directory name) ∧ ⟨clean directory, .directory, []⟩ ∈ early

private theorem setChecksum_accepts {h : Bytes} (length : h.length = headerSize) : ∃ header, setChecksum h = .ok header := by
  have blank : (copyTo h checksumOffset checksumText).length = headerSize := copyTo_header length (by decide)
  have bytes : ∀ value ∈ (copyTo h checksumOffset checksumText).map UInt8.toNat, value ≤ 255 := by
    intro value member
    obtain ⟨byte, -, rfl⟩ := List.mem_map.mp member
    exact Nat.le_of_lt_succ byte.toNat_lt
  have bound := List.sum_le_card_nsmul _ 255 bytes
  rw [List.length_map, blank] at bound
  exact ⟨_, if_neg (Nat.not_lt.mpr (Nat.le_trans bound (by decide)))⟩

private theorem placeName_accepts {fileName : Bytes} (fits : NameFits fileName) (h : Bytes) :
    ∃ placed, placeName h fileName = .ok placed := by
  unfold placeName
  rcases fits with short | ⟨-, i, late, early, there⟩
  · exact ⟨_, if_neg (Nat.not_lt.mpr short)⟩
  · split
    next long =>
      rw [if_neg (by omega)]
      cases found : splitIndex fileName with
      | some splitIdx => exact ⟨_, rfl⟩
      | none =>
        rw [splitIndex, List.find?_eq_none] at found
        exact absurd (beq_iff_eq.mpr there) (found i (List.mem_range'_1.mpr ⟨late, by omega⟩))
    next => exact ⟨_, rfl⟩

theorem headerPosixUstar_accepts {fileName : Bytes} {fileSize : Nat} (fits : NameFits fileName) (small : fileSize < 4294967296)
    (owner : Owner) (fileType : TypeCode) : ∃ header, headerPosixUstar owner fileName fileSize fileType = .ok header := by
  obtain ⟨placed, done⟩ := placeName_accepts fits (List.replicate headerSize 0)
  rw [headerPosixUstar_eq (Nat.le_of_lt (Nat.lt_trans small (by decide))) done]
  exact setChecksum_accepts (headerFields_written (placeName_length List.length_replicate done) owner fileSize fileType).length

theorem TarOperation.Fits.accepted {operation : TarOperation} (fits : operation.Fits) (owner : Owner) :
    ∃ bytes, operation.entry owner = .ok bytes := by
  cases operation with
  | appendFile filepath data =>
    obtain ⟨header, made⟩ := headerPosixUstar_accepts fits.1 fits.2 owner .regularFile
    exact ⟨header ++ paddedData data, by rw [TarOperation.entry, fileEntry, made]; rfl⟩
  | appendDirectory path => exact headerPosixUstar_accepts fits (show 0 < 4294967296 by decide) owner .directory
  | appendSymLink filepath linkTarget =>
    obtain ⟨symEntry, made⟩ := headerPosixUstar_accepts fits.1 (by decide : 0 < 4294967296) owner .symLink
    have room : linknameOffset + linkTarget.length ≤ headerSize := Nat.le_trans (Nat.add_le_add_left fits.2.le _) (by decide)
    obtain ⟨header, checked⟩ := setChecksum_accepts (copyTo_header (headerPosixUstar_written made).length room)
    refine ⟨header, ?_⟩
    rw [TarOperation.entry, symLinkEntry, made]
    simp only [bind, Except.bind, if_neg (Nat.not_lt.mpr fits.2.le), checked]
  | endStream => exact ⟨endMarker, rfl⟩

section
variable (owner : Nat → Owner)

/-- Operations, each with what the writer finds when it is given it. -/
def requestsFrom : Nat → List TarOperation → List (Owner × TarOperation)
  | _, [] => []
  | calls, operation :: operations => (owner calls, operation) :: requestsFrom (calls + 1) operations

def Archiver.run (archiver : Archiver) (operations : List TarOperation) : Archiver :=
  ⟨archiver.writer.run (requestsFrom owner archiver.calls operations), archiver.calls + operations.length⟩

theorem TarWriter.run_append (writer : TarWriter) (requests others : List (Owner × TarOperation)) :
    writer.run (requests ++ others) = (writer.run requests).run others := by
  induction requests generalizing writer with
  | nil => rfl
  | cons request requests ih => exact ih _

private theorem requestsFrom_append (calls : Nat) (operations others : List TarOperation) :
    requestsFrom owner calls (operations ++ others) =
      requestsFrom owner calls operations ++ requestsFrom owner (calls + operations.length) others := by
  induction operations generalizing calls with
  | nil => rfl
  | cons operation operations ih =>
    rw [List.cons_append, requestsFrom, requestsFrom, ih, List.length_cons, Nat.add_assoc, Nat.add_comm 1]
    rfl

private theorem requestsFrom_map (calls : Nat) (operations : List TarOperation) :
    (requestsFrom owner calls operations).map Prod.snd = operations := by
  induction operations generalizing calls with
  | nil => rfl
  | cons operation operations ih => rw [requestsFrom, List.map_cons, ih]

theorem Archiver.run_append (archiver : Archiver) (operations others : List TarOperation) :
    archiver.run owner (operations ++ others) = (archiver.run owner operations).run owner others := by
  rw [Archiver.run, requestsFrom_append, TarWriter.run_append, List.length_append, ← Nat.add_assoc]
  rfl

theorem Archiver.run_ended {archiver : Archiver} (open_ : archiver.writer.ended = false) (operations : List TarOperation) :
    (archiver.run owner operations).writer.ended = false := by
  obtain ⟨⟨sink, ended⟩, calls⟩ := archiver
  cases open_
  rw [Archiver.run, run_going]

theorem Archiver.append_run {archiver : Archiver} (open_ : archiver.writer.ended = false) {operation : TarOperation}
    (fits : operation.Fits) : archiver.append owner operation = .ok (archiver.run owner [operation]) := by
  obtain ⟨⟨sink, ended⟩, calls⟩ := archiver
  cases open_
  obtain ⟨bytes, made⟩ := fits.accepted (owner calls)
  have operated : (TarWriter.mk sink false).operate (owner calls) operation = .ok ⟨sink ++ bytes, false⟩ := by
    rw [operate_going, made]
    rfl
  rw [Archiver.append, operated, Archiver.run, requestsFrom, TarWriter.run, operated]
  rfl

end

section
variable {os : Directories} (owner : Nat → Owner) {clean : Bytes → Bytes}

private theorem archiveItem_ok {directory : Bytes} {item : Bytes × ItemType} {operations : List TarOperation}
    (read : itemOperations os clean directory item = some operations) (fit : ∀ operation ∈ operations, operation.Fits)
    {archiver : Archiver} (open_ : archiver.writer.ended = false) (todo : List Bytes) :
    archiveItem os owner clean directory (todo, archiver) item =
      .ok (todo ++ directoriesAmong directory [item], archiver.run owner operations) := by
  obtain ⟨name, type⟩ := item
  unfold itemOperations at read
  unfold archiveItem directoriesAmong
  dsimp only at read ⊢
  by_cases dots : isDots name = true
  · rw [if_pos dots] at read
    cases read
    simp [dots]
    rfl
  · rw [if_neg dots] at read
    rw [if_neg dots]
    rw [Bool.not_eq_true] at dots
    cases type with
    | directory =>
      cases read
      simp [dots]
      rfl
    | other =>
      cases read
      simp [dots]
      rfl
    | regular =>
      dsimp only at read ⊢
      obtain ⟨data, opened, rfl⟩ := Option.map_eq_some_iff.mp read
      rw [opened]
      simp [dots, archiver.append_run owner open_ (fit _ (.head _))]
    | symlink =>
      dsimp only at read ⊢
      obtain ⟨text, found, rfl⟩ := Option.map_eq_some_iff.mp read
      rw [found]
      simp [dots, archiver.append_run owner open_ (fit _ (.head _))]

private theorem directoriesAmong_cons (directory : Bytes) (item : Bytes × ItemType) (items : List (Bytes × ItemType)) :
    directoriesAmong directory (item :: items) = directoriesAmong directory [item] ++ directoriesAmong directory items := by
  rw [directoriesAmong, directoriesAmong, directoriesAmong, ← List.map_append, ← List.filter_append, List.singleton_append]

private theorem archiveItems_ok {directory : Bytes} {items : List (Bytes × ItemType)}
    (readable : ∀ item ∈ items, ∃ operations, itemOperations os clean directory item = some operations)
    (fit : ∀ operation ∈ items.flatMap fun item => (itemOperations os clean directory item).getD [], operation.Fits)
    {archiver : Archiver} (open_ : archiver.writer.ended = false) (todo : List Bytes) :
    items.foldlM (archiveItem os owner clean directory) (todo, archiver) =
      .ok (todo ++ directoriesAmong directory items,
        archiver.run owner (items.flatMap fun item => (itemOperations os clean directory item).getD [])) := by
  induction items generalizing todo archiver with
  | nil => simp [directoriesAmong, Archiver.run, requestsFrom, TarWriter.run, pure, Except.pure]
  | cons item items ih =>
    obtain ⟨operations, read⟩ := readable item (.head _)
    rw [List.flatMap_cons, read, Option.getD_some] at fit ⊢
    rw [List.foldlM_cons, archiveItem_ok owner read (fun operation member => fit operation (List.mem_append_left _ member)) open_]
    have rest := @ih (fun other member => readable other (.tail _ member)) (fun operation member => fit operation (List.mem_append_right _ member))
      (archiver.run owner operations) (archiver.run_ended owner open_ operations) (todo ++ directoriesAmong directory [item])
    refine rest.trans ?_
    rw [List.append_assoc, ← directoriesAmong_cons, ← Archiver.run_append]

private theorem archiveDirectory_ok {path : Bytes} (readable : ReadableDirectory os clean path)
    (fit : ∀ operation ∈ directoryOperations os clean path, operation.Fits) {archiver : Archiver}
    (open_ : archiver.writer.ended = false) (todo : List Bytes) :
    archiveDirectory os owner clean todo archiver path =
      .ok (todo ++ subdirectories os path, archiver.run owner (directoryOperations os clean path)) := by
  obtain ⟨items, opened⟩ := readable.opens
  have same : directoryItems os path = items := by
    rw [directoryItems, opened]
    rfl
  have each := readable.items
  rw [directoryOperations, same] at fit
  rw [same] at each
  rw [archiveDirectory, opened, subdirectories, directoryOperations, same]
  simp only [archiver.append_run owner open_ (fit _ (.head _)), bind, Except.bind]
  rw [archiveItems_ok owner each (fun operation member => fit operation (.tail _ member)) (archiver.run_ended owner open_ _),
    ← Archiver.run_append, List.singleton_append]

private theorem archive_queued {todo visited : List Bytes} (queued : Queued (subdirectories os) todo visited)
    (readable : ∀ path ∈ visited, ReadableDirectory os clean path)
    (fit : ∀ path ∈ visited, ∀ operation ∈ directoryOperations os clean path, operation.Fits) {archiver : Archiver}
    (open_ : archiver.writer.ended = false) :
    (loop (archivePass os owner clean) (todo, archiver)).Gives
      (.ok (archiver.run owner (visited.flatMap (directoryOperations os clean)))) := by
  induction queued generalizing archiver with
  | nil => exact Gives.loop_done (gives_pure.mpr rfl)
  | @cons path todo visited more ih =>
    have pass : (archivePass os owner clean (path :: todo, archiver)).Gives
        (.ok (.again (todo ++ subdirectories os path, archiver.run owner (directoryOperations os clean path)))) := by
      rw [archivePass]
      dsimp only
      rw [archiveDirectory_ok owner (readable path (.head _)) (fit path (.head _)) open_, gives_pure]
    rw [pass.loop_iff, List.flatMap_cons, Archiver.run_append]
    exact ih (fun other member => readable other (.tail _ member)) (fun other member => fit other (.tail _ member))
      (archiver.run_ended owner open_ _)

private theorem directoryFiles_eq (path : Bytes) : ∃ files, directoryFiles os clean path = ⟨clean path, .directory, []⟩ :: files ∧
    ∀ file ∈ files, ∃ name, file.name = clean (itemPath path name) := by
  refine ⟨_, List.filterMap_cons_some rfl, fun file member => ?_⟩
  obtain ⟨operation, inside, archived⟩ := List.mem_filterMap.mp member
  obtain ⟨item, -, given⟩ := List.mem_flatMap.mp inside
  refine ⟨item.1, ?_⟩
  unfold itemOperations at given
  dsimp only at given
  split at given
  · cases given
  · split at given
    · cases given
    · cases opened : os.ifstream (cString (itemPath path item.1)) with
      | none =>
        rw [opened] at given
        cases given
      | some data =>
        rw [opened] at given
        cases List.mem_singleton.mp given
        cases archived
        rfl
    · cases found : linkText os (itemPath path item.1) with
      | none =>
        rw [found] at given
        cases given
      | some text =>
        rw [found] at given
        cases List.mem_singleton.mp given
        cases archived
        rfl
    · cases given

private theorem parentsFirst_of_queued {base : Bytes} {visited : List Bytes} (queued : Queued (subdirectories os) [base] visited) :
    ParentsFirst clean base visited (visited.flatMap (directoryFiles os clean)) := by
  intro early file late parts
  obtain ⟨before, path, after, front, back, rfl, inside, rfl⟩ := flatMap_parts parts
  obtain ⟨files, whole, names⟩ := @directoryFiles_eq os clean path
  rw [whole] at inside
  cases front with
  | nil =>
    cases inside
    rcases queued.before rfl with first | ⟨other, there, below⟩
    · cases List.mem_singleton.mp first
      exact .inl rfl
    · obtain ⟨item, -, rfl⟩ := List.mem_map.mp below
      obtain ⟨files, whole, -⟩ := @directoryFiles_eq os clean other
      refine .inr ⟨other, List.mem_append_left _ there, item.1, rfl, ?_⟩
      exact List.mem_append_left _ (List.mem_flatMap.mpr ⟨other, there, whole ▸ .head _⟩)
  | cons head front =>
    cases inside
    obtain ⟨name, same⟩ := names file (List.mem_append_right _ (.head _))
    exact .inr ⟨path, List.mem_append_right _ (.head _), name, same, List.mem_append_right _ (.head _)⟩

end

/-- The text of a link is its target, and what is in memory behind it up to a NUL. -/
theorem linkText_eq {os : Directories} {path target : Bytes} (read : os.readlink (cString path) = some target) (closed : 0 ∉ target)
    (short : target.length ≤ 2047) :
    linkText os path = some (target ++ ((os.uninitialized path).take (2048 - target.length)).takeWhile (· != 0)) := by
  have open_ : ∀ byte ∈ target, (byte != 0) = true := fun byte member => bne_iff_ne.mpr fun same => closed (same ▸ member)
  have fits : target.length ≤ 2048 := short.trans (by decide)
  rw [linkText, read, Option.map_some, List.take_of_length_le short, List.take_append, List.take_of_length_le fits,
    List.takeWhile_append_of_pos open_]

/-- If that begins with a NUL, the target is all. A longer target than can be read does not fit into an archive. -/
theorem linkText_target {os : Directories} {path target text : Bytes} (read : os.readlink (cString path) = some target)
    (closed : 0 ∉ target) (ended : (os.uninitialized path).head? = some 0) (linked : linkText os path = some text)
    (fits : text.length < 100) : text = target := by
  obtain ⟨rest, memory⟩ := List.head?_eq_some_iff.mp ended
  by_cases short : target.length ≤ 2047
  · obtain ⟨room, split⟩ := Nat.exists_eq_add_of_lt (Nat.lt_succ_of_le short)
    have behind : 2048 - target.length = room + 1 := by omega
    rw [linkText_eq read closed short, memory, behind, List.take_succ_cons, List.takeWhile_cons_of_neg (by decide),
      List.append_nil] at linked
    exact (Option.some.inj linked).symm
  · have cut : (target.take 2047).length = 2047 := by
      rw [List.length_take]
      omega
    have open_ : ∀ byte ∈ target.take 2047, (byte != 0) = true := fun byte member =>
      bne_iff_ne.mpr fun same => closed (same ▸ List.mem_of_mem_take member)
    rw [linkText, read, Option.map_some, List.take_append, List.take_of_length_le (cut.le.trans (by decide)),
      List.takeWhile_append_of_pos open_] at linked
    have long : 2047 ≤ text.length := by
      rw [← Option.some.inj linked, List.length_append, cut]
      exact Nat.le_add_right _ _
    omega

private theorem mem_directoryFiles_link {os : Directories} {clean : Bytes → Bytes} {path name text : Bytes}
    (item : (name, ItemType.symlink) ∈ directoryItems os path) (other : isDots name = false)
    (linked : linkText os (itemPath path name) = some text) :
    TarOperation.appendSymLink (clean (itemPath path name)) text ∈ directoryOperations os clean path := by
  refine .tail _ (List.mem_flatMap.mpr ⟨_, item, ?_⟩)
  rw [itemOperations, other]
  dsimp only
  rw [linked]
  exact List.mem_singleton_self _

/-- A directory whose files can all be read and fit into an archive is archived. A reader of the archive is given
each of the directories with what is in it once, and none before the directory that it is in. A link is given with its
target if what is in memory behind that begins with a NUL. -/
theorem archive_readBack (os : Directories) (owner : Nat → Owner) (basePath : Bytes) (stripPrefix : Bool) {count : Nat}
    {directories : List Bytes} (spans : Spans (subdirectories os) count [basePath] directories)
    (readable : ∀ path ∈ directories, ReadableDirectory os (cleanPath basePath stripPrefix) path)
    (fit : ∀ path ∈ directories, ∀ operation ∈ directoryOperations os (cleanPath basePath stripPrefix) path,
      operation.Named ∧ operation.Fits) :
    ∃ archiver, (recursivelyArchive os owner basePath {} stripPrefix).Gives (.ok archiver) ∧
      ∀ garbage, ∃ files after, ReadsFiles garbage 0 (tarReader archiver.writer.destroy) files after ∧
        files.Perm (directories.flatMap (directoryFiles os (cleanPath basePath stripPrefix))) ∧
        ParentsFirst (cleanPath basePath stripPrefix) basePath directories files ∧
        ∀ path ∈ directories, ∀ name target, (name, ItemType.symlink) ∈ directoryItems os path → isDots name = false →
          os.readlink (cString (itemPath path name)) = some target → 0 ∉ target →
          (os.uninitialized (itemPath path name)).head? = some 0 →
          ⟨cleanPath basePath stripPrefix (itemPath path name), .symbolicLink, target⟩ ∈ files := by
  obtain ⟨visited, queued, same⟩ := spans.queued
  have fits : ∀ path ∈ visited, ∀ operation ∈ directoryOperations os (cleanPath basePath stripPrefix) path,
      operation.Named ∧ operation.Fits :=
    fun path member => fit path (same.subset member)
  refine ⟨_, archive_queued owner queued (fun path member => readable path (same.subset member))
    (fun path member operation inside => (fits path member operation inside).2) rfl, fun garbage => ?_⟩
  have requested : ∀ request ∈ requestsFrom owner 0 (visited.flatMap (directoryOperations os (cleanPath basePath stripPrefix))),
      request.2.Named ∧ request.2.Fits := by
    intro request member
    have inside := List.mem_map_of_mem (f := Prod.snd) member
    rw [requestsFrom_map] at inside
    obtain ⟨path, there, given⟩ := List.mem_flatMap.mp inside
    exact fits path there request.2 given
  obtain ⟨after, reads, -⟩ := (run_readsFiles_iff garbage (fun request member => (requested request member).2.accepted request.1)
    fun request member => (requested request member).1).mpr fun request member => (requested request member).2
  have files : (requestsFrom owner 0 (visited.flatMap (directoryOperations os (cleanPath basePath stripPrefix)))).filterMap
      (fun request => request.2.archived) = visited.flatMap (directoryFiles os (cleanPath basePath stripPrefix)) := by
    rw [show (fun request : Owner × TarOperation => request.2.archived) = TarOperation.archived ∘ Prod.snd from rfl, ← List.filterMap_map,
      requestsFrom_map, List.filterMap_flatMap]
    rfl
  rw [files] at reads
  refine ⟨_, after, reads, same.flatMap_right _, ?_, ?_⟩
  · intro early file late parts
    rcases parentsFirst_of_queued queued early file late parts with base | ⟨directory, member, name, named, before⟩
    · exact .inl base
    · exact .inr ⟨directory, same.subset member, name, named, before⟩
  · intro path member name target item other read closed ended
    obtain ⟨text, linked⟩ : ∃ text, linkText os (itemPath path name) = some text := by
      rw [linkText, read]
      exact ⟨_, rfl⟩
    have appended := @mem_directoryFiles_link os (cleanPath basePath stripPrefix) path name text item other linked
    obtain rfl := linkText_target read closed ended linked (fit path member _ appended).2.2
    refine List.mem_flatMap.mpr ⟨path, same.symm.subset member, List.mem_filterMap.mpr ⟨_, appended, rfl⟩⟩

/-- A directory with a file and two links in it, and a file in a directory below it. Behind the target of one of the
links there is something in memory. -/
def chartDirectories : Directories where
  opendir path :=
    if path = textBytes "web" then some [(textBytes ".", .directory), (textBytes "..", .directory), (textBytes "Chart.yaml", .regular),
      (textBytes "templates", .directory), (textBytes "latest", .symlink), (textBytes "stale", .symlink)]
    else if path = textBytes "web/templates" then some [(textBytes "pod.yaml", .regular)]
    else none
  ifstream _ := some (textBytes "name: web")
  readlink _ := some (textBytes "Chart.yaml")
  uninitialized path := if path = textBytes "web/stale" then textBytes "?" ++ [0] else [0]

theorem chartDirectories_readBack : ∃ archiver,
    (recursivelyArchive chartDirectories (fun _ => ⟨0, 0, 0⟩) (textBytes "web") {} true).Gives (.ok archiver) ∧
      ∀ garbage, ∃ files after, ReadsFiles garbage 0 (tarReader archiver.writer.destroy) files after ∧
        files.Perm ([textBytes "web", textBytes "web/templates"].flatMap (directoryFiles chartDirectories (cleanPath (textBytes "web") true))) ∧
        ParentsFirst (cleanPath (textBytes "web") true) (textBytes "web") [textBytes "web", textBytes "web/templates"] files ∧
        ⟨textBytes "web/latest", .symbolicLink, textBytes "Chart.yaml"⟩ ∈ files ∧
        ⟨textBytes "web/stale", .symbolicLink, textBytes "Chart.yaml?"⟩ ∈ files := by
  have web : subdirectories chartDirectories (textBytes "web") = [textBytes "web/templates"] := by decide +kernel
  have templates : subdirectories chartDirectories (textBytes "web/templates") = [] := by decide +kernel
  have spans : Spans (subdirectories chartDirectories) 2 [textBytes "web"] [textBytes "web", textBytes "web/templates"] := by
    refine @Spans.cons _ _ 1 0 _ [] [textBytes "web/templates"] [] ?_ .nil
    rw [web]
    refine @Spans.cons _ _ 0 0 _ [] [] [] ?_ .nil
    rw [templates]
    exact .nil
  have readable : ∀ path ∈ [textBytes "web", textBytes "web/templates"], (chartDirectories.opendir (cString path)).isSome = true ∧
      ∀ item ∈ directoryItems chartDirectories path,
        (itemOperations chartDirectories (cleanPath (textBytes "web") true) path item).isSome = true := by decide +kernel
  have above : directoryOperations chartDirectories (cleanPath (textBytes "web") true) (textBytes "web") =
      [.appendDirectory (textBytes "web"), .appendFile (textBytes "web/Chart.yaml") (textBytes "name: web"),
        .appendSymLink (textBytes "web/latest") (textBytes "Chart.yaml"),
        .appendSymLink (textBytes "web/stale") (textBytes "Chart.yaml?")] := by decide +kernel
  have below : directoryOperations chartDirectories (cleanPath (textBytes "web") true) (textBytes "web/templates") =
      [.appendDirectory (textBytes "web/templates"), .appendFile (textBytes "web/templates/pod.yaml") (textBytes "name: web")] := by
    decide +kernel
  have fit : ∀ path ∈ [textBytes "web", textBytes "web/templates"],
      ∀ operation ∈ directoryOperations chartDirectories (cleanPath (textBytes "web") true) path, operation.Named ∧ operation.Fits := by
    simp only [List.forall_mem_cons, above, below, TarOperation.Named, TarOperation.Fits, NameFits]
    simp [textBytes]
  obtain ⟨archiver, archived, reads⟩ := archive_readBack chartDirectories (fun _ => ⟨0, 0, 0⟩) (textBytes "web") true spans
    (fun path member => ⟨Option.isSome_iff_exists.mp (readable path member).1, fun item inside =>
      Option.isSome_iff_exists.mp ((readable path member).2 item inside)⟩) fit
  refine ⟨archiver, archived, fun garbage => ?_⟩
  obtain ⟨files, after, read, perm, parents, links⟩ := reads garbage
  refine ⟨files, after, read, perm, parents, ?_, ?_⟩
  · exact links (textBytes "web") (.head _) (textBytes "latest") (textBytes "Chart.yaml") (by decide +kernel) (by decide +kernel) rfl
      (by decide +kernel) (by decide +kernel)
  · refine perm.symm.subset (List.mem_flatMap.mpr ⟨textBytes "web", .head _, ?_⟩)
    rw [directoryFiles, above]
    exact .tail _ (.tail _ (.tail _ (.head _)))

end Slate
