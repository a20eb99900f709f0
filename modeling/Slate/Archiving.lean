import Slate.Extraction

/-! Putting a directory with all that is in it into a tar archive. -/

namespace Slate
open Library Execution

inductive ItemType where
  | directory
  | regular
  | symlink
  | other
  deriving DecidableEq, Repr

structure Directories where
  /-- The items of a directory, in the order in which they are read, with those for itself and its parent. -/
  opendir : Bytes → Option (List (Bytes × ItemType))
  ifstream : Bytes → Option Bytes
  readlink : Bytes → Option Bytes
  /-- What is in memory behind the target of a link that has been read. -/
  uninitialized : Bytes → Bytes

/-- `path().str()` -/
def itemPath (directory name : Bytes) : Bytes := directory ++ [slash] ++ name

/-- How much of a path is in front of its last component. -/
def parentLength (basePath : Bytes) : Nat := basePath.length - (basePath.reverse.takeWhile (· != slash)).length

/-- The path under which something goes into the archive. Every path that is archived begins with the base path. -/
def cleanPath (basePath : Bytes) (stripPrefix : Bool) (path : Bytes) : Bytes :=
  if stripPrefix then path.drop (parentLength basePath)
  else if path.head? = some slash then path.tail else path

def isDots (name : Bytes) : Bool := name == [0x2E] || name == [0x2E, 0x2E]

/-- A writer, with the number of operations that it has been given. -/
structure Archiver where
  writer : TarWriter := {}
  calls : Nat := 0

section
variable (os : Directories) (owner : Nat → Owner) (clean : Bytes → Bytes)

def Archiver.append (archiver : Archiver) (operation : TarOperation) : Except Bytes Archiver :=
  match archiver.writer.operate (owner archiver.calls) operation with
  | .ok writer => .ok ⟨writer, archiver.calls + 1⟩
  | .error thrown => .error (message thrown)

/-- The target of a link as a string. It is not terminated but behind its buffer. -/
def linkText (path : Bytes) : Option Bytes :=
  (os.readlink (cString path)).map fun target => ((target.take 2047 ++ os.uninitialized path).take 2048).takeWhile (· != 0)

def archiveItem (directory : Bytes) (state : List Bytes × Archiver) (item : Bytes × ItemType) :
    Except Bytes (List Bytes × Archiver) :=
  let path := itemPath directory item.1
  if isDots item.1 then return state
  else match item.2 with
    | .directory => return (state.1 ++ [path], state.2)
    | .regular =>
      match os.ifstream (cString path) with
      | none => throw (message "Unable to open " ++ path ++ message " for reading")
      | some fileData => do return (state.1, ← state.2.append owner (.appendFile (clean path) fileData))
    | .symlink =>
      match linkText os path with
      | none => throw (message "readlink failed on " ++ path)
      | some text => do return (state.1, ← state.2.append owner (.appendSymLink (clean path) text))
    | .other => return state

def archiveDirectory (todo : List Bytes) (archiver : Archiver) (path : Bytes) : Except Bytes (List Bytes × Archiver) :=
  match os.opendir (cString path) with
  | none => throw (path ++ message " is not a readable directory")
  | some items => do
    let archiver ← archiver.append owner (.appendDirectory (clean path))
    items.foldlM (archiveItem os owner clean path) (todo, archiver)

def archivePass (state : List Bytes × Archiver) : Execution Bytes (Next (List Bytes × Archiver) Archiver) :=
  match state.1 with
  | [] => pure (.done state.2)
  | path :: todo =>
    match archiveDirectory os owner clean todo state.2 path with
    | .ok after => pure (.again after)
    | .error thrown => throws thrown

end

def recursivelyArchive (os : Directories) (owner : Nat → Owner) (basePath : Bytes) (archiver : Archiver) (stripPrefix : Bool) :
    Execution Bytes Archiver :=
  loop (archivePass os owner (cleanPath basePath stripPrefix)) ([basePath], archiver)

end Slate
