import Slate.Tar
import Slate.TarWriter

/-! Writing the contents of tar archives to a file system. -/

namespace Slate
open Library Execution

/-- What the operating system does with files. A number is that of an error, or zero. -/
structure OperatingSystem (σ : Type) where
  getcwd : σ → Except Nat Bytes
  readlink : Bytes → σ → Except Nat Bytes
  stat : Bytes → σ → Nat
  mkdir : Bytes → Nat → σ → Nat × σ
  symlink : Bytes → Bytes → σ → Nat × σ
  /-- Opens a file, and writes it anew if it could be opened. -/
  ofstream : Bytes → Bytes → σ → Bool × σ

def ENOENT : Nat := 2
def EACCES : Nat := 13
def EINVAL : Nat := 22
def ENAMETOOLONG : Nat := 36
def ELOOP : Nat := 40

/-- What works on the files. It throws the text of an exception. -/
abbrev FileM (σ : Type) := EStateM Bytes σ

def message (text : String) : Bytes := text.toUTF8.toList

/-- What the operating system takes for a path. -/
def cString (path : Bytes) : Bytes := path.takeWhile (· != 0)

variable {σ : Type} (os : OperatingSystem σ)

structure PathComponent where
  name : Bytes
  /-- This component does not exist. -/
  hypothetical : Bool := false
  deriving DecidableEq, Repr

def assemble (components : List PathComponent) : Bytes :=
  if components = [] then [slash] else (components.map fun c => slash :: c.name).flatten

/-- `find('/',start)` -/
def findSlash (path : Bytes) (start : Nat) : Option Nat :=
  ((path.drop start).findIdx? (· == slash)).map (start + ·)

inductive Examined where
  | present
  | missing
  | symlink (linkPath : Bytes)

/-- The path may exist, and may be a symlink. -/
def examine (componentPath : Bytes) : FileM σ Examined := do
  match os.readlink (cString componentPath) (← get) with
  | .ok linkPath => return .symlink (linkPath.take 4096)
  | .error err =>
    if err = EACCES then throw (message "Permission to search " ++ componentPath ++ message " denied")
    else if err = EINVAL then return .present
    else if err = ELOOP then throw (message "Too many levels of indirection examining " ++ componentPath)
    else if err = ENAMETOOLONG then
      throw (message "A path component of the symbolically expanded full path was too long in " ++ componentPath)
    else if err = ENOENT then return .missing
    else throw (message "Error checking whether " ++ componentPath ++ message " is a symbolic link: " ++ message (toString err))

structure Resolution where
  orig : Bytes
  components : List PathComponent := []
  pos : Nat := 0
  last : Nat := 0

/-- What is left of the path from a position, which there is none of behind the last component. -/
def unprocessed (orig : Bytes) : Option Nat → FileM σ Bytes
  | some pos => return orig.drop pos
  | none => throw (message "basic_string::substr: __pos (which is 18446744073709551615) > this->size() (which is " ++
      message (toString orig.length) ++ message ")")

/-- One component of a path, up to the next slash if there is one. A link that is absolute throws out
what has been accumulated; behind a component that does not exist, all are taken not to exist. -/
def processComponent (state : Resolution) (next : Option Nat) (component : Bytes) : FileM σ Resolution := do
  let pos := next.getD state.orig.length
  if component = [0x2E] then
    return { state with pos, last := pos }
  else if component = [0x2E, 0x2E] then
    return { state with components := state.components.dropLast, pos, last := pos }
  else if state.components.any PathComponent.hypothetical then
    return { state with components := state.components ++ [⟨component, true⟩], pos }
  else
    let components := state.components ++ [⟨component, false⟩]
    match ← examine os (assemble components) with
    | .present => return { state with components, pos, last := pos }
    | .missing => return { state with components := state.components ++ [⟨component, true⟩], pos, last := pos }
    | .symlink linkPath =>
      let rest ← unprocessed state.orig next
      if linkPath.head? = some slash then
        return { orig := linkPath ++ rest }
      else
        return { state with orig := state.orig.take (state.last + 1) ++ linkPath ++ rest, pos := state.last }

/-- Iterates over the components for as many passes as are left. -/
def resolve : Nat → Resolution → FileM σ Bytes
  | 0, state => throw (message "Too many levels of indirection examining " ++ state.orig)
  | left + 1, state => do
    match findSlash state.orig (state.pos + 1) with
    | none =>
      let state ← processComponent os state none (state.orig.drop (state.last + 1))
      return assemble state.components
    | some pos =>
      if pos ≤ state.last + 1 then
        -- repeated slashes
        resolve left { state with pos, last := pos }
      else
        let component := (state.orig.drop (state.last + 1)).take (pos - state.last - 1)
        resolve left (← processComponent os state (some pos) component)

def realpathHyp (orig : Bytes) : FileM σ Bytes := do
  if orig.head? = some slash then
    resolve os 1025 { orig }
  else
    match os.getcwd (← get) with
    | .error err => throw (message "getcwd failed with error " ++ message (toString err))
    | .ok rawPath => resolve os 1025 { orig := rawPath ++ [slash] ++ orig }

def makeIfNonexistent (mode : Nat) (path : Bytes) : FileM σ Unit := do
  let err := os.stat (cString path) (← get)
  if err = 0 then
    return ⟨⟩
  if err ≠ ENOENT then
    throw (message "Unable to stat " ++ path)
  let err ← modifyGet (os.mkdir (cString path) mode)
  if err ≠ 0 then
    throw (message "Unable to create directory " ++ path ++ message ": error " ++ message (toString err))

def slashes (path : Bytes) : List Nat := (List.range' 1 (path.length - 1)).filter fun i => path[i]? == some slash

def mkdirP (path : Bytes) (mode : Nat) : FileM σ Unit := do
  if path = [] then
    throw (message "The empty path is not a valid argument to mkdir")
  if mode > 0o777 then
    throw (message "mkdir does not permit setting any mode bits above the lowest 9")
  (slashes path).forM fun slashPos => makeIfNonexistent os mode (path.take slashPos)
  if path.getLast? ≠ some slash then
    makeIfNonexistent os mode path

def FileType.number : FileType → Nat
  | regularFile => 0
  | hardLink => 1
  | symbolicLink => 2
  | characterDevice => 3
  | blockDevice => 4
  | directory => 5
  | fifo => 6
  | reserved => 7

def extractRecord (truePrefix filePath : Bytes) (file : FileRecord) : FileM σ Unit :=
  match file.type with
  | .regularFile => do
    let opened ← modifyGet (os.ofstream (cString filePath) file.data)
    if !opened then
      throw (message "Unable to open " ++ filePath ++ message " for writing")
  | .symbolicLink => do
    let linkPath ← realpathHyp os file.data
    if !truePrefix.isPrefixOf linkPath then
      throw (message "Refusing to extract symlink pointing to " ++ linkPath ++ message " which is not within " ++ truePrefix)
    let err ← modifyGet (os.symlink (cString linkPath) (cString filePath))
    if err ≠ 0 then
      throw (message "Unable to extract symlink: error " ++ message (toString err))
  | .directory => mkdirP os filePath 0o755
  | type => throw (message "Extraction not implemented for file type " ++ message (toString type.number))

def extractionPath (truePrefix baseFileName : Bytes) : FileM σ Bytes := do
  let filePath ← realpathHyp os (if truePrefix = [] then baseFileName else truePrefix ++ [slash] ++ baseFileName)
  if !truePrefix.isPrefixOf filePath then
    throw (message "Refusing to extract " ++ baseFileName ++ message " to " ++ filePath ++
      message " which is not within " ++ truePrefix)
  return filePath

def extractFile (truePrefix baseFileName : Bytes) (file : FileRecord) : FileM σ Unit := do
  let filePath ← extractionPath os truePrefix baseFileName
  extractRecord os truePrefix filePath file

/-- `files[name]` -/
def TarReader.fileAt (reader : TarReader) (name : Bytes) : FileRecord :=
  (reader.files.lookup name).getD ⟨.regularFile, [], 0o644⟩

def TarReader.dropFile (reader : TarReader) (name : Bytes) : TarReader :=
  { reader with files := reader.files.erase name }

structure ExtractionPass (σ : Type) where
  reader : TarReader
  files : σ
  /-- How many calls have read from the archive. -/
  calls : Nat := 0

/-- What is there when an exception has left the function. -/
structure ExtractionThrown (σ : Type) where
  message : Bytes
  reader : TarReader
  files : σ

def inFiles {α : Type} (program : FileM σ α) (reader : TarReader) (files : σ) : Execution (ExtractionThrown σ) (α × σ) :=
  match program files with
  | .ok value after => pure (value, after)
  | .error message after => throws ⟨message, reader, after⟩

variable (truePrefix : Bytes) (dropAfterExtracting : Bool) (garbage : Nat → Uninitialized)

def extractPass (pass : ExtractionPass σ) :
    Execution (ExtractionThrown σ) (Next (ExtractionPass σ) (TarReader × σ)) :=
  if pass.reader.fileEnded then pure (.done (pass.reader, pass.files))
  else do
    let (baseFileName, reader) ← (readFiles [] (garbage pass.calls) pass.reader).rethrow
      fun thrown => ⟨message thrown.1, thrown.2, pass.files⟩
    if baseFileName = [] then return .done (reader, pass.files)
    let (_, files) ← inFiles (extractFile os truePrefix baseFileName (reader.fileAt baseFileName)) reader pass.files
    let reader := if dropAfterExtracting then reader.dropFile baseFileName else reader
    return .again ⟨reader, files, pass.calls + 1⟩

/-- Each call that reads has its own garbage in its variables. -/
def extractToFileSystem (directory : Bytes) (dropAfterExtracting : Bool) (garbage : Nat → Uninitialized) (reader : TarReader)
    (files : σ) : Execution (ExtractionThrown σ) (TarReader × σ) := do
  if !reader.files.pairs.isEmpty then
    throws ⟨message "extractToFileSystem does not correctly handle already extracted files", reader, files⟩
  else
    let (truePrefix, files) ← inFiles (if directory = [] then return [] else realpathHyp os directory) reader files
    loop (extractPass os truePrefix dropAfterExtracting garbage) ⟨reader, files, 0⟩

end Slate
