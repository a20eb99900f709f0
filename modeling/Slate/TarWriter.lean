import Slate.Tar
import Mathlib.Data.List.Basic
import Mathlib.Data.Nat.Digits.Defs

/-! Writing tar archives. -/

namespace Slate
open Library

def uidOffset : Nat := 108
def gidOffset : Nat := 116
def mtimeOffset : Nat := 136
def magicOffset : Nat := 257
def versionOffset : Nat := 263

/-- What a header is written with that is not about the entry. -/
structure Owner where
  uid : UInt32
  gid : UInt32
  time : UInt32

inductive TypeCode where
  | regularFile
  | symLink
  | directory
  deriving DecidableEq, Repr

def TypeCode.digit : TypeCode → UInt8
  | regularFile => 0
  | symLink => 2
  | directory => 5

/-- Overwrites what is in memory from an offset. -/
def copyTo (h : Bytes) (offset : Nat) (text : Bytes) : Bytes :=
  h.take offset ++ text ++ h.drop (offset + text.length)

def octalText (number : Nat) : Bytes := ((Nat.digits 8 number).map fun digit => UInt8.ofNat (0x30 + digit)).reverse

/-- `sprintf` of an unsigned number in octal with at least so many characters, and the NUL
that it puts after them. -/
def sprintfOctal (fill : UInt8) (width number : Nat) : Bytes :=
  let digits := if number = 0 then [0x30] else octalText number
  List.replicate (width - digits.length) fill ++ digits ++ [0]

def checksumText : Bytes := List.replicate checksumLength 0x20

/-- The sum of all bytes, of those of the checksum as if they were blanks. -/
def setChecksum (h : Bytes) : Except String Bytes :=
  let blank := copyTo h checksumOffset checksumText
  let sum := (blank.map UInt8.toNat).sum
  if sum > 0o777777 then
    .error "Checksum overflow"
  else
    let summed := copyTo blank checksumOffset (sprintfOctal 0x20 6 sum)
    .ok (copyTo summed (checksumOffset + 7) [0x20])

def slash : UInt8 := 0x2F

/-- Where a long name is split. Nothing behind the end of the name is taken for a slash. -/
def splitIndex (fileName : Bytes) : Option Nat :=
  (List.range' (fileName.length - 101) (157 - (fileName.length - 101))).find? fun splitIdx => fileName[splitIdx]? == some slash

/-- The header with its name, which may be in two parts. -/
def placeName (h fileName : Bytes) : Except String Bytes :=
  if fileName.length > 100 then
    if fileName.length > 256 then
      .error "Filename too long to be stored in POSIX UStar format"
    else match splitIndex fileName with
    | none => .error "Unable to find a prefix/filename split which satisfies POSIX UStar constraints"
    | some splitIdx => .ok (copyTo (copyTo h prefixOffset (fileName.take splitIdx)) 0 (fileName.drop (splitIdx + 1)))
  else .ok (copyTo h 0 fileName)

def headerPosixUstar (owner : Owner) (fileName : Bytes) (fileSize : Nat) (fileType : TypeCode) : Except String Bytes := do
  if fileSize > 0o77777777777 then
    throw "Specified file size >= 8 GB"
  let h ← placeName (List.replicate headerSize 0) fileName
  let h := copyTo h modeOffset (sprintfOctal 0x30 7 0o644)
  let h := copyTo h uidOffset (sprintfOctal 0x30 7 owner.uid.toNat)
  let h := copyTo h gidOffset (sprintfOctal 0x30 7 owner.gid.toNat)
  let h := copyTo h sizeOffset (sprintfOctal 0x30 11 (fileSize % 4294967296))
  let h := copyTo h mtimeOffset (sprintfOctal 0x30 11 owner.time.toNat)
  let h := copyTo h typeflagOffset [0x30 + fileType.digit]
  let h := copyTo h magicOffset [0x75, 0x73, 0x74, 0x61, 0x72, 0]
  let h := copyTo h versionOffset [0x20, 0]
  setChecksum h

structure TarWriter where
  sink : Bytes := []
  ended : Bool := false
  deriving DecidableEq, Repr

def endedError : String := "Cannot append to an ended tar stream"

/-- The contents of a file, filled up to a whole block. -/
def paddedData (data : Bytes) : Bytes :=
  let remainder := data.length % 512
  if remainder ≠ 0 then data ++ List.replicate (512 - remainder) 0 else data

def fileEntry (owner : Owner) (filepath data : Bytes) : Except String Bytes := do
  let header ← headerPosixUstar owner filepath data.length .regularFile
  return header ++ paddedData data

def directoryEntry (owner : Owner) (path : Bytes) : Except String Bytes :=
  headerPosixUstar owner path 0 .directory

def symLinkEntry (owner : Owner) (filepath linkTarget : Bytes) : Except String Bytes := do
  let symEntry ← headerPosixUstar owner filepath 0 .symLink
  if linkTarget.length > 100 then
    throw "Specified link target longer than 100 characters."
  setChecksum (copyTo symEntry linknameOffset linkTarget)

inductive TarOperation where
  | appendFile (filepath data : Bytes)
  | appendDirectory (path : Bytes)
  | appendSymLink (filepath linkTarget : Bytes)
  | endStream
  deriving DecidableEq, Repr

def endMarker : Bytes := List.replicate (2 * headerSize) 0

def TarOperation.entry (owner : Owner) : TarOperation → Except String Bytes
  | appendFile filepath data => fileEntry owner filepath data
  | appendDirectory path => directoryEntry owner path
  | appendSymLink filepath linkTarget => symLinkEntry owner filepath linkTarget
  | endStream => .ok endMarker

namespace TarWriter

def append (writer : TarWriter) (entry : Except String Bytes) : Except String TarWriter := do
  if writer.ended then
    throw endedError
  let bytes ← entry
  return { writer with sink := writer.sink ++ bytes }

def endStream (writer : TarWriter) : TarWriter :=
  if !writer.ended then { writer with sink := writer.sink ++ endMarker } else writer

/-- Each operation looks at the clock for itself. -/
def operate (writer : TarWriter) (owner : Owner) (operation : TarOperation) : Except String TarWriter :=
  match operation with
  | .endStream => .ok writer.endStream
  | _ => writer.append (operation.entry owner)

/-- Operations one after the other. One that throws leaves the writer as it is. -/
def run (writer : TarWriter) : List (Owner × TarOperation) → TarWriter
  | [] => writer
  | (owner, operation) :: rest => ((writer.operate owner operation).toOption.getD writer).run rest

/-- What the operations that append and are not refused have written. -/
def accepted (writer : TarWriter) : List (Owner × TarOperation) → List Bytes
  | [] => []
  | (owner, operation) :: rest =>
    match writer.operate owner operation with
    | .error _ => writer.accepted rest
    | .ok after =>
      if operation = .endStream then after.accepted rest
      else after.sink.drop writer.sink.length :: after.accepted rest

def destroy (writer : TarWriter) : Bytes := writer.endStream.sink

end TarWriter

end Slate
