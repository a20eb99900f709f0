import Mathlib.Algebra.GroupWithZero.Nat
import Slate.Cache
import Slate.Library.Compression

/-! Reading tar archives. -/

namespace Slate
open Library Execution

inductive FileType where
  | regularFile
  | hardLink
  | symbolicLink
  | characterDevice
  | blockDevice
  | directory
  | fifo
  | reserved
  deriving DecidableEq, Repr

structure FileRecord where
  type : FileType
  data : Bytes
  mode : Int
  deriving DecidableEq, Repr

/-- What was taken from an archive: a header, the size that was used, and what became of it. -/
structure TarEntry where
  header : Bytes
  size : Int
  record : FileRecord
  deriving DecidableEq, Repr

/-- A reader, with all entries it took in the order in which it did. -/
structure TarReader where
  src : InputStream
  files : FiniteMap Bytes FileRecord := ∅
  fileEnded : Bool := false
  entries : List TarEntry := []

def headerSize : Nat := 512

-- Where the fields of a header begin, and their lengths where those matter.
def nameLength : Nat := 100
def modeOffset : Nat := 100
def modeLength : Nat := 8
def sizeOffset : Nat := 124
def sizeLength : Nat := 12
def checksumOffset : Nat := 148
def checksumLength : Nat := 8
def typeflagOffset : Nat := 156
def linknameOffset : Nat := 157
def prefixOffset : Nat := 345
def prefixLength : Nat := 155

def headerField (h : Bytes) (offset length : Nat) : Bytes := (h.drop offset).take length

def isSpaceByte (c : UInt8) : Bool := c == 0x20 || (0x09 ≤ c && c ≤ 0x0D)

def isOctal (c : UInt8) : Bool := 0x30 ≤ c && c ≤ 0x37

def octalDigit (c : UInt8) : Nat := c.toNat - 0x30

/-- Whether digits were found is kept with the sum they make up. -/
def storedChecksum (foundDigits : Bool) (storedSum : Nat) : Bytes → Option Nat
  | [] => some storedSum
  | c :: rest =>
    if !foundDigits then
      if isSpaceByte c then storedChecksum false storedSum rest
      else if isOctal c then storedChecksum true (octalDigit c) rest
      else none
    else if c == 0 || c == 0x20 then some storedSum
    else if isOctal c then storedChecksum true (8 * storedSum + octalDigit c) rest
    else none

/-- The checksum is that of a header with spaces in its place. -/
def checksumValid (h : Bytes) : Bool :=
  let blanked := h.take checksumOffset ++ List.replicate checksumLength 0x20 ++ h.drop (checksumOffset + checksumLength)
  storedChecksum false 0 (headerField h checksumOffset checksumLength) == some (blanked.map UInt8.toNat).sum

def isEmptyHeader (h : Bytes) : Bool := h.all (· == 0)

/-- A prefix that is there has at least one byte. -/
def headerName (h : Bytes) : Bytes :=
  let directory := (headerField h prefixOffset prefixLength).takeWhile (· != 0)
  (if directory = [] then [] else directory ++ [0x2F]) ++ (h.take nameLength).takeWhile (· != 0)

def typeForTarTypeFlag (typeFlag : UInt8) : FileType :=
  if typeFlag = '0'.toUInt8 then .regularFile
  else if typeFlag = '1'.toUInt8 then .hardLink
  else if typeFlag = '2'.toUInt8 then .symbolicLink
  else if typeFlag = '3'.toUInt8 then .characterDevice
  else if typeFlag = '4'.toUInt8 then .blockDevice
  else if typeFlag = '5'.toUInt8 then .directory
  else if typeFlag = '6'.toUInt8 then .fifo
  else if typeFlag = '7'.toUInt8 then .reserved
  else .regularFile

def headerType (h : Bytes) : FileType := typeForTarTypeFlag (h.getD typeflagOffset 0)

def properlyTerminated (field : Bytes) : Bool := field.any fun c => c == 0 || c == 0x20

/-- An unsigned number of 64 bits in octal: spaces and a sign may come before its digits, one that is
too large is the largest, and one with a minus is negated. Without digits nothing is converted. -/
def scanOctal (text : Bytes) : Option Nat :=
  let text := (text.takeWhile (· != 0)).dropWhile isSpaceByte
  let negative := text.head? == some 0x2D
  let digits := (if negative || text.head? == some 0x2B then text.tail else text).takeWhile isOctal
  if digits = [] then none else
  let value := digits.foldl (fun value digit => 8 * value + octalDigit digit) 0
  some (if 2 ^ 64 ≤ value then 2 ^ 64 - 1 else if negative then (2 ^ 64 - value) % 2 ^ 64 else value)

/-- `sscanf(text,"%llo",&size)` -/
def scanSize (text : Bytes) : Option Int := (scanOctal text).map fun value : Nat => (value : Int).bmod 18446744073709551616

/-- `sscanf(text,"%o",&mode)` -/
def scanMode (text : Bytes) : Option Int := (scanOctal text).map fun value : Nat => (value : Int).bmod 4294967296

/-- What the variables of one call hold before anything is stored there. -/
structure Uninitialized where
  size : Int
  mode : Int

/-- Bytes that are not there to be read are read as -1. -/
def getBytes : Nat → InputStream → Bytes × InputStream
  | 0, src => ([], src)
  | count + 1, src =>
    let (byte, src) := src.get 0xFF
    let (data, src) := getBytes count src
    (byte :: data, src)

/-- A size that is negative becomes one that no string can have. -/
def fileRecord (h : Bytes) (size mode : Int) (src : InputStream) : Except String (FileRecord × InputStream) :=
  match headerType h with
  | .regularFile =>
    if size < 0 then .error "basic_string::_M_create"
    else
      let (data, src) := getBytes size.toNat src
      .ok (⟨.regularFile, data, mode⟩, src)
  | .symbolicLink => .ok (⟨.symbolicLink, (h.drop linknameOffset).takeWhile (· != 0), mode⟩, src)
  | type => .ok (⟨type, [], mode⟩, src)

/-- Why a header is refused. A field without an end that is its own goes on in the fields after it. -/
def headerProblem (h : Bytes) (size : Int) : Option String :=
  if !checksumValid h then some "Invalid UStar header checksum"
  else if !properlyTerminated (headerField h sizeOffset sizeLength) then
    some "Improperly terminated file size field in UStar header"
  else if size > 0x1FFFFFFFF then some "Overlarge file size in UStar header"
  else if !properlyTerminated (headerField h modeOffset modeLength) then
    some "Improperly terminated file size field in UStar header"
  else none

/-- Blocks are filled up. -/
def skipPadding (size : Int) (src : InputStream) : InputStream :=
  if size.tmod 512 ≠ 0 then src.ignore (512 - size.tmod 512).toNat else src

/-- A file that is there already stays as it is. -/
def TarReader.insertFile (reader : TarReader) (h : Bytes) (size : Int) (record : FileRecord) (src : InputStream) :
    TarReader :=
  { reader with
    src
    files := if (reader.files.lookup (headerName h)).isSome then reader.files
      else reader.files.insert (headerName h) record
    entries := reader.entries ++ [⟨h, size, record⟩] }

structure TarPass where
  reader : TarReader
  size : Int
  nEmpty : Nat := 0

/-- The reader is there still when something is thrown. -/
abbrev TarThrown := String × TarReader

def readEntry (target : Bytes) (garbage : Uninitialized) (h : Bytes) (pass : TarPass) :
    Execution TarThrown (Next TarPass (Bytes × TarReader)) :=
  let size := (scanSize (h.drop sizeOffset)).getD pass.size
  match headerProblem h size with
  | some message => throws (message, pass.reader)
  | none =>
    match fileRecord h size ((scanMode (h.drop modeOffset)).getD garbage.mode) pass.reader.src with
    | .error message => throws (message, pass.reader)
    | .ok (record, src) =>
      let reader := pass.reader.insertFile h size record (skipPadding size src)
      pure (if headerName h = target ∨ target = [] then .done (headerName h, reader)
        else .again ⟨reader, size, 0⟩)

/-- One pass of the loop. Two empty headers are an end. -/
def readPass (target : Bytes) (garbage : Uninitialized) (pass : TarPass) :
    Execution TarThrown (Next TarPass (Bytes × TarReader)) :=
  let (h, src) := pass.reader.src.read headerSize
  let reader := { pass.reader with src }
  if src.eof || src.fail then pure (.done ([], { reader with fileEnded := true }))
  else if isEmptyHeader h then
    if pass.nEmpty + 1 = 2 then pure (.done ([], { reader with fileEnded := true }))
    else pure (.again { pass with reader, nEmpty := pass.nEmpty + 1 })
  else readEntry target garbage h { pass with reader }

/-- Reads files up to the target, or one if there is none. -/
def readFiles (target : Bytes) (garbage : Uninitialized) (reader : TarReader) :
    Execution TarThrown (Bytes × TarReader) :=
  loop (readPass target garbage) ⟨reader, garbage.size, 0⟩

/-- One call after the other, up to one that throws. -/
def readCalls : List (Bytes × Uninitialized) → TarReader → Execution TarThrown TarReader
  | [], reader => pure reader
  | (target, garbage) :: calls, reader => do
    let (_, reader) ← readFiles target garbage reader
    readCalls calls reader

def tarReader (source : Bytes) : TarReader := { src := ⟨source, false, false⟩ }

end Slate
