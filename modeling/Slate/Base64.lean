import Mathlib.Data.List.DropRight
import Slate.Library.BitStreams
import Slate.Library.Versions

/-! Base64, in which archives are sent and stored. -/

namespace Slate
open Library

def base64lookupTable : Bytes :=
  ("ABCDEFGHIJKLMNOPQRSTUVWXYZ" ++
   "abcdefghijklmnopqrstuvwxyz" ++
   "0123456789" ++
   "+/").toList.map Char.toUInt8

def padCharacter : UInt8 := '='.toUInt8

/-- The first character that is not in the table, and all after it, are padding. -/
def sanityCheckBase64 (str : Bytes) : Bool :=
  match str.dropWhile (base64lookupTable.contains ·) with
  | [] => true
  | rest => (rest.dropWhile (· == padCharacter)).isEmpty

def lookupTable : List Int := [
  -1,-1,-1,-1,-1,-1,-1,-1,-1,-1,-1,-1,-1,-1,-1,-1,
  -1,-1,-1,-1,-1,-1,-1,-1,-1,-1,-1,-1,-1,-1,-1,-1,
  -1,-1,-1,-1,-1,-1,-1,-1,-1,-1,-1,62,-1,-1,-1,63,
  52,53,54,55,56,57,58,59,60,61,-1,-1,-1, 0,-1,-1,
  -1, 0, 1, 2, 3, 4, 5, 6, 7, 8, 9,10,11,12,13,14,
  15,16,17,18,19,20,21,22,23,24,25,-1,-1,-1,-1,-1,
  -1,26,27,28,29,30,31,32,33,34,35,36,37,38,39,40,
  41,42,43,44,45,46,47,48,49,50,51,-1,-1,-1,-1,-1]

/-- The output of a decoder: its cells, the null byte that ends a string among them, the cell
that is written next with the bits that are already in it, and every cell accessed so far. -/
structure Base64Output where
  decoded : Bytes
  outData : Nat := 0
  curBits : Nat := 0
  accessed : List Nat := []

/-- `*outData |= bits` -/
def Base64Output.orInto (output : Base64Output) (bits : Nat) : Base64Output :=
  { output with
    decoded := output.decoded.set output.outData (output.decoded.getD output.outData 0 ||| UInt8.ofNat bits)
    accessed := output.accessed ++ [output.outData] }

/-- As many bits as fit go to the current byte, those that are left to the one after it. -/
def Base64Output.shove (output : Base64Output) (newBits : Nat) : Base64Output :=
  let putBits := min (8 - output.curBits) 6
  let mask := (1 <<< putBits - 1) <<< (6 - putBits)
  let written := output.orInto (((newBits &&& mask) >>> (6 - putBits)) <<< (8 - output.curBits - putBits))
  let curBits := output.curBits + putBits
  if curBits = 8 then
    let next := { written with outData := written.outData + 1, curBits := 0 }
    if putBits < 6 then
      let putBits := 6 - putBits
      let mask := 1 <<< putBits - 1
      { next.orInto ((newBits &&& mask) <<< (8 - putBits)) with curBits := putBits }
    else next
  else { written with curBits }

def illegalCharacter (next : UInt8) : String :=
  "Illegal base64 character: '" ++ String.singleton (Char.ofNat next.toNat) ++ "'"

def decodeCharacters : Bytes → Base64Output → Except String Base64Output
  | [], output => .ok output
  | next :: coded, output =>
    if next = padCharacter then .ok output
    else if next ≥ 128 ∨ lookupTable.getD next.toNat (-1) = -1 then .error (illegalCharacter next)
    else decodeCharacters coded (output.shove (lookupTable.getD next.toNat (-1)).toNat)

/-- Padding at the end is not counted. -/
def decodedLength (coded : Bytes) : Nat :=
  (coded.rdropWhile (· == padCharacter)).length * 3 / 4

def decodeOutput (coded : Bytes) : Except String Base64Output :=
  decodeCharacters coded { decoded := List.replicate (decodedLength coded + 1) 0 }

def decodeBase64 (coded : Bytes) : Except String Bytes := do
  let output ← decodeOutput coded
  return output.decoded.take (decodedLength coded)

structure Base64Input where
  availBits : Nat := 8
  inputIdx : Nat := 0

/-- There is a null byte where a constant string ends. -/
def characterAt (raw : Bytes) (index : Nat) : Nat :=
  (raw.getD index 0).toNat

/-- As many bits as there are come from the current byte, those that are missing from the one after it. -/
def Base64Input.grab (raw : Bytes) (input : Base64Input) : Nat × Base64Input :=
  let getBits := min 6 input.availBits
  let mask := (1 <<< getBits - 1) <<< (input.availBits - getBits)
  let lutIdx := ((characterAt raw input.inputIdx &&& mask) >>> (input.availBits - getBits)) <<< (6 - getBits)
  let availBits := input.availBits - getBits
  if availBits = 0 then
    let inputIdx := input.inputIdx + 1
    if getBits < 6 then
      let getBits := 6 - getBits
      let mask := (1 <<< getBits - 1) <<< (8 - getBits)
      (lutIdx ||| (characterAt raw inputIdx &&& mask) >>> (8 - getBits), ⟨8 - getBits, inputIdx⟩)
    else (lutIdx, ⟨8, inputIdx⟩)
  else (lutIdx, ⟨availBits, input.inputIdx⟩)

/-- The indices of the next characters, `count` of them. -/
def encodedIndices (raw : Bytes) : Nat → Base64Input → List Nat
  | 0, _ => []
  | count + 1, input =>
    let (lutIdx, input) := input.grab raw
    lutIdx :: encodedIndices raw count input

def padOf (raw : Bytes) : Nat := (3 - raw.length % 3) % 3

/-- `4 * ceil(raw.size() / 3.)` -/
def encodedLength (raw : Bytes) : Nat := 4 * ((raw.length + 2) / 3)

def encodeBase64 (raw : Bytes) : Bytes :=
  (encodedIndices raw (encodedLength raw - padOf raw) {}).map (base64lookupTable.getD · 0) ++
    List.replicate (padOf raw) padCharacter

end Slate
