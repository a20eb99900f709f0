import Slate.Library.Decimals

/-! Quantities of memory, with suffixes for powers of 1024. -/

namespace Slate
open Library

/-- What ends a conversion other than a result. The first two are exceptions, the others are
accesses outside of a table, overflows and accesses to what a document does not have. -/
inductive Fault where
  | invalidArgument
  | outOfRange
  | outsideTable
  | overflow
  | assertion
  deriving DecidableEq, Repr

def isSpace (c : Char) : Bool := c == ' ' || ('\t'.toNat ≤ c.toNat && c.toNat ≤ '\r'.toNat)

def intMax : Int := 2147483647

def longMax : Int := 9223372036854775807

def signed : List Char → Bool × List Char
  | '-' :: text => (true, text)
  | '+' :: text => (false, text)
  | text => (false, text)

/-- The number at the beginning of a text, what follows it is not looked at. -/
def stoi (text : List Char) : Except Fault Int :=
  let (negative, text) := signed (text.dropWhile isSpace)
  let digits := text.takeWhile Char.isDigit
  if digits = [] then .error .invalidArgument else
  let number : Int := Nat.ofDigitChars 10 digits 0
  let number := if negative then -number else number
  if number < -intMax - 1 ∨ intMax < number then .error .outOfRange else .ok number

def lookups : List (List Char × Int) := [
  ("ki".toList, 1024),
  ("mi".toList, 1024 * 1024),
  ("gi".toList, 1024 * 1024 * 1024),
  ("ti".toList, 1024 * 1024 * 1024 * 1024)]

/-- `([[:digit:]]+)([[:alpha:]]{2})?` -/
def matchSuffix (buffer : List Char) : Option (List Char × List Char) :=
  let digits := buffer.takeWhile Char.isDigit
  let suffix := buffer.dropWhile Char.isDigit
  if digits ≠ [] ∧ (suffix = [] ∨ suffix.length = 2 ∧ suffix.all Char.isAlpha) then some (digits, suffix) else none

def parseStringSuffix (input : String) : Except Fault Int :=
  match matchSuffix (input.toList.map Char.toLower) with
  | some (digits, suffix) => do
    let base ← stoi digits
    let scale := (lookups.lookup suffix).getD 1
    if base * scale ≤ longMax then pure (base * scale) else throw .overflow
  | none => .ok 0

/-- Six significant digits, as an output stream writes a number that is neither below 0.0001 nor
as large as a million. -/
def streamed (num : Int) (den : Nat) : List Char :=
  let decimal := Decimal.significant 6 num.natAbs den 9
  (if num < 0 then ['-'] else []) ++ (Decimal.trimmed decimal.scaled decimal.places).text

def suffixVals : List (String × Int) := [
  ("Ki", 1024),
  ("Mi", 1024 * 1024),
  ("Gi", 1024 * 1024 * 1024),
  ("Ti", 1024 * 1024 * 1024 * 1024)]

/-- The remainder is narrowed. The sum that is printed has less than 53 bits. -/
def suffixed (mantissa value : Int) (suffix : String) (unit : Int) : String :=
  let remainder := (value.tmod unit).bmod 4294967296
  if remainder ≠ 0 then String.ofList (streamed (mantissa * unit + remainder) unit.toNat) ++ suffix
  else toString mantissa ++ suffix

def generateFrom (value : Int) : List (String × Int) → Except Fault String
  | [] => .error .outsideTable
  | (suffix, unit) :: suffixVals =>
    let mantissa := value.tdiv unit
    if mantissa < 1024 then .ok (suffixed mantissa value suffix unit) else generateFrom value suffixVals

def generateSuffixedString (value : Int) : Except Fault String := generateFrom value suffixVals

end Slate
