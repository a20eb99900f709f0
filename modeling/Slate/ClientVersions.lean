import Slate.Commands
import Slate.Versions

/-! How the client decides whether a released version is one to upgrade to. -/

namespace Slate
open Library Versions

/-- The parts of a text between its dots. A text without a dot has none. -/
def semverTokens (input : List Char) : List (List Char) :=
  if '.' ∈ input then input.splitOn '.' else []

/-- What follows the first `v`, if there is one. -/
def stripV (token : List Char) : List Char :=
  if 'v' ∈ token then (token.dropWhile (· ≠ 'v')).tail else token

def semverParse (input : List Char) : Option (List Nat) :=
  match semverTokens input with
  | [] => some []
  | first :: tokens => (stripV first :: tokens).mapM stoul

def newerVersionAvailable (clientVersion availableVersion : List Nat) : Bool :=
  clientVersion.length == availableVersion.length &&
    (clientVersion.zip availableVersion).any fun parts => parts.2 > parts.1

def isSemanticVersion (version : List Char) : Bool :=
  'v' ∈ version || '.' ∈ version

/-- Whether the upgrade goes on to offer the available version. A client whose own version
is not semantic is taken to be out of date, and no answer means that a part is not a number. -/
def upgradeOffered (clientVersion availableVersion : List Char) : Option Bool :=
  if isSemanticVersion clientVersion then do
    let parsedClientVersion ← semverParse clientVersion
    let parsedAvailableVersion ← semverParse availableVersion
    return newerVersionAvailable parsedClientVersion parsedAvailableVersion
  else
    some true

structure Version where
  parts : List (List Char)
  several : 2 ≤ parts.length
  proper : ∀ part ∈ parts, part ≠ []
  digits : ∀ part ∈ parts, ∀ c ∈ part, c.isDigit = true
  fits : ∀ part ∈ parts, Nat.ofDigitChars 10 part 0 < 2 ^ 64

namespace Version

def components (version : Version) : List Nat := version.parts.map fun part => Nat.ofDigitChars 10 part 0

def text (version : Version) : List Char := ['.'].intercalate version.parts

/-- As the release is tagged, with or without a `v` in front. -/
def tag (version : Version) (marked : Bool) : List Char :=
  if marked then 'v' :: version.text else version.text

/-- The bytes of the text, all of which are ASCII characters. -/
def bytes (version : Version) : Bytes := version.text.map fun c => c.toNat.toUInt8

end Version

end Slate
