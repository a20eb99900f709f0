import Slate.Commands

/-! The helpers that rewrite a text: the replacement of its occurrences of another one, and its
breaking into lines. -/

namespace Slate

/-- A rewritten text. Each replaced occurrence is told by how many characters were behind it,
which no replacement to its left changes. -/
structure Replaced where
  text : List Char
  behind : List Nat
deriving DecidableEq

namespace Replaced

def unchanged (text : List Char) : Replaced := ⟨text, []⟩

def after (behind : List Char) (replaced : Replaced) : Replaced := ⟨replaced.text, behind.length :: replaced.behind⟩

end Replaced

/-- The loop of `replaceString`, which searches from the start of the text every time. -/
def replaceLoop (target replacement : List Char) (subs : Nat) : Nat → Nat → List Char → Option Replaced
  | 0, _, _ => none
  | fuel + 1, replacements, src =>
    match position target src with
    | none => some (.unchanged src)
    | some pos =>
      let behind := src.drop (pos + target.length)
      let src := src.take pos ++ replacement ++ behind
      let replacements := replacements + 1
      (if subs ≠ 0 ∧ subs ≤ replacements then some (.unchanged src)
        else replaceLoop target replacement subs fuel replacements src).map (.after behind)

def replaceString (fuel : Nat) (src target replacement : List Char) (subs : Nat) : Option Replaced :=
  if src = [] then some (.unchanged src)
  else if target = [] then some (.unchanged src)
  else replaceLoop target replacement subs fuel 0 src

/-- A text that fits into a string, the size of which is limited by the type of the distance
between two of its characters. -/
structure StdString where
  text : List Char
  sized : text.length < 2 ^ 63

/-- The loop of `wrapWithIndent` over the characters that remain. The room on a line but the
first is a difference of sizes. -/
def wrapLoop (indent : List Char) (maxWidth : UInt64) : Nat → Bool → List Char → Option (List Char)
  | 0, _, _ => none
  | fuel + 1, firstLine, remaining =>
    if remaining = [] then some []
    else
      let chunkSize := if firstLine then maxWidth else maxWidth - UInt64.ofNat indent.length
      let chunkSize := min chunkSize.toNat remaining.length
      let started := (if firstLine then [] else '\n' :: indent) ++ remaining.take chunkSize
      (wrapLoop indent maxWidth fuel false (remaining.drop chunkSize)).map (started ++ ·)

def wrapWithIndent (fuel : Nat) (orig indent : StdString) (maxWidth : UInt64) : Option (List Char) :=
  wrapLoop indent.text maxWidth fuel true orig.text

end Slate
