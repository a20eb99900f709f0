import Slate.ClusterRecords
import Slate.Quantities

/-! The programs the service runs to act on a cluster. What they do there is not the
store's business; what they print, and whether they can be run at all, is given from
outside. -/

namespace Slate
open Library

structure CommandResult where
  output : String := ""
  error : String := ""
  status : Nat := 0
  deriving DecidableEq, Repr

structure Outside where
  /-- What a program with these arguments and this environment does; an error when it
  cannot be run. -/
  run : String → List String → List (String × String) → Except String CommandResult

/-- What is thrown when a key is missing is no `runtime_error`. -/
def keyNotFound : String := "key not found in table"

/-- `catch(std::runtime_error& err)` -/
def catchRuntimeError {α : Type} (program : StoreM α) (handler : String → StoreM α) : StoreM α :=
  tryCatch program fun thrown => if thrown = keyNotFound then throw thrown else handler thrown

def runCommand (outside : Outside) (command : String) (args : List String) (environment : List (String × String)) :
    StoreM CommandResult :=
  match outside.run command args environment with
  | .ok result => return result
  | .error thrown => throw thrown

/-- Drops every escape sequence up to the letter that ends it; `inside` tells whether one
has begun. -/
def withoutEscapes : Bool → List Char → List Char
  | _, [] => []
  | true, char :: rest => withoutEscapes (char != 'm') rest
  | false, '\x1B' :: '[' :: rest => withoutEscapes true rest
  | false, char :: rest => char :: withoutEscapes false rest

def removeShellEscapeSequences (text : String) : String := .ofList (withoutEscapes false text.toList)

def kubectl (outside : Outside) (configPath : String) (arguments : List String) : StoreM CommandResult := do
  let configured := if configPath ≠ "" then ["--kubeconfig=" ++ configPath] else []
  let result ← runCommand outside "kubectl" ("--request-timeout=10s" :: configured ++ arguments) []
  return { result with
    output := removeShellEscapeSequences result.output
    error := removeShellEscapeSequences result.error }

def stringTrim (text : List Char) : List Char := ((text.dropWhile isSpace).reverse.dropWhile isSpace).reverse

/-- What `std::getline` takes one after the other: nothing is left after the last delimiter. -/
def stringSplit (delim : Char) (text : List Char) : List (List Char) :=
  let items := text.splitOn delim
  if items.getLast? = some [] then items.dropLast else items

def stringSplitLines (text : String) : List (List Char) := stringSplit '\n' text.toList

def stringSplitColumns (line : List Char) (delim : Char) (keepEmpty : Bool) : List (List Char) :=
  ((stringSplit delim line).map stringTrim).filter fun token => token ≠ [] || keepEmpty

/-- `text.find(part)` -/
def position (part text : List Char) : Option Nat := text.tails.findIdx? part.isPrefixOf

/-- `std::stoul`: leading blanks and a sign may precede the digits. -/
def stoul (text : List Char) : Option Nat :=
  let signed := text.dropWhile isSpace
  let digits := (if signed.head? = some '-' ∨ signed.head? = some '+' then signed.tail else signed).takeWhile Char.isDigit
  let value := digits.foldl (fun value digit => value * 10 + (digit.toNat - '0'.toNat)) 0
  if digits = [] ∨ 2 ^ 64 ≤ value then none
  else if signed.head? = some '-' then some ((2 ^ 64 - value) % 2 ^ 64) else some value

/-- Where the number starts in a line that names a version. -/
def versionStart (line : List Char) : Option Nat :=
  let after (marker : String) := (position marker.toList line).map (· + marker.length)
  (after "SemVer:\"v").or (after "Version:\"v")

/-- The version that is known after another line of the output; nothing when the line has
no number where one belongs. -/
def helmVersionAfter (known : Nat) (line : List Char) : Option Nat :=
  if "Server: ".toList.isPrefixOf line then some known
  else match versionStart line with
  | none => some known
  | some start =>
    if line.length - 1 ≤ start then some known
    else
      let digits := match position ['.'] (line.drop (start + 1)) with
        | some dot => (line.drop start).take (dot + 1)
        | none => line.drop start
      (stoul digits).map (· % 2 ^ 32)

def helmVersionError : String := "Unable to extract helm version"

def statedVersion (output : String) : Except String Nat :=
  match (output.toList.splitOn '\n').foldlM helmVersionAfter 0 with
  | some version => if version = 0 then .error helmVersionError else .ok version
  | none => .error helmVersionError

def ofExcept {α σ : Type} : Except String α → EStateM String σ α
  | .ok value => return value
  | .error thrown => throw thrown

def getHelmMajorVersion (outside : Outside) : StoreM Nat := do
  let result ← runCommand outside "helm" ["version"] []
  ofExcept (statedVersion result.output)

/-- What a program that names its version says of it. -/
def Outside.helmVersionAnswer (outside : Outside) : Except String Nat := do
  let result ← outside.run "helm" ["version"] []
  statedVersion result.output

theorem getHelmMajorVersion_answer (outside : Outside) :
    getHelmMajorVersion outside = ofExcept outside.helmVersionAnswer := by
  unfold getHelmMajorVersion runCommand Outside.helmVersionAnswer
  cases outside.run "helm" ["version"] [] <;> rfl

theorem statedVersion_error {output thrown : String} (failed : statedVersion output = .error thrown) :
    thrown = helmVersionError := by
  unfold statedVersion at failed
  split at failed
  · split at failed
    · exact (Except.error.inj failed).symm
    · cases failed
  · exact (Except.error.inj failed).symm

def helm (outside : Outside) (configPath tillerNamespace : String) (arguments : List String) : StoreM CommandResult := do
  let tiller := if (← getHelmMajorVersion outside) = 2
    then ["--tiller-namespace=" ++ tillerNamespace, "--tiller-connection-timeout=10"] else []
  runCommand outside "helm" (tiller ++ arguments) [("KUBECONFIG", configPath)]

def Group.namespacePrefix : String := "slate-group-"
def Group.namespaceName (group : Group) : String := Group.namespacePrefix ++ group.name

end Slate
