import Slate.Commands

/-! The address at which the client finds the API server. -/

namespace Slate

/-- `text.find(c, pos)` -/
def findFrom (c : Char) (text : List Char) (pos : Nat) : Option Nat :=
  ((text.drop pos).findIdx? (· == c)).map (pos + ·)

/-- `text.find_first_not_of(set, pos)` -/
def findFirstNotOf (set text : List Char) (pos : Nat) : Option Nat :=
  ((text.drop pos).findIdx? (! set.contains ·)).map (pos + ·)

/-- Whether one found position is less than another. What is not found has the greatest one. -/
def lessPos : Option Nat → Option Nat → Bool
  | some first, some second => first < second
  | some _, none => true
  | none, _ => false

def schemeCharacters : List Char := "abcdefghijklmnopqrstuvwxzy0123456789+.-".toList

def portCharacters : List Char := "0123456789".toList

/-- What is at the path from which the endpoint is read if it has not been set. -/
inductive EndpointFile where
  | doesNotExist
  | unopened
  | text (content : List Char)
deriving DecidableEq

/-- `endpointFile >> apiEndpoint` reads one word, and fails if there is none. -/
def readEndpoint (endpointPath : String) : EndpointFile → Except String (List Char)
  | .doesNotExist => .ok "http://localhost:18080".toList
  | .unopened => throw ("Failed to open endpoint file " ++ endpointPath ++ " for reading")
  | .text content =>
    let read := (content.dropWhile isSpace).takeWhile (! isSpace ·)
    if read = [] then throw ("Failed to read endpoint file " ++ endpointPath) else .ok read

def notURL (apiEndpoint : List Char) (explanation : String) : String :=
  "Endpoint '" ++ .ofList apiEndpoint ++ "' does not look " ++ explanation

def throwIf (condition : Prop) [Decidable condition] (error : String) : Except String Unit :=
  if condition then throw error else .ok ()

/-- The checks of `getEndpoint` on the port, which is behind the given position. -/
def checkPort (apiEndpoint : List Char) (portPos : Nat) : Except String Unit := do
  let portPos := portPos + 1
  throwIf (apiEndpoint.length ≤ portPos) (notURL apiEndpoint "like a valid URL")
  -- after the start of the port, there may be only digits
  throwIf (findFirstNotOf portCharacters apiEndpoint portPos ≠ none) (notURL apiEndpoint
    "valid; port number may contain only digits and no path (including a trailing slash) is permitted")

/-- The checks of `getEndpoint` from where the host begins. -/
def checkHost (apiEndpoint : List Char) (hostPos : Nat) : Except String Unit := do
  throwIf (apiEndpoint.length ≤ hostPos) (notURL apiEndpoint "like a valid URL")
  let portPos := findFrom ':' apiEndpoint hostPos
  -- no slashes are permitted before the port
  throwIf (lessPos (findFrom '/' apiEndpoint hostPos) portPos)
    (notURL apiEndpoint "valid; no path (including a trailing slash) is permitted")
  portPos.elim (.ok ()) (checkPort apiEndpoint)
  throwIf (apiEndpoint.getLast? = some '/')
    (notURL apiEndpoint "valid; no path (including a trailing slash) is permitted")

/-- The checks of `getEndpoint` on the endpoint. -/
def checkEndpoint (apiEndpoint : List Char) : Except String Unit :=
  match position "://".toList apiEndpoint with
  | none => throw (notURL apiEndpoint "like a valid URL")
  | some schemeSepPos => do
    throwIf (schemeSepPos = 0) (notURL apiEndpoint "like it has a valid URL scheme")
    throwIf (lessPos (findFirstNotOf schemeCharacters apiEndpoint 0) (some schemeSepPos))
      (notURL apiEndpoint "like it has a valid URL scheme")
    throwIf (apiEndpoint.length ≤ schemeSepPos + 3) (notURL apiEndpoint "like a valid URL")
    throwIf (findFrom '?' apiEndpoint 0 ≠ none) (notURL apiEndpoint "valid; no query is permitted")
    throwIf (findFrom '#' apiEndpoint 0 ≠ none) (notURL apiEndpoint "valid; no fragment is permitted")
    -- try to figure out where the hostname starts
    let hostPos := schemeSepPos + 3
    checkHost apiEndpoint ((findFrom '@' apiEndpoint hostPos).elim hostPos (· + 1))

/-- An empty endpoint counts as one that has not been set. -/
def getEndpoint (endpointPath : String) (file : EndpointFile) (apiEndpoint : List Char) : Except String (List Char) := do
  let apiEndpoint ← if apiEndpoint = [] then readEndpoint endpointPath file else .ok apiEndpoint
  checkEndpoint apiEndpoint
  return apiEndpoint

end Slate
