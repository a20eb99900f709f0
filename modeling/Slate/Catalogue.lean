import Slate.Cache
import Slate.Commands
import Slate.Library.Programs
import Mathlib.Data.List.Dedup

/-! The catalogue of applications. What is in a chart repository is asked of Helm, and
what Helm answers is cached by repository. -/

namespace Slate
open Library

structure Application where
  valid : Bool := false
  name : String := ""
  version : String := ""
  chartVersion : String := ""
  description : String := ""
  deriving DecidableEq, Repr

/-- Applications compare equal by their names and chart versions. -/
instance : Identified Application (String × String) := ⟨fun application => (application.name, application.chartVersion)⟩

/-- The store as far as the catalogue needs it. The clock readings that are still to come
are part of the state. -/
structure Catalogue where
  applicationCache : ConcurrentMultimap String Application := ∅
  clock : Nat → Time := fun _ => 0

abbrev CatalogueM := EStateM String Catalogue

namespace Catalogue

def tick (catalogue : Catalogue) : Catalogue := { catalogue with clock := fun n => catalogue.clock (n + 1) }

def applicationCacheValidity : Time := 5 * 60 * 1000000000

def now : CatalogueM Time := modifyGet fun catalogue => (catalogue.clock 0, catalogue.tick)

/-- The conversion of a cache record to a truth value. -/
def current (entry : CacheRecord Application) : CatalogueM Bool := do
  let reading ← Catalogue.now
  return decide (reading ≤ entry.expirationTime)

end Catalogue
open Catalogue

def findArguments (majorVersion : Nat) (target chartVersion : String) : List String :=
  if majorVersion = 3 then ["search", "repo", target, "--version", chartVersion]
  else ["search", target, "--version", chartVersion]

def fetchArguments (majorVersion : Nat) (repository : String) : List String :=
  if majorVersion = 2 then ["search", repository ++ "/", "--col-width=1024"]
  else if majorVersion = 3 then ["search", "repo", repository ++ "/", "--max-col-width=1024"]
  else ["search", repository ++ "/"]

/-- The first record of the name that is still valid. -/
def findCurrent (appName : String) : List (CacheRecord Application) → CatalogueM (Option Application)
  | [] => return none
  | record :: records => do
    if record.record.name = appName then
      if ← current record then
        return some record.record
    findCurrent appName records

def findCachedApplication (repository appName : String) : CatalogueM (Option Application) := do
  let category := (← get).applicationCache.find repository
  let reading ← Catalogue.now
  if category.expiration > reading then findCurrent appName category.members else return none

def applicationOfColumns (appName : String) : List (List Char) → Application
  | _ :: chartVersion :: version :: description :: _ =>
    ⟨true, appName, .ofList version, .ofList chartVersion, .ofList description⟩
  | _ => ⟨true, appName, "unknown", "unknown", ""⟩

/-- Several applications may match the target; the line for it is looked for. -/
def matchingLine (target appName : String) : List (List Char) → Except String Application
  | [] => .ok {}
  | line :: lines =>
    match stringSplitColumns line '\t' true with
    | [] => .error "undefined behaviour"
    | name :: columns =>
      if stringTrim name = target.toList then .ok (applicationOfColumns appName (name :: columns))
      else matchingLine target appName lines

def cacheApplication (repository : String) (application : Application) : CatalogueM Unit := do
  let expirationTime := (← Catalogue.now) + applicationCacheValidity
  let reading ← Catalogue.now
  modify fun catalogue => { catalogue with
    applicationCache := (catalogue.applicationCache.insertOrAssign repository ⟨application, expirationTime⟩ reading).2 }

def noResults : String := "No results found"

/-- An application of which there is no line is not valid, and is cached all the same. -/
def findApplication (outside : Outside) (repository appName chartVersion : String) : CatalogueM Application := do
  if let some application ← findCachedApplication repository appName then
    return application
  let target := repository ++ "/" ++ appName
  let helmMajorVersion ← ofExcept outside.helmVersionAnswer
  let result ← ofExcept (outside.run "helm" (findArguments helmMajorVersion target chartVersion) [])
  if result.status ≠ 0 then
    throw ("Command failed: helm search " ++ target ++ ": [err] " ++ result.error ++ " [out] " ++ result.output)
  if contains result.output noResults then
    return {}
  let application ← ofExcept (matchingLine target appName (stringSplitLines result.output).tail)
  cacheApplication repository application
  return application

/-- `text.substr(start)` -/
def substr (text : List Char) (start : Nat) : Except String (List Char) :=
  if text.length < start then
    .error ("basic_string::substr: __pos (which is " ++ toString start ++ ") > this->size() (which is " ++
      toString text.length ++ ")")
  else .ok (text.drop start)

/-- One line of the listing. Columns which a line lacks are read past its end. -/
def fetchLine (repository : String) (line : List Char) : CatalogueM Application := do
  match stringSplitColumns line '\t' true with
  | name :: chartVersion :: version :: description :: _ => do
    let name ← ofExcept (substr name (repository.length + 1))
    let application : Application := ⟨true, .ofList name, .ofList version, .ofList chartVersion, .ofList description⟩
    cacheApplication repository application
    return application
  | _ => throw "undefined behaviour"

def fetchApplications (outside : Outside) (repository : String) : CatalogueM (List Application) := do
  let helmMajorVersion ← ofExcept outside.helmVersionAnswer
  let commandResult ← ofExcept (outside.run "helm" (fetchArguments helmMajorVersion repository) [])
  if commandResult.status ≠ 0 then
    throw ("helm search failed: [err] " ++ commandResult.error ++ " [out] " ++ commandResult.output)
  let results ← (stringSplitLines commandResult.output).tail.mapM (fetchLine repository)
  let expirationTime := (← Catalogue.now) + applicationCacheValidity
  modify fun catalogue => { catalogue with
    applicationCache := (catalogue.applicationCache.updateExpiration repository expirationTime).2 }
  return results

/-- The records that are still valid, each by a reading of its own. -/
def currentMembers : List (CacheRecord Application) → CatalogueM (List Application)
  | [] => return []
  | record :: records => do
    let kept ← current record
    let results ← currentMembers records
    return if kept then record.record :: results else results

def listApplications (outside : Outside) (repository : String) : CatalogueM (List Application) := do
  let category := (← get).applicationCache.find repository
  let reading ← Catalogue.now
  if category.expiration > reading then currentMembers category.members else fetchApplications outside repository

end Slate
