import Slate.Access
import Mathlib.Data.Finset.Image

/-! Which applications a group may use on a cluster. One record holds the names for a
group and a cluster; two of the names stand for all applications and for none. -/

namespace Slate
open Library

/-- The name stored in place of an empty set. -/
def noneMarker : String := "<none>"

def applicationsKey (groupID cID : String) : String := cID ++ ":" ++ groupID ++ ":Applications"

/-- What a row of the table means. Without one every application is allowed. -/
def applicationsOfItem : Option (Finset String) → Finset String
  | none => {wildcardName}
  | some applications => if noneMarker ∈ applications then ∅ else applications

def applicationsCached (groupID cID : String) : StoreM (Option (Finset String)) := do
  cached (← get).clusters.clusterGroupApplicationCache (applicationsKey groupID cID)

def applicationsQuery (groupID cID : String) : StoreM (Option (Finset String)) := do
  unless ← request do
    return none
  return some (applicationsOfItem ((← get).database.applications.lookup (cID, applicationsKey groupID cID)))

def cacheApplications (groupID cID : String) (applications : Finset String) : StoreM Unit := do
  let record ← CacheRecord.lasting applications clusterCacheValidity
  modify fun server => { server with clusters := { server.clusters with
    clusterGroupApplicationCache := server.clusters.clusterGroupApplicationCache.insert (applicationsKey groupID cID) record } }

def putApplications (groupID cID : String) (applications : Finset String) : StoreM Unit :=
  modify fun server => { server with database := { server.database with
    applications := server.database.applications.insert (cID, applicationsKey groupID cID) applications } }

/-- Asks the table, and caches the answer if there is one. A query that fails yields no
applications. -/
def queryApplications (groupID cID : String) : StoreM (Finset String) := do
  match ← applicationsQuery groupID cID with
  | none => return ∅
  | some applications =>
    cacheApplications groupID cID applications
    return applications

/-- The listing, once its arguments are IDs. -/
def readApplications (groupID cID : String) : StoreM (Finset String) := do
  if let some applications ← applicationsCached groupID cID then
    return applications
  queryApplications groupID cID

def listApplicationsGroupMayUseOnCluster (groupID cID : String) : StoreM (Finset String) := do
  let some groupID ← normalizeGroupID groupID true
    | return ∅
  let some cID ← normalizeClusterID cID
    | return ∅
  readApplications groupID cID

def applicationNamed (appName : String) : String := if appName = wildcard then wildcardName else appName

def allowApplication (allowed : Finset String) (appName : String) : Finset String :=
  if appName = wildcardName then {wildcardName}
  else insert appName (if wildcardName ∈ allowed then ∅ else allowed)

/-- The set that is left when an application is denied; none when that makes no sense. -/
def denyApplication (allowed : Finset String) (appName : String) : Option (Finset String) :=
  if appName = wildcardName then some ∅
  else if wildcardName ∈ allowed then none
  else if appName ∈ allowed then some (allowed.erase appName)
  else none

/-- How the set that is left is stored. -/
def markEmpty (allowed : Finset String) : Finset String := if allowed = ∅ then {noneMarker} else allowed

/-- Writes a set of names to the table, and the set it stands for to the cache. -/
def storeApplications (groupID cID : String) (allowed stored : Finset String) : StoreM Bool := do
  unless ← request do
    return false
  putApplications groupID cID stored
  cacheApplications groupID cID allowed
  return true

def allowVoToUseApplication (groupID cID appName : String) : StoreM Bool :=
  withNormalized groupID cID true fun groupID cID => do
    let allowed ← listApplicationsGroupMayUseOnCluster groupID cID
    let allowed := allowApplication allowed (applicationNamed appName)
    storeApplications groupID cID allowed allowed

def denyGroupUseOfApplication (groupID cID appName : String) : StoreM Bool :=
  withNormalized groupID cID true fun groupID cID => do
    match denyApplication (← listApplicationsGroupMayUseOnCluster groupID cID) (applicationNamed appName) with
    | none => return false
    | some allowed => storeApplications groupID cID allowed (markEmpty allowed)

def groupMayUseApplication (groupID cID appName : String) : StoreM Bool := do
  let allowed ← listApplicationsGroupMayUseOnCluster groupID cID
  return wildcardName ∈ allowed || appName ∈ allowed

end Slate
