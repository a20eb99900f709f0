import Slate.Clusters

/-! Which groups may use a cluster. What is known of a group's access is cached
under the cluster: the group's ID when it has access, and the ID with a dash
appended when it has none. The wildcard is cached in the same way. -/

namespace Slate
open Library

def negativeMarker (groupID : String) : String := groupID ++ "-"

def cacheAccess (cID value : String) : StoreM Unit := do
  let record ← CacheRecord.lasting value clusterCacheValidity
  let reading ← now
  modify fun server => { server with clusters := { server.clusters with
    clusterGroupAccessCache := (server.clusters.clusterGroupAccessCache.insertOrAssign cID record reading).2 } }

def forgetAccess (cID value : String) : StoreM Unit :=
  modify fun server => { server with clusters := { server.clusters with
    clusterGroupAccessCache := (server.clusters.clusterGroupAccessCache.eraseValue cID value).2 } }

def putAccess (groupID cID : String) : StoreM Unit :=
  modify fun server => { server with database := { server.database with
    access := server.database.access.insert (cID, groupID) () } }

def deleteAccess (groupID cID : String) : StoreM Unit :=
  modify fun server => { server with database := { server.database with
    access := AList.erase (cID, groupID) server.database.access } }

def grantAccess (groupID cID : String) : StoreM Bool := do
  forgetAccess cID (negativeMarker groupID)
  unless ← request do
    return false
  putAccess groupID cID
  cacheAccess cID groupID
  return true

def revokeAccess (groupID cID : String) : StoreM Bool := do
  forgetAccess cID groupID
  unless ← request do
    return false
  deleteAccess groupID cID
  cacheAccess cID (negativeMarker groupID)
  return true

def withNormalized (groupID cID : String) (allowWildcard : Bool) (next : String → String → StoreM Bool) :
    StoreM Bool := do
  let some groupID ← normalizeGroupID groupID allowWildcard
    | return false
  let some cID ← normalizeClusterID cID
    | return false
  next groupID cID

def addGroupToCluster (groupID cID : String) : StoreM Bool := withNormalized groupID cID true grantAccess

def removeGroupFromCluster (groupID cID : String) : StoreM Bool := withNormalized groupID cID true revokeAccess

def accessCached (cID value : String) : StoreM (Option (CacheRecord String)) := do
  match (← get).clusters.clusterGroupAccessCache.findValue cID value with
  | none => return none
  | some record => if ← record.current then return some record else return none

def accessQuery (groupID cID : String) : StoreM (Option Bool) := do
  unless ← request do
    return none
  return some ((← get).database.access.lookup (cID, groupID)).isSome

/-- Asks the table, and caches the answer if there is one. -/
def queryAccess (groupID cID : String) : StoreM Bool := do
  match ← accessQuery groupID cID with
  | none => return false
  | some found =>
    cacheAccess cID (if found then groupID else negativeMarker groupID)
    return found

/-- A valid positive record is returned as a truth value, which looks at the
clock again. -/
def clusterAllowsAllGroups (cID : String) : StoreM Bool := do
  if let some record ← accessCached cID wildcard then
    return ← record.current
  if let some _ ← accessCached cID (negativeMarker wildcard) then
    return false
  queryAccess wildcard cID

/-- Before the group itself, a wildcard record is looked for. -/
def decideAccess (groupID cID : String) : StoreM Bool := do
  if ← clusterAllowsAllGroups cID then
    return true
  if let some _ ← accessCached cID groupID then
    return true
  if let some _ ← accessCached cID (negativeMarker groupID) then
    return false
  queryAccess groupID cID

def groupAllowedOnCluster (groupID cID : String) : StoreM Bool := withNormalized groupID cID false decideAccess

/-- The clusters of a list that the group owns or may use. -/
def clustersOpenTo (group : String) (clusters : List Cluster) : StoreM (List Cluster) := do
  let collected ← clusters.mapM fun cluster => do
    if group = cluster.owningGroup then
      return some cluster
    if ← groupAllowedOnCluster group cluster.id then return some cluster else return none
  return collected.reduceOption

def listClustersByGroup (group : String) : StoreM (List Cluster) := do
  if group ≠ "" ∧ !startsWith groupIDPrefix group then
    let group ← findGroupByName group
    if !group.valid then
      return []
    clustersOpenTo group.id (← listClusters)
  else
    clustersOpenTo group (← listClusters)

end Slate
