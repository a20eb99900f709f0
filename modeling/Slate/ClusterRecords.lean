import Slate.Access
import Slate.Credentials

/-! Operations that change the records of clusters, and the configuration file of a
cluster. -/

namespace Slate
open Library

/-- The cluster that a row holds; none when an attribute is missing. -/
def ClusterItem.read (item : ClusterItem) (id : String) : Option Cluster := do
  let name ← item.name
  let owningGroup ← item.owningGroup
  let config ← item.config
  let systemNamespace ← item.systemNamespace
  return {
    valid := true, id, name, config, systemNamespace, owningGroup
    owningOrganization := item.owningOrganization.getD missingString
    monitoringCredential := S3Credential.deserialize (item.monCredential.getD missingString) }

def Database.cluster (database : Database) (cID : String) : Option Cluster :=
  database.clusters.lookup cID >>= fun item => item.read cID

theorem clusterOfItem_read {item : ClusterItem} {id : String} {cluster : Cluster} (read : item.read id = some cluster) :
    clusterOfItem id item = return cluster := by
  unfold ClusterItem.read at read
  unfold clusterOfItem findOrThrow
  cases named : item.name <;> simp only [named, Option.bind_eq_bind, Option.bind_some, Option.bind_none, reduceCtorEq] at read
  cases owned : item.owningGroup <;> simp only [owned, Option.bind_some, Option.bind_none, reduceCtorEq] at read
  cases configured : item.config <;> simp only [configured, Option.bind_some, Option.bind_none, reduceCtorEq] at read
  cases spaced : item.systemNamespace <;> simp only [spaced, Option.bind_some, Option.bind_none, reduceCtorEq] at read
  rw [← Option.some.inj read]
  rfl

/-- The file with the configuration of a cluster, as its content. The lookup makes sure
that there is one. -/
def configPathForCluster (cID : String) : StoreM String := do
  let cluster ← findClusterByID cID
  if !cluster.valid then
    throw (cID ++ " does not exist; cannot get config data")
  match (← get).clusters.clusterConfigs.lookup cID with
  | some config => return config
  | none => throw "key not found in table"

def updateCluster (cluster : Cluster) : StoreM Bool := do
  unless ← writeCluster cluster do
    return false
  cacheCluster cluster
  return true

/-- Drops the entry of the main cache and forces a load. -/
def reloadCluster (cID : String) : StoreM Unit := do
  modify fun server => { server with clusters := { server.clusters with
    clusterCache := AList.erase cID server.clusters.clusterCache } }
  let _ ← findClusterByID cID

def setClusterMonitoringCredential (cID : String) (cred : S3Credential) : StoreM Bool := do
  unless ← recordCredential cID cred do
    return false
  reloadCluster cID
  return true

def removeClusterMonitoringCredential (cID : String) : StoreM Bool := do
  unless ← eraseCredential cID do
    return false
  reloadCluster cID
  return true

def findClusterUsingCredential (cred : S3Credential) : StoreM Cluster := do
  match ← clusterUsingCredential cred with
  | none => return {}
  | some cluster =>
    cacheCluster cluster
    return cluster

/-- The groups that have a record of access to the cluster. A wildcard record stands
for all of them. -/
def listGroupsAllowedOnCluster (cID : String) (useNames : Bool) : StoreM (List String) := do
  let some cID ← normalizeClusterID cID
    | return []
  if ← clusterAllowsAllGroups cID then
    return [if useNames then wildcardName else wildcard]
  unless ← request do
    return []
  let rows := (← get).database.access.select fun key _ => key.1 == cID && startsWith groupIDPrefix key.2
  let groups := rows.map fun row => row.1.2
  if useNames then
    groups.mapM fun group => do return (← findGroupByID group).name
  else return groups

/-- Access is revoked first, whether or not that succeeds. -/
def removeCluster (cID : String) : StoreM Bool := do
  let guests ← listGroupsAllowedOnCluster cID false
  guests.forM fun guest => do
    let _ ← removeGroupFromCluster guest cID
  dropCluster cID

end Slate
