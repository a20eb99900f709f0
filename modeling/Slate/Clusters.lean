import Slate.Groups

/-! Clusters: records, lookups by ID and by name, and the listing of all. -/

namespace Slate
open Library

def findOrThrow {α : Type} (stored : Option α) (message : String) : StoreM α :=
  match stored with
  | some value => return value
  | none => throw message

def clusterOfItem (id : String) (item : ClusterItem) : StoreM Cluster := do
  let name ← findOrThrow item.name "Cluster record missing name attribute"
  let owningGroup ← findOrThrow item.owningGroup "Cluster record missing owningGroup attribute"
  let config ← findOrThrow item.config "Cluster record missing config attribute"
  let systemNamespace ← findOrThrow item.systemNamespace "Cluster record missing systemNamespace attribute"
  return {
    valid := true, id, name, config, systemNamespace, owningGroup
    owningOrganization := item.owningOrganization.getD missingString
    monitoringCredential := S3Credential.deserialize (item.monCredential.getD missingString) }

def itemOfCluster (cluster : Cluster) : ClusterItem where
  name := some cluster.name
  config := some cluster.config
  systemNamespace := some cluster.systemNamespace
  owningGroup := some cluster.owningGroup
  owningOrganization := some cluster.owningOrganization
  monCredential := some cluster.monitoringCredential.serialize

def writeClusterConfigToDisk (cluster : Cluster) : StoreM Unit :=
  modify fun server => { server with clusters := { server.clusters with
    clusterConfigs := server.clusters.clusterConfigs.insert cluster.id cluster.config } }

def ClusterCaches.replace (caches : ClusterCaches) (record : CacheRecord Cluster) (byGroup : Time) : ClusterCaches :=
  { caches with
    clusterCache := caches.clusterCache.insert record.record.id record
    clusterByNameCache := caches.clusterByNameCache.insert record.record.name record
    clusterByGroupCache := (caches.clusterByGroupCache.insertOrAssign record.record.owningGroup record byGroup).2 }

def cacheCluster (cluster : Cluster) : StoreM Unit := do
  let record ← CacheRecord.lasting cluster clusterCacheValidity
  let byGroup ← now
  modify fun server => { server with clusters := server.clusters.replace record byGroup }
  writeClusterConfigToDisk cluster

def addCluster (cluster : Cluster) : StoreM Bool := do
  unless ← request do
    return false
  modify fun server => { server with database := { server.database with
    clusters := server.database.clusters.insert cluster.id (itemOfCluster cluster) } }
  cacheCluster cluster
  return true

def findClusterByID (cID : String) : StoreM Cluster := do
  if let some cluster ← cached (← get).clusters.clusterCache cID then
    return cluster
  unless ← request do
    return {}
  match (← get).database.clusters.lookup cID with
  | none => return {}
  | some item =>
    let cluster ← clusterOfItem cID item
    cacheCluster cluster
    return cluster

def findClusterByName (name : String) : StoreM Cluster := do
  if let some cluster ← cached (← get).clusters.clusterByNameCache name then
    return cluster
  unless ← request do
    return {}
  match (← get).database.clusters.select fun _ item => item.name == some name with
  | [] => return {}
  | [(id, item)] =>
    let cluster ← clusterOfItem id item
    cacheCluster cluster
    return cluster
  | _ => throw ("Cluster name \"" ++ name ++ "\" is not unique!")

def getCluster (idOrName : String) : StoreM Cluster :=
  if startsWith clusterIDPrefix idOrName then findClusterByID idOrName else findClusterByName idOrName

/-- The cluster ID a string stands for; none when it is neither an ID nor the
name of a cluster. Anything that begins like an ID is taken to be one. -/
def normalizeClusterID (cID : String) : StoreM (Option String) := do
  if !startsWith clusterIDPrefix cID then
    let cluster ← findClusterByName cID
    if !cluster.valid then
      return none
    return some cluster.id
  return some cID

theorem normalizeClusterID_known {cID : String} (known : startsWith clusterIDPrefix cID = true) :
    normalizeClusterID cID = return some cID := by
  unfold normalizeClusterID
  simp [known]

def listClusters : StoreM (List Cluster) := do
  let reading ← now
  if reading < (← get).clusters.expirationTime then
    return (← get).clusters.clusterCache.values.map CacheRecord.record
  unless ← request do
    return []
  let rows := (← get).database.clusters.select fun _ item => item.name.isSome
  let collected ← rows.mapM fun (id, item) => do
    let cluster ← clusterOfItem id item
    cacheCluster cluster
    return cluster
  let reading ← now
  modify fun server => { server with clusters := { server.clusters with
    expirationTime := reading + clusterCacheValidity } }
  return collected

end Slate
