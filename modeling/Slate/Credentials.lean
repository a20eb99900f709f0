import Slate.Clusters

/-! Monitoring credentials: the pool they are kept in, and the one that is recorded
on a cluster. Each definition here sends one request to the database. -/

namespace Slate
open Library

def nocred : String := ({} : S3Credential).serialize

def ClusterItem.empty : ClusterItem where
  name := none
  config := none
  systemNamespace := none
  owningGroup := none
  owningOrganization := none
  monCredential := none

def ClusterItem.recordedKey (item : ClusterItem) : Option String :=
  let cred := S3Credential.deserialize (item.monCredential.getD missingString)
  if cred.usable then some cred.accessKey else none

def putCredential (accessKey : String) (item : CredentialItem) : StoreM Unit :=
  modify fun server => { server with database := { server.database with
    credentials := server.database.credentials.insert accessKey item } }

def putClusterItem (cID : String) (item : ClusterItem) : StoreM Unit :=
  modify fun server => { server with database := { server.database with
    clusters := server.database.clusters.insert cID item } }

/-- Puts the record whether or not there is one under the key. -/
def addMonitoringCredential (cred : S3Credential) : StoreM Bool := do
  if !cred.usable then
    throw "Cannot store invalid S3 credentials in Dynamo"
  if cred.inUse then
    throw "Already in-use credentials should not be added"
  if cred.revoked then
    throw "Already revoked credentials should not be added"
  unless ← request do
    return false
  putCredential cred.accessKey { secretKey := cred.secretKey, inUse := false, revoked := false }
  return true

def getMonitoringCredential (accessKey : String) : StoreM S3Credential := do
  unless ← request do
    return {}
  match (← get).database.credentials.lookup accessKey with
  | none => return {}
  | some item => return { accessKey, secretKey := item.secretKey, inUse := item.inUse, revoked := item.revoked }

/-- Marks a credential as being in use, on condition that it is still available. -/
def acquireCredential (accessKey : String) : StoreM Bool := do
  unless ← request do
    return false
  match (← get).database.credentials.lookup accessKey with
  | none => return false
  | some item =>
    if item.inUse || item.revoked then
      return false
    putCredential accessKey { item with inUse := true }
    return true

def revokeMonitoringCredential (accessKey : String) : StoreM Bool := do
  unless ← request do
    return false
  match (← get).database.credentials.lookup accessKey with
  | none => return false
  | some item =>
    putCredential accessKey { item with inUse := false, revoked := true }
    return true

def deleteMonitoringCredential (accessKey : String) : StoreM Bool := do
  unless ← request do
    return false
  match (← get).database.credentials.lookup accessKey with
  | none => return false
  | some item =>
    if item.inUse then
      return false
    modify fun server => { server with database := { server.database with
      credentials := AList.erase accessKey server.database.credentials } }
    return true

/-- Records a credential on a cluster, on condition that it has none. The row is created
when it is missing. -/
def recordCredential (cID : String) (cred : S3Credential) : StoreM Bool := do
  unless ← request do
    return false
  let item := ((← get).database.clusters.lookup cID).getD .empty
  if item.monCredential ≠ none ∧ item.monCredential ≠ some nocred then
    return false
  putClusterItem cID { item with monCredential := some cred.serialize }
  return true

/-- Removes the credential from a cluster, on condition that it has the attribute. -/
def eraseCredential (cID : String) : StoreM Bool := do
  unless ← request do
    return false
  match (← get).database.clusters.lookup cID with
  | none => return false
  | some item =>
    if item.monCredential = none then
      return false
    putClusterItem cID { item with monCredential := some nocred }
    return true

def clusterUsingCredential (cred : S3Credential) : StoreM (Option Cluster) := do
  unless ← request do
    return none
  match (← get).database.clusters.select fun _ item => item.monCredential == some cred.serialize with
  | [] => return none
  | (id, item) :: _ => return some (← clusterOfItem id item)

/-- Writes the whole record of a cluster, its credential included. -/
def writeCluster (cluster : Cluster) : StoreM Bool := do
  unless ← request do
    return false
  putClusterItem cluster.id (itemOfCluster cluster)
  return true

/-- Drops what is cached about a cluster, whether or not it has expired. -/
def ClusterCaches.forget (caches : ClusterCaches) (cID : String) : ClusterCaches :=
  let others := match caches.clusterCache.lookup cID with
    | none => caches
    | some record =>
      { caches with
        clusterByNameCache := AList.erase record.record.name caches.clusterByNameCache
        clusterByGroupCache := (caches.clusterByGroupCache.eraseValue record.record.owningGroup record.record).2 }
  { others with
    clusterCache := AList.erase cID others.clusterCache
    clusterConfigs := AList.erase cID others.clusterConfigs }

def deleteClusterItem (cID : String) : StoreM Bool := do
  unless ← request do
    return false
  modify fun server => { server with database := { server.database with
    clusters := AList.erase cID server.database.clusters } }
  return true

def deleteLocations (cID : String) : StoreM Bool := do
  unless ← request do
    return false
  modify fun server => { server with database := { server.database with
    locations := AList.erase cID server.database.locations } }
  return true

/-- What a removal of a cluster does when nobody has access to the cluster any more. -/
def dropCluster (cID : String) : StoreM Bool := do
  modify fun server => { server with clusters := server.clusters.forget cID }
  unless ← deleteClusterItem cID do
    return false
  deleteLocations cID

inductive ClusterKey where
  | id (cID : String)
  | name (name : String)
  deriving DecidableEq, Repr

def ClusterKey.designated (idOrName : String) : ClusterKey :=
  if startsWith clusterIDPrefix idOrName then id idOrName else name idOrName

def clusterCached : ClusterKey → StoreM (Option Cluster)
  | .id cID => do cached (← get).clusters.clusterCache cID
  | .name name => do cached (← get).clusters.clusterByNameCache name

def clusterQuery (key : ClusterKey) : StoreM (Option Cluster) := do
  unless ← request do
    return none
  match key with
  | .id cID =>
    match (← get).database.clusters.lookup cID with
    | none => return none
    | some item => return some (← clusterOfItem cID item)
  | .name name =>
    match (← get).database.clusters.select fun _ item => item.name == some name with
    | [] => return none
    | [(id, item)] => return some (← clusterOfItem id item)
    | _ => throw ("Cluster name \"" ++ name ++ "\" is not unique!")

/-- A lookup first asks the cache, then the table, and caches what the table has. -/
def findCluster (key : ClusterKey) : StoreM Cluster := do
  if let some cluster ← clusterCached key then
    return cluster
  match ← clusterQuery key with
  | none => return {}
  | some cluster => do
    cacheCluster cluster
    return cluster

theorem findClusterByID_pieces (cID : String) : findClusterByID cID = findCluster (.id cID) := by
  simp only [findClusterByID, findCluster, clusterCached, clusterQuery, bind_assoc]
  refine bind_congr fun server => ?_
  refine bind_congr fun record => ?_
  cases record with
  | some cluster => rfl
  | none =>
    refine bind_congr fun succeeded => ?_
    cases succeeded with
    | false => rfl
    | true =>
      simp only [if_true, bind_assoc]
      refine bind_congr fun server => ?_
      cases server.database.clusters.lookup cID with
      | none => rfl
      | some item => simp only [bind_assoc, pure_bind]

theorem findClusterByName_pieces (name : String) : findClusterByName name = findCluster (.name name) := by
  simp only [findClusterByName, findCluster, clusterCached, clusterQuery, bind_assoc]
  refine bind_congr fun server => ?_
  refine bind_congr fun record => ?_
  cases record with
  | some cluster => rfl
  | none =>
    refine bind_congr fun succeeded => ?_
    cases succeeded with
    | false => rfl
    | true =>
      simp only [if_true, bind_assoc]
      refine bind_congr fun server => ?_
      rcases server.database.clusters.select fun _ item => item.name == some name with _ | ⟨first, _ | ⟨second, rest⟩⟩
      · rfl
      · simp only [bind_assoc, pure_bind]
      · rfl

theorem getCluster_pieces (idOrName : String) : getCluster idOrName = findCluster (.designated idOrName) := by
  unfold getCluster ClusterKey.designated
  split
  next => exact findClusterByID_pieces idOrName
  next => exact findClusterByName_pieces idOrName

end Slate
