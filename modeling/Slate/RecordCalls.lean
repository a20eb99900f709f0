import Mathlib.Data.List.ReduceOption
import Slate.Access
import Slate.Credentials
import Slate.Instances
import Slate.Library.Interleaving

/-! Lookups, listings and removals of clusters and instances as calls that run at
once. A read of the database is one step, and caching a record that was read is
another. Time passes in steps of its own as well. The access records of a cluster,
which its removal revokes first, are left out here. -/

namespace Slate
open Library

inductive RecordID where
  | cluster (id : String)
  | inst (id : String)
  deriving DecidableEq, Repr

inductive RecordRequest where
  | elapse (duration : Time)
  | findClusterByID (cID : String)
  | findClusterByName (name : String)
  | listClusters
  | listClustersByGroup (group : String)
  | removeCluster (cID : String)
  | getApplicationInstance (id : String)
  | findInstancesByName (name : String)
  | listApplicationInstances
  | listApplicationInstancesByClusterOrGroup (group cluster : String)
  | removeApplicationInstance (id : String)
  deriving DecidableEq, Repr

inductive RecordAnswer where
  | elapsed
  | cluster (found : Cluster)
  | clusters (found : List Cluster)
  | inst (found : ApplicationInstance)
  | instances (found : List ApplicationInstance)
  | removed (id : RecordID) (done : Bool)
  deriving DecidableEq, Repr

/-- What a cluster is looked up for: for its own sake, as an argument of a listing of
instances, or to decide whether a group may use it. -/
inductive LookupPurpose where
  | answer
  | argument (group : String)
  | access (group groupID : String) (cluster : Cluster) (others collected : List Cluster)
  deriving DecidableEq, Repr

inductive ClustersPurpose where
  | all
  | byGroup (group : String)
  deriving DecidableEq, Repr

inductive InstancesPurpose where
  | byName
  | all
  | selected (kind : ListingKind) (group cluster : String)
  deriving DecidableEq, Repr

/-- Where a call stands. A call which is caching has rows or a record in hand that it
has read; when no rows are left it renews the expiration of what it has listed. -/
inductive RecordCall where
  | ready
  | elapsing (duration : Time)
  | finding (key : ClusterKey) (purpose : LookupPurpose)
  | reading (key : ClusterKey) (purpose : LookupPurpose)
  | caching (cluster : Cluster) (purpose : LookupPurpose)
  | listing (purpose : ClustersPurpose)
  | scanning (purpose : ClustersPurpose)
  | cachingRows (rows : List (String × ClusterItem)) (collected : List Cluster) (purpose : ClustersPurpose)
  | naming (group : String)
  | deciding (group : String) (others collected : List Cluster)
  | accessing (group groupID cID : String) (cluster : Cluster) (others collected : List Cluster)
  | forgettingCluster (cID : String)
  | deletingCluster (cID : String)
  | deletingLocations (cID : String)
  | gettingInstance (id : String)
  | readingInstance (id : String)
  | cachingInstance (inst : ApplicationInstance)
  | queryingName (name : String)
  | listingInstances
  | scanningInstances
  | normalizing (group cluster : String)
  | listingSelected (kind : ListingKind) (group cluster : String)
  | queryingSelected (kind : ListingKind) (group cluster : String)
  | cachingInstances (rows : List (String × InstanceItem)) (collected : List ApplicationInstance)
      (purpose : InstancesPurpose)
  | forgettingInstance (id : String)
  | deletingInstance (id : String)
  | deletingConfig (id : String)
  | finished (answer : RecordAnswer)
  deriving DecidableEq, Repr

def eraseInstance (id : String) : StoreM Bool := do
  unless ← request do
    return false
  modify fun server => { server with database := { server.database with
    instances := AList.erase id server.database.instances } }
  return true

def eraseInstanceConfig (id : String) : StoreM Bool := do
  unless ← request do
    return false
  modify fun server => { server with database := { server.database with
    instanceConfigs := AList.erase id server.database.instanceConfigs } }
  return true

namespace RecordCall

def selecting (group cluster : String) : RecordCall :=
  match listingKind group cluster with
  | none => finished (.instances [])
  | some kind => listingSelected kind group cluster

def begin : RecordRequest → RecordCall
  | .elapse duration => elapsing duration
  | .findClusterByID cID => finding (.id cID) .answer
  | .findClusterByName name => finding (.name name) .answer
  | .listClusters => listing .all
  | .listClustersByGroup group =>
    if group ≠ "" ∧ !startsWith groupIDPrefix group then naming group else listing (.byGroup group)
  | .removeCluster cID => forgettingCluster cID
  | .getApplicationInstance id => gettingInstance id
  | .findInstancesByName name => queryingName name
  | .listApplicationInstances => listingInstances
  | .listApplicationInstancesByClusterOrGroup group cluster => normalizing group cluster
  | .removeApplicationInstance id => forgettingInstance id

def idle : RecordCall → Bool
  | ready => true
  | finished _ => true
  | _ => false

/-- How a call goes on when it has the cluster it looked for. -/
def found (cluster : Cluster) : LookupPurpose → RecordCall
  | .answer => finished (.cluster cluster)
  | .argument group => if cluster.valid then selecting group cluster.id else finished (.instances [])
  | .access group groupID candidate others collected =>
    if cluster.valid then accessing group groupID cluster.id candidate others collected
    else deciding group others collected

def listed (collected : List Cluster) : ClustersPurpose → RecordCall
  | .all => finished (.clusters collected)
  | .byGroup group => deciding group collected []

def piece : RecordCall → StoreM RecordCall
  | elapsing duration => do
    elapse duration
    return finished .elapsed
  | finding key purpose => do
    match ← clusterCached key with
    | some cluster => return found cluster purpose
    | none => return reading key purpose
  | reading key purpose => do
    match ← clusterQuery key with
    | some cluster => return caching cluster purpose
    | none => return found {} purpose
  | caching cluster purpose => do
    cacheCluster cluster
    return found cluster purpose
  | listing purpose => do
    let reading ← now
    if reading < (← get).clusters.expirationTime then
      return listed ((← get).clusters.clusterCache.values.map CacheRecord.record) purpose
    return scanning purpose
  | scanning purpose => do
    unless ← request do
      return listed [] purpose
    return cachingRows ((← get).database.clusters.select fun _ item => item.name.isSome) [] purpose
  | cachingRows [] collected purpose => do
    let reading ← now
    modify fun server => { server with clusters := { server.clusters with
      expirationTime := reading + clusterCacheValidity } }
    return listed collected purpose
  | cachingRows ((id, item) :: rows) collected purpose => do
    let cluster ← clusterOfItem id item
    cacheCluster cluster
    return cachingRows rows (collected ++ [cluster]) purpose
  | naming group => do
    let group ← findGroupByName group
    if !group.valid then return finished (.clusters []) else return listing (.byGroup group.id)
  | deciding _ [] collected => return finished (.clusters collected)
  | deciding group (cluster :: others) collected => do
    if group = cluster.owningGroup then
      return deciding group others (collected ++ [cluster])
    match ← normalizeGroupID group false with
    | none => return deciding group others collected
    | some groupID =>
      if startsWith clusterIDPrefix cluster.id then
        return accessing group groupID cluster.id cluster others collected
      else return finding (.name cluster.id) (.access group groupID cluster others collected)
  | accessing group groupID cID cluster others collected => do
    if ← decideAccess groupID cID then return deciding group others (collected ++ [cluster])
    else return deciding group others collected
  | forgettingCluster cID => do
    modify fun server => { server with clusters := server.clusters.forget cID }
    return deletingCluster cID
  | deletingCluster cID => do
    if ← deleteClusterItem cID then return deletingLocations cID
    else return finished (.removed (.cluster cID) false)
  | deletingLocations cID => do return finished (.removed (.cluster cID) (← deleteLocations cID))
  | gettingInstance id => do
    match ← cached (← get).instances.instanceCache id with
    | some inst => return finished (.inst inst)
    | none => return readingInstance id
  | readingInstance id => do
    unless ← request do
      return finished (.inst {})
    match (← get).database.instances.lookup id with
    | none => return finished (.inst {})
    | some item => return cachingInstance (instanceOfItem id item)
  | cachingInstance inst => do
    cacheInstance inst
    return finished (.inst inst)
  | queryingName name => do
    unless ← request do
      return finished (.instances [])
    return cachingInstances ((← get).database.instances.select fun _ item => item.name == name) [] .byName
  | listingInstances => do
    let reading ← now
    if reading < (← get).instances.expirationTime then
      return finished (.instances ((← get).instances.instanceCache.values.map CacheRecord.record))
    return scanningInstances
  | scanningInstances => do
    unless ← request do
      return finished (.instances [])
    return cachingInstances (← get).database.instances.pairs [] .all
  | normalizing group cluster => do
    match ← normalizeGiven (normalizeGroupID · false) group with
    | none => return finished (.instances [])
    | some group =>
      if cluster = "" ∨ startsWith clusterIDPrefix cluster then return selecting group cluster
      else return finding (.name cluster) (.argument group)
  | listingSelected kind group cluster => do
    match ← maybeReturnCachedCategoryMembers ((← get).instances.listing kind group cluster) with
    | some members => return finished (.instances members)
    | none => return queryingSelected kind group cluster
  | queryingSelected kind group cluster => do
    unless ← request do
      return finished (.instances [])
    match (← get).database.instancesSelected group cluster with
    | [] => return finished (.instances [])
    | rows => return cachingInstances rows [] (.selected kind group cluster)
  | cachingInstances [] collected .byName => return finished (.instances collected)
  | cachingInstances [] collected .all => do
    let reading ← now
    modifyInstances fun caches => { caches with expirationTime := reading + instanceCacheValidity }
    return finished (.instances collected)
  | cachingInstances [] collected (.selected kind group cluster) => do
    let reading ← now
    modifyInstances fun caches => caches.stamp kind group cluster (reading + instanceCacheValidity)
    return finished (.instances collected)
  | cachingInstances ((id, item) :: rows) collected purpose => do
    cacheInstance (instanceOfItem id item)
    return cachingInstances rows (collected ++ [instanceOfItem id item]) purpose
  | forgettingInstance id => do
    modifyInstances fun caches => caches.forget id
    return deletingInstance id
  | deletingInstance id => do
    if ← eraseInstance id then return deletingConfig id else return finished (.removed (.inst id) false)
  | deletingConfig id => do return finished (.removed (.inst id) (← eraseInstanceConfig id))
  | call => return call

def selectThen (group cluster : String) : StoreM RecordAnswer :=
  match listingKind group cluster with
  | none => return .instances []
  | some kind => do return .instances (← listInstancesNormalized kind group cluster)

def openTo (group : String) (others collected : List Cluster) : StoreM RecordAnswer := do
  let allowed ← clustersOpenTo group others
  return .clusters (collected ++ allowed)

def foundThen (cluster : Cluster) : LookupPurpose → StoreM RecordAnswer
  | .answer => return .cluster cluster
  | .argument group => if cluster.valid then selectThen group cluster.id else return .instances []
  | .access group groupID candidate others collected => do
    let allowed ← if cluster.valid then decideAccess groupID cluster.id else pure false
    openTo group others (if allowed then collected ++ [candidate] else collected)

def listedThen (collected : List Cluster) : ClustersPurpose → StoreM RecordAnswer
  | .all => return .clusters collected
  | .byGroup group => openTo group collected []

def cacheRowsThen (rows : List (String × ClusterItem)) (collected : List Cluster) (purpose : ClustersPurpose) :
    StoreM RecordAnswer := do
  let rest ← rows.mapM fun (id, item) => do
    let cluster ← clusterOfItem id item
    cacheCluster cluster
    return cluster
  let reading ← now
  modify fun server => { server with clusters := { server.clusters with
    expirationTime := reading + clusterCacheValidity } }
  listedThen (collected ++ rest) purpose

def stampInstances : InstancesPurpose → StoreM Unit
  | .byName => return
  | .all => do
    let reading ← now
    modifyInstances fun caches => { caches with expirationTime := reading + instanceCacheValidity }
  | .selected kind group cluster => do
    let reading ← now
    modifyInstances fun caches => caches.stamp kind group cluster (reading + instanceCacheValidity)

def cacheInstancesThen (rows : List (String × InstanceItem)) (collected : List ApplicationInstance)
    (purpose : InstancesPurpose) : StoreM RecordAnswer := do
  let rest ← collectInstances rows
  stampInstances purpose
  return .instances (collected ++ rest)

def scanThen (purpose : ClustersPurpose) : StoreM RecordAnswer := do
  if ← request then
    cacheRowsThen ((← get).database.clusters.select fun _ item => item.name.isSome) [] purpose
  else listedThen [] purpose

def readInstanceThen (id : String) : StoreM RecordAnswer := do
  unless ← request do
    return .inst {}
  match (← get).database.instances.lookup id with
  | none => return .inst {}
  | some item =>
    cacheInstance (instanceOfItem id item)
    return .inst (instanceOfItem id item)

def queryNameThen (name : String) : StoreM RecordAnswer := do
  unless ← request do
    return .instances []
  cacheInstancesThen ((← get).database.instances.select fun _ item => item.name == name) [] .byName

def scanInstancesThen : StoreM RecordAnswer := do
  unless ← request do
    return .instances []
  cacheInstancesThen (← get).database.instances.pairs [] .all

def querySelectedThen (kind : ListingKind) (group cluster : String) : StoreM RecordAnswer := do
  unless ← request do
    return .instances []
  match (← get).database.instancesSelected group cluster with
  | [] => return .instances []
  | rows => cacheInstancesThen rows [] (.selected kind group cluster)

def remaining : RecordCall → StoreM RecordAnswer
  | ready => return .elapsed
  | elapsing duration => do
    elapse duration
    return .elapsed
  | finding key purpose => do foundThen (← findCluster key) purpose
  | reading key purpose => do
    match ← clusterQuery key with
    | some cluster => do
      cacheCluster cluster
      foundThen cluster purpose
    | none => foundThen {} purpose
  | caching cluster purpose => do
    cacheCluster cluster
    foundThen cluster purpose
  | listing purpose => do listedThen (← listClusters) purpose
  | scanning purpose => scanThen purpose
  | cachingRows rows collected purpose => cacheRowsThen rows collected purpose
  | naming group => do
    let group ← findGroupByName group
    if !group.valid then return .clusters [] else do listedThen (← listClusters) (.byGroup group.id)
  | deciding group others collected => openTo group others collected
  | accessing group groupID cID cluster others collected => do
    let allowed ← decideAccess groupID cID
    openTo group others (if allowed then collected ++ [cluster] else collected)
  | forgettingCluster cID => do return .removed (.cluster cID) (← dropCluster cID)
  | deletingCluster cID => do
    if ← deleteClusterItem cID then do return .removed (.cluster cID) (← deleteLocations cID)
    else return .removed (.cluster cID) false
  | deletingLocations cID => do return .removed (.cluster cID) (← deleteLocations cID)
  | gettingInstance id => do return .inst (← getApplicationInstance id)
  | readingInstance id => readInstanceThen id
  | cachingInstance inst => do
    cacheInstance inst
    return .inst inst
  | queryingName name => queryNameThen name
  | listingInstances => do return .instances (← listApplicationInstances)
  | scanningInstances => scanInstancesThen
  | normalizing group cluster => do
    match ← normalizeArguments group cluster with
    | none => return .instances []
    | some (group, cluster) => selectThen group cluster
  | listingSelected kind group cluster => do return .instances (← listInstancesNormalized kind group cluster)
  | queryingSelected kind group cluster => querySelectedThen kind group cluster
  | cachingInstances rows collected purpose => cacheInstancesThen rows collected purpose
  | forgettingInstance id => do return .removed (.inst id) (← removeApplicationInstance id)
  | deletingInstance id => do
    if ← eraseInstance id then do return .removed (.inst id) (← eraseInstanceConfig id)
    else return .removed (.inst id) false
  | deletingConfig id => do return .removed (.inst id) (← eraseInstanceConfig id)
  | finished answer => return answer

end RecordCall

def RecordRequest.method : RecordRequest → StoreM RecordAnswer
  | .elapse duration => do
    Slate.elapse duration
    return .elapsed
  | .findClusterByID cID => do return .cluster (← Slate.findClusterByID cID)
  | .findClusterByName name => do return .cluster (← Slate.findClusterByName name)
  | .listClusters => do return .clusters (← Slate.listClusters)
  | .listClustersByGroup group => do return .clusters (← Slate.listClustersByGroup group)
  | .removeCluster cID => do return .removed (.cluster cID) (← dropCluster cID)
  | .getApplicationInstance id => do return .inst (← Slate.getApplicationInstance id)
  | .findInstancesByName name => do return .instances (← Slate.findInstancesByName name)
  | .listApplicationInstances => do return .instances (← Slate.listApplicationInstances)
  | .listApplicationInstancesByClusterOrGroup group cluster => do
    return .instances (← Slate.listApplicationInstancesByClusterOrGroup group cluster)
  | .removeApplicationInstance id => do return .removed (.inst id) (← Slate.removeApplicationInstance id)

theorem RecordCall.selecting_remaining (group cluster : String) :
    (selecting group cluster).remaining = selectThen group cluster := by
  unfold selecting selectThen
  cases listingKind group cluster <;> rfl

theorem RecordCall.found_remaining (cluster : Cluster) (purpose : LookupPurpose) :
    (found cluster purpose).remaining = foundThen cluster purpose := by
  cases purpose with
  | answer => rfl
  | argument group =>
    simp only [found, foundThen]
    split
    next => exact selecting_remaining group cluster.id
    next => rfl
  | access group groupID candidate others collected =>
    simp only [found, foundThen]
    split
    next => rfl
    next => simp only [pure_bind, Bool.false_eq_true, if_false, remaining]

theorem RecordCall.listed_remaining (collected : List Cluster) (purpose : ClustersPurpose) :
    (listed collected purpose).remaining = listedThen collected purpose := by
  cases purpose <;> rfl

/-- A cluster is open to its owner, and to a group that is decided to have access. -/
theorem RecordCall.openTo_cons (group : String) (cluster : Cluster) (others collected : List Cluster) :
    openTo group (cluster :: others) collected =
      if group = cluster.owningGroup then openTo group others (collected ++ [cluster])
      else groupAllowedOnCluster group cluster.id >>= fun allowed =>
        openTo group others (if allowed then collected ++ [cluster] else collected) := by
  unfold openTo clustersOpenTo
  simp only [List.mapM_cons, bind_assoc]
  split
  next owner => simp [List.reduceOption]
  next =>
    simp only [bind_assoc]
    refine bind_congr fun allowed => ?_
    cases allowed <;> simp [List.reduceOption]

attribute [local simp] RecordCall.piece RecordCall.remaining

private theorem RecordCall.finding_remaining (key : ClusterKey) (purpose : LookupPurpose) :
    (finding key purpose).remaining = (finding key purpose).piece >>= remaining := by
  simp only [piece, remaining, findCluster, bind_assoc]
  refine bind_congr fun cluster => ?_
  cases cluster with
  | some cluster => simp only [pure_bind, found_remaining]
  | none =>
    simp only [pure_bind, bind_assoc, remaining]
    refine bind_congr fun cluster => ?_
    cases cluster <;> simp only [pure_bind, bind_assoc]

private theorem RecordCall.reading_remaining (key : ClusterKey) (purpose : LookupPurpose) :
    (reading key purpose).remaining = (reading key purpose).piece >>= remaining := by
  simp only [piece, remaining, bind_assoc]
  refine bind_congr fun cluster => ?_
  cases cluster with
  | none => simp only [pure_bind, found_remaining]
  | some cluster => rfl

private theorem RecordCall.listing_remaining (purpose : ClustersPurpose) :
    (listing purpose).remaining = (listing purpose).piece >>= remaining := by
  simp only [piece, remaining, listClusters, bind_assoc]
  refine bind_congr fun reading => ?_
  refine bind_congr fun server => ?_
  split
  next => simp only [pure_bind, bind_assoc, listed_remaining]
  next =>
    simp only [bind_assoc, pure_bind, remaining, scanThen]
    refine bind_congr fun succeeded => ?_
    cases succeeded with
    | false => rfl
    | true => simp only [if_true, bind_assoc, pure_bind, cacheRowsThen, List.nil_append]

private theorem RecordCall.scanning_remaining (purpose : ClustersPurpose) :
    (scanning purpose).remaining = (scanning purpose).piece >>= remaining := by
  simp only [piece, remaining, scanThen, bind_assoc]
  refine bind_congr fun succeeded => ?_
  cases succeeded with
  | false => exact (listed_remaining [] purpose).symm
  | true => rfl

private theorem RecordCall.cachingRows_remaining (rows : List (String × ClusterItem)) (collected : List Cluster)
    (purpose : ClustersPurpose) :
    (cachingRows rows collected purpose).remaining = (cachingRows rows collected purpose).piece >>= remaining := by
  cases rows with
  | nil =>
    simp only [piece, bind_assoc, pure_bind, listed_remaining]
    simp only [remaining, cacheRowsThen, List.mapM_nil, pure_bind, List.append_nil]
  | cons row rows =>
    simp only [piece, remaining, cacheRowsThen, List.mapM_cons, bind_assoc, pure_bind, List.append_assoc,
      List.singleton_append]

private theorem RecordCall.deciding_remaining (group : String) (others collected : List Cluster) :
    (deciding group others collected).remaining = (deciding group others collected).piece >>= remaining := by
  cases others with
  | nil => simp [piece, remaining, openTo, clustersOpenTo, List.reduceOption]
  | cons cluster others =>
    simp only [remaining, openTo_cons, piece]
    split
    next => rfl
    next =>
      simp only [groupAllowedOnCluster, withNormalized, bind_assoc, normalizeClusterID]
      refine bind_congr fun groupID => ?_
      cases groupID with
      | none => rfl
      | some groupID =>
        by_cases known : startsWith clusterIDPrefix cluster.id = true
        · simp only [known, Bool.not_true, Bool.false_eq_true, if_false, pure_bind, if_true, remaining]
        · simp only [known, findClusterByName_pieces, bind_assoc, Bool.not_false, if_true, pure_bind,
            Bool.false_eq_true, if_false, remaining]
          refine bind_congr fun cluster => ?_
          cases valid : cluster.valid <;> simp [foundThen, valid]

private theorem RecordCall.forgettingCluster_remaining (cID : String) :
    (forgettingCluster cID).remaining = (forgettingCluster cID).piece >>= remaining := by
  simp only [piece, remaining, dropCluster, bind_assoc, pure_bind]
  refine bind_congr fun _ => ?_
  refine bind_congr fun done => ?_
  cases done <;> rfl

private theorem RecordCall.gettingInstance_remaining (id : String) :
    (gettingInstance id).remaining = (gettingInstance id).piece >>= remaining := by
  simp only [piece, remaining, getApplicationInstance, bind_assoc]
  refine bind_congr fun server => ?_
  refine bind_congr fun inst => ?_
  cases inst with
  | some inst => rfl
  | none =>
    simp only [pure_bind, bind_assoc, remaining, readInstanceThen]
    refine bind_congr fun succeeded => ?_
    cases succeeded with
    | false => rfl
    | true =>
      simp only [if_true, bind_assoc]
      refine bind_congr fun server => ?_
      cases server.database.instances.lookup id <;> simp only [pure_bind, bind_assoc]

private theorem RecordCall.readingInstance_remaining (id : String) :
    (readingInstance id).remaining = (readingInstance id).piece >>= remaining := by
  simp only [piece, remaining, readInstanceThen, bind_assoc]
  refine bind_congr fun succeeded => ?_
  cases succeeded with
  | false => rfl
  | true =>
    simp only [if_true, bind_assoc]
    refine bind_congr fun server => ?_
    cases server.database.instances.lookup id <;> rfl

private theorem RecordCall.listingInstances_remaining :
    listingInstances.remaining = listingInstances.piece >>= remaining := by
  simp only [piece, remaining, listApplicationInstances, bind_assoc]
  refine bind_congr fun reading => ?_
  refine bind_congr fun server => ?_
  split
  next => rfl
  next =>
    simp only [bind_assoc, pure_bind, remaining, scanInstancesThen]
    refine bind_congr fun succeeded => ?_
    cases succeeded with
    | false => rfl
    | true =>
      simp only [if_true, bind_assoc, pure_bind, cacheInstancesThen, stampInstances, List.nil_append]

private theorem RecordCall.normalizing_remaining (group cluster : String) :
    (normalizing group cluster).remaining = (normalizing group cluster).piece >>= remaining := by
  simp only [piece, remaining, normalizeArguments, bind_assoc]
  refine bind_congr fun group => ?_
  cases group with
  | none => rfl
  | some group =>
    unfold normalizeGiven normalizeClusterID
    by_cases empty : cluster = ""
    · simp only [empty, if_true, true_or, pure_bind, selecting_remaining]
    · by_cases known : startsWith clusterIDPrefix cluster = true
      · simp only [empty, known, if_false, if_true, or_true, Bool.not_true, Bool.false_eq_true, pure_bind,
          selecting_remaining]
      · simp only [empty, known, findClusterByName_pieces, bind_assoc, if_false, or_self, Bool.not_false, if_true,
          pure_bind, Bool.false_eq_true, remaining]
        refine bind_congr fun cluster => ?_
        cases valid : cluster.valid <;> simp [foundThen, valid]

private theorem RecordCall.listingSelected_remaining (kind : ListingKind) (group cluster : String) :
    (listingSelected kind group cluster).remaining = (listingSelected kind group cluster).piece >>= remaining := by
  simp only [piece, remaining, listInstancesNormalized, bind_assoc]
  refine bind_congr fun server => ?_
  refine bind_congr fun members => ?_
  cases members with
  | some members => rfl
  | none =>
    simp only [pure_bind, bind_assoc, remaining, querySelectedThen]
    refine bind_congr fun succeeded => ?_
    cases succeeded with
    | false => rfl
    | true =>
      simp only [if_true, bind_assoc]
      refine bind_congr fun server => ?_
      cases server.database.instancesSelected group cluster with
      | nil => rfl
      | cons row rows =>
        simp only [reduceCtorEq, if_false, bind_assoc, pure_bind, cacheInstancesThen, stampInstances, List.nil_append]

private theorem RecordCall.queryingSelected_remaining (kind : ListingKind) (group cluster : String) :
    (queryingSelected kind group cluster).remaining = (queryingSelected kind group cluster).piece >>= remaining := by
  simp only [piece, remaining, querySelectedThen, bind_assoc]
  refine bind_congr fun succeeded => ?_
  cases succeeded with
  | false => rfl
  | true =>
    simp only [if_true, bind_assoc]
    refine bind_congr fun server => ?_
    cases server.database.instancesSelected group cluster <;> rfl

private theorem RecordCall.cachingInstances_remaining (rows : List (String × InstanceItem))
    (collected : List ApplicationInstance) (purpose : InstancesPurpose) :
    (cachingInstances rows collected purpose).remaining = (cachingInstances rows collected purpose).piece >>= remaining := by
  cases rows with
  | nil =>
    cases purpose <;> simp only [piece, remaining, cacheInstancesThen, collectInstances, stampInstances,
      List.mapM_nil, bind_assoc, pure_bind, List.append_nil]
  | cons row rows =>
    cases purpose <;> simp only [piece, remaining, cacheInstancesThen, collectInstances, List.mapM_cons, bind_assoc,
      pure_bind, List.append_assoc, List.singleton_append]

private theorem RecordCall.forgettingInstance_remaining (id : String) :
    (forgettingInstance id).remaining = (forgettingInstance id).piece >>= remaining := by
  simp only [piece, remaining, removeApplicationInstance, bind_assoc, pure_bind, eraseInstance]
  refine bind_congr fun _ => ?_
  refine bind_congr fun done => ?_
  cases done <;> rfl

theorem RecordCall.remaining_moves (call : RecordCall) (busy : call.idle = false) :
    call.remaining = call.piece >>= remaining := by
  cases call with
  | ready => cases busy
  | finished => cases busy
  | elapsing duration => rfl
  | finding key purpose => exact finding_remaining key purpose
  | reading key purpose => exact reading_remaining key purpose
  | caching cluster purpose =>
    simp only [piece, bind_assoc, pure_bind, found_remaining]
    rfl
  | listing purpose => exact listing_remaining purpose
  | scanning purpose => exact scanning_remaining purpose
  | cachingRows rows collected purpose => exact cachingRows_remaining rows collected purpose
  | naming group =>
    simp only [piece, remaining, bind_assoc]
    refine bind_congr fun group => ?_
    split <;> rfl
  | deciding group others collected => exact deciding_remaining group others collected
  | accessing group groupID cID cluster others collected =>
    simp only [piece, remaining, bind_assoc]
    refine bind_congr fun allowed => ?_
    cases allowed <;> rfl
  | forgettingCluster cID => exact forgettingCluster_remaining cID
  | deletingCluster cID =>
    simp only [piece, remaining, bind_assoc]
    refine bind_congr fun done => ?_
    cases done <;> rfl
  | deletingLocations cID => simp only [piece, remaining, bind_assoc, pure_bind]
  | gettingInstance id => exact gettingInstance_remaining id
  | readingInstance id => exact readingInstance_remaining id
  | cachingInstance inst => rfl
  | queryingName name =>
    simp only [piece, remaining, queryNameThen, bind_assoc]
    refine bind_congr fun succeeded => ?_
    cases succeeded <;> rfl
  | listingInstances => exact listingInstances_remaining
  | scanningInstances =>
    simp only [piece, remaining, scanInstancesThen, bind_assoc]
    refine bind_congr fun succeeded => ?_
    cases succeeded <;> rfl
  | normalizing group cluster => exact normalizing_remaining group cluster
  | listingSelected kind group cluster => exact listingSelected_remaining kind group cluster
  | queryingSelected kind group cluster => exact queryingSelected_remaining kind group cluster
  | cachingInstances rows collected purpose => exact cachingInstances_remaining rows collected purpose
  | forgettingInstance id => exact forgettingInstance_remaining id
  | deletingInstance id =>
    simp only [piece, remaining, bind_assoc]
    refine bind_congr fun done => ?_
    cases done <;> rfl
  | deletingConfig id => simp only [piece, remaining, bind_assoc, pure_bind]

theorem RecordCall.remaining_begin (request : RecordRequest) : (begin request).remaining = request.method := by
  cases request with
  | findClusterByID cID => simp only [begin, remaining, RecordRequest.method, findClusterByID_pieces, foundThen]
  | findClusterByName name => simp only [begin, remaining, RecordRequest.method, findClusterByName_pieces, foundThen]
  | listClustersByGroup group =>
    simp only [begin, RecordRequest.method, listClustersByGroup]
    split
    next =>
      simp only [remaining, bind_assoc]
      refine bind_congr fun group => ?_
      split <;> simp [listedThen, openTo]
    next => simp [remaining, listedThen, openTo]
  | findInstancesByName name =>
    simp only [begin, remaining, RecordRequest.method, findInstancesByName, queryNameThen, bind_assoc]
    refine bind_congr fun succeeded => ?_
    cases succeeded <;> simp [cacheInstancesThen, stampInstances]
  | listApplicationInstancesByClusterOrGroup group cluster =>
    simp only [begin, remaining, RecordRequest.method, listApplicationInstancesByClusterOrGroup, bind_assoc]
    refine bind_congr fun arguments => ?_
    rcases arguments with _ | ⟨group, cluster⟩
    · simp
    · simp only [selectThen]
      cases listingKind group cluster <;> simp
  | _ => rfl

def recordSystem : System Server RecordRequest RecordCall :=
  .ofPieces RecordCall.idle RecordCall.begin RecordCall.piece

/-- A call that runs alone does what its method does. -/
theorem recordCall_alone {request : RecordRequest} {server after : Server} {call : RecordCall}
    (alone : recordSystem.Alone (.begin request, server) (call, after)) :
    request.method server = call.remaining after := by
  rw [← RecordCall.remaining_begin request]
  exact System.alone_remaining RecordCall.remaining_moves alone

end Slate
