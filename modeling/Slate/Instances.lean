import Slate.Listings

/-! Application instances: single records and listings. The configuration of an
instance is stored and cached apart from the rest of it. -/

namespace Slate
open Library

def itemOfInstance (inst : ApplicationInstance) : InstanceItem where
  name := inst.name
  application := inst.application
  owningGroup := inst.owningGroup
  cluster := inst.cluster
  ctime := inst.ctime

def instanceOfItem (id : String) (item : InstanceItem) : ApplicationInstance where
  valid := true
  id := id
  name := item.name
  application := item.application
  owningGroup := item.owningGroup
  cluster := item.cluster
  ctime := item.ctime

namespace InstanceCaches

def replace (caches : InstanceCaches) (record : CacheRecord ApplicationInstance)
    (byGroup byName byCluster byPair : Time) : InstanceCaches :=
  { caches with
    instanceCache := caches.instanceCache.insert record.record.id record
    instanceByGroupCache := (caches.instanceByGroupCache.insertOrAssign record.record.owningGroup record byGroup).2
    instanceByNameCache := (caches.instanceByNameCache.insertOrAssign record.record.name record byName).2
    instanceByClusterCache := (caches.instanceByClusterCache.insertOrAssign record.record.cluster record byCluster).2
    instanceByGroupAndClusterCache := (caches.instanceByGroupAndClusterCache.insertOrAssign
      (pairKey record.record.owningGroup record.record.cluster) record byPair).2 }

def forget (caches : InstanceCaches) (id : String) : InstanceCaches :=
  match caches.instanceCache.lookup id with
  | none => { caches with instanceConfigCache := AList.erase id caches.instanceConfigCache }
  | some { record, .. } =>
    { caches with
      instanceCache := AList.erase id caches.instanceCache
      instanceConfigCache := AList.erase id caches.instanceConfigCache
      instanceByGroupCache := (caches.instanceByGroupCache.eraseValue record.owningGroup record).2
      instanceByNameCache := (caches.instanceByNameCache.eraseValue record.name record).2
      instanceByClusterCache := (caches.instanceByClusterCache.eraseValue record.cluster record).2
      instanceByGroupAndClusterCache := (caches.instanceByGroupAndClusterCache.eraseValue
        (pairKey record.owningGroup record.cluster) record).2 }

def listing (caches : InstanceCaches) (kind : ListingKind) (group cluster : String) : Category ApplicationInstance :=
  match kind with
  | .groupAndCluster => caches.instanceByGroupAndClusterCache.find (pairKey group cluster)
  | .group => caches.instanceByGroupCache.find group
  | .cluster => caches.instanceByClusterCache.find cluster

def stamp (caches : InstanceCaches) (kind : ListingKind) (group cluster : String) (time : Time) : InstanceCaches :=
  match kind with
  | .groupAndCluster => { caches with instanceByGroupAndClusterCache :=
      (caches.instanceByGroupAndClusterCache.updateExpiration (pairKey group cluster) time).2 }
  | .group => { caches with instanceByGroupCache := (caches.instanceByGroupCache.updateExpiration group time).2 }
  | .cluster => { caches with
      instanceByClusterCache := (caches.instanceByClusterCache.updateExpiration cluster time).2 }

end InstanceCaches

def modifyInstances (change : InstanceCaches → InstanceCaches) : StoreM Unit :=
  modify fun server => { server with instances := change server.instances }

def cacheInstance (inst : ApplicationInstance) : StoreM Unit := do
  let record ← CacheRecord.lasting inst instanceCacheValidity
  let byGroup ← now
  let byName ← now
  let byCluster ← now
  let byPair ← now
  modifyInstances fun caches => caches.replace record byGroup byName byCluster byPair

/-- A configuration that is cached already is kept. -/
def cacheInstanceConfig (id config : String) : StoreM Unit := do
  if (← get).instances.instanceConfigCache.lookup id = none then
    let record ← CacheRecord.lasting config instanceCacheValidity
    modifyInstances fun caches => { caches with
      instanceConfigCache := caches.instanceConfigCache.insert id record }

/-- The record and its configuration are stored by two requests. -/
def addApplicationInstance (inst : ApplicationInstance) : StoreM Bool := do
  unless ← request do
    return false
  modify fun server => { server with database := { server.database with
    instances := server.database.instances.insert inst.id (itemOfInstance inst) } }
  unless ← request do
    return false
  modify fun server => { server with database := { server.database with
    instanceConfigs := server.database.instanceConfigs.insert inst.id inst.config } }
  cacheInstance inst
  cacheInstanceConfig inst.id inst.config
  return true

def removeApplicationInstance (id : String) : StoreM Bool := do
  modifyInstances fun caches => caches.forget id
  unless ← request do
    return false
  modify fun server => { server with database := { server.database with
    instances := AList.erase id server.database.instances } }
  unless ← request do
    return false
  modify fun server => { server with database := { server.database with
    instanceConfigs := AList.erase id server.database.instanceConfigs } }
  return true

def getApplicationInstance (id : String) : StoreM ApplicationInstance := do
  if let some inst ← cached (← get).instances.instanceCache id then
    return inst
  unless ← request do
    return {}
  match (← get).database.instances.lookup id with
  | none => return {}
  | some item =>
    let inst := instanceOfItem id item
    cacheInstance inst
    return inst

def collectInstances (rows : List (String × InstanceItem)) : StoreM (List ApplicationInstance) :=
  rows.mapM fun (id, item) => do
    let inst := instanceOfItem id item
    cacheInstance inst
    return inst

/-- Names of instances need not be unique; the cache is not consulted. -/
def findInstancesByName (name : String) : StoreM (List ApplicationInstance) := do
  unless ← request do
    return []
  collectInstances ((← get).database.instances.select fun _ item => item.name == name)

def listApplicationInstances : StoreM (List ApplicationInstance) := do
  let reading ← now
  if reading < (← get).instances.expirationTime then
    return (← get).instances.instanceCache.values.map CacheRecord.record
  unless ← request do
    return []
  let collected ← collectInstances (← get).database.instances.pairs
  let reading ← now
  modifyInstances fun caches => { caches with expirationTime := reading + instanceCacheValidity }
  return collected

def Database.instancesSelected (database : Database) (group cluster : String) : List (String × InstanceItem) :=
  database.instances.select fun _ item => listingSelects group cluster item.owningGroup item.cluster

def listInstancesNormalized (kind : ListingKind) (group cluster : String) : StoreM (List ApplicationInstance) := do
  if let some members ← maybeReturnCachedCategoryMembers ((← get).instances.listing kind group cluster) then
    return members
  unless ← request do
    return []
  let rows := (← get).database.instancesSelected group cluster
  if rows = [] then
    return []
  let instances ← collectInstances rows
  let reading ← now
  modifyInstances fun caches => caches.stamp kind group cluster (reading + instanceCacheValidity)
  return instances

def listApplicationInstancesByClusterOrGroup (group cluster : String) : StoreM (List ApplicationInstance) := do
  let some (group, cluster) ← normalizeArguments group cluster
    | return []
  match listingKind group cluster with
  | none => return []
  | some kind => listInstancesNormalized kind group cluster

end Slate
