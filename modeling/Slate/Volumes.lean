import Slate.Listings

/-! Persistent volume claims: single records and listings. -/

namespace Slate
open Library

/-- The selector of a claim is not stored. -/
def itemOfVolume (pvc : PersistentVolumeClaim) : VolumeItem where
  name := pvc.name
  owningGroup := pvc.group
  cluster := pvc.cluster
  storageRequest := pvc.storageRequest
  accessMode := pvc.accessMode.toString
  volumeMode := pvc.volumeMode.toString
  storageClass := pvc.storageClass
  ctime := pvc.ctime

def volumeOfItem (id : String) (item : VolumeItem) : Except String PersistentVolumeClaim := do
  let accessMode ← accessModeFromString item.accessMode
  let volumeMode ← volumeModeFromString item.volumeMode
  return {
    valid := true, id, name := item.name, group := item.owningGroup, cluster := item.cluster
    storageRequest := item.storageRequest, accessMode, volumeMode
    storageClass := item.storageClass, ctime := item.ctime }

/-- Reads a row, passing on what the conversion of its modes throws. -/
def readVolume (id : String) (item : VolumeItem) : StoreM PersistentVolumeClaim :=
  match volumeOfItem id item with
  | .ok pvc => return pvc
  | .error thrown => throw thrown

namespace VolumeCaches

/-- Caches a record under its ID, its group, and its group and cluster. -/
def replaceListed (caches : VolumeCaches) (record : CacheRecord PersistentVolumeClaim) (byGroup byPair : Time) :
    VolumeCaches :=
  { caches with
    volumeCache := caches.volumeCache.insert record.record.id record
    volumeByGroupCache := (caches.volumeByGroupCache.insertOrAssign record.record.group record byGroup).2
    volumeByGroupAndClusterCache := (caches.volumeByGroupAndClusterCache.insertOrAssign
      (pairKey record.record.group record.record.cluster) record byPair).2 }

def replaceByCluster (caches : VolumeCaches) (record : CacheRecord PersistentVolumeClaim) (byCluster : Time) :
    VolumeCaches :=
  { caches with
    volumeByClusterCache := (caches.volumeByClusterCache.insertOrAssign record.record.cluster record byCluster).2 }

/-- The category for the group and cluster is dropped as a whole. -/
def forget (caches : VolumeCaches) (id : String) : VolumeCaches :=
  match caches.volumeCache.lookup id with
  | none => caches
  | some { record, .. } =>
    { caches with
      volumeCache := AList.erase id caches.volumeCache
      volumeByGroupCache := (caches.volumeByGroupCache.eraseValue record.group record).2
      volumeByClusterCache := (caches.volumeByClusterCache.eraseValue record.cluster record).2
      volumeByGroupAndClusterCache :=
        (caches.volumeByGroupAndClusterCache.erase (pairKey record.group record.cluster)).2 }

def stampAll (caches : VolumeCaches) (collected : List PersistentVolumeClaim) (time : Time) : VolumeCaches :=
  let allGroups := collected.map PersistentVolumeClaim.group
  let allClusters := collected.map PersistentVolumeClaim.cluster
  { caches with
    expirationTime := time
    volumeByGroupCache := caches.volumeByGroupCache.updateExpirations allGroups time
    volumeByClusterCache := caches.volumeByClusterCache.updateExpirations allClusters time
    volumeByGroupAndClusterCache := caches.volumeByGroupAndClusterCache.updateExpirations
      (allClusters.flatMap fun cluster => allGroups.map fun group => pairKey group cluster) time }

def listing (caches : VolumeCaches) (kind : ListingKind) (group cluster : String) : Category PersistentVolumeClaim :=
  match kind with
  | .groupAndCluster => caches.volumeByGroupAndClusterCache.find (pairKey group cluster)
  | .group => caches.volumeByGroupCache.find group
  | .cluster => caches.volumeByClusterCache.find cluster

def stamp (caches : VolumeCaches) (kind : ListingKind) (group cluster : String) (time : Time) : VolumeCaches :=
  match kind with
  | .groupAndCluster => { caches with volumeByGroupAndClusterCache :=
      (caches.volumeByGroupAndClusterCache.updateExpiration (pairKey group cluster) time).2 }
  | .group => { caches with volumeByGroupCache := (caches.volumeByGroupCache.updateExpiration group time).2 }
  | .cluster => { caches with volumeByClusterCache := (caches.volumeByClusterCache.updateExpiration cluster time).2 }

end VolumeCaches

def modifyVolumes (change : VolumeCaches → VolumeCaches) : StoreM Unit :=
  modify fun server => { server with volumes := change server.volumes }

def cacheVolume (pvc : PersistentVolumeClaim) : StoreM Unit := do
  let record ← CacheRecord.lasting pvc volumeCacheValidity
  let byGroup ← now
  let byCluster ← now
  let byPair ← now
  modifyVolumes fun caches => (caches.replaceListed record byGroup byPair).replaceByCluster record byCluster

def addPersistentVolumeClaim (pvc : PersistentVolumeClaim) : StoreM Bool := do
  unless ← request do
    return false
  modify fun server => { server with database := { server.database with
    volumes := server.database.volumes.insert pvc.id (itemOfVolume pvc) } }
  cacheVolume pvc
  return true

def removePersistentVolumeClaim (id : String) : StoreM Bool := do
  modifyVolumes fun caches => caches.forget id
  unless ← request do
    return false
  modify fun server => { server with database := { server.database with
    volumes := AList.erase id server.database.volumes } }
  return true

def getPersistentVolumeClaim (id : String) : StoreM PersistentVolumeClaim := do
  if let some pvc ← cached (← get).volumes.volumeCache id then
    return pvc
  unless ← request do
    return {}
  match (← get).database.volumes.lookup id with
  | none => return {}
  | some item =>
    let pvc ← readVolume id item
    cacheVolume pvc
    return pvc

def listPersistentVolumeClaims : StoreM (List PersistentVolumeClaim) := do
  let reading ← now
  if reading < (← get).volumes.expirationTime then
    return (← get).volumes.volumeCache.values.map CacheRecord.record
  unless ← request do
    return []
  let collected ← (← get).database.volumes.pairs.mapM fun (id, item) => do
    let pvc ← readVolume id item
    cacheVolume pvc
    return pvc
  let reading ← now
  modifyVolumes fun caches => caches.stampAll collected (reading + volumeCacheValidity)
  return collected

/-- Caches a claim as a listing by group or cluster does, which leaves the cache
by cluster alone. -/
def cacheListedVolume (pvc : PersistentVolumeClaim) : StoreM Unit := do
  let record ← CacheRecord.lasting pvc volumeCacheValidity
  let byGroup ← now
  let byPair ← now
  modifyVolumes fun caches => caches.replaceListed record byGroup byPair

def Database.volumesSelected (database : Database) (group cluster : String) : List (String × VolumeItem) :=
  database.volumes.select fun _ item => listingSelects group cluster item.owningGroup item.cluster

def listVolumesNormalized (kind : ListingKind) (group cluster : String) : StoreM (List PersistentVolumeClaim) := do
  if let some members ← maybeReturnCachedCategoryMembers ((← get).volumes.listing kind group cluster) then
    return members
  unless ← request do
    return []
  let rows := (← get).database.volumesSelected group cluster
  if rows = [] then
    return []
  let volumes ← rows.mapM fun (id, item) => do
    let pvc ← readVolume id item
    cacheListedVolume pvc
    return pvc
  let reading ← now
  modifyVolumes fun caches => caches.stamp kind group cluster (reading + volumeCacheValidity)
  return volumes

/-- Without a group and without a cluster there is no query, and an outcome that
counts as a failure. -/
def listPersistentVolumeClaimsByClusterOrGroup (group cluster : String) : StoreM (List PersistentVolumeClaim) := do
  let some (group, cluster) ← normalizeArguments group cluster
    | return []
  match listingKind group cluster with
  | none => return []
  | some kind => listVolumesNormalized kind group cluster

end Slate
