import Slate.ClusterRecords
import Slate.Instances
import Slate.Memberships
import Slate.Secrets
import Slate.Volumes
import Slate.Library.Paging

/-! Operations whose queries and scans are answered with one page of a table. None of them
looks at the key that tells that more pages remain. -/

namespace Slate
open Library

structure Splitting where
  groups : Paging (String × GroupItem) := .single
  clusters : Paging (String × ClusterItem) := .single
  instances : Paging (String × InstanceItem) := .single
  secrets : Paging (String × SecretItem) := .single
  credentials : Paging (String × CredentialItem) := .single
  volumes : Paging (String × VolumeItem) := .single
  memberships : Paging ((String × String) × Unit) := .single
  access : Paging ((String × String) × Unit) := .single

namespace Splitting

variable (splitting : Splitting)

def findGroupByName (name : String) : StoreM Group := do
  if let some group ← cached (← get).groups.groupByNameCache name then
    return group
  unless ← request do
    return {}
  match (splitting.groups.query (← get).database.groups.pairs (fun row => row.2.name == name) none).items with
  | [] => return {}
  | [(id, item)] =>
    let group := { groupOfItem id item with name }
    cacheGroup group
    return group
  | _ => throw ("Group name \"" ++ name ++ "\" is not unique!")

/-- Where the wildcard is not allowed. -/
def normalizeGroupID (groupID : String) : StoreM (Option String) := do
  if !startsWith groupIDPrefix groupID then
    let group ← splitting.findGroupByName groupID
    if !group.valid then
      return none
    return some group.id
  return some groupID

def findClusterByName (name : String) : StoreM Cluster := do
  if let some cluster ← cached (← get).clusters.clusterByNameCache name then
    return cluster
  unless ← request do
    return {}
  match (splitting.clusters.query (← get).database.clusters.pairs (fun row => row.2.name == some name) none).items with
  | [] => return {}
  | [(id, item)] =>
    let cluster ← clusterOfItem id item
    cacheCluster cluster
    return cluster
  | _ => throw ("Cluster name \"" ++ name ++ "\" is not unique!")

def normalizeClusterID (cID : String) : StoreM (Option String) := do
  if !startsWith clusterIDPrefix cID then
    let cluster ← splitting.findClusterByName cID
    if !cluster.valid then
      return none
    return some cluster.id
  return some cID

def normalizeArguments (group cluster : String) : StoreM (Option (String × String)) := do
  let some group ← normalizeGiven splitting.normalizeGroupID group
    | return none
  let some cluster ← normalizeGiven splitting.normalizeClusterID cluster
    | return none
  return some (group, cluster)

def clusterUsingCredential (cred : S3Credential) : StoreM (Option Cluster) := do
  unless ← request do
    return none
  match (splitting.clusters.query (← get).database.clusters.pairs
      (fun row => row.2.monCredential == some cred.serialize) none).items with
  | [] => return none
  | (id, item) :: _ => return some (← clusterOfItem id item)

def findClusterUsingCredential (cred : S3Credential) : StoreM Cluster := do
  match ← splitting.clusterUsingCredential cred with
  | none => return {}
  | some cluster =>
    cacheCluster cluster
    return cluster

/-- The candidates for an allocation; none when the scan fails. -/
def availableCredentials : StoreM (Option (List (String × CredentialItem))) := do
  unless ← request do
    return none
  return some (splitting.credentials.query (← get).database.credentials.pairs
    (fun row => !row.2.inUse && !row.2.revoked) none).items

/-- The first of the candidates that can be marked as being in use. -/
def acquireFirst : List (String × CredentialItem) → StoreM (Option S3Credential)
  | [] => return none
  | (accessKey, item) :: others => do
    if ← acquireCredential accessKey then
      return some { accessKey, secretKey := item.secretKey, inUse := true, revoked := false }
    acquireFirst others

def lookUpFailure : String := "Failed to look up available monitoring credentials: "
def noneAvailable : String := "No monitoring credentials available for allocation"

/-- Scans again for as long as no candidate can be acquired; none when that does not
happen within the rounds. With the credential comes the text of an error. -/
def allocateMonitoringCredential : Nat → StoreM (Option (S3Credential × String))
  | 0 => return none
  | rounds + 1 => do
    match ← splitting.availableCredentials with
    | none => return some ({}, lookUpFailure)
    | some [] => return some ({}, noneAvailable)
    | some candidates =>
      match ← acquireFirst candidates with
      | some cred => return some (cred, "")
      | none => allocateMonitoringCredential rounds

def listInstancesNormalized (kind : ListingKind) (group cluster : String) : StoreM (List ApplicationInstance) := do
  if let some members ← maybeReturnCachedCategoryMembers ((← get).instances.listing kind group cluster) then
    return members
  unless ← request do
    return []
  let rows := (splitting.instances.query (← get).database.instances.pairs
    (fun row => listingSelects group cluster row.2.owningGroup row.2.cluster) none).items
  if rows = [] then
    return []
  let instances ← collectInstances rows
  let reading ← now
  modifyInstances fun caches => caches.stamp kind group cluster (reading + instanceCacheValidity)
  return instances

def listApplicationInstancesByClusterOrGroup (group cluster : String) : StoreM (List ApplicationInstance) := do
  let some (group, cluster) ← splitting.normalizeArguments group cluster
    | return []
  match listingKind group cluster with
  | none => return []
  | some kind => splitting.listInstancesNormalized kind group cluster

def listSecretsNormalized (group cluster : String) : StoreM (List Secret) := do
  if let some category := (← get).secrets.listing group cluster then
    if let some members ← maybeReturnCachedCategoryMembers category then
      return members
  if group = "" ∧ cluster = "" then
    return []
  unless ← request do
    return []
  let rows := (splitting.secrets.query (← get).database.secrets.pairs
    (fun row => listingSelects group cluster row.2.owningGroup row.2.cluster) none).items
  let secrets ← rows.mapM fun (id, item) => do
    let secret := listedSecret group cluster id item
    cacheSecret secret
    return secret
  let reading ← now
  modifySecrets fun caches => caches.stamp group cluster (reading + secretCacheValidity)
  return secrets

def listSecrets (group cluster : String) : StoreM (List Secret) := do
  if group = "" ∧ cluster = "" then
    throw listSecretsAssertion
  let some (group, cluster) ← splitting.normalizeArguments group cluster
    | return []
  splitting.listSecretsNormalized group cluster

def listVolumesNormalized (kind : ListingKind) (group cluster : String) : StoreM (List PersistentVolumeClaim) := do
  if let some members ← maybeReturnCachedCategoryMembers ((← get).volumes.listing kind group cluster) then
    return members
  unless ← request do
    return []
  let rows := (splitting.volumes.query (← get).database.volumes.pairs
    (fun row => listingSelects group cluster row.2.owningGroup row.2.cluster) none).items
  if rows = [] then
    return []
  let volumes ← rows.mapM fun (id, item) => do
    let pvc ← readVolume id item
    cacheListedVolume pvc
    return pvc
  let reading ← now
  modifyVolumes fun caches => caches.stamp kind group cluster (reading + volumeCacheValidity)
  return volumes

def listPersistentVolumeClaimsByClusterOrGroup (group cluster : String) : StoreM (List PersistentVolumeClaim) := do
  let some (group, cluster) ← splitting.normalizeArguments group cluster
    | return []
  match listingKind group cluster with
  | none => return []
  | some kind => splitting.listVolumesNormalized kind group cluster

def getMembersOfGroup (groupID : String) : StoreM (List String) := do
  unless ← request do
    return []
  let rows := (splitting.memberships.query (← get).database.memberships.pairs (fun row => row.1.2 == groupID) none).items
  return rows.map fun row => row.1.1

def removeGroup (groupID : String) : StoreM Bool := do
  let members ← splitting.getMembersOfGroup groupID
  unless ← removeMembers groupID members do
    return false
  modify fun server => { server with groups := server.groups.forget groupID }
  unless ← request do
    return false
  modify fun server => { server with database := { server.database with
    groups := AList.erase groupID server.database.groups } }
  return true

/-- For the cluster with this ID, and by the IDs of the groups. -/
def listGroupsAllowedOnCluster (cID : String) : StoreM (List String) := do
  let some cID ← splitting.normalizeClusterID cID
    | return []
  if ← clusterAllowsAllGroups cID then
    return [wildcard]
  unless ← request do
    return []
  let rows := (splitting.access.query (← get).database.access.pairs
    (fun row => row.1.1 == cID && startsWith groupIDPrefix row.1.2) none).items
  return rows.map fun row => row.1.2

def removeCluster (cID : String) : StoreM Bool := do
  let guests ← splitting.listGroupsAllowedOnCluster cID
  guests.forM fun guest => do
    let _ ← removeGroupFromCluster guest cID
  dropCluster cID

end Splitting
end Slate
