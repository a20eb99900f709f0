import Slate.Applications
import Slate.Commands
import Slate.PagedQueries
import Slate.Library.Json

/-! Deleting groups and clusters with what belongs to them. The tasks that a deletion
starts are run one after the other, in the order in which they are started. An empty text
is the answer of a deletion that succeeded. -/

namespace Slate
open Library

def getGroup (idOrName : String) : StoreM Group :=
  if startsWith groupIDPrefix idOrName then findGroupByID idOrName else findGroupByName idOrName

def listGroups : StoreM (List Group) := do
  let reading ← now
  if reading < (← get).groups.expirationTime then
    return (← get).groups.groupCache.values.map CacheRecord.record
  unless ← request do
    return []
  let collected ← (← get).database.groups.pairs.mapM fun (id, item) => do
    let group := groupOfItem id item
    cacheGroup group
    return group
  let reading ← now
  modify fun server => { server with groups := { server.groups with
    expirationTime := reading + groupCacheValidity } }
  return collected

/-- What is thrown when an access to a document is asserted, which nothing can catch. -/
def failedAssertion : String := "assertion failed"

/-- A task that has been started, once it is done: its result, or what it threw. -/
def async {α : Type} (task : StoreM α) : StoreM (Except String α) :=
  tryCatch (do return .ok (← task)) fun thrown =>
    if thrown = failedAssertion then throw thrown else return .error thrown

/-- Waits for deletions in turn, and gives up at a failure unless forced to go on. -/
def awaitDeletions (force : Bool) (failure : String) : List (Except String String) → StoreM String
  | [] => return ""
  | .error thrown :: _ => throw thrown
  | .ok result :: rest =>
    if !force ∧ result ≠ "" then return failure ++ result else awaitDeletions force failure rest

/-- What the items give, one after the other, unless an access is asserted and there is nothing. -/
def collect {α β : Type} (gives : α → Option (List β)) : List α → Option (List β)
  | [] => some []
  | item :: items => do
    let first ← gives item
    let others ← collect gives items
    return first ++ others

/-- `||`, where tests after one that holds are not made. -/
def anyOf : List (Option Bool) → Option Bool
  | [] => some false
  | test :: tests => test >>= fun holds => if holds then some true else anyOf tests

def unexpectedStructure (pod : Json) : Option Bool :=
  anyOf [
    (pod.hasMember "metadata").map not,
    (pod.hasMember "spec").map not,
    pod.member "metadata" >>= fun metadata => (metadata.hasMember "generateName").map not,
    pod.member "metadata" >>= fun metadata => (metadata.member "generateName").map fun name => !name.isString,
    (pod.member "spec").map fun spec => !spec.isObject,
    pod.member "spec" >>= fun spec => (spec.hasMember "volumes").map not,
    pod.member "spec" >>= fun spec => (spec.member "volumes").map fun volumes => !volumes.isArray]

/-- `value == text` -/
def isText (text : String) : Json → Bool
  | .string value => value = text
  | _ => false

def usesClaim (name : String) (podVolume : Json) : Option Bool := do
  let claims ← podVolume.hasMember "persistentVolumeClaim"
  if claims then
    let claim ← podVolume.member "persistentVolumeClaim"
    let claimName ← claim.member "claimName"
    return isText name claimName
  else return false

def podInstance (metadata : Json) : Option (Option String) := do
  let labelled ← metadata.hasMember "labels"
  if labelled then
    let labels ← metadata.member "labels"
    let known ← labels.hasMember "instanceID"
    if known then
      let instanceID ← labels.member "instanceID"
      return some (← instanceID.getString)
    else return none
  else return none

def podInfo (pod : Json) : Option (String × Option String) := do
  let metadata ← pod.member "metadata"
  let generateName ← metadata.member "generateName"
  return (← generateName.getString, ← podInstance metadata)

/-- What is known of a pod, for each of its volumes that is the claim. -/
def volumeMounts (name : String) (pod podVolume : Json) : Option (List (String × Option String)) := do
  let used ← usesClaim name podVolume
  if used then
    let info ← podInfo pod
    return [info]
  else return []

/-- A pod that has not the expected structure is gone through as well. -/
def podMounts (name : String) (pod : Json) : Option (List (String × Option String)) :=
  if pod.isObject then do
    let _ ← unexpectedStructure pod
    let spec ← pod.member "spec"
    let volumes ← spec.member "volumes"
    let podVolumes ← volumes.getArray
    collect (volumeMounts name pod) podVolumes
  else some []

def podsMountedBy (name : String) (podData : Json) : Option (List (String × Option String)) := do
  let items ← podData.member "items"
  let pods ← items.getArray
  collect (podMounts name) pods

section
variable (outside : Outside) (parse : String → Json)

/-- Asks helm to delete an instance; answers what went wrong. -/
def uninstall (inst : ApplicationInstance) (force : Bool) : StoreM String := do
  let group ← getGroup inst.owningGroup
  let configPath ← configPathForCluster inst.cluster
  let systemNamespace := (← getCluster inst.cluster).systemNamespace
  let helmMajorVersion ← getHelmMajorVersion outside
  let deleteArgs :=
    if helmMajorVersion = 2 then ["delete", "--purge", inst.name]
    else if helmMajorVersion = 3 then ["delete", inst.name, "--namespace", group.namespaceName]
    else ["delete", inst.name]
  let helmResult ← helm outside configPath systemNamespace deleteArgs
  let released := "release \"" ++ inst.name ++ "\" "
  if helmResult.status ≠ 0 ∨ !(contains helmResult.output (released ++ "deleted")) ∧
      !(contains helmResult.output (released ++ "uninstalled")) then
    return if force then "" else "helm delete failed: " ++ helmResult.error
  return ""

def deleteApplicationInstance (inst : ApplicationInstance) (force : Bool) : StoreM String := do
  let failure ← catchRuntimeError (uninstall outside inst force) fun thrown =>
    return if force then "" else "Failed to delete instance using helm: " ++ thrown
  if failure ≠ "" then
    return failure
  unless ← removeApplicationInstance inst.id do
    return "Failed to delete instance from database"
  return ""

def withdrawSecret (secret : Secret) (group : Group) (force : Bool) : StoreM String := do
  let configPath ← configPathForCluster secret.cluster
  let result ← kubectl outside configPath ["delete", "secret", secret.name, "--namespace", group.namespaceName]
  return if result.status ≠ 0 ∧ !force then "Failed to delete secret from kubernetes" else ""

def deleteSecret (secret : Secret) (force reachable : Bool) : StoreM String := do
  let group ← findGroupByID secret.group
  if reachable then
    let failure ← catchRuntimeError (withdrawSecret outside secret group force) fun _ =>
      return if force then "" else "Failed to delete secret from kubernetes"
    if failure ≠ "" then
      return failure
  unless ← removeSecret secret.id do
    return "Failed to delete secret from database"
  return ""

/-- How the pods that mount a claim are named to the user. -/
def mountedError (pods : List (String × Option String)) : String :=
  pods.foldl (fun text pod => text ++ pod.1 ++ match pod.2 with
    | some id => " (Slate ID: " ++ id ++ ")\n"
    | none => "") "Cannot delete volume from Kubernetes which is currently mounted by one or more pods: \n"

def podsArguments (nspace : String) : List String := ["get", "pods", "--namespace", nspace, "-o=json"]

def pvcArguments (volume : PersistentVolumeClaim) (nspace : String) : List String :=
  ["delete", "pvc", volume.name, "--namespace", nspace]

/-- Asks the cluster to delete a claim, unless a pod mounts it; answers what went wrong, or
nothing when the list of pods cannot be gone through. A text that is no document is parsed
as null. -/
def withdrawVolume (volume : PersistentVolumeClaim) (group : Group) (force : Bool) : StoreM (Option String) := do
  let configPath ← configPathForCluster volume.cluster
  let nspace := group.namespaceName
  let podResult ← kubectl outside configPath (podsArguments nspace)
  match podsMountedBy volume.name (parse podResult.output) with
  | none => return none
  | some [] =>
    let deletionResult ← kubectl outside configPath (pvcArguments volume nspace)
    return some (if deletionResult.status ≠ 0 ∧ !force then "Failed to delete volume from kubernetes" else "")
  | some podsMountedBy => return some (mountedError podsMountedBy)

def deleteVolumeClaim (volume : PersistentVolumeClaim) (force reachable : Bool) : StoreM String := do
  if reachable then
    let group ← findGroupByID volume.group
    let withdrawn ← catchRuntimeError (withdrawVolume outside parse volume group force) fun _ =>
      return some (if force then "" else "Failed to delete volume from kubernetes")
    match withdrawn with
    | none => throw failedAssertion
    | some failure =>
      if failure ≠ "" then
        return failure
  unless ← removePersistentVolumeClaim volume.id do
    return "Failed to delete volume from database"
  return ""

def pingCluster (cluster : Cluster) : StoreM Bool := do
  let configPath ← configPathForCluster cluster.id
  let clusterInfo ← kubectl outside configPath ["get", "serviceaccounts", "-o=jsonpath={.items[*].metadata.name}"]
  return clusterInfo.status = 0 ∧ contains clusterInfo.output "default"

/-- Withdraws the credential that is recorded on a cluster and revokes it. The answer to
the second step is not looked at. -/
def withdrawMonitoringCredential (cluster : Cluster) : StoreM String := do
  if cluster.monitoringCredential.usable then
    unless ← removeClusterMonitoringCredential cluster.id do
      return "Failed to remove monitoring credential for Cluster " ++ cluster.name
    let _ ← revokeMonitoringCredential cluster.monitoringCredential.accessKey
  return ""

/-- Nothing is removed from a cluster that cannot be reached. The caller's record of the cluster may be an
old one. -/
def withdrawIfReachable (cluster : Cluster) (reachable : Bool) : StoreM String :=
  if !reachable then return "" else withdrawMonitoringCredential cluster

/-- Deletes instances in turn, and gives up at a failure unless forced to go on. -/
def deleteInstances (force : Bool) : List ApplicationInstance → StoreM String
  | [] => return ""
  | inst :: rest => do
    let result ← deleteApplicationInstance outside inst force
    if !force ∧ result ≠ "" then
      return "Failed to delete cluster due to failure deleting instance: " ++ result
    deleteInstances force rest

section
variable (splitting : Splitting)

/-- The namespaces of the groups are deleted too, which is no business of the store; nor is
the name of the cluster among the names of hosts. -/
def deleteCluster (cluster : Cluster) (force : Bool) : StoreM String := do
  let _ ← configPathForCluster cluster.id
  let instances ← listApplicationInstances
  let result ← deleteInstances outside force (instances.filter fun inst => inst.cluster = cluster.id)
  if result ≠ "" then
    return result
  let reachable ← pingCluster outside cluster
  if !reachable ∧ !force then
    return "Must force delete an unreachable cluster"
  let secrets ← splitting.listSecrets "" cluster.id
  let secretDeletions ← secrets.mapM fun secret => async (deleteSecret outside secret true reachable)
  let volumes ← splitting.listPersistentVolumeClaimsByClusterOrGroup "" cluster.id
  let volumeDeletions ← volumes.mapM fun volume => async (deleteVolumeClaim outside parse volume true reachable)
  let result ← awaitDeletions force "Failed to delete cluster due to failure deleting volume: " volumeDeletions
  if result ≠ "" then
    return result
  let result ← awaitDeletions force "Failed to delete cluster due to failure deleting secret: " secretDeletions
  if result ≠ "" then
    return result
  if reachable then
    let _ ← listGroups
  let credRemoval ← withdrawMonitoringCredential cluster
  if credRemoval ≠ "" then
    return "Cluster deletion failed: " ++ credRemoval
  unless ← splitting.removeCluster cluster.id do
    return "Cluster deletion failed"
  return ""

/-- The response to a request for the deletion of a group. What is left of the group is
deleted once its record is gone, whether or not that succeeds. -/
def deleteGroup (groupID : String) : StoreM Nat := do
  let targetGroup ← getGroup groupID
  if !targetGroup.valid then
    return 404
  unless ← splitting.removeGroup targetGroup.id do
    return 500
  let instances ← splitting.listApplicationInstancesByClusterOrGroup targetGroup.id ""
  instances.forM fun inst => do
    let _ ← async (deleteApplicationInstance outside inst true)
  let secrets ← splitting.listSecrets targetGroup.id ""
  secrets.forM fun secret => do
    let _ ← async (deleteSecret outside secret true true)
  let clusters ← listClusters
  clusters.forM fun cluster => do
    let _ ← async (configPathForCluster cluster.id)
  (clusters.filter fun cluster => cluster.owningGroup = targetGroup.id).forM fun cluster => do
    let _ ← async (deleteCluster outside parse splitting cluster true)
  return 200
end
end

end Slate
