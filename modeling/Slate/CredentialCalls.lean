import Slate.PagedQueries
import Slate.Library.Interleaving

/-! The handlers that touch monitoring credentials as calls that run at once. What
they check about the user who asks is left out, and so is what they do about the groups
that may use a cluster. -/

namespace Slate
open Library

/-- How the setup of a cluster goes, which what `kubectl` and `helm` say decides: it gives
up, it deletes the cluster for its service accounts, or it writes the record once more.
After that it may still delete the cluster, for its tiller, or give up. -/
inductive SetupCourse where
  | abandoned
  | rejected
  | verified (tillerMissing abandoned : Bool)
  deriving DecidableEq, Repr

/-- An update may replace the configuration and the owning organization. With the
configuration it sets the cluster up anew. -/
inductive CredentialRequest where
  | addMonitoringCredential (accessKey secretKey : String)
  | getClusterMonitoringCredential (clusterID : String)
  | removeClusterMonitoringCredential (clusterID : String)
  | revokeMonitoringCredential (credentialID : String)
  | deleteMonitoringCredential (credentialID : String)
  | updateCluster (clusterID : String) (config owningOrganization : Option String) (course : SetupCourse)
  | deleteCluster (clusterID : String)
  deriving DecidableEq, Repr

/-- Why a credential is removed from a cluster and revoked: for its own sake, for a
request to remove it, or for the cluster to be deleted. -/
inductive RemovalCause where
  | revocation
  | removal
  | deletion (cID : String)
  deriving DecidableEq, Repr

/-- Why a whole record is written: an update, with the setup that is to follow, or a setup. -/
inductive WriteCause where
  | update (setup : Option SetupCourse)
  | setup (tillerMissing abandoned : Bool)
  deriving DecidableEq, Repr

/-- What a cluster is looked up for. For `locate`, `setUp` and `conclude` only the path of its
configuration is wanted; the last two read it again after it has changed. -/
inductive ClusterPurpose where
  | allocate
  | remove
  | update (config owningOrganization : Option String) (course : SetupCourse)
  | locate (changed : Cluster) (trivial : Bool) (setup : Option SetupCourse)
  | setUp (changed : Cluster) (course : SetupCourse)
  | conclude
  | delete
  | assigned (cred : S3Credential)
  | revoke (accessKey : String) (cause : RemovalCause)
  deriving DecidableEq, Repr

inductive CredentialCall where
  | ready
  | adding (cred : S3Credential)
  | looking (key : ClusterKey) (purpose : ClusterPurpose)
  | reading (key : ClusterKey) (purpose : ClusterPurpose)
  | caching (cluster : Cluster) (purpose : ClusterPurpose)
  | scanning (cID : String)
  | acquiring (cID : String) (candidates : List (String × CredentialItem))
  | recording (cID : String) (cred : S3Credential)
  | given (cred : S3Credential)
  | reloading (cID : String) (purpose : ClusterPurpose)
  | erasing (cID accessKey : String) (cause : RemovalCause)
  | revoking (accessKey : String) (cause : RemovalCause)
  | finding (accessKey : String)
  | scanningClusters (cred : S3Credential)
  | cachingUser (cluster : Cluster) (accessKey : String)
  | checking (accessKey : String)
  | deleting (accessKey : String)
  | writing (cluster : Cluster) (cause : WriteCause)
  | cachingWritten (cluster : Cluster) (cause : WriteCause)
  | forgetting (cID : String) (requested : Bool)
  | deletingCluster (cID : String) (requested : Bool)
  | finished (done : Bool)
  deriving DecidableEq, Repr

namespace CredentialCall

def begin : CredentialRequest → CredentialCall
  | .addMonitoringCredential accessKey secretKey =>
    if accessKey = "" ∨ secretKey = "" then finished false else adding { accessKey, secretKey }
  | .getClusterMonitoringCredential clusterID => looking (.designated clusterID) .allocate
  | .removeClusterMonitoringCredential clusterID => looking (.designated clusterID) .remove
  | .revokeMonitoringCredential credentialID => finding credentialID
  | .deleteMonitoringCredential credentialID => checking credentialID
  | .updateCluster clusterID config owningOrganization course =>
    looking (.designated clusterID) (.update config owningOrganization course)
  | .deleteCluster clusterID => looking (.designated clusterID) .delete

def idle : CredentialCall → Bool
  | ready => true
  | given _ => true
  | finished _ => true
  | _ => false

/-- `internal::removeClusterMonitoringCredential`, which goes by the record of the
cluster that was read, and what follows it. -/
def removeFrom (cluster : Cluster) (cause : RemovalCause) (next : CredentialCall) : CredentialCall :=
  if cluster.monitoringCredential.usable then
    erasing cluster.id cluster.monitoringCredential.accessKey cause
  else next

/-- How a call goes on when it has the cluster it looked for. -/
def proceed (cluster : Cluster) : ClusterPurpose → CredentialCall
  | .allocate =>
    if !cluster.valid then finished false
    else if cluster.monitoringCredential.usable then given cluster.monitoringCredential
    else scanning cluster.id
  | .remove => if !cluster.valid then finished false else removeFrom cluster .removal (finished true)
  | .update config owningOrganization course =>
    if !cluster.valid then finished false
    else
      let changed := { cluster with
        config := config.getD cluster.config
        owningOrganization := owningOrganization.getD cluster.owningOrganization }
      looking (.id cluster.id) (.locate changed (config.isNone && owningOrganization.isNone) (config.map fun _ => course))
  | .locate changed trivial setup =>
    if !cluster.valid then finished false
    else if trivial then finished true
    else writing changed (.update setup)
  | .setUp changed course =>
    if !cluster.valid then finished false
    else match course with
      | .abandoned => finished false
      | .rejected => forgetting changed.id false
      | .verified tillerMissing abandoned => writing changed (.setup tillerMissing abandoned)
  | .conclude => finished cluster.valid
  | .delete =>
    if !cluster.valid then finished false
    else removeFrom cluster (.deletion cluster.id) (forgetting cluster.id true)
  | .assigned cred => given cred
  | .revoke accessKey cause => revoking accessKey cause

/-- How a call goes on when it has tried to revoke a credential. A removal from a
cluster that is asked for does not look at the outcome. -/
def afterRevoking (done : Bool) : RemovalCause → CredentialCall
  | .revocation => finished done
  | .removal => finished true
  | .deletion cID => forgetting cID true

/-- How a call goes on when it has tried to write a whole record. A setup does not look at
the outcome. -/
def afterWriting (cluster : Cluster) (written : Bool) : WriteCause → CredentialCall
  | .update none => finished written
  | .update (some course) => if written then looking (.id cluster.id) (.setUp cluster course) else finished false
  | .setup tillerMissing abandoned =>
    if tillerMissing then forgetting cluster.id false
    else if abandoned then finished false
    else looking (.id cluster.id) .conclude

section
variable (splitting : Splitting)

def piece : CredentialCall → StoreM CredentialCall
  | adding cred => do return finished (← addMonitoringCredential cred)
  | looking key purpose => do
    match ← clusterCached key with
    | some cluster => return proceed cluster purpose
    | none => return reading key purpose
  | reading key purpose => do
    match ← clusterQuery key with
    | some cluster => return caching cluster purpose
    | none => return proceed {} purpose
  | caching cluster purpose => do
    cacheCluster cluster
    return proceed cluster purpose
  | scanning cID => do
    match ← splitting.availableCredentials with
    | none => return finished false
    | some [] => return finished false
    | some candidates => return acquiring cID candidates
  | acquiring cID [] => return scanning cID
  | acquiring cID ((accessKey, item) :: others) => do
    if ← acquireCredential accessKey then
      let cred := { accessKey, secretKey := item.secretKey, inUse := true, revoked := false }
      if cred.usable then return recording cID cred else return finished false
    else return acquiring cID others
  | recording cID cred => do
    if ← recordCredential cID cred then return reloading cID (.assigned cred) else return finished false
  | reloading cID purpose => do
    modify fun server => { server with clusters := { server.clusters with
      clusterCache := AList.erase cID server.clusters.clusterCache } }
    return looking (.id cID) purpose
  | erasing cID accessKey cause => do
    if ← eraseCredential cID then return reloading cID (.revoke accessKey cause) else return finished false
  | revoking accessKey cause => do return afterRevoking (← revokeMonitoringCredential accessKey) cause
  | finding accessKey => do
    let cred ← getMonitoringCredential accessKey
    if cred.usable then return scanningClusters cred else return finished false
  | scanningClusters cred => do
    match ← splitting.clusterUsingCredential cred with
    | some cluster => return cachingUser cluster cred.accessKey
    | none => return revoking cred.accessKey .revocation
  | cachingUser cluster accessKey => do
    cacheCluster cluster
    return erasing cluster.id accessKey .revocation
  | checking accessKey => do
    let cred ← getMonitoringCredential accessKey
    if cred.usable then return deleting accessKey else return finished false
  | deleting accessKey => do return finished (← deleteMonitoringCredential accessKey)
  | writing cluster cause => do
    if ← writeCluster cluster then return cachingWritten cluster cause else return afterWriting cluster false cause
  | cachingWritten cluster cause => do
    cacheCluster cluster
    return afterWriting cluster true cause
  | forgetting cID requested => do
    modify fun server => { server with clusters := server.clusters.forget cID }
    return deletingCluster cID requested
  | deletingCluster cID requested => do return finished ((← deleteClusterItem cID) && requested)
  | call => return call

end

end CredentialCall

def credentialSystem (splitting : Splitting) : System Server CredentialRequest CredentialCall :=
  .ofPieces CredentialCall.idle CredentialCall.begin (CredentialCall.piece splitting)

end Slate
