import Slate.SecretRequests

/-! The request that creates a volume claim. The claim is handed to kubectl as a document in a
temporary file. -/

namespace Slate
open Library Handler

def volumeIDPrefix : String := "volume_"

def generateVolumeID (value : UInt64) : String := volumeIDPrefix ++ generateRawID value

def findPersistentVolumeClaimByName (group cluster name : String) : StoreM PersistentVolumeClaim := do
  let volumes ← listPersistentVolumeClaimsByClusterOrGroup group cluster
  return (volumes.find? fun volume => volume.name == name).getD {}

/-- A temporary file, and what was to be written to it. Nobody looks whether all of it has been. -/
structure HandedFile where
  path : String
  content : String
  complete : Bool
  deriving DecidableEq

structure HandingWorld extends ClusterWorld where
  handed : List HandedFile := []

abbrev HandingM := EStateM Halt HandingWorld

def withFiles {α : Type} (program : ClusterM α) : HandingM α := fun world =>
  match program world.toClusterWorld with
  | .ok value after => .ok value { world with toClusterWorld := after }
  | .error halt after => .error halt { world with toClusterWorld := after }

def inHandler {α : Type} (program : StoreM α) : HandingM α := withFiles (onServer (onStore program))

/-- Writes a text to a file without looking whether that succeeds. -/
def handOver (files : TemporaryFiles) (path content : String) : HandingM Unit :=
  modify fun world => { world with
    handed := world.handed ++ [⟨path, content, files.opens path && files.writes path (utf8 content)⟩] }

def checkSetting {α : Type} (result : Except String α) (refusal : String) : HandlerM α :=
  match result with
  | .ok value => return value
  | .error message => refuse 400 (refusal ++ message)

def checkVolumeName (name : String) : HandlerM Unit := do
  require (some (name.utf8ByteSize ≤ 253)) 400 "Volume name too long"
  require (some (name.toList.all fun c => c.isLower || c.isDigit || c == '-' || c == '.')) 400
    "Volume name contains an invalid character"

def describedVolume (value : UInt64) (ctime : String) (body : Json) : HandlerM PersistentVolumeClaim := do
  let metadata ← requestMetadata body "Missing user metadata in request" "Incorrect type for metadata"
  checkRequired metadata "group" "Missing Group" "Incorrect type for Group"
  checkRequired metadata "cluster" "Missing cluster" "Incorrect type for cluster"
  checkRequired metadata "name" "Missing volume name in request" "Incorrect type for volume name"
  checkRequired metadata "storageRequest" "Missing storage request" "Incorrect type for storage request"
  checkRequired metadata "accessMode" "Missing access mode" "Incorrect type for access mode"
  checkRequired metadata "volumeMode" "Missing volume mode" "Incorrect type for volume mode"
  checkRequired metadata "storageClass" "Missing StorageClass" "Incorrect type for StorageClass"
  let text := fun member => (memberText metadata member).getD ""
  let accessMode ← checkSetting (accessModeFromString (text "accessMode")) "Invalid value for access mode: "
  let volumeMode ← checkSetting (volumeModeFromString (text "volumeMode")) "Invalid value for volume mode: "
  return {
    id := generateVolumeID value, name := text "name", group := text "group", cluster := text "cluster"
    storageRequest := text "storageRequest", accessMode, volumeMode, storageClass := text "storageClass", ctime }

def requestedVolume (user : User) (value : UInt64) (ctime : String) (body : Json) :
    HandlerM (PersistentVolumeClaim × Group) := do
  let described ← describedVolume value ctime body
  checkVolumeName described.name
  let group ← onStore (getGroup described.group)
  require (some group.valid) 404 "Group not found"
  let member ← onStore (userInGroup user.id group.id)
  require (some member) 403 "User not authorized"
  let cluster ← onStore (getCluster described.cluster)
  require (some cluster.valid) 404 "Cluster not found"
  if group.id ≠ cluster.owningGroup then
    let allowed ← onStore (groupAllowedOnCluster group.id cluster.id)
    require (some allowed) 403 "User not authorized"
  let existing ← onStore (findPersistentVolumeClaimByName group.id cluster.id described.name)
  require (some !existing.valid) 400 "A volume with the same name already exists"
  return ({ described with valid := true, group := group.id, cluster := cluster.id }, group)

/-- Stores the claim; anything that is thrown on the way counts as a failure. -/
def storeVolume (volume : PersistentVolumeClaim) : HandlerM Unit := do
  let success ← onStore (catchRuntimeError (addPersistentVolumeClaim volume) fun _ => return false)
  require (some success) 500 "Failed to store volume to the persistent store"

def volumeDocument (volume : PersistentVolumeClaim) (group : Group) : Json :=
  .object [("apiVersion", .string "v1"), ("kind", .string "PersistentVolumeClaim"),
    ("metadata", .object [("name", .string volume.name), ("namespace", .string group.namespaceName)]),
    ("spec", .object [("accessModes", .array [.string volume.accessMode.toString]),
      ("volumeMode", .string volume.volumeMode.toString),
      ("resources", .object [("requests", .object [("storage", .string volume.storageRequest)])]),
      ("storageClassName", .string volume.storageClass)])]

section
variable (outside : Outsides) (files : TemporaryFiles) (write : Json → String)

/-- Creates the claim in Kubernetes; it is removed from the database again if that fails. -/
def deployVolume (volume : PersistentVolumeClaim) (group : Group) : HandingM Unit := do
  let configPath ← inHandler (configPathForCluster volume.cluster)
  catchInHandler (withFiles (kubectlCreateNamespace outside files configPath)) fun message => do
    let _ ← inHandler (removePersistentVolumeClaim volume.id)
    refuse 500 ("Failed to create namespace: " ++ message)
  let pvcFile ← fromExcept (files.make 1 ".pvc.json")
  handOver files pvcFile (write (volumeDocument volume group))
  let result ← withFiles (kubectlRun outside configPath ["create", "-f", pvcFile])
  if result.status ≠ 0 then
    let _ ← inHandler (removePersistentVolumeClaim volume.id)
    refuse 500 ("Failed to create PVC on kubernetes: " ++ result.error)

def volumeResponse (volume : PersistentVolumeClaim) (groupName clusterName : String) : Response where
  status := 200
  body := some (.object [("apiVersion", .string "v1alpha3"), ("kind", .string "PersistentVolumeClaim"),
    ("metadata", .object [("name", .string volume.name), ("id", .string volume.id), ("group", .string groupName),
      ("cluster", .string clusterName), ("storageRequest", .string volume.storageRequest),
      ("accessMode", .string volume.accessMode.toString), ("volumeMode", .string volume.volumeMode.toString),
      ("storageClass", .string volume.storageClass), ("created", .string volume.ctime)])])

def createVolumeClaim (user : User) (value : UInt64) (ctime : String) (body : Json) : HandingM Response := do
  withFiles (onServer (require (some user.valid) 403 "User not authorized"))
  let (volume, group) ← withFiles (onServer (requestedVolume user value ctime body))
  withFiles (onServer (storeVolume volume))
  deployVolume outside files write volume group
  let owner ← inHandler (getGroup volume.group)
  let cluster ← inHandler (getCluster volume.cluster)
  return volumeResponse volume owner.name cluster.name

end

end Slate
