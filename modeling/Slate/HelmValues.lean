import Slate.GroupRequests
import Slate.Library.Separators

/-! The values that every application is installed with, and the clusters, groups and
instances that they are about. -/

namespace Slate
open Library Handler Separators

/-- Takes matching quotes off, as long as there is something between them. -/
def unquoteChars (src : List Char) : List Char :=
  if _ : 2 < src.length ∧ (src.head? = some '\'' ∨ src.head? = some '"') ∧ src.getLast? = src.head? then
    unquoteChars (src.tail.dropLast)
  else src
termination_by src.length
decreasing_by
  rw [List.length_dropLast, List.length_tail]
  omega

def unquoteString (src : String) : String := .ofList (unquoteChars src.toList)

/-- The cluster that a request asks for. Its kubeconfig is put together as YAML of the data of
the certificate authority, the address of the server, the token and the namespace. -/
def requestedCluster (kubeconfig : String → String → String → String → Option String) (user : User) (value : UInt64)
    (body : Json) : HandlerM Cluster := do
  let metadata ← requestMetadata body "Missing user metadata in request" "Incorrect type for metadata"
  checkRequired metadata "name" "Missing cluster name in request" "Incorrect type for cluster name"
  checkRequired metadata "group" "Missing Group ID in request" "Incorrect type for Group ID"
  checkRequired metadata "owningOrganization" "Missing organization name in request" "Incorrect type for organization"
  checkRequired metadata "caData" "Missing caData in request" "Incorrect type for caData"
  checkRequired metadata "token" "Missing token in request" "Incorrect type for token"
  checkRequired metadata "serverAddress" "Missing serverAddress in request" "Incorrect type for serverAddress"
  let caData ← accessing (memberText metadata "caData")
  let serverAddress ← accessing (memberText metadata "serverAddress")
  let token ← accessing (memberText metadata "token")
  let systemNamespace ← accessing (memberText metadata "namespace")
  let some config := kubeconfig (unquoteString caData) serverAddress token systemNamespace
    | refuse 400 "Unable to parse kubeconfig as YAML"
  require (some (systemNamespace ≠ "")) 400 "Unable to determine kubernetes namespace from kubeconfig"
  let name ← accessing (memberText metadata "name")
  let owningGroup ← accessing (memberText metadata "group")
  let owningOrganization ← accessing (memberText metadata "owningOrganization")
  let owningGroup ← if startsWith groupIDPrefix owningGroup then pure owningGroup else do
    let group ← onStore (findGroupByName owningGroup)
    require (some group.valid) 403 "User not authorized"
    pure group.id
  let member ← onStore (userInGroup user.id owningGroup)
  require (some member) 403 "User not authorized"
  require (some (validDnsToken name)) 400 "Cluster names may only contain [a-zA-Z0-9-]"
  require (some !startsWith clusterIDPrefix name) 400 ("Cluster names may not begin with " ++ clusterIDPrefix)
  let other ← onStore (findClusterByName name)
  require (some !other.valid) 400 "Cluster name is already in use"
  return { valid := true, id := generateClusterID value, name, config, systemNamespace, owningGroup, owningOrganization }

def checkInstanceTag (tag : String) : HandlerM Unit := do
  require (some (validTagGroupName tag)) 400 "Instance tags names may only contain [a-z], [0-9] and -"
  require (some (tag.toList.getLast? ≠ some '-')) 400 "Instance tags names may not end with a dash"

def namedInstance (value : UInt64) (appName installSrc tag config ctime : String) (group : Group) (cluster : Cluster) :
    HandlerM ApplicationInstance := do
  let name := if tag ≠ "" then appName ++ "-" ++ tag else appName
  require (some (name.utf8ByteSize ≤ 63)) 400 "Instance tag too long"
  return {
    valid := true
    id := generateInstanceID value
    application := installSrc
    owningGroup := group.id
    cluster := cluster.id
    config := if config = "" then "\n" else config
    ctime
    name }

/-- The instance that is installed, once the tag of its configuration is known. -/
def requestedInstance (value : UInt64) (appName installSrc tag config ctime : String) (group : Group) (cluster : Cluster) :
    HandlerM ApplicationInstance := do
  checkInstanceTag tag
  namedInstance value appName installSrc tag config ctime group cluster

structure ServerConfiguration where
  appLoggingServerName : String
  appLoggingServerPort : UInt32
  baseDomain : String

section
variable (store : ServerConfiguration) (cluster : Cluster) (applicationInstance : ApplicationInstance) (group : Group)

def ServerConfiguration.dnsNameForCluster : String := cluster.name ++ "." ++ store.baseDomain

def assembleExtraHelmValues : String :=
  (if store.appLoggingServerName ≠ "" then
    "SLATE.Logging.Enabled=true" ++ ",SLATE.Logging.Server.Name=" ++ store.appLoggingServerName ++
      ",SLATE.Logging.Server.Port=" ++ toString store.appLoggingServerPort.toNat
  else
    "SLATE.Logging.Enabled=false") ++
  ",SLATE.Cluster.Name=" ++ cluster.name ++
  ",SLATE.Cluster.DNSName=" ++ store.dnsNameForCluster cluster ++
  ",SLATE.Cluster.ClusterID=" ++ applicationInstance.cluster ++
  ",SLATE.Instance.ID=" ++ applicationInstance.id ++
  ",SLATE.Metadata.Group=" ++ group.name ++
  ",SLATE.Metadata.GroupEmail=" ++ group.email

/-- The keys that the values are meant to have, each with the field it stands for. -/
def intendedHelmValues : List (String × String) :=
  (if store.appLoggingServerName ≠ "" then
    [("SLATE.Logging.Enabled", "true"), ("SLATE.Logging.Server.Name", store.appLoggingServerName),
      ("SLATE.Logging.Server.Port", toString store.appLoggingServerPort.toNat)]
  else
    [("SLATE.Logging.Enabled", "false")]) ++
  [("SLATE.Cluster.Name", cluster.name), ("SLATE.Cluster.DNSName", store.dnsNameForCluster cluster),
    ("SLATE.Cluster.ClusterID", applicationInstance.cluster), ("SLATE.Instance.ID", applicationInstance.id),
    ("SLATE.Metadata.Group", group.name), ("SLATE.Metadata.GroupEmail", group.email)]

end

/-- One of the values of `--set`: a key, up to the first equals sign, and what follows it. -/
def helmAssignment (text : List Char) : Option (String × String) :=
  match text.dropWhile (· ≠ '=') with
  | [] => none
  | _ :: value => some (.ofList (text.takeWhile (· ≠ '=')), .ofList value)

/-- Values are separated by commas that have no backslash before them. -/
def parseHelmValues (text : String) : Option (List (String × String)) :=
  (cut ',' '\\' false text.toList).mapM helmAssignment

end Slate
