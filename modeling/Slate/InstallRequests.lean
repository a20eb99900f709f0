import Slate.HelmValues
import Slate.VolumeRequests

/-! The installation of an application. Its tag is looked up in its configuration, or else in the
default one of its chart. -/

namespace Slate
open Library Handler

inductive YamlNode where
  | scalar (text : String)
  | map (members : List (String × YamlNode))
  | other

structure Yaml where
  loadAll : String → Except String (List YamlNode)
  emit : List YamlNode → String

section
variable (yaml : Yaml)

/-- A text that cannot be parsed is not changed. -/
def reduceYAML (input : String) : String :=
  match yaml.loadAll input with
  | .error _ => input
  | .ok parsedData => if parsedData.isEmpty then "" else cText (yaml.emit parsedData)

def YamlNode.instanceTag : YamlNode → Option String
  | .map members =>
    match members.lookup "Instance" with
    | some (.scalar text) => some text
    | _ => none
  | _ => none

/-- A later document overrides what an earlier one says. -/
def extractInstanceTag (config : String) : Except String (Option String) :=
  (yaml.loadAll config).map fun documents => (documents.filterMap YamlNode.instanceTag).getLast?

/-- The tag that a configuration gives, if any. -/
def tagOf {σ : Type} (config : String) (status : Nat) (refusal : String) : EStateM Halt σ (Option String) :=
  match extractInstanceTag yaml config with
  | .ok tag => return tag
  | .error yamlError => refuse status (refusal ++ yamlError)

variable (outside : Outsides)

def inspectArguments (installSrc chartVersion : String) : List String :=
  ["inspect", "values", installSrc, "--version", chartVersion]

def runHelm (arguments : List String) (environment : List (String × String)) : ClusterM CommandResult :=
  runProgram arguments fun commands => runCommand (outside commands) "helm" arguments environment

def defaultTag (appName installSrc chartVersion : String) : ClusterM String := do
  let commandResult ← runHelm outside (inspectArguments installSrc chartVersion) []
  if commandResult.status ≠ 0 then
    refuse 500 "Unable to fetch default application config"
  match ← tagOf yaml commandResult.output 500 "Default configuration could not be parsed as YAML.\n" with
  | some tag => return tag
  | none => refuse 500 ("Failed to determine instance tag for " ++ appName)

def instanceTag (appName installSrc config chartVersion : String) : ClusterM String := do
  let given ← if config = "" then pure none else tagOf yaml config 400 "Configuration could not be parsed as YAML.\n"
  match given with
  | some tag => return tag
  | none => defaultTag yaml outside appName installSrc chartVersion

end

structure InstallSettings where
  group : String
  cluster : String
  config : String
  chartVersion : String

def requestedSettings (body : Json) : HandlerM InstallSettings := do
  checkRequired body "group" "Missing Group" "Incorrect type for Group"
  checkRequired body "cluster" "Missing cluster" "Incorrect type for cluster"
  checkRequired body "configuration" "Missing configuration" "Incorrect type for configuration"
  let text := fun member => (memberText body member).getD ""
  return ⟨text "group", text "cluster", text "configuration", text "chartVersion"⟩

/-- The group and the cluster, if the user may install the application there. -/
def installPlace (user : User) (appName groupID clusterID : String) : HandlerM (Group × Cluster) := do
  let group ← onStore (getGroup groupID)
  require (some group.valid) 400 "Invalid Group"
  let cluster ← onStore (getCluster clusterID)
  require (some cluster.valid) 400 "Invalid Cluster"
  let member ← onStore (userInGroup user.id group.id)
  require (some member) 403 "Not authorized"
  if group.id ≠ cluster.owningGroup then
    let allowed ← onStore (groupAllowedOnCluster group.id cluster.id)
    require (some allowed) 403 "Not authorized"
    let permitted ← onStore (groupMayUseApplication group.id cluster.id appName)
    require (some permitted) 403 "Not authorized"
  return (group, cluster)

/-- Names are in use within the group and the cluster. -/
def checkInstanceName (inst : ApplicationInstance) : HandlerM Unit := do
  let groupInsts ← onStore (listApplicationInstancesByClusterOrGroup inst.owningGroup inst.cluster)
  require (some !(groupInsts.any fun otherInst => otherInst.name == inst.name)) 400
    "Instance name is already in use, consider using a different tag"

section
variable (yaml : Yaml) (store : ServerConfiguration) (outside : Outsides) (files : TemporaryFiles)

/-- The instance that a request asks for, with its group and its cluster. Its tag is checked before they are looked up. -/
def askedInstance (user : User) (appName installSrc : String) (value : UInt64) (ctime : String) (body : Json) :
    ClusterM (ApplicationInstance × Group × Cluster × String) := do
  let settings ← onServer (requestedSettings body)
  let tag ← instanceTag yaml outside appName installSrc settings.config settings.chartVersion
  onServer (checkInstanceTag tag)
  let (group, cluster) ← onServer (installPlace user appName settings.group settings.cluster)
  let inst ← onServer (namedInstance value appName installSrc tag (reduceYAML yaml settings.config) ctime group cluster)
  onServer (checkInstanceName inst)
  return (inst, group, cluster, settings.chartVersion)

def writeInstanceConfig (inst : ApplicationInstance) : HandingM String := do
  let path ← fromExcept (files.make 1 inst.id)
  handOver files path inst.config
  if !(files.opens path && files.writes path (utf8 inst.config)) then
    refuse 500 ("Failed to write instance configuration to " ++ path)
  return path

def storeInstance (inst : ApplicationInstance) : HandingM Unit := do
  let success ← inHandler (addApplicationInstance inst)
  require (some success) 500 "Failed to add application instance record to the persistent store"

section
variable (inst : ApplicationInstance) (group : Group) (cluster : Cluster)

def installArguments (helmMajorVersion : Nat) (configFile chartVersion : String) : List String :=
  (if helmMajorVersion = 2 then ["install", "--name"] else ["install"]) ++
    [inst.name, inst.application, "--namespace", group.namespaceName, "--values", configFile,
      "--set", assembleExtraHelmValues store cluster inst group, "--version", chartVersion] ++
    if helmMajorVersion = 2 then ["--tiller-namespace", cluster.systemNamespace] else []

def cleanupArguments (helmMajorVersion : Nat) : List String :=
  if helmMajorVersion = 2 then ["delete", "--purge", inst.name, "--tiller-namespace", cluster.systemNamespace]
  else ["delete", inst.name, "--namespace", group.namespaceName]

def deployed (result : CommandResult) : Bool :=
  result.status = 0 && (contains result.output "STATUS: DEPLOYED" || contains result.output "STATUS: deployed")

def installFailure (result : CommandResult) : String :=
  "Failed to start application instance with helm:\n[exit] " ++ toString result.status ++ "\n[err]: " ++ result.error ++
    "\n[out]: " ++ result.output ++ "\n system namespace: " ++ cluster.systemNamespace

/-- Installs the instance with helm; it is removed from the database again if that fails. Helm will keep
broken releases around, which is cleaned up. -/
def deployInstance (configFile chartVersion : String) : HandingM Unit := do
  let clusterConfig ← inHandler (configPathForCluster cluster.id)
  catchInHandler (withFiles (kubectlCreateNamespace outside files clusterConfig)) fun message => do
    let _ ← inHandler (removeApplicationInstance inst.id)
    refuse 500 message
  let helmMajorVersion ← withFiles (runProgram ["version"] fun commands => getHelmMajorVersion (outside commands))
  let environment := [("KUBECONFIG", clusterConfig)]
  let commandResult ← withFiles (runHelm outside (installArguments store inst group cluster helmMajorVersion configFile chartVersion) environment)
  if !deployed commandResult then
    let _ ← inHandler (removeApplicationInstance inst.id)
    let _ ← withFiles (runHelm outside (cleanupArguments inst group cluster helmMajorVersion) environment)
    refuse 500 (installFailure cluster commandResult)

end

def installResponse (inst : ApplicationInstance) (appName : String) : Response where
  status := 200
  body := some (.object [("apiVersion", .string "v1alpha3"), ("kind", .string "Configuration"),
    ("metadata", .object [("id", .string inst.id), ("name", .string inst.name), ("revision", .string "?"),
      ("updated", .string "?"), ("application", .string appName), ("group", .string inst.owningGroup)]),
    ("status", .string "DEPLOYED")])

def installApplicationImpl (user : User) (appName installSrc : String) (value : UInt64) (ctime : String) (body : Json) :
    HandingM Response := do
  let (inst, group, cluster, chartVersion) ← withFiles (askedInstance yaml outside user appName installSrc value ctime body)
  let configFile ← writeInstanceConfig files inst
  storeInstance inst
  deployInstance store outside files inst group cluster configFile chartVersion
  return installResponse inst appName

end

end Slate
