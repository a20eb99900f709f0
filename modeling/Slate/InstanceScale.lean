import Slate.HandlerCommands

/-! How many replicas the deployments of an instance have, and changing that. -/

namespace Slate
open Library Handler

/-- The name of a deployment and the number of its replicas; nothing unless it has the structure that
is expected. -/
def deploymentInfo (deployment : Json) : Option (String × Nat) := do
  let metadata ← deployment.member "metadata"
  let name ← metadata.member "name"
  let spec ← deployment.member "spec"
  let replicas ← spec.member "replicas"
  return (← name.getCString, ← replicas.getUint64)

def deploymentArguments (name nspace : String) : List String :=
  ["get", "deployment", "-l", "release=" ++ name, "--namespace", nspace, "-o=json"]

def scaleArguments (depName : String) (replicas : Nat) (nspace : String) : List String :=
  ["scale", "deployment", depName, "--replicas", toString replicas, "--namespace", nspace, "-o=json"]

def scaleResponse (deploymentScales : Members) : Response where
  status := 200
  body := some (.object [("apiVersion", .string "v1alpha3"), ("kind", .string "ApplicationInstanceScale"),
    ("deployments", .object deploymentScales)])

structure Selection where
  depName : String
  deploymentScales : Members := []
  deploymentFound : Bool := false

section
variable (outside : Outsides) (parse : String → Json)

/-- The deployments of an instance. That they may not have been obtained is only logged, and a text
that is no document is parsed as null. -/
def listDeployments (configPath name nspace : String) : ClusterM (List Json) := do
  let deploymentResult ← kubectlRun outside configPath (deploymentArguments name nspace)
  accessing ((parse deploymentResult.output).member "items" >>= Json.getArray)

/-- If information on a specific deployment is requested, others are ignored. -/
def Selection.show (selection : Selection) (deployment : Json) : Selection :=
  match deploymentInfo deployment with
  | none => selection
  | some (deploymentName, replicas) =>
    if selection.depName ≠ "" ∧ deploymentName ≠ selection.depName then selection
    else { selection with
      deploymentScales := selection.deploymentScales ++ [(deploymentName, .number replicas)]
      deploymentFound := selection.depName ≠ "" || selection.deploymentFound }

def getApplicationInstanceScale (user : User) (instanceID : String) (deployment : Option String) : ClusterM Response := do
  let (applicationInstance, group) ← onServer (authorizedInstance user instanceID 400)
  let depName := deployment.getD ""
  let configPath ← onServer (onStore (configPathForCluster applicationInstance.cluster))
  let items ← listDeployments outside parse configPath applicationInstance.name group.namespaceName
  let selection := items.foldl Selection.show { depName }
  require (some (depName = "" || selection.deploymentFound)) 400 ("Deployment " ++ depName ++ " not found in " ++ instanceID)
  return scaleResponse selection.deploymentScales

/-- The selected deployment gets the new target value; if there is only one, it is selected unless
another one is specified. -/
def Selection.scale (only : Bool) (replicas : Nat) (selection : Selection) (deployment : Json) : Selection :=
  match deploymentInfo deployment with
  | none => selection
  | some (name, depReplicas) =>
    let depName := if selection.depName = "" ∧ only then name else selection.depName
    if name ≠ depName then
      { selection with depName, deploymentScales := selection.deploymentScales ++ [(name, .number depReplicas)] }
    else
      { depName, deploymentScales := selection.deploymentScales ++ [(name, .number replicas)], deploymentFound := true }

/-- The number of replicas. What the conversion throws is no runtime error. -/
def requestedReplicas (replicas : Option String) : HandlerM Nat := do
  let some reqReplicas := replicas
    | refuse 400 "Missing number of replicas"
  let some replicas := stoul reqReplicas.toList
    | throw (.thrown "stoull")
  return replicas

def scalingFailed (depName : String) (replicas : Nat) (scaleResult : CommandResult) : String :=
  "Scaling deployment " ++ depName ++ " to " ++ toString replicas ++ " replicas failed: " ++ scaleResult.error

def scaleDeployments (configPath nspace instanceID depName : String) (replicas : Nat) (items : List Json) : ClusterM Response := do
  require (some !(depName = "" && items.length ≠ 1)) 400
    (instanceID ++ " does not expose exactly one deployment, and no deployment was specified to be scaled.")
  let selection := items.foldl (Selection.scale (items.length == 1) replicas) { depName }
  require (some selection.deploymentFound) 404 ("Deployment " ++ selection.depName ++ " not found in " ++ instanceID)
  let scaleResult ← kubectlRun outside configPath (scaleArguments selection.depName replicas nspace)
  require (some (scaleResult.status = 0)) 500 (scalingFailed selection.depName replicas scaleResult)
  return scaleResponse selection.deploymentScales

def scaleApplicationInstance (user : User) (instanceID : String) (replicas deployment : Option String) : ClusterM Response := do
  let (applicationInstance, group) ← onServer (authorizedInstance user instanceID 404)
  let replicas ← onServer (requestedReplicas replicas)
  let configPath ← onServer (onStore (configPathForCluster applicationInstance.cluster))
  let items ← listDeployments outside parse configPath applicationInstance.name group.namespaceName
  scaleDeployments outside configPath group.namespaceName instanceID (deployment.getD "") replicas items

end

end Slate
