import Slate.Commands
import Slate.DNSManipulator
import Slate.Quantities

/-! Bringing a cluster that was registered or changed into use. -/

namespace Slate
open Library

/-- What is around a setup: what each of the programs does that it may run, at the time when it does, and
the name server. -/
structure SetupWorld where
  contact : Outside
  description : Outside
  version : Outside
  initialization : Outside
  deployments : Outside
  pods : Nat → Outside
  ingress : Outside
  canUpdateDNS : Bool := false
  baseDomain : String := ""
  dns : DNS := {}

def kubectlArguments (configPath : String) (arguments : List String) : List String :=
  "--request-timeout=10s" :: (if configPath ≠ "" then ["--kubeconfig=" ++ configPath] else []) ++ arguments

/-- What `kubectl` says to these arguments. -/
def Outside.kubectlAnswer (outside : Outside) (configPath : String) (arguments : List String) :
    Except String CommandResult := do
  let result ← outside.run "kubectl" (kubectlArguments configPath arguments) []
  return { result with
    output := removeShellEscapeSequences result.output
    error := removeShellEscapeSequences result.error }

theorem kubectl_answer (outside : Outside) (configPath : String) (arguments : List String) :
    kubectl outside configPath arguments = ofExcept (outside.kubectlAnswer configPath arguments) := by
  unfold kubectl runCommand Outside.kubectlAnswer kubectlArguments
  simp only [List.cons_append]
  cases outside.run "kubectl" _ [] <;> rfl

section
variable (world : SetupWorld) (cluster : Cluster)

def registrationFailed (reason : String) : String := "Cluster registration failed: " ++ reason

/-- Things are not working: the apparently non-functional record is deleted. -/
def giveUp {α : Type} (reason : String) : StoreM α := do
  let _ ← removeCluster cluster.id
  throw (registrationFailed reason)

def contactArguments : List String := ["get", "serviceaccounts", "-o=jsonpath={.items[*].metadata.name}"]

/-- Whether nothing can be said of a cluster. -/
def outOfContact (clusterInfo : CommandResult) : Bool :=
  clusterInfo.status ≠ 0 || !contains clusterInfo.output "default"

/-- The service accounts of the cluster. -/
def contactCluster (configPath : String) (autodelete : Bool) : StoreM (List (List Char)) := do
  let clusterInfo ← kubectl world.contact configPath contactArguments
  if outOfContact clusterInfo then
    if autodelete then giveUp cluster "Unable to contact cluster with kubectl"
    else throw (registrationFailed "Unable to contact cluster with kubectl")
  else return stringSplitColumns clusterInfo.output.toList ' ' false

/-- Whether one of the lines names the right namespace, and the last line that names a wrong one. -/
def checkNamespace (systemNamespace : List Char) (lines : List (List Char)) : Bool × List Char :=
  lines.foldl (fun (okay, badline) line =>
    match stringSplitColumns line ' ' false with
    | [label, name] =>
      if label = "Namespace:".toList then
        if name = systemNamespace then (true, badline) else (okay, line)
      else (okay, badline)
    | _ => (okay, badline)) (false, [])

def namespaceProblem (badline : List Char) : String :=
  "Default namespace does not appear to match default ServiceAccount: " ++ String.ofList badline ++ ", ServiceAccount: " ++
    cluster.systemNamespace

def describeArguments : List String := ["describe", "serviceaccount", cluster.systemNamespace]

local instance lawfulNames : LawfulBEq (List Char) := List.instLawfulBEq

/-- There must be a service account for the namespace, and the namespace must really be its own. -/
def checkServiceAccount (configPath : String) (serviceAccounts : List (List Char)) : StoreM Unit := do
  if serviceAccounts = [] then
    giveUp cluster "Found no ServiceAccounts in the default namespace"
  else if cluster.systemNamespace.toList ∉ serviceAccounts then
    throw (registrationFailed "Unable to find matching service account in default namespace")
  else
    let namespaceCheck ← kubectl world.description configPath (describeArguments cluster)
    if namespaceCheck.status ≠ 0 then
      giveUp cluster "Checking default namespace name failed"
    else
      let (okay, badline) := checkNamespace cluster.systemNamespace.toList (stringSplitLines namespaceCheck.output)
      if okay then return () else giveUp cluster (namespaceProblem cluster badline)

/-- Whether a line says that all parts of a pod of tiller run. The lines after one that cannot be read
are not looked at. -/
def tillerRunning : List (List Char) → Bool
  | [] => false
  | line :: lines =>
    match stringSplitColumns line ' ' false with
    | name :: ready :: _ :: _ =>
      if position "tiller-deploy".toList name = none then tillerRunning lines
      else match position ['/'] ready with
      | none => false
      | some slashPos =>
        if slashPos = 0 ∨ slashPos + 1 = ready.length then false
        else match stoul (ready.take slashPos), stoul (ready.drop (slashPos + 1)) with
        | some numer, some denom => if 0 < numer ∧ numer = denom then true else tillerRunning lines
        | _, _ => false
    | _ => tillerRunning lines

def maxDelays : Nat := 240

def tillerTimeout : String :=
  "[Warning] Waiting for tiller readiness in the " ++ cluster.systemNamespace ++ " namespace timed out.\n" ++
    " Applications cannot be installed on this cluster until this pod is running.\n"

/-- Whether there is nothing more to wait for. -/
def pollTiller (configPath : String) (poll : Nat) : Except String Bool := do
  let pods ← (world.pods poll).kubectlAnswer configPath ["get", "pods", "--namespace", cluster.systemNamespace]
  return pods.status ≠ 0 || tillerRunning (stringSplitLines pods.output)

/-- Asks for the pods until tiller runs, as long as there are delays left. -/
def awaitTiller (configPath : String) : Nat → Except String String
  | 0 => do
    let ended ← pollTiller world cluster configPath maxDelays
    return if ended then "" else tillerTimeout cluster
  | left + 1 => do
    let ended ← pollTiller world cluster configPath (maxDelays - (left + 1))
    if ended then return "" else awaitTiller configPath left

def helmFailed (result : CommandResult) : Bool :=
  result.status ≠ 0 || (!contains result.output "Tiller (the Helm server-side component) has been installed" &&
    !contains result.output "Tiller is already installed")

def tillerInstalled (deployments : CommandResult) : Bool :=
  deployments.status = 0 && (stringSplitColumns deployments.output.toList ' ' false).contains "tiller-deploy".toList

def deploymentsArguments : List String :=
  ["get", "deployments", "--namespace", cluster.systemNamespace, "-o=jsonpath={.items[*].metadata.name}"]

/-- Whether tiller is where it belongs, which is only looked up if there is one already. -/
def tillerInPlace (configPath : String) (result : CommandResult) : Except String Bool := do
  if contains result.output "Warning: Tiller is already installed in the cluster" then
    let deployments ← world.deployments.kubectlAnswer configPath (deploymentsArguments cluster)
    return tillerInstalled deployments
  else return true

def initArguments : List String :=
  ["init", "--service-account", cluster.systemNamespace, "--tiller-namespace", cluster.systemNamespace]

/-- With the second version of helm, tiller must run on the cluster. -/
def setUpHelm (configPath : String) : StoreM String := do
  let helmMajorVersion ← getHelmMajorVersion world.version
  if helmMajorVersion ≠ 2 then return ""
  else
    let result ← runCommand world.initialization "helm" (initArguments cluster) [("KUBECONFIG", configPath)]
    if helmFailed result then giveUp cluster "Unable to initialize helm"
    else
      let okay ← ofExcept (tillerInPlace world cluster configPath result)
      if okay then ofExcept (awaitTiller world cluster configPath maxDelays)
      else giveUp cluster "Unable to initialize helm"

def dnsNameForCluster : String := cluster.name ++ "." ++ world.baseDomain

/-- What became of the records of the name server is left out. -/
def dnsMessage (address : String) : String :=
  if !world.canUpdateDNS then
    "[Warning] The SLATE API server is not able to make DNS records, so no DNS name will be available for this cluster.\n"
  else match setDNSRecord ("*." ++ dnsNameForCluster world cluster) address world.dns with
  | .ok true _ => "Services using Ingress on this cluster can be assigned subdomains within the " ++
      dnsNameForCluster world cluster ++ " domain.\n"
  | _ => ""

def ingressMessage (icAddress : CommandResult) : String :=
  if icAddress.status ≠ 0 then
    "[Warning] Failed to check ingress controller service status: " ++ icAddress.error ++ "\n"
  else if icAddress.output = "" then
    "[Warning] There is either no ingress controller service in the " ++ cluster.systemNamespace ++ " namespace, \n" ++
      "or it has not received an address.\n" ++
      " A DNS record cannot be generated for this cluster until this is resolved.\n"
  else dnsMessage world cluster icAddress.output

def ingressArguments : List String :=
  ["get", "services", "-n", cluster.systemNamespace, "-l", "app.kubernetes.io/name=ingress-nginx", "-o",
    "jsonpath={.items[*].status.loadBalancer.ingress[0].ip}"]

def setClusterDNSRecord : StoreM String := do
  let configPath ← configPathForCluster cluster.id
  let icAddress ← kubectl world.ingress configPath (ingressArguments cluster)
  return ingressMessage world cluster icAddress

/-- The message is for the user. -/
def ensureClusterSetup (autodelete : Bool) : StoreM String := do
  let configPath ← configPathForCluster cluster.id
  let serviceAccounts ← contactCluster world cluster configPath autodelete
  checkServiceAccount world cluster configPath serviceAccounts
  let _ ← updateCluster cluster
  let tillerMessage ← setUpHelm world cluster configPath
  let dnsMessage ← setClusterDNSRecord world cluster
  return tillerMessage ++ dnsMessage
end

end Slate
