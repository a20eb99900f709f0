import Slate.ClusterSetup
import Slate.Deletions

/-! Deleting a volume claim, with an account of what is done on its cluster. -/

namespace Slate
open Library

/-- An exception, or an assertion that fails and is not caught by anything. -/
inductive ClaimFault where
  | thrown (message : String)
  | assertion
  deriving DecidableEq, Repr

/-- The server, and whether the claim has been deleted from its cluster. -/
structure ClaimWorld where
  server : Server
  withdrawn : Bool := false

abbrev ClaimM := EStateM ClaimFault ClaimWorld

def inStore {α : Type} (program : StoreM α) : ClaimM α := fun world =>
  match program world.server with
  | .ok value server => .ok value { world with server }
  | .error message server => .error (.thrown message) { world with server }

def asserting {α : Type} : Option α → ClaimM α
  | some value => return value
  | none => throw .assertion

/-- `catch(std::runtime_error& e)` -/
def catchThrown {α : Type} (program handler : ClaimM α) : ClaimM α :=
  tryCatch program fun
    | .thrown message => if message = keyNotFound then throw (.thrown message) else handler
    | .assertion => throw .assertion

section
variable (outside : Outside) (parse : String → Json) (volume : PersistentVolumeClaim) (force : Bool)

def deleteFromCluster (configPath nspace : String) : ClaimM String := do
  let deletionResult ← inStore (kubectl outside configPath (pvcArguments volume nspace))
  if deletionResult.status = 0 then
    modify fun world => { world with withdrawn := true }
    return ""
  else return if force then "" else "Failed to delete volume from kubernetes"

/-- Asks the cluster to delete a claim, unless a pod mounts it. That the list of pods may not have been
obtained is only logged. A text that is no document is parsed as null. -/
def withdrawClaim (group : Group) : ClaimM String := do
  let configPath ← inStore (configPathForCluster volume.cluster)
  let podResult ← inStore (kubectl outside configPath (podsArguments group.namespaceName))
  let podsMountedBy ← asserting (podsMountedBy volume.name (parse podResult.output))
  if podsMountedBy ≠ [] then return mountedError podsMountedBy
  else deleteFromCluster outside volume force configPath group.namespaceName

def removeClaim : ClaimM String := do
  let success ← inStore (removePersistentVolumeClaim volume.id)
  return if success then "" else "Failed to delete volume from database"

def deleteReachableClaim : ClaimM String := do
  let group ← inStore (findGroupByID volume.group)
  let failure ← catchThrown (withdrawClaim outside parse volume force group) do
    return if force then "" else "Failed to delete volume from kubernetes"
  if failure ≠ "" then return failure else removeClaim volume
end

end Slate
