import Slate.Library.Json
import Slate.Quantities

/-! What is reported on the nodes of a cluster. -/

namespace Slate
open Library

/-- Accesses to a document assert that what they want is there. -/
def asserted {α : Type} : Option α → Except Fault α
  | some value => .ok value
  | none => .error .assertion

/-- The totals over all nodes. What has been added is kept for each node: by the current one,
and by those before it. -/
structure Totals where
  totalCpus : Int := 0
  totalMemory : Int := 0
  cpus : List Int := []
  memories : List Int := []
  counted : List (List Int × List Int) := []

def checkedSum (max total added : Int) : Except Fault Int :=
  if -max - 1 ≤ total + added ∧ total + added ≤ max then .ok (total + added) else .error .overflow

def Totals.addCpus (totals : Totals) (cpu : String) : Except Fault Totals := do
  let cpus ← stoi cpu.toList
  let totalCpus ← checkedSum intMax totals.totalCpus cpus
  return { totals with totalCpus, cpus := totals.cpus ++ [cpus] }

def Totals.addMemory (totals : Totals) (memory : String) : Except Fault Totals := do
  let memories ← parseStringSuffix memory
  let totalMemory ← checkedSum longMax totals.totalMemory memories
  return { totals with totalMemory, memories := totals.memories ++ [memories] }

/-- The next node begins. -/
def Totals.nodeDone (totals : Totals) : Totals :=
  { totals with cpus := [], memories := [], counted := totals.counted ++ [(totals.cpus, totals.memories)] }

/-- `value[name].GetString()` -/
def textOf (value : Json) (name : String) : Except Fault String := do
  let found ← asserted (value.member name)
  asserted found.getString

def copyText (info : Json) (address : Members) (names : String × String) : Except Fault Members := do
  if ← asserted (info.hasMember names.1) then
    return address ++ [(names.2, .string (← textOf info names.1))]
  return address

def addText (info : Json) (name : String) (add : Totals → String → Except Fault Totals) (totals : Totals) :
    Except Fault Totals := do
  if ← asserted (info.hasMember name) then
    return ← add totals (← textOf info name)
  return totals

def allocatableValues (info : Json) (address : Members) (totals : Totals) : Except Fault (Members × Totals) := do
  let address ← copyText info address ("cpu", "allocatableCPU")
  let totals ← addText info "cpu" Totals.addCpus totals
  let address ← copyText info address ("ephemeral-storage", "allocatableStorage")
  let address ← copyText info address ("hugepages-1Gi", "allocatableHugepages1Gi")
  let address ← copyText info address ("hugepages-2Mi", "allocatableHugepages2Mi")
  let address ← copyText info address ("memory", "allocatableMem")
  let totals ← addText info "memory" Totals.addMemory totals
  let address ← copyText info address ("pods", "allocatablePods")
  return (address, totals)

def capacityValues (info : Json) (address : Members) : Except Fault Members :=
  [("cpu", "capacityCPU"), ("ephemeral-storage", "capacityStorage"), ("hugepages-1Gi", "capacityHugepages1Gi"),
    ("hugepages-2Mi", "capacityHugepages2Mi"), ("memory", "capacityMem"), ("pods", "capacityPods")].foldlM
    (copyText info) address

def allocatableOf (status : Json) (address : Members) (totals : Totals) : Except Fault (Members × Totals) := do
  if ← asserted (status.hasMember "allocatable") then
    return ← allocatableValues (← asserted (status.member "allocatable")) address totals
  return (address, totals)

def capacityOf (status : Json) (address : Members) : Except Fault Members := do
  if ← asserted (status.hasMember "capacity") then
    return ← capacityValues (← asserted (status.member "capacity")) address
  return address

/-- One of the addresses of a node with what is known of the node. -/
def collectAddress (status : Json) (collected : List Json × Totals) (addr : Json) :
    Except Fault (List Json × Totals) := do
  let addrType ← textOf addr "type"
  if addrType = "InternalIP" ∨ addrType = "ExternalIP" then
    let address : Members := [("addressType", .string addrType), ("address", .string (← textOf addr "address"))]
    let (address, totals) ← allocatableOf status address collected.2
    let address ← capacityOf status address
    return (collected.1 ++ [.object address], totals)
  return collected

/-- `node.HasMember(outer) && node[outer].HasMember(inner)` -/
def hasInner (node : Json) (outer inner : String) : Except Fault Bool := do
  if ← asserted (node.hasMember outer) then
    return ← asserted ((← asserted (node.member outer)).hasMember inner)
  return false

def collectAddresses (node : Json) (nodeInfo : List Json) (totals : Totals) : Except Fault (List Json × Totals) := do
  let name ← textOf (← asserted (node.member "metadata")) "name"
  if ← hasInner node "status" "addresses" then
    let status ← asserted (node.member "status")
    let addresses ← asserted (← asserted (status.member "addresses")).getArray
    let (nodeAddresses, totals) ← addresses.foldlM (collectAddress status) ([], totals)
    return (nodeInfo ++ [.object [("name", .string name), ("addresses", .array nodeAddresses)]], totals)
  return (nodeInfo, totals)

/-- A node without a name or addresses is left out. -/
def collectNode (collected : List Json × Totals) (node : Json) : Except Fault (List Json × Totals) := do
  if ← hasInner node "metadata" "name" then
    let (nodeInfo, totals) ← collectAddresses node collected.1 collected.2
    return (nodeInfo, totals.nodeDone)
  return (collected.1, collected.2.nodeDone)

/-- What is added to a description of a cluster when its nodes are asked for, where `cmdOutput`
is the document that the cluster gave. Without a list of nodes nothing is. -/
def clusterNodes (cmdOutput : Json) : Except Fault (Members × Totals) := do
  if cmdOutput.isObject then
    if ← asserted (cmdOutput.hasMember "items") then
      let items ← asserted (← asserted (cmdOutput.member "items")).getArray
      let (nodeInfo, totals) ← items.foldlM collectNode ([], {})
      let clusterMemory ← generateSuffixedString totals.totalMemory
      return ([("clusterNodes", .number items.length), ("clusterCpus", .number totals.totalCpus),
        ("clusterMemory", .string clusterMemory), ("nodes", .array nodeInfo)], totals)
  return ([], {})

end Slate
