import Mathlib.Data.List.Infix
import Slate.Cache

/-! The records the service keeps, as programs hold them. An invalid record is
what a lookup answers when there is nothing to find. -/

namespace Slate

def userIDPrefix : String := "user_"
def clusterIDPrefix : String := "cluster_"
def groupIDPrefix : String := "group_"

/-- `text.find(start)==0` -/
def startsWith (start text : String) : Bool := start.toList.isPrefixOf text.toList

/-- `contains(text, part)` in a filter expression on string attributes. -/
def contains (text part : String) : Bool := decide (part.toList <:+: text.toList)

theorem contains_self (text : String) : contains text text = true :=
  decide_eq_true (List.infix_refl _)

structure User where
  valid : Bool := false
  id : String := ""
  name : String := ""
  email : String := ""
  phone : String := ""
  institution : String := ""
  token : String := ""
  globusID : String := ""
  admin : Bool := false
  deriving DecidableEq, Repr, Inhabited

structure Group where
  valid : Bool := false
  id : String := ""
  name : String := ""
  email : String := ""
  phone : String := ""
  scienceField : String := ""
  description : String := ""
  deriving DecidableEq, Repr, Inhabited

structure S3Credential where
  accessKey : String := ""
  secretKey : String := ""
  inUse : Bool := false
  revoked : Bool := false
  deriving DecidableEq, Repr, Inhabited

structure Cluster where
  valid : Bool := false
  id : String := ""
  name : String := ""
  config : String := ""
  systemNamespace : String := ""
  owningGroup : String := ""
  owningOrganization : String := ""
  monitoringCredential : S3Credential := {}
  deriving DecidableEq, Repr, Inhabited

structure ApplicationInstance where
  valid : Bool := false
  id : String := ""
  name : String := ""
  application : String := ""
  owningGroup : String := ""
  cluster : String := ""
  config : String := ""
  ctime : String := ""
  deriving DecidableEq, Repr, Inhabited

structure Secret where
  valid : Bool := false
  id : String := ""
  name : String := ""
  group : String := ""
  cluster : String := ""
  ctime : String := ""
  data : String := ""
  deriving DecidableEq, Repr, Inhabited

inductive AccessMode where
  | readWriteOnce
  | readOnlyMany
  | readWriteMany
  deriving DecidableEq, Repr, Inhabited

inductive VolumeMode where
  | filesystem
  | block
  deriving DecidableEq, Repr, Inhabited

structure PersistentVolumeClaim where
  valid : Bool := false
  id : String := ""
  name : String := ""
  group : String := ""
  cluster : String := ""
  storageRequest : String := ""
  accessMode : AccessMode := .readWriteOnce
  volumeMode : VolumeMode := .filesystem
  storageClass : String := ""
  selectorMatchLabel : String := ""
  ctime : String := ""
  selectorLabelExpressions : List String := []
  deriving DecidableEq, Repr, Inhabited

-- Groups, clusters, instances, secrets and volume claims compare by ID.
instance : Identified Group String := ⟨Group.id⟩
instance : Identified Cluster String := ⟨Cluster.id⟩
instance : Identified ApplicationInstance String := ⟨ApplicationInstance.id⟩
instance : Identified Secret String := ⟨Secret.id⟩
instance : Identified PersistentVolumeClaim String := ⟨PersistentVolumeClaim.id⟩

@[simp] theorem ident_group (group : Group) : ident group = group.id := rfl
@[simp] theorem ident_cluster (cluster : Cluster) : ident cluster = cluster.id := rfl
@[simp] theorem ident_instance (inst : ApplicationInstance) : ident inst = inst.id := rfl
@[simp] theorem ident_secret (secret : Secret) : ident secret = secret.id := rfl
@[simp] theorem ident_volume (pvc : PersistentVolumeClaim) : ident pvc = pvc.id := rfl

def AccessMode.toString : AccessMode → String
  | .readWriteOnce => "ReadWriteOnce"
  | .readOnlyMany => "ReadOnlyMany"
  | .readWriteMany => "ReadWriteMany"

def accessModeFromString (text : String) : Except String AccessMode :=
  if text = "ReadWriteOnce" ∨ text = "RWO" then .ok .readWriteOnce
  else if text = "ReadOnlyMany" ∨ text = "ROX" then .ok .readOnlyMany
  else if text = "ReadWriteMany" ∨ text = "RWX" then .ok .readWriteMany
  else .error ("Unrecognized volume access mode: " ++ text)

def VolumeMode.toString : VolumeMode → String
  | .filesystem => "Filesystem"
  | .block => "Block"

def volumeModeFromString (text : String) : Except String VolumeMode :=
  if text = "Filesystem" then .ok .filesystem
  else if text = "Block" then .ok .block
  else .error ("Unrecognized volume mode: " ++ text)

theorem accessMode_roundtrip (mode : AccessMode) : accessModeFromString mode.toString = .ok mode := by
  cases mode <;> decide

theorem volumeMode_roundtrip (mode : VolumeMode) : volumeModeFromString mode.toString = .ok mode := by
  cases mode <;> decide

def S3Credential.serialize (cred : S3Credential) : String := cred.accessKey ++ " " ++ cred.secretKey

/-- The text must have a space with at least one character on either side. -/
def S3Credential.deserialize (data : String) : S3Credential :=
  let chars := data.toList
  let pos := chars.findIdx (· == ' ')
  if pos < chars.length ∧ 0 < pos ∧ pos < chars.length - 1 then
    { accessKey := .ofList (chars.take pos), secretKey := .ofList (chars.drop (pos + 1)) }
  else {}

def S3Credential.usable (cred : S3Credential) : Bool := cred.accessKey ≠ "" && cred.secretKey ≠ ""

end Slate
