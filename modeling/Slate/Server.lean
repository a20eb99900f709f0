import Slate.Entities
import Slate.Library.Programs
import Mathlib.Data.Finset.Basic

/-! One server process: the tables of the database it uses, its caches and its
clock. The clock readings and the outcomes of the database requests that are
still to come are part of the state, so that every timing and every failure of
a request is a choice of the initial state. -/

namespace Slate
open Library

-- Rows of the tables. An attribute that a row may lack is optional. Records which
-- share a table under different kinds of sort key are kept apart.
structure UserItem where
  name : String
  globusID : String
  token : String
  email : String
  phone : Option String
  institution : Option String
  admin : Bool
  deriving DecidableEq, Repr

structure GroupItem where
  name : String
  email : Option String
  phone : Option String
  scienceField : Option String
  description : Option String
  deriving DecidableEq, Repr

/-- An update creates the row it is applied to, with only the attributes it
sets, so any attribute may be missing. -/
structure ClusterItem where
  name : Option String
  config : Option String
  systemNamespace : Option String
  owningGroup : Option String
  owningOrganization : Option String
  monCredential : Option String
  deriving DecidableEq, Repr

structure InstanceItem where
  name : String
  application : String
  owningGroup : String
  cluster : String
  ctime : String
  deriving DecidableEq, Repr

structure SecretItem where
  name : String
  owningGroup : String
  cluster : String
  ctime : String
  contents : String
  deriving DecidableEq, Repr

structure VolumeItem where
  name : String
  owningGroup : String
  cluster : String
  storageRequest : String
  accessMode : String
  volumeMode : String
  storageClass : String
  ctime : String
  deriving DecidableEq, Repr

structure CredentialItem where
  secretKey : String
  inUse : Bool
  revoked : Bool
  deriving DecidableEq, Repr

structure Database where
  users : FiniteMap String UserItem := ∅
  /-- Pairs of a user ID and the ID of a group the user is a member of. -/
  memberships : FiniteMap (String × String) Unit := ∅
  groups : FiniteMap String GroupItem := ∅
  clusters : FiniteMap String ClusterItem := ∅
  /-- Pairs of a cluster ID and a group ID, or the wildcard, with access to it. -/
  access : FiniteMap (String × String) Unit := ∅
  /-- The applications a group may use on a cluster, by the cluster ID and a sort key. -/
  applications : FiniteMap (String × String) (Finset String) := ∅
  /-- Where a cluster's hardware is, as the texts that are stored. -/
  locations : FiniteMap String (Finset String) := ∅
  instances : FiniteMap String InstanceItem := ∅
  instanceConfigs : FiniteMap String String := ∅
  secrets : FiniteMap String SecretItem := ∅
  volumes : FiniteMap String VolumeItem := ∅
  credentials : FiniteMap String CredentialItem := ∅

structure UserCaches where
  expirationTime : Time := 0
  userCache : CuckooHashMap String (CacheRecord User) := ∅
  userByTokenCache : CuckooHashMap String (CacheRecord User) := ∅
  userByGlobusIDCache : CuckooHashMap String (CacheRecord User) := ∅
  userByGroupCache : ConcurrentMultimap String String := ∅

structure GroupCaches where
  expirationTime : Time := 0
  groupCache : CuckooHashMap String (CacheRecord Group) := ∅
  groupByNameCache : CuckooHashMap String (CacheRecord Group) := ∅
  groupByUserCache : ConcurrentMultimap String Group := ∅

structure ClusterCaches where
  expirationTime : Time := 0
  clusterCache : CuckooHashMap String (CacheRecord Cluster) := ∅
  clusterByNameCache : CuckooHashMap String (CacheRecord Cluster) := ∅
  clusterByGroupCache : ConcurrentMultimap String Cluster := ∅
  /-- What the configuration file written for each cluster contains. -/
  clusterConfigs : CuckooHashMap String String := ∅
  clusterGroupAccessCache : ConcurrentMultimap String String := ∅
  clusterGroupApplicationCache : CuckooHashMap String (CacheRecord (Finset String)) := ∅

structure InstanceCaches where
  expirationTime : Time := 0
  instanceCache : CuckooHashMap String (CacheRecord ApplicationInstance) := ∅
  instanceConfigCache : CuckooHashMap String (CacheRecord String) := ∅
  instanceByGroupCache : ConcurrentMultimap String ApplicationInstance := ∅
  instanceByNameCache : ConcurrentMultimap String ApplicationInstance := ∅
  instanceByClusterCache : ConcurrentMultimap String ApplicationInstance := ∅
  instanceByGroupAndClusterCache : ConcurrentMultimap String ApplicationInstance := ∅

structure SecretCaches where
  secretCache : CuckooHashMap String (CacheRecord Secret) := ∅
  secretByGroupCache : ConcurrentMultimap String Secret := ∅
  secretByGroupAndClusterCache : ConcurrentMultimap String Secret := ∅

structure VolumeCaches where
  expirationTime : Time := 0
  volumeCache : CuckooHashMap String (CacheRecord PersistentVolumeClaim) := ∅
  volumeByGroupCache : ConcurrentMultimap String PersistentVolumeClaim := ∅
  volumeByClusterCache : ConcurrentMultimap String PersistentVolumeClaim := ∅
  volumeByGroupAndClusterCache : ConcurrentMultimap String PersistentVolumeClaim := ∅

structure Server where
  database : Database := {}
  users : UserCaches := {}
  groups : GroupCaches := {}
  clusters : ClusterCaches := {}
  instances : InstanceCaches := {}
  secrets : SecretCaches := {}
  volumes : VolumeCaches := {}
  clock : Nat → Time := fun _ => 0
  outcomes : Nat → Bool := fun _ => true

/-- A method of the store. What it throws is the message of the exception. -/
abbrev StoreM := EStateM String Server

def minutes (count : Nat) : Time := count * 60 * 1000000000

def userCacheValidity : Time := minutes 5
def groupCacheValidity : Time := minutes 30
def clusterCacheValidity : Time := minutes 30
def instanceCacheValidity : Time := minutes 5
def secretCacheValidity : Time := minutes 5
def volumeCacheValidity : Time := minutes 5

/-- The value used in place of a missing attribute of little importance. -/
def missingString : String := " "

def wildcard : String := "*"
def wildcardName : String := "<all>"

def Server.tick (server : Server) : Server := { server with clock := fun n => server.clock (n + 1) }

def Server.answered (server : Server) : Server := { server with outcomes := fun n => server.outcomes (n + 1) }

/-- `steady_clock::now()` -/
def now : StoreM Time := modifyGet fun server => (server.clock 0, server.tick)

def elapse (duration : Time) : StoreM Unit :=
  modify fun server => { server with clock := fun n => server.clock n + duration }

/-- Sends a database request, whose effect is a separate step; tells whether it
succeeds. -/
def request : StoreM Bool := modifyGet fun server => (server.outcomes 0, server.answered)

def CacheRecord.lasting {α : Type} (record : α) (validity : Time) : StoreM (CacheRecord α) := do
  let reading ← now
  return ⟨record, reading + validity⟩

/-- The conversion of a cache record to a truth value. -/
def CacheRecord.current {α : Type} (entry : CacheRecord α) : StoreM Bool := do
  let reading ← now
  return decide (reading ≤ entry.expirationTime)

/-- The record cached under the key, if there is one and it is still valid. -/
def cached {α : Type} (cache : CuckooHashMap String (CacheRecord α)) (key : String) : StoreM (Option α) := do
  match cache.lookup key with
  | none => return none
  | some entry => if ← entry.current then return some entry.record else return none

/-- The records of a category that are not stale, provided that the category as
a whole is up to date. -/
def maybeReturnCachedCategoryMembers {α ι : Type} [Identified α ι] [DecidableEq ι] (category : Category α) :
    StoreM (Option (List α)) := do
  let reading ← now
  if reading < category.expiration then
    let records ← category.members.mapM fun entry => do
      let fresh ← entry.current
      return if fresh then some entry.record else none
    return some records.reduceOption
  else return none

@[simp] theorem returns_now (server : Server) (post : Time → Server → Prop) :
    Returns now server post ↔ post (server.clock 0) server.tick := Iff.rfl

@[simp] theorem returns_request (server : Server) (post : Bool → Server → Prop) :
    Returns request server post ↔ post (server.outcomes 0) server.answered := Iff.rfl

theorem ends_request (server : Server) (post : Bool → Server → Prop) (thrown : String → Server → Prop) :
    Ends request server post thrown ↔ post (server.outcomes 0) server.answered := Iff.rfl

@[simp] theorem returns_lasting {α : Type} (record : α) (validity : Time) (server : Server)
    (post : CacheRecord α → Server → Prop) :
    Returns (CacheRecord.lasting record validity) server post ↔ post ⟨record, server.clock 0 + validity⟩ server.tick :=
  Iff.rfl

@[simp] theorem returns_current {α : Type} (entry : CacheRecord α) (server : Server) (post : Bool → Server → Prop) :
    Returns entry.current server post ↔ post (decide (server.clock 0 ≤ entry.expirationTime)) server.tick := Iff.rfl

@[simp] theorem yields_request (server : Server) (post : Bool → Server → Prop) :
    Yields request server post ↔ post (server.outcomes 0) server.answered := Iff.rfl

@[simp] theorem yields_now (server : Server) (post : Time → Server → Prop) :
    Yields now server post ↔ post (server.clock 0) server.tick := Iff.rfl

@[simp] theorem yields_lasting {α : Type} (record : α) (validity : Time) (server : Server)
    (post : CacheRecord α → Server → Prop) :
    Yields (CacheRecord.lasting record validity) server post ↔ post ⟨record, server.clock 0 + validity⟩ server.tick :=
  Iff.rfl

section
variable (server : Server)

@[simp] theorem tick_clock (n : Nat) : server.tick.clock n = server.clock (n + 1) := rfl
@[simp] theorem tick_database : server.tick.database = server.database := rfl
@[simp] theorem tick_users : server.tick.users = server.users := rfl
@[simp] theorem tick_groups : server.tick.groups = server.groups := rfl
@[simp] theorem tick_clusters : server.tick.clusters = server.clusters := rfl
@[simp] theorem tick_instances : server.tick.instances = server.instances := rfl
@[simp] theorem tick_secrets : server.tick.secrets = server.secrets := rfl
@[simp] theorem tick_volumes : server.tick.volumes = server.volumes := rfl
@[simp] theorem tick_outcomes : server.tick.outcomes = server.outcomes := rfl

@[simp] theorem answered_clock : server.answered.clock = server.clock := rfl
@[simp] theorem answered_outcomes (n : Nat) : server.answered.outcomes n = server.outcomes (n + 1) := rfl
@[simp] theorem answered_database : server.answered.database = server.database := rfl
@[simp] theorem answered_users : server.answered.users = server.users := rfl
@[simp] theorem answered_groups : server.answered.groups = server.groups := rfl
@[simp] theorem answered_clusters : server.answered.clusters = server.clusters := rfl
@[simp] theorem answered_instances : server.answered.instances = server.instances := rfl
@[simp] theorem answered_secrets : server.answered.secrets = server.secrets := rfl
@[simp] theorem answered_volumes : server.answered.volumes = server.volumes := rfl
end

end Slate
