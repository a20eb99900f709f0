import Slate.Deletions
import Slate.Proofs.Parts

/-! Which changes of a server lie on the course of a program, however it ends. A course is
a preorder on servers; what a program may do to it is a matter of a few changes. -/

namespace Slate
open Library

/-- Time may pass, and requests may be answered. -/
structure Passing (course : Server → Server → Prop) : Prop where
  tick : ∀ server, course server server.tick
  answered : ∀ server, course server server.answered

structure CachingGroups (course : Server → Server → Prop) : Prop extends Passing course where
  replace : ∀ server record, course server { server with groups := server.groups.replace record }

structure LookingGroups (course : Server → Server → Prop) : Prop extends Passing course where
  groups : ∀ server caches, course server { server with groups := caches }

theorem LookingGroups.caching {course : Server → Server → Prop} (looking : LookingGroups course) : CachingGroups course :=
  ⟨looking.toPassing, fun server _ => looking.groups server _⟩

structure Looking (course : Server → Server → Prop) : Prop extends LookingGroups course where
  clusters : ∀ server caches, caches.clusterGroupAccessCache = server.clusters.clusterGroupAccessCache →
    course server { server with clusters := caches }

section Lookups
variable {course : Server → Server → Prop} [IsPreorder Server course]

section
variable (passing : Passing course)
include passing

omit [IsPreorder Server course] in
theorem leads_now : Leads course now := fun server => passing.tick server

omit [IsPreorder Server course] in
theorem leads_request : Leads course request := fun server => passing.answered server

theorem leads_lasting {α : Type} (record : α) (validity : Time) : Leads course (CacheRecord.lasting record validity) :=
  (leads_now passing).bind fun _ => .pure _

theorem leads_current {α : Type} (entry : CacheRecord α) : Leads course entry.current :=
  (leads_now passing).bind fun _ => .pure _

theorem leads_cached {α : Type} (cache : CuckooHashMap String (CacheRecord α)) (key : String) :
    Leads course (cached cache key) := by
  unfold cached
  cases cache.lookup key with
  | none => exact .pure _
  | some entry => exact (leads_current passing entry).bind fun _ => .ite (fun _ => .pure _) fun _ => .pure _

theorem leads_members {α ι : Type} [Identified α ι] [DecidableEq ι] (category : Category α) :
    Leads course (maybeReturnCachedCategoryMembers category) := by
  unfold maybeReturnCachedCategoryMembers
  refine (leads_now passing).bind fun _ => .ite (fun _ => ?_) fun _ => .pure _
  refine Leads.bind (.mapM fun entry _ => ?_) fun _ => .pure _
  exact (leads_current passing entry).bind fun _ => .pure _
end

theorem leads_findOrThrow {α : Type} (stored : Option α) (message : String) :
    Leads course (findOrThrow stored message) := by
  cases stored with
  | none => exact .throw _
  | some value => exact .pure _

theorem leads_clusterOfItem (id : String) (item : ClusterItem) : Leads course (clusterOfItem id item) := by
  unfold clusterOfItem
  refine (leads_findOrThrow _ _).bind fun _ => (leads_findOrThrow _ _).bind fun _ => ?_
  exact (leads_findOrThrow _ _).bind fun _ => (leads_findOrThrow _ _).bind fun _ => .pure _

theorem leads_catchRuntimeError {α : Type} {program : StoreM α} {handler : String → StoreM α}
    (first : Leads course program) (rest : ∀ thrown, Leads course (handler thrown)) :
    Leads course (catchRuntimeError program handler) :=
  first.tryCatch fun thrown => .ite (fun _ => .throw _) fun _ => rest thrown

section
variable (caching : CachingGroups course)
include caching

theorem leads_cacheGroup (group : Group) : Leads course (cacheGroup group) :=
  (leads_lasting caching.toPassing _ _).bind fun _ => .modifies fun server => caching.replace server _

theorem leads_findGroupByID (id : String) : Leads course (findGroupByID id) := by
  unfold findGroupByID
  refine Leads.get.bind fun server => (leads_cached caching.toPassing _ _).bind fun found => ?_
  cases found with
  | some group => exact .pure _
  | none =>
    refine (leads_request caching.toPassing).bind fun _ => .ite (fun _ => Leads.get.bind fun server => ?_) fun _ => .pure _
    split
    next => exact .pure _
    next => exact (leads_cacheGroup caching _).bind fun _ => .pure _

theorem leads_findGroupByName (name : String) : Leads course (findGroupByName name) := by
  unfold findGroupByName
  refine Leads.get.bind fun server => (leads_cached caching.toPassing _ _).bind fun found => ?_
  cases found with
  | some group => exact .pure _
  | none =>
    refine (leads_request caching.toPassing).bind fun _ => .ite (fun _ => Leads.get.bind fun server => ?_) fun _ => .pure _
    split
    next => exact .pure _
    next => exact (leads_cacheGroup caching _).bind fun _ => .pure _
    next => exact .throw _

theorem leads_getGroup (idOrName : String) : Leads course (getGroup idOrName) :=
  .ite (fun _ => leads_findGroupByID caching _) fun _ => leads_findGroupByName caching _

theorem leads_normalizeGroupID (groupID : String) (allowWildcard : Bool) :
    Leads course (normalizeGroupID groupID allowWildcard) := by
  have named : Leads course (do
      if !startsWith groupIDPrefix groupID then
        let group ← findGroupByName groupID
        if !group.valid then
          return none
        return some group.id
      return some groupID) :=
    .ite (fun _ => (leads_findGroupByName caching _).bind fun _ => .ite (fun _ => .pure _) fun _ => .pure _) fun _ => .pure _
  unfold normalizeGroupID
  exact .ite (fun _ => .ite (fun _ => .pure _) fun _ => .ite (fun _ => .pure _) fun _ => named) fun _ => named

end

theorem leads_listGroups (looking : LookingGroups course) : Leads course listGroups := by
  unfold listGroups
  refine (leads_now looking.toPassing).bind fun _ => Leads.get.bind fun server => .ite (fun _ => ?_) fun _ => ?_
  · exact Leads.get.bind fun _ => .pure _
  · refine (leads_request looking.toPassing).bind fun _ => .ite (fun _ => Leads.get.bind fun server => ?_) fun _ => .pure _
    refine Leads.bind (.mapM fun entry _ => (leads_cacheGroup looking.caching _).bind fun _ => .pure _) fun _ => ?_
    refine (leads_now looking.toPassing).bind fun _ => Leads.bind ?_ fun _ => .pure _
    exact .modifies fun server => looking.groups server _

section
variable (looking : Looking course)
include looking

private theorem leads_cacheCluster (cluster : Cluster) : Leads course (cacheCluster cluster) := by
  refine (leads_lasting looking.toPassing _ _).bind fun _ => (leads_now looking.toPassing).bind fun _ => ?_
  exact Leads.bind (.modifies fun server => looking.clusters server _ rfl) fun _ =>
    .modifies fun server => looking.clusters server _ rfl

theorem leads_findCluster (key : ClusterKey) : Leads course (findCluster key) := by
  unfold findCluster clusterQuery
  refine Leads.bind (by cases key <;> exact Leads.get.bind fun _ => leads_cached looking.toPassing _ _) fun found => ?_
  cases found with
  | some cluster => exact .pure _
  | none =>
    refine Leads.bind ?_ fun found => ?_
    · refine (leads_request looking.toPassing).bind fun _ => .ite (fun _ => ?_) fun _ => .pure _
      cases key with
      | id cID =>
        refine Leads.get.bind fun server => ?_
        split
        next => exact .pure _
        next => exact (leads_clusterOfItem _ _).bind fun _ => .pure _
      | name name =>
        refine Leads.get.bind fun server => ?_
        split
        next => exact .pure _
        next => exact (leads_clusterOfItem _ _).bind fun _ => .pure _
        next => exact .throw _
    · cases found with
      | none => exact .pure _
      | some cluster => exact (leads_cacheCluster looking _).bind fun _ => .pure _

theorem leads_findClusterByID (cID : String) : Leads course (findClusterByID cID) :=
  findClusterByID_pieces cID ▸ leads_findCluster looking _

private theorem leads_findClusterByName (name : String) : Leads course (findClusterByName name) :=
  findClusterByName_pieces name ▸ leads_findCluster looking _

theorem leads_getCluster (idOrName : String) : Leads course (getCluster idOrName) :=
  getCluster_pieces idOrName ▸ leads_findCluster looking _

theorem leads_configPathForCluster (cID : String) : Leads course (configPathForCluster cID) := by
  unfold configPathForCluster
  refine (leads_findClusterByID looking cID).bind fun cluster => .ite (fun _ => ?_) fun _ => ?_
  · exact .throw _
  · refine Leads.get.bind fun server => ?_
    split
    next => exact .pure _
    next => exact .throw _

theorem leads_listClusters : Leads course listClusters := by
  unfold listClusters
  refine (leads_now looking.toPassing).bind fun _ => Leads.get.bind fun server => .ite (fun _ => ?_) fun _ => ?_
  · exact Leads.get.bind fun _ => .pure _
  · refine (leads_request looking.toPassing).bind fun _ => .ite (fun _ => Leads.get.bind fun server => ?_) fun _ => .pure _
    refine Leads.bind (.mapM fun entry _ => ?_) fun _ => ?_
    · exact (leads_clusterOfItem _ _).bind fun _ => (leads_cacheCluster looking _).bind fun _ => .pure _
    · refine (leads_now looking.toPassing).bind fun _ => Leads.bind ?_ fun _ => .pure _
      exact .modifies fun server => looking.clusters server _ rfl

theorem leads_normalizeClusterID (cID : String) : Leads course (normalizeClusterID cID) := by
  unfold normalizeClusterID
  refine .ite (fun _ => ?_) fun _ => .pure _
  exact (leads_findClusterByName looking _).bind fun _ => .ite (fun _ => .pure _) fun _ => .pure _

theorem leads_normalizeArguments (group cluster : String) : Leads course (normalizeArguments group cluster) := by
  have first : Leads course (normalizeGiven (normalizeGroupID · false) group) :=
    .ite (fun _ => .pure _) fun _ => leads_normalizeGroupID looking.caching _ _
  have second : Leads course (normalizeGiven normalizeClusterID cluster) :=
    .ite (fun _ => .pure _) fun _ => leads_normalizeClusterID looking _
  unfold normalizeArguments
  refine first.bind fun group => ?_
  cases group with
  | none => exact .pure _
  | some group =>
    refine second.bind fun cluster => ?_
    cases cluster with
    | none => exact .pure _
    | some cluster => exact .pure _
end

section
variable (passing : Passing course)
include passing

/-- Decisions about membership and access lead wherever what they learn may be cached. -/
theorem leads_decideMembership {groupID : String} (learned : ∀ uID, Leads course (cacheMembership uID groupID)) (uID : String) :
    Leads course (decideMembership uID groupID) := by
  have looked : Leads course (membershipLookup uID groupID) := by
    refine Leads.get.bind fun server => ?_
    split
    next => exact .pure _
    next =>
      refine (leads_current passing _).bind fun _ => .ite (fun _ => ?_) fun _ => .pure _
      exact (leads_current passing _).bind fun _ => .pure _
  have queried : Leads course (membershipQuery uID groupID) :=
    (leads_request passing).bind fun _ => .ite (fun _ => Leads.get.bind fun _ => .pure _) fun _ => .pure _
  refine looked.bind fun answer => ?_
  cases answer with
  | some answer => exact .pure _
  | none => exact queried.bind fun _ => .ite (fun _ => (learned _).bind fun _ => .pure _) fun _ => .pure _

theorem leads_accessCached (cID value : String) : Leads course (accessCached cID value) := by
  refine Leads.get.bind fun server => ?_
  split
  next => exact .pure _
  next => exact (leads_current passing _).bind fun _ => .ite (fun _ => .pure _) fun _ => .pure _

section
variable {cID : String} (learned : ∀ value, Leads course (cacheAccess cID value))
include learned

private theorem leads_queryAccess (groupID : String) : Leads course (queryAccess groupID cID) := by
  have queried : Leads course (accessQuery groupID cID) :=
    (leads_request passing).bind fun _ => .ite (fun _ => Leads.get.bind fun _ => .pure _) fun _ => .pure _
  refine queried.bind fun found => ?_
  cases found with
  | none => exact .pure _
  | some found => exact (learned _).bind fun _ => .pure _

theorem leads_clusterAllowsAllGroups : Leads course (clusterAllowsAllGroups cID) := by
  refine (leads_accessCached passing _ _).bind fun record => ?_
  cases record with
  | some record => exact (leads_current passing _).bind fun _ => .pure _
  | none =>
    refine (leads_accessCached passing _ _).bind fun record => ?_
    cases record with
    | some => exact .pure _
    | none => exact leads_queryAccess passing learned _

private theorem leads_decideAccess (groupID : String) : Leads course (decideAccess groupID cID) := by
  refine (leads_clusterAllowsAllGroups passing learned).bind fun _ => .ite (fun _ => .pure _) fun _ => ?_
  refine (leads_accessCached passing _ _).bind fun record => ?_
  cases record with
  | some record => exact .pure _
  | none =>
    refine (leads_accessCached passing _ _).bind fun record => ?_
    cases record with
    | some => exact .pure _
    | none => exact leads_queryAccess passing learned _

end
end

theorem leads_userInGroup (caching : CachingGroups course) (learned : ∀ uID groupID, Leads course (cacheMembership uID groupID))
    (uID groupID : String) : Leads course (userInGroup uID groupID) := by
  refine (leads_normalizeGroupID caching _ _).bind fun normalized => ?_
  cases normalized with
  | none => exact .pure _
  | some group => exact leads_decideMembership caching.toPassing (learned · group) _

theorem leads_groupAllowedOnCluster (looking : Looking course) (learned : ∀ cID value, Leads course (cacheAccess cID value))
    (groupID cID : String) : Leads course (groupAllowedOnCluster groupID cID) := by
  refine (leads_normalizeGroupID looking.caching _ _).bind fun normalized => ?_
  cases normalized with
  | none => exact .pure _
  | some group =>
    refine (leads_normalizeClusterID looking _).bind fun normalized => ?_
    cases normalized with
    | none => exact .pure _
    | some cluster => exact leads_decideAccess looking.toPassing (learned cluster) _

theorem leads_runCommand (outside : Outside) (command : String) (args : List String) (environment : List (String × String)) :
    Leads course (runCommand outside command args environment) := by
  unfold runCommand
  split
  next => exact .pure _
  next => exact .throw _

theorem leads_kubectl (outside : Outside) (configPath : String) (arguments : List String) :
    Leads course (kubectl outside configPath arguments) := (leads_runCommand _ _ _ _).bind fun _ => .pure _

theorem leads_getHelmMajorVersion (outside : Outside) : Leads course (getHelmMajorVersion outside) := by
  refine (leads_runCommand _ _ _ _).bind fun result => ?_
  cases statedVersion result.output with
  | ok version => exact .pure _
  | error thrown => exact .throw _

private theorem leads_helm (outside : Outside) (configPath tillerNamespace : String) (arguments : List String) :
    Leads course (helm outside configPath tillerNamespace arguments) :=
  (leads_getHelmMajorVersion _).bind fun _ => leads_runCommand _ _ _ _

section
variable (looking : Looking course) (outside : Outside)
include looking

theorem leads_uninstall (inst : ApplicationInstance) (force : Bool) : Leads course (uninstall outside inst force) := by
  refine (leads_getGroup looking.caching _).bind fun group => ?_
  refine (leads_configPathForCluster looking _).bind fun _ => (leads_getCluster looking _).bind fun cluster => ?_
  refine (leads_getHelmMajorVersion _).bind fun version => (leads_helm _ _ _ _).bind fun result => ?_
  exact .ite (fun _ => .pure _) fun _ => .pure _

theorem leads_withdrawSecret (secret : Secret) (group : Group) (force : Bool) :
    Leads course (withdrawSecret outside secret group force) :=
  (leads_configPathForCluster looking _).bind fun _ => (leads_kubectl _ _ _).bind fun _ => .pure _

theorem leads_withdrawVolume (parse : String → Json) (volume : PersistentVolumeClaim) (group : Group) (force : Bool) :
    Leads course (withdrawVolume outside parse volume group force) := by
  refine (leads_configPathForCluster looking _).bind fun _ => (leads_kubectl _ _ _).bind fun pods => ?_
  split
  next => exact .pure _
  next => exact (leads_kubectl _ _ _).bind fun _ => .pure _
  next => exact .pure _

theorem leads_pingCluster (cluster : Cluster) : Leads course (pingCluster outside cluster) :=
  (leads_configPathForCluster looking _).bind fun _ => (leads_kubectl _ _ _).bind fun _ => .pure _
end

end Lookups

inductive TouchedKind where
  | application
  | secret
  | volume
  deriving DecidableEq

def Database.others (database : Database) : Database :=
  { database with instances := ∅, instanceConfigs := ∅, secrets := ∅, volumes := ∅ }

/-- A table that a restriction keeps is the same where the restrictions are. -/
theorem Database.table_of_same {α : Type} {restrict : Database → Database} {first second : Database}
    (same : restrict first = restrict second) (table : Database → α)
    (kept : ∀ database, table (restrict database) = table database) : table first = table second := by
  rw [← kept, same, kept]

/-- Only records of this kind are touched, and what is cached about groups and clusters. -/
structure Touching (touched : Option TouchedKind) (before after : Server) : Prop extends Later before after where
  applications : touched ≠ some .application → after.database.instances = before.database.instances ∧
    after.database.instanceConfigs = before.database.instanceConfigs ∧ after.instances = before.instances
  secrets : touched ≠ some .secret → after.database.secrets = before.database.secrets ∧ after.secrets = before.secrets
  volumes : touched ≠ some .volume → after.database.volumes = before.database.volumes ∧ after.volumes = before.volumes
  others : after.database.others = before.database.others
  access : after.clusters.clusterGroupAccessCache = before.clusters.clusterGroupAccessCache

variable {touched : Option TouchedKind}

theorem Touching.of_same {before after : Server} (later : Later before after) (database : after.database = before.database)
    (instances : after.instances = before.instances) (secrets : after.secrets = before.secrets)
    (volumes : after.volumes = before.volumes)
    (access : after.clusters.clusterGroupAccessCache = before.clusters.clusterGroupAccessCache) :
    Touching touched before after where
  toLater := later
  applications := fun _ => ⟨congrArg Database.instances database, congrArg Database.instanceConfigs database, instances⟩
  secrets := fun _ => ⟨congrArg Database.secrets database, secrets⟩
  volumes := fun _ => ⟨congrArg Database.volumes database, volumes⟩
  others := congrArg Database.others database
  access := access

theorem Touching.trans {first second third : Server} (early : Touching touched first second)
    (late : Touching touched second third) : Touching touched first third where
  toLater := early.toLater.trans late.toLater
  applications := fun other => by
    obtain ⟨table, configs, caches⟩ := late.applications other
    rw [table, configs, caches]
    exact early.applications other
  secrets := fun other => by
    obtain ⟨table, caches⟩ := late.secrets other
    rw [table, caches]
    exact early.secrets other
  volumes := fun other => by
    obtain ⟨table, caches⟩ := late.volumes other
    rw [table, caches]
    exact early.volumes other
  others := late.others.trans early.others
  access := late.access.trans early.access

/-- Where nothing is touched, nothing of a kind is. -/
theorem Touching.widen {before after : Server} (same : Touching none before after) : Touching touched before after where
  toLater := same.toLater
  applications := fun _ => same.applications nofun
  secrets := fun _ => same.secrets nofun
  volumes := fun _ => same.volumes nofun
  others := same.others
  access := same.access

instance : IsPreorder Server (Touching touched) where
  refl server := .of_same (.refl server) rfl rfl rfl rfl rfl
  trans _ _ _ := Touching.trans

theorem looking_touching : Looking (Touching touched) where
  tick := fun server => .of_same (.tick server) rfl rfl rfl rfl rfl
  answered := fun server => .of_same (.answered server) rfl rfl rfl rfl rfl
  groups := fun _ _ => .of_same (.of_eq rfl rfl) rfl rfl rfl rfl rfl
  clusters := fun _ _ same => .of_same (.of_eq rfl rfl) rfl rfl rfl rfl same

def KeepsTables (before after : Server) : Prop := after.database = before.database

instance : IsPreorder Server KeepsTables where
  refl _ := rfl
  trans _ _ _ first second := second.trans first

theorem looking_keepsTables : Looking KeepsTables where
  tick _ := rfl
  answered _ := rfl
  groups _ _ := rfl
  clusters _ _ _ := rfl

/-- The servers a program passes through have the same part. -/
def Past {γ : Type} (part : ServerPart γ) (before after : Server) : Prop :=
  Later before after ∧ part.read after = part.read before

instance {γ : Type} (part : ServerPart γ) : IsPreorder Server (Past part) where
  refl server := ⟨.refl server, rfl⟩
  trans _ _ _ early late := ⟨early.1.trans late.1, late.2.trans early.2⟩

theorem passing_past {γ : Type} (part : ServerPart γ) : Passing (Past part) where
  tick := fun server => ⟨.tick server, part.tick server⟩
  answered := fun server => ⟨.answered server, part.answered server⟩

end Slate
