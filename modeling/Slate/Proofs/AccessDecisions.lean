import Slate.Access
import Slate.Proofs.Lookups

/-! Decisions on the access of groups to clusters agree with the table through
every sequence of operations, as long as no two strings used for a cluster
differ by a trailing dash only. -/

namespace Slate
open Library

def Granted (database : Database) (cID groupID : String) : Prop :=
  (database.access.lookup (cID, groupID)).isSome = true

def KnownAccess (caches : ClusterCaches) (cID value : String) : Prop :=
  (caches.clusterGroupAccessCache.entryOf cID value).isSome = true

/-- The strings used for each cluster include the wildcard, and none is the
negative marker of another. -/
structure Apart (used : String → String → Prop) : Prop where
  wildcard : ∀ cID, used cID wildcard
  markers : ∀ cID groupID, used cID groupID → ¬ used cID (negativeMarker groupID)

private theorem negativeMarker_inj {first second : String} (same : negativeMarker first = negativeMarker second) :
    first = second := (String.append_left_inj "-").mp same

/-- Every cached entry, whether or not it has expired, tells the truth: it is a
used string with access, or the marker of a used string without. -/
def AccessAgree (used : String → String → Prop) (server : Server) : Prop :=
  ∀ cID value, KnownAccess server.clusters cID value →
    (used cID value ∧ Granted server.database cID value) ∨
      ∃ groupID, value = negativeMarker groupID ∧ used cID groupID ∧ ¬ Granted server.database cID groupID

section Entries
variable {used : String → String → Prop} {server : Server} (apart : Apart used) (agree : AccessAgree used server)
  {cID groupID : String} (isUsed : used cID groupID)
include apart agree isUsed

theorem AccessAgree.positive (known : KnownAccess server.clusters cID groupID) : Granted server.database cID groupID := by
  obtain ⟨-, granted⟩ | ⟨other, rfl, usedOther, -⟩ := agree cID groupID known
  · exact granted
  · exact absurd isUsed (apart.markers cID other usedOther)

theorem AccessAgree.negative (known : KnownAccess server.clusters cID (negativeMarker groupID)) :
    ¬ Granted server.database cID groupID := by
  obtain ⟨usedMarker, -⟩ | ⟨other, same, -, refused⟩ := agree cID _ known
  · exact absurd usedMarker (apart.markers cID groupID isUsed)
  · rw [negativeMarker_inj same]
    exact refused

end Entries

private theorem knownAccess_insertOrAssign {before after : ClusterCaches} {cID value : String} {expirationTime reading : Time}
    (cache : after.clusterGroupAccessCache =
      (before.clusterGroupAccessCache.insertOrAssign cID ⟨value, expirationTime⟩ reading).2) (cID' value' : String) :
    KnownAccess after cID' value' ↔ (cID' = cID ∧ value' = value) ∨ KnownAccess before cID' value' := by
  unfold KnownAccess
  rw [cache, ConcurrentMultimap.entryOf_insertOrAssign]
  split
  next same => simp [same.1, same.2]
  next different =>
    have apart : ¬ (cID' = cID ∧ value' = value) := different
    simp [apart]

private theorem knownAccess_eraseValue {before after : ClusterCaches} {cID value : String}
    (cache : after.clusterGroupAccessCache = (before.clusterGroupAccessCache.eraseValue cID value).2)
    (cID' value' : String) :
    KnownAccess after cID' value' ↔ ¬ (cID' = cID ∧ value' = value) ∧ KnownAccess before cID' value' := by
  unfold KnownAccess
  rw [cache, ConcurrentMultimap.entryOf_eraseValue]
  split
  next same => simp [same.1, same.2]
  next different =>
    have apart : ¬ (cID' = cID ∧ value' = value) := different
    simp [apart]

def Still (server : Server) : Prop := ∀ n, server.clock n = server.clock 0

theorem Later.still {before after : Server} (later : Later before after) (still : Still before) : Still after := by
  obtain ⟨n, clock⟩ := later.clock
  intro k
  rw [clock, clock, still (n + k), still (n + 0)]

/-- The rows of groups and clusters fit together: names are unique, group IDs
begin like IDs, and rows of clusters are complete. -/
structure WellNamed (groups : FiniteMap String GroupItem) (clusters : FiniteMap String ClusterItem) : Prop where
  groupNames : ∀ name, GroupNameUnique groups name
  groupIDs : ∀ id item, groups.lookup id = some item → startsWith groupIDPrefix id = true
  clusterNames : ∀ name, ClusterNameUnique clusters name

structure AccessConsistent (used : String → String → Prop) (server : Server) : Prop where
  succeeding : Succeeding server
  still : Still server
  names : WellNamed server.database.groups server.database.clusters
  groups : GroupsAgree server.database.groups server.groups
  clusters : ClustersAgree server.database.clusters server.clusters
  access : AccessAgree used server

theorem AccessAgree.of_eq {used : String → String → Prop} {before after : Server} (agree : AccessAgree used before)
    (database : after.database.access = before.database.access)
    (cache : after.clusters.clusterGroupAccessCache = before.clusters.clusterGroupAccessCache) :
    AccessAgree used after := by
  intro cID value known
  rw [KnownAccess, cache] at known
  unfold Granted
  rw [database]
  exact agree cID value known

theorem AccessConsistent.looked {used : String → String → Prop} {before after : Server}
    (consistent : AccessConsistent used before) (looked : Looked before after) : AccessConsistent used after where
  succeeding := looked.succeeding consistent.succeeding
  still := looked.still consistent.still
  names := looked.database ▸ consistent.names
  groups := looked.database ▸ looked.groups consistent.groups
  clusters := looked.database ▸ looked.clusters consistent.clusters
  access := consistent.access.of_eq (by rw [looked.database]) looked.access

/-- What remains to be shown after a change of the access table and cache. -/
theorem AccessConsistent.changed {used : String → String → Prop} {before after : Server}
    (consistent : AccessConsistent used before) (later : Later before after)
    (groupTable : after.database.groups = before.database.groups)
    (clusterTable : after.database.clusters = before.database.clusters) (groups : after.groups = before.groups)
    (byID : after.clusters.clusterCache = before.clusters.clusterCache)
    (byName : after.clusters.clusterByNameCache = before.clusters.clusterByNameCache)
    (access : AccessAgree used after) : AccessConsistent used after where
  succeeding := later.succeeding consistent.succeeding
  still := later.still consistent.still
  names := by
    rw [groupTable, clusterTable]
    exact consistent.names
  groups := by
    rw [groupTable, groups]
    exact consistent.groups
  clusters := by
    obtain ⟨first, second⟩ := consistent.clusters
    rw [clusterTable]
    exact ⟨byID ▸ first, byName ▸ second⟩
  access := access

variable {used : String → String → Prop}

/-- An entry that tells the truth may be cached. -/
theorem returns_cacheAccess {server : Server} (consistent : AccessConsistent used server) {cID value : String}
    (truth : (used cID value ∧ Granted server.database cID value) ∨
      ∃ groupID, value = negativeMarker groupID ∧ used cID groupID ∧ ¬ Granted server.database cID groupID) :
    Returns (cacheAccess cID value) server fun _ after => AccessConsistent used after ∧
      after.database = server.database := by
  unfold cacheAccess
  simp only [returns_bind, returns_lasting, returns_now, returns_modify]
  refine ⟨consistent.changed ((Later.tick server).trans ((Later.tick _).trans (.of_eq rfl rfl)))
    rfl rfl rfl rfl rfl ?_, rfl⟩
  intro cID' value' known
  obtain ⟨rfl, rfl⟩ | before := (knownAccess_insertOrAssign rfl _ _).mp known
  · exact truth
  · exact consistent.access cID' value' before

theorem granted_insert {before after : Database} {cID groupID : String}
    (table : after.access = AList.insert (cID, groupID) () before.access) (cID' groupID' : String) :
    Granted after cID' groupID' ↔ (cID' = cID ∧ groupID' = groupID) ∨ Granted before cID' groupID' := by
  rw [Granted, table, FiniteMap.lookup_insert]
  split
  next same => simp [Prod.mk.injEq] at same; simp [same]
  next different =>
    have apart : ¬ (cID' = cID ∧ groupID' = groupID) := fun same => different (by rw [same.1, same.2])
    simp [apart, Granted]

theorem granted_erase {before after : Database} {cID groupID : String}
    (table : after.access = AList.erase (cID, groupID) before.access) (cID' groupID' : String) :
    Granted after cID' groupID' ↔ ¬ (cID' = cID ∧ groupID' = groupID) ∧ Granted before cID' groupID' := by
  rw [Granted, table, FiniteMap.lookup_erase]
  split
  next same => simp [Prod.mk.injEq] at same; simp [same]
  next different =>
    have apart : ¬ (cID' = cID ∧ groupID' = groupID) := fun same => different (by rw [same.1, same.2])
    simp [apart, Granted]

private theorem returns_grantAccess {server : Server} (consistent : AccessConsistent used server) {groupID cID : String}
    (isUsed : used cID groupID) :
    Returns (grantAccess groupID cID) server fun granted after => granted = true ∧ AccessConsistent used after := by
  unfold grantAccess forgetAccess putAccess
  simp only [returns_bind, returns_modify, returns_request, consistent.succeeding 0, returns_ite, if_true, returns_pure]
  refine Returns.mono (returns_cacheAccess ?_ ?_) fun _ _ kept => ⟨trivial, kept.1⟩
  · refine consistent.changed ((Later.answered server).trans (.of_eq rfl rfl)) rfl rfl rfl rfl rfl ?_
    intro cID' value known
    obtain ⟨different, before⟩ := (knownAccess_eraseValue rfl _ _).mp known
    obtain ⟨usedValue, granted⟩ | ⟨other, rfl, usedOther, refused⟩ := consistent.access cID' value before
    · exact .inl ⟨usedValue, (granted_insert rfl _ _).mpr (.inr granted)⟩
    · refine .inr ⟨other, rfl, usedOther, fun granted => ?_⟩
      obtain ⟨rfl, rfl⟩ | granted := (granted_insert rfl _ _).mp granted
      · exact different ⟨rfl, rfl⟩
      · exact refused granted
  · exact .inl ⟨isUsed, (granted_insert rfl _ _).mpr (.inl ⟨rfl, rfl⟩)⟩

private theorem returns_revokeAccess {server : Server} (consistent : AccessConsistent used server) {groupID cID : String}
    (isUsed : used cID groupID) :
    Returns (revokeAccess groupID cID) server fun removed after => removed = true ∧ AccessConsistent used after := by
  unfold revokeAccess forgetAccess deleteAccess
  simp only [returns_bind, returns_modify, returns_request, consistent.succeeding 0, returns_ite, if_true, returns_pure]
  refine Returns.mono (returns_cacheAccess ?_ ?_) fun _ _ kept => ⟨trivial, kept.1⟩
  · refine consistent.changed ((Later.answered server).trans (.of_eq rfl rfl)) rfl rfl rfl rfl rfl ?_
    intro cID' value known
    obtain ⟨different, before⟩ := (knownAccess_eraseValue rfl _ _).mp known
    obtain ⟨usedValue, granted⟩ | ⟨other, rfl, usedOther, refused⟩ := consistent.access cID' value before
    · exact .inl ⟨usedValue, (granted_erase rfl _ _).mpr ⟨different, granted⟩⟩
    · exact .inr ⟨other, rfl, usedOther, fun granted => refused ((granted_erase rfl _ _).mp granted).2⟩
  · exact .inr ⟨groupID, rfl, isUsed, fun granted => ((granted_erase rfl _ _).mp granted).1 ⟨rfl, rfl⟩⟩

theorem knownAccess_of_findValue {caches : ClusterCaches} {cID value : String} {record : CacheRecord String}
    (found : caches.clusterGroupAccessCache.findValue cID value = some record) : KnownAccess caches cID value :=
  Option.isSome_iff_exists.mpr ⟨record, found⟩

theorem returns_accessCached {server : Server} {cID value : String}
    {post : Option (CacheRecord String) → Server → Prop}
    (hit : ∀ record, server.clusters.clusterGroupAccessCache.findValue cID value = some record →
      server.clock 0 ≤ record.expirationTime → post (some record) server.tick)
    (miss : ∀ passed, passed = server ∨ passed = server.tick → post none passed) :
    Returns (accessCached cID value) server post := by
  unfold accessCached
  simp only [returns_bind, returns_get]
  cases found : server.clusters.clusterGroupAccessCache.findValue cID value with
  | none => exact miss _ (.inl rfl)
  | some record =>
    simp only [returns_bind, returns_current, returns_ite, returns_pure, decide_eq_true_eq]
    split
    next valid => exact hit record found valid
    next => exact miss _ (.inr rfl)

private theorem returns_queryAccess {server : Server} (consistent : AccessConsistent used server) {groupID cID : String}
    (isUsed : used cID groupID) :
    Returns (queryAccess groupID cID) server fun answer after => AccessConsistent used after ∧
      after.database = server.database ∧ (answer = true ↔ Granted server.database cID groupID) := by
  have asked := consistent.looked (.answered server)
  unfold queryAccess accessQuery
  simp only [returns_bind, returns_request, returns_ite, consistent.succeeding 0, if_true, returns_get, returns_pure]
  refine (returns_cacheAccess asked ?_).mono fun _ after kept => ⟨kept.1, kept.2, Iff.rfl⟩
  split
  next granted => exact .inl ⟨isUsed, granted⟩
  next refused => exact .inr ⟨groupID, rfl, isUsed, refused⟩

theorem returns_clusterAllowsAllGroups {server : Server} (apart : Apart used)
    (consistent : AccessConsistent used server) (cID : String) :
    Returns (clusterAllowsAllGroups cID) server fun answer after => AccessConsistent used after ∧
      after.database = server.database ∧ (answer = true ↔ Granted server.database cID wildcard) := by
  have isUsed := apart.wildcard cID
  unfold clusterAllowsAllGroups
  simp only [returns_bind]
  refine returns_accessCached (fun record known valid => ?_) fun passed moved => ?_
  · have granted := consistent.access.positive apart isUsed (knownAccess_of_findValue known)
    -- The second look reads the same time as the first.
    have again : server.tick.clock 0 ≤ record.expirationTime := by
      rw [tick_clock, consistent.still]
      exact valid
    simp only [returns_current, decide_eq_true again]
    exact ⟨consistent.looked ((Looked.tick server).trans (.tick _)), rfl, by simp [granted]⟩
  · have missed := Looked.missed moved
    have first := consistent.looked missed
    simp only [returns_bind]
    refine returns_accessCached (fun record known valid => ?_) fun passed' moved' => ?_
    · have refused := first.access.negative apart isUsed (knownAccess_of_findValue known)
      rw [missed.database] at refused
      exact ⟨first.looked (.tick passed), missed.database, by simp [refused]⟩
    · have all := missed.trans (.missed moved')
      rw [← all.database]
      exact returns_queryAccess (consistent.looked all) isUsed

private theorem returns_decideAccess {server : Server} (apart : Apart used) (consistent : AccessConsistent used server)
    {groupID cID : String} (isUsed : used cID groupID) :
    Returns (decideAccess groupID cID) server fun answer after => AccessConsistent used after ∧
      after.database = server.database ∧
      (answer = true ↔ Granted server.database cID groupID ∨ Granted server.database cID wildcard) := by
  unfold decideAccess
  simp only [returns_bind, returns_ite]
  refine (returns_clusterAllowsAllGroups apart consistent cID).mono ?_
  rintro everyone open_ ⟨kept, database, right⟩
  split
  next allowed => exact ⟨kept, database, by simp [right.mp allowed]⟩
  next refused =>
    have closed : ¬ Granted server.database cID wildcard := fun granted => refused (right.mpr granted)
    refine returns_accessCached (fun record known valid => ?_) fun passed moved => ?_
    · have granted := kept.access.positive apart isUsed (knownAccess_of_findValue known)
      rw [database] at granted
      exact ⟨kept.looked (.tick open_), database, by simp [granted]⟩
    · have first := kept.looked (.missed moved)
      have same : passed.database = server.database := (Looked.missed moved).database.trans database
      simp only [returns_bind]
      refine returns_accessCached (fun record known valid => ?_) fun passed' moved' => ?_
      · have none := first.access.negative apart isUsed (knownAccess_of_findValue known)
        rw [same] at none
        exact ⟨first.looked (.tick passed), same, by simp [none, closed]⟩
      · have second := first.looked (.missed moved')
        have same' : passed'.database = server.database := (Looked.missed moved').database.trans same
        refine (returns_queryAccess second isUsed).mono ?_
        rintro answer after ⟨last, unchanged, exact_⟩
        rw [same'] at exact_ unchanged
        exact ⟨last, unchanged, by simp [exact_, closed]⟩

/-- A listing of clusters is a lookup, too. -/
theorem returns_listClusters {server : Server} (succeeding : Succeeding server)
    (names : ∀ name, ClusterNameUnique server.database.clusters name) {post : List Cluster → Server → Prop}
    (next : ∀ clusters after, Looked server after → post clusters after) : Returns listClusters server post := by
  unfold listClusters
  simp only [returns_bind, returns_now, returns_get, returns_ite, returns_pure]
  split
  next => exact next _ _ (.tick server)
  next =>
    simp only [returns_request, tick_outcomes, succeeding 0, if_true, returns_modify]
    have asked := (Looked.tick server).trans (.answered _)
    refine (returns_mapM_keeps (fun current => Looked server current) asked ?_).mono ?_
    · rintro ⟨id, item⟩ member current looked
      obtain ⟨stored, hasName⟩ := FiniteMap.mem_select.mp member
      obtain ⟨name, named⟩ := Option.isSome_iff_exists.mp hasName
      have stored' : server.database.clusters.lookup id = some item := stored
      have complete := (names name).complete id item stored' named
      simp only [returns_bind]
      refine returns_clusterOfItem (looked.database ▸ stored' : current.database.clusters.lookup id = some item) named
        complete fun cluster _ held => ?_
      simp only [returns_pure]
      exact returns_cacheCluster held fun after filled => looked.trans filled
    · rintro clusters current looked
      refine next _ _ (looked.trans ((Looked.tick current).trans ?_))
      exact { Looked.refl current.tick with clusters := fun agree => ⟨agree.byID, agree.byName⟩ }

inductive AccessOperation where
  | addGroupToCluster (group cluster : String)
  | removeGroupFromCluster (group cluster : String)
  | groupAllowedOnCluster (group cluster : String)
  | clusterAllowsAllGroups (cID : String)
  | listClustersByGroup (group : String)
  deriving DecidableEq, Repr

namespace AccessOperation

def execute : AccessOperation → StoreM Unit
  | .addGroupToCluster group cluster => do let _ ← Slate.addGroupToCluster group cluster
  | .removeGroupFromCluster group cluster => do let _ ← Slate.removeGroupFromCluster group cluster
  | .groupAllowedOnCluster group cluster => do let _ ← Slate.groupAllowedOnCluster group cluster
  | .clusterAllowsAllGroups cID => do let _ ← Slate.clusterAllowsAllGroups cID
  | .listClustersByGroup group => do let _ ← Slate.listClustersByGroup group

/-- The operation uses, for the clusters it is about, only strings that are
counted as used. A listing is about every cluster. -/
def uses (used : String → String → Prop) (database : Database) : AccessOperation → Prop
  | .addGroupToCluster group cluster => ∀ groupID cID, DesignatesGrantee database group groupID →
      DesignatesCluster database cluster cID → used cID groupID
  | .removeGroupFromCluster group cluster => ∀ groupID cID, DesignatesGrantee database group groupID →
      DesignatesCluster database cluster cID → used cID groupID
  | .groupAllowedOnCluster group cluster => ∀ groupID cID, DesignatesGroup database group groupID →
      DesignatesCluster database cluster cID → used cID groupID
  | .clusterAllowsAllGroups _ => True
  | .listClustersByGroup group => ∀ groupID cID, DesignatesGroup database group groupID → used cID groupID

end AccessOperation

/-- The server at another time, at which the clock then stands. -/
def Server.at (server : Server) (time : Time) : Server := { server with clock := fun _ => time }

structure TimedAccess where
  time : Time
  operation : AccessOperation
  deriving DecidableEq, Repr

namespace TimedAccess

def execute (timed : TimedAccess) : StoreM Unit := do
  modify fun server => server.at timed.time
  timed.operation.execute

/-- Time does not run backwards, and only used strings are used. -/
def permitted (used : String → String → Prop) (timed : TimedAccess) (server : Server) : Prop :=
  server.clock 0 ≤ timed.time ∧ timed.operation.uses used server.database

end TimedAccess

theorem AccessConsistent.at {server : Server} (consistent : AccessConsistent used server) (time : Time) :
    AccessConsistent used (server.at time) where
  succeeding := consistent.succeeding
  still := fun _ => rfl
  names := consistent.names
  groups := consistent.groups
  clusters := consistent.clusters
  access := consistent.access.of_eq rfl rfl

/-- What runs on a cluster, if its argument stands for one. -/
def onNormalizedCluster (cluster : String) (next : String → StoreM Bool) : StoreM Bool := do
  let some cID ← normalizeClusterID cluster
    | return false
  next cID

section Normalized
variable {server : Server} (consistent : AccessConsistent used server)
include consistent

/-- A decision, a grant or a removal runs on what the strings stand for, if they
stand for anything. -/
theorem returns_withNormalized {group cluster : String} {allowWildcard : Bool} {next : String → String → StoreM Bool}
    {post : Bool → Server → Prop}
    (runs : ∀ groupID cID after, AccessConsistent used after → after.database = server.database →
      (if allowWildcard then DesignatesGrantee server.database group groupID
        else DesignatesGroup server.database group groupID) →
      DesignatesCluster server.database cluster cID → Returns (next groupID cID) after post)
    (stops : ∀ after, AccessConsistent used after → after.database = server.database → (∀ groupID cID,
      (if allowWildcard then DesignatesGrantee server.database group groupID
        else DesignatesGroup server.database group groupID) →
      ¬ DesignatesCluster server.database cluster cID) → post false after) :
    Returns (withNormalized group cluster allowWildcard next) server post := by
  have second : ∀ groupID passed, Looked server passed →
      (if allowWildcard then DesignatesGrantee server.database group groupID
        else DesignatesGroup server.database group groupID) →
      Returns (onNormalizedCluster cluster (next groupID)) passed post := by
    intro groupID passed looked designated
    have kept := consistent.looked looked
    unfold onNormalizedCluster
    simp only [returns_bind]
    refine returns_normalizeClusterID kept.succeeding kept.clusters (kept.names.clusterNames cluster) ?_ ?_
    · intro cID after looked' onCluster
      rw [looked.database] at onCluster
      exact runs groupID cID after (kept.looked looked') (looked'.database.trans looked.database) designated onCluster
    · intro after looked' absent
      rw [looked.database] at absent
      simp only [returns_pure]
      exact stops after (kept.looked looked') (looked'.database.trans looked.database) fun _ cID _ => absent cID
  unfold withNormalized
  simp only [returns_bind]
  cases allowWildcard with
  | true =>
    refine returns_normalizeGrantee consistent.succeeding consistent.groups (consistent.names.groupNames group)
      (fun groupID after looked designated => second groupID after looked designated) fun after looked absent => ?_
    simp only [returns_pure]
    exact stops after (consistent.looked looked) looked.database
      fun groupID _ designated => absurd designated (absent groupID)
  | false =>
    refine returns_normalizeGroupID consistent.succeeding consistent.groups (consistent.names.groupNames group)
      (fun groupID after looked designated => second groupID after looked designated) fun after looked absent => ?_
    simp only [returns_pure]
    exact stops after (consistent.looked looked) looked.database
      fun groupID _ designated => absurd designated (absent groupID)

/-- The decision on strings, whatever they are. -/
theorem returns_groupAllowedOnCluster (apart : Apart used) {group cluster : String}
    (uses : (AccessOperation.groupAllowedOnCluster group cluster).uses used server.database) :
    Returns (groupAllowedOnCluster group cluster) server fun answer after => AccessConsistent used after ∧
      after.database = server.database ∧
      (answer = true ↔ ∃ groupID cID, DesignatesGroup server.database group groupID ∧
        DesignatesCluster server.database cluster cID ∧
        (Granted server.database cID groupID ∨ Granted server.database cID wildcard)) := by
  unfold groupAllowedOnCluster
  refine returns_withNormalized consistent ?_ ?_
  · intro groupID cID after kept same designated onCluster
    refine (returns_decideAccess apart kept (uses groupID cID designated onCluster)).mono ?_
    rintro answer final ⟨last, unchanged, right⟩
    rw [same] at right
    refine ⟨last, unchanged.trans same, right.trans ⟨fun granted => ⟨groupID, cID, designated, onCluster, granted⟩, ?_⟩⟩
    rintro ⟨groupID', cID', designated', onCluster', granted⟩
    rwa [DesignatesGroup.unique (consistent.names.groupNames group) designated designated',
      onCluster.unique (consistent.names.clusterNames cluster) onCluster']
  · intro after kept same absent
    refine ⟨kept, same, iff_of_false Bool.false_ne_true ?_⟩
    rintro ⟨groupID, cID, designated, onCluster, -⟩
    exact absent groupID cID designated onCluster

private theorem returns_clustersOpenTo (apart : Apart used) {group : String}
    (uses : ∀ cluster, (AccessOperation.groupAllowedOnCluster group cluster).uses used server.database)
    (clusters : List Cluster) :
    Returns (clustersOpenTo group clusters) server fun _ after => AccessConsistent used after := by
  unfold clustersOpenTo
  simp only [returns_bind, returns_pure]
  refine (returns_mapM_keeps (fun current => AccessConsistent used current ∧ current.database = server.database)
    ⟨consistent, rfl⟩ ?_).mono fun _ _ => And.left
  rintro cluster member current ⟨kept, same⟩
  simp only [returns_ite, returns_bind, returns_pure]
  split
  next => exact ⟨kept, same⟩
  next =>
    refine (returns_groupAllowedOnCluster kept apart (same ▸ uses cluster.id)).mono ?_
    rintro answer after ⟨last, unchanged, -⟩
    split <;> exact ⟨last, unchanged.trans same⟩

private theorem returns_listClustersByGroup (apart : Apart used) {group : String}
    (uses : (AccessOperation.listClustersByGroup group).uses used server.database) :
    Returns (listClustersByGroup group) server fun _ after => AccessConsistent used after := by
  have opened : ∀ text, (∀ groupID cID, DesignatesGroup server.database text groupID → used cID groupID) →
      ∀ passed, Looked server passed → Returns (do clustersOpenTo text (← listClusters)) passed
        fun _ after => AccessConsistent used after := by
    intro text allUsed passed looked
    have kept := consistent.looked looked
    simp only [returns_bind]
    refine returns_listClusters kept.succeeding kept.names.clusterNames fun clusters after looked' => ?_
    refine returns_clustersOpenTo (kept.looked looked') apart (fun cluster groupID cID designated _ => ?_) clusters
    rw [looked'.database, looked.database] at designated
    exact allUsed groupID cID designated
  unfold listClustersByGroup
  simp only [returns_ite]
  split
  next named =>
    have unprefixed : startsWith groupIDPrefix group = false := by simpa using named.2
    simp only [returns_bind]
    refine returns_findGroupByName consistent.succeeding consistent.groups (consistent.names.groupNames group) ?_ ?_
    · rintro found after looked valid rfl ⟨item, stored, whole⟩
      simp only [valid, Bool.not_true, Bool.false_eq_true, if_false]
      refine opened found.id (fun groupID cID designated => uses groupID cID ?_) after looked
      rw [DesignatesGroup, if_pos (consistent.names.groupIDs _ _ stored)] at designated
      rw [DesignatesGroup, unprefixed, if_neg Bool.false_ne_true, designated]
      refine ⟨item, stored, ?_⟩
      rw [whole]
      rfl
    · intro after looked _
      simp only [Bool.not_false, if_true, returns_pure]
      exact consistent.looked looked
  next => exact opened group uses server (.refl server)

end Normalized

private theorem execute_keeps_access {used : String → String → Prop} (apart : Apart used) (timed : TimedAccess)
    (server : Server) (consistent : AccessConsistent used server) (allowed : timed.permitted used server) :
    Returns timed.execute server fun _ after => AccessConsistent used after := by
  obtain ⟨time, operation⟩ := timed
  have timely := consistent.at time
  have uses : operation.uses used (server.at time).database := allowed.2
  simp only [TimedAccess.execute, returns_bind, returns_modify]
  cases operation with
  | addGroupToCluster group cluster =>
    simp only [AccessOperation.execute, addGroupToCluster, returns_bind, returns_pure]
    refine returns_withNormalized timely ?_ fun after kept _ _ => kept
    intro groupID cID after kept _ designated onCluster
    exact (returns_grantAccess kept (uses groupID cID designated onCluster)).mono fun _ _ => And.right
  | removeGroupFromCluster group cluster =>
    simp only [AccessOperation.execute, removeGroupFromCluster, returns_bind, returns_pure]
    refine returns_withNormalized timely ?_ fun after kept _ _ => kept
    intro groupID cID after kept _ designated onCluster
    exact (returns_revokeAccess kept (uses groupID cID designated onCluster)).mono fun _ _ => And.right
  | groupAllowedOnCluster group cluster =>
    simp only [AccessOperation.execute, returns_bind, returns_pure]
    exact (returns_groupAllowedOnCluster timely apart uses).mono fun _ _ => And.left
  | clusterAllowsAllGroups cID =>
    simp only [AccessOperation.execute, returns_bind, returns_pure]
    exact (returns_clusterAllowsAllGroups apart timely cID).mono fun _ _ => And.left
  | listClustersByGroup group =>
    simp only [AccessOperation.execute, returns_bind, returns_pure]
    exact returns_listClustersByGroup timely apart uses

/-- A server that has just started, on tables whose names fit together. -/
structure AccessStart (server : Server) : Prop where
  groups : server.groups = {}
  clusters : server.clusters = {}
  names : WellNamed server.database.groups server.database.clusters
  succeeding : Succeeding server
  still : Still server

theorem AccessStart.consistent {server : Server} (start : AccessStart server) (used : String → String → Prop) :
    AccessConsistent used server where
  succeeding := start.succeeding
  still := start.still
  names := start.names
  groups := start.groups ▸ .empty _
  clusters := start.clusters ▸ .empty _
  access := by
    intro cID value known
    simp [KnownAccess, start.clusters] at known

/-- After any sequence of operations that keeps the used strings apart, every
decision is the table's, and so is everything that is cached about a used
string, whether or not it has expired. -/
theorem access_decided_by_table {used : String → String → Prop} (apart : Apart used) {server : Server}
    {history : List TimedAccess} (start : AccessStart server)
    (allowed : Permitted TimedAccess.execute (TimedAccess.permitted used) history server) :
    Returns (history.forM TimedAccess.execute) server fun _ current => ∀ time, current.clock 0 ≤ time →
      (∀ group cluster, (AccessOperation.groupAllowedOnCluster group cluster).uses used current.database →
        Returns (groupAllowedOnCluster group cluster) (current.at time) fun answer _ => answer = true ↔
          ∃ groupID cID, DesignatesGroup current.database group groupID ∧
            DesignatesCluster current.database cluster cID ∧
            (Granted current.database cID groupID ∨ Granted current.database cID wildcard)) ∧
      (∀ cID, Returns (clusterAllowsAllGroups cID) (current.at time) fun answer _ => answer = true ↔
        Granted current.database cID wildcard) ∧
      (∀ cID groupID, used cID groupID →
        (KnownAccess current.clusters cID groupID → Granted current.database cID groupID) ∧
        (KnownAccess current.clusters cID (negativeMarker groupID) → ¬ Granted current.database cID groupID)) := by
  refine (returns_history (execute_keeps_access apart) (start.consistent used) allowed).mono ?_
  intro _ current consistent time _
  refine ⟨fun group cluster uses => ?_, fun cID => ?_, fun cID groupID isUsed => ⟨?_, ?_⟩⟩
  · exact (returns_groupAllowedOnCluster (consistent.at time) apart uses).mono fun _ _ kept => kept.2.2
  · exact (returns_clusterAllowsAllGroups apart (consistent.at time) cID).mono fun _ _ kept => kept.2.2
  · exact consistent.access.positive apart isUsed
  · exact consistent.access.negative apart isUsed

def oneClusterServer : Server where
  database := {
    clusters := AList.insert "cluster_1" ⟨some "lab", some "", some "ns", some "group_1", none, none⟩ ∅ }

private theorem oneClusterServer_start : AccessStart oneClusterServer where
  groups := rfl
  clusters := rfl
  names := {
    groupNames := by simp [GroupNameUnique, oneClusterServer]
    groupIDs := by simp [oneClusterServer]
    clusterNames := by
      intro name
      constructor
      · intro id item id' item' found _ found' _
        simp only [oneClusterServer, FiniteMap.lookup_insert, FiniteMap.lookup_empty] at found found'
        split at found <;> split at found' <;> simp_all
      · intro id item found _
        simp only [oneClusterServer, FiniteMap.lookup_insert, FiniteMap.lookup_empty] at found
        split at found
        next =>
          cases found
          exact ⟨rfl, rfl, rfl⟩
        next => cases found }
  succeeding := fun _ => rfl
  still := fun _ => rfl

/-- The marker left by a removal is taken for the access of another string. -/
theorem marker_grants_access :
    let history : List TimedAccess := [⟨0, .removeGroupFromCluster "group_X" "cluster_1"⟩]
    AccessStart oneClusterServer ∧
      Permitted TimedAccess.execute (TimedAccess.permitted fun _ _ => True) history oneClusterServer ∧
      Returns (history.forM TimedAccess.execute) oneClusterServer fun _ current =>
        (∀ groupID, ¬ Granted current.database "cluster_1" groupID) ∧
          Returns (groupAllowedOnCluster "group_X-" "cluster_1") (current.at 0) fun answer _ => answer = true :=
  ⟨oneClusterServer_start, ⟨⟨Nat.le_refl 0, fun _ _ _ _ => trivial⟩, fun _ _ => trivial⟩,
    fun _ => Bool.false_ne_true, rfl⟩

/-- A grant that names the cluster, and its removal. -/
theorem access_decided_by_table_run :
    let history : List TimedAccess := [⟨0, .addGroupToCluster "group_X" "lab"⟩, ⟨1, .removeGroupFromCluster "group_X" "cluster_1"⟩]
    Returns (history.forM TimedAccess.execute) oneClusterServer fun _ current => ∀ time, current.clock 0 ≤ time →
      (Returns (groupAllowedOnCluster "group_X" "cluster_1") (current.at time) fun answer _ => answer = true ↔
        ∃ groupID cID, DesignatesGroup current.database "group_X" groupID ∧
          DesignatesCluster current.database "cluster_1" cID ∧
          (Granted current.database cID groupID ∨ Granted current.database cID wildcard)) ∧
      Returns (clusterAllowsAllGroups "cluster_1") (current.at time) fun answer _ => answer = true ↔
        Granted current.database "cluster_1" wildcard := by
  intro history
  let used : String → String → Prop := fun _ groupID => groupID = wildcard ∨ groupID = "group_X"
  have apart : Apart used := by
    refine ⟨fun _ => .inl rfl, ?_⟩
    rintro _ _ (rfl | rfl) (clash | clash) <;> exact absurd clash (by decide)
  have uses : ∀ operation database, (operation = AccessOperation.addGroupToCluster "group_X" "lab" ∨
      operation = .removeGroupFromCluster "group_X" "cluster_1" ∨ operation = .groupAllowedOnCluster "group_X" "cluster_1") →
      operation.uses used database := by
    rintro _ database (rfl | rfl | rfl) groupID cID designated _ <;> exact .inr designated
  have allowed : Permitted TimedAccess.execute (TimedAccess.permitted used) history oneClusterServer := by
    refine ⟨⟨Nat.zero_le _, uses _ _ (.inl rfl)⟩, fun granted ran => ⟨⟨?_, uses _ _ (.inr (.inl rfl))⟩, fun _ _ => trivial⟩⟩
    cases ran
    exact Nat.zero_le _
  exact (access_decided_by_table apart oneClusterServer_start allowed).mono fun _ current agree time later =>
    ⟨(agree time later).1 _ _ (uses _ _ (.inr (.inr rfl))), (agree time later).2.1 "cluster_1"⟩

end Slate
