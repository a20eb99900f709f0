import Slate.Instances
import Slate.Proofs.Listings

/-! Listings of application instances, over every sequence of operations and
every passage of time. -/

namespace Slate
open Library

/-- The instance is what the row says. The configuration is stored elsewhere. -/
def InstanceRead (row : InstanceItem) (inst : ApplicationInstance) : Prop :=
  inst.valid = true ∧ itemOfInstance inst = row

def InstanceCaches.index (caches : InstanceCaches) : ListingKind → ConcurrentMultimap String ApplicationInstance
  | .groupAndCluster => caches.instanceByGroupAndClusterCache
  | .group => caches.instanceByGroupCache
  | .cluster => caches.instanceByClusterCache

theorem InstanceCaches.listing_eq (caches : InstanceCaches) (kind : ListingKind) (group cluster : String) :
    caches.listing kind group cluster = (caches.index kind).find (kindKey kind group cluster) := by
  cases kind <;> rfl

/-- The category of a row in the index for a kind of listing. -/
def InstanceItem.category (kind : ListingKind) (row : InstanceItem) : String := kindKey kind row.owningGroup row.cluster

structure InstancesAgree (server : Server) (table : FiniteMap String InstanceItem) (caches : InstanceCaches) : Prop where
  main : CacheAgrees server table InstanceRead caches.instanceCache caches.expirationTime
  index : ∀ kind, IndexAgrees server table InstanceRead (InstanceItem.category kind) caches.instanceCache
    (caches.index kind)

namespace InstancesAgree

variable {before after : Server} {table table' : FiniteMap String InstanceItem} {caches : InstanceCaches}

theorem empty (server : Server) (table : FiniteMap String InstanceItem) : InstancesAgree server table {} where
  main := .empty server table InstanceRead
  index := fun kind => by cases kind <;> exact .empty server table InstanceRead _

theorem later (agree : InstancesAgree before table caches) (later : Later before after) :
    InstancesAgree after table caches :=
  ⟨agree.main.later later, fun kind => (agree.index kind).later later⟩

theorem put (agree : InstancesAgree before table caches) (later : Later before after) (steady : Steady after)
    (record : CacheRecord ApplicationInstance) (valid : record.record.valid = true)
    (puts : Puts table table' record.record.id (itemOfInstance record.record)) {byGroup byCluster byPair : Time}
    (groupPassed : byGroup ≤ after.clock 0) (clusterPassed : byCluster ≤ after.clock 0)
    (pairPassed : byPair ≤ after.clock 0) (byName : Time) :
    InstancesAgree after table' (caches.replace record byGroup byName byCluster byPair) where
  main := agree.main.put later puts ⟨valid, rfl⟩
  index := fun kind => by
    cases kind with
    | groupAndCluster => exact (agree.index .groupAndCluster).put later steady puts ⟨valid, rfl⟩ pairPassed
    | group => exact (agree.index .group).put later steady puts ⟨valid, rfl⟩ groupPassed
    | cluster => exact (agree.index .cluster).put later steady puts ⟨valid, rfl⟩ clusterPassed

theorem forget (agree : InstancesAgree before table caches) (later : Later before after) (id : String) :
    InstancesAgree after (AList.erase id table) (caches.forget id) := by
  unfold InstanceCaches.forget
  cases present : caches.instanceCache.lookup id with
  | none =>
    refine ⟨agree.main.eraseUncached later present, fun kind => ?_⟩
    have kept := (agree.index kind).eraseUncached later present
    cases kind <;> exact kept
  | some entry =>
    obtain ⟨named, row, stored, read⟩ := agree.main.faithful id entry present
    obtain ⟨inst, expirationTime⟩ := entry
    obtain rfl : inst.id = id := named
    obtain rfl : itemOfInstance inst = row := read.2
    have keyed : ∀ kind row', table.lookup inst.id = some row' →
        row'.category kind = (itemOfInstance inst).category kind := by
      intro kind row' stored'
      rw [stored] at stored'
      rw [Option.some.inj stored']
    refine ⟨agree.main.erase later inst.id, fun kind => ?_⟩
    have kept := (agree.index kind).eraseValue later (keyed kind)
    cases kind <;> exact kept

/-- A category that has all its rows may be stamped. -/
theorem stamp (agree : InstancesAgree before table caches) (later : Later before after) {kind : ListingKind}
    {groupID cID : String} (time : Time)
    (filled : ∀ name row, table.lookup name = some row → row.category kind = kindKey kind groupID cID →
      ((caches.index kind).entryOf (kindKey kind groupID cID) name).isSome = true) :
    InstancesAgree after table (caches.stamp kind groupID cID time) where
  main := by cases kind <;> exact agree.main.later later
  index := fun other => by
    have stamped := (agree.index kind).stamp later time filled
    have kept := (agree.index other).later later
    cases kind <;> cases other <;> first | exact stamped | exact kept

end InstancesAgree

/-- Everything that is cached about a row. -/
def InstanceCaches.Knows (caches : InstanceCaches) (id : String) (row : InstanceItem) : Prop :=
  (caches.instanceCache.lookup id).isSome = true ∧
    ∀ kind, ((caches.index kind).entryOf (row.category kind) id).isSome = true

theorem InstanceCaches.knows_replace {caches : InstanceCaches} {id : String} {row : InstanceItem}
    (knows : caches.Knows id row) (record : CacheRecord ApplicationInstance) (byGroup byName byCluster byPair : Time) :
    (caches.replace record byGroup byName byCluster byPair).Knows id row := by
  refine ⟨isSome_insert _ _ _ _ knows.1, fun kind => ?_⟩
  have kept := knows.2 kind
  cases kind <;> exact isSome_insertOrAssign _ record _ kept

theorem InstanceCaches.knows_replaced (caches : InstanceCaches) (record : CacheRecord ApplicationInstance)
    (byGroup byName byCluster byPair : Time) :
    (caches.replace record byGroup byName byCluster byPair).Knows record.record.id (itemOfInstance record.record) := by
  refine ⟨isSome_insert_self _ _ _, fun kind => ?_⟩
  cases kind <;> exact isSome_insertOrAssign_self _ record _

structure InstancesConsistent (server : Server) : Prop where
  succeeding : Succeeding server
  steady : Steady server
  groups : GroupsAgree server.database.groups server.groups
  clusters : ClustersAgree server.database.clusters server.clusters
  agree : InstancesAgree server server.database.instances server.instances

theorem InstancesConsistent.looked {before after : Server} (consistent : InstancesConsistent before)
    (looked : Looked before after) : InstancesConsistent after where
  succeeding := looked.succeeding consistent.succeeding
  steady := looked.steady consistent.steady
  groups := looked.database ▸ looked.groups consistent.groups
  clusters := looked.database ▸ looked.clusters consistent.clusters
  agree := by
    rw [looked.database, looked.instances]
    exact consistent.agree.later looked.toLater

/-- A change of the tables and caches of instances alone. -/
theorem InstancesConsistent.changed {before after : Server} (consistent : InstancesConsistent before)
    (later : Later before after) (groupTable : after.database.groups = before.database.groups)
    (clusterTable : after.database.clusters = before.database.clusters) (groups : after.groups = before.groups)
    (clusters : after.clusters = before.clusters)
    (agree : InstancesAgree after after.database.instances after.instances) : InstancesConsistent after where
  succeeding := later.succeeding consistent.succeeding
  steady := later.steady consistent.steady
  groups := by
    rw [groupTable, groups]
    exact consistent.groups
  clusters := by
    rw [clusterTable, clusters]
    exact consistent.clusters
  agree := agree

/-- An instance is cached after its row has entered the table, or has been read
from it. -/
theorem returns_cacheInstance {before server : Server} (consistent : InstancesConsistent before)
    (later : Later before server) (groupTable : server.database.groups = before.database.groups)
    (clusterTable : server.database.clusters = before.database.clusters) (groups : server.groups = before.groups)
    (clusters : server.clusters = before.clusters) (instances : server.instances = before.instances)
    {inst : ApplicationInstance} (valid : inst.valid = true)
    (puts : Puts before.database.instances server.database.instances inst.id (itemOfInstance inst)) :
    Returns (cacheInstance inst) server fun _ after => InstancesConsistent after ∧
      after.database = server.database ∧ after.instances.Knows inst.id (itemOfInstance inst) ∧
      ∀ id row, server.instances.Knows id row → after.instances.Knows id row := by
  unfold cacheInstance modifyInstances
  simp only [returns_bind, returns_lasting, returns_now, returns_modify]
  obtain ⟨passed, same⟩ : ∃ passed, passed = server.tick.tick.tick.tick.tick := ⟨_, rfl⟩
  have passing : Later server passed := same ▸
    ((((Later.tick server).trans (.tick _)).trans (.tick _)).trans (.tick _)).trans (.tick _)
  have database : passed.database = server.database := by simp only [same, tick_database]
  have sameGroups : passed.groups = server.groups := by simp only [same, tick_groups]
  have sameClusters : passed.clusters = server.clusters := by simp only [same, tick_clusters]
  have sameInstances : passed.instances = server.instances := by simp only [same, tick_instances]
  have order : ∀ n ≤ 5, server.clock n ≤ passed.clock 0 := by
    simp only [same, tick_clock]
    exact fun n order => later.steady consistent.steady order
  rw [← same]
  have put := consistent.agree.put (later.trans passing) ((later.trans passing).steady consistent.steady)
    ⟨inst, server.clock 0 + instanceCacheValidity⟩ valid puts (order 1 (by omega)) (order 3 (by omega))
    (order 4 (by omega)) (server.clock 2)
  rw [← instances, ← sameInstances, ← database] at put
  refine ⟨consistent.changed ((later.trans passing).trans (.of_eq rfl rfl)) ?_ ?_ ?_ ?_ ?_, database,
    InstanceCaches.knows_replaced .., fun id row knows => InstanceCaches.knows_replace (sameInstances ▸ knows) ..⟩
  · exact (congrArg Database.groups database).trans groupTable
  · exact (congrArg Database.clusters database).trans clusterTable
  · exact sameGroups.trans groups
  · exact sameClusters.trans clusters
  · exact put.later (.of_eq rfl rfl)

/-- Rows that are read are answered as they are, and all of them are cached. -/
theorem returns_collectInstances {server : Server} (consistent : InstancesConsistent server)
    {rows : List (String × InstanceItem)}
    (stored : ∀ entry ∈ rows, server.database.instances.lookup entry.1 = some entry.2) :
    Returns (collectInstances rows) server fun instances after => InstancesConsistent after ∧
      after.database = server.database ∧ instances = rows.map (fun entry => instanceOfItem entry.1 entry.2) ∧
      ∀ entry ∈ rows, after.instances.Knows entry.1 entry.2 := by
  unfold collectInstances
  apply returns_mapM rows _ server fun visited instances current => InstancesConsistent current ∧
    current.database = server.database ∧ instances = visited.map (fun entry => instanceOfItem entry.1 entry.2) ∧
    ∀ entry ∈ visited, current.instances.Knows entry.1 entry.2
  · exact ⟨consistent, rfl, rfl, by simp⟩
  · rintro visited ⟨id, row⟩ rest instances current split ⟨kept, same, read, known⟩
    have present : current.database.instances.lookup id = some row := by
      rw [same]
      exact stored (id, row) (by simp [split])
    simp only [returns_bind, returns_pure]
    refine (returns_cacheInstance kept (.refl current) rfl rfl rfl rfl rfl rfl (Puts.present_already present)).mono ?_
    rintro _ after ⟨kept', same', knows, others⟩
    refine ⟨kept', same'.trans same, by rw [read, List.map_append]; rfl, ?_⟩
    intro entry member
    obtain visited | last := List.mem_append.mp member
    · exact others _ _ (known entry visited)
    · rw [List.mem_singleton.mp last]
      exact knows

/-- Configurations are no business of the listings. -/
theorem returns_cacheInstanceConfig {server : Server} (consistent : InstancesConsistent server) (id config : String) :
    Returns (cacheInstanceConfig id config) server fun _ after => InstancesConsistent after := by
  unfold cacheInstanceConfig modifyInstances
  simp only [returns_bind, returns_get, returns_ite, returns_lasting, returns_modify, returns_pure]
  split
  next =>
    have later : Later server server.tick := .tick server
    have kept := consistent.agree.later later
    exact consistent.changed (later.trans (.of_eq rfl rfl)) rfl rfl rfl rfl
      ⟨kept.main.later (.of_eq rfl rfl), fun kind => by cases kind <;> exact (kept.index _).later (.of_eq rfl rfl)⟩
  next => exact consistent

private theorem returns_addApplicationInstance {server : Server} (consistent : InstancesConsistent server)
    {inst : ApplicationInstance} (valid : inst.valid = true) (fresh : server.database.instances.lookup inst.id = none) :
    Returns (addApplicationInstance inst) server fun added after => added = true ∧ InstancesConsistent after := by
  unfold addApplicationInstance
  simp only [returns_bind, returns_request, returns_ite, consistent.succeeding 0, if_true, returns_pure, returns_modify]
  split
  next =>
    refine Returns.mono (returns_cacheInstance consistent ?later ?_ ?_ ?_ ?_ ?_ valid ?puts) ?_
    case later => exact ((Later.answered server).trans (.answered _)).trans (.of_eq rfl rfl)
    case puts => exact .insert fresh
    all_goals try rfl
    · rintro _ after ⟨kept, -, -, -⟩
      exact (returns_cacheInstanceConfig kept inst.id inst.config).mono fun _ _ done => ⟨trivial, done⟩
  next failed => exact absurd (consistent.succeeding 1) failed

private theorem returns_removeApplicationInstance {server : Server} (consistent : InstancesConsistent server) (id : String) :
    Returns (removeApplicationInstance id) server fun removed after => removed = true ∧ InstancesConsistent after := by
  unfold removeApplicationInstance modifyInstances
  simp only [returns_bind, returns_request, returns_ite, returns_pure, returns_modify]
  split
  next =>
    split
    next =>
      have later := (Later.answered server).trans (.answered _)
      exact ⟨trivial, consistent.changed (later.trans (.of_eq rfl rfl)) rfl rfl rfl rfl
        ((consistent.agree.forget later id).later (.of_eq rfl rfl))⟩
    next failed => exact absurd (consistent.succeeding 1) failed
  next failed => exact absurd (consistent.succeeding 0) failed

private theorem returns_getApplicationInstance {server : Server} (consistent : InstancesConsistent server) (id : String) :
    Returns (getApplicationInstance id) server fun _ after => InstancesConsistent after := by
  unfold getApplicationInstance
  simp only [returns_bind, returns_get]
  apply returns_cached
  · intro entry _ _
    exact consistent.looked (.tick server)
  · intro passed missed
    have kept := consistent.looked (.missed missed)
    simp only [returns_bind, returns_request, returns_ite, kept.succeeding 0, if_true, returns_get]
    split
    next => exact kept.looked (.answered passed)
    next item found =>
      have asked := kept.looked (.answered passed)
      simp only [returns_bind, returns_pure]
      exact (returns_cacheInstance asked (.refl _) rfl rfl rfl rfl rfl rfl (Puts.present_already found)).mono
        fun _ _ => And.left

/-- Every instance is listed. -/
theorem returns_listApplicationInstances {server : Server} (consistent : InstancesConsistent server) :
    Returns listApplicationInstances server fun answer after => InstancesConsistent after ∧
      Lists server.database.instances InstanceRead (fun _ => True) answer := by
  unfold listApplicationInstances
  simp only [returns_bind, returns_now, returns_get, returns_ite, returns_pure]
  split
  next trusted => exact ⟨consistent.looked (.tick server), consistent.agree.main.lists ⟨0, trusted⟩⟩
  next =>
    have asked := consistent.looked ((Looked.tick server).trans (.answered _))
    rw [returns_request]
    split
    next =>
      refine (returns_collectInstances asked fun entry => FiniteMap.mem_pairs.mp).mono ?_
      rintro instances after ⟨kept, same, rfl, known⟩
      have passed := kept.agree.later (Later.tick after)
      refine ⟨kept.changed ((Later.tick after).trans (.of_eq rfl rfl)) rfl rfl rfl rfl ⟨?_, fun kind => ?_⟩, ?_⟩
      · refine passed.main.stamp (fun name row stored => ?_) _
        rw [same] at stored
        exact (known (name, row) (FiniteMap.mem_pairs.mpr stored)).1
      · cases kind <;> exact (passed.index _).later (.of_eq rfl rfl)
      · exact lists_pairs fun name row _ => ⟨rfl, rfl, rfl⟩
    next failed => exact absurd (consistent.succeeding 0) failed

/-- A row that a listing selects without being asked for it. -/
def InstanceMismatch (database : Database) (groupID cID : String) : Prop :=
  ∃ id row, database.instances.lookup id = some row ∧ listingSelects groupID cID row.owningGroup row.cluster = true ∧
    ¬ Matches groupID cID row.owningGroup row.cluster

/-- What the listing depends on: that no record of the category it answers from
expires before its turn to be checked, or that the query it sends selects only
what is wanted. -/
def InstancesReady (server : Server) (kind : ListingKind) (groupID cID : String) : Prop :=
  if server.clock 0 < (server.instances.listing kind groupID cID).expiration
  then AllFresh (fun n => server.clock (n + 1)) (server.instances.listing kind groupID cID).members
  else ¬ InstanceMismatch server.database groupID cID

private theorem returns_listInstancesNormalized {server : Server} (consistent : InstancesConsistent server)
    {kind : ListingKind} {groupID cID : String} (kinds : listingKind groupID cID = some kind)
    (unambiguous : kind = .groupAndCluster →
      PairUnambiguous server.database.instances InstanceItem.owningGroup InstanceItem.cluster groupID cID) :
    Returns (listInstancesNormalized kind groupID cID) server fun answer after => InstancesConsistent after ∧
      (Lists server.database.instances InstanceRead (fun row => Matches groupID cID row.owningGroup row.cluster) answer ↔
        InstancesReady server kind groupID cID) := by
  have keyed : ∀ name row, server.database.instances.lookup name = some row →
      (Matches groupID cID row.owningGroup row.cluster ↔ row.category kind = kindKey kind groupID cID) :=
    fun name row stored => matches_iff_key kinds fun pair => unambiguous pair name row stored
  unfold listInstancesNormalized
  simp only [returns_bind, returns_get]
  apply returns_cachedMembers
  · intro trusted after looked
    refine ⟨consistent.looked looked, ?_⟩
    rw [InstancesReady, if_pos trusted]
    have lists : Lists server.database.instances InstanceRead
        (fun row => Matches groupID cID row.owningGroup row.cluster)
        ((server.instances.listing kind groupID cID).members.map CacheRecord.record) := by
      rw [InstanceCaches.listing_eq] at trusted ⊢
      exact ((consistent.agree.index kind).lists ⟨0, trusted⟩).congr fun name row stored => (keyed name row stored).symm
    exact lists_freshRecords_iff lists
  · intro stale passed looked
    rw [InstancesReady, if_neg stale]
    have asked := (consistent.looked looked).looked (.answered passed)
    have table : passed.database = server.database := looked.database
    have given := given_of_kind kinds
    simp only [returns_bind, returns_request, (consistent.looked looked).succeeding 0, returns_ite, if_true,
      returns_get, returns_pure, answered_database, table]
    have right : Lists server.database.instances InstanceRead (fun row => Matches groupID cID row.owningGroup row.cluster)
        ((server.database.instancesSelected groupID cID).map fun entry => instanceOfItem entry.1 entry.2) ↔
          ¬ InstanceMismatch server.database groupID cID := by
      refine (lists_selected_iff (lists_select fun name row _ => ⟨rfl, rfl, rfl⟩) fun row => Matches.selected given).trans ?_
      unfold InstanceMismatch
      push Not
      rfl
    split
    next none =>
      rw [none] at right
      exact ⟨asked, right⟩
    next =>
      have selected : ∀ entry ∈ server.database.instancesSelected groupID cID,
          server.database.instances.lookup entry.1 = some entry.2 := fun entry chosen => (FiniteMap.mem_select.mp chosen).1
      refine (returns_collectInstances asked fun entry chosen => ?_).mono ?_
      · rw [answered_database, table]
        exact selected entry chosen
      · rintro instances after ⟨kept, same, rfl, known⟩
        have stored : after.database.instances = server.database.instances := by rw [same, answered_database, table]
        refine ⟨kept.changed ((Later.tick after).trans (.of_eq rfl rfl)) rfl rfl rfl rfl ?_, right⟩
        refine (kept.agree.stamp (.tick after) _ fun id row found inCategory => ?_).later (.of_eq rfl rfl)
        rw [stored] at found
        have wanted := Matches.selected given ((keyed id row found).mpr inCategory)
        rw [← inCategory]
        exact (known (id, row) (FiniteMap.mem_select.mpr ⟨found, wanted⟩)).2 kind

def InstancesAskable (database : Database) (group cluster : String) : Prop :=
  Askable database database.instances InstanceItem.owningGroup InstanceItem.cluster group cluster

def ListsInstances (database : Database) (group cluster : String) (answer : List ApplicationInstance) : Prop :=
  Lists database.instances InstanceRead (fun row => Wanted database group cluster row.owningGroup row.cluster) answer

private theorem returns_listApplicationInstancesByClusterOrGroup {server : Server} (consistent : InstancesConsistent server)
    {group cluster : String} (askable : InstancesAskable server.database group cluster) :
    Returns (listApplicationInstancesByClusterOrGroup group cluster) server (fun _ after => InstancesConsistent after) ∧
      (Returns (listApplicationInstancesByClusterOrGroup group cluster) server
          (fun answer _ => ListsInstances server.database group cluster answer) ↔
        Returns (normalizeArguments group cluster) server fun normalized passed =>
          ∀ groupID cID, normalized = some (groupID, cID) →
            ∀ kind, listingKind groupID cID = some kind → InstancesReady passed kind groupID cID) := by
  have known := returns_designated consistent.succeeding consistent.groups consistent.clusters askable.resolvable
  refine (returns_listing consistent.succeeding consistent.groups consistent.clusters askable.resolvable
    (fun _ _ _ => True) (fun _ => consistent.looked) ?_ ?_).imp_left fun kept => kept (known.mono fun _ _ _ _ _ _ => trivial)
  · exact fun none => .nothing fun _ row _ => none row.owningGroup row.cluster
  · intro groupID cID passed looked designated
    have same : passed.database = server.database := looked.database
    obtain ⟨kind, kinds, unambiguous⟩ := askable.kind designated
    simp only [kinds]
    refine (returns_listInstancesNormalized (consistent.looked looked) kinds ?_).mono ?_
    · rw [same]
      exact unambiguous
    · rintro answer after ⟨kept, exactly⟩
      rw [same] at exactly
      have wanted := designated.wanted_iff askable.resolvable
      have translated : ListsInstances server.database group cluster answer ↔ _ :=
        ⟨fun lists => lists.congr fun _ row _ => wanted row.owningGroup row.cluster,
          fun lists => lists.congr fun _ row _ => (wanted row.owningGroup row.cluster).symm⟩
      exact ⟨fun _ => kept, (translated.trans exactly).trans
        ⟨fun ready _ same => Option.some.inj same ▸ ready, fun ready => ready kind rfl⟩⟩

inductive InstanceOperation where
  | addApplicationInstance (inst : ApplicationInstance)
  | removeApplicationInstance (id : String)
  | getApplicationInstance (id : String)
  | listApplicationInstances
  | listApplicationInstancesByClusterOrGroup (group cluster : String)

def InstanceOperation.execute : InstanceOperation → StoreM Unit
  | .addApplicationInstance inst => do let _ ← Slate.addApplicationInstance inst
  | .removeApplicationInstance id => do let _ ← Slate.removeApplicationInstance id
  | .getApplicationInstance id => do let _ ← Slate.getApplicationInstance id
  | .listApplicationInstances => do let _ ← Slate.listApplicationInstances
  | .listApplicationInstancesByClusterOrGroup group cluster => do
      let _ ← Slate.listApplicationInstancesByClusterOrGroup group cluster

/-- Instances are added under new IDs, and the arguments of listings are not
ambiguous. -/
def InstanceOperation.permitted (operation : InstanceOperation) (server : Server) : Prop :=
  match operation with
  | .addApplicationInstance inst => inst.valid = true ∧ server.database.instances.lookup inst.id = none
  | .listApplicationInstancesByClusterOrGroup group cluster => InstancesAskable server.database group cluster
  | _ => True

private theorem execute_keeps_instances (operation : InstanceOperation) (server : Server)
    (consistent : InstancesConsistent server) (allowed : operation.permitted server) :
    Returns operation.execute server fun _ after => InstancesConsistent after := by
  cases operation with
  | addApplicationInstance inst =>
    simp only [InstanceOperation.execute, returns_bind, returns_pure]
    exact (returns_addApplicationInstance consistent allowed.1 allowed.2).mono fun _ _ => And.right
  | removeApplicationInstance id =>
    simp only [InstanceOperation.execute, returns_bind, returns_pure]
    exact (returns_removeApplicationInstance consistent id).mono fun _ _ => And.right
  | getApplicationInstance id =>
    simp only [InstanceOperation.execute, returns_bind, returns_pure]
    exact returns_getApplicationInstance consistent id
  | listApplicationInstances =>
    simp only [InstanceOperation.execute, returns_bind, returns_pure]
    exact (returns_listApplicationInstances consistent).mono fun _ _ => And.left
  | listApplicationInstancesByClusterOrGroup group cluster =>
    simp only [InstanceOperation.execute, returns_bind, returns_pure]
    exact (returns_listApplicationInstancesByClusterOrGroup consistent allowed).1

structure InstancesStart (server : Server) : Prop where
  groups : server.groups = {}
  clusters : server.clusters = {}
  instances : server.instances = {}
  succeeding : Succeeding server
  steady : Steady server

theorem InstancesStart.consistent {server : Server} (start : InstancesStart server) : InstancesConsistent server where
  succeeding := start.succeeding
  steady := start.steady
  groups := start.groups ▸ .empty _
  clusters := start.clusters ▸ .empty _
  agree := start.instances ▸ .empty _ _

/-- After any sequence of operations and for any passage of time, the listing of
all instances is exact; a listing by group or cluster is exact if and only if no
record of the category it answers from has expired before its turn to be checked
or, when the table is asked, the query selects no instance on another cluster. -/
theorem instance_listings_exact_iff {server : Server} {history : List InstanceOperation} (start : InstancesStart server)
    (allowed : Permitted InstanceOperation.execute InstanceOperation.permitted history server) :
    Returns (history.forM InstanceOperation.execute) server fun _ current =>
      Returns listApplicationInstances current (fun answer _ =>
        Lists current.database.instances InstanceRead (fun _ => True) answer) ∧
      ∀ group cluster, InstancesAskable current.database group cluster →
        (Returns (listApplicationInstancesByClusterOrGroup group cluster) current
            (fun answer _ => ListsInstances current.database group cluster answer) ↔
          Returns (normalizeArguments group cluster) current fun normalized passed =>
            ∀ groupID cID, normalized = some (groupID, cID) →
            ∀ kind, listingKind groupID cID = some kind → InstancesReady passed kind groupID cID) := by
  refine (returns_history execute_keeps_instances start.consistent allowed).mono fun _ current consistent => ?_
  exact ⟨(returns_listApplicationInstances consistent).mono fun _ _ => And.right,
    fun group cluster askable => (returns_listApplicationInstancesByClusterOrGroup consistent askable).2⟩

/-- An instance of a group, on a server whose clock passes the end of the validity
of the first record it caches just before it stamps a category. -/
def stampingServer : Server where
  database := { instances := AList.insert "instance_1" ⟨"web", "nginx", "group_1", "cluster_1", "today"⟩ ∅ }
  clock := jumpingClock 6 (instanceCacheValidity + 1)

private theorem stampingServer_start : InstancesStart stampingServer where
  groups := rfl
  clusters := rfl
  instances := rfl
  succeeding := fun _ => rfl
  steady := jumpingClock_monotone _ _

private theorem stampingServer_askable : InstancesAskable stampingServer.database "group_1" "" where
  resolvable := ⟨by decide, fun _ => .empty _, fun given => absurd rfl given, rfl, rfl⟩
  unambiguous := fun _ given => absurd rfl given

/-- The first listing stamps the category after its record has expired; the next
one trusts the category and drops the record. -/
theorem instance_dropped_at_expiry :
    Permitted InstanceOperation.execute InstanceOperation.permitted
        [.listApplicationInstancesByClusterOrGroup "group_1" ""] stampingServer ∧
      InstancesStart stampingServer ∧
      Returns ([.listApplicationInstancesByClusterOrGroup "group_1" ""].forM InstanceOperation.execute) stampingServer
        fun _ current => (current.database.instances.lookup "instance_1").map InstanceItem.owningGroup = some "group_1" ∧
          Returns (listApplicationInstancesByClusterOrGroup "group_1" "") current fun answer _ => answer = [] :=
  ⟨⟨stampingServer_askable, fun _ _ => trivial⟩, stampingServer_start, rfl, rfl⟩

def unmovedServer : Server := { stampingServer with clock := fun _ => 0 }

theorem instance_listings_exact_run :
    Returns ([.listApplicationInstancesByClusterOrGroup "group_1" ""].forM InstanceOperation.execute) unmovedServer
      fun _ current => Returns listApplicationInstances current fun answer _ =>
        Lists current.database.instances InstanceRead (fun _ => True) answer := by
  have start : InstancesStart unmovedServer :=
    { stampingServer_start with steady := fun _ _ _ => Nat.le_refl 0, succeeding := fun _ => rfl }
  have allowed : Permitted InstanceOperation.execute InstanceOperation.permitted
      [.listApplicationInstancesByClusterOrGroup "group_1" ""] unmovedServer :=
    ⟨stampingServer_askable, fun _ _ => trivial⟩
  exact (instance_listings_exact_iff start allowed).mono fun _ _ exact => exact.1

end Slate
