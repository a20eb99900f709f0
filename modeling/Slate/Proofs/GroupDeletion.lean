import Slate.Proofs.ClusterDeletion
import Slate.Proofs.ClusterHistories

/-! The whole deletion of a group: its members and its record, and then what it owned. -/

namespace Slate
open Library

structure BeyondGroups where
  database : Database
  clusters : ClusterCaches
  instances : InstanceCaches
  secrets : SecretCaches
  volumes : VolumeCaches

def Database.beyondGroups (database : Database) : Database := { database with groups := ∅, memberships := ∅ }

def beyondGroups : ServerPart BeyondGroups where
  read := fun server => {
    database := server.database.beyondGroups
    clusters := server.clusters
    instances := server.instances
    secrets := server.secrets
    volumes := server.volumes }
  tick := fun _ => rfl
  answered := fun _ => rfl

theorem Sound.past {before after : Server} (sound : Sound before) (past : Past beyondGroups before after) : Sound after := by
  obtain ⟨later, same⟩ := past
  have tables : after.database.beyondGroups = before.database.beyondGroups := congrArg BeyondGroups.database same
  have clusters : after.clusters = before.clusters := congrArg BeyondGroups.clusters same
  have rows := Database.table_of_same tables Database.clusters fun _ => rfl
  have volumes := Database.table_of_same tables Database.volumes fun _ => rfl
  have access := Database.table_of_same tables Database.access fun _ => rfl
  exact {
    clusters := sound.clusters.past ⟨later, by simp only [clusterView, rows, clusters]⟩
    formed := rows ▸ sound.formed
    instances := sound.instances.kept later (Database.table_of_same tables Database.instances fun _ => rfl)
      (congrArg BeyondGroups.instances same)
    volumes := by
      have caches : after.volumes = before.volumes := congrArg BeyondGroups.volumes same
      unfold VolumesKnown
      rw [volumes, caches]
      exact sound.volumes
    readable := volumes ▸ sound.readable
    guests := by
      unfold Granted
      rw [access]
      exact sound.guests }

theorem SoundFor.past {before after : Server} {cID : String} (known : SoundFor before cID) (past : Past beyondGroups before after) :
    SoundFor after cID := by
  obtain ⟨later, same⟩ := past
  have tables : after.database.beyondGroups = before.database.beyondGroups := congrArg BeyondGroups.database same
  have caches : after.volumes = before.volumes := congrArg BeyondGroups.volumes same
  have clusters : after.clusters = before.clusters := congrArg BeyondGroups.clusters same
  refine ⟨known.claims.later later (by rw [caches]) fun id row _ => ?_, known.wildcard.later later (by rw [clusters]) ?_⟩
  · rw [Database.table_of_same tables Database.volumes fun _ => rfl]
  · rw [Granted, Database.table_of_same tables Database.access fun _ => rfl]
    rfl

structure MembersRemoved (groupID : String) (ids : List String) (before after : Server) : Prop where
  past : Past beyondGroups before after
  groups : after.database.groups = before.database.groups
  gone : ∀ uID ∈ ids, after.database.memberships.lookup (uID, groupID) = none
  fewer : ∀ key, before.database.memberships.lookup key = none → after.database.memberships.lookup key = none

private theorem returns_removeUserFromGroup_exactly {groupID : String} (formed : startsWith groupIDPrefix groupID = true) (uID : String)
    {server : Server} (succeeding : Succeeding server) :
    Returns (removeUserFromGroup uID groupID) server fun removed after => removed = true ∧ Past beyondGroups server after ∧
      after.database.groups = server.database.groups ∧
      after.database.memberships = AList.erase (uID, groupID) server.database.memberships := by
  unfold removeUserFromGroup forgetMembership forgetGroupOfUser deleteMembership
  simp only [normalizeGroupID_known formed, pure_bind, returns_bind, returns_modify, returns_request, returns_ite]
  cases server.groups.groupCache.lookup groupID with
  | none =>
    simp only [succeeding 0, if_true, returns_pure]
    exact ⟨trivial, ⟨(Later.answered _).trans (.of_eq rfl rfl), rfl⟩, rfl, rfl⟩
  | some record =>
    simp only [succeeding 0, if_true, returns_pure]
    exact ⟨trivial, ⟨(Later.answered _).trans (.of_eq rfl rfl), rfl⟩, rfl, rfl⟩

private theorem returns_removeMembers_exactly {groupID : String} (formed : startsWith groupIDPrefix groupID = true) (ids : List String)
    {server : Server} (succeeding : Succeeding server) :
    Returns (removeMembers groupID ids) server fun removed after => removed = true ∧ MembersRemoved groupID ids server after := by
  induction ids generalizing server with
  | nil => exact ⟨rfl, refl server, rfl, by simp, fun _ => id⟩
  | cons uID rest ih =>
    unfold removeMembers
    rw [returns_bind]
    refine (returns_removeUserFromGroup_exactly formed uID succeeding).mono ?_
    rintro removed middle ⟨rfl, past, groups, erased⟩
    refine (ih (past.1.succeeding succeeding)).mono ?_
    rintro removed after ⟨rfl, later⟩
    have first : middle.database.memberships.lookup (uID, groupID) = none := by
      rw [erased, FiniteMap.lookup_erase, if_pos rfl]
    refine ⟨rfl, IsTrans.trans _ _ _ past later.past, later.groups.trans groups, fun other member => ?_, fun key absent => ?_⟩
    · rcases List.mem_cons.mp member with rfl | inside
      · exact later.fewer _ first
      · exact later.gone other inside
    · refine later.fewer key ?_
      rw [erased, FiniteMap.lookup_erase, absent]
      split <;> rfl

private theorem returns_removeGroup_exactly {splitting : Splitting} {groupID : String}
    (formed : startsWith groupIDPrefix groupID = true) {server : Server} (succeeding : Succeeding server)
    (shows_ : splitting.memberships.Shows server.database.memberships fun key _ => key.2 = groupID) :
    Returns (splitting.removeGroup groupID) server fun removed after => removed = true ∧ Past beyondGroups server after ∧
      after.database.groups.lookup groupID = none ∧ ∀ uID, after.database.memberships.lookup (uID, groupID) = none := by
  unfold Splitting.removeGroup Splitting.getMembersOfGroup
  simp only [returns_bind, returns_request, succeeding 0, returns_ite, if_true, returns_get, returns_pure]
  have asked : Past beyondGroups server server.answered := ⟨.answered server, rfl⟩
  refine (returns_removeMembers_exactly formed _ (asked.1.succeeding succeeding)).mono ?_
  rintro removed middle ⟨rfl, members⟩
  have succeeds : middle.outcomes 0 = true := (asked.1.trans members.past.1).succeeding succeeding 0
  simp only [if_true, returns_modify, succeeds]
  refine ⟨trivial, IsTrans.trans _ _ _ asked (IsTrans.trans _ _ _ members.past ⟨(Later.answered _).trans (.of_eq rfl rfl), rfl⟩),
    (FiniteMap.lookup_erase _ _ _).trans (if_pos rfl), fun uID => ?_⟩
  -- a membership that is left would have been in the listing
  cases found : server.database.memberships.lookup (uID, groupID) with
  | none => exact members.fewer _ found
  | some row =>
    refine members.gone uID (List.mem_map.mpr ⟨((uID, groupID), row), shows_.queried found rfl ?_, rfl⟩)
    simp

/-- A group that is designated is found. -/
theorem returns_getGroup {server : Server} (coherent : ClustersCoherent server)
    (agree : GroupsAgree server.database.groups server.groups) {text groupID : String} {item : GroupItem}
    (single : GroupNameUnique server.database.groups text) (designated : DesignatesGroup server.database text groupID)
    (stored : server.database.groups.lookup groupID = some item) :
    Returns (getGroup text) server fun group after => group.valid = true ∧ group.id = groupID ∧ ClustersCoherent after ∧
      Touching none server after := by
  have leads := (leads_getGroup (looking_touching : Looking (Touching none)).caching text server).yields
  have ends := (regular_getGroup text server coherent).yields
  have found : Returns (getGroup text) server fun group _ => group.valid = true ∧ group.id = groupID := by
    unfold getGroup
    unfold DesignatesGroup at designated
    split at designated
    next known =>
      rw [if_pos known, designated]
      rw [designated] at stored
      unfold findGroupByID
      rw [returns_bind, returns_get, returns_bind]
      refine returns_cached ?_ ?_
      · intro entry cached _
        obtain ⟨same, row, found, whole⟩ := agree.byID text entry cached
        refine ⟨?_, same⟩
        rw [whole]
        rfl
      · intro passed moved
        have succeeds : passed.outcomes 0 = true := by rcases moved with rfl | rfl <;> exact coherent.succeeding 0
        have stored : passed.database.groups.lookup text = some item := by rcases moved with rfl | rfl <;> exact stored
        simp only [returns_bind, returns_request, succeeds, returns_ite, if_true, returns_get, answered_database, stored]
        exact ⟨rfl, rfl⟩
    next unknown =>
      rw [if_neg unknown]
      obtain ⟨row, found, named⟩ := designated
      refine returns_findGroupByName coherent.succeeding agree single ?_ ?_
      · rintro group after - valid rfl ⟨other, held, whole⟩
        refine ⟨valid, single _ _ _ _ held ?_ found named⟩
        rw [whole]
        rfl
      · exact fun after _ none => absurd named (none _ _ found)
  refine ((found.also ends).also leads).mono ?_
  rintro group after ⟨⟨⟨valid, same⟩, kept⟩, touched⟩
  exact ⟨valid, same, kept, touched⟩

section
variable {touched : Option TouchedKind} {before after : Server} (only : Touching touched before after)
  (other : touched ≠ some .volume)
include only other

theorem Sound.touching (sound : Sound before) (coherent : ClustersCoherent after) (known : InstancesKnown after) : Sound after where
  clusters := coherent
  formed := Database.table_of_same only.others Database.clusters (fun _ => rfl) ▸ sound.formed
  instances := known
  volumes := by
    unfold VolumesKnown
    rw [(only.volumes other).1, (only.volumes other).2]
    exact sound.volumes
  readable := (only.volumes other).1 ▸ sound.readable
  guests := by
    unfold Granted
    rw [Database.table_of_same only.others Database.access fun _ => rfl]
    exact sound.guests

theorem SoundFor.touching {cID : String} (known : SoundFor before cID) : SoundFor after cID where
  claims := by
    refine known.claims.later only.toLater (by rw [(only.volumes other).2]) fun id row _ => ?_
    rw [(only.volumes other).1]
  wildcard := by
    refine known.wildcard.later only.toLater (by rw [only.access]) ?_
    rw [Granted, Database.table_of_same only.others Database.access fun _ => rfl]
    rfl
end

structure GroupInstancesGone (groupID : String) (before after : Server) : Prop
    extends Touching (some .application) before after where
  rows : ∀ id row, after.database.instances.lookup id = some row →
    before.database.instances.lookup id = some row ∧ row.owningGroup ≠ groupID
  configs : ∀ id row, before.database.instances.lookup id = some row → row.owningGroup = groupID →
    after.database.instanceConfigs.lookup id = none

structure GroupSecretsGone (groupID : String) (before after : Server) : Prop
    extends Touching (some .secret) before after where
  rows : ∀ id row, after.database.secrets.lookup id = some row →
    before.database.secrets.lookup id = some row ∧ row.owningGroup ≠ groupID

section
variable {outside : Outside} (able : outside.Able) {server : Server} (coherent : ClustersCoherent server) {groupID : String}
  (formed : startsWith groupIDPrefix groupID = true)
include able coherent formed

private theorem returns_groupInstancesGone {splitting : Splitting} (known : InstancesKnown server)
    (covers : Covers server (server.instances.instanceByGroupCache.find groupID) server.database.instances
      fun row => row.owningGroup = groupID)
    (shows_ : splitting.instances.Shows server.database.instances fun _ row => row.owningGroup = groupID) :
    Returns (splitting.listApplicationInstancesByClusterOrGroup groupID "") server fun instances middle =>
      Returns (instances.forM fun inst => do
        let _ ← async (deleteApplicationInstance outside inst true)) middle fun _ after =>
          ClustersCoherent after ∧ InstancesKnown after ∧ GroupInstancesGone groupID server after := by
  refine (returns_listInstancesOfGroup coherent.succeeding known formed covers shows_).mono ?_
  rintro instances middle ⟨kept, reads, complete⟩
  refine (returns_forM instances _ middle (fun visited current => ClustersCoherent current ∧
    InstancesErased (visited.map ApplicationInstance.id) middle current) ?_ ?_).mono ?_
  · exact ⟨coherent.past reads.past, .none (refl middle)⟩
  · rintro visited inst rest current - ⟨coherent, erased⟩
    rw [returns_bind]
    refine (returns_async (returns_deleteApplicationInstance coherent able inst true)).mono ?_
    rintro _ after ⟨result, rfl, coherent, forced, done, -⟩
    refine ⟨coherent, ?_⟩
    simpa using erased.more (done (forced rfl))
  · rintro _ after ⟨coherent, erased⟩
    have table : middle.database = server.database := reads.database
    have rows := erased.table
    have configs := erased.configs
    rw [table] at rows configs
    refine ⟨coherent, erased.known kept, reads.toTouching.trans erased.toTouching, fun id row found => ?_,
      fun id row found owned => ?_⟩
    · rw [rows] at found
      split at found
      next => cases found
      next unlisted => exact ⟨found, fun owned => unlisted (complete id row found owned)⟩
    · exact (configs id).trans (if_pos (complete id row found owned))

private theorem returns_groupSecretsGone {splitting : Splitting}
    (covers : Covers server (server.secrets.secretByGroupCache.find groupID) server.database.secrets
      fun row => row.owningGroup = groupID)
    (shows_ : splitting.secrets.Shows server.database.secrets fun _ row => row.owningGroup = groupID) :
    Returns (splitting.listSecrets groupID "") server fun secrets middle =>
      Returns (secrets.forM fun secret => do
        let _ ← async (deleteSecret outside secret true true)) middle fun _ after =>
          ClustersCoherent after ∧ GroupSecretsGone groupID server after := by
  refine (returns_listSecretsOfGroup coherent.succeeding formed covers shows_).mono ?_
  rintro secrets middle ⟨reads, complete⟩
  refine (returns_forM secrets _ middle (fun visited current => ClustersCoherent current ∧
    SecretsErased (visited.map Secret.id) middle current) ?_ ?_).mono ?_
  · exact ⟨coherent.past reads.past, refl middle, .none _⟩
  · rintro visited secret rest current - ⟨coherent, erased⟩
    rw [returns_bind]
    refine (returns_async (returns_deleteSecret coherent able secret true)).mono ?_
    rintro _ after ⟨result, rfl, -, coherent, late⟩
    refine ⟨coherent, erased.toTouching.trans late.toTouching, ?_⟩
    simpa using erased.table.erase late.table
  · rintro _ after ⟨coherent, erased⟩
    have table : middle.database = server.database := reads.database
    refine ⟨coherent, reads.toTouching.trans erased.toTouching, fun id row found => ?_⟩
    rw [erased.table, table] at found
    split at found
    next => cases found
    next unlisted => exact ⟨found, fun owned => unlisted (complete id row found owned)⟩
end

/-- A task whose end is waited for leaves what it has led to. -/
theorem returns_async_ended {α : Type} {task : StoreM α} (regular : Regular task) (leads : Leads (Touching none) task)
    {server : Server} (coherent : ClustersCoherent server) :
    Returns (async task) server fun _ after => ClustersCoherent after ∧ Touching none server after := by
  unfold async
  rw [returns_tryCatch, ends_bind]
  refine ((regular server coherent).and (leads server)).mono (fun _ _ => id) ?_
  rintro thrown after ⟨⟨catchable, kept⟩, same⟩
  rw [if_neg catchable.unasserted]
  exact ⟨kept, same⟩

/-- What lies on the first pages still does when rows have been deleted. -/
theorem Splitting.ShowsCluster.later {splitting : Splitting} {cID : String} {before after : Database}
    (shows_ : splitting.ShowsCluster before cID)
    (secrets : ∀ id row, after.secrets.lookup id = some row → before.secrets.lookup id = some row)
    (volumes : ∀ id row, after.volumes.lookup id = some row → before.volumes.lookup id = some row)
    (guests : ∀ other group, Granted after other group → Granted before other group) : splitting.ShowsCluster after cID where
  secrets := shows_.secrets.part secrets
  volumes := shows_.volumes.part volumes
  guests := shows_.guests.part fun key row found => by
    obtain ⟨row', found'⟩ := Option.isSome_iff_exists.mp (guests key.1 key.2 (Option.isSome_iff_exists.mpr ⟨row, found⟩))
    exact found'

/-- The clusters of a list are deleted one by one. -/
theorem returns_deleteClusters {outside : Outside} {parse : String → Json} {splitting : Splitting} (able : outside.Able)
    {server : Server} (sound : Sound server) {clusters : List Cluster} (distinct : (clusters.map Cluster.id).Nodup)
    (recorded : ∀ cluster ∈ clusters, server.database.cluster cluster.id = some cluster)
    (soundFor : ∀ cluster ∈ clusters, SoundFor server cluster.id)
    (free : ∀ cluster ∈ clusters, Unmounted outside parse server.database cluster.id)
    (shows_ : ∀ cluster ∈ clusters, splitting.ShowsCluster server.database cluster.id) :
    Returns (clusters.forM fun cluster => do
      let _ ← async (deleteCluster outside parse splitting cluster true)) server fun _ after =>
        ClustersDeleted (clusters.map Cluster.id) server after := by
  apply returns_forM clusters _ server fun visited current => ClustersDeleted (visited.map Cluster.id) server current
  · exact .none sound
  · intro visited cluster rest current split deleted
    have member : cluster ∈ clusters := by simp [split]
    have fresh : cluster.id ∉ visited.map Cluster.id := by
      rw [split, List.map_append, List.nodup_append] at distinct
      exact fun seen => distinct.2.2 _ seen _ (by simp) rfl
    have recorded' : current.database.cluster cluster.id = some cluster := by
      unfold Database.cluster
      rw [deleted.clusters, if_neg fresh]
      exact recorded cluster member
    have free' : Unmounted outside parse current.database cluster.id := by
      intro other known id row found on
      rw [recorded'] at known
      cases known
      exact free cluster member cluster (recorded cluster member) id row ((deleted.volumes id row).mp found).1 on
    have shows' : splitting.ShowsCluster current.database cluster.id := (shows_ cluster member).later
      (fun id row found => (deleted.secrets id row found).1) (fun id row found => ((deleted.volumes id row).mp found).1)
      fun other group granted => ((deleted.granted other group).mp granted).1
    rw [returns_bind]
    refine (returns_async (returns_deleteCluster able deleted.sound recorded'
      (deleted.soundFor _ fresh (soundFor cluster member)) free' shows' true)).mono ?_
    rintro _ after ⟨result, rfl, forced, done⟩
    have more := deleted.more (done (forced rfl)).toClustersDeleted fresh
    simpa using more

/-- The cluster is on record as owned by the group. -/
def Owned (database : Database) (groupID cID : String) : Prop :=
  ∃ cluster, database.cluster cID = some cluster ∧ cluster.owningGroup = groupID

structure ClusterTablesKept (before after : Server) : Prop where
  clusters : after.database.clusters = before.database.clusters
  volumes : after.database.volumes = before.database.volumes
  access : after.database.access = before.database.access
  applications : after.database.applications = before.database.applications

theorem ClusterTablesKept.trans {first second third : Server} (early : ClusterTablesKept first second)
    (late : ClusterTablesKept second third) : ClusterTablesKept first third :=
  ⟨late.clusters.trans early.clusters, late.volumes.trans early.volumes, late.access.trans early.access,
    late.applications.trans early.applications⟩

theorem ClusterTablesKept.of_touching {touched : Option TouchedKind} {before after : Server}
    (only : Touching touched before after) (other : touched ≠ some .volume) : ClusterTablesKept before after :=
  ⟨Database.table_of_same only.others Database.clusters fun _ => rfl, (only.volumes other).1,
    Database.table_of_same only.others Database.access fun _ => rfl,
    Database.table_of_same only.others Database.applications fun _ => rfl⟩

private theorem ClusterTablesKept.of_past {before after : Server} (past : Past beyondGroups before after) :
    ClusterTablesKept before after := by
  have tables : after.database.beyondGroups = before.database.beyondGroups := congrArg BeyondGroups.database past.2
  exact ⟨Database.table_of_same tables Database.clusters fun _ => rfl, Database.table_of_same tables Database.volumes fun _ => rfl,
    Database.table_of_same tables Database.access fun _ => rfl, Database.table_of_same tables Database.applications fun _ => rfl⟩

/-- What is cached about a group, and about the clusters it owns, is true; and no pod mounts
a claim on one of these. -/
structure SoundForGroup (outside : Outside) (parse : String → Json) (server : Server) (groupID : String) : Prop where
  formed : startsWith groupIDPrefix groupID = true
  instances : Covers server (server.instances.instanceByGroupCache.find groupID) server.database.instances
    fun row => row.owningGroup = groupID
  secrets : Covers server (server.secrets.secretByGroupCache.find groupID) server.database.secrets
    fun row => row.owningGroup = groupID
  owned : ∀ cID, Owned server.database groupID cID → SoundFor server cID ∧ Unmounted outside parse server.database cID

/-- What belongs to a group, and to the clusters it owns, lies on the first pages of the tables. -/
structure Splitting.ShowsGroup (splitting : Splitting) (database : Database) (groupID : String) : Prop where
  members : splitting.memberships.Shows database.memberships fun key _ => key.2 = groupID
  instances : splitting.instances.Shows database.instances fun _ row => row.owningGroup = groupID
  secrets : splitting.secrets.Shows database.secrets fun _ row => row.owningGroup = groupID
  owned : ∀ cID, Owned database groupID cID → splitting.ShowsCluster database cID

structure GroupDeleted (groupID : String) (before after : Server) : Prop where
  record : after.database.groups.lookup groupID = none
  memberships : ∀ uID, after.database.memberships.lookup (uID, groupID) = none
  instances : ∀ id row, after.database.instances.lookup id = some row → row.owningGroup ≠ groupID
  configs : ∀ id row, before.database.instances.lookup id = some row → row.owningGroup = groupID →
    after.database.instanceConfigs.lookup id = none
  secrets : ∀ id row, after.database.secrets.lookup id = some row → row.owningGroup ≠ groupID
  volumes : Leaves (fun row => Owned before.database groupID row.cluster) before.database.volumes after.database.volumes
  clusters : ∀ cID row, after.database.clusters.lookup cID = some row → row.owningGroup ≠ some groupID
  granted : ∀ cID group, Granted after.database cID group ↔ Granted before.database cID group ∧
    (Owned before.database groupID cID → Granted before.database cID wildcard ∧ group ≠ wildcard)
  applications : after.database.applications = before.database.applications

/-- What is left to do once the instances and the secrets of the group are gone. -/
theorem returns_deleteOwnedClusters {outside : Outside} {parse : String → Json} {splitting : Splitting}
    (able : outside.Able) {server : Server} (sound : Sound server) {groupID : String}
    (owned : ∀ cID, Owned server.database groupID cID → SoundFor server cID ∧ Unmounted outside parse server.database cID)
    (shows_ : ∀ cID, Owned server.database groupID cID → splitting.ShowsCluster server.database cID) :
    Returns (do
      let clusters ← listClusters
      clusters.forM fun cluster => do
        let _ ← async (configPathForCluster cluster.id)
      (clusters.filter fun cluster => cluster.owningGroup = groupID).forM fun cluster => do
        let _ ← async (deleteCluster outside parse splitting cluster true)
      return 200) server fun status after => status = 200 ∧ ∃ ids middle, (∀ cID, cID ∈ ids ↔ Owned server.database groupID cID) ∧
        Touching none server middle ∧ ClustersDeleted ids middle after := by
  rw [returns_bind]
  refine ((returns_listClusters_exact sound.clusters).also
    (leads_listClusters (looking_touching : Looking (Touching none)) server).yields).mono ?_
  rintro clusters listed ⟨⟨moved, distinct, members⟩, touched⟩
  rw [returns_bind]
  refine (returns_forM clusters _ listed (fun _ current => ClustersCoherent current ∧ Touching none server current)
    ⟨moved.coherent, touched⟩ ?_).mono ?_
  · rintro _ cluster _ current - ⟨coherent, same⟩
    rw [returns_bind]
    refine (returns_async_ended (regular_configPathForCluster cluster.id)
      (leads_configPathForCluster looking_touching cluster.id) coherent).mono ?_
    rintro _ next ⟨kept, more⟩
    exact ⟨kept, same.trans more⟩
  · rintro _ middle ⟨coherent, same⟩
    have tables := ClusterTablesKept.of_touching same (by simp)
    have known := sound.instances.kept same.toLater (same.applications (by simp)).1 (same.applications (by simp)).2.2
    have sound' := sound.touching same (by simp) coherent known
    have chosen : ∀ cluster ∈ clusters.filter fun cluster => cluster.owningGroup = groupID,
        server.database.cluster cluster.id = some cluster ∧ cluster.owningGroup = groupID := by
      intro cluster member
      obtain ⟨member, owner⟩ := List.mem_filter.mp member
      exact ⟨(members cluster).mp member, of_decide_eq_true owner⟩
    have ownedBy : ∀ cluster ∈ clusters.filter fun cluster => cluster.owningGroup = groupID,
        Owned server.database groupID cluster.id := fun cluster member => ⟨cluster, chosen cluster member⟩
    rw [returns_bind]
    refine (returns_deleteClusters able sound' (distinct.sublist (List.filter_sublist.map _)) ?_ ?_ ?_ ?_).mono ?_
    · intro cluster member
      unfold Database.cluster
      rw [tables.clusters]
      exact (chosen cluster member).1
    · exact fun cluster member => (owned cluster.id (ownedBy cluster member)).1.touching same (by simp)
    · intro cluster member
      unfold Unmounted Database.cluster
      rw [tables.volumes, tables.clusters]
      exact (owned cluster.id (ownedBy cluster member)).2
    · intro cluster member
      refine (shows_ cluster.id (ownedBy cluster member)).later (fun _ _ found => ?_) (fun _ _ found => ?_) fun _ _ held => ?_
      · rwa [(same.secrets (by simp)).1] at found
      · rwa [tables.volumes] at found
      · rwa [Granted, tables.access] at held
    · intro _ after deleted
      refine ⟨rfl, _, middle, fun cID => ⟨fun member => ?_, fun hasOwner => ?_⟩, same, deleted⟩
      · obtain ⟨cluster, inside, rfl⟩ := List.mem_map.mp member
        exact ownedBy cluster inside
      · obtain ⟨cluster, known, owner⟩ := hasOwner
        obtain ⟨item, -, read⟩ := Option.bind_eq_some_iff.mp known
        have named := (ClusterItem.reads read).id
        refine List.mem_map.mpr ⟨cluster, List.mem_filter.mpr ⟨(members cluster).mpr (named ▸ known), ?_⟩, named⟩
        exact decide_eq_true owner

/-- What is gone with the group before any cluster is. -/
structure GroupEmptied (groupID : String) (before after : Server) : Prop where
  tables : ClusterTablesKept before after
  record : after.database.groups.lookup groupID = none
  memberships : ∀ uID, after.database.memberships.lookup (uID, groupID) = none
  instances : ∀ id row, after.database.instances.lookup id = some row → row.owningGroup ≠ groupID
  configs : ∀ id row, before.database.instances.lookup id = some row → row.owningGroup = groupID →
    after.database.instanceConfigs.lookup id = none
  secrets : ∀ id row, after.database.secrets.lookup id = some row →
    before.database.secrets.lookup id = some row ∧ row.owningGroup ≠ groupID

theorem GroupEmptied.of_steps {groupID : String} {server second third fourth : Server}
    (tables : ClusterTablesKept server second) (record : second.database.groups.lookup groupID = none)
    (memberships : ∀ uID, second.database.memberships.lookup (uID, groupID) = none)
    (instanceTable : second.database.instances = server.database.instances)
    (secretTable : second.database.secrets = server.database.secrets)
    (withoutInstances : GroupInstancesGone groupID second third) (withoutSecrets : GroupSecretsGone groupID third fourth) :
    GroupEmptied groupID server fourth where
  tables := tables.trans ((ClusterTablesKept.of_touching withoutInstances.toTouching (by decide)).trans
    (.of_touching withoutSecrets.toTouching (by decide)))
  record := by
    rw [Database.table_of_same (withoutSecrets.others.trans withoutInstances.others) Database.groups fun _ => rfl]
    exact record
  memberships := by
    rw [Database.table_of_same (withoutSecrets.others.trans withoutInstances.others) Database.memberships fun _ => rfl]
    exact memberships
  instances id row found := by
    rw [(withoutSecrets.applications (by decide)).1] at found
    exact (withoutInstances.rows id row found).2
  configs id row found owned := by
    rw [(withoutSecrets.applications (by decide)).2.1]
    exact withoutInstances.configs id row (instanceTable ▸ found) owned
  secrets id row found := by
    obtain ⟨earlier, owner⟩ := withoutSecrets.rows id row found
    rw [(withoutInstances.secrets (by decide)).1, secretTable] at earlier
    exact ⟨earlier, owner⟩

theorem GroupEmptied.owned {groupID : String} {before after : Server} (emptied : GroupEmptied groupID before after) (cID : String) :
    Owned after.database groupID cID ↔ Owned before.database groupID cID := by
  unfold Owned Database.cluster
  rw [emptied.tables.clusters]

theorem GroupEmptied.unmounted {outside : Outside} {parse : String → Json} {groupID cID : String} {before after : Server}
    (emptied : GroupEmptied groupID before after) (free : Unmounted outside parse before.database cID) :
    Unmounted outside parse after.database cID := by
  unfold Unmounted Database.cluster
  rw [emptied.tables.volumes, emptied.tables.clusters]
  exact free

theorem GroupEmptied.shows {splitting : Splitting} {groupID cID : String} {before after : Server}
    (emptied : GroupEmptied groupID before after) (shows_ : splitting.ShowsCluster before.database cID) :
    splitting.ShowsCluster after.database cID := by
  refine shows_.later (fun id row found => (emptied.secrets id row found).1) (fun id row found => ?_)
    fun other group held => ?_
  · rwa [emptied.tables.volumes] at found
  · rwa [Granted, emptied.tables.access] at held

theorem GroupDeleted.of_emptied {groupID : String} {ids : List String} {server fourth middle after : Server}
    (sound : Sound server) (emptied : GroupEmptied groupID server fourth) (same : Touching none fourth middle)
    (deleted : ClustersDeleted ids middle after) (owners : ∀ cID, cID ∈ ids ↔ Owned fourth.database groupID cID) :
    GroupDeleted groupID server after := by
  have last := emptied.tables.trans (.of_touching same (by simp))
  have chosen : ∀ cID, cID ∈ ids ↔ Owned server.database groupID cID := fun cID => (owners cID).trans (emptied.owned cID)
  have granted : ∀ cID other, Granted middle.database cID other ↔ Granted server.database cID other := by
    intro cID other
    rw [Granted, last.access]
    rfl
  obtain ⟨sameRows, sameConfigs, -⟩ := same.applications (by simp)
  exact {
    record := by
      rw [deleted.kept.1, Database.table_of_same same.others Database.groups fun _ => rfl]
      exact emptied.record
    memberships := by
      rw [deleted.kept.2.1, Database.table_of_same same.others Database.memberships fun _ => rfl]
      exact emptied.memberships
    instances := fun id row found => by
      have found := ((deleted.instances id row).mp found).1
      rw [sameRows] at found
      exact emptied.instances id row found
    configs := fun id row found owned => by
      have gone := emptied.configs id row found owned
      rw [← sameConfigs] at gone
      cases again : after.database.instanceConfigs.lookup id with
      | none => rfl
      | some text => cases gone.symm.trans (deleted.fewerConfigs id text again)
    secrets := fun id row found => by
      have found := (deleted.secrets id row found).1
      rw [(same.secrets (by simp)).1] at found
      exact (emptied.secrets id row found).2
    volumes := by
      rw [← last.volumes]
      exact deleted.volumes.congr fun row => chosen row.cluster
    clusters := fun cID row found owner => by
      rw [deleted.clusters] at found
      split at found
      next => cases found
      next kept =>
        rw [last.clusters] at found
        obtain ⟨cluster, read⟩ := Option.isSome_iff_exists.mp (sound.clusters.view.complete cID row found)
        have named := (ClusterItem.reads read).owningGroup
        refine kept ((chosen cID).mpr ⟨cluster, ?_, Option.some.inj (named.symm.trans owner)⟩)
        simp [Database.cluster, found, read]
    granted := fun cID other => by
      rw [deleted.granted, granted, granted, chosen]
    applications := deleted.kept.2.2.trans last.applications }

theorem returns_deleteGroup {outside : Outside} {parse : String → Json} {splitting : Splitting} (able : outside.Able)
    {server : Server} (sound : Sound server)
    (agree : GroupsAgree server.database.groups server.groups) {text groupID : String} {item : GroupItem}
    (single : GroupNameUnique server.database.groups text) (designated : DesignatesGroup server.database text groupID)
    (stored : server.database.groups.lookup groupID = some item) (soundFor : SoundForGroup outside parse server groupID)
    (shows_ : splitting.ShowsGroup server.database groupID) :
    Returns (deleteGroup outside parse splitting text) server fun status after => status = 200 ∧ GroupDeleted groupID server after := by
  unfold deleteGroup
  rw [returns_bind]
  refine (returns_getGroup sound.clusters agree single designated stored).mono ?_
  rintro group first ⟨valid, rfl, coherent, looked⟩
  have known := sound.instances.kept looked.toLater (looked.applications (by simp)).1 (looked.applications (by simp)).2.2
  have sound' := sound.touching looked (by simp) coherent known
  simp only [valid, Bool.not_true, Bool.false_eq_true, if_false, returns_bind]
  have memberTable : first.database.memberships = server.database.memberships :=
    Database.table_of_same looked.others Database.memberships fun _ => rfl
  refine (returns_removeGroup_exactly soundFor.formed coherent.succeeding (memberTable ▸ shows_.members)).mono ?_
  rintro removed second ⟨rfl, past, record, memberships⟩
  simp only [if_true]
  have sound' := sound'.past past
  have tables := (ClusterTablesKept.of_touching looked (by simp)).trans (.of_past past)
  have later := looked.toLater.trans past.1
  have restricted : second.database.beyondGroups = first.database.beyondGroups := congrArg BeyondGroups.database past.2
  have instanceTable : second.database.instances = server.database.instances :=
    (Database.table_of_same restricted Database.instances fun _ => rfl).trans (looked.applications (by simp)).1
  have instanceCaches : second.instances = server.instances :=
    (congrArg BeyondGroups.instances past.2).trans (looked.applications (by simp)).2.2
  have secretTable : second.database.secrets = server.database.secrets :=
    (Database.table_of_same restricted Database.secrets fun _ => rfl).trans (looked.secrets (by simp)).1
  have secretCaches : second.secrets = server.secrets :=
    (congrArg BeyondGroups.secrets past.2).trans (looked.secrets (by simp)).2
  rw [returns_bind]
  refine (returns_groupInstancesGone able sound'.clusters soundFor.formed sound'.instances ?_
    (instanceTable ▸ shows_.instances)).mono ?_
  · rw [instanceTable, instanceCaches]
    exact soundFor.instances.later later
  intro instances _ deleting
  rw [returns_bind]
  refine deleting.mono ?_
  rintro _ third ⟨coherent, known, withoutInstances⟩
  have sound' := sound'.touching withoutInstances.toTouching (by decide) coherent known
  rw [returns_bind]
  have secretTable' : third.database.secrets = server.database.secrets :=
    (withoutInstances.secrets (by decide)).1.trans secretTable
  refine (returns_groupSecretsGone able coherent soundFor.formed ?_ (secretTable' ▸ shows_.secrets)).mono ?_
  · rw [(withoutInstances.secrets (by decide)).1, (withoutInstances.secrets (by decide)).2, secretTable, secretCaches]
    exact soundFor.secrets.later (later.trans withoutInstances.toLater)
  intro secrets _ deleting
  rw [returns_bind]
  refine deleting.mono ?_
  rintro _ fourth ⟨coherent, withoutSecrets⟩
  have known := known.kept withoutSecrets.toLater (withoutSecrets.applications (by decide)).1
    (withoutSecrets.applications (by decide)).2.2
  have sound' := sound'.touching withoutSecrets.toTouching (by decide) coherent known
  have emptied := GroupEmptied.of_steps tables record memberships instanceTable secretTable withoutInstances withoutSecrets
  refine (returns_deleteOwnedClusters able sound' (fun cID owned => ?_) fun cID owned => ?_).mono ?_
  · obtain ⟨trusted, free⟩ := soundFor.owned cID ((emptied.owned cID).mp owned)
    have first := trusted.touching looked (by simp)
    have second := first.past past
    exact ⟨(second.touching withoutInstances.toTouching (by decide)).touching withoutSecrets.toTouching (by decide),
      emptied.unmounted free⟩
  · exact emptied.shows (shows_.owned cID ((emptied.owned cID).mp owned))
  · rintro status after ⟨rfl, ids, middle, owners, same, deleted⟩
    exact ⟨rfl, .of_emptied sound emptied same deleted owners⟩

end Slate
