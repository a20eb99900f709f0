import Slate.Proofs.DeletedClusters

/-! The whole deletion of a cluster, and what it leaves for the deletions that follow. -/

namespace Slate
open Library

/-- What is cached is true, and every row is in order. -/
structure Sound (server : Server) : Prop where
  clusters : ClustersCoherent server
  formed : ∀ id row, server.database.clusters.lookup id = some row → startsWith clusterIDPrefix id = true
  instances : InstancesKnown server
  volumes : VolumesKnown server
  readable : ∀ id row, server.database.volumes.lookup id = some row → row.Readable
  guests : ∀ cID group, Granted server.database cID group → Guest group

/-- What is cached about what is on a cluster is true. -/
structure SoundFor (server : Server) (cID : String) : Prop where
  claims : ClaimsKnown server cID
  wildcard : WildcardKnown server cID

/-- Every row is in order, as far as groups, clusters and claims are concerned. -/
structure Database.InOrder (database : Database) : Prop where
  complete : ∀ id item, database.clusters.lookup id = some item → (item.read id).isSome
  unique : ∀ name id item id' item', database.clusters.lookup id = some item → item.name = some name →
    database.clusters.lookup id' = some item' → item'.name = some name → id = id'
  formed : ∀ id row, database.clusters.lookup id = some row → startsWith clusterIDPrefix id = true
  readable : ∀ id row, database.volumes.lookup id = some row → row.Readable
  guests : ∀ cID group, Granted database cID group → Guest group

/-- A server that has just started knows nothing that is not true. -/
theorem Sound.of_fresh {server : Server} (order : server.database.InOrder) (clusters : server.clusters = {})
    (instances : server.instances = {}) (volumes : server.volumes = {}) (steady : Steady server)
    (succeeding : Succeeding server) : Sound server where
  clusters := .of_fresh clusters order.complete order.unique steady succeeding
  formed := order.formed
  instances := by
    unfold InstancesKnown
    rw [instances]
    exact .empty _ _ _
  volumes := by
    intro id entry found
    rw [volumes] at found
    cases found
  readable := order.readable
  guests := order.guests

theorem SoundFor.of_fresh {server : Server} (clusters : server.clusters = {}) (volumes : server.volumes = {}) (cID : String) :
    SoundFor server cID where
  claims := by
    refine ⟨fun entry member => ?_, fun trusted => ?_⟩
    · rw [volumes] at member
      cases member
    · rw [volumes] at trusted
      exact absurd trusted (not_trusted_zero server)
  wildcard := by
    refine ⟨fun record found => ?_, fun record found => ?_⟩ <;>
    · rw [clusters] at found
      cases found

/-- No pod that the cluster lists mounts a claim on it. -/
def Unmounted (outside : Outside) (parse : String → Json) (database : Database) (cID : String) : Prop :=
  ∀ cluster, database.cluster cID = some cluster → ∀ id row, database.volumes.lookup id = some row → row.cluster = cID →
    Unused outside parse cluster.config row.name

/-- What belongs to a cluster lies on the first pages of the tables. -/
structure Splitting.ShowsCluster (splitting : Splitting) (database : Database) (cID : String) : Prop where
  secrets : splitting.secrets.Shows database.secrets fun _ row => row.cluster = cID
  volumes : splitting.volumes.Shows database.volumes fun _ row => row.cluster = cID
  guests : splitting.access.Shows database.access fun key _ => key.1 = cID

def Leaves {κ α : Type} [DecidableEq κ] (chosen : α → Prop) (before after : FiniteMap κ α) : Prop :=
  ∀ id row, after.lookup id = some row ↔ before.lookup id = some row ∧ ¬ chosen row

private theorem Leaves.of_without {κ α : Type} [DecidableEq κ] {chosen : α → Prop} {ids : List κ} {before after : FiniteMap κ α}
    (without : Without ids before after) (all : ∀ id row, before.lookup id = some row → chosen row → id ∈ ids)
    (only : ∀ id ∈ ids, ∀ row, before.lookup id = some row → chosen row) : Leaves chosen before after := by
  intro id row
  rw [without]
  split
  next erased =>
    refine ⟨nofun, fun ⟨found, kept⟩ => absurd (only id erased row found) kept⟩
  next kept =>
    exact ⟨fun found => ⟨found, fun picked => kept (all id row found picked)⟩, And.left⟩

structure InstancesGone (cID : String) (before after : Server) : Prop extends Touching (some .application) before after where
  rows : Leaves (fun row => row.cluster = cID) before.database.instances after.database.instances
  configs : ∀ id row, before.database.instances.lookup id = some row → row.cluster = cID →
    after.database.instanceConfigs.lookup id = none
  fewer : ∀ id text, after.database.instanceConfigs.lookup id = some text → before.database.instanceConfigs.lookup id = some text

structure SecretsGone (cID : String) (before after : Server) : Prop extends Touching (some .secret) before after where
  rows : ∀ id row, after.database.secrets.lookup id = some row → before.database.secrets.lookup id = some row ∧ row.cluster ≠ cID

structure VolumesGone (cID : String) (before after : Server) : Prop extends Touching (some .volume) before after where
  rows : Leaves (fun row => row.cluster = cID) before.database.volumes after.database.volumes
  elsewhere : ∀ other, other ≠ cID →
    after.volumes.volumeByClusterCache.find other = before.volumes.volumeByClusterCache.find other

section
variable {outside : Outside} (able : outside.Able) {server : Server} (coherent : ClustersCoherent server)
include able coherent

private theorem returns_instancesGone (known : InstancesKnown server) (cID : String) (force : Bool) :
    Returns listApplicationInstances server fun instances middle =>
      Returns (deleteInstances outside force (instances.filter fun inst => inst.cluster = cID)) middle fun result after =>
        ClustersCoherent after ∧ (force = true → result = "") ∧
          (result = "" → InstancesKnown after ∧ InstancesGone cID server after) := by
  refine (returns_listApplicationInstances_known coherent.succeeding known).mono ?_
  rintro instances middle ⟨kept, reads, lists⟩
  have table : middle.database = server.database := reads.database
  refine (returns_deleteInstances able (coherent.past reads.past) force _).mono ?_
  rintro result after ⟨coherent', forced, done⟩
  refine ⟨coherent', forced, fun none => ?_⟩
  have erased := done none
  have chosen : ∀ id row, server.database.instances.lookup id = some row → row.cluster = cID →
      id ∈ (instances.filter fun inst => inst.cluster = cID).map ApplicationInstance.id := by
    intro id row found on
    obtain ⟨inst, member, named⟩ := lists.complete id row found trivial
    obtain ⟨row', found', read, -⟩ := lists.sound inst member
    rw [ident_instance] at named found'
    rw [named, found] at found'
    refine List.mem_map.mpr ⟨inst, List.mem_filter.mpr ⟨member, ?_⟩, named⟩
    have same := congrArg InstanceItem.cluster read.2
    rw [← Option.some.inj found', on] at same
    exact decide_eq_true same
  have only : ∀ id ∈ (instances.filter fun inst => inst.cluster = cID).map ApplicationInstance.id, ∀ row,
      server.database.instances.lookup id = some row → row.cluster = cID := by
    intro id picked row found
    obtain ⟨inst, member, rfl⟩ := List.mem_map.mp picked
    obtain ⟨member, on⟩ := List.mem_filter.mp member
    obtain ⟨row', found', read, -⟩ := lists.sound inst member
    rw [ident_instance, found] at found'
    have same := congrArg InstanceItem.cluster read.2
    rw [← Option.some.inj found'] at same
    exact same.symm.trans (of_decide_eq_true on)
  have rows := erased.table
  have configs := erased.configs
  rw [table] at rows configs
  refine ⟨erased.known kept, reads.toTouching.trans erased.toTouching, .of_without rows chosen only, ?_, ?_⟩
  · intro id row found on
    rw [configs, if_pos (chosen id row found on)]
  · intro id text found
    rw [configs] at found
    split at found
    next => cases found
    next => exact found

private theorem returns_secretsGone {splitting : Splitting} {cID : String} (formed : startsWith clusterIDPrefix cID = true)
    (shows_ : splitting.secrets.Shows server.database.secrets fun _ row => row.cluster = cID) (reachable : Bool) :
    Returns (splitting.listSecrets "" cID) server fun secrets middle =>
      Returns (secrets.mapM fun secret => async (deleteSecret outside secret true reachable)) middle fun deletions after =>
        ClustersCoherent after ∧ SecretsGone cID server after ∧ ∀ deletion ∈ deletions, deletion = .ok "" := by
  refine (returns_listSecretsOnCluster coherent.succeeding formed shows_).mono ?_
  rintro secrets middle ⟨reads, complete⟩
  have table : middle.database = server.database := reads.database
  refine (returns_deleteSecrets able (coherent.past reads.past) reachable secrets).mono ?_
  rintro deletions after ⟨coherent', erased, done⟩
  refine ⟨coherent', ⟨reads.toTouching.trans erased.toTouching, fun id row found => ?_⟩, done⟩
  rw [erased.table, table] at found
  split at found
  next => cases found
  next kept => exact ⟨found, fun on => kept (complete id row found on)⟩

private theorem returns_volumesGone {splitting : Splitting} {parse : String → Json} (known : VolumesKnown server)
    (readable : ∀ id row, server.database.volumes.lookup id = some row → row.Readable) {cluster : Cluster}
    {cID : String} (recorded : server.database.cluster cID = some cluster)
    (formed : startsWith clusterIDPrefix cID = true) (claims : ClaimsKnown server cID)
    (free : Unmounted outside parse server.database cID)
    (shows_ : splitting.volumes.Shows server.database.volumes fun _ row => row.cluster = cID) (reachable : Bool) :
    Returns (splitting.listPersistentVolumeClaimsByClusterOrGroup "" cID) server fun volumes middle =>
      Returns (volumes.mapM fun volume => async (deleteVolumeClaim outside parse volume true reachable)) middle fun deletions after =>
        ClustersCoherent after ∧ VolumesKnown after ∧ VolumesGone cID server after ∧
          ∀ deletion ∈ deletions, deletion = .ok "" := by
  refine (returns_listVolumesOnCluster coherent.succeeding known readable formed claims shows_).mono ?_
  rintro volumes middle ⟨kept, listed, complete, faithful⟩
  have table : middle.database = server.database := listed.database
  have only : ∀ pvc ∈ volumes, ∀ row, server.database.volumes.lookup pvc.id = some row → row.cluster = cID := by
    intro pvc member row found
    obtain ⟨row', found', -, on⟩ := faithful pvc member
    rw [found] at found'
    exact Option.some.inj found' ▸ on
  refine (returns_deleteVolumes able (coherent.past listed.past) reachable (table.symm ▸ recorded) kept ?_
    (table.symm ▸ only)).mono ?_
  · intro pvc member
    obtain ⟨row, found, read, on⟩ := faithful pvc member
    rw [VolumeRead.name read]
    exact ⟨read.keys.2.trans on, free cluster recorded _ row found on⟩
  · rintro deletions after ⟨coherent', erased, done⟩
    have rows := erased.table
    rw [table] at rows
    refine ⟨coherent', erased.known kept, ⟨listed.toTouching.trans erased.toTouching, ?_, ?_⟩, done⟩
    · refine .of_without rows complete fun id picked row found => ?_
      obtain ⟨pvc, member, rfl⟩ := List.mem_map.mp picked
      exact only pvc member row found
    · exact fun other different => (erased.elsewhere other different).trans (listed.elsewhere other different)

private theorem returns_pingCluster {cluster : Cluster} (recorded : server.database.cluster cluster.id = some cluster) :
    Returns (pingCluster outside cluster) server fun _ after => ClustersCoherent after ∧ Touching none server after := by
  have returns : Returns (pingCluster outside cluster) server fun _ after => ClustersCoherent after := by
    unfold pingCluster
    rw [returns_bind]
    refine (returns_configPathForCluster_exact coherent recorded).mono ?_
    rintro config middle ⟨-, read⟩
    unfold kubectl runCommand
    obtain ⟨result, ran⟩ := able "kubectl" ("--request-timeout=10s" ::
      (if config ≠ "" then ["--kubeconfig=" ++ config] else []) ++
        ["get", "serviceaccounts", "-o=jsonpath={.items[*].metadata.name}"]) []
    simp only [ran, returns_bind, returns_pure]
    exact read.coherent
  exact returns.also (leads_pingCluster looking_touching outside cluster server).yields

omit able in
private theorem returns_listGroups : Returns listGroups server fun _ after => ClustersCoherent after ∧ Touching none server after := by
  have passes : Passes clusterView listGroups := by
    unfold listGroups
    refine Passes.now.bind fun _ => Passes.gets.bind fun _ => .ite (fun _ => Passes.gets.bind fun _ => .pure _) fun _ => ?_
    refine Passes.request.bind fun _ => .ite (fun _ => Passes.gets.bind fun _ => ?_) fun _ => .pure _
    refine Passes.bind ?_ fun _ => Passes.now.bind fun _ => Passes.bind ?_ fun _ => .pure _
    · exact .mapM fun _ _ => (passes_cacheGroup _).bind fun _ => .pure _
    · exact .modifies (fun _ => rfl) (fun _ => rfl) fun _ => rfl
  exact ((passes server).mono fun _ _ past => coherent.past past).also
    (leads_listGroups (looking_touching : Looking (Touching none)).toLookingGroups server).yields

end

/-- All that is gone when clusters have been deleted one by one, and what is kept. -/
structure ClustersDeleted (ids : List String) (before after : Server) : Prop extends Later before after where
  sound : Sound after
  soundFor : ∀ other, other ∉ ids → SoundFor before other → SoundFor after other
  instances : Leaves (fun row => row.cluster ∈ ids) before.database.instances after.database.instances
  configs : ∀ id row, before.database.instances.lookup id = some row → row.cluster ∈ ids →
    after.database.instanceConfigs.lookup id = none
  fewerConfigs : ∀ id text, after.database.instanceConfigs.lookup id = some text →
    before.database.instanceConfigs.lookup id = some text
  secrets : ∀ id row, after.database.secrets.lookup id = some row →
    before.database.secrets.lookup id = some row ∧ row.cluster ∉ ids
  volumes : Leaves (fun row => row.cluster ∈ ids) before.database.volumes after.database.volumes
  clusters : Without ids before.database.clusters after.database.clusters
  granted : ∀ cID group, Granted after.database cID group ↔ Granted before.database cID group ∧
    (cID ∈ ids → Granted before.database cID wildcard ∧ group ≠ wildcard)
  kept : after.database.groups = before.database.groups ∧ after.database.memberships = before.database.memberships ∧
    after.database.applications = before.database.applications

structure ClusterDeleted (cID : String) (before after : Server) : Prop extends ClustersDeleted [cID] before after where
  locations : after.database.locations.lookup cID = none
  freed : CredentialFreed before.database after.database cID

theorem Leaves.congr {κ α : Type} [DecidableEq κ] {chosen other : α → Prop} {before after : FiniteMap κ α}
    (leaves : Leaves chosen before after) (same : ∀ row, chosen row ↔ other row) : Leaves other before after := by
  intro id row
  rw [← same]
  exact leaves id row

theorem Leaves.none {κ α : Type} [DecidableEq κ] {chosen : α → Prop} (never : ∀ row, ¬ chosen row) (table : FiniteMap κ α) :
    Leaves chosen table table := fun _ row => ⟨fun found => ⟨found, never row⟩, And.left⟩

theorem Leaves.trans {κ α : Type} [DecidableEq κ] {first second both : α → Prop} {before middle after : FiniteMap κ α}
    (early : Leaves first before middle) (late : Leaves second middle after)
    (either : ∀ row, both row ↔ first row ∨ second row) : Leaves both before after := by
  intro id row
  rw [late id row, early id row, either, not_or, and_assoc]

theorem Without.trans {κ α : Type} [DecidableEq κ] {first second : List κ} {before middle after : FiniteMap κ α}
    (early : Without first before middle) (late : Without second middle after) : Without (first ++ second) before after := by
  intro id
  rw [late, early]
  by_cases inSecond : id ∈ second <;> by_cases inFirst : id ∈ first <;> simp [inSecond, inFirst]

theorem ClustersDeleted.none {server : Server} (sound : Sound server) : ClustersDeleted [] server server where
  toLater := .refl server
  sound := sound
  soundFor := fun _ _ known => known
  instances := .none (by simp) _
  configs := by simp
  fewerConfigs := fun _ _ found => found
  secrets := by simp
  volumes := .none (by simp) _
  clusters := .none _
  granted := by simp
  kept := ⟨rfl, rfl, rfl⟩

theorem ClustersDeleted.more {ids : List String} {cID : String} {before middle after : Server}
    (early : ClustersDeleted ids before middle) (late : ClustersDeleted [cID] middle after) (other : cID ∉ ids) :
    ClustersDeleted (ids ++ [cID]) before after where
  toLater := early.toLater.trans late.toLater
  sound := late.sound
  soundFor := by
    intro third absent known
    rw [List.mem_append, not_or] at absent
    exact late.soundFor third absent.2 (early.soundFor third absent.1 known)
  instances := early.instances.trans late.instances fun row => List.mem_append
  configs := by
    intro id row found on
    by_cases first : row.cluster ∈ ids
    · -- a configuration that is gone does not come back
      have gone := early.configs id row found first
      cases again : after.database.instanceConfigs.lookup id with
      | none => rfl
      | some text => exact nomatch gone.symm.trans (late.fewerConfigs id text again)
    · exact late.configs id row ((early.instances id row).mpr ⟨found, first⟩) ((List.mem_append.mp on).resolve_left first)
  fewerConfigs := fun id text found => early.fewerConfigs id text (late.fewerConfigs id text found)
  secrets := by
    intro id row found
    obtain ⟨found, second⟩ := late.secrets id row found
    obtain ⟨found, first⟩ := early.secrets id row found
    exact ⟨found, fun on => (List.mem_append.mp on).elim first second⟩
  volumes := early.volumes.trans late.volumes fun row => List.mem_append
  clusters := early.clusters.trans late.clusters
  granted := by
    intro third group
    rw [late.granted, early.granted, early.granted]
    by_cases same : third = cID
    · simp [same, other]
    · simp [same]
  kept := ⟨late.kept.1.trans early.kept.1, late.kept.2.1.trans early.kept.2.1, late.kept.2.2.trans early.kept.2.2⟩

theorem WildcardKnown.later {before after : Server} {cID : String} (known : WildcardKnown before cID)
    (later : Later before after)
    (cache : after.clusters.clusterGroupAccessCache.find cID = before.clusters.clusterGroupAccessCache.find cID)
    (granted : Granted after.database cID wildcard ↔ Granted before.database cID wildcard) : WildcardKnown after cID := by
  have found : ∀ value, after.clusters.clusterGroupAccessCache.findValue cID value =
      before.clusters.clusterGroupAccessCache.findValue cID value := by
    intro value
    unfold ConcurrentMultimap.findValue
    rw [cache]
  refine ⟨fun record cached => ?_, fun record cached => ?_⟩
  · rw [found] at cached
    refine (known.positive record cached).imp (·.later later) fun ⟨allowed, lasts⟩ => ⟨granted.mpr allowed, fun n => ?_⟩
    obtain ⟨m, reading⟩ := later.reading n
    rw [reading]
    exact lasts m
  · rw [found] at cached
    exact (known.negative record cached).imp (·.later later) fun refused allowed => refused (granted.mp allowed)

theorem ClaimsKnown.later {before after : Server} {cID : String} (known : ClaimsKnown before cID)
    (later : Later before after)
    (cache : after.volumes.volumeByClusterCache.find cID = before.volumes.volumeByClusterCache.find cID)
    (rows : ∀ id row, row.cluster = cID →
      (after.database.volumes.lookup id = some row ↔ before.database.volumes.lookup id = some row)) :
    ClaimsKnown after cID where
  faithful := by
    rw [cache]
    intro entry member
    obtain ⟨row, found, read, on⟩ := known.faithful entry member
    exact ⟨row, (rows _ row on).mpr found, read, on⟩
  covers := by
    rw [cache]
    intro trusted id row found on
    exact (known.covers.later later) trusted id row ((rows id row on).mp found) on

structure ClusterWithdrawn (cID : String) (before after : Server) : Prop extends OnlyCluster cID before after where
  coherent : ClustersCoherent after
  row : after.database.clusters.lookup cID = none
  locations : after.database.locations.lookup cID = none
  left : ∀ group, Granted after.database cID group ↔
    Granted before.database cID group ∧ Granted before.database cID wildcard ∧ group ≠ wildcard
  freed : CredentialFreed before.database after.database cID

private theorem returns_withdrawCluster {splitting : Splitting} {server : Server} (coherent : ClustersCoherent server)
    {cluster : Cluster} (recorded : server.database.cluster cluster.id = some cluster) (formed : startsWith clusterIDPrefix cluster.id = true)
    (known : WildcardKnown server cluster.id) (guests : ∀ group, Granted server.database cluster.id group → Guest group)
    (shows_ : splitting.access.Shows server.database.access fun key _ => key.1 = cluster.id) :
    Returns (do
      let credRemoval ← withdrawMonitoringCredential cluster
      if credRemoval ≠ "" then
        return "Cluster deletion failed: " ++ credRemoval
      unless ← splitting.removeCluster cluster.id do
        return "Cluster deletion failed"
      return "") server fun result after => result = "" ∧ ClusterWithdrawn cluster.id server after := by
  rw [returns_bind]
  refine (((returns_withdrawMonitoringCredential coherent recorded).also
    (leads_withdrawMonitoringCredential (withdrawing_onlyCluster cluster.id) server).yields).also
    (leads_withdrawMonitoringCredential (withdrawing_accessView cluster.id) server).yields).mono ?_
  rintro credRemoval middle ⟨⟨⟨rfl, kept, freed⟩, only⟩, later, access⟩
  have table : middle.database.access = server.database.access := congrArg Prod.fst access
  have same : ∀ group, Granted middle.database cluster.id group ↔ Granted server.database cluster.id group := by
    intro group
    rw [Granted, table]
    rfl
  have knows : WildcardKnown middle cluster.id :=
    known.later later (congrArg (fun view => view.2.find cluster.id) access) (same wildcard)
  simp only [ne_eq, not_true_eq_false, if_false, returns_bind]
  have visitors : ∀ group, Granted middle.database cluster.id group → Guest group :=
    fun group granted => guests group ((same group).mp granted)
  refine (((returns_removeCluster_exactly kept formed knows visitors (table.symm ▸ shows_)).also
    (leads_removeCluster (removing_onlyCluster cluster.id) splitting formed middle).yields).also
    (leads_removeCluster (removing_credentialPool cluster.id) splitting formed middle).yields).mono ?_
  rintro removed after ⟨⟨⟨rfl, coherent', row, locations, left⟩, rest⟩, -, pool⟩
  refine ⟨rfl, IsTrans.trans _ _ _ only rest, coherent', row, locations, fun group => ?_, fun row key item stored named pooled => ?_⟩
  · rw [left, same, same]
  · have unchanged : after.database.credentials = middle.database.credentials := pool
    rw [unchanged] at pooled
    exact freed row key item stored named pooled

/-- The records on a cluster that are gone before its own. -/
structure ClusterEmptied (cID : String) (before after : Server) : Prop extends Later before after where
  coherent : ClustersCoherent after
  known : InstancesKnown after
  volumesKnown : VolumesKnown after
  instances : Leaves (fun row => row.cluster = cID) before.database.instances after.database.instances
  configs : ∀ id row, before.database.instances.lookup id = some row → row.cluster = cID →
    after.database.instanceConfigs.lookup id = none
  fewerConfigs : ∀ id text, after.database.instanceConfigs.lookup id = some text →
    before.database.instanceConfigs.lookup id = some text
  secrets : ∀ id row, after.database.secrets.lookup id = some row →
    before.database.secrets.lookup id = some row ∧ row.cluster ≠ cID
  volumes : Leaves (fun row => row.cluster = cID) before.database.volumes after.database.volumes
  elsewhere : ∀ other, other ≠ cID →
    after.volumes.volumeByClusterCache.find other = before.volumes.volumeByClusterCache.find other
  others : after.database.others = before.database.others
  access : after.clusters.clusterGroupAccessCache = before.clusters.clusterGroupAccessCache

theorem InstancesGone.after {cID : String} {before middle after : Server} (same : Touching none before middle)
    (gone : InstancesGone cID middle after) : InstancesGone cID before after := by
  obtain ⟨rows, configs, -⟩ := same.applications nofun
  exact ⟨same.widen.trans gone.toTouching, rows ▸ gone.rows, rows ▸ gone.configs, configs ▸ gone.fewer⟩

theorem SecretsGone.after {cID : String} {before middle after : Server} (same : Touching none before middle)
    (gone : SecretsGone cID middle after) : SecretsGone cID before after :=
  ⟨same.widen.trans gone.toTouching, (same.secrets nofun).1 ▸ gone.rows⟩

theorem VolumesGone.listed {cID : String} {before middle after : Server} (gone : VolumesGone cID before middle)
    (same : Touching none middle after) : VolumesGone cID before after := by
  obtain ⟨rows, caches⟩ := same.volumes nofun
  exact ⟨gone.toTouching.trans same.widen, rows ▸ gone.rows, caches ▸ gone.elsewhere⟩

private theorem ClusterEmptied.of_stages {cID : String} {before first second after : Server} (instances : InstancesGone cID before first)
    (secrets : SecretsGone cID first second) (volumes : VolumesGone cID second after) (coherent : ClustersCoherent after)
    (known : InstancesKnown first) (volumesKnown : VolumesKnown after) : ClusterEmptied cID before after := by
  obtain ⟨kept, keptConfigs, caches⟩ := secrets.applications (by decide)
  obtain ⟨kept', keptConfigs', caches'⟩ := volumes.applications (by decide)
  have table := kept'.trans kept
  have configTable := keptConfigs'.trans keptConfigs
  have later := secrets.toLater.trans volumes.toLater
  exact {
    toLater := instances.toLater.trans later
    coherent
    known := known.kept later table (caches'.trans caches)
    volumesKnown
    instances := table ▸ instances.rows
    configs := configTable ▸ instances.configs
    fewerConfigs := configTable ▸ instances.fewer
    secrets := by
      intro id row found
      rw [(volumes.secrets (by decide)).1] at found
      rw [← (instances.secrets (by decide)).1]
      exact secrets.rows id row found
    volumes := by
      have early : second.database.volumes = before.database.volumes :=
        (secrets.volumes (by decide)).1.trans (instances.volumes (by decide)).1
      rw [← early]
      exact volumes.rows
    elsewhere := by
      intro other different
      rw [volumes.elsewhere other different, (secrets.volumes (by decide)).2, (instances.volumes (by decide)).2]
    others := volumes.others.trans (secrets.others.trans instances.others)
    access := volumes.access.trans (secrets.access.trans instances.access) }

/-- The records on the cluster go first, and then the cluster. -/
theorem ClusterDeleted.of_steps {cID : String} {before middle after : Server} (sound : Sound before)
    (emptied : ClusterEmptied cID before middle) (withdrawn : ClusterWithdrawn cID middle after) :
    ClusterDeleted cID before after := by
  have instances := Database.table_of_same withdrawn.tables Database.instances fun _ => rfl
  have configs := Database.table_of_same withdrawn.tables Database.instanceConfigs fun _ => rfl
  have secrets := Database.table_of_same withdrawn.tables Database.secrets fun _ => rfl
  have volumes := Database.table_of_same withdrawn.tables Database.volumes fun _ => rfl
  have clusterTable := Database.table_of_same emptied.others Database.clusters fun _ => rfl
  have accessTable := Database.table_of_same emptied.others Database.access fun _ => rfl
  have kept : ∀ {α : Type} (table : Database → α), (∀ database, table database.beyondClusters = table database) →
      (∀ database, table database.others = table database) → table after.database = table before.database :=
    fun table first second => (Database.table_of_same withdrawn.tables table first).trans
      (Database.table_of_same emptied.others table second)
  have earlier : ∀ other group, Granted middle.database other group ↔ Granted before.database other group := by
    intro other group
    unfold Granted
    rw [accessTable]
  have rows : Without [cID] before.database.clusters after.database.clusters := by
    intro id
    split
    next same => rw [List.mem_singleton.mp same, withdrawn.row]
    next different => rw [withdrawn.clusters id fun same => different (List.mem_singleton.mpr same), clusterTable]
  have granted : ∀ other group, Granted after.database other group ↔ Granted before.database other group ∧
      (other ∈ [cID] → Granted before.database other wildcard ∧ group ≠ wildcard) := by
    intro other group
    by_cases same : other = cID
    · rw [same, withdrawn.left, earlier, earlier]
      simp
    · rw [Granted, withdrawn.granted other group same, ← Granted, earlier]
      simp [same]
  have single : ∀ {cluster : String}, cluster ∈ [cID] ↔ cluster = cID := List.mem_singleton
  have volumeRows : Leaves (fun row => row.cluster ∈ [cID]) before.database.volumes after.database.volumes := by
    rw [volumes]
    exact emptied.volumes.congr fun row => single.symm
  exact {
    toLater := emptied.toLater.trans withdrawn.toLater
    sound := {
      clusters := withdrawn.coherent
      formed := fun id row found => by
        rw [rows] at found
        split at found
        next => cases found
        next => exact sound.formed id row found
      instances := emptied.known.kept withdrawn.toLater instances withdrawn.instances
      volumes := by
        unfold VolumesKnown
        rw [volumes, withdrawn.volumes]
        exact emptied.volumesKnown
      readable := fun id row found => sound.readable id row ((volumeRows id row).mp found).1
      guests := fun other group held => sound.guests other group ((granted other group).mp held).1 }
    soundFor := fun other distinct known =>
      have different : other ≠ cID := fun same => distinct (single.mpr same)
      {
      claims := by
        refine known.claims.later (emptied.toLater.trans withdrawn.toLater) ?_ fun id row on => ?_
        · rw [withdrawn.volumes, emptied.elsewhere other different]
        · rw [volumeRows id row]
          exact ⟨And.left, fun found => ⟨found, fun same => different (on.symm.trans (single.mp same))⟩⟩
      wildcard := by
        refine known.wildcard.later (emptied.toLater.trans withdrawn.toLater) ?_ ?_
        · rw [withdrawn.access other different, emptied.access]
        · rw [granted]
          simp [different] }
    instances := by
      rw [instances]
      exact emptied.instances.congr fun row => single.symm
    configs := fun id row found on => configs ▸ emptied.configs id row found (single.mp on)
    fewerConfigs := configs ▸ emptied.fewerConfigs
    secrets := fun id row found => by
      rw [single]
      exact emptied.secrets id row (secrets ▸ found)
    volumes := volumeRows
    clusters := rows
    locations := withdrawn.locations
    granted
    kept := ⟨kept Database.groups (fun _ => rfl) fun _ => rfl, kept Database.memberships (fun _ => rfl) fun _ => rfl,
      kept Database.applications (fun _ => rfl) fun _ => rfl⟩
    freed := by
      have freed := withdrawn.freed
      unfold CredentialFreed at freed
      rw [clusterTable] at freed
      exact freed }

/-- What is left to do once the records on the cluster are gone. -/
private theorem returns_finishDeletion {splitting : Splitting} {server middle : Server} (sound : Sound server) {cluster : Cluster}
    (recorded : server.database.cluster cluster.id = some cluster) (formed : startsWith clusterIDPrefix cluster.id = true)
    (trusted : WildcardKnown server cluster.id)
    (guests : splitting.access.Shows server.database.access fun key _ => key.1 = cluster.id) (force : Bool)
    (emptied : ClusterEmptied cluster.id server middle) :
    Returns (do
      let credRemoval ← withdrawMonitoringCredential cluster
      if credRemoval ≠ "" then
        return "Cluster deletion failed: " ++ credRemoval
      unless ← splitting.removeCluster cluster.id do
        return "Cluster deletion failed"
      return "") middle fun result after => (force = true → result = "") ∧
        (result = "" → ClusterDeleted cluster.id server after) := by
  have accessTable := Database.table_of_same emptied.others Database.access fun _ => rfl
  refine (returns_withdrawCluster emptied.coherent ?_ formed ?_ ?_ (accessTable ▸ guests)).mono ?_
  · unfold Database.cluster
    rw [Database.table_of_same emptied.others Database.clusters fun _ => rfl]
    exact recorded
  · refine trusted.later emptied.toLater (by rw [emptied.access]) ?_
    rw [Granted, accessTable]
    rfl
  · intro group granted
    rw [Granted, accessTable] at granted
    exact sound.guests cluster.id group granted
  · rintro result after ⟨rfl, withdrawn⟩
    exact ⟨fun _ => rfl, fun _ => .of_steps sound emptied withdrawn⟩

/-- A deletion that succeeds leaves just this, and one that is forced succeeds. -/
theorem returns_deleteCluster {outside : Outside} {parse : String → Json} {splitting : Splitting} (able : outside.Able)
    {server : Server} (sound : Sound server) {cluster : Cluster}
    (recorded : server.database.cluster cluster.id = some cluster) (soundFor : SoundFor server cluster.id)
    (free : Unmounted outside parse server.database cluster.id) (shows_ : splitting.ShowsCluster server.database cluster.id)
    (force : Bool) :
    Returns (deleteCluster outside parse splitting cluster force) server fun result after => (force = true → result = "") ∧
      (result = "" → ClusterDeleted cluster.id server after) := by
  obtain ⟨item, stored, -⟩ := Option.bind_eq_some_iff.mp recorded
  have formed := sound.formed cluster.id item stored
  unfold deleteCluster
  rw [returns_bind]
  refine ((returns_configPathForCluster_exact sound.clusters recorded).also
    (leads_configPathForCluster (looking_touching : Looking (Touching none)) cluster.id server).yields).mono ?_
  rintro config first ⟨⟨-, read⟩, looked⟩
  have known := sound.instances.kept looked.toLater (looked.applications (by simp)).1 (looked.applications (by simp)).2.2
  rw [returns_bind]
  refine (returns_instancesGone able read.coherent known cluster.id force).mono ?_
  intro instances _ deleting
  rw [returns_bind]
  refine deleting.mono ?_
  rintro result second ⟨kept, forced, done⟩
  by_cases failed : result = ""
  swap
  · rw [if_pos failed]
    exact ⟨forced, fun none => absurd none failed⟩
  rw [if_neg (not_not.mpr failed), returns_bind]
  obtain ⟨known, gone⟩ := done failed
  have gone := gone.after looked
  have recorded' : second.database.cluster cluster.id = some cluster := by
    unfold Database.cluster
    rw [Database.table_of_same gone.others Database.clusters fun _ => rfl]
    exact recorded
  refine (returns_pingCluster able kept recorded').mono ?_
  rintro reachable third ⟨kept, pinged⟩
  by_cases lost : (!reachable) = true ∧ (!force) = true
  · rw [if_pos lost]
    exact ⟨fun forced => by simp [forced] at lost, fun none => absurd none (by decide)⟩
  rw [if_neg lost, returns_bind]
  have secretTable : third.database.secrets = server.database.secrets :=
    (pinged.secrets (by simp)).1.trans (gone.secrets (by decide)).1
  refine (returns_secretsGone able kept formed (secretTable ▸ shows_.secrets) reachable).mono ?_
  intro secrets _ deleting
  rw [returns_bind]
  refine deleting.mono ?_
  rintro secretDeletions fourth ⟨kept, withoutSecrets, secretsDone⟩
  have withoutSecrets := withoutSecrets.after pinged
  have volumeTable : fourth.database.volumes = server.database.volumes :=
    (withoutSecrets.volumes (by decide)).1.trans (gone.volumes (by decide)).1
  have volumeCaches : fourth.volumes = server.volumes :=
    (withoutSecrets.volumes (by decide)).2.trans (gone.volumes (by decide)).2
  have later := gone.toLater.trans withoutSecrets.toLater
  rw [returns_bind]
  have recorded'' : fourth.database.cluster cluster.id = some cluster := by
    unfold Database.cluster
    rw [Database.table_of_same (withoutSecrets.others.trans gone.others) Database.clusters fun _ => rfl]
    exact recorded
  have free' : Unmounted outside parse fourth.database cluster.id := by
    unfold Unmounted
    rw [volumeTable, recorded'', ← recorded]
    exact free
  refine (returns_volumesGone able kept ?_ (volumeTable ▸ sound.readable) recorded'' formed
    (soundFor.claims.later later (by rw [volumeCaches]) fun _ _ _ => by rw [volumeTable]) free'
    (volumeTable ▸ shows_.volumes) reachable).mono ?_
  · unfold VolumesKnown
    rw [volumeTable, volumeCaches]
    exact sound.volumes
  intro volumes _ deleting
  rw [returns_bind]
  refine deleting.mono ?_
  rintro volumeDeletions fifth ⟨kept, volumesKnown, withoutVolumes, volumesDone⟩
  simp only [awaitDeletions_done force _ volumesDone, awaitDeletions_done force _ secretsDone, pure_bind, ne_eq,
    not_true_eq_false, if_false]
  cases reachable with
  | false =>
    exact returns_finishDeletion sound recorded formed soundFor.wildcard shows_.guests force
      (.of_stages gone withoutSecrets withoutVolumes kept known volumesKnown)
  | true =>
    rw [if_pos rfl, returns_bind]
    refine (returns_listGroups kept).mono ?_
    rintro groups sixth ⟨kept, listed⟩
    have volumesKnown : VolumesKnown sixth := by
      unfold VolumesKnown
      rw [(listed.volumes (by simp)).1, (listed.volumes (by simp)).2]
      exact volumesKnown
    exact returns_finishDeletion sound recorded formed soundFor.wildcard shows_.guests force
      (.of_stages gone withoutSecrets (withoutVolumes.listed listed) kept known volumesKnown)

end Slate
