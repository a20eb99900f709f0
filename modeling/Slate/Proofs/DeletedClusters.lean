import Slate.Proofs.AccessDecisions
import Slate.Proofs.DeletionListings

/-! What deleting a cluster leaves in the tables, and in the caches that later deletions
work through. -/

namespace Slate
open Library

/-- The second table is the first without some keys. -/
def Without {κ α : Type} [DecidableEq κ] (ids : List κ) (before after : FiniteMap κ α) : Prop :=
  ∀ id, after.lookup id = if id ∈ ids then none else before.lookup id

theorem Without.none {κ α : Type} [DecidableEq κ] (table : FiniteMap κ α) : Without [] table table := fun _ => rfl

theorem Without.erase {κ α : Type} [DecidableEq κ] {ids : List κ} {before middle after : FiniteMap κ α} {id : κ}
    (without : Without ids before middle) (erased : after = AList.erase id middle) : Without (ids ++ [id]) before after := by
  intro other
  rw [erased, FiniteMap.lookup_erase, without]
  by_cases same : other = id
  · simp [same]
  · simp [same]

structure InstancesErased (ids : List String) (before after : Server) : Prop
    extends Touching (some .application) before after where
  known : InstancesKnown before → InstancesKnown after
  table : Without ids before.database.instances after.database.instances
  configs : Without ids before.database.instanceConfigs after.database.instanceConfigs

theorem InstancesErased.none {before after : Server} (same : Touching none before after) :
    InstancesErased [] before after where
  toTouching := same.widen
  known := fun known => known.kept same.toLater (same.applications nofun).1 (same.applications nofun).2.2
  table := by rw [(same.applications nofun).1]; exact .none _
  configs := by rw [(same.applications nofun).2.1]; exact .none _

theorem InstancesErased.more {ids : List String} {id : String} {before middle after : Server}
    (early : InstancesErased ids before middle) (late : InstanceErased id middle after) :
    InstancesErased (ids ++ [id]) before after where
  toTouching := early.toTouching.trans late.toTouching
  known := fun known => (early.known known).erased late
  table := early.table.erase late.table
  configs := early.configs.erase late.configs

structure SecretsErased (ids : List String) (before after : Server) : Prop
    extends Touching (some .secret) before after where
  table : Without ids before.database.secrets after.database.secrets

/-- Only claims on this cluster are erased, and only what is cached about them. -/
structure VolumesErased (cID : String) (ids : List String) (before after : Server) : Prop
    extends Touching (some .volume) before after where
  known : VolumesKnown before → VolumesKnown after
  table : Without ids before.database.volumes after.database.volumes
  elsewhere : ∀ other, other ≠ cID →
    after.volumes.volumeByClusterCache.find other = before.volumes.volumeByClusterCache.find other

private theorem find_eraseValue_elsewhere {α : Type} [Identified α String] (map : ConcurrentMultimap String α) {key other : String}
    (value : α) (different : other ≠ key) : (map.eraseValue key value).2.find other = map.find other := by
  unfold ConcurrentMultimap.eraseValue
  split
  · dsimp only
    split
    · rw [ConcurrentMultimap.find_erase, if_neg different]
    · exact (ConcurrentMultimap.find_insert _ _ _ _).trans (if_neg different)
  · rfl

theorem VolumesErased.more {cID : String} {ids : List String} {id : String} {before middle after : Server}
    (early : VolumesErased cID ids before middle) (known : VolumesKnown before)
    (on : ∀ row, before.database.volumes.lookup id = some row → row.cluster = cID) (late : VolumeErased id middle after) :
    VolumesErased cID (ids ++ [id]) before after where
  toTouching := early.toTouching.trans late.toTouching
  known := by
    intro known other entry found
    have middleKnown := early.known known
    rw [late.caches] at found
    have kept : middle.volumes.volumeCache.lookup other = some entry ∧ other ≠ id := by
      unfold VolumeCaches.forget at found
      cases present : middle.volumes.volumeCache.lookup id with
      | none =>
        rw [present] at found
        refine ⟨found, ?_⟩
        rintro rfl
        exact nomatch present.symm.trans found
      | some cached =>
        rw [present] at found
        change AList.lookup other (AList.erase id middle.volumes.volumeCache) = some entry at found
        rw [FiniteMap.lookup_erase] at found
        split at found
        next => cases found
        next different => exact ⟨found, different⟩
    obtain ⟨row, stored, read⟩ := middleKnown other entry kept.1
    refine ⟨row, ?_, read⟩
    rw [late.table, FiniteMap.lookup_erase, if_neg kept.2]
    exact stored
  table := early.table.erase late.table
  elsewhere := by
    intro other different
    rw [← early.elsewhere other different, late.caches]
    unfold VolumeCaches.forget
    cases present : middle.volumes.volumeCache.lookup id with
    | none => rfl
    | some cached =>
      -- what is cached about the claim is on its cluster
      obtain ⟨row, stored, read⟩ := early.known known id cached present
      have place : cached.record.cluster = cID := by
        rw [early.table] at stored
        split at stored
        next => cases stored
        next => exact read.keys.2.trans (on row stored)
      refine find_eraseValue_elsewhere _ _ ?_
      rw [place]
      exact different

/-- A task that returns hands its result over. -/
theorem returns_async {α : Type} {task : StoreM α} {current : Server} {post : α → Server → Prop}
    (returns : Returns task current post) :
    Returns (async task) current fun result after => ∃ value, result = .ok value ∧ post value after := by
  obtain ⟨value, after, ran, holds⟩ := returns_iff.mp returns
  refine returns_iff.mpr ⟨.ok value, after, ?_, value, rfl, holds⟩
  exact tryCatch_returned (bind_returned ran)

theorem awaitDeletions_done (force : Bool) (failure : String) {deletions : List (Except String String)}
    (done : ∀ deletion ∈ deletions, deletion = .ok "") : awaitDeletions force failure deletions = return "" := by
  induction deletions with
  | nil => rfl
  | cons deletion rest ih =>
    rw [done deletion (by simp)]
    unfold awaitDeletions
    rw [if_neg fun both => both.2 rfl]
    exact ih fun other member => done other (by simp [member])

section
variable {outside : Outside} (able : outside.Able) {server : Server} (coherent : ClustersCoherent server)
include able coherent

theorem returns_deleteInstances (force : Bool) (instances : List ApplicationInstance) :
    Returns (deleteInstances outside force instances) server fun result after => ClustersCoherent after ∧
      (force = true → result = "") ∧
      (result = "" → InstancesErased (instances.map ApplicationInstance.id) server after) := by
  suffices rest : ∀ (ids : List String) (current : Server), ClustersCoherent current → InstancesErased ids server current →
      Returns (deleteInstances outside force instances) current fun result after => ClustersCoherent after ∧
        (force = true → result = "") ∧
        (result = "" → InstancesErased (ids ++ instances.map ApplicationInstance.id) server after) from
    rest [] server coherent (.none (refl server))
  clear coherent
  induction instances with
  | nil =>
    intro ids current kept erased
    refine ⟨kept, fun _ => rfl, fun _ => ?_⟩
    simpa using erased
  | cons inst rest ih =>
    intro ids current kept erased
    unfold deleteInstances
    rw [returns_bind]
    refine (returns_deleteApplicationInstance kept able inst force).mono ?_
    rintro result after ⟨coherent, forced, done, -⟩
    by_cases failed : result = ""
    · rw [if_neg fun both => both.2 failed]
      have more := ih (ids ++ [inst.id]) after coherent (erased.more (done failed))
      simpa [List.append_assoc] using more
    · have unforced : force = false := by
        cases force with
        | true => exact absurd (forced rfl) failed
        | false => rfl
      rw [if_pos ⟨by simp [unforced], failed⟩]
      refine ⟨coherent, fun also => absurd (unforced.symm.trans also) Bool.false_ne_true, fun none => ?_⟩
      have letters := congrArg String.toList none
      simp at letters

theorem returns_deleteSecrets (reachable : Bool) (secrets : List Secret) :
    Returns (secrets.mapM fun secret => async (deleteSecret outside secret true reachable)) server fun deletions after =>
      ClustersCoherent after ∧ SecretsErased (secrets.map Secret.id) server after ∧
        ∀ deletion ∈ deletions, deletion = .ok "" := by
  apply returns_mapM secrets _ server fun visited (deletions : List (Except String String)) current => ClustersCoherent current ∧
    SecretsErased (visited.map Secret.id) server current ∧ ∀ deletion ∈ deletions, deletion = .ok ""
  · exact ⟨coherent, ⟨refl server, .none _⟩, by simp⟩
  · rintro visited secret rest deletions current - ⟨kept, erased, done⟩
    refine (returns_async (returns_deleteSecret kept able secret reachable)).mono ?_
    rintro deletion after ⟨result, rfl, rfl, coherent, late⟩
    refine ⟨coherent, ⟨erased.toTouching.trans late.toTouching, ?_⟩, ?_⟩
    · simpa using erased.table.erase late.table
    · intro other member
      rcases List.mem_append.mp member with before | last
      · exact done other before
      · exact List.mem_singleton.mp last

theorem returns_deleteVolumes {parse : String → Json} (reachable : Bool) {cID : String} {cluster : Cluster}
    (recorded : server.database.cluster cID = some cluster) (known : VolumesKnown server)
    {volumes : List PersistentVolumeClaim}
    (free : ∀ pvc ∈ volumes, pvc.cluster = cID ∧ Unused outside parse cluster.config pvc.name)
    (on : ∀ pvc ∈ volumes, ∀ row, server.database.volumes.lookup pvc.id = some row → row.cluster = cID) :
    Returns (volumes.mapM fun volume => async (deleteVolumeClaim outside parse volume true reachable)) server fun deletions after =>
      ClustersCoherent after ∧ VolumesErased cID (volumes.map PersistentVolumeClaim.id) server after ∧
        ∀ deletion ∈ deletions, deletion = .ok "" := by
  apply returns_mapM volumes _ server fun visited (deletions : List (Except String String)) current => ClustersCoherent current ∧
    VolumesErased cID (visited.map PersistentVolumeClaim.id) server current ∧ ∀ deletion ∈ deletions, deletion = .ok ""
  · exact ⟨coherent, ⟨refl server, id, .none _, fun _ _ => rfl⟩, by simp⟩
  · rintro visited pvc rest deletions current split ⟨kept, erased, done⟩
    have member : pvc ∈ volumes := by simp [split]
    have recorded' : current.database.cluster pvc.cluster = some cluster := by
      unfold Database.cluster
      rw [Database.table_of_same erased.others Database.clusters fun _ => rfl, (free pvc member).1]
      exact recorded
    refine (returns_async (returns_deleteVolumeClaim kept able recorded' (free pvc member).2 reachable)).mono ?_
    rintro deletion after ⟨result, rfl, rfl, coherent, late⟩
    refine ⟨coherent, ?_, ?_⟩
    · simpa using erased.more known (on pvc member) late
    · intro other member
      rcases List.mem_append.mp member with before | last
      · exact done other before
      · exact List.mem_singleton.mp last
end

/-- The credential recorded on the cluster may be withdrawn. -/
structure Withdrawing (cID : String) (course : Server → Server → Prop) : Prop extends Looking course where
  item : ∀ server item, course server { server with database := { server.database with
    clusters := server.database.clusters.insert cID item } }
  credentials : ∀ server table, course server { server with database := { server.database with credentials := table } }

/-- Access to the cluster may be revoked, and the cluster dropped. -/
structure Removing (cID : String) (course : Server → Server → Prop) : Prop extends Looking course where
  access : ∀ server cache, (∀ other, other ≠ cID → cache.find other = server.clusters.clusterGroupAccessCache.find other) →
    course server { server with clusters := { server.clusters with clusterGroupAccessCache := cache } }
  revoked : ∀ server group, course server { server with database := { server.database with
    access := AList.erase (cID, group) server.database.access } }
  dropped : ∀ server, course server { server with database := { server.database with
    clusters := AList.erase cID server.database.clusters } }
  locations : ∀ server, course server { server with database := { server.database with
    locations := AList.erase cID server.database.locations } }

section
variable {cID : String} {course : Server → Server → Prop} [IsPreorder Server course]

theorem leads_withdrawMonitoringCredential {cluster : Cluster} (withdrawing : Withdrawing cluster.id course) :
    Leads course (withdrawMonitoringCredential cluster) := by
  have erasing : Leads course (removeClusterMonitoringCredential cluster.id) := by
    unfold removeClusterMonitoringCredential eraseCredential reloadCluster
    refine Leads.bind ?_ fun _ => .ite (fun _ => ?_) fun _ => .pure _
    · refine (leads_request withdrawing.toPassing).bind fun _ => .ite (fun _ => Leads.get.bind fun server => ?_) fun _ => .pure _
      split
      next => exact .pure _
      next =>
        refine .ite (fun _ => .pure _) fun _ => Leads.bind ?_ fun _ => .pure _
        exact .modifies fun server => withdrawing.item server _
    · refine Leads.bind (Leads.bind ?_ fun _ => ?_) fun _ => .pure _
      · exact .modifies fun server => withdrawing.clusters server _ rfl
      · exact (leads_findClusterByID withdrawing.toLooking _).bind fun _ => .pure _
  have revoking : ∀ key, Leads course (revokeMonitoringCredential key) := by
    intro key
    unfold revokeMonitoringCredential
    refine (leads_request withdrawing.toPassing).bind fun _ => .ite (fun _ => Leads.get.bind fun server => ?_) fun _ => .pure _
    split
    next => exact .pure _
    next => exact Leads.bind (.modifies fun server => withdrawing.credentials server _) fun _ => .pure _
  unfold withdrawMonitoringCredential
  refine .ite (fun _ => ?_) fun _ => .pure _
  exact erasing.bind fun _ => .ite (fun _ => (revoking _).bind fun _ => .pure _) fun _ => .pure _

variable (removing : Removing cID course)
include removing

theorem leads_cacheAccess (value : String) : Leads course (cacheAccess cID value) := by
  refine (leads_lasting removing.toPassing _ _).bind fun record => (leads_now removing.toPassing).bind fun reading => ?_
  refine .modifies fun server => removing.access server _ fun other different => ?_
  unfold ConcurrentMultimap.insertOrAssign
  split <;> exact (ConcurrentMultimap.find_insert _ _ _ _).trans (if_neg different)

private theorem leads_revokeAccess (group : String) : Leads course (revokeAccess group cID) := by
  unfold revokeAccess forgetAccess deleteAccess
  refine Leads.bind ?_ fun _ => (leads_request removing.toPassing).bind fun _ => .ite (fun _ => ?_) fun _ => .pure _
  · exact .modifies fun server => removing.access server _ fun other different => find_eraseValue_elsewhere _ _ different
  · refine Leads.bind (.modifies fun server => removing.revoked server group) fun _ => ?_
    exact (leads_cacheAccess removing _).bind fun _ => .pure _

theorem leads_removeCluster (splitting : Splitting) (formed : startsWith clusterIDPrefix cID = true) :
    Leads course (splitting.removeCluster cID) := by
  unfold Splitting.removeCluster Splitting.listGroupsAllowedOnCluster Splitting.normalizeClusterID
    removeGroupFromCluster withNormalized dropCluster deleteClusterItem deleteLocations
  simp only [normalizeClusterID_known formed, formed, Bool.not_true, pure_bind, Bool.false_eq_true, if_false]
  refine Leads.bind ?_ fun guests => Leads.bind (.forM fun guest _ => ?_) fun _ => ?_
  · refine (leads_clusterAllowsAllGroups removing.toPassing (leads_cacheAccess removing)).bind fun _ => .ite (fun _ => .pure _) fun _ => ?_
    exact (leads_request removing.toPassing).bind fun _ => .ite (fun _ => Leads.get.bind fun _ => .pure _) fun _ => .pure _
  · refine Leads.bind ((leads_normalizeGroupID removing.caching _ _).bind fun group => ?_) fun _ => .pure _
    cases group with
    | none => exact .pure _
    | some group => exact leads_revokeAccess removing group
  · refine Leads.bind (.modifies fun server => removing.clusters server _ ?_) fun _ => ?_
    · unfold ClusterCaches.forget
      split <;> rfl
    · refine Leads.bind ?_ fun _ => .ite (fun _ => ?_) fun _ => .pure _
      · refine (leads_request removing.toPassing).bind fun _ => .ite (fun _ => ?_) fun _ => .pure _
        exact Leads.bind (.modifies fun server => removing.dropped server) fun _ => .pure _
      · refine (leads_request removing.toPassing).bind fun _ => .ite (fun _ => ?_) fun _ => .pure _
        exact Leads.bind (.modifies fun server => removing.locations server) fun _ => .pure _
end

/-- The tables without those that tell of clusters themselves. -/
def Database.beyondClusters (database : Database) : Database :=
  { database with clusters := ∅, access := ∅, locations := ∅, credentials := ∅ }

/-- Only what concerns one cluster is touched, and no record on it. -/
structure OnlyCluster (cID : String) (before after : Server) : Prop extends Later before after where
  tables : after.database.beyondClusters = before.database.beyondClusters
  instances : after.instances = before.instances
  secrets : after.secrets = before.secrets
  volumes : after.volumes = before.volumes
  clusters : ∀ id, id ≠ cID → after.database.clusters.lookup id = before.database.clusters.lookup id
  granted : ∀ other group, other ≠ cID →
    after.database.access.lookup (other, group) = before.database.access.lookup (other, group)
  access : ∀ other, other ≠ cID →
    after.clusters.clusterGroupAccessCache.find other = before.clusters.clusterGroupAccessCache.find other

instance (cID : String) : IsPreorder Server (OnlyCluster cID) where
  refl server := ⟨.refl server, rfl, rfl, rfl, rfl, fun _ _ => rfl, fun _ _ _ => rfl, fun _ _ => rfl⟩
  trans _ _ _ early late := ⟨early.toLater.trans late.toLater, late.tables.trans early.tables,
    late.instances.trans early.instances, late.secrets.trans early.secrets, late.volumes.trans early.volumes,
    fun id different => (late.clusters id different).trans (early.clusters id different),
    fun other group different => (late.granted other group different).trans (early.granted other group different),
    fun other different => (late.access other different).trans (early.access other different)⟩

private theorem looking_onlyCluster (cID : String) : Looking (OnlyCluster cID) where
  tick := fun server => ⟨.tick server, rfl, rfl, rfl, rfl, fun _ _ => rfl, fun _ _ _ => rfl, fun _ _ => rfl⟩
  answered := fun server => ⟨.answered server, rfl, rfl, rfl, rfl, fun _ _ => rfl, fun _ _ _ => rfl, fun _ _ => rfl⟩
  groups := fun _ _ => ⟨.of_eq rfl rfl, rfl, rfl, rfl, rfl, fun _ _ => rfl, fun _ _ _ => rfl, fun _ _ => rfl⟩
  clusters := fun _ _ same => ⟨.of_eq rfl rfl, rfl, rfl, rfl, rfl, fun _ _ => rfl, fun _ _ _ => rfl, fun _ _ => by rw [same]⟩

theorem withdrawing_onlyCluster (cID : String) : Withdrawing cID (OnlyCluster cID) where
  toLooking := looking_onlyCluster cID
  item := fun _ _ => ⟨.of_eq rfl rfl, rfl, rfl, rfl, rfl, fun _ different =>
    (FiniteMap.lookup_insert _ _ _ _).trans (if_neg different), fun _ _ _ => rfl, fun _ _ => rfl⟩
  credentials := fun _ _ => ⟨.of_eq rfl rfl, rfl, rfl, rfl, rfl, fun _ _ => rfl, fun _ _ _ => rfl, fun _ _ => rfl⟩

theorem removing_onlyCluster (cID : String) : Removing cID (OnlyCluster cID) where
  toLooking := looking_onlyCluster cID
  access := fun _ _ same => ⟨.of_eq rfl rfl, rfl, rfl, rfl, rfl, fun _ _ => rfl, fun _ _ _ => rfl, same⟩
  revoked := fun _ _ => ⟨.of_eq rfl rfl, rfl, rfl, rfl, rfl, fun _ _ => rfl, fun _ _ different =>
    (FiniteMap.lookup_erase _ _ _).trans (if_neg fun same => different (congrArg Prod.fst same)), fun _ _ => rfl⟩
  dropped := fun _ => ⟨.of_eq rfl rfl, rfl, rfl, rfl, rfl, fun _ different =>
    (FiniteMap.lookup_erase _ _ _).trans (if_neg different), fun _ _ _ => rfl, fun _ _ => rfl⟩
  locations := fun _ => ⟨.of_eq rfl rfl, rfl, rfl, rfl, rfl, fun _ _ => rfl, fun _ _ _ => rfl, fun _ _ => rfl⟩

def credentialPool : ServerPart (FiniteMap String CredentialItem) where
  read := fun server => server.database.credentials
  tick := fun _ => rfl
  answered := fun _ => rfl

theorem removing_credentialPool (cID : String) : Removing cID (Past credentialPool) where
  toPassing := passing_past _
  groups := fun _ _ => ⟨.of_eq rfl rfl, rfl⟩
  clusters := fun _ _ _ => ⟨.of_eq rfl rfl, rfl⟩
  access := fun _ _ _ => ⟨.of_eq rfl rfl, rfl⟩
  revoked := fun _ _ => ⟨.of_eq rfl rfl, rfl⟩
  dropped := fun _ => ⟨.of_eq rfl rfl, rfl⟩
  locations := fun _ => ⟨.of_eq rfl rfl, rfl⟩

/-- The access to clusters, as the table and the cache have it. -/
def accessView : ServerPart (FiniteMap (String × String) Unit × ConcurrentMultimap String String) where
  read := fun server => (server.database.access, server.clusters.clusterGroupAccessCache)
  tick := fun _ => rfl
  answered := fun _ => rfl

theorem withdrawing_accessView (cID : String) : Withdrawing cID (Past accessView) where
  toPassing := passing_past _
  groups := fun _ _ => ⟨.of_eq rfl rfl, rfl⟩
  clusters := fun _ _ same => ⟨.of_eq rfl rfl, by simp only [accessView, same]⟩
  item := fun _ _ => ⟨.of_eq rfl rfl, rfl⟩
  credentials := fun _ _ => ⟨.of_eq rfl rfl, rfl⟩

def CredentialFreed (before after : Database) (cID : String) : Prop :=
  ∀ row key item, before.clusters.lookup cID = some row → row.recordedKey = some key →
    after.credentials.lookup key = some item → item.inUse = false

section
variable {server : Server} (coherent : ClustersCoherent server)
include coherent

private theorem returns_revokeMonitoringCredential (accessKey : String) :
    Returns (revokeMonitoringCredential accessKey) server fun _ after => ClustersCoherent after ∧
      ∀ item, after.database.credentials.lookup accessKey = some item → item.inUse = false := by
  have asked : Past clusterView server server.answered := ⟨.answered server, rfl⟩
  unfold revokeMonitoringCredential putCredential
  simp only [returns_bind, returns_request, coherent.succeeding 0, returns_ite, if_true, returns_get]
  split
  next absent => exact ⟨coherent.past asked, fun item stored => by cases absent.symm.trans stored⟩
  next pooled found =>
    refine ⟨coherent.past (IsTrans.trans _ _ _ asked ⟨.of_eq rfl rfl, rfl⟩), fun item stored => ?_⟩
    change AList.lookup accessKey (AList.insert accessKey _ server.database.credentials) = some item at stored
    rw [FiniteMap.lookup_insert, if_pos rfl] at stored
    rw [← Option.some.inj stored]

theorem returns_withdrawMonitoringCredential {cluster : Cluster} (recorded : server.database.cluster cluster.id = some cluster) :
    Returns (withdrawMonitoringCredential cluster) server fun result after => result = "" ∧ ClustersCoherent after ∧
      CredentialFreed server.database after.database cluster.id := by
  obtain ⟨row, found, read⟩ := Option.bind_eq_some_iff.mp recorded
  have credential := (ClusterItem.reads read).credential
  unfold withdrawMonitoringCredential
  by_cases usable : cluster.monitoringCredential.usable = true
  · have present : row.monCredential ≠ none := by
      intro none
      rw [credential, none] at usable
      exact absurd usable (by decide)
    have withdrawn : Yields (removeClusterMonitoringCredential cluster.id) server fun removed _ => removed = true := by
      unfold removeClusterMonitoringCredential eraseCredential
      simp only [yields_bind, yields_request, coherent.succeeding 0, yields_ite, if_true, yields_get, answered_database, found,
        present, if_false, yields_pure]
      exact Yields.after fun _ _ => Yields.after fun _ _ => trivial
    simp only [usable, if_true, returns_bind]
    have stored : (server.database.clusters.lookup cluster.id).isSome := by
      rw [found]
      rfl
    refine ((returns_removeCredential_moved coherent stored).also withdrawn).mono ?_
    rintro removed middle ⟨moved, rfl⟩
    simp only [if_true, returns_bind, returns_pure]
    refine (returns_revokeMonitoringCredential moved.coherent cluster.monitoringCredential.accessKey).mono ?_
    rintro _ after ⟨kept, freed⟩
    refine ⟨trivial, kept, fun other key item stored recordedKey pooled => freed item ?_⟩
    obtain rfl : row = other := Option.some.inj (found.symm.trans stored)
    unfold ClusterItem.recordedKey at recordedKey
    rw [← credential] at recordedKey
    simp only [usable, if_true, Option.some.injEq] at recordedKey
    rw [recordedKey]
    exact pooled
  · rw [if_neg usable]
    refine ⟨rfl, coherent, ?_⟩
    intro other key item stored recordedKey
    obtain rfl : row = other := Option.some.inj (found.symm.trans stored)
    unfold ClusterItem.recordedKey at recordedKey
    rw [← credential] at recordedKey
    simp [usable] at recordedKey

/-- What is cached about the wildcard of the cluster is true and lasts, or has expired. -/
structure WildcardKnown (server : Server) (cID : String) : Prop where
  positive : ∀ record, server.clusters.clusterGroupAccessCache.findValue cID wildcard = some record →
    Spent server (some record) ∨
      Granted server.database cID wildcard ∧ ∀ n, server.clock n ≤ record.expirationTime
  negative : ∀ record, server.clusters.clusterGroupAccessCache.findValue cID (negativeMarker wildcard) = some record →
    Spent server (some record) ∨ ¬ Granted server.database cID wildcard

private theorem returns_wildcardAllowed {cID : String} (known : WildcardKnown server cID) :
    Returns (clusterAllowsAllGroups cID) server fun allowed after =>
      (allowed = true ↔ Granted server.database cID wildcard) ∧ after.database = server.database := by
  have unspent : ∀ {record : CacheRecord String} {n : Nat}, server.clock n ≤ record.expirationTime →
      ¬ Spent server (some record) := fun valid spent => absurd (spent _ rfl _) (Nat.not_lt.mpr valid)
  unfold clusterAllowsAllGroups
  rw [returns_bind]
  refine returns_accessCached ?_ ?_
  · intro record found valid
    obtain ⟨granted, lasts⟩ := (known.positive record found).resolve_left (unspent valid)
    have still : server.clock 1 ≤ record.expirationTime := lasts 1
    simp only [returns_current, tick_clock]
    exact ⟨by simp [still, granted], rfl⟩
  · intro passed moved
    have database : passed.database = server.database := by rcases moved with rfl | rfl <;> rfl
    have cache : passed.clusters = server.clusters := by rcases moved with rfl | rfl <;> rfl
    obtain ⟨m, clock⟩ : ∃ m, passed.clock 0 = server.clock m := by
      rcases moved with rfl | rfl
      · exact ⟨0, rfl⟩
      · exact ⟨1, rfl⟩
    have later : Later server passed := by
      rcases moved with rfl | rfl
      · exact .refl _
      · exact .tick _
    rw [returns_bind]
    refine returns_accessCached ?_ ?_
    · intro record found valid
      rw [cache] at found
      rw [clock] at valid
      have refused := (known.negative record found).resolve_left (unspent valid)
      exact ⟨by simp [refused], database⟩
    · intro asked again
      have same : asked.database = server.database := by rcases again with rfl | rfl <;> exact database
      have succeeds : asked.outcomes 0 = true := by
        rcases again with rfl | rfl
        · exact later.succeeding coherent.succeeding 0
        · exact (later.trans (.tick _)).succeeding coherent.succeeding 0
      unfold queryAccess accessQuery cacheAccess
      simp only [returns_bind, returns_request, succeeds, returns_ite, if_true, returns_get, returns_pure, returns_lasting,
        returns_now, returns_modify, answered_database, same]
      exact ⟨Iff.rfl, same⟩

private theorem returns_revokeAccess_exactly (group cID : String) :
    Returns (revokeAccess group cID) server fun _ after => ClustersCoherent after ∧
      after.database.access = AList.erase (cID, group) server.database.access := by
  refine ((coherent.passes (passes_revokeAccess group cID)).mono fun _ _ moved => moved.coherent).and ?_
  unfold revokeAccess forgetAccess deleteAccess cacheAccess
  have succeeds : server.outcomes 0 = true := coherent.succeeding 0
  simp only [returns_bind, returns_modify, returns_request, returns_ite, succeeds, if_true, returns_lasting, returns_now,
    returns_pure]
  rfl

/-- Which guests a listing of the first page leaves out. -/
private theorem returns_guests {splitting : Splitting} {cID : String} (formed : startsWith clusterIDPrefix cID = true)
    (known : WildcardKnown server cID) (guests : ∀ group, Granted server.database cID group → Guest group)
    (shows_ : splitting.access.Shows server.database.access fun key _ => key.1 = cID) :
    Returns (splitting.listGroupsAllowedOnCluster cID) server fun groups after => ClustersCoherent after ∧
      (∀ group ∈ groups, Guest group) ∧ after.database = server.database ∧
        ∀ group, Granted server.database cID group ∧ group ∉ groups ↔
          Granted server.database cID group ∧ Granted server.database cID wildcard ∧ group ≠ wildcard := by
  unfold Splitting.listGroupsAllowedOnCluster Splitting.normalizeClusterID
  simp only [formed, Bool.not_true, Bool.false_eq_true, if_false, pure_bind, returns_bind]
  refine (((returns_wildcardAllowed coherent known).also
    (leads_clusterAllowsAllGroups (removing_onlyCluster cID).toPassing (leads_cacheAccess (removing_onlyCluster cID)) server).yields).also
    (coherent.passes (passes_clusterAllowsAllGroups cID)).yields).mono ?_
  rintro allowed passed ⟨⟨⟨decided, same⟩, passing⟩, moved⟩
  cases allowed with
  | true =>
    have all := decided.mp rfl
    simp only [if_true, returns_pure]
    refine ⟨moved.coherent, fun group member => .inl (by simpa using member), same, fun group => ?_⟩
    simp [all]
  | false =>
    have none : ¬ Granted server.database cID wildcard := fun all => absurd (decided.mpr all) Bool.false_ne_true
    have succeeds : passed.outcomes 0 = true := passing.toLater.succeeding coherent.succeeding 0
    simp only [Bool.false_eq_true, if_false, returns_bind, returns_request, succeeds, returns_ite, if_true, returns_get,
      returns_pure, answered_database, same]
    refine ⟨(ClustersRead.passed moved.coherent (.answered passed) rfl rfl).coherent, fun group member => .inr ?_, trivial,
      fun group => iff_of_false ?_ fun both => absurd both.2.1 none⟩
    · obtain ⟨⟨⟨cluster, group⟩, _⟩, listed, rfl⟩ := List.mem_map.mp member
      have chosen := (query_stored listed).2
      simp only [Bool.and_eq_true] at chosen
      exact chosen.2
    · rintro ⟨granted, unlisted⟩
      -- a group that is not the wildcard is listed
      rcases guests group granted with rfl | known
      · exact absurd granted none
      · obtain ⟨row, stored⟩ := Option.isSome_iff_exists.mp granted
        refine absurd (List.mem_map.mpr ⟨((cID, group), row), shows_.queried stored rfl ?_, rfl⟩) unlisted
        simp [known]

/-- All that is left of the access to a cluster: where there was a wildcard, only that is
revoked. -/
theorem returns_removeCluster_exactly {splitting : Splitting} {cID : String}
    (formed : startsWith clusterIDPrefix cID = true) (known : WildcardKnown server cID)
    (guests : ∀ group, Granted server.database cID group → Guest group)
    (shows_ : splitting.access.Shows server.database.access fun key _ => key.1 = cID) :
    Returns (splitting.removeCluster cID) server fun removed after => removed = true ∧ ClustersCoherent after ∧
      after.database.clusters.lookup cID = none ∧ after.database.locations.lookup cID = none ∧
      ∀ group, Granted after.database cID group ↔
        Granted server.database cID group ∧ Granted server.database cID wildcard ∧ group ≠ wildcard := by
  unfold Splitting.removeCluster
  rw [returns_bind]
  refine (returns_guests coherent formed known guests shows_).mono ?_
  rintro groups middle ⟨kept, visitors, same, left⟩
  rw [returns_bind]
  refine (returns_forM groups _ middle (fun visited current => ClustersCoherent current ∧
    ∀ group, Granted current.database cID group ↔ Granted server.database cID group ∧ group ∉ visited) ?_ ?_).mono ?_
  · refine ⟨kept, fun group => ?_⟩
    rw [same]
    simp
  · rintro before guest after current split ⟨kept, held⟩
    have guest' := visitors guest (by simp [split])
    unfold removeGroupFromCluster withNormalized
    simp only [normalizeGroupID_guest guest', normalizeClusterID_known formed, pure_bind, returns_bind, returns_pure]
    refine (returns_revokeAccess_exactly kept guest cID).mono ?_
    rintro _ next ⟨coherent, erased⟩
    refine ⟨coherent, fun group => ?_⟩
    rw [granted_erase erased, held]
    simp only [List.mem_append, List.mem_singleton, not_or]
    tauto
  · rintro _ revoked ⟨kept, held⟩
    refine (((returns_dropCluster kept cID).mono fun _ _ moved => moved.coherent).and (?_ : Returns (dropCluster cID) revoked
      fun removed after => removed = true ∧ after.database = { revoked.database with
        clusters := AList.erase cID revoked.database.clusters
        locations := AList.erase cID revoked.database.locations })).mono ?_
    · have first : revoked.outcomes 0 = true := kept.succeeding 0
      have second : revoked.outcomes 1 = true := kept.succeeding 1
      unfold dropCluster deleteClusterItem deleteLocations
      simp only [returns_bind, returns_modify, returns_request, returns_ite, returns_pure, first, second, if_true,
        answered_outcomes]
      exact ⟨trivial, rfl⟩
    · rintro removed after ⟨coherent, rfl, database⟩
      refine ⟨rfl, coherent, ?_, ?_, fun group => ?_⟩
      · rw [database]
        exact (FiniteMap.lookup_erase _ _ _).trans (if_pos rfl)
      · rw [database]
        exact (FiniteMap.lookup_erase _ _ _).trans (if_pos rfl)
      · rw [← left]
        have access : Granted after.database cID group ↔ Granted revoked.database cID group := by
          rw [Granted, database]
          rfl
        exact access.trans (held group)
end

end Slate
