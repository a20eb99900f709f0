import Slate.Proofs.ClusterCoherence

/-! Histories of operations on clusters, and what lookups and listings answer after them. -/

namespace Slate
open Library

def ListsClusters (database : Database) (answer : List Cluster) : Prop :=
  (answer.map Cluster.id).Nodup ∧ ∀ cluster, cluster ∈ answer ↔ database.cluster cluster.id = some cluster

/-- While the listing is trusted, the cache holds the table. -/
theorem ClustersCoherent.lists_cached {server : Server} (coherent : ClustersCoherent server)
    (trusted : Trusted server server.clusters.expirationTime) :
    ListsClusters server.database (server.clusters.clusterCache.values.map CacheRecord.record) := by
  constructor
  · have keyed : (server.clusters.clusterCache.values.map CacheRecord.record).map Cluster.id =
        server.clusters.clusterCache.pairs.map Prod.fst := by
      rw [FiniteMap.values, List.map_map, List.map_map]
      apply List.map_congr_left
      rintro ⟨id, entry⟩ member
      exact (coherent.view.byID id entry (FiniteMap.mem_pairs.mp member)).1
    rw [keyed]
    exact server.clusters.clusterCache.pairs_keys_nodup
  · intro cluster
    rw [List.mem_map]
    constructor
    · rintro ⟨entry, member, rfl⟩
      obtain ⟨id, found⟩ := FiniteMap.mem_values.mp member
      exact (coherent.view.byID id entry found).2
    · intro known
      obtain ⟨item, found, -⟩ := Option.bind_eq_some_iff.mp known
      have present := coherent.view.listing trusted cluster.id item found
      obtain ⟨entry, stored⟩ := Option.isSome_iff_exists.mp present
      obtain ⟨same, held⟩ := coherent.view.byID _ _ stored
      refine ⟨entry, FiniteMap.mem_values.mpr ⟨_, stored⟩, ?_⟩
      have again : server.database.cluster cluster.id = some entry.record := same ▸ held
      exact Option.some.inj (again.symm.trans known)

/-- The scan has come this far: every row visited is collected and cached. -/
structure Scanned (start : Server) (visited : List (String × ClusterItem)) (collected : List Cluster) (current : Server) :
    Prop extends ClustersRead start current where
  ids : collected.map Cluster.id = visited.map Prod.fst
  known : ∀ cluster ∈ collected, start.database.cluster cluster.id = some cluster
  stored : ∀ row ∈ visited, (current.clusters.clusterCache.lookup row.1).isSome

private theorem returns_scan {start : Server} (coherent : ClustersCoherent start) :
    Returns ((start.database.clusters.select fun _ item => item.name.isSome).mapM fun row => do
      let cluster ← clusterOfItem row.1 row.2
      cacheCluster cluster
      return cluster) start
      fun collected after => Scanned start (start.database.clusters.select fun _ item => item.name.isSome) collected after := by
  refine returns_mapM _ _ start (Scanned start) ⟨.passed coherent (.refl start) rfl rfl, rfl, by simp, by simp⟩ ?_
  rintro before ⟨id, item⟩ after collected current same scanned
  have selected : (id, item) ∈ start.database.clusters.select fun _ item => item.name.isSome := by simp [same]
  have found := (FiniteMap.mem_select.mp selected).1
  obtain ⟨cluster, read⟩ := Option.isSome_iff_exists.mp (coherent.view.complete id item found)
  have known : start.database.cluster id = some cluster := by simp [Database.cluster, found, read]
  obtain ⟨rfl, -⟩ := ClusterItem.read_name read
  simp only [returns_bind, clusterOfItem_read read, returns_pure]
  refine (returns_cacheCluster_read scanned.coherent (scanned.database ▸ known)).mono ?_
  rintro _ next ⟨filled, mine⟩
  refine ⟨scanned.toClustersRead.trans filled, ?_, ?_, ?_⟩
  · simp [scanned.ids]
  · intro other member
    rw [List.mem_append, List.mem_singleton] at member
    rcases member with early | rfl
    · exact scanned.known other early
    · exact known
  · intro row member
    rw [List.mem_append, List.mem_singleton] at member
    rcases member with early | rfl
    · exact filled.cached row.1 (scanned.stored row early)
    · exact mine

theorem Scanned.lists {start after : Server} {collected : List Cluster}
    (scanned : Scanned start (start.database.clusters.select fun _ item => item.name.isSome) collected after) :
    ListsClusters start.database collected := by
  constructor
  · rw [scanned.ids]
    exact FiniteMap.select_keys_nodup _ _
  · intro cluster
    constructor
    · exact scanned.known cluster
    · intro known
      obtain ⟨item, found, read⟩ := Option.bind_eq_some_iff.mp known
      have named : item.name.isSome = true := by rw [(ClusterItem.read_name read).2.2]; rfl
      have selected : (cluster.id, item) ∈ start.database.clusters.select fun _ item => item.name.isSome :=
        FiniteMap.mem_select.mpr ⟨found, named⟩
      have visited := List.mem_map_of_mem (f := Prod.fst) selected
      rw [← scanned.ids] at visited
      obtain ⟨other, member, same⟩ := List.mem_map.mp visited
      have again := scanned.known other member
      rw [same, known] at again
      exact Option.some.inj again ▸ member

theorem returns_listClusters_exact {server : Server} (coherent : ClustersCoherent server) :
    Returns listClusters server fun answer after =>
      ClustersMoved server after ∧ ListsClusters server.database answer := by
  unfold listClusters
  simp only [returns_bind, returns_now, returns_get, returns_ite, returns_pure]
  have ticked : ClustersRead server server.tick := .passed coherent (.tick server) rfl rfl
  split
  next early => exact ⟨ticked.moved, coherent.lists_cached ⟨0, early⟩⟩
  next =>
    have asked : ClustersRead server server.tick.answered :=
      .passed coherent ((Later.tick server).trans (.answered _)) rfl rfl
    have succeeds : server.tick.outcomes 0 = true := coherent.succeeding 0
    simp only [returns_request, succeeds, if_true]
    refine (returns_scan asked.coherent).mono fun collected after scanned => ⟨⟨?_, ?_⟩, ?_⟩
    · exact ((asked.trans scanned.toClustersRead).toLater.trans (.tick after)).trans (.of_eq rfl rfl)
    · -- the stamp is set when every row is cached
      have kept := scanned.coherent
      refine ⟨(Later.tick after).steady kept.steady, (Later.tick after).succeeding kept.succeeding, ?_⟩
      refine ⟨kept.view.complete, kept.view.unique, kept.view.byID, kept.view.byName, kept.view.configs, ?_⟩
      intro _ id item found
      have initial : server.database.clusters.lookup id = some item := by
        rw [← asked.database, ← scanned.database]
        exact found
      have complete := asked.coherent.view.complete id item initial
      obtain ⟨cluster, read⟩ := Option.isSome_iff_exists.mp complete
      have named : item.name.isSome = true := by rw [(ClusterItem.read_name read).2.2]; rfl
      exact scanned.stored (id, item) (FiniteMap.mem_select.mpr ⟨initial, named⟩)
    · have listed : ListsClusters server.tick.answered.database collected := scanned.lists
      exact listed

inductive ClusterOperation where
  | addCluster (cluster : Cluster)
  | updateCluster (cluster : Cluster)
  | removeCluster (cID : String)
  | setClusterMonitoringCredential (cID : String) (cred : S3Credential)
  | removeClusterMonitoringCredential (cID : String)
  | findClusterByID (cID : String)
  | findClusterByName (name : String)
  | findClusterUsingCredential (cred : S3Credential)
  | listClusters
  | elapse (duration : Time)
  deriving DecidableEq, Repr

namespace ClusterOperation

def execute : ClusterOperation → StoreM Unit
  | .addCluster cluster => do let _ ← Slate.addCluster cluster
  | .updateCluster cluster => do let _ ← Slate.updateCluster cluster
  | .removeCluster cID => do let _ ← Slate.removeCluster cID
  | .setClusterMonitoringCredential cID cred => do let _ ← Slate.setClusterMonitoringCredential cID cred
  | .removeClusterMonitoringCredential cID => do let _ ← Slate.removeClusterMonitoringCredential cID
  | .findClusterByID cID => do let _ ← Slate.findClusterByID cID
  | .findClusterByName name => do let _ ← Slate.findClusterByName name
  | .findClusterUsingCredential cred => do let _ ← Slate.findClusterUsingCredential cred
  | .listClusters => do let _ ← Slate.listClusters
  | .elapse duration => Slate.elapse duration

/-- A new cluster has a fresh ID and a fresh name, an update keeps the name and the
owner, and what is written comes back from the table as it was. A credential is set or
removed on a cluster that exists. -/
def permitted : ClusterOperation → Server → Prop
  | .addCluster cluster, server => cluster.Storable ∧ server.database.clusters.lookup cluster.id = none ∧
      ∀ id item, server.database.clusters.lookup id = some item → item.name ≠ some cluster.name
  | .updateCluster cluster, server => cluster.Storable ∧ server.database.Registers cluster
  | .setClusterMonitoringCredential cID _, server => (server.database.clusters.lookup cID).isSome
  | .removeClusterMonitoringCredential cID, server => (server.database.clusters.lookup cID).isSome
  | _, _ => True

end ClusterOperation

private theorem execute_keeps_clusters (operation : ClusterOperation) (server : Server) (coherent : ClustersCoherent server)
    (permitted : operation.permitted server) :
    Returns operation.execute server fun _ after => ClustersCoherent after := by
  cases operation with
  | addCluster cluster =>
    obtain ⟨storable, freshID, freshName⟩ := permitted
    simp only [ClusterOperation.execute, returns_bind, returns_pure]
    exact (returns_addCluster_moved coherent storable freshID freshName).mono fun _ _ moved => moved.coherent
  | updateCluster cluster =>
    obtain ⟨storable, registered⟩ := permitted
    simp only [ClusterOperation.execute, returns_bind, returns_pure]
    exact (returns_updateCluster_moved coherent storable registered).mono fun _ _ moved => moved.coherent
  | removeCluster cID =>
    simp only [ClusterOperation.execute, returns_bind, returns_pure]
    exact (returns_removeCluster_moved coherent cID).mono fun _ _ moved => moved.coherent
  | setClusterMonitoringCredential cID cred =>
    simp only [ClusterOperation.execute, returns_bind, returns_pure]
    exact (returns_setCredential_moved coherent permitted cred).mono fun _ _ moved => moved.coherent
  | removeClusterMonitoringCredential cID =>
    simp only [ClusterOperation.execute, returns_bind, returns_pure]
    exact (returns_removeCredential_moved coherent permitted).mono fun _ _ moved => moved.coherent
  | findClusterByID cID =>
    simp only [ClusterOperation.execute, returns_bind, returns_pure]
    exact (returns_findClusterByID_exact coherent cID).mono fun _ _ found => found.1.coherent
  | findClusterByName name =>
    simp only [ClusterOperation.execute, returns_bind, returns_pure]
    exact (returns_findClusterByName_exact coherent name).mono fun _ _ found => found.1.coherent
  | findClusterUsingCredential cred =>
    simp only [ClusterOperation.execute, returns_bind, returns_pure]
    exact (returns_findClusterUsingCredential_moved coherent cred).mono fun _ _ moved => moved.coherent
  | listClusters =>
    simp only [ClusterOperation.execute, returns_bind, returns_pure]
    exact (returns_listClusters_exact coherent).mono fun _ _ listed => listed.1.coherent
  | elapse duration =>
    simp only [ClusterOperation.execute, elapse, returns_modify]
    refine ⟨fun first second order => Nat.add_le_add_right (coherent.steady order) duration, coherent.succeeding, ?_⟩
    refine { coherent.view with listing := fun trusted => coherent.view.listing ?_ }
    obtain ⟨n, early⟩ := trusted
    exact ⟨n, (Nat.le_add_right _ _).trans_lt early⟩

/-- After any sequence of operations, lookups answer with the record of the table, the
listing with all of its records, and the configuration on disk is the one in the table. -/
theorem cluster_caches_coherent {server : Server} {history : List ClusterOperation} (fresh : server.clusters = {})
    (complete : ∀ id item, server.database.clusters.lookup id = some item → (item.read id).isSome)
    (unique : ∀ name id item id' item', server.database.clusters.lookup id = some item → item.name = some name →
      server.database.clusters.lookup id' = some item' → item'.name = some name → id = id')
    (steady : Steady server) (succeeding : Succeeding server)
    (allowed : Permitted ClusterOperation.execute ClusterOperation.permitted history server) :
    Returns (history.forM ClusterOperation.execute) server fun _ current =>
      (∀ cID, Returns (findClusterByID cID) current fun answer _ => answer = (current.database.cluster cID).getD {}) ∧
      (∀ name, Returns (findClusterByName name) current fun answer _ => NamesCluster current.database name answer) ∧
      Returns listClusters current (fun answer _ => ListsClusters current.database answer) ∧
      ∀ cID cluster, current.database.cluster cID = some cluster →
        Returns (configPathForCluster cID) current fun config _ => config = cluster.config := by
  have start := ClustersCoherent.of_fresh fresh complete unique steady succeeding
  refine (returns_history execute_keeps_clusters start allowed).mono fun _ current coherent => ?_
  refine ⟨fun cID => ?_, fun name => ?_, ?_, fun cID cluster known => ?_⟩
  · exact (returns_findClusterByID_exact coherent cID).mono fun _ _ found => found.2.1
  · exact (returns_findClusterByName_exact coherent name).mono fun _ _ found => found.2
  · exact (returns_listClusters_exact coherent).mono fun _ _ listed => listed.2
  · exact (returns_configPathForCluster_exact coherent known).mono fun _ _ => And.left

def exampleCluster (cred : S3Credential) : Cluster where
  valid := true
  id := "cluster_1"
  name := "rhea"
  config := "kubeconfig"
  systemNamespace := "slate"
  owningGroup := "group_1"
  owningOrganization := "org"
  monitoringCredential := cred

/-- A cluster is added, updated, listed after its records have expired, and removed. -/
theorem cluster_caches_coherent_run :
    Returns ([.addCluster (exampleCluster {}), .updateCluster { exampleCluster {} with config := "other" },
        .elapse (minutes 31), .listClusters, .removeCluster "cluster_1"].forM ClusterOperation.execute) ({} : Server)
      fun _ current => Returns listClusters current fun answer _ => ListsClusters current.database answer := by
  have storable : ∀ config, Cluster.Storable { exampleCluster {} with config } :=
    fun _ => ⟨rfl, credential_roundtrip ⟨rfl, rfl⟩ (.inl rfl)⟩
  have registered : ∀ config first, ClusterOperation.execute (.addCluster (exampleCluster {})) {} = .ok ⟨⟩ first →
      first.database.Registers { exampleCluster {} with config } := by
    intro config first ran
    cases ran
    exact ⟨_, rfl, rfl, rfl⟩
  have allowed : Permitted ClusterOperation.execute ClusterOperation.permitted
      [.addCluster (exampleCluster {}), .updateCluster { exampleCluster {} with config := "other" },
        .elapse (minutes 31), .listClusters, .removeCluster "cluster_1"] ({} : Server) := by
    refine ⟨⟨storable _, rfl, by simp⟩, fun first ran => ⟨⟨storable _, registered _ first ran⟩, fun _ _ => ?_⟩⟩
    exact ⟨trivial, fun _ _ => ⟨trivial, fun _ _ => ⟨trivial, fun _ _ => trivial⟩⟩⟩
  exact (cluster_caches_coherent rfl (by simp) (by simp) (fun _ _ _ => le_rfl) (fun _ => rfl) allowed).mono
    fun _ _ agree => agree.2.2.1

/-- A credential without a secret key is cached with the cluster it comes with, but its
text is not that of a credential. -/
theorem half_empty_credential_cached :
    let cred : S3Credential := ⟨"key", "", false, false⟩
    ' ' ∉ cred.accessKey.toList ∧ ' ' ∉ cred.secretKey.toList ∧
      Returns (addCluster (exampleCluster cred) >>= fun _ => findClusterByID "cluster_1") ({} : Server) fun answer after =>
        answer ≠ (after.database.cluster "cluster_1").getD {} := by
  refine ⟨by decide, by decide, ?_⟩
  change _ ≠ _
  decide

end Slate
