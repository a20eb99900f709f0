import Slate.ClusterRecords
import Slate.Proofs.Parts

/-! Coherence of the caches of clusters: by ID, by name, the configuration files and the
complete listing, through every operation that changes or reads a record. -/

namespace Slate
open Library

structure ClusterView where
  table : FiniteMap String ClusterItem
  main : CuckooHashMap String (CacheRecord Cluster)
  byName : CuckooHashMap String (CacheRecord Cluster)
  configs : CuckooHashMap String String
  expirationTime : Time

def clusterView : ServerPart ClusterView where
  read := fun server => {
    table := server.database.clusters
    main := server.clusters.clusterCache
    byName := server.clusters.clusterByNameCache
    configs := server.clusters.clusterConfigs
    expirationTime := server.clusters.expirationTime }
  tick := fun _ => rfl
  answered := fun _ => rfl

namespace ClusterView

def cluster (view : ClusterView) (cID : String) : Option Cluster := view.table.lookup cID >>= fun item => item.read cID

/-- Rows are complete and have names of their own, what is cached is what the table
holds, a record cached by name is cached by ID as well, and its configuration is on
disk. While the complete listing is trusted, every row is cached. -/
structure Coherent (trusted : Prop) (view : ClusterView) : Prop where
  complete : ∀ id item, view.table.lookup id = some item → (item.read id).isSome
  unique : ∀ name id item id' item', view.table.lookup id = some item → item.name = some name →
    view.table.lookup id' = some item' → item'.name = some name → id = id'
  byID : Keeps view.main Cluster.id fun cluster => view.cluster cluster.id = some cluster
  byName : Keeps view.byName Cluster.name fun cluster =>
    view.cluster cluster.id = some cluster ∧ (view.main.lookup cluster.id).isSome
  configs : ∀ id entry, view.main.lookup id = some entry → view.configs.lookup id = some entry.record.config
  listing : trusted → ∀ id item, view.table.lookup id = some item → (view.main.lookup id).isSome

end ClusterView

/-- What a row has for each attribute of the cluster it holds. -/
structure ClusterItem.Reads (item : ClusterItem) (id : String) (cluster : Cluster) : Prop where
  id : cluster.id = id
  valid : cluster.valid = true
  name : item.name = some cluster.name
  owningGroup : item.owningGroup = some cluster.owningGroup
  credential : cluster.monitoringCredential = S3Credential.deserialize (item.monCredential.getD missingString)

theorem ClusterItem.reads {item : ClusterItem} {id : String} {cluster : Cluster} (read : item.read id = some cluster) :
    item.Reads id cluster := by
  unfold ClusterItem.read at read
  cases named : item.name <;> simp only [named, Option.bind_eq_bind, Option.bind_some, Option.bind_none, reduceCtorEq] at read
  cases owned : item.owningGroup <;> simp only [owned, Option.bind_some, Option.bind_none, reduceCtorEq] at read
  cases configured : item.config <;> simp only [configured, Option.bind_some, Option.bind_none, reduceCtorEq] at read
  cases spaced : item.systemNamespace <;> simp only [spaced, Option.bind_some, Option.bind_none, reduceCtorEq] at read
  rw [← Option.some.inj read]
  exact ⟨rfl, rfl, named, owned, rfl⟩

theorem ClusterItem.read_name {item : ClusterItem} {id : String} {cluster : Cluster} (read : item.read id = some cluster) :
    cluster.id = id ∧ cluster.valid = true ∧ item.name = some cluster.name :=
  have reads := ClusterItem.reads read
  ⟨reads.id, reads.valid, reads.name⟩

namespace ClusterView

private theorem row_of_cluster {view : ClusterView} {id : String} {cluster : Cluster} (known : view.cluster id = some cluster) :
    ∃ item, view.table.lookup id = some item ∧ item.read id = some cluster := Option.bind_eq_some_iff.mp known

/-- The second view is the first with the row and the record of one cluster put in. -/
structure Puts (before after : ClusterView) (cluster : Cluster) (item : ClusterItem) : Prop where
  table : ∀ id, after.table.lookup id = if id = cluster.id then some item else before.table.lookup id
  cached : ∃ limit, (∀ id, after.main.lookup id = if id = cluster.id then some ⟨cluster, limit⟩ else before.main.lookup id) ∧
    ∀ name, after.byName.lookup name = if name = cluster.name then some ⟨cluster, limit⟩ else before.byName.lookup name
  configs : ∀ id, after.configs.lookup id = if id = cluster.id then some cluster.config else before.configs.lookup id
  expirationTime : after.expirationTime = before.expirationTime

/-- A cluster may be put in if nobody else has its name and it has not had another. -/
theorem Coherent.put {trusted : Prop} {before after : ClusterView} {cluster : Cluster} {item : ClusterItem}
    (coherent : before.Coherent trusted) (puts : before.Puts after cluster item) (read : item.read cluster.id = some cluster)
    (alone : ∀ id other, before.table.lookup id = some other → other.name = some cluster.name → id = cluster.id)
    (renamed : ∀ other, before.table.lookup cluster.id = some other → other.name = some cluster.name) :
    after.Coherent trusted := by
  obtain ⟨limit, main, byName⟩ := puts.cached
  have self : after.cluster cluster.id = some cluster := by
    rw [ClusterView.cluster, puts.table, if_pos rfl]
    exact read
  have others : ∀ id, id ≠ cluster.id → after.cluster id = before.cluster id := by
    intro id different
    rw [ClusterView.cluster, puts.table, if_neg different]
    rfl
  have mainKept : ∀ id, (before.main.lookup id).isSome → (after.main.lookup id).isSome := by
    intro id present
    rw [main]
    split
    · rfl
    · exact present
  have named := (ClusterItem.read_name read).2.2
  refine ⟨?_, ?_, ?_, ?_, ?_, ?_⟩
  · intro id other found
    rw [puts.table] at found
    split at found
    next same =>
      cases found
      rw [same, read]
      rfl
    next => exact coherent.complete id other found
  · intro name id first id' second found hasName found' hasName'
    rw [puts.table] at found found'
    split at found
    next same =>
      cases found
      obtain rfl : cluster.name = name := Option.some.inj (named.symm.trans hasName)
      split at found'
      next same' => rw [same, same']
      next => rw [same, alone id' second found' hasName']
    next =>
      split at found'
      next same' =>
        cases found'
        obtain rfl : cluster.name = name := Option.some.inj (named.symm.trans hasName')
        rw [same', alone id first found hasName]
      next => exact coherent.unique name id first id' second found hasName found' hasName'
  · intro id entry found
    rw [main] at found
    split at found
    next same =>
      cases found
      exact ⟨same.symm, self⟩
    next different =>
      obtain ⟨same, held⟩ := coherent.byID id entry found
      exact ⟨same, (others _ (same ▸ different)).trans held⟩
  · intro name entry found
    rw [byName] at found
    split at found
    next same =>
      cases found
      exact ⟨same.symm, self, by rw [main, if_pos rfl]; rfl⟩
    next different =>
      obtain ⟨same, held, present⟩ := coherent.byName name entry found
      refine ⟨same, (others _ fun equal => different ?_).trans held, mainKept _ present⟩
      -- the row of this cluster has had this name only
      obtain ⟨row, stored, reads⟩ := row_of_cluster held
      rw [equal] at stored
      have twice := (ClusterItem.read_name reads).2.2.symm.trans (renamed row stored)
      exact same.symm.trans (Option.some.inj twice)
  · intro id entry found
    rw [main] at found
    rw [puts.configs]
    split at found
    next same =>
      cases found
      rw [if_pos same]
    next different =>
      rw [if_neg different]
      exact coherent.configs id entry found
  · intro trusts id other found
    rw [puts.table] at found
    split at found
    next same =>
      rw [main, if_pos same]
      rfl
    next => exact mainKept id (coherent.listing trusts id other found)

/-- The second view is the first without one cluster. -/
structure Drops (before after : ClusterView) (cID : String) : Prop where
  table : ∀ id, after.table.lookup id = if id = cID then none else before.table.lookup id
  main : ∀ id, after.main.lookup id = if id = cID then none else before.main.lookup id
  byName : ∀ name, after.byName.lookup name =
    if (before.main.lookup cID).map (fun entry => entry.record.name) = some name then none else before.byName.lookup name
  configs : ∀ id, after.configs.lookup id = if id = cID then none else before.configs.lookup id
  expirationTime : after.expirationTime = before.expirationTime

theorem Coherent.drop {trusted : Prop} (before : ClusterView) {after : ClusterView} (cID : String)
    (coherent : before.Coherent trusted) (drops : before.Drops after cID) : after.Coherent trusted := by
  have rows : ∀ {id item}, after.table.lookup id = some item → id ≠ cID ∧ before.table.lookup id = some item := by
    intro id item found
    rw [drops.table] at found
    split at found
    next => cases found
    next different => exact ⟨different, found⟩
  have others : ∀ id, id ≠ cID → after.cluster id = before.cluster id := by
    intro id different
    rw [ClusterView.cluster, drops.table, if_neg different]
    rfl
  have entries : ∀ {id entry}, after.main.lookup id = some entry → id ≠ cID ∧ before.main.lookup id = some entry := by
    intro id entry found
    rw [drops.main] at found
    split at found
    next => cases found
    next different => exact ⟨different, found⟩
  refine ⟨?_, ?_, ?_, ?_, ?_, ?_⟩
  · exact fun id item found => coherent.complete id item (rows found).2
  · intro name id item id' item' found hasName found' hasName'
    exact coherent.unique name id item id' item' (rows found).2 hasName (rows found').2 hasName'
  · intro id entry found
    obtain ⟨different, old⟩ := entries found
    obtain ⟨same, held⟩ := coherent.byID id entry old
    exact ⟨same, (others _ (same ▸ different)).trans held⟩
  · intro name entry found
    rw [drops.byName] at found
    split at found
    next => cases found
    next unnamed =>
      obtain ⟨same, held, present⟩ := coherent.byName name entry found
      have different : entry.record.id ≠ cID := by
        rintro rfl
        -- what is cached by name is cached by ID, and is the same record
        obtain ⟨twin, cached⟩ := Option.isSome_iff_exists.mp present
        obtain ⟨sameID, known⟩ := coherent.byID _ _ cached
        rw [sameID, held] at known
        have equal := Option.some.inj known
        apply unnamed
        rw [cached, Option.map_some, ← equal, same]
      refine ⟨same, (others _ different).trans held, ?_⟩
      rw [drops.main, if_neg different]
      exact present
  · intro id entry found
    obtain ⟨different, old⟩ := entries found
    rw [drops.configs, if_neg different]
    exact coherent.configs id entry old
  · intro trusts id item found
    obtain ⟨different, old⟩ := rows found
    rw [drops.main, if_neg different]
    exact coherent.listing trusts id item old

end ClusterView

/-- The caches of clusters are coherent, and every request to the database succeeds. -/
structure ClustersCoherent (server : Server) : Prop where
  steady : Steady server
  succeeding : Succeeding server
  view : (clusterView.read server).Coherent (Trusted server server.clusters.expirationTime)

/-- Empty caches are coherent. -/
theorem ClustersCoherent.of_fresh {server : Server} (fresh : server.clusters = {})
    (complete : ∀ id item, server.database.clusters.lookup id = some item → (item.read id).isSome)
    (unique : ∀ name id item id' item', server.database.clusters.lookup id = some item → item.name = some name →
      server.database.clusters.lookup id' = some item' → item'.name = some name → id = id')
    (steady : Steady server) (succeeding : Succeeding server) : ClustersCoherent server := by
  refine ⟨steady, succeeding, complete, unique, ?_, ?_, ?_, ?_⟩
  · simpa only [clusterView, fresh] using Keeps.empty
  · simpa only [clusterView, fresh] using Keeps.empty
  · intro id entry found
    simp [clusterView, fresh] at found
  · intro trusted
    rw [fresh] at trusted
    exact absurd trusted (not_trusted_zero server)

/-- An operation that reads keeps the caches coherent, and what is cached by ID stays so. -/
structure ClustersRead (before after : Server) : Prop extends Later before after where
  database : after.database = before.database
  coherent : ClustersCoherent after
  cached : ∀ id, (before.clusters.clusterCache.lookup id).isSome → (after.clusters.clusterCache.lookup id).isSome

namespace ClustersRead

theorem passed {before after : Server} (coherent : ClustersCoherent before) (later : Later before after)
    (database : after.database = before.database) (clusters : clusterView.read after = clusterView.read before) :
    ClustersRead before after where
  toLater := later
  database := database
  coherent := by
    refine ⟨later.steady coherent.steady, later.succeeding coherent.succeeding, ?_⟩
    rw [clusters]
    have same : after.clusters.expirationTime = before.clusters.expirationTime := congrArg ClusterView.expirationTime clusters
    rw [same]
    exact { coherent.view with listing := fun trusted => coherent.view.listing (later.trusted trusted) }
  cached := fun id present => by
    have same : after.clusters.clusterCache = before.clusters.clusterCache := congrArg ClusterView.main clusters
    rw [same]
    exact present

theorem trans {first second third : Server} (early : ClustersRead first second) (late : ClustersRead second third) :
    ClustersRead first third :=
  ⟨early.toLater.trans late.toLater, late.database.trans early.database, late.coherent,
    fun id present => late.cached id (early.cached id present)⟩

end ClustersRead

private theorem Database.cluster_eq (server : Server) : server.database.cluster = (clusterView.read server).cluster := rfl

/-- Caching a cluster puts its record, its name and its configuration in. -/
theorem returns_cacheCluster_exactly (cluster : Cluster) (server : Server) :
    Returns (cacheCluster cluster) server fun _ after => Later server after ∧ after.database = server.database ∧
      ∃ limit, clusterView.read after = { clusterView.read server with
        main := server.clusters.clusterCache.insert cluster.id ⟨cluster, limit⟩
        byName := server.clusters.clusterByNameCache.insert cluster.name ⟨cluster, limit⟩
        configs := server.clusters.clusterConfigs.insert cluster.id cluster.config } := by
  unfold cacheCluster writeClusterConfigToDisk
  simp only [returns_bind, returns_lasting, returns_now, returns_modify]
  exact ⟨((Later.tick server).trans (.tick _)).trans (.of_eq rfl rfl), rfl, _, rfl⟩

/-- A change that puts a cluster in, followed by caching the cluster, keeps the caches
coherent. -/
theorem returns_cacheCluster_put {before server : Server} {cluster : Cluster} (item : ClusterItem)
    (coherent : ClustersCoherent before) (later : Later before server)
    (table : ∀ id, server.database.clusters.lookup id =
      if id = cluster.id then some item else before.database.clusters.lookup id)
    (main : ∀ id, id ≠ cluster.id → server.clusters.clusterCache.lookup id = before.clusters.clusterCache.lookup id)
    (byName : server.clusters.clusterByNameCache = before.clusters.clusterByNameCache)
    (configs : server.clusters.clusterConfigs = before.clusters.clusterConfigs)
    (expirationTime : server.clusters.expirationTime = before.clusters.expirationTime)
    (read : item.read cluster.id = some cluster)
    (alone : ∀ id other, before.database.clusters.lookup id = some other → other.name = some cluster.name → id = cluster.id)
    (renamed : ∀ other, before.database.clusters.lookup cluster.id = some other → other.name = some cluster.name) :
    Returns (cacheCluster cluster) server fun _ after => Later before after ∧ after.database = server.database ∧
      ClustersCoherent after ∧ (after.clusters.clusterCache.lookup cluster.id).isSome ∧
      ∀ id, (before.clusters.clusterCache.lookup id).isSome → (after.clusters.clusterCache.lookup id).isSome := by
  refine (returns_cacheCluster_exactly cluster server).mono ?_
  rintro _ after ⟨moved, database, limit, same⟩
  have passed := later.trans moved
  have mainAfter : ∀ id, after.clusters.clusterCache.lookup id =
      if id = cluster.id then some ⟨cluster, limit⟩ else before.clusters.clusterCache.lookup id := by
    intro id
    have inserted : after.clusters.clusterCache = server.clusters.clusterCache.insert cluster.id ⟨cluster, limit⟩ :=
      congrArg ClusterView.main same
    rw [inserted, FiniteMap.lookup_insert]
    split
    next => rfl
    next different => exact main id different
  have puts : (clusterView.read before).Puts (clusterView.read after) cluster item := by
    rw [same]
    refine ⟨table, ⟨limit, ?_, ?_⟩, ?_, expirationTime⟩
    · intro id
      have inserted : after.clusters.clusterCache = server.clusters.clusterCache.insert cluster.id ⟨cluster, limit⟩ :=
        congrArg ClusterView.main same
      exact inserted ▸ mainAfter id
    · intro name
      exact (FiniteMap.lookup_insert _ _ _ _).trans (by rw [byName]; rfl)
    · intro id
      exact (FiniteMap.lookup_insert _ _ _ _).trans (by rw [configs]; rfl)
  refine ⟨passed, database, ⟨passed.steady coherent.steady, passed.succeeding coherent.succeeding, ?_⟩, ?_, ?_⟩
  · have stamp : after.clusters.expirationTime = before.clusters.expirationTime := puts.expirationTime
    rw [stamp]
    have kept := coherent.view.put puts read alone renamed
    exact { kept with listing := fun trusted => kept.listing (passed.trusted trusted) }
  · rw [mainAfter, if_pos rfl]
    rfl
  · intro id present
    rw [mainAfter]
    split
    · rfl
    · exact present

/-- Caching what the table holds is a reader's business. -/
theorem returns_cacheCluster_read {server : Server} {cluster : Cluster} (coherent : ClustersCoherent server)
    (known : server.database.cluster cluster.id = some cluster) :
    Returns (cacheCluster cluster) server fun _ after => ClustersRead server after ∧
      (after.clusters.clusterCache.lookup cluster.id).isSome := by
  obtain ⟨item, found, read⟩ := Option.bind_eq_some_iff.mp known
  have named := (ClusterItem.read_name read).2.2
  refine (returns_cacheCluster_put item coherent (.refl server) ?_ (fun _ _ => rfl) rfl rfl rfl read ?_ ?_).mono ?_
  · intro id
    split
    next same => rw [same]; exact found
    next => rfl
  · exact fun id other stored hasName => coherent.view.unique _ id other _ item stored hasName found named
  · intro other stored
    obtain rfl : other = item := Option.some.inj (stored.symm.trans found)
    exact named
  · rintro _ after ⟨later, database, kept, mine, others⟩
    exact ⟨⟨later, database, kept, others⟩, mine⟩

theorem returns_findClusterByID_exact {server : Server} (coherent : ClustersCoherent server) (cID : String) :
    Returns (findClusterByID cID) server fun answer after => ClustersRead server after ∧
      answer = (server.database.cluster cID).getD {} ∧
      (answer.valid = true → (after.clusters.clusterCache.lookup cID).isSome) := by
  unfold findClusterByID
  simp only [returns_bind, returns_get]
  refine returns_cached ?_ ?_
  · intro entry present _
    obtain ⟨same, held⟩ := coherent.view.byID cID entry present
    refine ⟨.passed coherent (.tick server) rfl rfl, ?_, fun _ => ?_⟩
    · rw [← same, Database.cluster_eq, held]
      rfl
    · exact Option.isSome_iff_exists.mpr ⟨entry, present⟩
  · intro passed moved
    have later : Later server passed := by
      rcases moved with rfl | rfl
      · exact .refl _
      · exact .tick _
    have database : passed.database = server.database := by rcases moved with rfl | rfl <;> rfl
    have view : clusterView.read passed = clusterView.read server := by rcases moved with rfl | rfl <;> rfl
    have asked : ClustersRead server passed.answered := .passed coherent (later.trans (.answered passed)) database view
    simp only [returns_bind, returns_request, returns_ite, returns_pure, returns_get,
      later.succeeding coherent.succeeding 0, if_true]
    rw [answered_database, database]
    cases found : server.database.clusters.lookup cID with
    | none =>
      refine ⟨asked, ?_, fun valid => by cases valid⟩
      simp [Database.cluster, found]
    | some item =>
      obtain ⟨cluster, read⟩ := Option.isSome_iff_exists.mp (coherent.view.complete cID item found)
      have known : server.database.cluster cID = some cluster := by simp [Database.cluster, found, read]
      obtain ⟨rfl, -⟩ := ClusterItem.read_name read
      simp only [returns_bind, clusterOfItem_read read, returns_pure]
      refine (returns_cacheCluster_read asked.coherent (asked.database ▸ known)).mono ?_
      rintro _ after ⟨filled, mine⟩
      exact ⟨asked.trans filled, by rw [known]; rfl, fun _ => mine⟩

/-- The configuration of a cluster that is known is on disk. -/
theorem returns_configPathForCluster_exact {server : Server} (coherent : ClustersCoherent server) {cID : String}
    {cluster : Cluster} (known : server.database.cluster cID = some cluster) :
    Returns (configPathForCluster cID) server fun config after => config = cluster.config ∧ ClustersRead server after := by
  unfold configPathForCluster
  simp only [returns_bind]
  refine (returns_findClusterByID_exact coherent cID).mono ?_
  rintro answer after ⟨read, rfl, present⟩
  obtain ⟨item, -, reads⟩ := Option.bind_eq_some_iff.mp known
  have valid := (ClusterItem.read_name reads).2.1
  rw [known] at present ⊢
  simp only [Option.getD_some] at present ⊢
  simp only [valid, Bool.not_true, Bool.false_eq_true, if_false, returns_bind, returns_get]
  obtain ⟨entry, stored⟩ := Option.isSome_iff_exists.mp (present valid)
  have written := read.coherent.view.configs cID entry stored
  obtain ⟨same, held⟩ := read.coherent.view.byID cID entry stored
  have again : server.database.cluster cID = some entry.record := by
    rw [← read.database, ← same]
    exact held
  have found : after.clusters.clusterConfigs.lookup cID = some entry.record.config := written
  rw [found, Option.some.inj (known.symm.trans again)]
  exact ⟨rfl, read⟩

def NamesCluster (database : Database) (name : String) (answer : Cluster) : Prop :=
  (database.cluster answer.id = some answer ∧ answer.name = name) ∨
    answer = {} ∧ ∀ id item, database.clusters.lookup id = some item → item.name ≠ some name

theorem returns_findClusterByName_exact {server : Server} (coherent : ClustersCoherent server) (name : String) :
    Returns (findClusterByName name) server fun answer after => ClustersRead server after ∧
      NamesCluster server.database name answer := by
  unfold findClusterByName
  simp only [returns_bind, returns_get]
  refine returns_cached ?_ ?_
  · intro entry present _
    obtain ⟨same, held, -⟩ := coherent.view.byName name entry present
    exact ⟨.passed coherent (.tick server) rfl rfl, .inl ⟨held, same⟩⟩
  · intro passed moved
    have later : Later server passed := by
      rcases moved with rfl | rfl
      · exact .refl _
      · exact .tick _
    have database : passed.database = server.database := by rcases moved with rfl | rfl <;> rfl
    have view : clusterView.read passed = clusterView.read server := by rcases moved with rfl | rfl <;> rfl
    have asked : ClustersRead server passed.answered := .passed coherent (later.trans (.answered passed)) database view
    simp only [returns_bind, returns_request, returns_ite, returns_pure, returns_get,
      later.succeeding coherent.succeeding 0, if_true]
    rw [answered_database, database]
    have cases := FiniteMap.select_cases server.database.clusters (fun _ item => item.name == some name)
      fun id item id' item' held chosen held' chosen' =>
        coherent.view.unique name id item id' item' held (beq_iff_eq.mp chosen) held' (beq_iff_eq.mp chosen')
    obtain ⟨selected, none⟩ | ⟨id, item, selected, stored, chosen⟩ := cases
    · rw [selected]
      exact ⟨asked, .inr ⟨rfl, fun id item held same => none id item held (beq_iff_eq.mpr same)⟩⟩
    · rw [selected]
      obtain ⟨cluster, read⟩ := Option.isSome_iff_exists.mp (coherent.view.complete id item stored)
      have known : server.database.cluster id = some cluster := by simp [Database.cluster, stored, read]
      obtain ⟨rfl, -, named⟩ := ClusterItem.read_name read
      simp only [returns_bind, clusterOfItem_read read, returns_pure]
      refine (returns_cacheCluster_read asked.coherent (asked.database ▸ known)).mono ?_
      rintro _ after ⟨filled, -⟩
      exact ⟨asked.trans filled, .inl ⟨known, Option.some.inj (named.symm.trans (beq_iff_eq.mp chosen))⟩⟩

/-- An operation has been executed: the caches are coherent, and time has passed. -/
structure ClustersMoved (before after : Server) : Prop extends Later before after where
  coherent : ClustersCoherent after

theorem ClustersRead.moved {before after : Server} (read : ClustersRead before after) : ClustersMoved before after :=
  ⟨read.toLater, read.coherent⟩

theorem ClustersMoved.trans {first second third : Server} (early : ClustersMoved first second)
    (late : ClustersMoved second third) : ClustersMoved first third :=
  ⟨early.toLater.trans late.toLater, late.coherent⟩

/-- A program that leaves the clusters alone keeps the caches coherent. -/
theorem ClustersCoherent.passes {α : Type} {program : StoreM α} {server : Server} (coherent : ClustersCoherent server)
    (passes : Passes clusterView program) : Returns program server fun _ after => ClustersMoved server after := by
  refine (passes server).mono ?_
  rintro _ after ⟨later, same⟩
  refine ⟨later, later.steady coherent.steady, later.succeeding coherent.succeeding, ?_⟩
  rw [same]
  have stamp : after.clusters.expirationTime = server.clusters.expirationTime := congrArg ClusterView.expirationTime same
  rw [stamp]
  exact { coherent.view with listing := fun trusted => coherent.view.listing (later.trusted trusted) }

private theorem returns_normalizeClusterID_moved {server : Server} (coherent : ClustersCoherent server) (cID : String) :
    Returns (normalizeClusterID cID) server fun _ after => ClustersMoved server after := by
  unfold normalizeClusterID
  rw [returns_ite]
  split
  next =>
    simp only [returns_bind]
    refine (returns_findClusterByName_exact coherent cID).mono ?_
    rintro cluster after ⟨read, -⟩
    rw [returns_ite]
    split <;> exact read.moved
  next => exact ⟨.refl server, coherent⟩

private theorem passes_accessCached (cID value : String) : Passes clusterView (accessCached cID value) := by
  unfold accessCached
  refine Passes.gets.bind fun server => ?_
  cases server.clusters.clusterGroupAccessCache.findValue cID value with
  | none => exact .pure _
  | some record => exact (Passes.current record).bind fun _ => .ite (fun _ => .pure _) fun _ => .pure _

private theorem passes_cacheAccess (cID value : String) : Passes clusterView (cacheAccess cID value) := by
  unfold cacheAccess
  refine (Passes.lasting _ _).bind fun record => Passes.now.bind fun reading => ?_
  exact .modifies (fun _ => rfl) (fun _ => rfl) fun _ => rfl

private theorem passes_queryAccess (groupID cID : String) : Passes clusterView (queryAccess groupID cID) := by
  unfold queryAccess accessQuery
  refine (Passes.request.bind fun _ => .ite (fun _ => Passes.gets.bind fun _ => .pure _) fun _ => .pure _).bind ?_
  intro found
  cases found with
  | none => exact .pure _
  | some found => exact (passes_cacheAccess _ _).bind fun _ => .pure _

theorem passes_clusterAllowsAllGroups (cID : String) : Passes clusterView (clusterAllowsAllGroups cID) := by
  unfold clusterAllowsAllGroups
  refine (passes_accessCached _ _).bind fun record => ?_
  cases record with
  | some record => exact (Passes.current record).bind fun _ => .pure _
  | none =>
    refine (passes_accessCached _ _).bind fun record => ?_
    cases record with
    | some => exact .pure _
    | none => exact passes_queryAccess _ _

theorem passes_revokeAccess (groupID cID : String) : Passes clusterView (revokeAccess groupID cID) := by
  unfold revokeAccess forgetAccess deleteAccess
  refine Passes.bind ?_ fun _ => Passes.request.bind fun _ => .ite (fun _ => Passes.bind ?_ fun _ => ?_) fun _ => .pure _
  · exact .modifies (fun _ => rfl) (fun _ => rfl) fun _ => rfl
  · exact .modifies (fun _ => rfl) (fun _ => rfl) fun _ => rfl
  · exact (passes_cacheAccess _ _).bind fun _ => .pure _

private theorem returns_removeGroupFromCluster_moved {server : Server} (coherent : ClustersCoherent server) {group : String}
    (guest : Guest group) (cID : String) :
    Returns (removeGroupFromCluster group cID) server fun _ after => ClustersMoved server after := by
  unfold removeGroupFromCluster withNormalized
  simp only [normalizeGroupID_guest guest, returns_bind, returns_pure]
  refine (returns_normalizeClusterID_moved coherent cID).mono fun normalized middle moved => ?_
  cases normalized with
  | none => exact moved
  | some cID => exact (moved.coherent.passes (passes_revokeAccess group cID)).mono fun _ _ late => moved.trans late

private theorem returns_listGroupsAllowedOnCluster_moved {server : Server} (coherent : ClustersCoherent server) (cID : String) :
    Returns (listGroupsAllowedOnCluster cID false) server fun groups after =>
      ClustersMoved server after ∧ ∀ group ∈ groups, Guest group := by
  unfold listGroupsAllowedOnCluster
  simp only [returns_bind]
  refine (returns_normalizeClusterID_moved coherent cID).mono fun normalized middle moved => ?_
  cases normalized with
  | none => exact ⟨moved, fun _ member => by cases member⟩
  | some cID =>
    simp only [returns_bind]
    refine (moved.coherent.passes (passes_clusterAllowsAllGroups cID)).mono fun allowed later passed => ?_
    simp only [returns_ite, returns_pure, returns_bind, returns_request, returns_get, Bool.false_eq_true, if_false]
    have reached := moved.trans passed
    split
    next =>
      refine ⟨reached, fun group member => .inl ?_⟩
      simpa using member
    next =>
      have asked : ClustersMoved server later.answered :=
        reached.trans (ClustersRead.passed reached.coherent (.answered later) rfl rfl).moved
      split
      next =>
        refine ⟨asked, fun group member => .inr ?_⟩
        obtain ⟨⟨⟨cluster, group⟩, _⟩, selected, rfl⟩ := List.mem_map.mp member
        have chosen := (FiniteMap.mem_select.mp selected).2
        simp only [Bool.and_eq_true] at chosen
        exact chosen.2
      next => exact ⟨asked, fun _ member => by cases member⟩

section Forget
variable (caches : ClusterCaches) (cID : String)

private theorem ClusterCaches.forget_expirationTime : (caches.forget cID).expirationTime = caches.expirationTime := by
  unfold ClusterCaches.forget
  split <;> rfl

private theorem ClusterCaches.forget_clusterCache (id : String) :
    (caches.forget cID).clusterCache.lookup id = if id = cID then none else caches.clusterCache.lookup id := by
  unfold ClusterCaches.forget
  split <;> exact FiniteMap.lookup_erase _ _ _

private theorem ClusterCaches.forget_clusterConfigs (id : String) :
    (caches.forget cID).clusterConfigs.lookup id = if id = cID then none else caches.clusterConfigs.lookup id := by
  unfold ClusterCaches.forget
  split <;> exact FiniteMap.lookup_erase _ _ _

private theorem ClusterCaches.forget_clusterByNameCache (name : String) :
    (caches.forget cID).clusterByNameCache.lookup name =
      if (caches.clusterCache.lookup cID).map (fun entry => entry.record.name) = some name then none
      else caches.clusterByNameCache.lookup name := by
  unfold ClusterCaches.forget
  cases caches.clusterCache.lookup cID with
  | none => simp
  | some entry => simp only [Option.map_some, Option.some.injEq, FiniteMap.lookup_erase, eq_comm]
end Forget

/-- Dropping a cluster takes its record, its name and its configuration out. -/
theorem returns_dropCluster {server : Server} (coherent : ClustersCoherent server) (cID : String) :
    Returns (dropCluster cID) server fun _ after => ClustersMoved server after := by
  have succeeds := coherent.succeeding
  unfold dropCluster deleteClusterItem deleteLocations
  simp only [returns_bind, returns_modify, returns_request, returns_ite, returns_pure]
  have first : server.outcomes 0 = true := succeeds 0
  have second : server.outcomes 1 = true := succeeds 1
  simp only [first, answered_outcomes, second, if_true]
  refine ⟨((Later.answered server).trans (.answered _)).trans (.of_eq rfl rfl), coherent.steady,
    fun n => succeeds (n + 2), ?_⟩
  refine ClusterView.Coherent.drop (clusterView.read server) cID ?_ ?_
  · refine { coherent.view with listing := fun trusted => coherent.view.listing ?_ }
    exact server.clusters.forget_expirationTime cID ▸ trusted
  · exact ⟨fun id => FiniteMap.lookup_erase _ _ _, server.clusters.forget_clusterCache cID,
      server.clusters.forget_clusterByNameCache cID, server.clusters.forget_clusterConfigs cID,
      server.clusters.forget_expirationTime cID⟩

theorem returns_removeCluster_moved {server : Server} (coherent : ClustersCoherent server) (cID : String) :
    Returns (removeCluster cID) server fun _ after => ClustersMoved server after := by
  unfold removeCluster
  simp only [returns_bind]
  refine (returns_listGroupsAllowedOnCluster_moved coherent cID).mono ?_
  rintro groups middle ⟨moved, guests⟩
  refine (returns_forM groups _ middle (fun _ current => ClustersMoved server current) moved ?_).mono ?_
  · intro before group after current same kept
    simp only [returns_bind, returns_pure]
    refine (returns_removeGroupFromCluster_moved kept.coherent (guests group (by simp [same])) cID).mono ?_
    exact fun _ _ late => kept.trans late
  · intro _ later kept
    exact (returns_dropCluster kept.coherent cID).mono fun _ _ late => kept.trans late

/-- A cluster that comes back from the table as it was put there. -/
structure Cluster.Storable (cluster : Cluster) : Prop where
  valid : cluster.valid = true
  credential : S3Credential.deserialize cluster.monitoringCredential.serialize = cluster.monitoringCredential

theorem Cluster.Storable.read {cluster : Cluster} (storable : cluster.Storable) :
    (itemOfCluster cluster).read cluster.id = some cluster := by
  obtain ⟨valid, credential⟩ := storable
  cases cluster
  cases valid
  simp only [ClusterItem.read, itemOfCluster, Option.bind_eq_bind, Option.bind_some, Option.getD_some, credential]
  rfl

/-- No credential is stored as such, and a pair of keys as these, provided that neither
is empty and the first has no space. -/
theorem credential_roundtrip {cred : S3Credential} (plain : cred.inUse = false ∧ cred.revoked = false)
    (keys : cred = {} ∨ cred.usable = true ∧ ' ' ∉ cred.accessKey.toList) :
    S3Credential.deserialize cred.serialize = cred := by
  rcases keys with rfl | ⟨usable, spaceless⟩
  · decide
  · obtain ⟨accessKey, secretKey, inUse, revoked⟩ := cred
    obtain ⟨rfl, rfl⟩ := plain
    have chars : (S3Credential.serialize ⟨accessKey, secretKey, false, false⟩).toList =
        accessKey.toList ++ ' ' :: secretKey.toList := by
      simp [S3Credential.serialize]
    have pos : (accessKey.toList ++ ' ' :: secretKey.toList).findIdx (· == ' ') = accessKey.toList.length := by
      rw [List.findIdx_append, if_neg]
      · simp [List.findIdx_cons]
      · simpa using spaceless
    have first : 0 < accessKey.toList.length := by
      have nonempty : accessKey ≠ "" := by
        rintro rfl
        simp [S3Credential.usable] at usable
      rw [List.length_pos_iff]
      exact fun none => nonempty (String.toList_eq_nil_iff.mp none)
    have second : 0 < secretKey.toList.length := by
      have nonempty : secretKey ≠ "" := by
        rintro rfl
        simp [S3Credential.usable] at usable
      rw [List.length_pos_iff]
      exact fun none => nonempty (String.toList_eq_nil_iff.mp none)
    unfold S3Credential.deserialize
    simp only [chars, pos]
    rw [if_pos]
    · have rest : (accessKey.toList ++ ' ' :: secretKey.toList).drop (accessKey.toList.length + 1) = secretKey.toList := by
        rw [List.drop_append]
        simp
      simp only [List.take_left, rest, String.ofList_toList]
    · simp only [List.length_append, List.length_cons]
      omega

/-- Writing a whole record and caching it. -/
theorem returns_storeCluster {server : Server} (coherent : ClustersCoherent server) {cluster : Cluster}
    (storable : cluster.Storable)
    (alone : ∀ id other, server.database.clusters.lookup id = some other → other.name = some cluster.name → id = cluster.id)
    (renamed : ∀ other, server.database.clusters.lookup cluster.id = some other → other.name = some cluster.name) :
    Returns (do
      putClusterItem cluster.id (itemOfCluster cluster)
      cacheCluster cluster
      return true) server.answered fun _ after => ClustersMoved server after := by
  unfold putClusterItem
  simp only [returns_bind, returns_modify, returns_pure]
  refine (returns_cacheCluster_put (itemOfCluster cluster) coherent ?_ ?_ ?_ ?_ ?_ ?_ storable.read alone
    renamed).mono ?_
  · exact (Later.answered server).trans (.of_eq rfl rfl)
  · exact fun id => FiniteMap.lookup_insert _ _ _ _
  · exact fun _ _ => rfl
  · rfl
  · rfl
  · rfl
  · rintro _ after ⟨later, -, kept, -⟩
    exact ⟨later, kept⟩

theorem returns_addCluster_moved {server : Server} (coherent : ClustersCoherent server) {cluster : Cluster}
    (storable : cluster.Storable) (freshID : server.database.clusters.lookup cluster.id = none)
    (freshName : ∀ id item, server.database.clusters.lookup id = some item → item.name ≠ some cluster.name) :
    Returns (addCluster cluster) server fun _ after => ClustersMoved server after := by
  have store := returns_storeCluster coherent storable (fun id other found same => absurd same (freshName id other found))
    fun other found => nomatch freshID.symm.trans found
  unfold addCluster
  simp only [returns_bind, returns_request, returns_ite, coherent.succeeding 0, if_true]
  simpa only [putClusterItem, returns_bind] using store

def Database.Registers (database : Database) (cluster : Cluster) : Prop :=
  ∃ item, database.clusters.lookup cluster.id = some item ∧ item.name = some cluster.name ∧
    item.owningGroup = some cluster.owningGroup

theorem returns_updateCluster_moved {server : Server} (coherent : ClustersCoherent server) {cluster : Cluster}
    (storable : cluster.Storable) (registered : server.database.Registers cluster) :
    Returns (updateCluster cluster) server fun _ after => ClustersMoved server after := by
  obtain ⟨item, found, named, -⟩ := registered
  have store := returns_storeCluster coherent storable
    (fun id other stored same => coherent.view.unique _ id other _ item stored same found named) fun other stored => by
      obtain rfl : other = item := Option.some.inj (stored.symm.trans found)
      exact named
  unfold updateCluster writeCluster
  simp only [returns_bind, returns_request, returns_ite, returns_pure, coherent.succeeding 0, if_true]
  simpa only [returns_bind, returns_pure] using store

/-- The record of a cluster with another credential. -/
theorem read_recredential {item : ClusterItem} {cID : String} {old : Cluster} (read : item.read cID = some old)
    (text : Option String) : ClusterItem.read { item with monCredential := text } cID =
      some { old with monitoringCredential := S3Credential.deserialize (text.getD missingString) } := by
  unfold ClusterItem.read at read ⊢
  cases named : item.name <;> simp only [named, Option.bind_eq_bind, Option.bind_some, Option.bind_none, reduceCtorEq] at read ⊢
  cases owned : item.owningGroup <;> simp only [owned, Option.bind_some, Option.bind_none, reduceCtorEq] at read ⊢
  cases configured : item.config <;> simp only [configured, Option.bind_some, Option.bind_none, reduceCtorEq] at read ⊢
  cases spaced : item.systemNamespace <;> simp only [spaced, Option.bind_some, Option.bind_none, reduceCtorEq] at read ⊢
  rw [← Option.some.inj read]
  rfl

/-- A change of the credential that is recorded on a cluster, and the reload after it. -/
theorem returns_recredential {server : Server} (coherent : ClustersCoherent server) {cID : String} {item : ClusterItem}
    (found : server.database.clusters.lookup cID = some item) (text : Option String) :
    Returns (do
      putClusterItem cID { item with monCredential := text }
      reloadCluster cID
      return true) server.answered fun _ after => ClustersMoved server after := by
  obtain ⟨old, read⟩ := Option.isSome_iff_exists.mp (coherent.view.complete cID item found)
  have fresh := read_recredential read text
  obtain ⟨rfl, -, named⟩ := ClusterItem.read_name read
  unfold putClusterItem reloadCluster findClusterByID
  simp only [returns_bind, returns_modify, returns_get, returns_pure]
  refine returns_cached ?_ ?_
  · intro entry present _
    rw [FiniteMap.lookup_erase, if_pos rfl] at present
    cases present
  · intro passed moved
    have succeeds : passed.outcomes 0 = true := by rcases moved with rfl | rfl <;> exact coherent.succeeding 1
    have stored : passed.database.clusters.lookup old.id = some { item with monCredential := text } := by
      rcases moved with rfl | rfl <;> exact (FiniteMap.lookup_insert _ _ _ _).trans (if_pos rfl)
    simp only [returns_bind, returns_request, returns_ite, returns_pure, returns_get, succeeds, if_true, answered_database,
      stored, clusterOfItem_read fresh]
    refine (returns_cacheCluster_put { item with monCredential := text } coherent ?_ ?_ ?_ ?_ ?_ ?_ fresh
      ?_ ?_).mono ?_
    · refine ((Later.answered server).trans ?_).trans (.answered passed)
      rcases moved with rfl | rfl
      · exact .of_eq rfl rfl
      · exact (Later.tick server.answered).trans (.of_eq rfl rfl)
    · rcases moved with rfl | rfl <;> exact fun id => FiniteMap.lookup_insert _ _ _ _
    · intro id different
      rcases moved with rfl | rfl <;> exact (FiniteMap.lookup_erase _ _ _).trans (if_neg different)
    · rcases moved with rfl | rfl <;> rfl
    · rcases moved with rfl | rfl <;> rfl
    · rcases moved with rfl | rfl <;> rfl
    · exact fun id other kept same => coherent.view.unique _ id other _ item kept same found named
    · intro other kept
      obtain rfl : other = item := Option.some.inj (kept.symm.trans found)
      exact named
    · rintro _ after ⟨later, -, kept, -⟩
      exact ⟨later, kept⟩

/-- A request that is answered, but changes nothing. -/
theorem ClustersCoherent.refused {server : Server} (coherent : ClustersCoherent server) :
    ClustersMoved server server.answered :=
  (ClustersRead.passed coherent (.answered server) rfl rfl).moved

theorem returns_setCredential_moved {server : Server} (coherent : ClustersCoherent server) {cID : String}
    (exists_ : (server.database.clusters.lookup cID).isSome) (cred : S3Credential) :
    Returns (setClusterMonitoringCredential cID cred) server fun _ after => ClustersMoved server after := by
  obtain ⟨item, found⟩ := Option.isSome_iff_exists.mp exists_
  unfold setClusterMonitoringCredential recordCredential
  simp only [returns_bind, returns_request, returns_ite, returns_get, coherent.succeeding 0, if_true, answered_database,
    found, Option.getD_some, returns_pure]
  split
  next => simpa using coherent.refused
  next => simpa only [returns_bind, returns_pure] using returns_recredential coherent found (some cred.serialize)

theorem returns_removeCredential_moved {server : Server} (coherent : ClustersCoherent server) {cID : String}
    (exists_ : (server.database.clusters.lookup cID).isSome) :
    Returns (removeClusterMonitoringCredential cID) server fun _ after => ClustersMoved server after := by
  obtain ⟨item, found⟩ := Option.isSome_iff_exists.mp exists_
  unfold removeClusterMonitoringCredential eraseCredential
  simp only [returns_bind, returns_request, returns_ite, returns_get, coherent.succeeding 0, if_true, answered_database,
    found, returns_pure]
  split
  next => simpa using coherent.refused
  next => simpa only [returns_bind, returns_pure] using returns_recredential coherent found (some nocred)

theorem returns_findClusterUsingCredential_moved {server : Server} (coherent : ClustersCoherent server)
    (cred : S3Credential) :
    Returns (findClusterUsingCredential cred) server fun _ after => ClustersMoved server after := by
  unfold findClusterUsingCredential clusterUsingCredential
  simp only [returns_bind, returns_request, returns_ite, returns_get, returns_pure, coherent.succeeding 0, if_true,
    answered_database]
  cases selected : server.database.clusters.select fun _ item => item.monCredential == some cred.serialize with
  | nil => exact coherent.refused
  | cons row rows =>
    obtain ⟨id, item⟩ := row
    have member : (id, item) ∈ server.database.clusters.select fun _ item => item.monCredential == some cred.serialize := by
      simp [selected]
    have found := (FiniteMap.mem_select.mp member).1
    obtain ⟨cluster, read⟩ := Option.isSome_iff_exists.mp (coherent.view.complete id item found)
    have known : server.database.cluster id = some cluster := by simp [Database.cluster, found, read]
    obtain ⟨rfl, -⟩ := ClusterItem.read_name read
    simp only [returns_bind, clusterOfItem_read read, returns_pure]
    refine (returns_cacheCluster_read coherent.refused.coherent known).mono ?_
    rintro _ after ⟨filled, -⟩
    exact coherent.refused.trans filled.moved

end Slate
