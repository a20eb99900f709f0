import Slate.Proofs.RecordShelves

/-! What one step of a lookup, a listing or a removal does to the clusters and to the
instances. -/

namespace Slate
open Library

def LookupPurpose.clusters : LookupPurpose → List Cluster
  | .access _ _ cluster others collected => cluster :: others ++ collected
  | _ => []

def RecordAnswer.allClusters : RecordAnswer → List Cluster
  | .cluster found => [found]
  | .clusters found => found
  | _ => []

def RecordAnswer.allInstances : RecordAnswer → List ApplicationInstance
  | .inst found => [found]
  | .instances found => found
  | _ => []

namespace RecordCall

def pendingClusters : RecordCall → List String
  | caching cluster _ => [cluster.id]
  | cachingRows rows _ _ => rows.map Prod.fst
  | _ => []

def pendingInstances : RecordCall → List String
  | cachingInstance inst => [inst.id]
  | cachingInstances rows _ _ => rows.map Prod.fst
  | _ => []

def clusters : RecordCall → List Cluster
  | finding _ purpose => purpose.clusters
  | reading _ purpose => purpose.clusters
  | caching _ purpose => purpose.clusters
  | cachingRows _ collected _ => collected
  | deciding _ others collected => others ++ collected
  | accessing _ _ _ cluster others collected => cluster :: others ++ collected
  | finished answer => answer.allClusters
  | _ => []

def instances : RecordCall → List ApplicationInstance
  | cachingInstances _ collected _ => collected
  | finished answer => answer.allInstances
  | _ => []

/-- The call renews the expiration of the complete listing. -/
def RenewsClusters : RecordCall → Prop
  | cachingRows [] _ _ => True
  | _ => False

def RenewsInstances : RecordCall → Prop
  | cachingInstances [] _ .all => True
  | _ => False

def ClusterMoves (server after : Server) (call moved : RecordCall) : Prop :=
  clusterKind.Moves call.RenewsClusters server after call.pendingClusters moved.pendingClusters call.clusters moved.clusters

def InstanceMoves (server after : Server) (call moved : RecordCall) : Prop :=
  instanceKind.Moves call.RenewsInstances server after call.pendingInstances moved.pendingInstances call.instances
    moved.instances

theorem selecting_bare (group cluster : String) :
    (selecting group cluster).pendingClusters = [] ∧ (selecting group cluster).clusters = [] := by
  unfold selecting
  cases listingKind group cluster <;> exact ⟨rfl, rfl⟩

theorem found_pending (cluster : Cluster) (purpose : LookupPurpose) : (found cluster purpose).pendingClusters = [] := by
  cases purpose with
  | answer => rfl
  | argument group =>
    simp only [found]
    split
    next => exact (selecting_bare group cluster.id).1
    next => rfl
  | access group groupID candidate others collected =>
    simp only [found]
    split <;> rfl

/-- A lookup adds the cluster that it found, at most. -/
theorem found_clusters (cluster : Cluster) (purpose : LookupPurpose) :
    ∀ other ∈ (found cluster purpose).clusters, other = cluster ∨ other ∈ purpose.clusters := by
  intro other member
  cases purpose with
  | answer => exact .inl (List.mem_singleton.mp member)
  | argument group =>
    simp only [found] at member
    split at member
    next =>
      rw [(selecting_bare group cluster.id).2] at member
      cases member
    next => cases member
  | access group groupID candidate others collected =>
    simp only [found] at member
    split at member
    next => exact .inr member
    next => exact .inr (List.mem_cons_of_mem _ member)

theorem listed_pending (collected : List Cluster) (purpose : ClustersPurpose) :
    (listed collected purpose).pendingClusters = [] := by
  cases purpose <;> rfl

theorem listed_clusters (collected : List Cluster) (purpose : ClustersPurpose) :
    (listed collected purpose).clusters = collected := by
  cases purpose with
  | all => rfl
  | byGroup group => exact List.append_nil collected

def MovesClusters (call : RecordCall) : Prop :=
  ∀ server, Yields call.piece server fun moved after => ClusterMoves server after call moved

private theorem clusters_besideGroups (server : Server) (caches : GroupCaches) :
    clusterKind.part.read { server with groups := caches } = clusterKind.part.read server := rfl

private theorem clusters_besideAccess (server : Server) (cache : ConcurrentMultimap String String) :
    clusterKind.part.read { server with clusters := { server.clusters with clusterGroupAccessCache := cache } } =
      clusterKind.part.read server := rfl

private theorem bare_cluster_moves {call moved : RecordCall} {server after : Server} (aside : Aside clusterKind.part server after)
    (reads : moved.pendingClusters = []) (collects : moved.clusters = []) : ClusterMoves server after call moved :=
  RecordKind.Moves.drops aside (by simp [reads]) (by simp [collects])

private theorem finding_cluster_moves (key : ClusterKey) (purpose : LookupPurpose) : (finding key purpose).MovesClusters := by
  intro server
  simp only [piece, yields_bind]
  refine (yields_clusterCached_held key server).mono fun cluster after step => ?_
  cases cluster with
  | none => exact RecordKind.Moves.drops step.1 (fun _ => id) fun _ member _ => member
  | some cluster =>
    refine RecordKind.Moves.aside step.1 (by simp [found_pending]) fun other member _ => ?_
    rcases found_clusters cluster purpose other member with rfl | old
    · exact .inr (.inl (step.2 _ rfl))
    · exact .inl old

private theorem reading_cluster_moves (key : ClusterKey) (purpose : LookupPurpose) : (reading key purpose).MovesClusters := by
  intro server
  simp only [piece, yields_bind]
  refine (yields_clusterQuery_stored key server).mono fun cluster after step => ?_
  cases cluster with
  | none =>
    refine RecordKind.Moves.drops step.1 (by simp [found_pending]) fun other member valid => ?_
    rcases found_clusters {} purpose other member with rfl | old
    · cases valid
    · exact old
  | some cluster =>
    refine RecordKind.Moves.aside step.1 (fun id member => .inr ?_) fun other member _ => .inl member
    rw [List.mem_singleton.mp member]
    exact step.2 cluster rfl

private theorem caching_cluster_moves (cluster : Cluster) (purpose : LookupPurpose) : (caching cluster purpose).MovesClusters := by
  intro server
  simp only [piece, yields_bind, yields_pure]
  refine (yields_cacheCluster_gains cluster server).mono fun _ after caches => ?_
  refine RecordKind.Moves.caches caches.1 caches.2 (List.mem_singleton_self _) (by simp [found_pending]) fun other member _ => ?_
  exact (found_clusters cluster purpose other member).symm

private theorem listing_cluster_moves (purpose : ClustersPurpose) : (listing purpose).MovesClusters := by
  intro server
  simp only [piece, yields_bind, yields_now, yields_get, yields_ite, yields_pure]
  split
  next trusted =>
    refine RecordKind.Moves.aside (.tick clusterKind.part server) (by simp [listed_pending]) fun other member _ => .inr (.inr ⟨?_, trusted⟩)
    rw [listed_clusters] at member
    obtain ⟨entry, held, rfl⟩ := List.mem_map.mp member
    obtain ⟨key, found⟩ := FiniteMap.mem_values.mp held
    exact ⟨entry, ⟨key, found⟩, rfl⟩
  next => exact bare_cluster_moves (.tick clusterKind.part server) rfl rfl

private theorem scanning_cluster_moves (purpose : ClustersPurpose) : (scanning purpose).MovesClusters := by
  intro server
  simp only [piece, yields_bind, yields_request, yields_ite, yields_pure, yields_get]
  split
  next =>
    refine RecordKind.Moves.aside (.answered clusterKind.part server) (fun id member => .inr ?_) fun _ member => by cases member
    obtain ⟨⟨id, item⟩, selected, rfl⟩ := List.mem_map.mp member
    exact Option.isSome_iff_exists.mpr ⟨item, (FiniteMap.mem_select.mp selected).1⟩
  next => exact bare_cluster_moves (.answered clusterKind.part server) (listed_pending _ _) (listed_clusters _ _)

private theorem cachingRows_cluster_moves (rows : List (String × ClusterItem)) (collected : List Cluster)
    (purpose : ClustersPurpose) : (cachingRows rows collected purpose).MovesClusters := by
  intro server
  cases rows with
  | nil =>
    simp only [piece, yields_bind, yields_now, yields_modify, yields_pure]
    unfold ClusterMoves
    rw [listed_pending, listed_clusters]
    exact RecordKind.Moves.stamps trivial (fun _ => rfl) rfl
  | cons row rows =>
    obtain ⟨id, item⟩ := row
    simp only [piece, yields_bind, yields_pure]
    refine (yields_clusterOfItem_id id item server).mono fun cluster same both => ?_
    obtain ⟨rfl, rfl⟩ := both
    refine (yields_cacheCluster_gains cluster _).mono fun _ after caches => ?_
    refine RecordKind.Moves.caches caches.1 caches.2 List.mem_cons_self (fun id member => List.mem_cons_of_mem _ member) ?_
    intro other member _
    exact (List.mem_append.mp member).imp_right List.mem_singleton.mp

private theorem naming_cluster_moves (group : String) : (naming group).MovesClusters := by
  intro server
  simp only [piece, yields_bind]
  refine (beside_findGroupByName clusters_besideGroups group server).mono fun group after aside => ?_
  simp only [yields_ite, yields_pure]
  split <;> exact bare_cluster_moves aside rfl rfl

private theorem deciding_cluster_moves (group : String) (others collected : List Cluster) :
    (deciding group others collected).MovesClusters := by
  intro server
  cases others with
  | nil =>
    simp only [piece, yields_pure]
    exact RecordKind.Moves.drops (.refl clusterKind.part server) (fun _ => id) fun _ member _ => member
  | cons cluster others =>
    simp only [piece, yields_ite, yields_pure, yields_bind]
    split
    next =>
      refine RecordKind.Moves.drops (.refl clusterKind.part server) (fun _ => id) fun other member _ => ?_
      simp only [clusters, List.mem_append, List.mem_cons, List.not_mem_nil, or_false] at member ⊢
      tauto
    next =>
      refine (beside_normalizeGroupID clusters_besideGroups group false server).mono fun groupID after aside => ?_
      cases groupID with
      | none => exact RecordKind.Moves.drops aside (fun _ => id) fun other member _ => List.mem_cons_of_mem _ member
      | some groupID =>
        simp only [yields_ite, yields_pure]
        split <;> exact RecordKind.Moves.drops aside (fun _ => id) fun _ member _ => member

private theorem accessing_cluster_moves (group groupID cID : String) (cluster : Cluster)
    (others collected : List Cluster) : (accessing group groupID cID cluster others collected).MovesClusters := by
  intro server
  simp only [piece, yields_bind]
  refine (beside_decideAccess clusters_besideAccess groupID cID server).mono fun allowed after aside => ?_
  simp only [yields_ite, yields_pure]
  split
  next =>
    refine RecordKind.Moves.drops aside (fun _ => id) fun other member _ => ?_
    simp only [clusters, List.mem_append, List.mem_cons, List.not_mem_nil, or_false, List.cons_append] at member ⊢
    tauto
  next => exact RecordKind.Moves.drops aside (fun _ => id) fun other member _ => List.mem_cons_of_mem _ member

private theorem deletingCluster_cluster_moves (cID : String) : (deletingCluster cID).MovesClusters := by
  intro server
  simp only [piece, deleteClusterItem, yields_bind, yields_request, yields_ite, yields_modify, yields_pure]
  split
  next =>
    exact RecordKind.Moves.shrinks ((Ages.of_later (.answered server)).trans (.of_clock rfl))
      (deleteCluster_shrinks cID server.answered)
  next => exact bare_cluster_moves (.answered clusterKind.part server) rfl rfl

private theorem deletingLocations_cluster_moves (cID : String) : (deletingLocations cID).MovesClusters := by
  intro server
  simp only [piece, deleteLocations, yields_bind, yields_request, yields_ite, yields_modify, yields_pure]
  split
  next => exact bare_cluster_moves ⟨(Ages.of_later (.answered server)).trans (.of_clock rfl), rfl⟩ rfl rfl
  next => exact bare_cluster_moves (.answered clusterKind.part server) rfl rfl

private theorem gettingInstance_cluster_moves (id : String) : (gettingInstance id).MovesClusters := by
  intro server
  simp only [piece, yields_bind, yields_get]
  refine (Beside.cached clusterKind.part _ _ server).mono fun inst after aside => ?_
  cases inst <;> exact bare_cluster_moves aside rfl rfl

private theorem readingInstance_cluster_moves (id : String) : (readingInstance id).MovesClusters := by
  intro server
  simp only [piece, yields_bind, yields_request, yields_ite, yields_pure, yields_get]
  split
  next => split <;> exact bare_cluster_moves (.answered clusterKind.part server) rfl rfl
  next => exact bare_cluster_moves (.answered clusterKind.part server) rfl rfl

private theorem normalizing_cluster_moves (group cluster : String) : (normalizing group cluster).MovesClusters := by
  intro server
  simp only [piece, yields_bind]
  refine (beside_normalizeGiven clusters_besideGroups group server).mono fun group after aside => ?_
  cases group with
  | none => exact bare_cluster_moves aside rfl rfl
  | some group =>
    simp only [yields_ite, yields_pure]
    split
    next => exact bare_cluster_moves aside (selecting_bare group cluster).1 (selecting_bare group cluster).2
    next => exact bare_cluster_moves aside rfl rfl

private theorem listingSelected_cluster_moves (kind : ListingKind) (group cluster : String) :
    (listingSelected kind group cluster).MovesClusters := by
  intro server
  simp only [piece, yields_bind, yields_get]
  refine (Beside.members clusterKind.part _ server).mono fun members after aside => ?_
  cases members <;> exact bare_cluster_moves aside rfl rfl

private theorem queryingSelected_cluster_moves (kind : ListingKind) (group cluster : String) :
    (queryingSelected kind group cluster).MovesClusters := by
  intro server
  simp only [piece, yields_bind, yields_request, yields_ite, yields_pure, yields_get]
  split
  next => split <;> exact bare_cluster_moves (.answered clusterKind.part server) rfl rfl
  next => exact bare_cluster_moves (.answered clusterKind.part server) rfl rfl

private theorem cachingInstances_cluster_moves (rows : List (String × InstanceItem))
    (collected : List ApplicationInstance) (purpose : InstancesPurpose) : (cachingInstances rows collected purpose).MovesClusters := by
  intro server
  cases rows with
  | nil =>
    cases purpose with
    | byName => exact bare_cluster_moves (.refl clusterKind.part server) rfl rfl
    | all =>
      simp only [piece, modifyInstances, yields_bind, yields_now, yields_modify, yields_pure]
      exact bare_cluster_moves ⟨(Ages.of_later (.tick server)).trans (.of_clock rfl), rfl⟩ rfl rfl
    | selected kind group cluster =>
      simp only [piece, modifyInstances, yields_bind, yields_now, yields_modify, yields_pure]
      exact bare_cluster_moves ⟨(Ages.of_later (.tick server)).trans (.of_clock rfl), rfl⟩ rfl rfl
  | cons row rows =>
    simp only [piece, yields_bind, yields_pure]
    exact (beside_cacheInstance (fun _ _ => rfl) _ server).mono fun _ after aside => bare_cluster_moves aside rfl rfl

private theorem deletingInstance_cluster_moves (id : String) : (deletingInstance id).MovesClusters := by
  intro server
  simp only [piece, eraseInstance, yields_bind, yields_request, yields_ite, yields_modify, yields_pure]
  split
  next => exact bare_cluster_moves ⟨(Ages.of_later (.answered server)).trans (.of_clock rfl), rfl⟩ rfl rfl
  next => exact bare_cluster_moves (.answered clusterKind.part server) rfl rfl

private theorem deletingConfig_cluster_moves (id : String) : (deletingConfig id).MovesClusters := by
  intro server
  simp only [piece, eraseInstanceConfig, yields_bind, yields_request, yields_ite, yields_modify, yields_pure]
  split
  next => exact bare_cluster_moves ⟨(Ages.of_later (.answered server)).trans (.of_clock rfl), rfl⟩ rfl rfl
  next => exact bare_cluster_moves (.answered clusterKind.part server) rfl rfl

/-- What one step of a call does to the clusters. -/
theorem piece_cluster_moves {call moved : RecordCall} {server after : Server} (busy : call.idle = false)
    (ran : call.piece server = .ok moved after) : ClusterMoves server after call moved := by
  suffices covers : Yields call.piece server fun moved after => ClusterMoves server after call moved from
    covers.of_ok ran
  cases call with
  | ready => cases busy
  | finished => cases busy
  | elapsing duration =>
    simp only [piece, elapse, yields_bind, yields_modify, yields_pure]
    exact bare_cluster_moves ⟨⟨fun steady _ _ order => Nat.add_le_add_right (steady order) _, fun _ => Nat.le_add_right _ _⟩, rfl⟩ rfl rfl
  | finding key purpose => exact finding_cluster_moves key purpose server
  | reading key purpose => exact reading_cluster_moves key purpose server
  | caching cluster purpose => exact caching_cluster_moves cluster purpose server
  | listing purpose => exact listing_cluster_moves purpose server
  | scanning purpose => exact scanning_cluster_moves purpose server
  | cachingRows rows collected purpose => exact cachingRows_cluster_moves rows collected purpose server
  | naming group => exact naming_cluster_moves group server
  | deciding group others collected => exact deciding_cluster_moves group others collected server
  | accessing group groupID cID cluster others collected => exact accessing_cluster_moves group groupID cID cluster others collected server
  | forgettingCluster cID =>
    simp only [piece, yields_bind, yields_modify, yields_pure]
    exact RecordKind.Moves.shrinks (.of_clock rfl) (forgetCluster_shrinks cID server)
  | deletingCluster cID => exact deletingCluster_cluster_moves cID server
  | deletingLocations cID => exact deletingLocations_cluster_moves cID server
  | gettingInstance id => exact gettingInstance_cluster_moves id server
  | readingInstance id => exact readingInstance_cluster_moves id server
  | cachingInstance inst =>
    simp only [piece, yields_bind, yields_pure]
    exact (beside_cacheInstance (fun _ _ => rfl) inst server).mono fun _ after aside => bare_cluster_moves aside rfl rfl
  | queryingName name =>
    simp only [piece, yields_bind, yields_request, yields_ite, yields_pure, yields_get]
    split <;> exact bare_cluster_moves (.answered clusterKind.part server) rfl rfl
  | listingInstances =>
    simp only [piece, yields_bind, yields_now, yields_get, yields_ite, yields_pure]
    split <;> exact bare_cluster_moves (.tick clusterKind.part server) rfl rfl
  | scanningInstances =>
    simp only [piece, yields_bind, yields_request, yields_ite, yields_pure, yields_get]
    split <;> exact bare_cluster_moves (.answered clusterKind.part server) rfl rfl
  | normalizing group cluster => exact normalizing_cluster_moves group cluster server
  | listingSelected kind group cluster => exact listingSelected_cluster_moves kind group cluster server
  | queryingSelected kind group cluster => exact queryingSelected_cluster_moves kind group cluster server
  | cachingInstances rows collected purpose => exact cachingInstances_cluster_moves rows collected purpose server
  | forgettingInstance id =>
    simp only [piece, modifyInstances, yields_bind, yields_modify, yields_pure]
    exact bare_cluster_moves ⟨.of_clock rfl, rfl⟩ rfl rfl
  | deletingInstance id => exact deletingInstance_cluster_moves id server
  | deletingConfig id => exact deletingConfig_cluster_moves id server

theorem selecting_bareInstances (group cluster : String) :
    (selecting group cluster).pendingInstances = [] ∧ (selecting group cluster).instances = [] := by
  unfold selecting
  cases listingKind group cluster <;> exact ⟨rfl, rfl⟩

theorem found_bareInstances (cluster : Cluster) (purpose : LookupPurpose) :
    (found cluster purpose).pendingInstances = [] ∧ (found cluster purpose).instances = [] := by
  cases purpose with
  | answer => exact ⟨rfl, rfl⟩
  | argument group =>
    simp only [found]
    split
    next => exact selecting_bareInstances group cluster.id
    next => exact ⟨rfl, rfl⟩
  | access group groupID candidate others collected =>
    simp only [found]
    split <;> exact ⟨rfl, rfl⟩

theorem listed_bareInstances (collected : List Cluster) (purpose : ClustersPurpose) :
    (listed collected purpose).pendingInstances = [] ∧ (listed collected purpose).instances = [] := by
  cases purpose <;> exact ⟨rfl, rfl⟩

/-- What a listing takes from its category is cached and still valid. -/
theorem yields_members_held (kind : ListingKind) (group cluster : String) (server : Server) :
    Yields (maybeReturnCachedCategoryMembers (server.instances.listing kind group cluster)) server fun members after =>
      Aside instanceKind.part server after ∧ ∀ records, members = some records → Steady server →
        ∀ inst ∈ records, ∃ entry, (instanceKind.part.read server).cached entry ∧ entry.record = inst ∧
          server.clock 0 ≤ entry.expirationTime := by
  have passing := Beside.members instanceKind.part (server.instances.listing kind group cluster) server
  have taken : Yields (maybeReturnCachedCategoryMembers (server.instances.listing kind group cluster)) server
      fun members _ => ∀ records, members = some records → Steady server →
        ∀ inst ∈ records, ∃ entry, (instanceKind.part.read server).cached entry ∧ entry.record = inst ∧
          server.clock 0 ≤ entry.expirationTime := by
    refine Returns.yields (returns_cachedMembers (fun _ after _ => ?_) fun _ _ _ _ same => nomatch same)
    rintro _ ⟨rfl⟩ steady inst member
    obtain ⟨entry, held, rfl, n, fresh⟩ := mem_freshRecords member
    refine ⟨entry, ?_, rfl, (steady (Nat.zero_le _)).trans fresh⟩
    rw [InstanceCaches.listing_eq, ConcurrentMultimap.mem_find_members] at held
    exact .inr ⟨kind, _, _, held⟩
  exact passing.and taken

def MovesInstances (call : RecordCall) : Prop :=
  ∀ server, Yields call.piece server fun moved after => InstanceMoves server after call moved

private theorem instances_besideGroups (server : Server) (caches : GroupCaches) :
    instanceKind.part.read { server with groups := caches } = instanceKind.part.read server := rfl

private theorem instances_besideAccess (server : Server) (cache : ConcurrentMultimap String String) :
    instanceKind.part.read { server with clusters := { server.clusters with clusterGroupAccessCache := cache } } =
      instanceKind.part.read server := rfl

private theorem bare_instance_moves {call moved : RecordCall} {server after : Server} (aside : Aside instanceKind.part server after)
    (none : moved.pendingInstances = [] ∧ moved.instances = []) : InstanceMoves server after call moved :=
  RecordKind.Moves.drops aside (by simp [none.1]) (by simp [none.2])

private theorem elapsing_instance_moves (duration : Time) : (elapsing duration).MovesInstances := by
  intro server
  simp only [piece, elapse, yields_bind, yields_modify, yields_pure]
  exact bare_instance_moves ⟨⟨fun steady _ _ order => Nat.add_le_add_right (steady order) _, fun _ => Nat.le_add_right _ _⟩, rfl⟩
    ⟨rfl, rfl⟩

private theorem finding_instance_moves (key : ClusterKey) (purpose : LookupPurpose) : (finding key purpose).MovesInstances := by
  intro server
  simp only [piece, yields_bind]
  refine (beside_clusterCached instanceKind.part key server).mono fun cluster after aside => ?_
  cases cluster with
  | none => exact bare_instance_moves aside ⟨rfl, rfl⟩
  | some cluster => exact bare_instance_moves aside (found_bareInstances cluster purpose)

private theorem reading_instance_moves (key : ClusterKey) (purpose : LookupPurpose) : (reading key purpose).MovesInstances := by
  intro server
  simp only [piece, yields_bind]
  refine (beside_clusterQuery instanceKind.part key server).mono fun cluster after aside => ?_
  cases cluster with
  | none => exact bare_instance_moves aside (found_bareInstances {} purpose)
  | some cluster => exact bare_instance_moves aside ⟨rfl, rfl⟩

private theorem caching_instance_moves (cluster : Cluster) (purpose : LookupPurpose) : (caching cluster purpose).MovesInstances := by
  intro server
  simp only [piece, yields_bind, yields_pure]
  exact (beside_cacheCluster (fun _ _ => rfl) cluster server).mono fun _ after aside =>
    bare_instance_moves aside (found_bareInstances cluster purpose)

private theorem listing_instance_moves (purpose : ClustersPurpose) : (listing purpose).MovesInstances := by
  intro server
  simp only [piece, yields_bind, yields_now, yields_get, yields_ite, yields_pure]
  split
  next => exact bare_instance_moves (.tick instanceKind.part server) (listed_bareInstances _ purpose)
  next => exact bare_instance_moves (.tick instanceKind.part server) ⟨rfl, rfl⟩

private theorem scanning_instance_moves (purpose : ClustersPurpose) : (scanning purpose).MovesInstances := by
  intro server
  simp only [piece, yields_bind, yields_request, yields_ite, yields_pure, yields_get]
  split
  next => exact bare_instance_moves (.answered instanceKind.part server) ⟨rfl, rfl⟩
  next => exact bare_instance_moves (.answered instanceKind.part server) (listed_bareInstances _ purpose)

private theorem cachingRows_instance_moves (rows : List (String × ClusterItem)) (collected : List Cluster)
    (purpose : ClustersPurpose) : (cachingRows rows collected purpose).MovesInstances := by
  intro server
  cases rows with
  | nil =>
    simp only [piece, yields_bind, yields_now, yields_modify, yields_pure]
    exact bare_instance_moves ⟨(Ages.of_later (.tick server)).trans (.of_clock rfl), rfl⟩ (listed_bareInstances collected purpose)
  | cons row rows =>
    simp only [piece, yields_bind, yields_pure]
    refine (Beside.clusterOfItem instanceKind.part row.1 row.2 server).mono fun cluster middle early => ?_
    exact (beside_cacheCluster (fun _ _ => rfl) cluster middle).mono fun _ after late => bare_instance_moves (early.trans late) ⟨rfl, rfl⟩

private theorem naming_instance_moves (group : String) : (naming group).MovesInstances := by
  intro server
  simp only [piece, yields_bind]
  refine (beside_findGroupByName instances_besideGroups group server).mono fun group after aside => ?_
  simp only [yields_ite, yields_pure]
  split <;> exact bare_instance_moves aside ⟨rfl, rfl⟩

private theorem deciding_instance_moves (group : String) (others collected : List Cluster) :
    (deciding group others collected).MovesInstances := by
  intro server
  cases others with
  | nil => exact bare_instance_moves (.refl instanceKind.part server) ⟨rfl, rfl⟩
  | cons cluster others =>
    simp only [piece, yields_ite, yields_pure, yields_bind]
    split
    next => exact bare_instance_moves (.refl instanceKind.part server) ⟨rfl, rfl⟩
    next =>
      refine (beside_normalizeGroupID instances_besideGroups group false server).mono fun groupID after aside => ?_
      cases groupID with
      | none => exact bare_instance_moves aside ⟨rfl, rfl⟩
      | some groupID =>
        simp only [yields_ite, yields_pure]
        split <;> exact bare_instance_moves aside ⟨rfl, rfl⟩

private theorem accessing_instance_moves (group groupID cID : String) (cluster : Cluster)
    (others collected : List Cluster) : (accessing group groupID cID cluster others collected).MovesInstances := by
  intro server
  simp only [piece, yields_bind]
  refine (beside_decideAccess instances_besideAccess groupID cID server).mono ?_
  intro allowed after aside
  simp only [yields_ite, yields_pure]
  split <;> exact bare_instance_moves aside ⟨rfl, rfl⟩

private theorem deletingCluster_instance_moves (cID : String) : (deletingCluster cID).MovesInstances := by
  intro server
  simp only [piece, deleteClusterItem, yields_bind, yields_request, yields_ite, yields_modify, yields_pure]
  split
  next => exact bare_instance_moves ⟨(Ages.of_later (.answered server)).trans (.of_clock rfl), rfl⟩ ⟨rfl, rfl⟩
  next => exact bare_instance_moves (.answered instanceKind.part server) ⟨rfl, rfl⟩

private theorem deletingLocations_instance_moves (cID : String) : (deletingLocations cID).MovesInstances := by
  intro server
  simp only [piece, deleteLocations, yields_bind, yields_request, yields_ite, yields_modify, yields_pure]
  split
  next => exact bare_instance_moves ⟨(Ages.of_later (.answered server)).trans (.of_clock rfl), rfl⟩ ⟨rfl, rfl⟩
  next => exact bare_instance_moves (.answered instanceKind.part server) ⟨rfl, rfl⟩

private theorem gettingInstance_instance_moves (id : String) : (gettingInstance id).MovesInstances := by
  intro server
  simp only [piece, yields_bind, yields_get]
  refine (yields_cached_held instanceKind fun entry found => .inl ⟨id, found⟩).mono fun inst after step => ?_
  cases inst with
  | none => exact bare_instance_moves step.1 ⟨rfl, rfl⟩
  | some inst =>
    refine RecordKind.Moves.aside step.1 (fun _ member => by cases member) fun other member _ => ?_
    rw [List.mem_singleton.mp member]
    exact .inr (.inl (step.2 inst rfl))

private theorem readingInstance_instance_moves (id : String) : (readingInstance id).MovesInstances := by
  intro server
  simp only [piece, yields_bind, yields_request, yields_ite, yields_pure, yields_get]
  have nothing : InstanceMoves server server.answered (readingInstance id) (finished (.inst {})) := by
    refine RecordKind.Moves.drops (.answered instanceKind.part server) (fun _ member => by cases member) ?_
    intro inst member valid
    rw [List.mem_singleton.mp member] at valid
    cases valid
  split
  next =>
    split
    next => exact nothing
    next item found =>
      refine RecordKind.Moves.aside (.answered instanceKind.part server) ?_ fun _ member => by cases member
      intro other member
      rw [List.mem_singleton.mp member]
      exact .inr (Option.isSome_iff_exists.mpr ⟨item, found⟩)
  next => exact nothing

private theorem cachingInstance_instance_moves (inst : ApplicationInstance) : (cachingInstance inst).MovesInstances := by
  intro server
  simp only [piece, yields_bind, yields_pure]
  refine (yields_cacheInstance_gains inst server).mono fun _ after caches => ?_
  exact RecordKind.Moves.caches caches.1 caches.2 List.mem_cons_self (fun _ member => by cases member)
    fun other member _ => .inr (List.mem_singleton.mp member)

private theorem queryingName_instance_moves (name : String) : (queryingName name).MovesInstances := by
  intro server
  simp only [piece, yields_bind, yields_request, yields_ite, yields_pure, yields_get]
  split
  next =>
    refine RecordKind.Moves.aside (.answered instanceKind.part server) ?_ fun _ member => by cases member
    intro id member
    obtain ⟨⟨id, item⟩, selected, rfl⟩ := List.mem_map.mp member
    exact .inr (Option.isSome_iff_exists.mpr ⟨item, (FiniteMap.mem_select.mp selected).1⟩)
  next => exact bare_instance_moves (.answered instanceKind.part server) ⟨rfl, rfl⟩

private theorem listingInstances_instance_moves : listingInstances.MovesInstances := by
  intro server
  simp only [piece, yields_bind, yields_now, yields_get, yields_ite, yields_pure]
  split
  next trusted =>
    refine RecordKind.Moves.aside (.tick instanceKind.part server) (fun _ member => by cases member) ?_
    intro inst member _
    obtain ⟨entry, held, rfl⟩ := List.mem_map.mp member
    obtain ⟨key, found⟩ := FiniteMap.mem_values.mp held
    exact .inr (.inr ⟨⟨entry, ⟨key, found⟩, rfl⟩, trusted⟩)
  next => exact bare_instance_moves (.tick instanceKind.part server) ⟨rfl, rfl⟩

private theorem scanningInstances_instance_moves : scanningInstances.MovesInstances := by
  intro server
  simp only [piece, yields_bind, yields_request, yields_ite, yields_pure, yields_get]
  split
  next =>
    refine RecordKind.Moves.aside (.answered instanceKind.part server) ?_ fun _ member => by cases member
    intro id member
    obtain ⟨⟨id, item⟩, selected, rfl⟩ := List.mem_map.mp member
    exact .inr (Option.isSome_iff_exists.mpr ⟨item, FiniteMap.mem_pairs.mp selected⟩)
  next => exact bare_instance_moves (.answered instanceKind.part server) ⟨rfl, rfl⟩

private theorem normalizing_instance_moves (group cluster : String) : (normalizing group cluster).MovesInstances := by
  intro server
  simp only [piece, yields_bind]
  refine (beside_normalizeGiven instances_besideGroups group server).mono fun group after aside => ?_
  cases group with
  | none => exact bare_instance_moves aside ⟨rfl, rfl⟩
  | some group =>
    simp only [yields_ite, yields_pure]
    split
    next => exact bare_instance_moves aside (selecting_bareInstances group cluster)
    next => exact bare_instance_moves aside ⟨rfl, rfl⟩

private theorem listingSelected_instance_moves (kind : ListingKind) (group cluster : String) :
    (listingSelected kind group cluster).MovesInstances := by
  intro server
  simp only [piece, yields_bind, yields_get]
  refine (yields_members_held kind group cluster server).mono fun members after step => ?_
  cases members with
  | none => exact bare_instance_moves step.1 ⟨rfl, rfl⟩
  | some members =>
    intro steady
    refine RecordKind.Moves.aside step.1 (fun _ member => by cases member) (fun inst member _ => ?_) steady
    exact .inr (.inl (step.2 members rfl steady inst member))

private theorem queryingSelected_instance_moves (kind : ListingKind) (group cluster : String) :
    (queryingSelected kind group cluster).MovesInstances := by
  intro server
  simp only [piece, yields_bind, yields_request, yields_ite, yields_pure, yields_get]
  split
  next =>
    split
    next => exact bare_instance_moves (.answered instanceKind.part server) ⟨rfl, rfl⟩
    next =>
      refine RecordKind.Moves.aside (.answered instanceKind.part server) ?_ fun _ member => by cases member
      intro id member
      obtain ⟨⟨id, item⟩, selected, rfl⟩ := List.mem_map.mp member
      exact .inr (Option.isSome_iff_exists.mpr ⟨item, (FiniteMap.mem_select.mp selected).1⟩)
  next => exact bare_instance_moves (.answered instanceKind.part server) ⟨rfl, rfl⟩

private theorem cachingInstances_instance_moves (rows : List (String × InstanceItem))
    (collected : List ApplicationInstance) (purpose : InstancesPurpose) : (cachingInstances rows collected purpose).MovesInstances := by
  intro server
  cases rows with
  | nil =>
    cases purpose with
    | byName => exact RecordKind.Moves.drops (.refl instanceKind.part server) (fun _ => id) fun _ member _ => member
    | all =>
      simp only [piece, modifyInstances, yields_bind, yields_now, yields_modify, yields_pure]
      exact RecordKind.Moves.stamps trivial (fun _ => rfl) rfl
    | selected kind group cluster =>
      simp only [piece, modifyInstances, yields_bind, yields_now, yields_modify, yields_pure]
      refine RecordKind.Moves.drops ⟨(Ages.of_later (.tick server)).trans (.of_clock rfl), ?_⟩ (fun _ => id)
        fun _ member _ => member
      exact stamp_part server.tick kind group cluster _
  | cons row rows =>
    simp only [piece, yields_bind, yields_pure]
    refine (yields_cacheInstance_gains (instanceOfItem row.1 row.2) server).mono fun _ after caches => ?_
    refine RecordKind.Moves.caches caches.1 caches.2 List.mem_cons_self (fun _ member => List.mem_cons_of_mem _ member) ?_
    intro other member _
    exact (List.mem_append.mp member).imp_right List.mem_singleton.mp

private theorem deletingInstance_instance_moves (id : String) : (deletingInstance id).MovesInstances := by
  intro server
  simp only [piece, eraseInstance, yields_bind, yields_request, yields_ite, yields_modify, yields_pure]
  split
  next =>
    exact RecordKind.Moves.shrinks ((Ages.of_later (.answered server)).trans (.of_clock rfl))
      (deleteInstance_shrinks id server.answered)
  next => exact bare_instance_moves (.answered instanceKind.part server) ⟨rfl, rfl⟩

private theorem deletingConfig_instance_moves (id : String) : (deletingConfig id).MovesInstances := by
  intro server
  simp only [piece, eraseInstanceConfig, yields_bind, yields_request, yields_ite, yields_modify, yields_pure]
  split
  next => exact bare_instance_moves ⟨(Ages.of_later (.answered server)).trans (.of_clock rfl), rfl⟩ ⟨rfl, rfl⟩
  next => exact bare_instance_moves (.answered instanceKind.part server) ⟨rfl, rfl⟩

/-- What one step of a call does to the instances. -/
theorem piece_instance_moves {call moved : RecordCall} {server after : Server} (busy : call.idle = false)
    (ran : call.piece server = .ok moved after) : InstanceMoves server after call moved := by
  suffices covers : Yields call.piece server fun moved after => InstanceMoves server after call moved from
    covers.of_ok ran
  cases call with
  | ready => cases busy
  | finished => cases busy
  | elapsing duration => exact elapsing_instance_moves duration server
  | finding key purpose => exact finding_instance_moves key purpose server
  | reading key purpose => exact reading_instance_moves key purpose server
  | caching cluster purpose => exact caching_instance_moves cluster purpose server
  | listing purpose => exact listing_instance_moves purpose server
  | scanning purpose => exact scanning_instance_moves purpose server
  | cachingRows rows collected purpose => exact cachingRows_instance_moves rows collected purpose server
  | naming group => exact naming_instance_moves group server
  | deciding group others collected => exact deciding_instance_moves group others collected server
  | accessing group groupID cID cluster others collected => exact accessing_instance_moves group groupID cID cluster others collected server
  | forgettingCluster cID =>
    simp only [piece, yields_bind, yields_modify, yields_pure]
    exact bare_instance_moves ⟨.of_clock rfl, rfl⟩ ⟨rfl, rfl⟩
  | deletingCluster cID => exact deletingCluster_instance_moves cID server
  | deletingLocations cID => exact deletingLocations_instance_moves cID server
  | gettingInstance id => exact gettingInstance_instance_moves id server
  | readingInstance id => exact readingInstance_instance_moves id server
  | cachingInstance inst => exact cachingInstance_instance_moves inst server
  | queryingName name => exact queryingName_instance_moves name server
  | listingInstances => exact listingInstances_instance_moves server
  | scanningInstances => exact scanningInstances_instance_moves server
  | normalizing group cluster => exact normalizing_instance_moves group cluster server
  | listingSelected kind group cluster => exact listingSelected_instance_moves kind group cluster server
  | queryingSelected kind group cluster => exact queryingSelected_instance_moves kind group cluster server
  | cachingInstances rows collected purpose => exact cachingInstances_instance_moves rows collected purpose server
  | forgettingInstance id =>
    simp only [piece, modifyInstances, yields_bind, yields_modify, yields_pure]
    exact RecordKind.Moves.shrinks (.of_clock rfl) (forgetInstance_shrinks id server)
  | deletingInstance id => exact deletingInstance_instance_moves id server
  | deletingConfig id => exact deletingConfig_instance_moves id server

def deleted : RecordCall → Option RecordID
  | deletingLocations cID => some (.cluster cID)
  | deletingConfig id => some (.inst id)
  | finished (.removed id true) => some id
  | _ => none

private theorem selecting_deletes (group cluster : String) : (selecting group cluster).deleted = none := by
  unfold selecting
  cases listingKind group cluster <;> rfl

theorem found_deletes (cluster : Cluster) (purpose : LookupPurpose) : (found cluster purpose).deleted = none := by
  cases purpose with
  | answer => rfl
  | argument group =>
    simp only [found]
    split
    next => exact selecting_deletes group cluster.id
    next => rfl
  | access group groupID candidate others collected =>
    simp only [found]
    split <;> rfl

theorem listed_deletes (collected : List Cluster) (purpose : ClustersPurpose) :
    (listed collected purpose).deleted = none := by
  cases purpose <;> rfl

end RecordCall

def RecordID.Stored (server : Server) : RecordID → Prop
  | .cluster id => (server.database.clusters.lookup id).isSome
  | .inst id => (server.database.instances.lookup id).isSome

namespace RecordCall

/-- A step of such a call that comes to have deleted a row has just deleted it. -/
def DeletesNow (call : RecordCall) : Prop :=
  ∀ server, Yields call.piece server fun moved after => ∀ id, moved.deleted = some id → call.deleted = some id ∨ ¬ id.Stored after

private theorem deletes_kept {call moved : RecordCall} {after : Server} (nothing : moved.deleted = none) :
    ∀ id, moved.deleted = some id → call.deleted = some id ∨ ¬ id.Stored after := by
  intro id same
  rw [nothing] at same
  cases same

private theorem finding_deletes (key : ClusterKey) (purpose : LookupPurpose) : (finding key purpose).DeletesNow := by
  intro server
  simp only [piece, yields_bind]
  refine (Yields.trivial _ _).mono fun cluster _ _ => ?_
  cases cluster with
  | none => exact deletes_kept rfl
  | some cluster => exact deletes_kept (found_deletes cluster purpose)

private theorem reading_deletes (key : ClusterKey) (purpose : LookupPurpose) : (reading key purpose).DeletesNow := by
  intro server
  simp only [piece, yields_bind]
  refine (Yields.trivial _ _).mono fun cluster _ _ => ?_
  cases cluster with
  | none => exact deletes_kept (found_deletes {} purpose)
  | some cluster => exact deletes_kept rfl

private theorem listing_deletes (purpose : ClustersPurpose) : (listing purpose).DeletesNow := by
  intro server
  simp only [piece, yields_bind, yields_now, yields_get, yields_ite, yields_pure]
  split
  next => exact deletes_kept (listed_deletes _ purpose)
  next => exact deletes_kept rfl

private theorem scanning_deletes (purpose : ClustersPurpose) : (scanning purpose).DeletesNow := by
  intro server
  simp only [piece, yields_bind, yields_request, yields_ite, yields_pure, yields_get]
  split
  next => exact deletes_kept rfl
  next => exact deletes_kept (listed_deletes _ purpose)

private theorem cachingRows_deletes (rows : List (String × ClusterItem)) (collected : List Cluster)
    (purpose : ClustersPurpose) : (cachingRows rows collected purpose).DeletesNow := by
  intro server
  cases rows with
  | nil => exact deletes_kept (listed_deletes collected purpose)
  | cons row rows =>
    simp only [piece, yields_bind, yields_pure]
    exact (Yields.trivial _ _).mono fun _ _ _ => (Yields.trivial _ _).mono fun _ _ _ => deletes_kept rfl

private theorem naming_deletes (group : String) : (naming group).DeletesNow := by
  intro server
  simp only [piece, yields_bind]
  refine (Yields.trivial _ _).mono fun group _ _ => ?_
  simp only [yields_ite, yields_pure]
  split <;> exact deletes_kept rfl

private theorem deciding_deletes (group : String) (others collected : List Cluster) : (deciding group others collected).DeletesNow := by
  intro server
  cases others with
  | nil => exact deletes_kept rfl
  | cons cluster others =>
    simp only [piece, yields_ite, yields_pure, yields_bind]
    split
    next => exact deletes_kept rfl
    next =>
      refine (Yields.trivial _ _).mono fun groupID _ _ => ?_
      cases groupID with
      | none => exact deletes_kept rfl
      | some groupID =>
        simp only [yields_ite, yields_pure]
        split <;> exact deletes_kept rfl

private theorem accessing_deletes (group groupID cID : String) (cluster : Cluster) (others collected : List Cluster) :
    (accessing group groupID cID cluster others collected).DeletesNow := by
  intro server
  simp only [piece, yields_bind]
  refine (Yields.trivial _ _).mono fun allowed _ _ => ?_
  simp only [yields_ite, yields_pure]
  split <;> exact deletes_kept rfl

private theorem deletingCluster_deletes (cID : String) : (deletingCluster cID).DeletesNow := by
  intro server
  simp only [piece, deleteClusterItem, yields_bind, yields_request, yields_ite, yields_modify, yields_pure]
  split
  next =>
    rintro _ ⟨rfl⟩
    exact .inr (by simp [RecordID.Stored])
  next => exact deletes_kept rfl

private theorem deletingLocations_deletes (cID : String) : (deletingLocations cID).DeletesNow := by
  intro server
  simp only [piece, yields_bind, yields_pure]
  refine (Yields.trivial _ _).mono fun done _ _ => ?_
  cases done with
  | false => exact deletes_kept rfl
  | true => exact fun id same => .inl same

private theorem readingInstance_deletes (id : String) : (readingInstance id).DeletesNow := by
  intro server
  simp only [piece, yields_bind, yields_request, yields_ite, yields_pure, yields_get]
  split
  next => split <;> exact deletes_kept rfl
  next => exact deletes_kept rfl

private theorem normalizing_deletes (group cluster : String) : (normalizing group cluster).DeletesNow := by
  intro server
  simp only [piece, yields_bind]
  refine (Yields.trivial _ _).mono fun group _ _ => ?_
  cases group with
  | none => exact deletes_kept rfl
  | some group =>
    simp only [yields_ite, yields_pure]
    split
    next => exact deletes_kept (selecting_deletes group cluster)
    next => exact deletes_kept rfl

private theorem queryingSelected_deletes (kind : ListingKind) (group cluster : String) :
    (queryingSelected kind group cluster).DeletesNow := by
  intro server
  simp only [piece, yields_bind, yields_request, yields_ite, yields_pure, yields_get]
  split
  next => split <;> exact deletes_kept rfl
  next => exact deletes_kept rfl

private theorem deletingInstance_deletes (id : String) : (deletingInstance id).DeletesNow := by
  intro server
  simp only [piece, eraseInstance, yields_bind, yields_request, yields_ite, yields_modify, yields_pure]
  split
  next =>
    rintro _ ⟨rfl⟩
    exact .inr (by simp [RecordID.Stored])
  next => exact deletes_kept rfl

private theorem deletingConfig_deletes (id : String) : (deletingConfig id).DeletesNow := by
  intro server
  simp only [piece, yields_bind, yields_pure]
  refine (Yields.trivial _ _).mono fun done _ _ => ?_
  cases done with
  | false => exact deletes_kept rfl
  | true => exact fun id same => .inl same

theorem piece_deletes {call moved : RecordCall} {server after : Server}
    (ran : call.piece server = .ok moved after) :
    ∀ id, moved.deleted = some id → call.deleted = some id ∨ ¬ id.Stored after := by
  suffices covers : Yields call.piece server fun moved after =>
      ∀ id, moved.deleted = some id → call.deleted = some id ∨ ¬ id.Stored after from covers.of_ok ran
  cases call with
  | ready => exact deletes_kept rfl
  | finished answer => exact fun id same => .inl same
  | elapsing duration => exact deletes_kept rfl
  | finding key purpose => exact finding_deletes key purpose server
  | reading key purpose => exact reading_deletes key purpose server
  | caching cluster purpose =>
    simp only [piece, yields_bind, yields_pure]
    exact (Yields.trivial _ _).mono fun _ _ _ => deletes_kept (found_deletes cluster purpose)
  | listing purpose => exact listing_deletes purpose server
  | scanning purpose => exact scanning_deletes purpose server
  | cachingRows rows collected purpose => exact cachingRows_deletes rows collected purpose server
  | naming group => exact naming_deletes group server
  | deciding group others collected => exact deciding_deletes group others collected server
  | accessing group groupID cID cluster others collected => exact accessing_deletes group groupID cID cluster others collected server
  | forgettingCluster cID => exact deletes_kept rfl
  | deletingCluster cID => exact deletingCluster_deletes cID server
  | deletingLocations cID => exact deletingLocations_deletes cID server
  | gettingInstance id =>
    simp only [piece, yields_bind, yields_get]
    refine (Yields.trivial _ _).mono fun inst _ _ => ?_
    cases inst <;> exact deletes_kept rfl
  | readingInstance id => exact readingInstance_deletes id server
  | cachingInstance inst => exact deletes_kept rfl
  | queryingName name =>
    simp only [piece, yields_bind, yields_request, yields_ite, yields_pure, yields_get]
    split <;> exact deletes_kept rfl
  | listingInstances =>
    simp only [piece, yields_bind, yields_now, yields_get, yields_ite, yields_pure]
    split <;> exact deletes_kept rfl
  | scanningInstances =>
    simp only [piece, yields_bind, yields_request, yields_ite, yields_pure, yields_get]
    split <;> exact deletes_kept rfl
  | normalizing group cluster => exact normalizing_deletes group cluster server
  | listingSelected kind group cluster =>
    simp only [piece, yields_bind, yields_get]
    refine (Yields.trivial _ _).mono fun members _ _ => ?_
    cases members <;> exact deletes_kept rfl
  | queryingSelected kind group cluster => exact queryingSelected_deletes kind group cluster server
  | cachingInstances rows collected purpose =>
    cases rows with
    | nil => cases purpose <;> exact deletes_kept rfl
    | cons row rows => cases purpose <;> exact deletes_kept rfl
  | forgettingInstance id => exact deletes_kept rfl
  | deletingInstance id => exact deletingInstance_deletes id server
  | deletingConfig id => exact deletingConfig_deletes id server

end RecordCall

end Slate
