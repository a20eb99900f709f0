import Slate.ClusterRecords
import Slate.PagedQueries
import Slate.Proofs.SecretLookups

/-! Each operation sees what lies on the first page of the tables it asks. It is right exactly
when what it looks for lies there. -/

namespace Slate
open Library

/-- On tables of one page the operations are the ones that see whole tables. -/
theorem Splitting.findClusterUsingCredential_single (cred : S3Credential) :
    ({} : Splitting).findClusterUsingCredential cred = Slate.findClusterUsingCredential cred := rfl

theorem Splitting.removeGroup_single (groupID : String) :
    ({} : Splitting).removeGroup groupID = Slate.removeGroup groupID := rfl

theorem Splitting.removeCluster_single (cID : String) : ({} : Splitting).removeCluster cID = Slate.removeCluster cID := rfl

theorem Splitting.listSecrets_single (group cluster : String) :
    ({} : Splitting).listSecrets group cluster = Slate.listSecrets group cluster := rfl

theorem Splitting.listApplicationInstancesByClusterOrGroup_single (group cluster : String) :
    ({} : Splitting).listApplicationInstancesByClusterOrGroup group cluster =
      Slate.listApplicationInstancesByClusterOrGroup group cluster := rfl

theorem Splitting.listPersistentVolumeClaimsByClusterOrGroup_single (group cluster : String) :
    ({} : Splitting).listPersistentVolumeClaimsByClusterOrGroup group cluster =
      Slate.listPersistentVolumeClaimsByClusterOrGroup group cluster := rfl

/-- The tables and what is cached about instances and secrets are as before. -/
structure Kept (before after : Server) : Prop extends Later before after where
  database : after.database = before.database
  instances : after.instances = before.instances
  secrets : after.secrets = before.secrets

theorem Kept.trans {first second third : Server} (early : Kept first second) (late : Kept second third) :
    Kept first third where
  toLater := early.toLater.trans late.toLater
  database := late.database.trans early.database
  instances := late.instances.trans early.instances
  secrets := late.secrets.trans early.secrets

theorem Kept.refl (server : Server) : Kept server server := ⟨.refl server, rfl, rfl, rfl⟩

private theorem pairs_nodup {κ α : Type} [DecidableEq κ] (table : FiniteMap κ α) : table.pairs.Nodup :=
  List.Nodup.of_map _ table.pairs_keys_nodup

/-- A query for the only row of its kind finds nothing or that row. -/
theorem query_single {α : Type} (paging : Paging (String × α)) {table : FiniteMap String α} {wanted : α → Bool}
    (unique : ∀ id item id' item', table.lookup id = some item → wanted item = true →
      table.lookup id' = some item' → wanted item' = true → id = id') :
    ((paging.query table.pairs (fun row => wanted row.2) none).items = [] ∧
        ∀ id item, paging.OnFirst table.pairs (id, item) → ¬ wanted item = true) ∨
      ∃ id item, (paging.query table.pairs (fun row => wanted row.2) none).items = [(id, item)] ∧
        paging.OnFirst table.pairs (id, item) ∧ wanted item = true := by
  have found : (paging.query table.pairs (fun row => wanted row.2) none).items = [] ∨
      ∃ row, (paging.query table.pairs (fun row => wanted row.2) none).items = [row] := by
    refine Paging.query_cases (pairs_nodup _) ?_
    rintro ⟨id, item⟩ stored chosen ⟨id', item'⟩ stored' chosen'
    have held := FiniteMap.mem_pairs.mp stored
    have held' := FiniteMap.mem_pairs.mp stored'
    obtain rfl := unique _ _ _ _ held chosen held' chosen'
    rw [held] at held'
    rw [Option.some.inj held']
  obtain nothing | ⟨⟨id, item⟩, only⟩ := found
  · refine .inl ⟨nothing, fun id item first chosen => ?_⟩
    have listed : (id, item) ∈ (paging.query table.pairs (fun row => wanted row.2) none).items :=
      Paging.mem_query_none.mpr ⟨first, chosen⟩
    rw [nothing] at listed
    cases listed
  · have listed := Paging.mem_query_none.mp (only ▸ List.mem_singleton_self (id, item))
    exact .inr ⟨id, item, only, listed.1, listed.2⟩

private theorem returns_cached_cold {α : Type} {cache : CuckooHashMap String (CacheRecord α)} (cold : cache = ∅) (key : String)
    (server : Server) (post : Option α → Server → Prop) : Returns (cached cache key) server post ↔ post none server := by
  rw [cold]
  rfl

def Splitting.SeesGroup (splitting : Splitting) (database : Database) (text groupID : String) : Prop :=
  DesignatesGroup database text groupID ∧
    (startsWith groupIDPrefix text = false → ∃ item, splitting.groups.OnFirst database.groups.pairs (groupID, item))

def Splitting.SeesCluster (splitting : Splitting) (database : Database) (text cID : String) : Prop :=
  DesignatesCluster database text cID ∧
    (startsWith clusterIDPrefix text = false → ∃ item, splitting.clusters.OnFirst database.clusters.pairs (cID, item))

section Names
variable (splitting : Splitting) {server : Server} (succeeding : Succeeding server)
include succeeding

private theorem returns_findGroupByName_paged {name : String} (cold : server.groups = {})
    (single : GroupNameUnique server.database.groups name) :
    Returns (splitting.findGroupByName name) server fun group after => Kept server after ∧
      after.clusters = server.clusters ∧
      ((group.valid = true ∧ ∃ item, splitting.groups.OnFirst server.database.groups.pairs (group.id, item) ∧ item.name = name) ∨
        group.valid = false ∧ ∀ id item, splitting.groups.OnFirst server.database.groups.pairs (id, item) → item.name ≠ name) := by
  unfold Splitting.findGroupByName
  simp only [returns_bind, returns_get, returns_cached_cold (congrArg GroupCaches.groupByNameCache cold), returns_request,
    returns_ite, succeeding 0, if_true, answered_database, returns_pure]
  obtain ⟨nothing, none⟩ | ⟨id, item, only, first, named⟩ := query_single splitting.groups
    fun id item id' item' stored chosen stored' chosen' =>
      single id item id' item' stored (beq_iff_eq.mp chosen) stored' (beq_iff_eq.mp chosen')
  · rw [nothing]
    exact ⟨⟨.answered server, rfl, rfl, rfl⟩, rfl,
      .inr ⟨rfl, fun id item first named => none id item first (beq_iff_eq.mpr named)⟩⟩
  · rw [only]
    unfold cacheGroup
    simp only [returns_bind, returns_lasting, returns_modify, returns_pure]
    exact ⟨⟨((Later.answered server).trans (.tick _)).trans (.of_eq rfl rfl), rfl, rfl, rfl⟩, rfl,
      .inl ⟨rfl, item, first, beq_iff_eq.mp named⟩⟩

private theorem returns_normalizeGroupID_paged {text : String} (cold : server.groups = {})
    (single : GroupNameUnique server.database.groups text) :
    Returns (splitting.normalizeGroupID text) server fun normalized after => Kept server after ∧
      after.clusters = server.clusters ∧
      ∀ groupID, normalized = some groupID ↔ splitting.SeesGroup server.database text groupID := by
  unfold Splitting.normalizeGroupID Splitting.SeesGroup
  cases known : startsWith groupIDPrefix text with
  | true =>
    simp only [Bool.not_true, Bool.false_eq_true, if_false, returns_pure, DesignatesGroup, known, if_true, Option.some.injEq,
      reduceCtorEq, false_implies, and_true]
    exact ⟨.refl server, trivial, fun groupID => eq_comm⟩
  | false =>
    simp only [Bool.not_false, if_true, returns_bind, true_implies]
    refine (returns_findGroupByName_paged splitting succeeding cold single).mono ?_
    rintro group after ⟨kept, clusters, ⟨valid, item, first, named⟩ | ⟨invalid, none⟩⟩
    · rw [valid]
      have own : DesignatesGroup server.database text group.id := by
        rw [DesignatesGroup, known]
        exact ⟨item, FiniteMap.mem_pairs.mp first.mem, named⟩
      refine ⟨kept, clusters, fun groupID => ⟨?_, fun seen => ?_⟩⟩
      · rintro same
        obtain rfl := Option.some.inj same
        exact ⟨own, item, first⟩
      · rw [own.unique single seen.1]
    · rw [invalid]
      refine ⟨kept, clusters, fun groupID => ⟨(fun impossible => by cases impossible), fun seen => ?_⟩⟩
      obtain ⟨designated, item, first⟩ := seen
      rw [DesignatesGroup, known] at designated
      obtain ⟨other, stored, named⟩ := designated
      rw [FiniteMap.mem_pairs.mp first.mem] at stored
      cases stored
      exact absurd named (none _ _ first)

private theorem returns_findClusterByName_paged {name : String} (cold : server.clusters = {})
    (single : ClusterNameUnique server.database.clusters name) :
    Returns (splitting.findClusterByName name) server fun cluster after => Kept server after ∧
      ((cluster.valid = true ∧ ∃ item, splitting.clusters.OnFirst server.database.clusters.pairs (cluster.id, item) ∧
          item.name = some name) ∨
        cluster.valid = false ∧
          ∀ id item, splitting.clusters.OnFirst server.database.clusters.pairs (id, item) → item.name ≠ some name) := by
  unfold Splitting.findClusterByName
  simp only [returns_bind, returns_get, returns_cached_cold (congrArg ClusterCaches.clusterByNameCache cold),
    returns_request, returns_ite, succeeding 0, if_true, answered_database, returns_pure]
  obtain ⟨nothing, none⟩ | ⟨id, item, only, first, named⟩ := query_single splitting.clusters
    fun id item id' item' stored chosen stored' chosen' =>
      single.unique id item id' item' stored (beq_iff_eq.mp chosen) stored' (beq_iff_eq.mp chosen')
  · rw [nothing]
    exact ⟨⟨.answered server, rfl, rfl, rfl⟩,
      .inr ⟨rfl, fun id item first named => none id item first (beq_iff_eq.mpr named)⟩⟩
  · rw [only]
    have stored := FiniteMap.mem_pairs.mp first.mem
    have called : item.name = some name := beq_iff_eq.mp named
    simp only [returns_bind]
    refine returns_clusterOfItem stored called (single.complete id item stored called) ?_
    rintro cluster rfl ⟨valid, item', stored', named'⟩
    obtain rfl := single.unique _ _ _ _ stored called stored' named'
    unfold cacheCluster writeClusterConfigToDisk
    simp only [returns_bind, returns_lasting, returns_now, returns_modify, returns_pure]
    exact ⟨⟨(((Later.answered server).trans (.tick _)).trans (.tick _)).trans (.of_eq rfl rfl), rfl, rfl, rfl⟩,
      .inl ⟨valid, item, first, called⟩⟩

private theorem returns_normalizeClusterID_paged {text : String} (cold : server.clusters = {})
    (single : ClusterNameUnique server.database.clusters text) :
    Returns (splitting.normalizeClusterID text) server fun normalized after => Kept server after ∧
      ∀ cID, normalized = some cID ↔ splitting.SeesCluster server.database text cID := by
  unfold Splitting.normalizeClusterID Splitting.SeesCluster
  cases known : startsWith clusterIDPrefix text with
  | true =>
    simp only [Bool.not_true, Bool.false_eq_true, if_false, returns_pure, DesignatesCluster, known, if_true,
      Option.some.injEq, reduceCtorEq, false_implies, and_true]
    exact ⟨.refl server, fun cID => eq_comm⟩
  | false =>
    simp only [Bool.not_false, if_true, returns_bind, true_implies]
    refine (returns_findClusterByName_paged splitting succeeding cold single).mono ?_
    rintro cluster after ⟨kept, ⟨valid, item, first, named⟩ | ⟨invalid, none⟩⟩
    · rw [valid]
      have own : DesignatesCluster server.database text cluster.id := by
        rw [DesignatesCluster, known]
        exact ⟨item, FiniteMap.mem_pairs.mp first.mem, named⟩
      refine ⟨kept, fun cID => ⟨?_, fun seen => ?_⟩⟩
      · rintro same
        obtain rfl := Option.some.inj same
        exact ⟨own, item, first⟩
      · rw [own.unique single seen.1]
    · rw [invalid]
      refine ⟨kept, fun cID => ⟨(fun impossible => by cases impossible), fun seen => ?_⟩⟩
      obtain ⟨designated, item, first⟩ := seen
      rw [DesignatesCluster, known] at designated
      obtain ⟨other, stored, named⟩ := designated
      rw [FiniteMap.mem_pairs.mp first.mem] at stored
      cases stored
      exact absurd named (none _ _ first)

/-- The IDs that the first pages show for the arguments of a listing. -/
def Splitting.SeesArguments (splitting : Splitting) (database : Database) (group cluster groupID cID : String) : Prop :=
  (if group = "" then groupID = "" else splitting.SeesGroup database group groupID) ∧
    (if cluster = "" then cID = "" else splitting.SeesCluster database cluster cID)

private theorem returns_normalizeArguments_paged {group cluster : String} (cold : server.groups = {} ∧ server.clusters = {})
    (resolvable : Resolvable server.database group cluster) :
    Returns (splitting.normalizeArguments group cluster) server fun normalized after => Kept server after ∧
      ∀ groupID cID, normalized = some (groupID, cID) ↔
        splitting.SeesArguments server.database group cluster groupID cID := by
  have first : Returns (normalizeGiven splitting.normalizeGroupID group) server fun normalized after =>
      Kept server after ∧ after.clusters = server.clusters ∧ ∀ groupID, normalized = some groupID ↔
        if group = "" then groupID = "" else splitting.SeesGroup server.database group groupID := by
    unfold normalizeGiven
    split
    next => exact ⟨.refl server, rfl, fun groupID => by rw [Option.some.injEq, eq_comm]⟩
    next given => exact returns_normalizeGroupID_paged splitting succeeding cold.1 (resolvable.group given)
  have second : ∀ middle, Kept server middle → middle.clusters = server.clusters →
      Returns (normalizeGiven splitting.normalizeClusterID cluster) middle fun normalized after => Kept server after ∧
        ∀ cID, normalized = some cID ↔
          if cluster = "" then cID = "" else splitting.SeesCluster server.database cluster cID := by
    intro middle kept clusters
    unfold normalizeGiven
    split
    next => exact ⟨kept, fun cID => by rw [Option.some.injEq, eq_comm]⟩
    next given =>
      have named := returns_normalizeClusterID_paged splitting (kept.succeeding succeeding) (clusters.trans cold.2)
        (kept.database ▸ resolvable.cluster given)
      rw [kept.database] at named
      exact named.mono fun _ after both => ⟨kept.trans both.1, both.2⟩
  unfold Splitting.normalizeArguments Splitting.SeesArguments
  rw [returns_bind]
  refine first.mono ?_
  rintro (_ | groupID) middle ⟨kept, clusters, seen⟩
  · refine ⟨kept, fun groupID cID => ⟨nofun, fun both => ?_⟩⟩
    exact absurd ((seen groupID).mpr both.1) nofun
  · rw [returns_bind]
    refine (second middle kept clusters).mono ?_
    rintro (_ | cID) after ⟨kept', seen'⟩
    · refine ⟨kept', fun groupID cID => ⟨nofun, fun both => ?_⟩⟩
      exact absurd ((seen' cID).mpr both.2) nofun
    · refine ⟨kept', fun otherGroup otherCluster => ?_⟩
      rw [← seen, ← seen', Option.some.injEq, Prod.mk.injEq, Option.some.injEq, Option.some.injEq]

end Names

/-- The first page shows the group and the cluster of a row, where they were asked for by name. -/
def Splitting.SeesPlaces (splitting : Splitting) (database : Database) (group cluster rowGroup rowCluster : String) : Prop :=
  (group = "" ∨ splitting.SeesGroup database group rowGroup) ∧
    (cluster = "" ∨ splitting.SeesCluster database cluster rowCluster)

theorem Splitting.SeesArguments.designated {splitting : Splitting} {database : Database}
    {group cluster groupID cID : String} (sees : splitting.SeesArguments database group cluster groupID cID) :
    DesignatesArguments database group cluster groupID cID := by
  refine ⟨?_, ?_⟩
  · have own := sees.1
    split at own
    next open_ => rw [if_pos open_]; exact own
    next given => rw [if_neg given]; exact own.1
  · have own := sees.2
    split at own
    next open_ => rw [if_pos open_]; exact own
    next given => rw [if_neg given]; exact own.1

theorem Splitting.SeesArguments.given {splitting : Splitting} {database : Database} {group cluster groupID cID : String}
    (sees : splitting.SeesArguments database group cluster groupID cID) (resolvable : Resolvable database group cluster) :
    groupID ≠ "" ∨ cID ≠ "" := by
  rw [Ne, sees.designated.groupEmpty resolvable.groupIDs, Ne, sees.designated.clusterEmpty resolvable.clusterIDs]
  exact not_and_or.mp resolvable.given

section Rows
variable {Row α : Type} (splitting : Splitting) (database : Database) (paging : Paging (String × Row))
  (table : FiniteMap String Row) (owningGroup onCluster : Row → String) (group cluster : String)

/-- Every wanted row is on the first page, and so is what names it. -/
def Splitting.SeesWanted : Prop :=
  ∀ id row, table.lookup id = some row → Wanted database group cluster (owningGroup row) (onCluster row) →
    paging.OnFirst table.pairs (id, row) ∧ splitting.SeesPlaces database group cluster (owningGroup row) (onCluster row)

/-- Every wanted row is in the answer, as it is read. -/
def ListsWanted (read : String → Row → α) (answer : List α) : Prop :=
  ∀ id row, table.lookup id = some row → Wanted database group cluster (owningGroup row) (onCluster row) →
    read id row ∈ answer

variable {splitting database paging table owningGroup onCluster group cluster} {read : String → Row → α}

/-- Where the first pages do not show what the arguments stand for, nothing is listed. -/
theorem listsWanted_nil_iff
    (hidden : ∀ groupID cID, ¬ splitting.SeesArguments database group cluster groupID cID) :
    ListsWanted database table owningGroup onCluster group cluster read [] ↔
      splitting.SeesWanted database paging table owningGroup onCluster group cluster := by
  constructor
  · exact fun all id row stored wanted => nomatch all id row stored wanted
  · intro sees id row stored wanted
    obtain ⟨-, first, second⟩ := sees id row stored wanted
    refine absurd ⟨?_, ?_⟩ (hidden (if group = "" then "" else owningGroup row) (if cluster = "" then "" else onCluster row))
    · split
      next => rfl
      next given => exact first.resolve_left given
    · split
      next => rfl
      next given => exact second.resolve_left given

private theorem listsWanted_first_iff {groupID cID : String} (resolvable : Resolvable database group cluster)
    (sees : splitting.SeesArguments database group cluster groupID cID) {listed : String → Row → α} (name : α → String)
    (reads : ∀ id row, Matches groupID cID (owningGroup row) (onCluster row) → listed id row = read id row)
    (names : ∀ id row, name (listed id row) = id) (named : ∀ id row, name (read id row) = id) :
    ListsWanted database table owningGroup onCluster group cluster read
        ((paging.query table.pairs (fun row => listingSelects groupID cID (owningGroup row.2) (onCluster row.2)) none).items.map
          fun row => listed row.1 row.2) ↔
      splitting.SeesWanted database paging table owningGroup onCluster group cluster := by
  have designated := sees.designated
  refine forall_congr' fun id => forall_congr' fun row => forall_congr' fun stored => forall_congr' fun wanted => ?_
  have same := (designated.wanted_iff resolvable _ _).mp wanted
  have places : splitting.SeesPlaces database group cluster (owningGroup row) (onCluster row) := by
    refine ⟨or_iff_not_imp_left.mpr fun given => ?_, or_iff_not_imp_left.mpr fun given => ?_⟩
    · have own := sees.1
      rw [if_neg given] at own
      have closed : groupID ≠ "" := fun none => given ((designated.groupEmpty resolvable.groupIDs).mp none)
      rw [same.1.resolve_left closed]
      exact own
    · have own := sees.2
      rw [if_neg given] at own
      have closed : cID ≠ "" := fun none => given ((designated.clusterEmpty resolvable.clusterIDs).mp none)
      rw [same.2.resolve_left closed]
      exact own
  rw [List.mem_map]
  constructor
  · rintro ⟨⟨id', row'⟩, found, equal⟩
    obtain ⟨first, -⟩ := Paging.mem_query_none.mp found
    obtain rfl : id' = id := by rw [← names id' row', equal, named]
    have stored' := FiniteMap.mem_pairs.mp first.mem
    rw [stored] at stored'
    cases stored'
    exact ⟨first, places⟩
  · rintro ⟨first, -⟩
    exact ⟨(id, row), Paging.mem_query_none.mpr ⟨first, same.selected (sees.given resolvable)⟩, reads id row same⟩

end Rows

section Answers
variable (splitting : Splitting) {server : Server} (succeeding : Succeeding server)
include succeeding

def Cold (server : Server) : Prop :=
  server.groups = {} ∧ server.clusters = {} ∧ server.instances = {} ∧ server.secrets = {}

omit succeeding in
private theorem returns_members_cold {α ι : Type} [Identified α ι] [DecidableEq ι] {category : Category α}
    (cold : category.expiration = 0) (post : Option (List α) → Server → Prop) :
    Returns (maybeReturnCachedCategoryMembers category) server post ↔ post none server.tick := by
  unfold maybeReturnCachedCategoryMembers
  simp only [returns_bind, returns_now, returns_pure, cold, Nat.not_lt_zero, if_false]

omit succeeding in
private theorem listing_cold {groupID cID : String} {category : Category Secret}
    (found : ({} : SecretCaches).listing groupID cID = some category) : category.expiration = 0 := by
  unfold SecretCaches.listing at found
  split at found
  next =>
    cases found
    exact ConcurrentMultimap.stamp_empty _
  next =>
    split at found
    next =>
      cases found
      exact ConcurrentMultimap.stamp_empty _
    next => cases found

/-- The rows on the first page that the listing of normalized arguments selects. -/
theorem returns_listSecretsNormalized_paged {groupID cID : String} (cold : server.secrets = {})
    (given : groupID ≠ "" ∨ cID ≠ "") :
    Returns (splitting.listSecretsNormalized groupID cID) server fun answer _ => answer =
      ((splitting.secrets.query server.database.secrets.pairs
        (fun row => listingSelects groupID cID row.2.owningGroup row.2.cluster) none).items.map fun row =>
          listedSecret groupID cID row.1 row.2) := by
  have some_ : ¬ (groupID = "" ∧ cID = "") := fun none => given.elim (absurd none.1) (absurd none.2)
  have queried : ∀ current, Kept server current → Returns (do
      unless ← request do
        return []
      let rows := (splitting.secrets.query (← get).database.secrets.pairs
        (fun row => listingSelects groupID cID row.2.owningGroup row.2.cluster) none).items
      let secrets ← rows.mapM fun row => do
        let secret := listedSecret groupID cID row.1 row.2
        cacheSecret secret
        return secret
      let reading ← now
      modifySecrets fun caches => caches.stamp groupID cID (reading + secretCacheValidity)
      return secrets) current fun answer _ => answer =
        ((splitting.secrets.query server.database.secrets.pairs
          (fun row => listingSelects groupID cID row.2.owningGroup row.2.cluster) none).items.map fun row =>
            listedSecret groupID cID row.1 row.2) := by
    intro current kept
    simp only [returns_bind, returns_request, returns_ite, kept.succeeding succeeding 0, if_true, returns_get,
      answered_database, kept.database]
    refine (returns_listedSecrets groupID cID _ _).mono ?_
    rintro secrets after rfl
    exact rfl
  unfold Splitting.listSecretsNormalized
  simp only [returns_bind, returns_get]
  cases consulted : server.secrets.listing groupID cID with
  | none =>
    simp only [some_, if_false]
    exact queried server (.refl server)
  | some category =>
    rw [cold] at consulted
    simp only [returns_bind, returns_members_cold (listing_cold consulted), some_, if_false]
    exact queried server.tick ⟨.tick server, rfl, rfl, rfl⟩

private theorem returns_listSecrets_paged {group cluster : String} (cold : Cold server)
    (resolvable : Resolvable server.database group cluster) :
    Returns (splitting.listSecrets group cluster) server (fun answer _ =>
        ListsWanted server.database server.database.secrets SecretItem.owningGroup SecretItem.cluster group cluster
          secretOfItem answer) ↔
      splitting.SeesWanted server.database splitting.secrets server.database.secrets SecretItem.owningGroup
        SecretItem.cluster group cluster := by
  apply Returns.exactly
  unfold Splitting.listSecrets
  simp only [resolvable.given, if_false, returns_bind]
  refine (returns_normalizeArguments_paged splitting succeeding ⟨cold.1, cold.2.1⟩ resolvable).mono ?_
  rintro (_ | ⟨groupID, cID⟩) normalized ⟨kept, sees⟩
  · apply listsWanted_nil_iff
    intro groupID cID seen
    cases (sees groupID cID).mpr seen
  · have seen := (sees groupID cID).mp rfl
    have listed := returns_listSecretsNormalized_paged splitting (kept.succeeding succeeding)
      (kept.secrets.trans cold.2.2.2) (seen.given resolvable)
    rw [kept.database] at listed
    refine listed.mono ?_
    rintro answer after rfl
    exact listsWanted_first_iff resolvable seen Secret.id (fun id row same => listedSecret_eq id same) (fun _ _ => rfl)
      fun _ _ => rfl

omit succeeding in
private theorem returns_collectInstances_read (rows : List (String × InstanceItem)) :
    Returns (collectInstances rows) server fun answer _ => answer = rows.map fun row => instanceOfItem row.1 row.2 := by
  unfold collectInstances
  apply returns_mapM rows _ server fun visited instances _ =>
    instances = visited.map fun row => instanceOfItem row.1 row.2
  · rfl
  · rintro visited ⟨id, row⟩ rest instances current - rfl
    simp only [cacheInstance, modifyInstances, returns_bind, returns_lasting, returns_now, returns_modify, returns_pure]
    rw [List.map_append]
    rfl

omit succeeding in
private theorem instance_listing_cold (kind : ListingKind) (groupID cID : String) :
    (({} : InstanceCaches).listing kind groupID cID).expiration = 0 := by
  cases kind <;> exact ConcurrentMultimap.stamp_empty _

private theorem returns_listInstancesNormalized_paged (cold : server.instances = {}) (kind : ListingKind) (groupID cID : String) :
    Returns (splitting.listInstancesNormalized kind groupID cID) server fun answer _ => answer =
      ((splitting.instances.query server.database.instances.pairs
        (fun row => listingSelects groupID cID row.2.owningGroup row.2.cluster) none).items.map fun row =>
          instanceOfItem row.1 row.2) := by
  unfold Splitting.listInstancesNormalized
  simp only [returns_bind, returns_get, cold, returns_members_cold (instance_listing_cold kind groupID cID),
    returns_request, returns_ite, tick_outcomes, succeeding 0, if_true, returns_pure]
  split
  next none =>
    rw [answered_database, tick_database] at none
    rw [none]
    rfl
  next =>
    refine (returns_collectInstances_read _).mono ?_
    rintro instances after rfl
    exact rfl

private theorem returns_listInstances_paged {group cluster : String} (cold : Cold server)
    (resolvable : Resolvable server.database group cluster) :
    Returns (splitting.listApplicationInstancesByClusterOrGroup group cluster) server (fun answer _ =>
        ListsWanted server.database server.database.instances InstanceItem.owningGroup InstanceItem.cluster group cluster
          instanceOfItem answer) ↔
      splitting.SeesWanted server.database splitting.instances server.database.instances InstanceItem.owningGroup
        InstanceItem.cluster group cluster := by
  apply Returns.exactly
  unfold Splitting.listApplicationInstancesByClusterOrGroup
  rw [returns_bind]
  refine (returns_normalizeArguments_paged splitting succeeding ⟨cold.1, cold.2.1⟩ resolvable).mono ?_
  rintro (_ | ⟨groupID, cID⟩) normalized ⟨kept, sees⟩
  · exact listsWanted_nil_iff fun groupID cID seen => nomatch (sees groupID cID).mpr seen
  · have seen := (sees groupID cID).mp rfl
    obtain ⟨kind, kinds⟩ := kind_of_given (not_and_or.mpr (seen.given resolvable))
    have listed := returns_listInstancesNormalized_paged splitting (kept.succeeding succeeding)
      (kept.instances.trans cold.2.2.1) kind groupID cID
    rw [kept.database] at listed
    simp only [kinds]
    refine listed.mono ?_
    rintro answer after rfl
    exact listsWanted_first_iff resolvable seen ApplicationInstance.id (fun _ _ _ => rfl) (fun _ _ => rfl) fun _ _ => rfl

/-- Neither in use nor revoked. -/
def CredentialItem.Available (item : CredentialItem) : Prop := item.inUse = false ∧ item.revoked = false

/-- Either one that was available has been handed out, and it and nothing else is marked as
being in use; or none was available, and that is what the error says. -/
def Allocated (database : Database) (result : Option (S3Credential × String)) (after : Server) : Prop :=
  (∃ accessKey item, database.credentials.lookup accessKey = some item ∧ item.Available ∧
      result = some ({ accessKey, secretKey := item.secretKey, inUse := true, revoked := false }, "") ∧
      after.database = { database with
        credentials := database.credentials.insert accessKey { item with inUse := true } }) ∨
    (∀ accessKey item, database.credentials.lookup accessKey = some item → ¬ item.Available) ∧
      result = some ({}, Splitting.noneAvailable) ∧ after.database = database

/-- If a credential is available, one is on the first page. -/
def Splitting.SeesAvailable (splitting : Splitting) (database : Database) : Prop :=
  (∃ accessKey item, database.credentials.lookup accessKey = some item ∧ item.Available) →
    ∃ accessKey item, splitting.credentials.OnFirst database.credentials.pairs (accessKey, item) ∧ item.Available

private theorem returns_allocate_paged (rounds : Nat) :
    Returns (splitting.allocateMonitoringCredential (rounds + 1)) server (Allocated server.database) ↔
      splitting.SeesAvailable server.database := by
  have wants : ∀ item : CredentialItem, (!item.inUse && !item.revoked) = true ↔ item.Available := by
    intro item
    rw [CredentialItem.Available]
    cases item.inUse <;> cases item.revoked <;> simp
  apply Returns.exactly
  unfold Splitting.allocateMonitoringCredential Splitting.availableCredentials
  simp only [returns_bind, returns_request, returns_ite, succeeding 0, if_true, returns_get, returns_pure]
  cases candidates : (splitting.credentials.query server.answered.database.credentials.pairs
    (fun row => !row.2.inUse && !row.2.revoked) none).items with
  | nil =>
    simp only [returns_pure]
    have absent : ∀ accessKey item, splitting.credentials.OnFirst server.database.credentials.pairs (accessKey, item) →
        ¬ item.Available := by
      intro accessKey item first available
      have listed : (accessKey, item) ∈ (splitting.credentials.query server.answered.database.credentials.pairs
          (fun row => !row.2.inUse && !row.2.revoked) none).items :=
        Paging.mem_query_none.mpr ⟨first, (wants item).mpr available⟩
      rw [candidates] at listed
      cases listed
    constructor
    · rintro (⟨accessKey, item, -, -, same, -⟩ | ⟨none, -, -⟩) ⟨accessKey, item, stored, available⟩
      · exact absurd (congrArg (Option.map Prod.snd) same) (by decide : some Splitting.noneAvailable ≠ some "")
      · exact absurd available (none accessKey item stored)
    · intro sees
      refine .inr ⟨fun accessKey item stored available => ?_, rfl, rfl⟩
      obtain ⟨otherKey, other, first, free⟩ := sees ⟨accessKey, item, stored, available⟩
      exact absent otherKey other first free
  | cons row others =>
    obtain ⟨accessKey, item⟩ := row
    have listed : (accessKey, item) ∈ (splitting.credentials.query server.answered.database.credentials.pairs
        (fun row => !row.2.inUse && !row.2.revoked) none).items := candidates ▸ List.mem_cons_self
    obtain ⟨first, free⟩ := Paging.mem_query_none.mp listed
    have stored := FiniteMap.mem_pairs.mp first.mem
    have available := (wants item).mp free
    have taken : (item.inUse || item.revoked) = false := by rw [available.1, available.2]; rfl
    simp only [Splitting.acquireFirst, acquireCredential, returns_bind, returns_request,
      answered_outcomes, succeeding 1, if_true, returns_get]
    simp only [answered_database] at stored
    rw [answered_database, answered_database, stored]
    simp only [taken, Bool.false_eq_true, if_false, putCredential, returns_bind, returns_modify, returns_pure, if_true]
    refine iff_of_true (.inl ⟨accessKey, item, stored, available, rfl, rfl⟩) fun _ => ⟨accessKey, item, first, available⟩

/-- Some cluster's record has a credential with this access key. -/
def Recorded (database : Database) (accessKey : String) : Prop :=
  ∃ id item, database.clusters.lookup id = some item ∧ item.recordedKey = some accessKey

/-- The first page has a record with exactly this credential when some record has the
access key, and only then; and the first one can be read. -/
structure Splitting.SeesCredential (splitting : Splitting) (database : Database) (cred : S3Credential) : Prop where
  shown : Recorded database cred.accessKey ↔
    ∃ row, splitting.clusters.OnFirst database.clusters.pairs row ∧ row.2.monCredential = some cred.serialize
  readable : ∀ row, (splitting.clusters.query database.clusters.pairs
      (fun row => row.2.monCredential == some cred.serialize) none).items.head? = some row →
    row.2.name.isSome = true ∧ row.2.Complete

omit succeeding in
private theorem returns_clusterOfItem_iff (id : String) (item : ClusterItem) {post : Cluster → Server → Prop} {condition : Prop}
    (same : ∀ cluster, cluster.valid = true → (post cluster server ↔ condition)) :
    Returns (clusterOfItem id item) server post ↔ (item.name.isSome = true ∧ item.Complete) ∧ condition := by
  unfold clusterOfItem ClusterItem.Complete
  cases item.name <;> cases item.owningGroup <;> cases item.config <;> cases item.systemNamespace <;>
    simp only [findOrThrow, returns_bind, returns_throw, returns_pure, same] <;> simp

private theorem returns_findCluster_paged (cred : S3Credential) :
    Returns (splitting.findClusterUsingCredential cred) server (fun cluster _ =>
        cluster.valid = true ↔ Recorded server.database cred.accessKey) ↔
      splitting.SeesCredential server.database cred := by
  unfold Splitting.findClusterUsingCredential Splitting.clusterUsingCredential
  simp only [returns_bind, returns_request, succeeding 0, returns_ite, if_true, returns_get, answered_database]
  cases candidates : (splitting.clusters.query server.database.clusters.pairs
    (fun row => row.2.monCredential == some cred.serialize) none).items with
  | nil =>
    have absent : ¬ ∃ row, splitting.clusters.OnFirst server.database.clusters.pairs row ∧
        row.2.monCredential = some cred.serialize := by
      rintro ⟨row, first, same⟩
      have listed : row ∈ (splitting.clusters.query server.database.clusters.pairs
          (fun row => row.2.monCredential == some cred.serialize) none).items :=
        Paging.mem_query_none.mpr ⟨first, beq_iff_eq.mpr same⟩
      rw [candidates] at listed
      cases listed
    simp only [returns_pure, Bool.false_eq_true, false_iff]
    constructor
    · intro unrecorded
      refine ⟨iff_of_false unrecorded absent, fun row front => ?_⟩
      rw [candidates] at front
      cases front
    · exact fun sees recorded => absent (sees.shown.mp recorded)
  | cons row others =>
    obtain ⟨id, item⟩ := row
    have listed : (id, item) ∈ (splitting.clusters.query server.database.clusters.pairs
        (fun row => row.2.monCredential == some cred.serialize) none).items := candidates ▸ List.mem_cons_self
    obtain ⟨first, same⟩ := Paging.mem_query_none.mp listed
    have shown : ∃ row, splitting.clusters.OnFirst server.database.clusters.pairs row ∧
        row.2.monCredential = some cred.serialize := ⟨(id, item), first, beq_iff_eq.mp same⟩
    simp only [returns_bind]
    rw [returns_clusterOfItem_iff id item fun cluster valid => ?_]
    · constructor
      · rintro ⟨whole, recorded⟩
        refine ⟨iff_of_true recorded shown, fun row front => ?_⟩
        rw [candidates] at front
        cases front
        exact whole
      · exact fun sees => ⟨sees.readable (id, item) (by rw [candidates]; rfl), sees.shown.mpr shown⟩
    · simp only [cacheCluster, writeClusterConfigToDisk, returns_bind, returns_lasting, returns_now, returns_modify,
        returns_pure, valid, true_iff]

/-- On a server with cold caches, whatever the tables hold and however they are split: the
four operations are right exactly when what they look for is on first pages. -/
theorem queries_right_iff (cold : Cold server) (cred : S3Credential) (rounds : Nat) {group cluster : String}
    (resolvable : Resolvable server.database group cluster) :
    (Returns (splitting.findClusterUsingCredential cred) server (fun cluster _ =>
          cluster.valid = true ↔ Recorded server.database cred.accessKey) ∧
        Returns (splitting.allocateMonitoringCredential (rounds + 1)) server (Allocated server.database) ∧
        Returns (splitting.listSecrets group cluster) server (fun answer _ =>
          ListsWanted server.database server.database.secrets SecretItem.owningGroup SecretItem.cluster group cluster
            secretOfItem answer) ∧
        Returns (splitting.listApplicationInstancesByClusterOrGroup group cluster) server (fun answer _ =>
          ListsWanted server.database server.database.instances InstanceItem.owningGroup InstanceItem.cluster group cluster
            instanceOfItem answer)) ↔
      splitting.SeesCredential server.database cred ∧ splitting.SeesAvailable server.database ∧
        splitting.SeesWanted server.database splitting.secrets server.database.secrets SecretItem.owningGroup
          SecretItem.cluster group cluster ∧
        splitting.SeesWanted server.database splitting.instances server.database.instances InstanceItem.owningGroup
          InstanceItem.cluster group cluster :=
  and_congr (returns_findCluster_paged splitting succeeding cred) <|
    and_congr (returns_allocate_paged splitting succeeding rounds) <|
      and_congr (returns_listSecrets_paged splitting succeeding cold resolvable)
        (returns_listInstances_paged splitting succeeding cold resolvable)

end Answers

/-- Tables of two rows, of which the first is not the one that is looked for. -/
def twoRowServer : Server where
  database := {
    clusters := AList.insert "cluster_2" ⟨some "west", some "", some "", some "group_1", none, none⟩
      (AList.insert "cluster_1" ⟨some "east", some "", some "", some "group_1", none, some "key secret"⟩ ∅)
    instances := AList.insert "instance_2" ⟨"web", "nginx", "group_2", "cluster_1", "today"⟩
      (AList.insert "instance_1" ⟨"web", "nginx", "group_1", "cluster_1", "today"⟩ ∅)
    secrets := AList.insert "secret_2" ⟨"password", "group_2", "cluster_1", "today", "scrypt"⟩
      (AList.insert "secret_1" ⟨"password", "group_1", "cluster_1", "today", "scrypt"⟩ ∅)
    credentials := AList.insert "busy" ⟨"secret", true, false⟩ (AList.insert "free" ⟨"secret", false, false⟩ ∅) }

private theorem twoRowServer_resolvable : Resolvable twoRowServer.database "group_1" "" :=
  ⟨by decide, fun _ => .empty _, fun given => absurd rfl given, rfl, rfl⟩

/-- With every row on a page of its own, nothing is found. -/
theorem records_missed_on_later_pages :
    Succeeding twoRowServer ∧ Cold twoRowServer ∧ Resolvable twoRowServer.database "group_1" "" ∧
      ∃ splitting : Splitting,
        (Recorded twoRowServer.database "key" ∧
          Returns (splitting.findClusterUsingCredential { accessKey := "key", secretKey := "secret" }) twoRowServer
            fun cluster _ => cluster.valid = false) ∧
        (twoRowServer.database.credentials.lookup "free" = some ⟨"secret", false, false⟩ ∧
          Returns (splitting.allocateMonitoringCredential 1) twoRowServer
            fun result _ => result = some ({}, Splitting.noneAvailable)) ∧
        ((twoRowServer.database.secrets.lookup "secret_1").map SecretItem.owningGroup = some "group_1" ∧
          Returns (splitting.listSecrets "group_1" "") twoRowServer fun answer _ => answer = []) ∧
        (twoRowServer.database.instances.lookup "instance_1").map InstanceItem.owningGroup = some "group_1" ∧
          Returns (splitting.listApplicationInstancesByClusterOrGroup "group_1" "") twoRowServer
            fun answer _ => answer = [] :=
  ⟨fun _ => rfl, ⟨rfl, rfl, rfl, rfl⟩, twoRowServer_resolvable,
    { groups := .separate, clusters := .separate, instances := .separate, secrets := .separate, credentials := .separate },
    ⟨⟨"cluster_1", _, rfl, by decide⟩, rfl⟩, ⟨rfl, rfl⟩, ⟨rfl, rfl⟩,
    rfl, rfl⟩

/-- With every table on one page, all is found. -/
theorem queries_right_on_one_page :
    Returns (({} : Splitting).allocateMonitoringCredential 1) twoRowServer (Allocated twoRowServer.database) ∧
      Returns (({} : Splitting).listSecrets "group_1" "") twoRowServer fun answer _ =>
        ListsWanted twoRowServer.database twoRowServer.database.secrets SecretItem.owningGroup SecretItem.cluster
          "group_1" "" secretOfItem answer := by
  have places : ∀ rowGroup rowCluster, Wanted twoRowServer.database "group_1" "" rowGroup rowCluster →
      ({} : Splitting).SeesPlaces twoRowServer.database "group_1" "" rowGroup rowCluster :=
    fun _ _ wanted => ⟨.inr ⟨wanted.1.resolve_left (by decide), fun unknown => absurd unknown (by decide)⟩, .inl rfl⟩
  have stored : ∀ {α : Type} {table : FiniteMap String α} {id : String} {row : α}, table.lookup id = some row →
      Paging.single.OnFirst table.pairs (id, row) :=
    fun found => Paging.onFirst_single.mpr (FiniteMap.mem_pairs.mpr found)
  have credential : ({} : Splitting).SeesCredential twoRowServer.database { accessKey := "key", secretKey := "secret" } := by
    refine ⟨iff_of_true ⟨"cluster_1", _, rfl, by decide⟩ ⟨("cluster_1", _), stored rfl, rfl⟩, fun row front => ?_⟩
    obtain rfl := Option.some.inj front
    exact ⟨rfl, rfl, rfl, rfl⟩
  have all := (queries_right_iff {} (fun _ => rfl) ⟨rfl, rfl, rfl, rfl⟩ { accessKey := "key", secretKey := "secret" } 0
    twoRowServer_resolvable).mpr ⟨credential, fun _ => ⟨"free", _, stored rfl, rfl, rfl⟩,
      fun _ _ found wanted => ⟨stored found, places _ _ wanted⟩, fun _ _ found wanted => ⟨stored found, places _ _ wanted⟩⟩
  exact ⟨all.2.1, all.2.2.1⟩

end Slate
