import Slate.PagedQueries
import Slate.Proofs.DeletedRecords
import Slate.Proofs.InstanceListings
import Slate.Proofs.SecretLookups
import Slate.Proofs.VolumeListings

/-! The listings that a deletion works through. They are complete when no cache that is
trusted lacks a record, no record in it expires meanwhile, and what is asked for lies on the
first page of its table. -/

namespace Slate
open Library

/-- However much of a table is left, all that is wanted of it lies on the first page. -/
def Library.Paging.Shows {κ α : Type} [DecidableEq κ] (paging : Paging (κ × α)) (table : FiniteMap κ α)
    (wanted : κ → α → Prop) : Prop :=
  ∀ part : FiniteMap κ α, (∀ key row, part.lookup key = some row → table.lookup key = some row) →
    ∀ key row, part.lookup key = some row → wanted key row → paging.OnFirst part.pairs (key, row)

namespace Library.Paging.Shows
variable {κ α : Type} [DecidableEq κ] {paging : Paging (κ × α)} {table : FiniteMap κ α} {wanted : κ → α → Prop}

theorem part (shows_ : paging.Shows table wanted) {rest : FiniteMap κ α}
    (within : ∀ key row, rest.lookup key = some row → table.lookup key = some row) : paging.Shows rest wanted :=
  fun some_ fewer => shows_ some_ fun key row found => within key row (fewer key row found)

theorem queried (shows_ : paging.Shows table wanted) {select : κ × α → Bool} {key : κ} {row : α}
    (found : table.lookup key = some row) (chosen : wanted key row) (selected : select (key, row) = true) :
    (key, row) ∈ (paging.query table.pairs select none).items :=
  mem_query_none.mpr ⟨shows_ table (fun _ _ => id) key row found chosen, selected⟩

theorem single : (Paging.single : Paging (κ × α)).Shows table wanted :=
  fun _ _ _ _ found _ => onFirst_single.mpr (FiniteMap.mem_pairs.mpr found)

end Library.Paging.Shows

/-- What a query answers is in the table, and selected. -/
theorem query_stored {κ α : Type} [DecidableEq κ] {paging : Paging (κ × α)} {table : FiniteMap κ α} {select : κ × α → Bool}
    {entry : κ × α} (listed : entry ∈ (paging.query table.pairs select none).items) :
    table.lookup entry.1 = some entry.2 ∧ select entry = true := by
  obtain ⟨first, selected⟩ := Paging.mem_query_none.mp listed
  exact ⟨FiniteMap.mem_pairs.mp first.mem, selected⟩

/-- A program that reads leaves the tables and the clusters alone, and caches one kind of
record. -/
structure Reads (touched : Option TouchedKind) (before after : Server) : Prop extends Touching touched before after where
  database : after.database = before.database
  clusters : clusterView.read after = clusterView.read before

variable {touched : Option TouchedKind}

theorem Reads.trans {first second third : Server} (early : Reads touched first second) (late : Reads touched second third) :
    Reads touched first third :=
  ⟨early.toTouching.trans late.toTouching, late.database.trans early.database, late.clusters.trans early.clusters⟩

instance : IsPreorder Server (Reads touched) where
  refl server := ⟨refl server, rfl, rfl⟩
  trans _ _ _ := Reads.trans

/-- Where nothing is touched, nothing of a kind is. -/
theorem Reads.widen {before after : Server} (same : Reads none before after) : Reads touched before after :=
  ⟨same.toTouching.widen, same.database, same.clusters⟩

theorem Reads.past {before after : Server} (reads : Reads touched before after) : Past clusterView before after :=
  ⟨reads.toLater, reads.clusters⟩

theorem passing_reads : Passing (Reads touched) where
  tick := fun server => ⟨looking_touching.tick server, rfl, rfl⟩
  answered := fun server => ⟨looking_touching.answered server, rfl, rfl⟩

section Caches
variable (before after : Server) (later : Later before after) (database : after.database = before.database)
  (clusters : after.clusters = before.clusters)
include later database clusters

theorem Reads.ofInstances (secrets : after.secrets = before.secrets) (volumes : after.volumes = before.volumes) :
    Reads (some .application) before after :=
  ⟨⟨later, fun other => absurd rfl other, fun _ => ⟨congrArg Database.secrets database, secrets⟩,
    fun _ => ⟨congrArg Database.volumes database, volumes⟩, congrArg Database.others database, by rw [clusters]⟩, database,
    by simp only [clusterView, database, clusters]⟩

private theorem Reads.ofSecrets (instances : after.instances = before.instances) (volumes : after.volumes = before.volumes) :
    Reads (some .secret) before after :=
  ⟨⟨later, fun _ => ⟨congrArg Database.instances database, congrArg Database.instanceConfigs database, instances⟩,
    fun other => absurd rfl other, fun _ => ⟨congrArg Database.volumes database, volumes⟩,
    congrArg Database.others database, by rw [clusters]⟩, database, by simp only [clusterView, database, clusters]⟩

private theorem Reads.ofVolumes (instances : after.instances = before.instances) (secrets : after.secrets = before.secrets) :
    Reads (some .volume) before after :=
  ⟨⟨later, fun _ => ⟨congrArg Database.instances database, congrArg Database.instanceConfigs database, instances⟩,
    fun _ => ⟨congrArg Database.secrets database, secrets⟩, fun other => absurd rfl other,
    congrArg Database.others database, by rw [clusters]⟩, database, by simp only [clusterView, database, clusters]⟩
end Caches

/-- Every record of a category is fresh for good, and while the category is trusted it has
every row that is wanted. -/
def Covers {α Row : Type} [Identified α String] (server : Server) (category : Category α) (table : FiniteMap String Row)
    (wanted : Row → Prop) : Prop :=
  Trusted server category.expiration → ∀ id row, table.lookup id = some row → wanted row →
    ∃ entry ∈ category.members, ident entry.record = id ∧ ∀ n, server.clock n ≤ entry.expirationTime

theorem Covers.later {α Row : Type} [Identified α String] {before after : Server} {category : Category α}
    {table : FiniteMap String Row} {wanted : Row → Prop} (covers : Covers before category table wanted)
    (later : Later before after) : Covers after category table wanted := by
  intro trusted id row found chosen
  obtain ⟨entry, member, named, fresh⟩ := covers (later.trusted trusted) id row found chosen
  refine ⟨entry, member, named, fun n => ?_⟩
  obtain ⟨m, same⟩ := later.reading n
  rw [same]
  exact fresh m

private theorem mem_freshRecords_of_fresh {α : Type} {clock : Nat → Time} {entries : List (CacheRecord α)} {entry : CacheRecord α}
    (member : entry ∈ entries) (fresh : ∀ n, clock n ≤ entry.expirationTime) :
    entry.record ∈ freshRecords clock entries := by
  induction entries generalizing clock with
  | nil => cases member
  | cons first rest ih =>
    rw [freshRecords]
    rcases List.mem_cons.mp member with rfl | inside
    · rw [if_pos (fresh 0)]
      exact List.mem_cons_self
    · have found := ih inside fun n => fresh (n + 1)
      split
      · exact List.mem_cons_of_mem _ found
      · exact found

/-- A category that covers what is wanted answers with all of it, or not at all. -/
theorem returns_members_covered {α Row : Type} [Identified α String] {server : Server} {category : Category α}
    {table : FiniteMap String Row} {wanted : Row → Prop} (covers : Covers server category table wanted) :
    Returns (maybeReturnCachedCategoryMembers category) server fun answer after =>
      (∀ members, answer = some members → (∀ id row, table.lookup id = some row → wanted row → id ∈ members.map ident) ∧
        ∀ value ∈ members, ∃ entry ∈ category.members, entry.record = value) ∧ Reads none server after := by
  refine Returns.also ?_ (leads_members passing_reads category server).yields
  apply returns_cachedMembers
  · rintro trusted after -
    rintro members same
    obtain rfl := Option.some.inj same
    refine ⟨fun id row found chosen => ?_, fun value member => ?_⟩
    · obtain ⟨entry, member, named, fresh⟩ := covers ⟨0, trusted⟩ id row found chosen
      exact List.mem_map.mpr ⟨entry.record, mem_freshRecords_of_fresh member fun n => fresh (n + 1), named⟩
    · obtain ⟨entry, member, same, -⟩ := mem_freshRecords member
      exact ⟨entry, member, same⟩
  · exact fun _ after _ => nofun

/-- What is cached about instances is in the table, and all of it while the cache is
trusted. -/
def InstancesKnown (server : Server) : Prop :=
  CacheAgrees server server.database.instances InstanceRead server.instances.instanceCache server.instances.expirationTime

theorem InstancesKnown.kept {before after : Server} (known : InstancesKnown before) (later : Later before after)
    (table : after.database.instances = before.database.instances) (caches : after.instances = before.instances) :
    InstancesKnown after := by
  unfold InstancesKnown
  rw [table, caches]
  exact CacheAgrees.later known later

theorem InstancesKnown.erased {id : String} {before after : Server} (known : InstancesKnown before)
    (erased : InstanceErased id before after) : InstancesKnown after := by
  unfold InstancesKnown
  rw [erased.table, erased.caches]
  unfold InstanceCaches.forget
  cases present : before.instances.instanceCache.lookup id with
  | none => exact CacheAgrees.eraseUncached known erased.toLater present
  | some entry => exact CacheAgrees.erase known erased.toLater id

private theorem returns_cacheInstance_known {server : Server} (known : InstancesKnown server) {inst : ApplicationInstance}
    {item : InstanceItem} (read : InstanceRead item inst) (stored : server.database.instances.lookup inst.id = some item) :
    Returns (cacheInstance inst) server fun _ after => InstancesKnown after ∧ Reads (some .application) server after ∧
      (after.instances.instanceCache.lookup inst.id).isSome ∧
      ∀ other, (server.instances.instanceCache.lookup other).isSome → (after.instances.instanceCache.lookup other).isSome := by
  unfold cacheInstance modifyInstances
  simp only [returns_bind, returns_lasting, returns_now, returns_modify]
  have later := ((((Later.tick server).trans (.tick _)).trans (.tick _)).trans (.tick _)).trans (.tick _)
  have put : ∀ record : CacheRecord ApplicationInstance, record.record = inst →
      CacheAgrees server.tick.tick.tick.tick.tick server.database.instances InstanceRead
        (AList.insert (ident record.record) record server.instances.instanceCache) server.instances.expirationTime := by
    rintro ⟨_, limit⟩ rfl
    exact CacheAgrees.put known later (.present_already stored) read
  exact ⟨(put ⟨inst, _⟩ rfl).later (.of_eq rfl rfl), .ofInstances _ _ (later.trans (.of_eq rfl rfl)) rfl rfl rfl rfl,
    isSome_insert_self _ _ _, fun other present => isSome_insert _ _ _ _ present⟩

private theorem returns_collectInstances_known {server : Server} (known : InstancesKnown server)
    {rows : List (String × InstanceItem)}
    (stored : ∀ entry ∈ rows, server.database.instances.lookup entry.1 = some entry.2) :
    Returns (collectInstances rows) server fun instances after => InstancesKnown after ∧
      Reads (some .application) server after ∧ instances = rows.map (fun entry => instanceOfItem entry.1 entry.2) ∧
      ∀ entry ∈ rows, (after.instances.instanceCache.lookup entry.1).isSome := by
  unfold collectInstances
  apply returns_mapM rows _ server fun visited instances current => InstancesKnown current ∧
    Reads (some .application) server current ∧ instances = visited.map (fun entry => instanceOfItem entry.1 entry.2) ∧
    ∀ entry ∈ visited, (current.instances.instanceCache.lookup entry.1).isSome
  · exact ⟨known, refl server, rfl, by simp⟩
  · rintro visited ⟨id, item⟩ rest instances current split ⟨kept, reads, read, filled⟩
    have present : current.database.instances.lookup id = some item := by
      rw [reads.database]
      exact stored (id, item) (by simp [split])
    simp only [returns_bind, returns_pure]
    refine (returns_cacheInstance_known kept ⟨rfl, rfl⟩ present).mono ?_
    rintro _ after ⟨kept', reads', mine, others⟩
    refine ⟨kept', reads.trans reads', by rw [read, List.map_append]; rfl, ?_⟩
    intro entry member
    rcases List.mem_append.mp member with visited | last
    · exact others _ (filled entry visited)
    · rw [List.mem_singleton.mp last]
      exact mine

theorem returns_listApplicationInstances_known {server : Server} (succeeding : Succeeding server)
    (known : InstancesKnown server) :
    Returns listApplicationInstances server fun answer after => InstancesKnown after ∧
      Reads (some .application) server after ∧ Lists server.database.instances InstanceRead (fun _ => True) answer := by
  unfold listApplicationInstances
  simp only [returns_bind, returns_now, returns_get, returns_ite, returns_pure]
  split
  next trusted =>
    exact ⟨known.kept (.tick server) rfl rfl, passing_reads.tick server, CacheAgrees.lists known ⟨0, trusted⟩⟩
  next =>
    have asked : Reads (some .application) server server.tick.answered :=
      (passing_reads.tick server).trans (passing_reads.answered _)
    rw [returns_request]
    split
    next =>
      refine (returns_collectInstances_known (known.kept asked.toLater rfl rfl) fun entry => FiniteMap.mem_pairs.mp).mono ?_
      rintro instances after ⟨kept, reads, rfl, filled⟩
      have stamped : Reads (some .application) after _ :=
        .ofInstances _ { after.tick with instances := { after.instances with
          expirationTime := after.clock 0 + instanceCacheValidity } } ((Later.tick after).trans (.of_eq rfl rfl)) rfl rfl rfl rfl
      refine ⟨?_, (asked.trans reads).trans stamped, lists_pairs fun name row _ => ⟨rfl, rfl, rfl⟩⟩
      refine CacheAgrees.stamp (CacheAgrees.later kept stamped.toLater) (fun name row stored => ?_) _
      have initial : server.database.instances.lookup name = some row := by
        rw [← stored]
        exact congrArg (fun database => database.instances.lookup name) reads.database.symm
      exact filled (name, row) (FiniteMap.mem_pairs.mpr initial)
    next failed => exact absurd (succeeding 0) failed

theorem known_nonempty {idPrefix text : String} (known : startsWith idPrefix text = true)
    (proper : startsWith idPrefix "" = false) : text ≠ "" := by
  rintro rfl
  rw [known] at proper
  cases proper

private theorem normalizeArguments_group {splitting : Splitting} {groupID : String}
    (known : startsWith groupIDPrefix groupID = true) :
    splitting.normalizeArguments groupID "" = return some (groupID, "") := by
  have given := known_nonempty known startsWith_empty_group
  unfold Splitting.normalizeArguments normalizeGiven Splitting.normalizeGroupID
  simp [given, known]

private theorem normalizeArguments_cluster {splitting : Splitting} {cID : String}
    (known : startsWith clusterIDPrefix cID = true) :
    splitting.normalizeArguments "" cID = return some ("", cID) := by
  have given := known_nonempty known startsWith_empty_cluster
  unfold Splitting.normalizeArguments normalizeGiven Splitting.normalizeClusterID
  simp [given, known]

private theorem selects_group {groupID : String} (given : groupID ≠ "") (owningGroup rowCluster : String) :
    listingSelects groupID "" owningGroup rowCluster = true ↔ owningGroup = groupID := by
  simp [listingSelects, given]

theorem selects_cluster (cID owningGroup rowCluster : String) :
    listingSelects "" cID owningGroup rowCluster = true ↔ rowCluster = cID := by
  simp [listingSelects]

/-- The instances of a group are all listed. -/
theorem returns_listInstancesOfGroup {splitting : Splitting} {server : Server} (succeeding : Succeeding server)
    (known : InstancesKnown server) {groupID : String} (formed : startsWith groupIDPrefix groupID = true)
    (covers : Covers server (server.instances.instanceByGroupCache.find groupID) server.database.instances
      fun row => row.owningGroup = groupID)
    (shows_ : splitting.instances.Shows server.database.instances fun _ row => row.owningGroup = groupID) :
    Returns (splitting.listApplicationInstancesByClusterOrGroup groupID "") server fun answer after => InstancesKnown after ∧
      Reads (some .application) server after ∧
      ∀ id row, server.database.instances.lookup id = some row → row.owningGroup = groupID → id ∈ answer.map ident := by
  have given := known_nonempty formed startsWith_empty_group
  have kind : listingKind groupID "" = some .group := by simp [listingKind, given]
  unfold Splitting.listApplicationInstancesByClusterOrGroup
  simp only [normalizeArguments_group formed, returns_bind, returns_pure, kind]
  unfold Splitting.listInstancesNormalized
  simp only [returns_bind, returns_get]
  refine (returns_members_covered covers).mono ?_
  rintro answer passed ⟨complete, same⟩
  have passedKnown := known.kept same.toLater (same.applications (by simp)).1 (same.applications (by simp)).2.2
  cases answer with
  | some members => exact ⟨passedKnown, same.widen, (complete members rfl).1⟩
  | none =>
    have asked : Reads (some .application) server passed.answered := same.widen.trans (passing_reads.answered passed)
    have table : passed.database = server.database := same.database
    simp only [returns_bind, returns_request, same.toLater.succeeding succeeding 0, returns_ite, if_true, returns_get,
      returns_pure, answered_database, table]
    have member : ∀ id row, server.database.instances.lookup id = some row → row.owningGroup = groupID →
        (id, row) ∈ (splitting.instances.query server.database.instances.pairs
          (fun row => listingSelects groupID "" row.2.owningGroup row.2.cluster) none).items :=
      fun id row found owned => shows_.queried found owned ((selects_group given _ _).mpr owned)
    split
    next none =>
      refine ⟨passedKnown.kept (.answered passed) rfl rfl, asked, fun id row found owned => ?_⟩
      have impossible := member id row found owned
      rw [none] at impossible
      cases impossible
    next =>
      refine (returns_collectInstances_known (passedKnown.kept (.answered passed) rfl rfl) fun entry chosen => ?_).mono ?_
      · rw [answered_database, table]
        exact (query_stored chosen).1
      rintro instances after ⟨kept, reads, rfl, filled⟩
      have stamped : Reads (some .application) after { after.tick with
          instances := after.instances.stamp .group groupID "" (after.clock 0 + instanceCacheValidity) } :=
        .ofInstances _ _ ((Later.tick after).trans (.of_eq rfl rfl)) rfl rfl rfl rfl
      refine ⟨CacheAgrees.later kept stamped.toLater, (asked.trans reads).trans stamped, fun id row found owned => ?_⟩
      exact List.mem_map.mpr ⟨_, List.mem_map.mpr ⟨(id, row), member id row found owned, rfl⟩, rfl⟩

theorem leads_cacheSecret (secret : Secret) : Leads (Reads (some .secret)) (cacheSecret secret) := by
  have passing : Passing (Reads (some .secret)) := passing_reads
  refine (leads_lasting passing _ _).bind fun _ => (leads_now passing).bind fun _ => (leads_now passing).bind fun _ => ?_
  exact .modifies fun server => .ofSecrets _ _ (.of_eq rfl rfl) rfl rfl rfl rfl

/-- What a listing selects is answered. -/
theorem returns_listSecrets_selected {splitting : Splitting} {server : Server} (succeeding : Succeeding server)
    {groupID cID : String} (given : groupID ≠ "" ∨ cID ≠ "") {wanted : SecretItem → Prop}
    (selects : ∀ row, wanted row → listingSelects groupID cID row.owningGroup row.cluster = true)
    (covers : ∀ category, server.secrets.listing groupID cID = some category →
      Covers server category server.database.secrets wanted)
    (shows_ : splitting.secrets.Shows server.database.secrets fun _ => wanted) :
    Returns (splitting.listSecretsNormalized groupID cID) server fun answer after => Reads (some .secret) server after ∧
      ∀ id row, server.database.secrets.lookup id = some row → wanted row → id ∈ answer.map ident := by
  have open_ : ¬ (groupID = "" ∧ cID = "") := fun none => given.elim (fun first => first none.1) fun second => second none.2
  have queried : ∀ passed, Reads none server passed → Returns (do
      unless ← request do
        return []
      let rows := (splitting.secrets.query (← get).database.secrets.pairs
        (fun row => listingSelects groupID cID row.2.owningGroup row.2.cluster) none).items
      let secrets ← rows.mapM fun entry => do
        let secret := listedSecret groupID cID entry.1 entry.2
        cacheSecret secret
        return secret
      let reading ← now
      modifySecrets fun caches => caches.stamp groupID cID (reading + secretCacheValidity)
      return secrets) passed fun answer after => Reads (some .secret) server after ∧
        ∀ id row, server.database.secrets.lookup id = some row → wanted row → id ∈ answer.map ident := by
    intro passed same
    have table : passed.database = server.database := same.database
    have asked : Reads (some .secret) server passed.answered := same.widen.trans (passing_reads.answered passed)
    simp only [returns_bind, returns_request, same.toLater.succeeding succeeding 0, returns_ite, if_true, returns_get,
      returns_pure, returns_now, answered_database, table]
    have collected := (returns_listedSecrets groupID cID (splitting.secrets.query server.database.secrets.pairs
      (fun row => listingSelects groupID cID row.2.owningGroup row.2.cluster) none).items passed.answered).also
      (Leads.mapM (fun entry _ => (leads_cacheSecret (listedSecret groupID cID entry.1 entry.2)).bind fun _ => .pure _)
        passed.answered).yields
    refine collected.mono ?_
    rintro secrets after ⟨rfl, reads⟩
    refine ⟨(asked.trans reads).trans (.ofSecrets _ _ ((Later.tick after).trans (.of_eq rfl rfl)) rfl rfl rfl rfl), ?_⟩
    intro id row found chosen
    refine List.mem_map.mpr ⟨listedSecret groupID cID id row, List.mem_map.mpr ⟨(id, row), ?_, rfl⟩, rfl⟩
    exact shows_.queried found chosen (selects row chosen)
  unfold Splitting.listSecretsNormalized
  simp only [returns_bind, returns_get]
  split
  next category found =>
    simp only [returns_bind]
    refine (returns_members_covered (covers category found)).mono ?_
    rintro answer passed ⟨complete, same⟩
    cases answer with
    | some members => exact ⟨same.widen, (complete members rfl).1⟩
    | none =>
      rw [if_neg open_]
      exact queried passed same
  next =>
    rw [if_neg open_]
    exact queried server (refl server)

/-- The secrets of a group are all listed, -/
theorem returns_listSecretsOfGroup {splitting : Splitting} {server : Server} (succeeding : Succeeding server)
    {groupID : String} (formed : startsWith groupIDPrefix groupID = true)
    (covers : Covers server (server.secrets.secretByGroupCache.find groupID) server.database.secrets
      fun row => row.owningGroup = groupID)
    (shows_ : splitting.secrets.Shows server.database.secrets fun _ row => row.owningGroup = groupID) :
    Returns (splitting.listSecrets groupID "") server fun answer after => Reads (some .secret) server after ∧
      ∀ id row, server.database.secrets.lookup id = some row → row.owningGroup = groupID → id ∈ answer.map ident := by
  have given := known_nonempty formed startsWith_empty_group
  unfold Splitting.listSecrets
  rw [if_neg fun none => given none.1]
  simp only [normalizeArguments_group formed, returns_bind, returns_pure]
  refine returns_listSecrets_selected succeeding (.inl given) (fun row => (selects_group given _ _).mpr) ?_ shows_
  intro category found
  simp only [SecretCaches.listing, ne_eq, given, not_false_eq_true, not_true_eq_false, and_false, if_false, if_true,
    Option.some.injEq] at found
  exact found ▸ covers

/-- and so are those on a cluster, which are always asked for. -/
theorem returns_listSecretsOnCluster {splitting : Splitting} {server : Server} (succeeding : Succeeding server)
    {cID : String} (formed : startsWith clusterIDPrefix cID = true)
    (shows_ : splitting.secrets.Shows server.database.secrets fun _ row => row.cluster = cID) :
    Returns (splitting.listSecrets "" cID) server fun answer after => Reads (some .secret) server after ∧
      ∀ id row, server.database.secrets.lookup id = some row → row.cluster = cID → id ∈ answer.map ident := by
  have given := known_nonempty formed startsWith_empty_cluster
  unfold Splitting.listSecrets
  rw [if_neg fun none => given none.2]
  simp only [normalizeArguments_cluster formed, returns_bind, returns_pure]
  refine returns_listSecrets_selected succeeding (.inr given) (fun row => (selects_cluster cID _ _).mpr) ?_ shows_
  intro category found
  simp [SecretCaches.listing] at found

/-- What is cached about claims is in the table. -/
def VolumesKnown (server : Server) : Prop :=
  ∀ id entry, server.volumes.volumeCache.lookup id = some entry →
    ∃ row, server.database.volumes.lookup id = some row ∧ VolumeRead row entry.record

/-- What is cached about the claims on a cluster is in the table, and is all there is while
it is trusted. -/
structure ClaimsKnown (server : Server) (cID : String) : Prop where
  faithful : ∀ entry ∈ (server.volumes.volumeByClusterCache.find cID).members,
    ∃ row, server.database.volumes.lookup (ident entry.record) = some row ∧ VolumeRead row entry.record ∧ row.cluster = cID
  covers : Covers server (server.volumes.volumeByClusterCache.find cID) server.database.volumes fun row => row.cluster = cID

/-- A listing of the claims on one cluster leaves what is cached about others alone. -/
structure ClaimsListed (cID : String) (before after : Server) : Prop extends Reads (some .volume) before after where
  elsewhere : ∀ other, other ≠ cID →
    after.volumes.volumeByClusterCache.find other = before.volumes.volumeByClusterCache.find other

theorem ClaimsListed.trans {cID : String} {first second third : Server} (early : ClaimsListed cID first second)
    (late : ClaimsListed cID second third) : ClaimsListed cID first third :=
  ⟨early.toReads.trans late.toReads, fun other different =>
    (late.elsewhere other different).trans (early.elsewhere other different)⟩

private theorem returns_cacheListedVolume_known {server : Server} (known : VolumesKnown server) {pvc : PersistentVolumeClaim}
    {row : VolumeItem} (read : VolumeRead row pvc) (stored : server.database.volumes.lookup pvc.id = some row) (cID : String) :
    Returns (cacheListedVolume pvc) server fun _ after => VolumesKnown after ∧ ClaimsListed cID server after := by
  unfold cacheListedVolume modifyVolumes
  simp only [returns_bind, returns_lasting, returns_now, returns_modify]
  have later := ((Later.tick server).trans (.tick _)).trans (.tick _)
  refine ⟨?_, .ofVolumes _ _ (later.trans (.of_eq rfl rfl)) rfl rfl rfl rfl, fun _ _ => rfl⟩
  intro id entry found
  change AList.lookup id (AList.insert pvc.id _ server.volumes.volumeCache) = some entry at found
  rw [FiniteMap.lookup_insert] at found
  split at found
  next same =>
    cases found
    exact ⟨row, same ▸ stored, read⟩
  next => exact known id entry found

/-- The claims on a cluster are all listed, and no others. -/
theorem returns_listVolumesOnCluster {splitting : Splitting} {server : Server} (succeeding : Succeeding server)
    (known : VolumesKnown server)
    (readable : ∀ id row, server.database.volumes.lookup id = some row → row.Readable) {cID : String}
    (formed : startsWith clusterIDPrefix cID = true) (claims : ClaimsKnown server cID)
    (shows_ : splitting.volumes.Shows server.database.volumes fun _ row => row.cluster = cID) :
    Returns (splitting.listPersistentVolumeClaimsByClusterOrGroup "" cID) server fun answer after => VolumesKnown after ∧
      ClaimsListed cID server after ∧
      (∀ id row, server.database.volumes.lookup id = some row → row.cluster = cID → id ∈ answer.map ident) ∧
      ∀ pvc ∈ answer, ∃ row, server.database.volumes.lookup pvc.id = some row ∧ VolumeRead row pvc ∧ row.cluster = cID := by
  have given := known_nonempty formed startsWith_empty_cluster
  have kind : listingKind "" cID = some .cluster := by simp [listingKind, given]
  unfold Splitting.listPersistentVolumeClaimsByClusterOrGroup
  simp only [normalizeArguments_cluster formed, returns_bind, returns_pure, kind]
  unfold Splitting.listVolumesNormalized
  simp only [returns_bind, returns_get]
  refine (returns_members_covered claims.covers).mono ?_
  rintro answer passed ⟨complete, same⟩
  have passedKnown : VolumesKnown passed := by
    unfold VolumesKnown
    rw [(same.volumes (by simp)).1, (same.volumes (by simp)).2]
    exact known
  have passing : ClaimsListed cID server passed := ⟨same.widen, fun _ _ => by rw [(same.volumes (by simp)).2]⟩
  cases answer with
  | some members =>
    refine ⟨passedKnown, passing, (complete members rfl).1, fun pvc member => ?_⟩
    obtain ⟨entry, held, rfl⟩ := (complete members rfl).2 pvc member
    exact claims.faithful entry held
  | none =>
    have asked : ClaimsListed cID server passed.answered := passing.trans ⟨passing_reads.answered passed, fun _ _ => rfl⟩
    have table : passed.database = server.database := same.database
    simp only [returns_bind, returns_request, same.toLater.succeeding succeeding 0, returns_ite, if_true, returns_get,
      returns_pure, answered_database, table]
    let selected := (splitting.volumes.query server.database.volumes.pairs
      (fun row => listingSelects "" cID row.2.owningGroup row.2.cluster) none).items
    have member : ∀ id row, server.database.volumes.lookup id = some row → row.cluster = cID →
        (id, row) ∈ selected := fun id row found owned =>
      shows_.queried found owned ((selects_cluster cID _ _).mpr owned)
    split
    next none =>
      refine ⟨passedKnown, asked, fun id row found owned => ?_, fun _ member => by cases member⟩
      have impossible := member id row found owned
      rw [show selected = [] from none] at impossible
      cases impossible
    next =>
      have collected : Returns (selected.mapM fun entry => do
          let pvc ← readVolume entry.1 entry.2
          cacheListedVolume pvc
          return pvc) passed.answered fun claims after => VolumesKnown after ∧ ClaimsListed cID passed.answered after ∧
            claims = selected.map fun entry => claimOfItem entry.1 entry.2 := by
        apply returns_mapM selected _ passed.answered fun visited claims current =>
          VolumesKnown current ∧ ClaimsListed cID passed.answered current ∧
            claims = visited.map fun entry => claimOfItem entry.1 entry.2
        · exact ⟨passedKnown, ⟨refl passed.answered, fun _ _ => rfl⟩, rfl⟩
        · rintro visited ⟨id, row⟩ rest claims current split ⟨kept, listed, read⟩
          have stored : current.database.volumes.lookup id = some row := by
            have chosen : (id, row) ∈ selected := by simp [split]
            rw [listed.database, answered_database, table]
            exact (query_stored chosen).1
          have whole : row.Readable := by
            rw [listed.database, answered_database, table] at stored
            exact readable id row stored
          obtain ⟨-, named, isRead⟩ := whole.claim id
          simp only [returns_bind, returns_pure]
          refine returns_readVolume whole current ?_
          refine (returns_cacheListedVolume_known kept isRead (named.symm ▸ stored) cID).mono ?_
          rintro _ after ⟨kept', listed'⟩
          exact ⟨kept', listed.trans listed', by rw [read, List.map_append]; rfl⟩
      refine collected.mono ?_
      rintro claims after ⟨kept, listed, rfl⟩
      have stamped : ClaimsListed cID after { after.tick with
          volumes := after.volumes.stamp .cluster "" cID (after.clock 0 + volumeCacheValidity) } := by
        refine ⟨.ofVolumes _ _ ((Later.tick after).trans (.of_eq rfl rfl)) rfl rfl rfl rfl, fun other different => ?_⟩
        change (after.volumes.volumeByClusterCache.updateExpiration cID _).2.find other = _
        unfold ConcurrentMultimap.updateExpiration
        split
        · rw [ConcurrentMultimap.find_insert, if_neg different]
        · rfl
      refine ⟨kept, (asked.trans listed).trans stamped, fun id row found owned => ?_, fun pvc listedClaim => ?_⟩
      · obtain ⟨-, named, -⟩ := (readable id row found).claim id
        exact List.mem_map.mpr ⟨claimOfItem id row, List.mem_map.mpr ⟨(id, row), member id row found owned, rfl⟩, named⟩
      · obtain ⟨⟨id, row⟩, chosen, rfl⟩ := List.mem_map.mp listedClaim
        obtain ⟨found, picked⟩ := query_stored chosen
        obtain ⟨-, named, read⟩ := (readable id row found).claim id
        exact ⟨row, named.symm ▸ found, read, (selects_cluster cID _ _).mp picked⟩

end Slate
