import Slate.RecordCalls
import Slate.Library.ReadThrough
import Slate.Proofs.Parts
import Slate.Proofs.InstanceListings

/-! Clusters and instances as kinds of records that are stored, cached and listed, and
what the operations of the store do to either kind. -/

namespace Slate
open Library

/-- What is stored of a kind of records, which records are cached where a lookup finds
them, and which of them a complete listing shows until its expiration. -/
structure Shelf (α : Type) where
  stored : Set String
  cached : CacheRecord α → Prop
  listed : CacheRecord α → Prop
  expirationTime : Time

structure RecordKind (α : Type) where
  part : ServerPart (Shelf α)
  valid : α → Bool
  id : α → String
  validity : Time

/-- The second shelf has nothing that the first had not. -/
structure Shelf.Shrinks {α : Type} (before after : Shelf α) : Prop where
  stored : after.stored ⊆ before.stored
  cached : ∀ entry, after.cached entry → before.cached entry
  listed : ∀ entry, after.listed entry → before.listed entry
  expirationTime : after.expirationTime = before.expirationTime

/-- The second shelf has one more cached record than the first. -/
structure Shelf.Gains {α : Type} (new : CacheRecord α) (before after : Shelf α) : Prop where
  stored : after.stored = before.stored
  cached : ∀ entry, after.cached entry → entry = new ∨ before.cached entry
  listed : ∀ entry, after.listed entry → entry = new ∨ before.listed entry
  expirationTime : after.expirationTime = before.expirationTime

namespace RecordKind

variable {α : Type} (kind : RecordKind α)

def copies (server : Server) : Copies String where
  time := server.clock 0
  stored := (kind.part.read server).stored
  copied := fun id limit => ∃ entry, (kind.part.read server).cached entry ∧ kind.valid entry.record = true ∧
    kind.id entry.record = id ∧ entry.expirationTime = limit
  listed := { id | ∃ entry, (kind.part.read server).listed entry ∧ kind.valid entry.record = true ∧
    kind.id entry.record = id }
  stamp := (kind.part.read server).expirationTime

def shown (records : List α) : Set String := { id | ∃ record ∈ records, kind.valid record = true ∧ kind.id record = id }

/-- A step of a call which has records to cache, and others that it has collected. -/
def Moves (renews : Prop) (server after : Server) (pending pending' : List String) (records records' : List α) : Prop :=
  Steady server → Steady after ∧ Copies.Moves kind.validity renews (kind.copies server) (kind.copies after)
    { id | id ∈ pending } { id | id ∈ pending' } (kind.shown records) (kind.shown records')

variable {kind} {renews : Prop} {server after : Server} {pending pending' : List String} {records records' : List α}

/-- A step that leaves the shelf alone may collect what is cached and read what is
stored. -/
theorem Moves.aside (aside : Aside kind.part server after)
    (reads : ∀ id ∈ pending', id ∈ pending ∨ id ∈ (kind.part.read server).stored)
    (collects : ∀ record ∈ records', kind.valid record = true → record ∈ records ∨
      (∃ entry, (kind.part.read server).cached entry ∧ entry.record = record ∧ server.clock 0 ≤ entry.expirationTime) ∨
      (∃ entry, (kind.part.read server).listed entry ∧ entry.record = record) ∧
        server.clock 0 < (kind.part.read server).expirationTime) :
    kind.Moves renews server after pending pending' records records' := by
  intro steady
  refine ⟨aside.ages.steady steady, ?_⟩
  unfold copies
  rw [aside.same]
  refine ⟨aside.ages.time steady, subset_rfl, reads, fun _ _ copied => .inl copied, fun _ listed => .inl listed,
    .inl rfl, ?_⟩
  rintro id ⟨record, member, valid, rfl⟩
  rcases collects record member valid with old | ⟨entry, held, rfl, fresh⟩ | ⟨⟨entry, held, rfl⟩, fresh⟩
  · exact .inl ⟨record, old, valid, rfl⟩
  · exact .inr (.inr (.inl ⟨_, ⟨entry, held, valid, rfl, rfl⟩, fresh⟩))
  · exact .inr (.inr (.inr ⟨⟨entry, held, valid, rfl⟩, fresh⟩))

/-- So may one that only drops some of what it has in hand. -/
theorem Moves.drops (aside : Aside kind.part server after) (reads : ∀ id ∈ pending', id ∈ pending)
    (collects : ∀ record ∈ records', kind.valid record = true → record ∈ records) :
    kind.Moves renews server after pending pending' records records' :=
  .aside aside (fun id member => .inl (reads id member)) fun record member valid => .inl (collects record member valid)

/-- A record that is cached was in hand. -/
theorem Moves.caches {record : α} (ages : Ages server after)
    (gains : Shelf.Gains ⟨record, server.clock 0 + kind.validity⟩ (kind.part.read server) (kind.part.read after))
    (mine : kind.id record ∈ pending) (reads : ∀ id ∈ pending', id ∈ pending)
    (collects : ∀ other ∈ records', kind.valid other = true → other ∈ records ∨ other = record) :
    kind.Moves renews server after pending pending' records records' := by
  intro steady
  have later := ages.time steady
  refine ⟨ages.steady steady, later, gains.stored.subset, fun id member => .inl (reads id member), ?_, ?_,
    .inl gains.expirationTime, ?_⟩
  · rintro id limit ⟨entry, held, valid, rfl, rfl⟩
    rcases gains.cached entry held with rfl | old
    · exact .inr ⟨mine, Nat.add_le_add_right later _⟩
    · exact .inl ⟨entry, old, valid, rfl, rfl⟩
  · rintro id ⟨entry, held, valid, rfl⟩
    rcases gains.listed entry held with rfl | old
    · exact .inr mine
    · exact .inl ⟨entry, old, valid, rfl⟩
  · rintro id ⟨other, member, valid, rfl⟩
    rcases collects other member valid with old | rfl
    · exact .inl ⟨other, old, valid, rfl⟩
    · exact .inr (.inl mine)

theorem Moves.shrinks (ages : Ages server after) (shrinks : (kind.part.read server).Shrinks (kind.part.read after)) :
    kind.Moves renews server after pending [] records [] := by
  intro steady
  refine ⟨ages.steady steady, ages.time steady, shrinks.stored, ?_, ?_, ?_, .inl shrinks.expirationTime, ?_⟩
  · exact fun id member => absurd member List.not_mem_nil
  · rintro id limit ⟨entry, held, valid, rfl, rfl⟩
    exact .inl ⟨entry, shrinks.cached entry held, valid, rfl, rfl⟩
  · rintro id ⟨entry, held, valid, rfl⟩
    exact .inl ⟨entry, shrinks.listed entry held, valid, rfl⟩
  · rintro id ⟨record, member, -⟩
    cases member

/-- The complete listing renews its expiration when it has collected everything. -/
theorem Moves.stamps (renewing : renews) (clock : ∀ n, after.clock n = server.clock (n + 1))
    (same : kind.part.read after =
      { kind.part.read server with expirationTime := server.clock 0 + kind.validity }) :
    kind.Moves renews server after pending [] records records := by
  intro steady
  have later : server.clock 0 ≤ after.clock 0 := (clock 0).symm ▸ steady (Nat.zero_le 1)
  refine ⟨fun first second order => ?_, ?_⟩
  · rw [clock, clock]
    exact steady (Nat.add_le_add_right order 1)
  unfold copies
  rw [same]
  exact ⟨later, subset_rfl, fun id member => absurd member List.not_mem_nil, fun _ _ copied => .inl copied,
    fun _ listed => .inl listed, .inr ⟨renewing, Nat.add_le_add_right later _⟩, fun _ => .inl⟩

end RecordKind

def clusterKind : RecordKind Cluster where
  part := {
    read := fun server => {
      stored := { id | (server.database.clusters.lookup id).isSome }
      cached := fun entry => (∃ id, server.clusters.clusterCache.lookup id = some entry) ∨
        ∃ name, server.clusters.clusterByNameCache.lookup name = some entry
      listed := fun entry => ∃ id, server.clusters.clusterCache.lookup id = some entry
      expirationTime := server.clusters.expirationTime }
    tick := fun _ => rfl
    answered := fun _ => rfl }
  valid := Cluster.valid
  id := Cluster.id
  validity := clusterCacheValidity

def instanceKind : RecordKind ApplicationInstance where
  part := {
    read := fun server => {
      stored := { id | (server.database.instances.lookup id).isSome }
      cached := fun entry => (∃ id, server.instances.instanceCache.lookup id = some entry) ∨
        ∃ kind key id, (server.instances.index kind).entryOf key id = some entry
      listed := fun entry => ∃ id, server.instances.instanceCache.lookup id = some entry
      expirationTime := server.instances.expirationTime }
    tick := fun _ => rfl
    answered := fun _ => rfl }
  valid := ApplicationInstance.valid
  id := ApplicationInstance.id
  validity := instanceCacheValidity

theorem lookup_of_erase {κ α : Type} [DecidableEq κ] {map : FiniteMap κ α} {erased key : κ} {value : α}
    (found : (AList.erase erased map).lookup key = some value) : map.lookup key = some value := by
  rw [FiniteMap.lookup_erase] at found
  split at found
  next => cases found
  next => exact found

private theorem isSome_of_erase {κ α : Type} [DecidableEq κ] {map : FiniteMap κ α} {erased key : κ}
    (found : ((AList.erase erased map).lookup key).isSome) : (map.lookup key).isSome := by
  obtain ⟨value, found⟩ := Option.isSome_iff_exists.mp found
  exact Option.isSome_iff_exists.mpr ⟨value, lookup_of_erase found⟩

theorem lookup_of_insert {κ α : Type} [DecidableEq κ] {map : FiniteMap κ α} {inserted key : κ} {value new : α}
    (found : (AList.insert inserted new map).lookup key = some value) : value = new ∨ map.lookup key = some value := by
  rw [FiniteMap.lookup_insert] at found
  split at found
  next => exact .inl (Option.some.inj found).symm
  next => exact .inr found

theorem forgetCluster_shrinks (cID : String) (server : Server) :
    (clusterKind.part.read server).Shrinks
      (clusterKind.part.read { server with clusters := server.clusters.forget cID }) := by
  have main : ∀ entry, (∃ id, (server.clusters.forget cID).clusterCache.lookup id = some entry) →
      ∃ id, server.clusters.clusterCache.lookup id = some entry := by
    rintro entry ⟨id, found⟩
    unfold ClusterCaches.forget at found
    split at found <;> exact ⟨id, lookup_of_erase found⟩
  have byName : ∀ entry, (∃ name, (server.clusters.forget cID).clusterByNameCache.lookup name = some entry) →
      ∃ name, server.clusters.clusterByNameCache.lookup name = some entry := by
    rintro entry ⟨name, found⟩
    unfold ClusterCaches.forget at found
    split at found
    · exact ⟨name, found⟩
    · exact ⟨name, lookup_of_erase found⟩
  refine ⟨subset_rfl, fun entry held => held.imp (main entry) (byName entry), main, ?_⟩
  simp only [clusterKind, ClusterCaches.forget]
  split <;> rfl

theorem deleteCluster_shrinks (cID : String) (server : Server) :
    (clusterKind.part.read server).Shrinks
      (clusterKind.part.read { server with database := { server.database with
        clusters := AList.erase cID server.database.clusters } }) where
  stored := fun _ found => isSome_of_erase found
  cached := fun _ => id
  listed := fun _ => id
  expirationTime := rfl

theorem forgetInstance_shrinks (id : String) (server : Server) :
    (instanceKind.part.read server).Shrinks
      (instanceKind.part.read { server with instances := server.instances.forget id }) := by
  have main : ∀ entry, (∃ key, (server.instances.forget id).instanceCache.lookup key = some entry) →
      ∃ key, server.instances.instanceCache.lookup key = some entry := by
    rintro entry ⟨key, found⟩
    unfold InstanceCaches.forget at found
    split at found
    · exact ⟨key, found⟩
    · exact ⟨key, lookup_of_erase found⟩
  have index : ∀ entry, (∃ kind key name, ((server.instances.forget id).index kind).entryOf key name = some entry) →
      ∃ kind key name, (server.instances.index kind).entryOf key name = some entry := by
    rintro entry ⟨kind, key, name, found⟩
    refine ⟨kind, key, name, ?_⟩
    unfold InstanceCaches.forget at found
    split at found
    · cases kind <;> exact found
    · cases kind
      all_goals
        simp only [InstanceCaches.index, ConcurrentMultimap.entryOf_eraseValue] at found
        split at found
        · cases found
        · exact found
  refine ⟨subset_rfl, fun entry held => held.imp (main entry) (index entry), main, ?_⟩
  simp only [instanceKind, InstanceCaches.forget]
  split <;> rfl

theorem deleteInstance_shrinks (id : String) (server : Server) :
    (instanceKind.part.read server).Shrinks
      (instanceKind.part.read { server with database := { server.database with
        instances := AList.erase id server.database.instances } }) where
  stored := fun _ found => isSome_of_erase found
  cached := fun _ held => held
  listed := fun _ held => held
  expirationTime := rfl

/-- A listing of a category renews no complete listing. -/
theorem stamp_part (server : Server) (kind : ListingKind) (group cluster : String) (time : Time) :
    instanceKind.part.read { server with instances := server.instances.stamp kind group cluster time } =
      instanceKind.part.read server := by
  have index : ∀ other key name, ((server.instances.stamp kind group cluster time).index other).entryOf key name =
      (server.instances.index other).entryOf key name := by
    intro other key name
    cases kind <;> cases other <;> first | rfl | exact ConcurrentMultimap.entryOf_updateExpiration _ _ _ _ _
  simp only [instanceKind, index]
  cases kind <;> rfl

/-- What a lookup takes from a cache is cached and still valid. -/
theorem yields_cached_held {α : Type} (kind : RecordKind α) {cache : CuckooHashMap String (CacheRecord α)} {key : String}
    {server : Server} (inside : ∀ entry, cache.lookup key = some entry → (kind.part.read server).cached entry) :
    Yields (cached cache key) server fun found after => Aside kind.part server after ∧
      ∀ record, found = some record → ∃ entry, (kind.part.read server).cached entry ∧ entry.record = record ∧
        server.clock 0 ≤ entry.expirationTime := by
  refine Returns.yields (returns_cached (fun entry found fresh => ?_) fun passed same => ?_)
  · refine ⟨.tick kind.part server, fun cluster same => ?_⟩
    cases same
    exact ⟨entry, inside entry found, rfl, fresh⟩
  · refine ⟨?_, fun _ same => nomatch same⟩
    rcases same with rfl | rfl
    · exact .refl kind.part _
    · exact .tick kind.part _

theorem yields_clusterCached_held (key : ClusterKey) (server : Server) :
    Yields (clusterCached key) server fun found after => Aside clusterKind.part server after ∧
      ∀ cluster, found = some cluster → ∃ entry, (clusterKind.part.read server).cached entry ∧
        entry.record = cluster ∧ server.clock 0 ≤ entry.expirationTime := by
  cases key with
  | id cID => exact yields_cached_held clusterKind fun entry found => .inl ⟨cID, found⟩
  | name name => exact yields_cached_held clusterKind fun entry found => .inr ⟨name, found⟩

theorem yields_clusterOfItem_id (id : String) (item : ClusterItem) (server : Server) :
    Yields (clusterOfItem id item) server fun cluster after => cluster.id = id ∧ after = server := by
  unfold clusterOfItem findOrThrow
  cases item.name <;> simp only [yields_bind, yields_pure, yields_throw]
  cases item.owningGroup <;> simp only [yields_pure, yields_throw]
  cases item.config <;> simp only [yields_pure, yields_throw]
  cases item.systemNamespace <;> simp only [yields_pure, yields_throw, and_self]

/-- What a query finds is stored. -/
theorem yields_clusterQuery_stored (key : ClusterKey) (server : Server) :
    Yields (clusterQuery key) server fun found after => Aside clusterKind.part server after ∧
      ∀ cluster, found = some cluster → (server.database.clusters.lookup cluster.id).isSome := by
  have read : ∀ id item, server.database.clusters.lookup id = some item →
      Yields (clusterOfItem id item) server.answered fun cluster after => Aside clusterKind.part server after ∧
        ∀ other, some cluster = some other → (server.database.clusters.lookup other.id).isSome := by
    intro id item present
    refine (yields_clusterOfItem_id id item server.answered).mono fun cluster after same => ?_
    obtain ⟨same, rfl⟩ := same
    refine ⟨.answered clusterKind.part server, fun other equal => ?_⟩
    cases equal
    rw [same, present]
    rfl
  have nothing : Aside clusterKind.part server server.answered ∧ ∀ cluster, (none : Option Cluster) = some cluster →
      (server.database.clusters.lookup cluster.id).isSome :=
    ⟨.answered clusterKind.part server, fun _ same => nomatch same⟩
  unfold clusterQuery
  simp only [yields_bind, yields_request, yields_ite, yields_pure]
  split
  next =>
    cases key with
    | id cID =>
      simp only [yields_bind, yields_get]
      split
      next => exact nothing
      next item found =>
        simp only [yields_bind, yields_pure]
        exact read cID item found
    | name name =>
      simp only [yields_bind, yields_get]
      split
      next => exact nothing
      next id item rows =>
        simp only [yields_bind, yields_pure]
        have member : (id, item) ∈ server.database.clusters.select fun _ item => item.name == some name := by
          change server.answered.database.clusters.select _ = _ at rows
          rw [answered_database] at rows
          rw [rows]
          exact List.mem_singleton_self _
        exact read id item (FiniteMap.mem_select.mp member).1
      next => trivial
  next => exact nothing

theorem yields_cacheCluster_gains (cluster : Cluster) (server : Server) :
    Yields (cacheCluster cluster) server fun _ after => Ages server after ∧
      Shelf.Gains ⟨cluster, server.clock 0 + clusterCacheValidity⟩ (clusterKind.part.read server)
        (clusterKind.part.read after) := by
  unfold cacheCluster writeClusterConfigToDisk
  simp only [yields_bind, yields_lasting, yields_now, yields_modify]
  have listed : ∀ entry, (∃ id, (server.clusters.clusterCache.insert cluster.id
      ⟨cluster, server.clock 0 + clusterCacheValidity⟩).lookup id = some entry) →
      entry = ⟨cluster, server.clock 0 + clusterCacheValidity⟩ ∨
        ∃ id, server.clusters.clusterCache.lookup id = some entry := by
    rintro entry ⟨id, found⟩
    exact (lookup_of_insert found).imp_right fun old => ⟨id, old⟩
  refine ⟨(Ages.of_later ((Later.tick server).trans (.tick server.tick))).trans (.of_clock rfl), rfl, ?_, listed, rfl⟩
  rintro entry (held | ⟨name, found⟩)
  · exact (listed entry held).imp_right .inl
  · exact (lookup_of_insert found).imp_right fun old => .inr ⟨name, old⟩

theorem yields_cacheInstance_gains (inst : ApplicationInstance) (server : Server) :
    Yields (cacheInstance inst) server fun _ after => Ages server after ∧
      Shelf.Gains ⟨inst, server.clock 0 + instanceCacheValidity⟩ (instanceKind.part.read server)
        (instanceKind.part.read after) := by
  unfold cacheInstance modifyInstances
  simp only [yields_bind, yields_lasting, yields_now, yields_modify]
  have listed : ∀ entry, (∃ id, (server.instances.instanceCache.insert inst.id
      ⟨inst, server.clock 0 + instanceCacheValidity⟩).lookup id = some entry) →
      entry = ⟨inst, server.clock 0 + instanceCacheValidity⟩ ∨
        ∃ id, server.instances.instanceCache.lookup id = some entry := by
    rintro entry ⟨id, found⟩
    exact (lookup_of_insert found).imp_right fun old => ⟨id, old⟩
  have passed : Later server server.tick.tick.tick.tick.tick :=
    ((((Later.tick server).trans (.tick _)).trans (.tick _)).trans (.tick _)).trans (.tick _)
  refine ⟨(Ages.of_later passed).trans (.of_clock rfl), rfl, ?_, listed, rfl⟩
  rintro entry (held | ⟨kind, key, id, found⟩)
  · exact (listed entry held).imp_right .inl
  · have known : ∀ {map : ConcurrentMultimap String ApplicationInstance} {category : String} {reading : Time},
        (map.insertOrAssign category ⟨inst, server.clock 0 + instanceCacheValidity⟩ reading).2.entryOf key id = some entry →
        entry = ⟨inst, server.clock 0 + instanceCacheValidity⟩ ∨ map.entryOf key id = some entry := by
      intro map category reading present
      rw [ConcurrentMultimap.entryOf_insertOrAssign] at present
      split at present
      next => exact .inl (Option.some.inj present).symm
      next => exact .inr present
    cases kind with
    | groupAndCluster => exact (known found).imp_right fun old => .inr ⟨.groupAndCluster, key, id, old⟩
    | group => exact (known found).imp_right fun old => .inr ⟨.group, key, id, old⟩
    | cluster => exact (known found).imp_right fun old => .inr ⟨.cluster, key, id, old⟩

end Slate
