import Slate.Volumes
import Slate.Proofs.Listings

/-! Listings of volume claims, over every sequence of operations and every passage
of time. The listings by group or cluster leave one of the caches alone that they
stamp. -/

namespace Slate
open Library

/-- The claim is what the row says, apart from its selector, which is not stored. -/
def VolumeRead (row : VolumeItem) (pvc : PersistentVolumeClaim) : Prop :=
  volumeOfItem pvc.id row = .ok { pvc with selectorMatchLabel := "", selectorLabelExpressions := [] }

def VolumeItem.Readable (row : VolumeItem) : Prop := ∃ pvc, volumeOfItem "" row = .ok pvc

theorem volumeOfItem_ok {id : String} {row : VolumeItem} {pvc : PersistentVolumeClaim}
    (read : volumeOfItem id row = .ok pvc) :
    accessModeFromString row.accessMode = .ok pvc.accessMode ∧ volumeModeFromString row.volumeMode = .ok pvc.volumeMode ∧
      pvc = { valid := true, id, name := row.name, group := row.owningGroup, cluster := row.cluster
              storageRequest := row.storageRequest, accessMode := pvc.accessMode, volumeMode := pvc.volumeMode
              storageClass := row.storageClass, ctime := row.ctime } := by
  unfold volumeOfItem at read
  cases accessMode : accessModeFromString row.accessMode with
  | error thrown => simp [accessMode, bind, Except.bind] at read
  | ok mode =>
    cases volumeMode : volumeModeFromString row.volumeMode with
    | error thrown => simp [accessMode, volumeMode, bind, Except.bind] at read
    | ok mode' =>
      simp only [accessMode, volumeMode, bind, Except.bind, pure, Except.pure, Except.ok.injEq] at read
      subst read
      exact ⟨rfl, rfl, rfl⟩

private theorem volumeRead_itemOfVolume {pvc : PersistentVolumeClaim} (valid : pvc.valid = true) :
    VolumeRead (itemOfVolume pvc) pvc := by
  unfold VolumeRead volumeOfItem itemOfVolume
  simp only [accessMode_roundtrip, volumeMode_roundtrip]
  rw [← valid]
  rfl

theorem VolumeRead.keys {row : VolumeItem} {pvc : PersistentVolumeClaim} (read : VolumeRead row pvc) :
    pvc.group = row.owningGroup ∧ pvc.cluster = row.cluster := by
  obtain ⟨-, -, whole⟩ := volumeOfItem_ok read
  exact ⟨congrArg PersistentVolumeClaim.group whole, congrArg PersistentVolumeClaim.cluster whole⟩

theorem VolumeRead.name {row : VolumeItem} {pvc : PersistentVolumeClaim} (read : VolumeRead row pvc) : pvc.name = row.name :=
  congrArg PersistentVolumeClaim.name (volumeOfItem_ok read).2.2

theorem VolumeRead.readable {row : VolumeItem} {pvc : PersistentVolumeClaim} (read : VolumeRead row pvc) :
    row.Readable := by
  obtain ⟨accessMode, volumeMode, -⟩ := volumeOfItem_ok read
  unfold VolumeItem.Readable volumeOfItem
  rw [accessMode, volumeMode]
  exact ⟨_, rfl⟩

/-- What is read from a row that is readable. -/
theorem VolumeItem.Readable.read {row : VolumeItem} (readable : row.Readable) (id : String) :
    ∃ pvc, volumeOfItem id row = .ok pvc ∧ pvc.id = id ∧ VolumeRead row pvc := by
  obtain ⟨pvc, known⟩ := readable
  obtain ⟨accessMode, volumeMode, -⟩ := volumeOfItem_ok known
  unfold VolumeRead volumeOfItem
  rw [accessMode, volumeMode]
  exact ⟨_, rfl, rfl, rfl⟩

def claimOfItem (id : String) (row : VolumeItem) : PersistentVolumeClaim :=
  match volumeOfItem id row with
  | .ok pvc => pvc
  | .error _ => {}

theorem VolumeItem.Readable.claim {row : VolumeItem} (readable : row.Readable) (id : String) :
    volumeOfItem id row = .ok (claimOfItem id row) ∧ (claimOfItem id row).id = id ∧
      VolumeRead row (claimOfItem id row) := by
  obtain ⟨pvc, known, same, read⟩ := readable.read id
  have claim : claimOfItem id row = pvc := by rw [claimOfItem, known]
  rw [claim]
  exact ⟨known, same, read⟩

theorem returns_readVolume {id : String} {row : VolumeItem} (readable : row.Readable) (server : Server)
    {post : PersistentVolumeClaim → Server → Prop} (holds : post (claimOfItem id row) server) :
    Returns (readVolume id row) server post := by
  unfold readVolume
  rw [(readable.claim id).1]
  exact holds

def VolumeCaches.index (caches : VolumeCaches) : ListingKind → ConcurrentMultimap String PersistentVolumeClaim
  | .groupAndCluster => caches.volumeByGroupAndClusterCache
  | .group => caches.volumeByGroupCache
  | .cluster => caches.volumeByClusterCache

theorem VolumeCaches.listing_eq (caches : VolumeCaches) (kind : ListingKind) (group cluster : String) :
    caches.listing kind group cluster = (caches.index kind).find (kindKey kind group cluster) := by
  cases kind <;> rfl

/-- The category of a row in the index for a kind of listing. -/
def VolumeItem.category (kind : ListingKind) (row : VolumeItem) : String := kindKey kind row.owningGroup row.cluster

structure VolumesAgree (server : Server) (table : FiniteMap String VolumeItem) (caches : VolumeCaches) : Prop where
  main : CacheAgrees server table VolumeRead caches.volumeCache caches.expirationTime
  index : ∀ kind, IndexAgrees server table VolumeRead (VolumeItem.category kind) caches.volumeCache (caches.index kind)

namespace VolumesAgree

variable {before after : Server} {table table' : FiniteMap String VolumeItem} {caches : VolumeCaches}

theorem empty (server : Server) (table : FiniteMap String VolumeItem) : VolumesAgree server table {} where
  main := .empty server table VolumeRead
  index := fun kind => by cases kind <;> exact .empty server table VolumeRead _

theorem later (agree : VolumesAgree before table caches) (later : Later before after) :
    VolumesAgree after table caches :=
  ⟨agree.main.later later, fun kind => (agree.index kind).later later⟩

/-- A claim enters all four caches. -/
theorem put (agree : VolumesAgree before table caches) (later : Later before after) (steady : Steady after)
    (record : CacheRecord PersistentVolumeClaim) {row : VolumeItem} (read : VolumeRead row record.record)
    (puts : Puts table table' record.record.id row) {byGroup byCluster byPair : Time}
    (groupPassed : byGroup ≤ after.clock 0) (clusterPassed : byCluster ≤ after.clock 0)
    (pairPassed : byPair ≤ after.clock 0) :
    VolumesAgree after table' ((caches.replaceListed record byGroup byPair).replaceByCluster record byCluster) where
  main := agree.main.put later puts read
  index := fun kind => by
    obtain ⟨group, cluster⟩ := read.keys
    unfold VolumeCaches.replaceByCluster VolumeCaches.replaceListed
    rw [group, cluster]
    cases kind with
    | groupAndCluster => exact (agree.index .groupAndCluster).put later steady puts read pairPassed
    | group => exact (agree.index .group).put later steady puts read groupPassed
    | cluster => exact (agree.index .cluster).put later steady puts read clusterPassed

/-- A claim that is read for a listing leaves the index by cluster as it is. -/
theorem list (agree : VolumesAgree before table caches) (later : Later before after) (steady : Steady after)
    (record : CacheRecord PersistentVolumeClaim) {row : VolumeItem} (read : VolumeRead row record.record)
    (stored : table.lookup record.record.id = some row) {byGroup byPair : Time}
    (groupPassed : byGroup ≤ after.clock 0) (pairPassed : byPair ≤ after.clock 0) :
    VolumesAgree after table (caches.replaceListed record byGroup byPair) where
  main := agree.main.put later (.present_already stored) read
  index := fun kind => by
    obtain ⟨group, cluster⟩ := read.keys
    unfold VolumeCaches.replaceListed
    rw [group, cluster]
    cases kind with
    | groupAndCluster => exact (agree.index .groupAndCluster).put later steady (.present_already stored) read pairPassed
    | group => exact (agree.index .group).put later steady (.present_already stored) read groupPassed
    | cluster => exact ((agree.index .cluster).later later).grow record.record.id record

theorem forget (agree : VolumesAgree before table caches) (later : Later before after) (id : String) :
    VolumesAgree after (AList.erase id table) (caches.forget id) := by
  unfold VolumeCaches.forget
  cases present : caches.volumeCache.lookup id with
  | none => exact ⟨agree.main.eraseUncached later present, fun kind => (agree.index kind).eraseUncached later present⟩
  | some entry =>
    obtain ⟨named, row, stored, read⟩ := agree.main.faithful id entry present
    obtain ⟨pvc, expirationTime⟩ := entry
    obtain rfl : pvc.id = id := named
    obtain ⟨group, cluster⟩ := read.keys
    have keyed : ∀ kind row', table.lookup pvc.id = some row' → row'.category kind = row.category kind := by
      intro kind row' stored'
      rw [stored] at stored'
      rw [Option.some.inj stored']
    refine ⟨agree.main.erase later pvc.id, fun kind => ?_⟩
    dsimp only
    rw [group, cluster]
    cases kind with
    | groupAndCluster => exact (agree.index .groupAndCluster).eraseCategory later (keyed _)
    | group => exact (agree.index .group).eraseValue later (keyed _)
    | cluster => exact (agree.index .cluster).eraseValue later (keyed _)

/-- A category that has all its rows may be stamped. -/
theorem stamp (agree : VolumesAgree before table caches) (later : Later before after) {kind : ListingKind}
    {groupID cID : String} (time : Time)
    (filled : ∀ name row, table.lookup name = some row → row.category kind = kindKey kind groupID cID →
      ((caches.index kind).entryOf (kindKey kind groupID cID) name).isSome = true) :
    VolumesAgree after table (caches.stamp kind groupID cID time) where
  main := by cases kind <;> exact agree.main.later later
  index := fun other => by
    have stamped := (agree.index kind).stamp later time filled
    have kept := (agree.index other).later later
    cases kind <;> cases other <;> first | exact stamped | exact kept

/-- A category by cluster that is not there cannot be stamped. -/
theorem stampAbsent (agree : VolumesAgree before table caches) (later : Later before after) {cID : String}
    (absent : caches.volumeByClusterCache.lookup cID = none) (groupID : String) (time : Time) :
    VolumesAgree after table (caches.stamp .cluster groupID cID time) := by
  have same : caches.stamp .cluster groupID cID time = caches := by
    unfold VolumeCaches.stamp ConcurrentMultimap.updateExpiration
    rw [absent]
  rw [same]
  exact agree.later later

theorem stampAll (agree : VolumesAgree before table caches) (collected : List PersistentVolumeClaim) (time : Time)
    (cached : ∀ name row, table.lookup name = some row → (caches.volumeCache.lookup name).isSome = true)
    (filled : ∀ kind name row, table.lookup name = some row →
      ((caches.index kind).entryOf (row.category kind) name).isSome = true) :
    VolumesAgree after table (caches.stampAll collected time) where
  main := agree.main.stamp cached time
  index := fun kind => by
    have stamped : ∀ categories, IndexAgrees after table VolumeRead (VolumeItem.category kind) caches.volumeCache
        ((caches.index kind).updateExpirations categories time) :=
      fun categories => (agree.index kind).stampAll categories time (filled kind)
    cases kind <;> exact stamped _

end VolumesAgree

/-- A row is in its category in the index for a kind of listing. -/
def VolumeCaches.Knows (caches : VolumeCaches) (kind : ListingKind) (id : String) (row : VolumeItem) : Prop :=
  ((caches.index kind).entryOf (row.category kind) id).isSome = true

def VolumeCaches.Has (caches : VolumeCaches) (id : String) (row : VolumeItem) : Prop :=
  (caches.volumeCache.lookup id).isSome = true ∧ ∀ kind, caches.Knows kind id row

section
variable {caches : VolumeCaches} {id : String} {row : VolumeItem} (record : CacheRecord PersistentVolumeClaim)
  (byGroup byCluster byPair : Time)

private theorem VolumeCaches.knows_list {kind : ListingKind} (knows : caches.Knows kind id row) :
    (caches.replaceListed record byGroup byPair).Knows kind id row := by
  cases kind with
  | groupAndCluster => exact isSome_insertOrAssign _ record _ knows
  | group => exact isSome_insertOrAssign _ record _ knows
  | cluster => exact knows

private theorem VolumeCaches.knows_byCluster {kind : ListingKind} (knows : caches.Knows kind id row) :
    (caches.replaceByCluster record byCluster).Knows kind id row := by
  cases kind with
  | groupAndCluster => exact knows
  | group => exact knows
  | cluster => exact isSome_insertOrAssign _ record _ knows

private theorem VolumeCaches.knows_listed {kind : ListingKind} (read : VolumeRead row record.record) (other : kind ≠ .cluster) :
    (caches.replaceListed record byGroup byPair).Knows kind record.record.id row := by
  obtain ⟨group, cluster⟩ := read.keys
  unfold VolumeCaches.Knows VolumeCaches.replaceListed VolumeItem.category
  rw [← group, ← cluster]
  cases kind with
  | groupAndCluster => exact isSome_insertOrAssign_self _ record _
  | group => exact isSome_insertOrAssign_self _ record _
  | cluster => exact absurd rfl other

theorem VolumeCaches.knows_replaced (kind : ListingKind) (read : VolumeRead row record.record) :
    ((caches.replaceListed record byGroup byPair).replaceByCluster record byCluster).Knows kind record.record.id row := by
  by_cases byCluster_ : kind = .cluster
  · subst byCluster_
    obtain ⟨-, cluster⟩ := read.keys
    unfold VolumeCaches.Knows VolumeItem.category kindKey
    rw [← cluster]
    exact isSome_insertOrAssign_self _ record _
  · exact VolumeCaches.knows_byCluster record byCluster (VolumeCaches.knows_listed record byGroup byPair read byCluster_)

end

structure VolumesConsistent (server : Server) : Prop where
  succeeding : Succeeding server
  steady : Steady server
  groups : GroupsAgree server.database.groups server.groups
  clusters : ClustersAgree server.database.clusters server.clusters
  readable : ∀ id row, server.database.volumes.lookup id = some row → row.Readable
  agree : VolumesAgree server server.database.volumes server.volumes

theorem VolumesConsistent.looked {before after : Server} (consistent : VolumesConsistent before)
    (looked : Looked before after) : VolumesConsistent after where
  succeeding := looked.succeeding consistent.succeeding
  steady := looked.steady consistent.steady
  groups := looked.database ▸ looked.groups consistent.groups
  clusters := looked.database ▸ looked.clusters consistent.clusters
  readable := looked.database ▸ consistent.readable
  agree := by
    rw [looked.database, looked.volumes]
    exact consistent.agree.later looked.toLater

/-- A change of the table and the caches of volume claims alone. -/
theorem VolumesConsistent.changed {before after : Server} (consistent : VolumesConsistent before)
    (later : Later before after) (groupTable : after.database.groups = before.database.groups)
    (clusterTable : after.database.clusters = before.database.clusters) (groups : after.groups = before.groups)
    (clusters : after.clusters = before.clusters)
    (readable : ∀ id row, after.database.volumes.lookup id = some row → row.Readable)
    (agree : VolumesAgree after after.database.volumes after.volumes) : VolumesConsistent after where
  succeeding := later.succeeding consistent.succeeding
  steady := later.steady consistent.steady
  groups := by
    rw [groupTable, groups]
    exact consistent.groups
  clusters := by
    rw [clusterTable, clusters]
    exact consistent.clusters
  readable := readable
  agree := agree

/-- A claim is cached after its row has entered the table, or has been read from it. -/
theorem returns_cacheVolume {before server : Server} (consistent : VolumesConsistent before)
    (later : Later before server) (groupTable : server.database.groups = before.database.groups)
    (clusterTable : server.database.clusters = before.database.clusters) (groups : server.groups = before.groups)
    (clusters : server.clusters = before.clusters) (volumes : server.volumes = before.volumes)
    {pvc : PersistentVolumeClaim} {row : VolumeItem} (read : VolumeRead row pvc)
    (readable : ∀ id row, server.database.volumes.lookup id = some row → row.Readable)
    (puts : Puts before.database.volumes server.database.volumes pvc.id row) :
    Returns (cacheVolume pvc) server fun _ after => VolumesConsistent after ∧ after.database = server.database ∧
      after.volumes.Has pvc.id row ∧ ∀ id row, server.volumes.Has id row → after.volumes.Has id row := by
  unfold cacheVolume modifyVolumes
  simp only [returns_bind, returns_lasting, returns_now, returns_modify]
  obtain ⟨passed, same⟩ : ∃ passed, passed = server.tick.tick.tick.tick := ⟨_, rfl⟩
  have passing : Later server passed := same ▸ (((Later.tick server).trans (.tick _)).trans (.tick _)).trans (.tick _)
  have database : passed.database = server.database := by simp only [same, tick_database]
  have sameGroups : passed.groups = server.groups := by simp only [same, tick_groups]
  have sameClusters : passed.clusters = server.clusters := by simp only [same, tick_clusters]
  have sameVolumes : passed.volumes = server.volumes := by simp only [same, tick_volumes]
  have order : ∀ n ≤ 4, server.clock n ≤ passed.clock 0 := by
    simp only [same, tick_clock]
    exact fun n order => later.steady consistent.steady order
  rw [← same]
  have put := consistent.agree.put (later.trans passing) ((later.trans passing).steady consistent.steady)
    ⟨pvc, server.clock 0 + volumeCacheValidity⟩ read puts (order 1 (by omega)) (order 2 (by omega))
    (order 3 (by omega))
  rw [← volumes, ← sameVolumes, ← database] at put
  rw [← database] at readable
  refine ⟨consistent.changed ((later.trans passing).trans (.of_eq rfl rfl)) ?_ ?_ ?_ ?_ readable
    (put.later (.of_eq rfl rfl)), database, ⟨?_, fun kind => VolumeCaches.knows_replaced _ _ _ _ kind read⟩, ?_⟩
  · exact (congrArg Database.groups database).trans groupTable
  · exact (congrArg Database.clusters database).trans clusterTable
  · exact sameGroups.trans groups
  · exact sameClusters.trans clusters
  · exact isSome_insert_self _ _ _
  · rintro id row ⟨cached, knows⟩
    rw [← sameVolumes] at cached knows
    exact ⟨isSome_insert _ _ _ _ cached, fun kind =>
      VolumeCaches.knows_byCluster _ _ (VolumeCaches.knows_list _ _ _ (knows kind))⟩

/-- A claim that is read for a listing is cached, but not by cluster. -/
theorem returns_cacheListedVolume {server : Server} (consistent : VolumesConsistent server)
    {pvc : PersistentVolumeClaim} {row : VolumeItem} (read : VolumeRead row pvc)
    (stored : server.database.volumes.lookup pvc.id = some row) :
    Returns (cacheListedVolume pvc) server fun _ after => VolumesConsistent after ∧ after.database = server.database ∧
      after.volumes.volumeByClusterCache = server.volumes.volumeByClusterCache ∧
      (∀ kind, kind ≠ .cluster → after.volumes.Knows kind pvc.id row) ∧
      ∀ kind id row, server.volumes.Knows kind id row → after.volumes.Knows kind id row := by
  unfold cacheListedVolume modifyVolumes
  simp only [returns_bind, returns_lasting, returns_now, returns_modify]
  obtain ⟨passed, same⟩ : ∃ passed, passed = server.tick.tick.tick := ⟨_, rfl⟩
  have passing : Looked server passed := same ▸ ((Looked.tick server).trans (.tick _)).trans (.tick _)
  have order : ∀ n ≤ 3, server.clock n ≤ passed.clock 0 := by
    simp only [same, tick_clock]
    exact fun n order => consistent.steady order
  rw [← same]
  have list := consistent.agree.list passing.toLater (passing.steady consistent.steady)
    ⟨pvc, server.clock 0 + volumeCacheValidity⟩ read stored (order 1 (by omega)) (order 2 (by omega))
  rw [← passing.database, ← passing.volumes] at list
  have alone : passed.volumes.volumeByClusterCache = server.volumes.volumeByClusterCache := by rw [passing.volumes]
  refine ⟨(consistent.looked passing).changed (.of_eq rfl rfl) rfl rfl rfl rfl (consistent.looked passing).readable
    (list.later (.of_eq rfl rfl)), passing.database, alone, fun kind other => VolumeCaches.knows_listed _ _ _ read other,
    fun kind id row knows => ?_⟩
  rw [← passing.volumes] at knows
  exact VolumeCaches.knows_list _ _ _ knows

/-- Reading every row answers with all of them, and caches everything about them. -/
theorem returns_collectVolumes {server : Server} (consistent : VolumesConsistent server)
    {rows : List (String × VolumeItem)}
    (stored : ∀ entry ∈ rows, server.database.volumes.lookup entry.1 = some entry.2) :
    Returns (rows.mapM fun (id, item) => do
      let pvc ← readVolume id item
      cacheVolume pvc
      return pvc) server fun collected after => VolumesConsistent after ∧ after.database = server.database ∧
        collected = rows.map (fun entry => claimOfItem entry.1 entry.2) ∧
        ∀ entry ∈ rows, after.volumes.Has entry.1 entry.2 := by
  apply returns_mapM rows _ server fun visited collected current => VolumesConsistent current ∧
    current.database = server.database ∧ collected = visited.map (fun entry => claimOfItem entry.1 entry.2) ∧
    ∀ entry ∈ visited, current.volumes.Has entry.1 entry.2
  · exact ⟨consistent, rfl, rfl, by simp⟩
  · rintro visited ⟨id, row⟩ rest collected current split ⟨kept, same, read, known⟩
    have present : current.database.volumes.lookup id = some row := by
      rw [same]
      exact stored (id, row) (by simp [split])
    obtain ⟨-, named, isRead⟩ := (kept.readable id row present).claim id
    simp only [returns_bind, returns_pure]
    refine returns_readVolume (kept.readable id row present) current ?_
    refine (returns_cacheVolume kept (.refl current) rfl rfl rfl rfl rfl isRead kept.readable
      (.present_already (named.symm ▸ present))).mono ?_
    rintro _ after ⟨kept', same', has, others⟩
    refine ⟨kept', same'.trans same, by rw [read, List.map_append]; rfl, ?_⟩
    intro entry member
    obtain visited | last := List.mem_append.mp member
    · exact others _ _ (known entry visited)
    · rw [List.mem_singleton.mp last]
      exact named ▸ has

private theorem returns_collectListedVolumes {server : Server} (consistent : VolumesConsistent server)
    {rows : List (String × VolumeItem)}
    (stored : ∀ entry ∈ rows, server.database.volumes.lookup entry.1 = some entry.2) :
    Returns (rows.mapM fun (id, item) => do
      let pvc ← readVolume id item
      cacheListedVolume pvc
      return pvc) server fun collected after => VolumesConsistent after ∧ after.database = server.database ∧
        collected = rows.map (fun entry => claimOfItem entry.1 entry.2) ∧
        after.volumes.volumeByClusterCache = server.volumes.volumeByClusterCache ∧
        ∀ entry ∈ rows, ∀ kind, kind ≠ .cluster → after.volumes.Knows kind entry.1 entry.2 := by
  apply returns_mapM rows _ server fun visited collected current => VolumesConsistent current ∧
    current.database = server.database ∧ collected = visited.map (fun entry => claimOfItem entry.1 entry.2) ∧
    current.volumes.volumeByClusterCache = server.volumes.volumeByClusterCache ∧
    ∀ entry ∈ visited, ∀ kind, kind ≠ .cluster → current.volumes.Knows kind entry.1 entry.2
  · exact ⟨consistent, rfl, rfl, rfl, by simp⟩
  · rintro visited ⟨id, row⟩ rest collected current split ⟨kept, same, read, alone, known⟩
    have present : current.database.volumes.lookup id = some row := by
      rw [same]
      exact stored (id, row) (by simp [split])
    obtain ⟨-, named, isRead⟩ := (kept.readable id row present).claim id
    simp only [returns_bind, returns_pure]
    refine returns_readVolume (kept.readable id row present) current ?_
    refine (returns_cacheListedVolume kept isRead (named.symm ▸ present)).mono ?_
    rintro _ after ⟨kept', same', alone', knows, others⟩
    refine ⟨kept', same'.trans same, by rw [read, List.map_append]; rfl, alone'.trans alone, ?_⟩
    intro entry member kind other
    obtain visited | last := List.mem_append.mp member
    · exact others _ _ _ (known entry visited kind other)
    · rw [List.mem_singleton.mp last]
      exact named ▸ knows kind other

private theorem returns_addPersistentVolumeClaim {server : Server} (consistent : VolumesConsistent server)
    {pvc : PersistentVolumeClaim} (valid : pvc.valid = true) (fresh : server.database.volumes.lookup pvc.id = none) :
    Returns (addPersistentVolumeClaim pvc) server fun added after => added = true ∧ VolumesConsistent after := by
  have read := volumeRead_itemOfVolume valid
  unfold addPersistentVolumeClaim
  simp only [returns_bind, returns_request, returns_ite, consistent.succeeding 0, if_true, returns_pure, returns_modify]
  refine Returns.mono (returns_cacheVolume consistent ?later ?_ ?_ ?_ ?_ ?_ read ?readable ?puts) ?_
  case later => exact (Later.answered server).trans (.of_eq rfl rfl)
  case puts => exact .insert fresh
  case readable =>
    intro id row found
    rw [FiniteMap.lookup_insert] at found
    split at found
    next =>
      cases found
      exact read.readable
    next => exact consistent.readable id row found
  all_goals try rfl
  exact fun _ after kept => ⟨trivial, kept.1⟩

private theorem returns_removePersistentVolumeClaim {server : Server} (consistent : VolumesConsistent server) (id : String) :
    Returns (removePersistentVolumeClaim id) server fun removed after =>
      removed = true ∧ VolumesConsistent after := by
  unfold removePersistentVolumeClaim modifyVolumes
  simp only [returns_bind, returns_request, returns_ite, returns_pure, returns_modify]
  split
  next =>
    have later := Later.answered server
    refine ⟨trivial, consistent.changed (later.trans (.of_eq rfl rfl)) rfl rfl rfl rfl ?_
      ((consistent.agree.forget later id).later (.of_eq rfl rfl))⟩
    intro other row found
    rw [FiniteMap.lookup_erase] at found
    split at found
    next => cases found
    next => exact consistent.readable other row found
  next failed => exact absurd (consistent.succeeding 0) failed

private theorem returns_getPersistentVolumeClaim {server : Server} (consistent : VolumesConsistent server) (id : String) :
    Returns (getPersistentVolumeClaim id) server fun _ after => VolumesConsistent after := by
  unfold getPersistentVolumeClaim
  simp only [returns_bind, returns_get]
  apply returns_cached
  · intro entry _ _
    exact consistent.looked (.tick server)
  · intro passed missed
    have kept := consistent.looked (.missed missed)
    have asked := kept.looked (.answered passed)
    simp only [returns_bind, returns_request, returns_ite, kept.succeeding 0, if_true, returns_get]
    split
    next => exact asked
    next item found =>
      have readable := asked.readable id item found
      obtain ⟨-, named, isRead⟩ := readable.claim id
      simp only [returns_bind, returns_pure]
      refine returns_readVolume readable _ ?_
      exact (returns_cacheVolume asked (.refl _) rfl rfl rfl rfl rfl isRead asked.readable
        (.present_already (named.symm ▸ found))).mono fun _ _ => And.left

/-- Every claim is listed. -/
theorem returns_listPersistentVolumeClaims {server : Server} (consistent : VolumesConsistent server) :
    Returns listPersistentVolumeClaims server fun answer after => VolumesConsistent after ∧
      Lists server.database.volumes VolumeRead (fun _ => True) answer := by
  unfold listPersistentVolumeClaims
  simp only [returns_bind, returns_now, returns_get, returns_ite, returns_pure]
  split
  next trusted => exact ⟨consistent.looked (.tick server), consistent.agree.main.lists ⟨0, trusted⟩⟩
  next =>
    have asked := consistent.looked ((Looked.tick server).trans (.answered _))
    rw [returns_request]
    split
    next =>
      refine (returns_collectVolumes asked fun entry => FiniteMap.mem_pairs.mp).mono ?_
      rintro claims after ⟨kept, same, rfl, has⟩
      have passed := kept.agree.later (Later.tick after)
      have stored : ∀ id row, after.database.volumes.lookup id = some row → after.volumes.Has id row := by
        intro id row found
        rw [same] at found
        exact has (id, row) (FiniteMap.mem_pairs.mpr found)
      refine ⟨kept.changed ((Later.tick after).trans (.of_eq rfl rfl)) rfl rfl rfl rfl kept.readable ?_, ?_⟩
      · exact passed.stampAll _ _ (fun id row found => (stored id row found).1)
          fun kind id row found => (stored id row found).2 kind
      · exact lists_pairs fun id row found => ((consistent.readable id row found).claim id).2
    next failed => exact absurd (consistent.succeeding 0) failed

/-- A row that a listing selects without being asked for it. -/
def VolumeMismatch (database : Database) (groupID cID : String) : Prop :=
  ∃ id row, database.volumes.lookup id = some row ∧ listingSelects groupID cID row.owningGroup row.cluster = true ∧
    ¬ Matches groupID cID row.owningGroup row.cluster

/-- What the answer of the listing depends on: that no record of the category it
answers from expires before its turn to be checked, or that the query it sends
selects only what is wanted. -/
def VolumesReady (server : Server) (kind : ListingKind) (groupID cID : String) : Prop :=
  if server.clock 0 < (server.volumes.listing kind groupID cID).expiration
  then AllFresh (fun n => server.clock (n + 1)) (server.volumes.listing kind groupID cID).members
  else ¬ VolumeMismatch server.database groupID cID

/-- The category by cluster is not there, or has all the claims on the cluster. -/
def ClusterCategoryWhole (server : Server) (cID : String) : Prop :=
  server.volumes.volumeByClusterCache.lookup cID = none ∨
    ∀ id row, server.database.volumes.lookup id = some row → row.cluster = cID →
      (server.volumes.volumeByClusterCache.entryOf cID id).isSome = true

private theorem returns_listVolumesNormalized {server : Server} (consistent : VolumesConsistent server)
    {kind : ListingKind} {groupID cID : String} (kinds : listingKind groupID cID = some kind)
    (unambiguous : kind = .groupAndCluster →
      PairUnambiguous server.database.volumes VolumeItem.owningGroup VolumeItem.cluster groupID cID) :
    Returns (listVolumesNormalized kind groupID cID) server fun answer after =>
      ((kind = .cluster → ClusterCategoryWhole server cID) → VolumesConsistent after) ∧
      (Lists server.database.volumes VolumeRead (fun row => Matches groupID cID row.owningGroup row.cluster) answer ↔
        VolumesReady server kind groupID cID) := by
  have keyed : ∀ name row, server.database.volumes.lookup name = some row →
      (Matches groupID cID row.owningGroup row.cluster ↔ row.category kind = kindKey kind groupID cID) :=
    fun name row stored => matches_iff_key kinds fun pair => unambiguous pair name row stored
  unfold listVolumesNormalized
  simp only [returns_bind, returns_get]
  apply returns_cachedMembers
  · intro trusted after looked
    refine ⟨fun _ => consistent.looked looked, ?_⟩
    rw [VolumesReady, if_pos trusted]
    have lists : Lists server.database.volumes VolumeRead (fun row => Matches groupID cID row.owningGroup row.cluster)
        ((server.volumes.listing kind groupID cID).members.map CacheRecord.record) := by
      rw [VolumeCaches.listing_eq] at trusted ⊢
      exact ((consistent.agree.index kind).lists ⟨0, trusted⟩).congr fun name row stored => (keyed name row stored).symm
    exact lists_freshRecords_iff lists
  · intro stale passed looked
    rw [VolumesReady, if_neg stale]
    have asked := (consistent.looked looked).looked (.answered passed)
    have table : passed.database = server.database := looked.database
    have given := given_of_kind kinds
    simp only [returns_bind, returns_request, (consistent.looked looked).succeeding 0, returns_ite, if_true,
      returns_get, returns_pure, answered_database, table]
    have right : Lists server.database.volumes VolumeRead (fun row => Matches groupID cID row.owningGroup row.cluster)
        ((server.database.volumesSelected groupID cID).map fun entry => claimOfItem entry.1 entry.2) ↔
          ¬ VolumeMismatch server.database groupID cID := by
      refine (lists_selected_iff (lists_select fun id row found => ((consistent.readable id row found).claim id).2)
        fun row => Matches.selected given).trans ?_
      unfold VolumeMismatch
      push Not
      rfl
    split
    next none =>
      rw [none] at right
      exact ⟨fun _ => asked, right⟩
    next =>
      have selected : ∀ entry ∈ server.database.volumesSelected groupID cID,
          server.database.volumes.lookup entry.1 = some entry.2 := fun entry chosen => (FiniteMap.mem_select.mp chosen).1
      refine (returns_collectListedVolumes asked fun entry chosen => ?_).mono ?_
      · rw [answered_database, table]
        exact selected entry chosen
      rintro claims after ⟨kept, same, rfl, alone, known⟩
      refine ⟨fun whole => ?_, right⟩
      refine kept.changed ((Later.tick after).trans (.of_eq rfl rfl)) rfl rfl rfl rfl kept.readable ?_
      change VolumesAgree _ after.database.volumes (after.volumes.stamp kind groupID cID _)
      have stored : after.database.volumes = server.database.volumes := by rw [same, answered_database, table]
      have untouched : after.volumes.volumeByClusterCache = server.volumes.volumeByClusterCache := by
        rw [alone, answered_volumes, looked.volumes]
      by_cases other : kind = .cluster
      · subst other
        obtain absent | filled := whole rfl
        · rw [← untouched] at absent
          exact (kept.agree.stampAbsent (.tick after) absent groupID _).later (.of_eq rfl rfl)
        · refine (kept.agree.stamp (.tick after) _ fun id row found inCategory => ?_).later (.of_eq rfl rfl)
          rw [stored] at found
          have filled := filled id row found inCategory
          rw [← untouched] at filled
          exact filled
      · refine (kept.agree.stamp (.tick after) _ fun id row found inCategory => ?_).later (.of_eq rfl rfl)
        rw [stored] at found
        have wanted := Matches.selected given ((keyed id row found).mpr inCategory)
        rw [← inCategory]
        exact known (id, row) (FiniteMap.mem_select.mpr ⟨found, wanted⟩) kind other

def VolumesAskable (database : Database) (group cluster : String) : Prop :=
  Askable database database.volumes VolumeItem.owningGroup VolumeItem.cluster group cluster

def ListsVolumes (database : Database) (group cluster : String) (answer : List PersistentVolumeClaim) : Prop :=
  Lists database.volumes VolumeRead (fun row => Wanted database group cluster row.owningGroup row.cluster) answer

/-- A listing by cluster alone needs a category that is not there or is whole. -/
def VolumesSafe (server : Server) (groupID cID : String) : Prop := groupID = "" → ClusterCategoryWhole server cID

private theorem returns_listPersistentVolumeClaimsByClusterOrGroup {server : Server} (consistent : VolumesConsistent server)
    {group cluster : String} (askable : VolumesAskable server.database group cluster) :
    (Returns (normalizeArguments group cluster) server (fun normalized passed =>
        ∀ groupID cID, normalized = some (groupID, cID) → VolumesSafe passed groupID cID) →
      Returns (listPersistentVolumeClaimsByClusterOrGroup group cluster) server fun _ after =>
        VolumesConsistent after) ∧
      (Returns (listPersistentVolumeClaimsByClusterOrGroup group cluster) server
          (fun answer _ => ListsVolumes server.database group cluster answer) ↔
        Returns (normalizeArguments group cluster) server fun normalized passed =>
          ∀ groupID cID, normalized = some (groupID, cID) →
            ∀ kind, listingKind groupID cID = some kind → VolumesReady passed kind groupID cID) := by
  refine returns_listing consistent.succeeding consistent.groups consistent.clusters askable.resolvable VolumesSafe
    (fun _ => consistent.looked) ?_ ?_
  · exact fun none => .nothing fun _ row _ => none row.owningGroup row.cluster
  · intro groupID cID passed looked designated
    have same : passed.database = server.database := looked.database
    obtain ⟨kind, kinds, unambiguous⟩ := askable.kind designated
    have single : kind = .cluster → groupID = "" := by
      rintro rfl
      exact group_of_cluster_kind kinds
    simp only [kinds]
    refine (returns_listVolumesNormalized (consistent.looked looked) kinds ?_).mono ?_
    · rw [same]
      exact unambiguous
    · rintro answer after ⟨kept, exactly⟩
      rw [same] at exactly
      have wanted := designated.wanted_iff askable.resolvable
      have translated : ListsVolumes server.database group cluster answer ↔ _ :=
        ⟨fun lists => lists.congr fun _ row _ => wanted row.owningGroup row.cluster,
          fun lists => lists.congr fun _ row _ => (wanted row.owningGroup row.cluster).symm⟩
      exact ⟨fun safe => kept fun byCluster => safe (single byCluster), (translated.trans exactly).trans
        ⟨fun ready _ same => Option.some.inj same ▸ ready, fun ready => ready kind rfl⟩⟩

inductive VolumeOperation where
  | addPersistentVolumeClaim (pvc : PersistentVolumeClaim)
  | removePersistentVolumeClaim (id : String)
  | getPersistentVolumeClaim (id : String)
  | listPersistentVolumeClaims
  | listPersistentVolumeClaimsByClusterOrGroup (group cluster : String)

def VolumeOperation.execute : VolumeOperation → StoreM Unit
  | .addPersistentVolumeClaim pvc => do let _ ← Slate.addPersistentVolumeClaim pvc
  | .removePersistentVolumeClaim id => do let _ ← Slate.removePersistentVolumeClaim id
  | .getPersistentVolumeClaim id => do let _ ← Slate.getPersistentVolumeClaim id
  | .listPersistentVolumeClaims => do let _ ← Slate.listPersistentVolumeClaims
  | .listPersistentVolumeClaimsByClusterOrGroup group cluster => do
      let _ ← Slate.listPersistentVolumeClaimsByClusterOrGroup group cluster

/-- Claims are added under new IDs, and the arguments of listings are not ambiguous. -/
def VolumeOperation.proper (operation : VolumeOperation) (server : Server) : Prop :=
  match operation with
  | .addPersistentVolumeClaim pvc => pvc.valid = true ∧ server.database.volumes.lookup pvc.id = none
  | .listPersistentVolumeClaimsByClusterOrGroup group cluster => VolumesAskable server.database group cluster
  | _ => True

/-- Besides, a cluster is listed only while its category is not there or has all
its claims. -/
def VolumeOperation.permitted (operation : VolumeOperation) (server : Server) : Prop :=
  operation.proper server ∧
    match operation with
    | .listPersistentVolumeClaimsByClusterOrGroup group cluster =>
      Returns (normalizeArguments group cluster) server fun normalized passed =>
        ∀ groupID cID, normalized = some (groupID, cID) → VolumesSafe passed groupID cID
    | _ => True

private theorem execute_keeps_volumes (operation : VolumeOperation) (server : Server) (consistent : VolumesConsistent server)
    (allowed : operation.permitted server) :
    Returns operation.execute server fun _ after => VolumesConsistent after := by
  obtain ⟨proper, safe⟩ := allowed
  cases operation with
  | addPersistentVolumeClaim pvc =>
    simp only [VolumeOperation.execute, returns_bind, returns_pure]
    exact (returns_addPersistentVolumeClaim consistent proper.1 proper.2).mono fun _ _ => And.right
  | removePersistentVolumeClaim id =>
    simp only [VolumeOperation.execute, returns_bind, returns_pure]
    exact (returns_removePersistentVolumeClaim consistent id).mono fun _ _ => And.right
  | getPersistentVolumeClaim id =>
    simp only [VolumeOperation.execute, returns_bind, returns_pure]
    exact returns_getPersistentVolumeClaim consistent id
  | listPersistentVolumeClaims =>
    simp only [VolumeOperation.execute, returns_bind, returns_pure]
    exact (returns_listPersistentVolumeClaims consistent).mono fun _ _ => And.left
  | listPersistentVolumeClaimsByClusterOrGroup group cluster =>
    simp only [VolumeOperation.execute, returns_bind, returns_pure]
    exact (returns_listPersistentVolumeClaimsByClusterOrGroup consistent proper).1 safe

structure VolumesStart (server : Server) : Prop where
  groups : server.groups = {}
  clusters : server.clusters = {}
  volumes : server.volumes = {}
  readable : ∀ id row, server.database.volumes.lookup id = some row → row.Readable
  succeeding : Succeeding server
  steady : Steady server

theorem VolumesStart.consistent {server : Server} (start : VolumesStart server) : VolumesConsistent server where
  succeeding := start.succeeding
  steady := start.steady
  groups := start.groups ▸ .empty _
  clusters := start.clusters ▸ .empty _
  readable := start.readable
  agree := start.volumes ▸ .empty _ _

/-- After any sequence of permitted operations and for any passage of time, an
unexpired category has exactly the claims with its key, and the listing of all
claims is exact; a listing by group or cluster is exact if and only
if no record of the category it answers from has expired before its turn to be
checked or, when the table is asked, the query selects no claim on another cluster. -/
theorem volume_listings_exact_iff {server : Server} {history : List VolumeOperation} (start : VolumesStart server)
    (allowed : Permitted VolumeOperation.execute VolumeOperation.permitted history server) :
    Returns (history.forM VolumeOperation.execute) server fun _ current =>
      (∀ kind category, current.clock 0 < ((current.volumes.index kind).find category).expiration →
        Lists current.database.volumes VolumeRead (fun row => row.category kind = category)
          (((current.volumes.index kind).find category).members.map CacheRecord.record)) ∧
      Returns listPersistentVolumeClaims current (fun answer _ =>
        Lists current.database.volumes VolumeRead (fun _ => True) answer) ∧
      ∀ group cluster, VolumesAskable current.database group cluster →
        (Returns (listPersistentVolumeClaimsByClusterOrGroup group cluster) current
            (fun answer _ => ListsVolumes current.database group cluster answer) ↔
          Returns (normalizeArguments group cluster) current fun normalized passed =>
            ∀ groupID cID, normalized = some (groupID, cID) →
              ∀ kind, listingKind groupID cID = some kind → VolumesReady passed kind groupID cID) := by
  refine (returns_history execute_keeps_volumes start.consistent allowed).mono fun _ current consistent => ?_
  exact ⟨fun kind category trusted => (consistent.agree.index kind).lists ⟨0, trusted⟩,
    (returns_listPersistentVolumeClaims consistent).mono fun _ _ => And.right,
    fun group cluster askable => (returns_listPersistentVolumeClaimsByClusterOrGroup consistent askable).2⟩

def claimRow (name : String) : VolumeItem :=
  ⟨name, "group_1", "cluster_1", "1Gi", "ReadWriteOnce", "Filesystem", "", "today"⟩

def twoClaimsServer : Server where
  database := { volumes := AList.insert "volume_2" (claimRow "logs") (AList.insert "volume_1" (claimRow "data") ∅) }

private theorem twoClaimsServer_start : VolumesStart twoClaimsServer where
  groups := rfl
  clusters := rfl
  volumes := rfl
  readable := by
    intro id row found
    simp only [twoClaimsServer, FiniteMap.lookup_insert, FiniteMap.lookup_empty] at found
    split at found
    next =>
      cases found
      exact ⟨_, rfl⟩
    next =>
      split at found
      next =>
        cases found
        exact ⟨_, rfl⟩
      next => cases found
  succeeding := fun _ => rfl
  steady := fun _ _ _ => Nat.le_refl 0

private theorem twoClaimsServer_askable : VolumesAskable twoClaimsServer.database "" "cluster_1" where
  resolvable := ⟨by decide, fun given => absurd rfl given, fun _ => .empty _, rfl, rfl⟩
  unambiguous := fun given => absurd rfl given

/-- Reading one of two claims starts the category of their cluster; listing the
cluster stamps it without adding the other claim, so that the next listing omits
it. -/
theorem claim_omitted_from_cluster :
    Permitted VolumeOperation.execute VolumeOperation.proper
        [.getPersistentVolumeClaim "volume_1", .listPersistentVolumeClaimsByClusterOrGroup "" "cluster_1"]
        twoClaimsServer ∧
      VolumesStart twoClaimsServer ∧
      Returns ([.getPersistentVolumeClaim "volume_1",
          .listPersistentVolumeClaimsByClusterOrGroup "" "cluster_1"].forM VolumeOperation.execute) twoClaimsServer
        fun _ current => (current.database.volumes.lookup "volume_2").map VolumeItem.cluster = some "cluster_1" ∧
          Returns (listPersistentVolumeClaimsByClusterOrGroup "" "cluster_1") current fun answer _ =>
            answer.map PersistentVolumeClaim.id = ["volume_1"] := by
  refine ⟨⟨trivial, fun after ran => ⟨?_, fun _ _ => trivial⟩⟩, twoClaimsServer_start, rfl, rfl⟩
  have same : Returns (VolumeOperation.execute (.getPersistentVolumeClaim "volume_1")) twoClaimsServer fun _ after =>
      after.database = twoClaimsServer.database := rfl
  rw [VolumeOperation.proper, same.of_ok ran]
  exact twoClaimsServer_askable

/-- Listing the cluster at once is harmless. -/
theorem volume_listings_exact_run :
    Returns ([.listPersistentVolumeClaimsByClusterOrGroup "" "cluster_1"].forM VolumeOperation.execute) twoClaimsServer
      fun _ current => Returns listPersistentVolumeClaims current fun answer _ =>
        Lists current.database.volumes VolumeRead (fun _ => True) answer := by
  have allowed : Permitted VolumeOperation.execute VolumeOperation.permitted
      [.listPersistentVolumeClaimsByClusterOrGroup "" "cluster_1"] twoClaimsServer :=
    ⟨⟨twoClaimsServer_askable, fun _ _ same _ => by cases same; exact .inl rfl⟩, fun _ _ => trivial⟩
  exact (volume_listings_exact_iff twoClaimsServer_start allowed).mono fun _ _ exact => exact.2.1

end Slate
