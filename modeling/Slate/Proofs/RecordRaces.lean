import Slate.Proofs.RecordSteps

/-! Whether clusters and instances that were removed come back, however many lookups,
listings and removals run at once. They do not, provided that no complete listing
renews its expiration while a record of them is left in the cache. -/

namespace Slate
open Library

private theorem RecordCall.pending_idle {call : RecordCall} (idle : call.idle = true) :
    call.pendingClusters = [] ∧ call.pendingInstances = [] := by
  cases call with
  | ready => exact ⟨rfl, rfl⟩
  | finished => exact ⟨rfl, rfl⟩
  | _ => cases idle

private theorem RecordCall.begin_bare (request : RecordRequest) :
    ((begin request).pendingClusters = [] ∧ (begin request).clusters = []) ∧
      (begin request).pendingInstances = [] ∧ (begin request).instances = [] := by
  cases request with
  | listClustersByGroup group =>
    simp only [begin]
    split <;> exact ⟨⟨rfl, rfl⟩, rfl, rfl⟩
  | _ => exact ⟨⟨rfl, rfl⟩, rfl, rfl⟩

def clusterReads : ReadThrough recordSystem String where
  validity := clusterCacheValidity
  sound := Steady
  view := clusterKind.copies
  pending := fun call => { id | id ∈ call.pendingClusters }
  shows := fun call => clusterKind.shown call.clusters
  renews := RecordCall.RenewsClusters
  begins := fun request => by
    obtain ⟨⟨pending, clusters⟩, -⟩ := RecordCall.begin_bare request
    change { id | id ∈ (RecordCall.begin request).pendingClusters } = _ ∧
      clusterKind.shown (RecordCall.begin request).clusters = _
    rw [pending, clusters]
    simp [RecordKind.shown]
  rests := fun call idle => by
    rw [(RecordCall.pending_idle idle).1]
    simp
  moves := fun call store moved after steady advanced => by
    obtain ⟨busy, ran⟩ := System.advance_ofPieces advanced
    exact RecordCall.piece_cluster_moves busy ran steady

def instanceReads : ReadThrough recordSystem String where
  validity := instanceCacheValidity
  sound := Steady
  view := instanceKind.copies
  pending := fun call => { id | id ∈ call.pendingInstances }
  shows := fun call => instanceKind.shown call.instances
  renews := RecordCall.RenewsInstances
  begins := fun request => by
    obtain ⟨-, pending, instances⟩ := RecordCall.begin_bare request
    change { id | id ∈ (RecordCall.begin request).pendingInstances } = _ ∧
      instanceKind.shown (RecordCall.begin request).instances = _
    rw [pending, instances]
    simp [RecordKind.shown]
  rests := fun call idle => by
    rw [(RecordCall.pending_idle idle).2]
    simp
  moves := fun call store moved after steady advanced => by
    obtain ⟨busy, ran⟩ := System.advance_ofPieces advanced
    exact RecordCall.piece_instance_moves busy ran steady

def RecordID.validity : RecordID → Time
  | .cluster _ => clusterCacheValidity
  | .inst _ => instanceCacheValidity

def RecordAnswer.Reports (answer : RecordAnswer) : RecordID → Prop
  | .cluster id => ∃ cluster ∈ answer.allClusters, cluster.valid = true ∧ cluster.id = id
  | .inst id => ∃ inst ∈ answer.allInstances, inst.valid = true ∧ inst.id = id

/-- The cache that complete listings show has a record under the ID. -/
def RecordID.Listed (server : Server) : RecordID → Prop
  | .cluster id => ∃ key entry, server.clusters.clusterCache.lookup key = some entry ∧ entry.record.valid = true ∧
      entry.record.id = id
  | .inst id => ∃ key entry, server.instances.instanceCache.lookup key = some entry ∧ entry.record.valid = true ∧
      entry.record.id = id

/-- The call renews the expiration of the complete listing that the record belongs to. -/
def RecordCall.Renews (call : RecordCall) : RecordID → Prop
  | .cluster _ => call.RenewsClusters
  | .inst _ => call.RenewsInstances

/-- A complete listing that has read the whole table renews its expiration only if no
record of this ID is left in the cache. -/
def ListingPurged (id : RecordID) : Event RecordRequest → Pool Server RecordCall → Prop
  | .start _ _, _ => True
  | .advance call, pool => (pool.calls call).Renews id → ¬ id.Listed pool.store

/-- Nothing is cached or listed for longer than the validity from now. -/
structure RecordsDated (server : Server) : Prop where
  steady : Steady server
  clusters : ∀ entry, (clusterKind.part.read server).cached entry →
    entry.expirationTime ≤ server.clock 0 + clusterCacheValidity
  clusterListing : server.clusters.expirationTime ≤ server.clock 0 + clusterCacheValidity
  instances : ∀ entry, (instanceKind.part.read server).cached entry →
    entry.expirationTime ≤ server.clock 0 + instanceCacheValidity
  instanceListing : server.instances.expirationTime ≤ server.clock 0 + instanceCacheValidity

theorem RecordsDated.clusterReads {server : Server} (dated : RecordsDated server) : Slate.clusterReads.Dated server where
  sound := dated.steady
  copied := by
    rintro id limit ⟨entry, held, -, -, rfl⟩
    exact dated.clusters entry held
  stamp := dated.clusterListing

theorem RecordsDated.instanceReads {server : Server} (dated : RecordsDated server) : Slate.instanceReads.Dated server where
  sound := dated.steady
  copied := by
    rintro id limit ⟨entry, held, -, -, rfl⟩
    exact dated.instances entry held
  stamp := dated.instanceListing

/-- The row is gone of every record whose removal has got that far. -/
structure RemovalsDone (pool : Pool Server RecordCall) : Prop where
  steady : Steady pool.store
  done : ∀ call id, (pool.calls call).deleted = some id → ¬ id.Stored pool.store

theorem step_unstored {event : Event RecordRequest} {before after : Pool Server RecordCall} {id : RecordID}
    (stepped : recordSystem.step event before = some after) (steady : Steady before.store)
    (absent : ¬ id.Stored before.store) : ¬ id.Stored after.store := by
  cases id with
  | cluster id => exact clusterReads.step_unstored stepped steady absent
  | inst id => exact instanceReads.step_unstored stepped steady absent

private theorem step_removals {event : Event RecordRequest} {before after : Pool Server RecordCall}
    (stepped : recordSystem.step event before = some after) (removals : RemovalsDone before) : RemovalsDone after := by
  have kept : ∀ id : RecordID, ¬ id.Stored before.store → ¬ id.Stored after.store :=
    fun id => step_unstored stepped removals.steady
  cases event with
  | start call request =>
    obtain ⟨same, begin, others⟩ := System.step_started stepped
    refine ⟨same.symm ▸ removals.steady, fun other id deleted => kept id ?_⟩
    by_cases this : other = call
    · subst this
      rw [begin] at deleted
      cases request with
      | listClustersByGroup group =>
        simp only [recordSystem, System.ofPieces, RecordCall.begin] at deleted
        split at deleted <;> cases deleted
      | _ => cases deleted
    · rw [others other this] at deleted
      exact removals.done other id deleted
  | advance call =>
    obtain ⟨advanced, others⟩ := System.step_moved stepped
    obtain ⟨busy, ran⟩ := System.advance_ofPieces advanced
    refine ⟨(RecordCall.piece_cluster_moves busy ran removals.steady).1, fun other id deleted => ?_⟩
    by_cases this : other = call
    · subst this
      rcases RecordCall.piece_deletes ran id deleted with old | gone
      · exact kept id (removals.done other id old)
      · exact gone
    · rw [others other this] at deleted
      exact kept id (removals.done other id deleted)

/-- A record whose removal has returned true stays away from every answer to a call
that begins when all calls of that time have ended and the validity has passed, if no
complete listing renews its expiration over a record of it that is left in the cache. -/
theorem removed_record_stays_gone {id : RecordID} {start removed cutoff elapsed final : Pool Server RecordCall}
    {earlier between later rest : List (Event RecordRequest)} {removal call : Nat} {request : RecordRequest}
    (dated : RecordsDated start.store) (ready : ∀ call, start.calls call = .ready)
    (ran : recordSystem.run earlier start = some removed)
    (returned : removed.calls removal = .finished (.removed id true))
    (settled : recordSystem.run between removed = some cutoff)
    (rested : ∀ call, ∃ first last middle, between = first ++ last ∧ recordSystem.run first removed = some middle ∧
      recordSystem.idle (middle.calls call) = true)
    (passed : recordSystem.run later cutoff = some elapsed)
    (waited : cutoff.store.clock 0 + id.validity < elapsed.store.clock 0)
    (asked : recordSystem.run (.start call request :: rest) elapsed = some final)
    (purged : recordSystem.Meets (ListingPurged id) (later ++ .start call request :: rest) cutoff) :
    ∀ answer, final.calls call = .finished answer → ¬ answer.Reports id := by
  have removals : RemovalsDone removed := by
    refine System.run_keeps ran ⟨dated.steady, fun call id deleted => ?_⟩ fun _ _ _ _ stepped => step_removals stepped
    rw [ready call] at deleted
    cases deleted
  have absent : ¬ id.Stored removed.store := by
    apply removals.done removal id
    rw [returned]
    rfl
  intro answer ended reported
  cases id with
  | cluster id =>
    have purges : recordSystem.Meets (clusterReads.Purged id) (later ++ .start call request :: rest) cutoff := by
      refine System.meets_mono purged fun event pool met => ?_
      cases event with
      | start => trivial
      | advance moving =>
        rintro renews ⟨entry, ⟨key, found⟩, valid, same⟩
        exact met renews ⟨key, entry, found, valid, same⟩
    have hidden := clusterReads.stays_gone ⟨clusterReads.run_dated ran dated.clusterReads, absent⟩ settled rested passed
      waited asked purges
    apply hidden
    rw [ended]
    exact reported
  | inst id =>
    have purges : recordSystem.Meets (instanceReads.Purged id) (later ++ .start call request :: rest) cutoff := by
      refine System.meets_mono purged fun event pool met => ?_
      cases event with
      | start => trivial
      | advance moving =>
        rintro renews ⟨entry, ⟨key, found⟩, valid, same⟩
        exact met renews ⟨key, entry, found, valid, same⟩
    have hidden := instanceReads.stays_gone ⟨instanceReads.run_dated ran dated.instanceReads, absent⟩ settled rested passed
      waited asked purges
    apply hidden
    rw [ended]
    exact reported

def oneRecordServer : Server where
  database := { clusters := AList.insert "cluster_1" (itemOfCluster { name := "c", owningGroup := "group_1" }) ∅ }

def oneRecordPool : Pool Server RecordCall := { store := oneRecordServer, calls := fun _ => .ready }

private theorem oneRecordServer_dated : RecordsDated oneRecordServer where
  steady := fun _ _ _ => le_refl _
  clusters := by
    rintro entry (⟨key, found⟩ | ⟨name, found⟩)
    · exact nomatch (FiniteMap.lookup_empty key).symm.trans found
    · exact nomatch (FiniteMap.lookup_empty name).symm.trans found
  clusterListing := Nat.zero_le _
  instances := by
    rintro entry (⟨key, found⟩ | ⟨kind, key, name, found⟩)
    · exact nomatch (FiniteMap.lookup_empty key).symm.trans found
    · cases kind <;> exact nomatch (ConcurrentMultimap.entryOf_empty key name).symm.trans found
  instanceListing := Nat.zero_le _

def removalEvents : List (Event RecordRequest) :=
  [.start 0 (.removeCluster "cluster_1"), .advance 0, .advance 0, .advance 0]

def recordRemoved : Pool Server RecordCall := (recordSystem.run removalEvents oneRecordPool).getD oneRecordPool

def removalElapsed : Pool Server RecordCall :=
  (recordSystem.run [.start 1 (.elapse (clusterCacheValidity + 1)), .advance 1] recordRemoved).getD recordRemoved

def removalAsked : Pool Server RecordCall :=
  (recordSystem.run [.start 2 (.findClusterByID "cluster_1"), .advance 2, .advance 2] removalElapsed).getD removalElapsed

theorem removed_record_stays_gone_run :
    removalAsked.calls 2 = .finished (.cluster {}) ∧
      ∀ answer, removalAsked.calls 2 = .finished answer → ¬ answer.Reports (.cluster "cluster_1") := by
  have ran : recordSystem.run removalEvents oneRecordPool = some recordRemoved := rfl
  have rested : ∀ call, ∃ first last middle, ([] : List (Event RecordRequest)) = first ++ last ∧
      recordSystem.run first recordRemoved = some middle ∧ recordSystem.idle (middle.calls call) = true := by
    intro call
    refine ⟨[], [], recordRemoved, rfl, rfl, ?_⟩
    by_cases this : call = 0
    · subst this
      rfl
    · rw [System.run_untouched ran (by simp [removalEvents, Event.call, Ne.symm this])]
      rfl
  have purged : recordSystem.Meets (ListingPurged (.cluster "cluster_1"))
      ([.start 1 (.elapse (clusterCacheValidity + 1)), .advance 1] ++
        .start 2 (.findClusterByID "cluster_1") :: [.advance 2, .advance 2]) recordRemoved := by
    refine ⟨trivial, fun after stepped => ?_⟩
    cases stepped
    refine ⟨fun renews => renews.elim, fun after stepped => ?_⟩
    cases stepped
    refine ⟨trivial, fun after stepped => ?_⟩
    cases stepped
    refine ⟨fun renews => renews.elim, fun after stepped => ?_⟩
    cases stepped
    exact ⟨fun renews => renews.elim, fun _ _ => trivial⟩
  have returned : recordRemoved.calls 0 = .finished (.removed (.cluster "cluster_1") true) := rfl
  have waited : recordRemoved.store.clock 0 + clusterCacheValidity < removalElapsed.store.clock 0 := by decide
  have passed : recordSystem.run [.start 1 (.elapse (clusterCacheValidity + 1)), .advance 1] recordRemoved =
    some removalElapsed := rfl
  have asked : recordSystem.run (.start 2 (.findClusterByID "cluster_1") :: [.advance 2, .advance 2]) removalElapsed =
    some removalAsked := rfl
  exact ⟨rfl, removed_record_stays_gone oneRecordServer_dated (fun _ => rfl) ran returned rfl rested passed waited asked
    purged⟩

/-- The first call has read the cluster when the second removes it, and caches it afterwards. -/
def ghostEvents : List (Event RecordRequest) :=
  [.start 0 (.findClusterByID "cluster_1"), .advance 0, .advance 0, .start 1 (.removeCluster "cluster_1"), .advance 1,
    .advance 1, .advance 1]

def ghostRemoved : Pool Server RecordCall := (recordSystem.run ghostEvents oneRecordPool).getD oneRecordPool

def ghostCutoff : Pool Server RecordCall := (recordSystem.run [.advance 0] ghostRemoved).getD ghostRemoved

/-- Time passes, and a listing reads the table, which is empty. -/
def ghostWait : List (Event RecordRequest) :=
  [.start 2 (.elapse (clusterCacheValidity + 1)), .advance 2, .start 3 .listClusters, .advance 3, .advance 3, .advance 3]

def ghostElapsed : Pool Server RecordCall := (recordSystem.run ghostWait ghostCutoff).getD ghostCutoff

def ghostListed : Pool Server RecordCall :=
  (recordSystem.run [.start 4 .listClusters, .advance 4] ghostElapsed).getD ghostElapsed

/-- The next listing finds its expiration renewed and shows all that is cached, the
record that has long expired included. -/
theorem removed_cluster_listed :
    recordSystem.run ghostEvents oneRecordPool = some ghostRemoved ∧
      ghostRemoved.calls 1 = .finished (.removed (.cluster "cluster_1") true) ∧
      recordSystem.run [.advance 0] ghostRemoved = some ghostCutoff ∧
      recordSystem.idle (ghostCutoff.calls 0) = true ∧
      recordSystem.run ghostWait ghostCutoff = some ghostElapsed ∧
      ghostCutoff.store.clock 0 + clusterCacheValidity < ghostElapsed.store.clock 0 ∧
      recordSystem.run [.start 4 .listClusters, .advance 4] ghostElapsed = some ghostListed ∧
      ghostListed.store.database.clusters.lookup "cluster_1" = none ∧
      ghostListed.calls 4 = .finished (.clusters [{ valid := true, id := "cluster_1", name := "c", owningGroup := "group_1" }]) :=
  ⟨rfl, rfl, rfl, rfl, rfl, by decide, rfl, rfl, rfl⟩

end Slate
