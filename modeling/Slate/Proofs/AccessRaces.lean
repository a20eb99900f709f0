import Slate.AccessCalls
import Slate.Proofs.AccessDecisions

/-! Whether the revocation of access to a cluster is effective while other calls run. -/

namespace Slate
open Library

/-- Neither the table nor the cache knows of access to the cluster for the group or
for all groups. -/
structure Withdrawn (groupID cID : String) (server : Server) : Prop where
  absent : ∀ granted, granted = groupID ∨ granted = wildcard → server.database.access.lookup (cID, granted) = none
  spent : ∀ granted, granted = groupID ∨ granted = wildcard →
    Spent server (server.clusters.clusterGroupAccessCache.entryOf cID granted)

namespace Withdrawn

variable {groupID cID : String} {before after : Server}

theorem later (withdrawn : Withdrawn groupID cID before) (later : Later before after)
    (table : after.database.access = before.database.access)
    (cache : after.clusters.clusterGroupAccessCache = before.clusters.clusterGroupAccessCache) :
    Withdrawn groupID cID after where
  absent := by
    rw [table]
    exact withdrawn.absent
  spent := fun granted which => by
    rw [cache]
    exact (withdrawn.spent granted which).later later

theorem looked (withdrawn : Withdrawn groupID cID before) (looked : Looked before after) :
    Withdrawn groupID cID after :=
  withdrawn.later looked.toLater (by rw [looked.database]) looked.access

end Withdrawn

/-- A value is cached that grants nothing of interest. -/
theorem returns_cacheAccess_other {groupID cID : String} {server : Server} (withdrawn : Withdrawn groupID cID server)
    {onCluster value : String} (other : onCluster = cID → value ≠ groupID ∧ value ≠ wildcard) :
    Returns (cacheAccess onCluster value) server fun _ after => Withdrawn groupID cID after := by
  unfold cacheAccess
  simp only [returns_bind, returns_lasting, returns_now, returns_modify]
  have passed := withdrawn.looked ((Looked.tick server).trans (.tick _))
  refine ⟨passed.absent, fun granted which => ?_⟩
  dsimp only
  rw [ConcurrentMultimap.entryOf_insertOrAssign, if_neg]
  · exact passed.spent granted which
  · rintro ⟨rfl, same⟩
    obtain ⟨notGroup, notAll⟩ := other rfl
    obtain rfl | rfl := which
    · exact notGroup same.symm
    · exact notAll same.symm

private theorem returns_forgetAccess {groupID cID : String} {server : Server} (withdrawn : Withdrawn groupID cID server)
    (onCluster value : String) :
    Returns (forgetAccess onCluster value) server fun _ after => Withdrawn groupID cID after := by
  unfold forgetAccess
  simp only [returns_modify]
  refine ⟨withdrawn.absent, fun granted which => ?_⟩
  dsimp only
  rw [ConcurrentMultimap.entryOf_eraseValue]
  split
  next => exact fun _ found => nomatch found
  next => exact (withdrawn.spent granted which).later (.of_eq rfl rfl)

/-- The cache says nothing about what has been withdrawn. -/
theorem returns_accessCached_withdrawn {groupID cID : String} {server : Server}
    (withdrawn : Withdrawn groupID cID server) (onCluster value : String) :
    Returns (accessCached onCluster value) server fun record after => Withdrawn groupID cID after ∧
      (onCluster = cID → value = groupID ∨ value = wildcard → record = none) := by
  refine returns_accessCached (fun record found valid => ?_) fun passed moved => ?_
  · refine ⟨withdrawn.looked (.tick server), ?_⟩
    rintro rfl which
    exact absurd (withdrawn.spent value which record found 0) (Nat.not_lt.mpr valid)
  · exact ⟨withdrawn.looked (.missed moved), fun _ _ => rfl⟩

/-- Nor does the table. -/
theorem returns_accessQuery_withdrawn {groupID cID : String} {server : Server} (withdrawn : Withdrawn groupID cID server)
    (granted onCluster : String) :
    Returns (accessQuery granted onCluster) server fun answer after => Withdrawn groupID cID after ∧
      ∀ present, answer = some present → onCluster = cID → granted = groupID ∨ granted = wildcard → present = false := by
  unfold accessQuery
  simp only [returns_bind, returns_request, returns_ite, returns_get, returns_pure]
  have asked := withdrawn.looked (.answered server)
  split
  next =>
    refine ⟨asked, fun present same onCluster which => ?_⟩
    subst onCluster
    rw [asked.absent granted which] at same
    exact (Option.some.inj same).symm
  next => exact ⟨asked, fun _ same => by cases same⟩

namespace AccessCall

/-- The call grants access to the cluster, to the group or to all groups. -/
def Grants (groupID cID : String) : AccessCall → Prop
  | granting group cluster => cluster = cID ∧ (group = groupID ∨ group = wildcard)
  | putting group cluster => cluster = cID ∧ (group = groupID ∨ group = wildcard)
  | caching group cluster => cluster = cID ∧ (group = groupID ∨ group = wildcard)
  | _ => False

/-- The call has found that there is access and is about to cache it. -/
def Confirms (groupID cID : String) : AccessCall → Prop
  | learned _ cluster present => cluster = cID ∧ present = true
  | found group cluster present => cluster = cID ∧ present = true ∧ (group = groupID ∨ group = wildcard)
  | _ => False

/-- The group that a decision or a revocation is about, and the cluster. -/
def subject : AccessCall → Option (String × String)
  | deciding group cluster => some (group, cluster)
  | doubting group cluster => some (group, cluster)
  | asking group cluster => some (group, cluster)
  | learned group cluster _ => some (group, cluster)
  | looking group cluster => some (group, cluster)
  | missing group cluster => some (group, cluster)
  | querying group cluster => some (group, cluster)
  | found group cluster _ => some (group, cluster)
  | revoking group cluster => some (group, cluster)
  | deleting group cluster => some (group, cluster)
  | marking group cluster => some (group, cluster)
  | _ => none

/-- The negative marker of the group that the call is about is the group itself. -/
def Marks (groupID cID : String) (call : AccessCall) : Prop :=
  ∃ group, call.subject = some (group, cID) ∧ negativeMarker group = groupID

def Denies (groupID cID : String) (call : AccessCall) : Prop :=
  ∀ answer, call = decided groupID cID answer → answer = false

/-- A call that does not stand in the way of a revocation. -/
structure Harmless (groupID cID : String) (call : AccessCall) : Prop where
  grants : ¬ call.Grants groupID cID
  confirms : ¬ call.Confirms groupID cID
  marks : ¬ call.Marks groupID cID

end AccessCall

theorem negativeMarker_ne_wildcard (group : String) : negativeMarker group ≠ wildcard := by
  intro same
  have last := congrArg (fun text => text.toList.getLast?) same
  simp [negativeMarker, wildcard] at last

/-- What a step of such a call leaves behind. -/
def LeftWithdrawn (groupID cID : String) (moved : AccessCall) (after : Server) : Prop :=
  Withdrawn groupID cID after ∧ moved.Harmless groupID cID ∧ moved.Denies groupID cID

namespace AccessCall

private theorem not_marks {groupID cID : String} {moved : AccessCall} (subjectless : moved.subject = none) :
    ¬ moved.Marks groupID cID := by
  rintro ⟨group, same, -⟩
  rw [subjectless] at same
  cases same

section

attribute [local simp] AccessCall.piece

variable {groupID cID : String} {server : Server} (withdrawn : Withdrawn groupID cID server)
include withdrawn

private theorem returns_deciding_withdrawn {group cluster : String}
    (harmless : (deciding group cluster).Harmless groupID cID) :
    Returns (deciding group cluster).piece server (LeftWithdrawn groupID cID) := by
  obtain ⟨-, -, marks⟩ := harmless
  simp only [AccessCall.piece, returns_bind]
  refine (returns_accessCached_withdrawn withdrawn cluster wildcard).mono ?_
  rintro (_ | record) after ⟨kept, none⟩
  · exact ⟨kept, ⟨id, id, marks⟩, fun _ same => by cases same⟩
  · simp only [returns_bind, returns_current, returns_ite, returns_pure, decide_eq_true_eq]
    have passed := kept.looked (.tick after)
    split
    next =>
      refine ⟨passed, ⟨id, id, not_marks rfl⟩, fun answer same => ?_⟩
      cases same
      cases none rfl (.inr rfl)
    next => exact ⟨passed, ⟨id, id, marks⟩, fun _ same => by cases same⟩

private theorem returns_doubting_withdrawn {group cluster : String}
    (harmless : (doubting group cluster).Harmless groupID cID) :
    Returns (doubting group cluster).piece server (LeftWithdrawn groupID cID) := by
  obtain ⟨-, -, marks⟩ := harmless
  simp only [AccessCall.piece, returns_bind]
  refine (returns_accessCached_withdrawn withdrawn cluster (negativeMarker wildcard)).mono ?_
  rintro (_ | record) after ⟨kept, -⟩
  · exact ⟨kept, ⟨id, id, marks⟩, fun _ same => by cases same⟩
  · exact ⟨kept, ⟨id, id, marks⟩, fun _ same => by cases same⟩

private theorem returns_asking_withdrawn {group cluster : String}
    (harmless : (asking group cluster).Harmless groupID cID) :
    Returns (asking group cluster).piece server (LeftWithdrawn groupID cID) := by
  obtain ⟨-, -, marks⟩ := harmless
  simp only [AccessCall.piece, returns_bind]
  refine (returns_accessQuery_withdrawn withdrawn wildcard cluster).mono ?_
  rintro (_ | present) after ⟨kept, none⟩
  · exact ⟨kept, ⟨id, id, marks⟩, fun _ same => by cases same⟩
  · refine ⟨kept, ⟨id, ?_, marks⟩, fun _ same => by cases same⟩
    rintro ⟨onCluster, rfl⟩
    cases none true rfl onCluster (.inr rfl)

private theorem returns_learned_withdrawn (apart : negativeMarker wildcard ≠ groupID) {group cluster : String} {present : Bool}
    (harmless : (learned group cluster present).Harmless groupID cID) :
    Returns (learned group cluster present).piece server (LeftWithdrawn groupID cID) := by
  obtain ⟨-, confirms, marks⟩ := harmless
  simp only [AccessCall.piece, AccessCall.cacheFinding, returns_bind, returns_ite, returns_pure]
  refine (returns_cacheAccess_other withdrawn ?_).mono fun _ after kept => ?_
  · intro onCluster
    cases present with
    | true => exact absurd ⟨onCluster, rfl⟩ confirms
    | false => exact ⟨apart, negativeMarker_ne_wildcard wildcard⟩
  · cases present with
    | true =>
      refine ⟨kept, ⟨id, id, not_marks rfl⟩, fun answer same => ?_⟩
      cases same
      exact absurd ⟨rfl, rfl⟩ confirms
    | false => exact ⟨kept, ⟨id, id, marks⟩, fun _ same => by cases same⟩

private theorem returns_looking_withdrawn {group cluster : String}
    (harmless : (looking group cluster).Harmless groupID cID) :
    Returns (looking group cluster).piece server (LeftWithdrawn groupID cID) := by
  obtain ⟨-, -, marks⟩ := harmless
  simp only [AccessCall.piece, returns_bind]
  refine (returns_accessCached_withdrawn withdrawn cluster group).mono ?_
  rintro (_ | record) after ⟨kept, none⟩
  · exact ⟨kept, ⟨id, id, marks⟩, fun _ same => by cases same⟩
  · refine ⟨kept, ⟨id, id, not_marks rfl⟩, fun answer same => ?_⟩
    cases same
    cases none rfl (.inl rfl)

private theorem returns_missing_withdrawn {group cluster : String}
    (harmless : (missing group cluster).Harmless groupID cID) :
    Returns (missing group cluster).piece server (LeftWithdrawn groupID cID) := by
  obtain ⟨-, -, marks⟩ := harmless
  simp only [AccessCall.piece, returns_bind]
  refine (returns_accessCached_withdrawn withdrawn cluster (negativeMarker group)).mono ?_
  rintro (_ | record) after ⟨kept, -⟩
  · exact ⟨kept, ⟨id, id, marks⟩, fun _ same => by cases same⟩
  · exact ⟨kept, ⟨id, id, not_marks rfl⟩, fun answer same => by cases same; rfl⟩

private theorem returns_querying_withdrawn {group cluster : String}
    (harmless : (querying group cluster).Harmless groupID cID) :
    Returns (querying group cluster).piece server (LeftWithdrawn groupID cID) := by
  obtain ⟨-, -, marks⟩ := harmless
  simp only [AccessCall.piece, returns_bind]
  refine (returns_accessQuery_withdrawn withdrawn group cluster).mono ?_
  rintro (_ | present) after ⟨kept, none⟩
  · exact ⟨kept, ⟨id, id, not_marks rfl⟩, fun answer same => by cases same; rfl⟩
  · refine ⟨kept, ⟨id, ?_, marks⟩, fun _ same => by cases same⟩
    rintro ⟨onCluster, rfl, which⟩
    cases none true rfl onCluster which

private theorem returns_found_withdrawn {group cluster : String} {present : Bool}
    (harmless : (found group cluster present).Harmless groupID cID) :
    Returns (found group cluster present).piece server (LeftWithdrawn groupID cID) := by
  obtain ⟨-, confirms, marks⟩ := harmless
  simp only [AccessCall.piece, AccessCall.cacheFinding, returns_bind, returns_pure]
  refine (returns_cacheAccess_other withdrawn ?_).mono fun _ after kept => ⟨kept, ⟨id, id, not_marks rfl⟩, ?_⟩
  · rintro rfl
    cases present with
    | true => exact ⟨fun same => confirms ⟨rfl, rfl, .inl same⟩, fun same => confirms ⟨rfl, rfl, .inr same⟩⟩
    | false => exact ⟨fun same => marks ⟨group, rfl, same⟩, negativeMarker_ne_wildcard group⟩
  · intro answer same
    cases same
    cases present with
    | true => exact absurd ⟨rfl, rfl, .inl rfl⟩ confirms
    | false => rfl

private theorem returns_granting_withdrawn {group cluster : String}
    (harmless : (granting group cluster).Harmless groupID cID) :
    Returns (granting group cluster).piece server (LeftWithdrawn groupID cID) := by
  obtain ⟨grants, -, -⟩ := harmless
  simp only [AccessCall.piece, returns_bind, returns_pure]
  exact (returns_forgetAccess withdrawn cluster _).mono fun _ after kept =>
    ⟨kept, ⟨grants, id, not_marks rfl⟩, fun _ same => by cases same⟩

private theorem returns_putting_withdrawn {group cluster : String}
    (harmless : (putting group cluster).Harmless groupID cID) :
    Returns (putting group cluster).piece server (LeftWithdrawn groupID cID) := by
  obtain ⟨grants, -, -⟩ := harmless
  simp only [AccessCall.piece, putAccess, returns_bind, returns_request, returns_ite, returns_pure, returns_modify]
  have asked := withdrawn.looked (.answered server)
  split
  next =>
    refine ⟨⟨fun granted which => ?_, asked.spent⟩, ⟨grants, id, not_marks rfl⟩, fun _ same => by cases same⟩
    dsimp only
    rw [FiniteMap.lookup_insert, if_neg]
    · exact asked.absent granted which
    · intro same
      cases same
      exact grants ⟨rfl, which⟩
  next => exact ⟨asked, ⟨id, id, not_marks rfl⟩, fun _ same => by cases same⟩

private theorem returns_caching_withdrawn {group cluster : String}
    (harmless : (caching group cluster).Harmless groupID cID) :
    Returns (caching group cluster).piece server (LeftWithdrawn groupID cID) := by
  obtain ⟨grants, -, -⟩ := harmless
  simp only [AccessCall.piece, returns_bind, returns_pure]
  refine (returns_cacheAccess_other withdrawn ?_).mono fun _ after kept =>
    ⟨kept, ⟨id, id, not_marks rfl⟩, fun _ same => by cases same⟩
  exact fun onCluster => ⟨fun same => grants ⟨onCluster, .inl same⟩, fun same => grants ⟨onCluster, .inr same⟩⟩

private theorem returns_revoking_withdrawn {group cluster : String}
    (harmless : (revoking group cluster).Harmless groupID cID) :
    Returns (revoking group cluster).piece server (LeftWithdrawn groupID cID) := by
  obtain ⟨-, -, marks⟩ := harmless
  simp only [AccessCall.piece, returns_bind, returns_pure]
  exact (returns_forgetAccess withdrawn cluster group).mono fun _ after kept =>
    ⟨kept, ⟨id, id, marks⟩, fun _ same => by cases same⟩

private theorem returns_deleting_withdrawn {group cluster : String}
    (harmless : (deleting group cluster).Harmless groupID cID) :
    Returns (deleting group cluster).piece server (LeftWithdrawn groupID cID) := by
  obtain ⟨-, -, marks⟩ := harmless
  simp only [AccessCall.piece, deleteAccess, returns_bind, returns_request, returns_ite, returns_pure, returns_modify]
  have asked := withdrawn.looked (.answered server)
  split
  next =>
    refine ⟨⟨fun granted which => ?_, asked.spent⟩, ⟨id, id, marks⟩, fun _ same => by cases same⟩
    dsimp only
    rw [FiniteMap.lookup_erase]
    split
    next => rfl
    next => exact asked.absent granted which
  next => exact ⟨asked, ⟨id, id, not_marks rfl⟩, fun _ same => by cases same⟩

private theorem returns_marking_withdrawn {group cluster : String}
    (harmless : (marking group cluster).Harmless groupID cID) :
    Returns (marking group cluster).piece server (LeftWithdrawn groupID cID) := by
  obtain ⟨-, -, marks⟩ := harmless
  simp only [AccessCall.piece, returns_bind, returns_pure]
  refine (returns_cacheAccess_other withdrawn ?_).mono fun _ after kept =>
    ⟨kept, ⟨id, id, not_marks rfl⟩, fun _ same => by cases same⟩
  rintro rfl
  exact ⟨fun same => marks ⟨group, rfl, same⟩, negativeMarker_ne_wildcard group⟩

end

theorem returns_piece_withdrawn {groupID cID : String} {call : AccessCall} {server : Server}
    (apart : negativeMarker wildcard ≠ groupID) (withdrawn : Withdrawn groupID cID server)
    (harmless : call.Harmless groupID cID) (busy : call.idle = false) :
    Returns call.piece server (LeftWithdrawn groupID cID) := by
  cases call with
  | ready => cases busy
  | decided => cases busy
  | granted => cases busy
  | revoked => cases busy
  | deciding => exact returns_deciding_withdrawn withdrawn harmless
  | doubting => exact returns_doubting_withdrawn withdrawn harmless
  | asking => exact returns_asking_withdrawn withdrawn harmless
  | learned => exact returns_learned_withdrawn withdrawn apart harmless
  | looking => exact returns_looking_withdrawn withdrawn harmless
  | missing => exact returns_missing_withdrawn withdrawn harmless
  | querying => exact returns_querying_withdrawn withdrawn harmless
  | found => exact returns_found_withdrawn withdrawn harmless
  | granting => exact returns_granting_withdrawn withdrawn harmless
  | putting => exact returns_putting_withdrawn withdrawn harmless
  | caching => exact returns_caching_withdrawn withdrawn harmless
  | revoking => exact returns_revoking_withdrawn withdrawn harmless
  | deleting => exact returns_deleting_withdrawn withdrawn harmless
  | marking => exact returns_marking_withdrawn withdrawn harmless

end AccessCall

private theorem negativeMarker_ne_self (group : String) : negativeMarker group ≠ group := by
  intro same
  have length := congrArg String.length same
  simp [negativeMarker] at length

/-- When a revocation deletes the record, all groups have no access to the cluster
besides, no record of access that is cached is still to be valid, and no call that
runs grants access, is about to cache that there is access, or uses the group as the
marker of another. -/
structure RevocationUndisturbed (groupID cID : String) (pool : Pool Server AccessCall) : Prop where
  closed : groupID ≠ wildcard → pool.store.database.access.lookup (cID, wildcard) = none
  spent : ∀ granted, granted = groupID ∨ granted = wildcard →
    Spent pool.store (pool.store.clusters.clusterGroupAccessCache.entryOf cID granted)
  apart : negativeMarker wildcard ≠ groupID
  harmless : ∀ call, (pool.calls call).Harmless groupID cID

private theorem deleted_withdrawn {groupID cID : String} {server after : Server} {moved : AccessCall}
    (closed : groupID ≠ wildcard → server.database.access.lookup (cID, wildcard) = none)
    (spent : ∀ granted, granted = groupID ∨ granted = wildcard →
      Spent server (server.clusters.clusterGroupAccessCache.entryOf cID granted))
    (stepped : (AccessCall.deleting groupID cID).piece server = .ok moved after)
    (succeeded : moved = .marking groupID cID) : Withdrawn groupID cID after := by
  have deletes : Returns (AccessCall.deleting groupID cID).piece server fun moved after =>
      moved = .marking groupID cID → Withdrawn groupID cID after := by
    simp only [AccessCall.piece, deleteAccess, returns_bind, returns_request, returns_ite, returns_pure,
      returns_modify]
    split
    next =>
      refine fun _ => ⟨fun granted which => ?_, fun granted which => ?_⟩
      · dsimp only
        rw [FiniteMap.lookup_erase]
        split
        next => rfl
        next different =>
          obtain rfl | rfl := which
          · exact absurd rfl different
          · exact closed fun same => different (by rw [same])
      · exact (spent granted which).later ((Later.answered server).trans (.of_eq rfl rfl))
    next => exact fun same => by cases same
  exact deletes.of_ok stepped succeeded

/-- Once a revocation has deleted the record undisturbed, every decision that begins
afterwards denies access, as long as no call sets out to grant it again. -/
theorem revoked_access_denied {groupID cID : String} {pool deleted final : Pool Server AccessCall} {call : Nat}
    (deletes : pool.calls call = .deleting groupID cID)
    (stepped : accessSystem.step (.advance call) pool = some deleted)
    (succeeded : deleted.calls call = .marking groupID cID) (undisturbed : RevocationUndisturbed groupID cID pool)
    {reader : Nat} {earlier later : List (Event AccessRequest)}
    (ran : accessSystem.run (earlier ++ .start reader (.groupAllowedOnCluster groupID cID) :: later) deleted =
      some final)
    (harmless : ∀ other request, .start other request ∈ earlier ++ later →
      (AccessCall.begin request).Harmless groupID cID) :
    ∀ answer, final.calls reader = .decided groupID cID answer → answer = false := by
  obtain ⟨moved, store, advanced, rfl⟩ := System.step_advance stepped
  obtain ⟨-, piece⟩ := System.advance_ofPieces advanced
  rw [deletes] at piece
  obtain rfl : moved = .marking groupID cID := by simpa using succeeded
  have own : ∀ {current : AccessCall}, current.subject = some (groupID, cID) → ¬ current.Marks groupID cID := by
    rintro current subject ⟨group, same, marker⟩
    rw [subject] at same
    cases same
    exact negativeMarker_ne_self groupID marker
  have start : System.Confined (Withdrawn groupID cID) (fun _ current => current.Harmless groupID cID)
      { store, calls := Function.update pool.calls call (.marking groupID cID) } := by
    refine ⟨deleted_withdrawn undisturbed.closed undisturbed.spent piece rfl, fun other => ?_⟩
    dsimp only
    rcases eq_or_ne other call with rfl | different
    · rw [Function.update_self]
      exact ⟨id, id, own rfl⟩
    · rw [Function.update_of_ne different]
      exact undisturbed.harmless other
  refine (System.run_begun (AccessCall.Denies groupID cID) ran start ?_ ?_).2
  · intro other request member
    have denies : (AccessCall.begin request).Denies groupID cID := by
      cases request <;> exact fun _ same => nomatch same
    refine ⟨?_, denies⟩
    have cases_ : request = .groupAllowedOnCluster groupID cID ∨ .start other request ∈ earlier ++ later := by
      rcases List.mem_append.mp member with first | rest
      · exact .inr (List.mem_append_left _ first)
      · rcases List.mem_cons.mp rest with same | last
        · cases same
          exact .inl rfl
        · exact .inr (List.mem_append_right _ last)
    obtain rfl | listed := cases_
    · exact ⟨id, id, own rfl⟩
    · exact harmless other request listed
  · rintro current store moved after withdrawn mine advanced
    obtain ⟨busy, ran⟩ := System.advance_ofPieces advanced
    exact (AccessCall.returns_piece_withdrawn undisturbed.apart withdrawn mine busy).of_ok ran

/-- A group has access to a cluster, and nothing is cached. -/
def grantedServer : Server where
  database := { access := AList.insert ("cluster_1", "group_1") () ∅ }

def grantedPool : Pool Server AccessCall := { store := grantedServer, calls := fun _ => .ready }

/-- The second call reads the table after the first has dropped what is cached and before it deletes the
record; it then caches what it has read, and the third call, which begins after the revocation has
returned, still finds it. -/
theorem revoked_access_found :
    (accessSystem.run ([.start 0 (.removeGroupFromCluster "group_1" "cluster_1"), .advance 0,
        .start 1 (.groupAllowedOnCluster "group_1" "cluster_1")] ++ List.replicate 7 (.advance 1) ++
        [.advance 0, .advance 0, .advance 1, .start 2 (.groupAllowedOnCluster "group_1" "cluster_1")] ++
        List.replicate 3 (.advance 2)) grantedPool).map
      (fun pool => (pool.calls 0, pool.calls 2, pool.store.database.access.lookup ("cluster_1", "group_1"))) =
    some (.revoked "group_1" "cluster_1" true, .decided "group_1" "cluster_1" true, none) := rfl

/-- The first call is about to delete the record of a group's access, and nothing
disturbs it. -/
def revokingPool : Pool Server AccessCall where
  store := grantedServer
  calls := fun call => if call = 0 then .deleting "group_1" "cluster_1" else .ready

def revokedPool : Pool Server AccessCall := (accessSystem.step (.advance 0) revokingPool).getD revokingPool

def refusedPool : Pool Server AccessCall :=
  (accessSystem.run (.start 1 (.groupAllowedOnCluster "group_1" "cluster_1") :: List.replicate 8 (.advance 1))
    revokedPool).getD revokedPool

theorem revoked_access_denied_run :
    refusedPool.calls 1 = .decided "group_1" "cluster_1" false ∧
      ∀ answer, refusedPool.calls 1 = .decided "group_1" "cluster_1" answer → answer = false := by
  have stepped : accessSystem.step (.advance 0) revokingPool = some revokedPool := rfl
  have ran : accessSystem.run ([] ++ .start 1 (.groupAllowedOnCluster "group_1" "cluster_1") ::
      List.replicate 8 (.advance 1)) revokedPool = some refusedPool := rfl
  have undisturbed : RevocationUndisturbed "group_1" "cluster_1" revokingPool := by
    refine ⟨fun _ => rfl, fun _ _ _ found => (nomatch found), by decide, fun call => ?_⟩
    unfold revokingPool
    dsimp only
    split
    next =>
      refine ⟨id, id, ?_⟩
      rintro ⟨group, same, marker⟩
      cases same
      exact absurd marker (by decide)
    next => exact ⟨id, id, fun ⟨_, same, _⟩ => nomatch same⟩
  exact ⟨rfl, revoked_access_denied rfl stepped rfl undisturbed ran (by simp [List.replicate])⟩

end Slate
