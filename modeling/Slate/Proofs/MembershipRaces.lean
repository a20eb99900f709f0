import Slate.MembershipCalls
import Slate.Proofs.MembershipCache

/-! Whether a removal of a member is effective while other calls run. It is when no
decision is about to cache the membership at the moment it leaves the table. -/

namespace Slate
open Library

structure Unknown (uID groupID : String) (server : Server) : Prop where
  absent : server.database.memberships.lookup (uID, groupID) = none
  spent : Spent server (server.users.userByGroupCache.entryOf groupID uID)

namespace MembershipCall

def Adds (uID groupID : String) : MembershipCall → Prop
  | adding user group => user = uID ∧ group = groupID
  | putting user group _ _ => user = uID ∧ group = groupID
  | cachingMember user group _ _ => user = uID ∧ group = groupID
  | _ => False

/-- The call has found the membership and is about to cache it. -/
def Confirms (uID groupID : String) : MembershipCall → Prop
  | confirmed user group => user = uID ∧ group = groupID
  | _ => False

def Denies (uID groupID : String) (call : MembershipCall) : Prop :=
  ∀ answer, call = decided uID groupID answer → answer = false

end MembershipCall

theorem Unknown.looked {uID groupID : String} {before after : Server} (unknown : Unknown uID groupID before)
    (looked : Looked before after) : Unknown uID groupID after where
  absent := by
    rw [looked.database]
    exact unknown.absent
  spent := by
    rw [looked.members]
    exact unknown.spent.later looked.toLater

/-- Caching another membership. -/
theorem returns_cacheMembership_other {uID groupID user group : String} (different : ¬ (user = uID ∧ group = groupID))
    {server : Server} (unknown : Unknown uID groupID server) :
    Returns (cacheMembership user group) server fun _ after => Unknown uID groupID after := by
  unfold cacheMembership
  simp only [returns_bind, returns_lasting, returns_now, returns_modify]
  have passed := unknown.looked ((Looked.tick server).trans (.tick _))
  refine ⟨passed.absent, ?_⟩
  dsimp only
  rw [ConcurrentMultimap.entryOf_insertOrAssign, if_neg]
  · exact passed.spent
  · rintro ⟨rfl, rfl⟩
    exact different ⟨rfl, rfl⟩

/-- What a step leaves behind of a call that neither adds the member nor is about to
cache it. -/
def LeftUnknown (uID groupID : String) (moved : MembershipCall) (after : Server) : Prop :=
  Unknown uID groupID after ∧ ¬ moved.Adds uID groupID ∧ ¬ moved.Confirms uID groupID ∧ moved.Denies uID groupID

namespace MembershipCall

section

attribute [local simp] MembershipCall.piece

variable {uID groupID : String} {server : Server} (unknown : Unknown uID groupID server)
include unknown

private theorem returns_looking_unknown {user group : String} :
    Returns (looking user group).piece server (LeftUnknown uID groupID) := by
  simp only [MembershipCall.piece, membershipLookup, returns_bind, returns_get]
  split
  next =>
    simp only [returns_pure]
    exact ⟨unknown, id, id, fun _ same => by cases same⟩
  next record found =>
    simp only [returns_bind, returns_current, returns_ite, returns_pure, decide_eq_true_eq]
    have passed := unknown.looked (.tick server)
    split
    next valid =>
      refine ⟨passed.looked (.tick _), id, id, fun answer same => ?_⟩
      cases same
      exact absurd (unknown.spent record found 0) (Nat.not_lt.mpr valid)
    next => exact ⟨passed, id, id, fun _ same => by cases same⟩

private theorem returns_querying_unknown {user group : String} :
    Returns (querying user group).piece server (LeftUnknown uID groupID) := by
  simp only [MembershipCall.piece, membershipQuery, returns_bind, returns_request, returns_ite, returns_pure,
    returns_get]
  have asked := unknown.looked (.answered server)
  split
  next =>
    split
    next found =>
      refine ⟨asked, id, ?_, fun _ same => by cases same⟩
      rintro ⟨rfl, rfl⟩
      rw [asked.absent] at found
      cases found
    next => exact ⟨asked, id, id, fun answer same => by cases same; rfl⟩
  next =>
    simp only [Bool.false_eq_true, if_false]
    exact ⟨asked, id, id, fun answer same => by cases same; rfl⟩

private theorem returns_confirmed_unknown {user group : String}
    (confirms : ¬ (confirmed user group).Confirms uID groupID) :
    Returns (confirmed user group).piece server (LeftUnknown uID groupID) := by
  simp only [MembershipCall.piece, returns_bind, returns_pure]
  refine (returns_cacheMembership_other confirms unknown).mono fun _ after kept => ⟨kept, id, id, ?_⟩
  intro answer same
  cases same
  exact absurd ⟨rfl, rfl⟩ confirms

private theorem returns_adding_unknown {user group : String} (adds : ¬ (adding user group).Adds uID groupID) :
    Returns (adding user group).piece server (LeftUnknown uID groupID) := by
  simp only [MembershipCall.piece, returns_bind, returns_pure]
  refine returns_findGroupByID group server fun found middle looked => ?_
  refine returns_getUser_looked user middle fun _ after looked' => ?_
  exact ⟨unknown.looked (looked.trans looked'), adds, id, fun _ same => by cases same⟩

private theorem returns_putting_unknown {user group : String} {found : Group} {member : User}
    (adds : ¬ (putting user group found member).Adds uID groupID) :
    Returns (putting user group found member).piece server (LeftUnknown uID groupID) := by
  simp only [MembershipCall.piece, putMembership, returns_bind, returns_request, returns_ite, returns_pure,
    returns_modify]
  have asked := unknown.looked (.answered server)
  split
  next =>
    refine ⟨⟨?_, asked.spent⟩, adds, id, fun _ same => by cases same⟩
    dsimp only
    rw [FiniteMap.lookup_insert, if_neg]
    · exact asked.absent
    · intro same
      cases same
      exact adds ⟨rfl, rfl⟩
  next => exact ⟨asked, id, id, fun _ same => by cases same⟩

private theorem returns_cachingMember_unknown {user group : String} {found : Group} {member : User}
    (adds : ¬ (cachingMember user group found member).Adds uID groupID) :
    Returns (cachingMember user group found member).piece server (LeftUnknown uID groupID) := by
  simp only [MembershipCall.piece, returns_bind, returns_pure]
  exact (returns_cacheMembership_other adds unknown).mono fun _ after kept =>
    ⟨kept, id, id, fun _ same => by cases same⟩

private theorem returns_cachingGroup_unknown {user group : String} {found : Group} {member : User} :
    Returns (cachingGroup user group found member).piece server (LeftUnknown uID groupID) := by
  simp only [MembershipCall.piece, returns_bind, returns_pure]
  exact returns_cacheGroupOfUser _ found fun after looked =>
    ⟨unknown.looked looked, id, id, fun _ same => by cases same⟩

private theorem returns_removing_unknown {user group : String} :
    Returns (removing user group).piece server (LeftUnknown uID groupID) := by
  simp only [MembershipCall.piece, forgetMembership, returns_bind, returns_modify, returns_pure]
  refine ⟨⟨unknown.absent, ?_⟩, id, id, fun _ same => by cases same⟩
  dsimp only
  rw [ConcurrentMultimap.entryOf_eraseValue]
  split
  next => exact fun _ found => by cases found
  next => exact unknown.spent.later (.of_eq rfl rfl)

private theorem returns_forgettingGroup_unknown {user group : String} :
    Returns (forgettingGroup user group).piece server (LeftUnknown uID groupID) := by
  simp only [MembershipCall.piece, returns_bind, returns_pure]
  exact returns_forgetGroupOfUser user group fun after looked =>
    ⟨unknown.looked looked, id, id, fun _ same => by cases same⟩

private theorem returns_deleting_unknown {user group : String} :
    Returns (deleting user group).piece server (LeftUnknown uID groupID) := by
  simp only [MembershipCall.piece, deleteMembership, returns_bind, returns_request, returns_ite, returns_pure,
    returns_modify]
  have asked := unknown.looked (.answered server)
  split
  next =>
    refine ⟨⟨?_, asked.spent⟩, id, id, fun _ same => by cases same⟩
    dsimp only
    rw [FiniteMap.lookup_erase]
    split
    next => rfl
    next => exact asked.absent
  next => exact ⟨asked, id, id, fun _ same => by cases same⟩

end

theorem returns_piece_unknown {uID groupID : String} {call : MembershipCall} {server : Server}
    (unknown : Unknown uID groupID server) (adds : ¬ call.Adds uID groupID) (confirms : ¬ call.Confirms uID groupID)
    (busy : call.idle = false) : Returns call.piece server (LeftUnknown uID groupID) := by
  cases call with
  | ready => cases busy
  | decided => cases busy
  | added => cases busy
  | removed => cases busy
  | looking => exact returns_looking_unknown unknown
  | querying => exact returns_querying_unknown unknown
  | confirmed => exact returns_confirmed_unknown unknown confirms
  | adding => exact returns_adding_unknown unknown adds
  | putting => exact returns_putting_unknown unknown adds
  | cachingMember => exact returns_cachingMember_unknown unknown adds
  | cachingGroup => exact returns_cachingGroup_unknown unknown
  | removing => exact returns_removing_unknown unknown
  | forgettingGroup => exact returns_forgettingGroup_unknown unknown
  | deleting => exact returns_deleting_unknown unknown

end MembershipCall

/-- When a removal deletes the membership, no record of it that is cached is still to
be valid, and no decision is about to cache it. -/
structure RemovalUndisturbed (uID groupID : String) (pool : Pool Server MembershipCall) : Prop where
  spent : Spent pool.store (pool.store.users.userByGroupCache.entryOf groupID uID)
  confirms : ∀ call, ¬ (pool.calls call).Confirms uID groupID

private theorem deleted_unknown {uID groupID : String} {server after : Server} {moved : MembershipCall}
    (spent : Spent server (server.users.userByGroupCache.entryOf groupID uID))
    (stepped : (MembershipCall.deleting uID groupID).piece server = .ok moved after)
    (succeeded : moved = .removed uID groupID true) : Unknown uID groupID after := by
  have deletes : Returns (MembershipCall.deleting uID groupID).piece server fun moved after =>
      moved = .removed uID groupID true → Unknown uID groupID after := by
    simp only [MembershipCall.piece, deleteMembership, returns_bind, returns_request, returns_ite, returns_pure,
      returns_modify]
    split
    next =>
      refine fun _ => ⟨?_, spent.later ((Later.answered server).trans (.of_eq rfl rfl))⟩
      dsimp only
      rw [FiniteMap.lookup_erase, if_pos rfl]
    next => exact fun same => by cases same
  exact deletes.of_ok stepped succeeded

/-- Once a removal has deleted the membership undisturbed, while no call is adding
it, every decision that begins afterwards denies it, as long as no call sets out to
add it again. -/
theorem removed_member_denied {uID groupID : String} {pool removed final : Pool Server MembershipCall} {call : Nat}
    (deletes : pool.calls call = .deleting uID groupID)
    (stepped : membershipSystem.step (.advance call) pool = some removed)
    (succeeded : removed.calls call = .removed uID groupID true)
    (noneAdding : ∀ other, ¬ (pool.calls other).Adds uID groupID) (undisturbed : RemovalUndisturbed uID groupID pool)
    {reader : Nat} {earlier later : List (Event MembershipRequest)}
    (ran : membershipSystem.run (earlier ++ .start reader (.userInGroup uID groupID) :: later) removed = some final)
    (noAdds : ∀ other, .start other (.addUserToGroup uID groupID) ∉ earlier ++ later) :
    ∀ answer, final.calls reader = .decided uID groupID answer → answer = false := by
  obtain ⟨moved, store, advanced, rfl⟩ := System.step_advance stepped
  obtain ⟨-, piece⟩ := System.advance_ofPieces advanced
  rw [deletes] at piece
  obtain rfl : moved = .removed uID groupID true := by simpa using succeeded
  have start : System.Confined (Unknown uID groupID)
      (fun _ current => ¬ current.Adds uID groupID ∧ ¬ current.Confirms uID groupID)
      { store, calls := Function.update pool.calls call (.removed uID groupID true) } := by
    refine ⟨deleted_unknown undisturbed.spent piece rfl, fun other => ?_⟩
    dsimp only
    rcases eq_or_ne other call with rfl | different
    · rw [Function.update_self]
      exact ⟨id, id⟩
    · rw [Function.update_of_ne different]
      exact ⟨noneAdding other, undisturbed.confirms other⟩
  refine (System.run_begun (MembershipCall.Denies uID groupID) ran start ?_ ?_).2
  · intro call request member
    cases request with
    | userInGroup user group => exact ⟨⟨id, id⟩, fun _ same => nomatch same⟩
    | removeUserFromGroup user group => exact ⟨⟨id, id⟩, fun _ same => nomatch same⟩
    | addUserToGroup user group =>
      refine ⟨⟨?_, id⟩, fun _ same => nomatch same⟩
      rintro ⟨rfl, rfl⟩
      exact noAdds call (by simpa using member)
  · rintro current store moved after unknown ⟨adds, confirms⟩ advanced
    obtain ⟨busy, ran⟩ := System.advance_ofPieces advanced
    obtain ⟨kept, adds', confirms', denies⟩ := (MembershipCall.returns_piece_unknown unknown adds confirms busy).of_ok ran
    exact ⟨kept, ⟨adds', confirms'⟩, denies⟩

/-- A member of a group, and nothing cached. -/
def memberServer : Server where
  database := { memberships := AList.insert ("user_1", "group_1") () ∅ }

def memberPool : Pool Server MembershipCall := { store := memberServer, calls := fun _ => .ready }

/-- The second call reads the table after the first has dropped what is cached and
before it deletes the membership; it then caches what it has read, and the third
call, which begins after the removal has returned, still finds it. -/
theorem removed_member_found :
    (membershipSystem.run [.start 0 (.removeUserFromGroup "user_1" "group_1"), .advance 0, .advance 0,
        .start 1 (.userInGroup "user_1" "group_1"), .advance 1, .advance 1, .advance 0, .advance 1,
        .start 2 (.userInGroup "user_1" "group_1"), .advance 2] memberPool).map
      (fun pool => (pool.calls 0, pool.calls 2, pool.store.database.memberships.lookup ("user_1", "group_1"))) =
    some (.removed "user_1" "group_1" true, .decided "user_1" "group_1" true, none) := rfl

/-- The first call is about to delete the membership, and nothing disturbs it. -/
def deletingPool : Pool Server MembershipCall where
  store := memberServer
  calls := fun call => if call = 0 then .deleting "user_1" "group_1" else .ready

def deletedPool : Pool Server MembershipCall := (membershipSystem.step (.advance 0) deletingPool).getD deletingPool

def deniedPool : Pool Server MembershipCall :=
  (membershipSystem.run [.start 1 (.userInGroup "user_1" "group_1"), .advance 1, .advance 1] deletedPool).getD deletedPool

theorem removed_member_denied_run :
    deniedPool.calls 1 = .decided "user_1" "group_1" false ∧
      ∀ answer, deniedPool.calls 1 = .decided "user_1" "group_1" answer → answer = false := by
  have stepped : membershipSystem.step (.advance 0) deletingPool = some deletedPool := rfl
  have ran : membershipSystem.run ([] ++ .start 1 (.userInGroup "user_1" "group_1") :: [.advance 1, .advance 1])
      deletedPool = some deniedPool := rfl
  have noneAdding : ∀ call, ¬ (deletingPool.calls call).Adds "user_1" "group_1" := by
    intro call
    unfold deletingPool
    dsimp only
    split <;> exact id
  have undisturbed : RemovalUndisturbed "user_1" "group_1" deletingPool := by
    refine ⟨fun _ found => (nomatch found), fun call => ?_⟩
    unfold deletingPool
    dsimp only
    split <;> exact id
  exact ⟨rfl, removed_member_denied rfl stepped rfl noneAdding undisturbed ran (by simp)⟩

end Slate
