import Slate.Memberships
import Slate.Proofs.UserCaches
import Slate.Proofs.Lookups
import Mathlib.Data.List.Nodup

/-! One category of the cache serves as the single memberships in a group and as
the complete list of its members. Both agree with the table through every
sequence of operations. -/

namespace Slate
open Library

def IsMember (database : Database) (uID groupID : String) : Prop :=
  (database.memberships.lookup (uID, groupID)).isSome = true

def KnownMember (caches : UserCaches) (uID groupID : String) : Prop :=
  (caches.userByGroupCache.entryOf groupID uID).isSome = true

/-- Whatever is cached is a membership, whether or not it has expired, and a
category that is trusted has all of them. -/
structure MembersAgree (server : Server) : Prop where
  faithful : ∀ uID groupID, KnownMember server.users uID groupID → IsMember server.database uID groupID
  complete : ∀ groupID, Trusted server (server.users.userByGroupCache.stamp groupID) →
    ∀ uID, IsMember server.database uID groupID → KnownMember server.users uID groupID

theorem MembersAgree.later {before after : Server} (agree : MembersAgree before) (later : Later before after)
    (memberships : after.database.memberships = before.database.memberships)
    (members : after.users.userByGroupCache = before.users.userByGroupCache) : MembersAgree after := by
  have member : ∀ uID groupID, IsMember after.database uID groupID ↔ IsMember before.database uID groupID := by
    intro uID groupID
    rw [IsMember, IsMember, memberships]
  have known : ∀ uID groupID, KnownMember after.users uID groupID ↔ KnownMember before.users uID groupID := by
    intro uID groupID
    rw [KnownMember, KnownMember, members]
  constructor
  · exact fun uID groupID cached => (member _ _).mpr (agree.faithful _ _ ((known _ _).mp cached))
  · intro groupID trusted uID isMember
    rw [members] at trusted
    exact (known _ _).mpr (agree.complete _ (later.trusted trusted) _ ((member _ _).mp isMember))

private theorem knownMember_insertOrAssign {before after : UserCaches} {uID groupID : String} {expirationTime reading : Time}
    (cache : after.userByGroupCache =
      (before.userByGroupCache.insertOrAssign groupID ⟨uID, expirationTime⟩ reading).2) (uID' groupID' : String) :
    KnownMember after uID' groupID' ↔ (uID' = uID ∧ groupID' = groupID) ∨ KnownMember before uID' groupID' := by
  unfold KnownMember
  rw [cache, ConcurrentMultimap.entryOf_insertOrAssign]
  split
  next same => simp [same.1, same.2]
  next different =>
    have apart : ¬ (uID' = uID ∧ groupID' = groupID) := fun same => different ⟨same.2, same.1⟩
    simp [apart]

private theorem knownMember_eraseValue {before after : UserCaches} {uID groupID : String}
    (cache : after.userByGroupCache = (before.userByGroupCache.eraseValue groupID uID).2) (uID' groupID' : String) :
    KnownMember after uID' groupID' ↔ ¬ (uID' = uID ∧ groupID' = groupID) ∧ KnownMember before uID' groupID' := by
  unfold KnownMember
  rw [cache, ConcurrentMultimap.entryOf_eraseValue]
  split
  next same => simp [same.1, same.2]
  next different =>
    have apart : ¬ (uID' = uID ∧ groupID' = groupID) := fun same => different ⟨same.2, same.1⟩
    simp [apart]

/-- The membership enters the table, if it is not there already, and the cache. -/
theorem MembersAgree.insert {before after : Server} (agree : MembersAgree before) (later : Later before after)
    (uID groupID : String) {expirationTime reading : Time}
    (table : ∀ uID' groupID', IsMember after.database uID' groupID' ↔
      (uID' = uID ∧ groupID' = groupID) ∨ IsMember before.database uID' groupID')
    (cache : after.users.userByGroupCache =
      (before.users.userByGroupCache.insertOrAssign groupID ⟨uID, expirationTime⟩ reading).2)
    (steady : Steady after) (passed : reading ≤ after.clock 0) : MembersAgree after := by
  have known := knownMember_insertOrAssign cache
  constructor
  · intro uID' groupID' cached
    exact (table _ _).mpr (((known _ _).mp cached).imp id (agree.faithful _ _))
  · intro groupID' trusted uID' member
    rw [cache, ConcurrentMultimap.stamp_insertOrAssign] at trusted
    split at trusted
    next => exact absurd trusted (steady.not_trusted passed)
    next => exact (known _ _).mpr (((table _ _).mp member).imp id (agree.complete _ (later.trusted trusted) _))

/-- The membership leaves the cache and the table. -/
theorem MembersAgree.remove {before after : Server} (agree : MembersAgree before) (later : Later before after)
    (uID groupID : String)
    (table : ∀ uID' groupID', IsMember after.database uID' groupID' ↔
      ¬ (uID' = uID ∧ groupID' = groupID) ∧ IsMember before.database uID' groupID')
    (cache : after.users.userByGroupCache = (before.users.userByGroupCache.eraseValue groupID uID).2) :
    MembersAgree after := by
  have known := knownMember_eraseValue cache
  constructor
  · intro uID' groupID' cached
    exact (table _ _).mpr (((known _ _).mp cached).imp id (agree.faithful _ _))
  · intro groupID' trusted uID' member
    have kept : Trusted after (before.users.userByGroupCache.stamp groupID') := by
      rw [cache] at trusted
      obtain same | zero := ConcurrentMultimap.stamp_eraseValue before.users.userByGroupCache groupID groupID' uID
      · rwa [same] at trusted
      · rw [zero] at trusted
        exact absurd trusted (not_trusted_zero _)
    exact (known _ _).mpr (((table _ _).mp member).imp id (agree.complete _ (later.trusted kept) _))

/-- A category that has all members may be stamped. -/
theorem MembersAgree.stamp {before after : Server} (agree : MembersAgree before) (later : Later before after)
    {groupID : String} {time : Time} (memberships : after.database.memberships = before.database.memberships)
    (cache : after.users.userByGroupCache = (before.users.userByGroupCache.updateExpiration groupID time).2)
    (filled : ∀ uID, IsMember before.database uID groupID → KnownMember before.users uID groupID) :
    MembersAgree after := by
  have member : ∀ uID groupID, IsMember after.database uID groupID ↔ IsMember before.database uID groupID := by
    intro uID groupID
    rw [IsMember, IsMember, memberships]
  have known : ∀ uID groupID, KnownMember after.users uID groupID ↔ KnownMember before.users uID groupID := by
    intro uID groupID
    rw [KnownMember, KnownMember, cache, ConcurrentMultimap.entryOf_updateExpiration]
  constructor
  · exact fun uID groupID cached => (member _ _).mpr (agree.faithful _ _ ((known _ _).mp cached))
  · intro groupID' trusted uID isMember
    have before := (member _ _).mp isMember
    rw [cache, ConcurrentMultimap.stamp_updateExpiration] at trusted
    split at trusted
    next same => exact (known _ _).mpr (same.1 ▸ filled uID (same.1 ▸ before))
    next => exact (known _ _).mpr (agree.complete _ (later.trusted trusted) _ before)

structure MembershipsConsistent (server : Server) : Prop where
  succeeding : Succeeding server
  steady : Steady server
  users : UsersAgree server.database.users server.users
  groups : GroupsAgree server.database.groups server.groups
  names : ∀ name, GroupNameUnique server.database.groups name
  existing : ∀ uID groupID, IsMember server.database uID groupID → ∃ item, server.database.users.lookup uID = some item
  members : MembersAgree server

theorem MembershipsConsistent.looked {before after : Server} (consistent : MembershipsConsistent before)
    (looked : Looked before after) : MembershipsConsistent after where
  succeeding := looked.succeeding consistent.succeeding
  steady := looked.steady consistent.steady
  users := looked.database ▸ looked.users consistent.users
  groups := looked.database ▸ looked.groups consistent.groups
  names := looked.database ▸ consistent.names
  existing := looked.database ▸ consistent.existing
  members := consistent.members.later looked.toLater (by rw [looked.database]) looked.members

theorem UsersAgree.of_eq {table : FiniteMap String UserItem} {caches other : UserCaches} (agree : UsersAgree table caches)
    (byID : other.userCache = caches.userCache) (byToken : other.userByTokenCache = caches.userByTokenCache)
    (byGlobusID : other.userByGlobusIDCache = caches.userByGlobusIDCache) : UsersAgree table other := by
  obtain ⟨first, second, third⟩ := agree
  exact ⟨byID ▸ first, by rw [byToken, byID]; exact second, by rw [byGlobusID, byID]; exact third⟩

/-- Caching a membership that the table holds. -/
theorem returns_cacheMembership {server : Server} (consistent : MembershipsConsistent server) {uID groupID : String}
    (member : IsMember server.database uID groupID) :
    Returns (cacheMembership uID groupID) server fun _ after => MembershipsConsistent after ∧
      after.database = server.database ∧ after.users.userCache = server.users.userCache ∧
      ∀ uID' groupID', KnownMember after.users uID' groupID' ↔
        (uID' = uID ∧ groupID' = groupID) ∨ KnownMember server.users uID' groupID' := by
  unfold cacheMembership
  simp only [returns_bind, returns_lasting, returns_now, returns_modify]
  have passing := (Looked.tick server).trans (.tick _)
  have current := consistent.looked passing
  refine ⟨⟨current.succeeding, current.steady, current.users.of_eq rfl rfl rfl, current.groups, current.names,
    current.existing, ?_⟩, rfl, rfl, knownMember_insertOrAssign rfl⟩
  refine consistent.members.insert (passing.toLater.trans (.of_eq rfl rfl)) uID groupID
    (fun uID' groupID' => ⟨.inr, ?_⟩) rfl current.steady (consistent.steady (by decide : 1 ≤ 2))
  rintro (⟨rfl, rfl⟩ | already)
  · exact member
  · exact already

theorem isMember_insert {before after : Database} {uID groupID : String}
    (table : after.memberships = AList.insert (uID, groupID) () before.memberships) (uID' groupID' : String) :
    IsMember after uID' groupID' ↔ (uID' = uID ∧ groupID' = groupID) ∨ IsMember before uID' groupID' := by
  rw [IsMember, table, FiniteMap.lookup_insert]
  split
  next same => simp [Prod.mk.injEq] at same; simp [same]
  next different =>
    have apart : ¬ (uID' = uID ∧ groupID' = groupID) := fun same => different (by rw [same.1, same.2])
    simp [apart, IsMember]

theorem isMember_erase {before after : Database} {uID groupID : String}
    (table : after.memberships = AList.erase (uID, groupID) before.memberships) (uID' groupID' : String) :
    IsMember after uID' groupID' ↔ ¬ (uID' = uID ∧ groupID' = groupID) ∧ IsMember before uID' groupID' := by
  rw [IsMember, table, FiniteMap.lookup_erase]
  split
  next same => simp [Prod.mk.injEq] at same; simp [same]
  next different =>
    have apart : ¬ (uID' = uID ∧ groupID' = groupID) := fun same => different (by rw [same.1, same.2])
    simp [apart, IsMember]

/-- Whatever it finds, a lookup of a group is a lookup; so is one of a user. -/
theorem returns_findGroupByID (groupID : String) (server : Server) {post : Group → Server → Prop}
    (next : ∀ group after, Looked server after → post group after) : Returns (findGroupByID groupID) server post := by
  unfold findGroupByID
  simp only [returns_bind, returns_get]
  refine returns_cached (fun _ _ _ => next _ _ (.tick server)) fun passed moved => ?_
  have asked := (Looked.missed moved).trans (.answered passed)
  simp only [returns_bind, returns_request, returns_ite, returns_pure, returns_get]
  split
  next =>
    split
    next => exact next _ _ asked
    next item found =>
      simp only [returns_bind, returns_pure]
      exact returns_cacheGroup (groupHeld_of_lookup found) fun after filled => next _ _ (asked.trans filled)
  next => exact next _ _ asked

theorem returns_getUser_looked (id : String) (server : Server) {post : User → Server → Prop}
    (next : ∀ user after, Looked server after → post user after) : Returns (getUser id) server post := by
  unfold getUser
  simp only [returns_bind, returns_get]
  refine returns_cached (fun _ _ _ => next _ _ (.tick server)) fun passed moved => ?_
  have asked := (Looked.missed moved).trans (.answered passed)
  simp only [returns_bind, returns_request, returns_ite, returns_pure, returns_get]
  split
  next =>
    split
    next => exact next _ _ asked
    next item found =>
      simp only [returns_bind, returns_pure]
      exact returns_cacheUser (userHeld_of_lookup found) fun after filled => next _ _ (asked.trans filled)
  next => exact next _ _ asked

theorem returns_cacheGroupOfUser {server : Server} (userID : String) (group : Group) {post : Unit → Server → Prop}
    (next : ∀ after, Looked server after → post ⟨⟩ after) : Returns (cacheGroupOfUser userID group) server post := by
  unfold cacheGroupOfUser
  simp only [returns_bind, returns_lasting, returns_now, returns_modify]
  apply next
  have passing := (Looked.tick server).trans (.tick _)
  exact { passing with groups := fun agree => ⟨agree.byID, agree.byName⟩ }

theorem returns_forgetGroupOfUser {server : Server} (uID groupID : String) {post : Unit → Server → Prop}
    (next : ∀ after, Looked server after → post ⟨⟩ after) : Returns (forgetGroupOfUser uID groupID) server post := by
  unfold forgetGroupOfUser
  simp only [returns_modify]
  apply next
  cases server.groups.groupCache.lookup groupID with
  | none => exact .refl server
  | some record => exact { Looked.refl server with groups := fun agree => ⟨agree.byID, agree.byName⟩ }

/-- Recording a membership and then caching it. -/
theorem returns_recordMembership {server : Server} (consistent : MembershipsConsistent server) {uID : String}
    (groupID : String) (known : ∃ item, server.database.users.lookup uID = some item) :
    Returns (do putMembership uID groupID; cacheMembership uID groupID) server fun _ after =>
      MembershipsConsistent after := by
  unfold putMembership cacheMembership
  simp only [returns_bind, returns_modify, returns_lasting, returns_now]
  exact {
    succeeding := consistent.succeeding
    steady := fun first last order => consistent.steady (by omega)
    users := consistent.users.of_eq rfl rfl rfl
    groups := consistent.groups
    names := consistent.names
    existing := fun uID' groupID' member => by
      obtain ⟨rfl, -⟩ | before := (isMember_insert rfl _ _).mp member
      · exact known
      · exact consistent.existing _ _ before
    members := consistent.members.insert (((Later.of_eq rfl rfl).trans (.tick _)).trans ((Later.tick _).trans (.of_eq rfl rfl)))
      uID groupID (isMember_insert rfl) rfl (fun first last order => consistent.steady (by omega))
      (consistent.steady (by decide : 1 ≤ 2)) }

theorem returns_addUserToGroup {server : Server} (consistent : MembershipsConsistent server) {uID text : String}
    (known : ∃ item, server.database.users.lookup uID = some item) :
    Returns (addUserToGroup uID text) server fun _ after => MembershipsConsistent after := by
  unfold addUserToGroup
  simp only [returns_bind]
  refine returns_normalizeGroupID consistent.succeeding consistent.groups (consistent.names text) ?_ ?_
  · intro groupID normalized looked _
    simp only [returns_bind]
    refine returns_findGroupByID groupID _ fun group found looked' => ?_
    have second := consistent.looked (looked.trans looked')
    refine returns_getUser second.succeeding second.users uID fun user named looked'' _ _ => ?_
    have all := (looked.trans looked').trans looked''
    have third := consistent.looked all
    simp only [returns_request, returns_ite, third.succeeding 0, if_true]
    have recorded := returns_recordMembership (third.looked (.answered named)) groupID
      (all.database ▸ known : ∃ item, named.database.users.lookup uID = some item)
    rw [returns_bind] at recorded
    simp only [returns_bind, returns_pure]
    refine recorded.mono fun _ stored put => put.mono fun _ cached kept => ?_
    exact returns_cacheGroupOfUser user.id group fun after filled => kept.looked filled
  · intro normalized looked _
    simp only [returns_pure]
    exact consistent.looked looked

theorem returns_removeUserFromGroup {server : Server} (consistent : MembershipsConsistent server) (uID text : String) :
    Returns (removeUserFromGroup uID text) server fun removed after =>
      MembershipsConsistent after ∧ (startsWith groupIDPrefix text = true → removed = true) := by
  unfold removeUserFromGroup
  simp only [returns_bind]
  refine returns_normalizeGroupID consistent.succeeding consistent.groups (consistent.names text) ?_ ?_
  · intro groupID normalized looked _
    have second := consistent.looked looked
    unfold forgetMembership deleteMembership
    simp only [returns_bind, returns_modify]
    refine returns_forgetGroupOfUser uID groupID fun forgotten looked' => ?_
    have succeeding : Succeeding forgotten := looked'.succeeding second.succeeding
    simp only [returns_request, returns_ite, succeeding 0, if_true, returns_bind, returns_modify, returns_pure]
    have passing : Later normalized forgotten.answered :=
      ⟨looked'.toLater.clock, (looked'.toLater.trans (.answered forgotten)).outcomes⟩
    refine ⟨?_, fun _ => trivial⟩
    exact {
      succeeding := fun n => succeeding _
      steady := passing.steady second.steady
      users := looked'.database ▸ (looked'.users (second.users.of_eq rfl rfl rfl)).of_eq rfl rfl rfl
      groups := looked'.database ▸ looked'.groups second.groups
      names := looked'.database ▸ second.names
      existing := fun uID' groupID' member => by
        have before := ((isMember_erase rfl _ _).mp member).2
        rw [answered_database, looked'.database] at before
        obtain ⟨item, found⟩ := second.existing _ _ before
        exact ⟨item, looked'.database ▸ found⟩
      members := second.members.remove (passing.trans (.of_eq rfl rfl)) uID groupID
        (isMember_erase (by rw [answered_database, looked'.database])) looked'.members }
  · intro normalized looked absent
    simp only [returns_pure]
    refine ⟨consistent.looked looked, fun known => ?_⟩
    exact absurd (by rw [DesignatesGroup, if_pos known]) (absent text)

end Slate
