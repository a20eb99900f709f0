import Slate.Proofs.MembershipCache

/-! Decisions on memberships and listings of members, over every sequence of
operations on groups and their members. -/

namespace Slate
open Library

inductive MembershipOperation where
  | addUserToGroup (uID group : String)
  | removeUserFromGroup (uID group : String)
  | userInGroup (uID group : String)
  | listUsersByGroup (groupID : String)
  | addGroup (group : Group)
  | removeGroup (groupID : String)
  deriving DecidableEq, Repr

namespace MembershipOperation

def execute : MembershipOperation → StoreM Unit
  | .addUserToGroup uID group => do let _ ← Slate.addUserToGroup uID group
  | .removeUserFromGroup uID group => do let _ ← Slate.removeUserFromGroup uID group
  | .userInGroup uID group => do let _ ← Slate.userInGroup uID group
  | .listUsersByGroup groupID => do let _ ← Slate.listUsersByGroup groupID
  | .addGroup group => do let _ ← Slate.addGroup group
  | .removeGroup groupID => do let _ ← Slate.removeGroup groupID

/-- Users who become members exist; a new group has a fresh ID and an unused
name, and no attribute that must not be empty is empty; a group is removed by ID. -/
def permitted : MembershipOperation → Server → Prop
  | .addUserToGroup uID _, server => ∃ item, server.database.users.lookup uID = some item
  | .addGroup group, server => group.valid = true ∧ server.database.groups.lookup group.id = none ∧
      (∀ id item, server.database.groups.lookup id = some item → item.name ≠ group.name) ∧
      group.email ≠ "" ∧ group.phone ≠ "" ∧ group.scienceField ≠ "" ∧ group.description ≠ ""
  | .removeGroup groupID, _ => startsWith groupIDPrefix groupID = true
  | _, _ => True

end MembershipOperation

/-- A cached membership that a decision finds valid is still valid when the
decision looks at the clock again. -/
def OutlastsChecks (server : Server) (uID groupID : String) : Prop :=
  ∀ record, server.users.userByGroupCache.findValue groupID uID = some record →
    server.clock 0 ≤ record.expirationTime → server.clock 1 ≤ record.expirationTime

private theorem knownMember_of_findValue {caches : UserCaches} {uID groupID : String} {record : CacheRecord String}
    (found : caches.userByGroupCache.findValue groupID uID = some record) : KnownMember caches uID groupID :=
  Option.isSome_iff_exists.mpr ⟨record, found⟩

private theorem returns_confirmMembership {server : Server} (consistent : MembershipsConsistent server) (uID groupID : String) :
    Returns (confirmMembership uID groupID) server fun answer after => MembershipsConsistent after ∧
      after.database = server.database ∧ (answer = true ↔ IsMember server.database uID groupID) := by
  have asked := Looked.answered server
  have kept := consistent.looked asked
  unfold confirmMembership membershipQuery
  simp only [returns_bind, returns_request, returns_ite, consistent.succeeding 0, if_true, returns_get, returns_pure]
  split
  next found =>
    refine (returns_cacheMembership kept (found : IsMember server.answered.database uID groupID)).mono ?_
    rintro _ after ⟨last, same, -, -⟩
    exact ⟨last, same, by simpa [IsMember] using found⟩
  next absent => exact ⟨kept, rfl, by simpa [IsMember] using absent⟩

/-- The decision is right unless a cached record expires between its two looks
at the clock; then it denies a membership. -/
theorem returns_decideMembership {server : Server} (consistent : MembershipsConsistent server) (uID groupID : String) :
    Returns (decideMembership uID groupID) server fun answer after => MembershipsConsistent after ∧
      after.database = server.database ∧
      ((answer = true ↔ IsMember server.database uID groupID) ↔ OutlastsChecks server uID groupID) := by
  have confirmed : ∀ current, Looked server current →
      (∀ record, server.users.userByGroupCache.findValue groupID uID = some record →
        ¬ server.clock 0 ≤ record.expirationTime) →
      Returns (confirmMembership uID groupID) current fun answer after => MembershipsConsistent after ∧
        after.database = server.database ∧
        ((answer = true ↔ IsMember server.database uID groupID) ↔ OutlastsChecks server uID groupID) := by
    intro current looked stale
    refine (returns_confirmMembership (consistent.looked looked) uID groupID).mono ?_
    rintro answer after ⟨kept, same, right⟩
    rw [looked.database] at same right
    exact ⟨kept, same, iff_of_true right fun record found valid => absurd valid (stale record found)⟩
  unfold decideMembership membershipLookup
  simp only [returns_bind, returns_get]
  cases found : server.users.userByGroupCache.findValue groupID uID with
  | none =>
    simp only [returns_pure]
    exact confirmed server (.refl server) fun record same => by rw [found] at same; cases same
  | some record =>
    simp only [returns_bind, returns_current, returns_ite, returns_pure, decide_eq_true_eq]
    split
    next valid =>
      have member := consistent.members.faithful _ _ (knownMember_of_findValue found)
      refine ⟨consistent.looked ((Looked.tick server).trans (.tick _)), rfl, ?_⟩
      simp only [tick_clock, member, iff_true, OutlastsChecks, found, Option.some.injEq]
      exact ⟨fun still other same _ => same ▸ still, fun outlasts => outlasts record rfl valid⟩
    next stale =>
      refine confirmed _ (.tick server) fun other same => ?_
      rw [found] at same
      cases same
      exact stale

/-- A decision on a string: right exactly when no record expires between the
looks, after the normalization has taken its readings. -/
theorem userInGroup_right_iff {server : Server} (consistent : MembershipsConsistent server) (uID text : String) :
    Returns (userInGroup uID text) server (fun answer _ => answer = true ↔
      ∃ groupID, DesignatesGroup server.database text groupID ∧ IsMember server.database uID groupID) ↔
    Returns (normalizeGroupID text false) server (fun normalized passed =>
      ∀ groupID, normalized = some groupID → OutlastsChecks passed uID groupID) := by
  have known : Returns (normalizeGroupID text false) server fun normalized passed => Looked server passed ∧
      ∀ groupID, normalized = some groupID ↔ DesignatesGroup server.database text groupID := by
    refine returns_normalizeGroupID consistent.succeeding consistent.groups (consistent.names text) ?_ ?_
    · intro groupID after looked designated
      refine ⟨looked, fun other => ⟨fun same => Option.some.inj same ▸ designated, fun also => ?_⟩⟩
      rw [designated.unique (consistent.names text) also]
    · intro after looked absent
      exact ⟨looked, fun other => ⟨fun same => (nomatch same), fun also => absurd also (absent other)⟩⟩
  unfold userInGroup
  rw [returns_bind]
  refine known.congr ?_
  · rintro normalized passed ⟨looked, designated⟩
    cases normalized with
    | none =>
      have absent : ∀ groupID, ¬ DesignatesGroup server.database text groupID :=
        fun groupID also => by cases (designated groupID).mpr also
      simp [absent]
    | some groupID =>
      have only : ∀ other, DesignatesGroup server.database text other ↔ groupID = other :=
        fun other => (designated other).symm.trans (by simp)
      have decided := returns_decideMembership (consistent.looked looked) uID groupID
      rw [looked.database] at decided
      obtain ⟨answer, after, ran, -, -, right⟩ := returns_iff.mp decided
      simp only [Returns, ran, only, exists_eq_left', Option.some.injEq, forall_eq']
      exact right

/-- The user the table holds for an ID, or the invalid user. -/
def userRecorded (database : Database) (id : String) : User :=
  match database.users.lookup id with
  | some item => userOfItem id item
  | none => {}

theorem Answers.eq_recorded {database : Database} {id : String} {user : User}
    (answers : Answers database (fun key _ => key = id) user) : user = userRecorded database id := by
  unfold userRecorded
  obtain ⟨_, item, found, rfl, same⟩ | ⟨same, none⟩ := answers
  · rw [found]
    exact same
  · cases found : database.users.lookup id with
    | none => exact same
    | some item => exact absurd rfl (none id item found)

theorem userRecorded_id {database : Database} {id : String} (known : ∃ item, database.users.lookup id = some item) :
    (userRecorded database id).id = id := by
  obtain ⟨item, found⟩ := known
  rw [userRecorded, found]
  rfl

/-- The users who are members according to the table, each once. -/
def ListsMembers (database : Database) (groupID : String) (users : List User) : Prop :=
  users.Nodup ∧ ∀ user, user ∈ users ↔
    ∃ uID item, IsMember database uID groupID ∧ database.users.lookup uID = some item ∧ user = userOfItem uID item

theorem listsMembers_map {database : Database} {groupID : String} {ids : List String}
    (existing : ∀ uID, IsMember database uID groupID → ∃ item, database.users.lookup uID = some item)
    (nodup : ids.Nodup) (members : ∀ uID, uID ∈ ids ↔ IsMember database uID groupID) :
    ListsMembers database groupID (ids.map (userRecorded database)) := by
  constructor
  · refine nodup.map_on fun first isFirst second isSecond same => ?_
    rw [← userRecorded_id (existing _ ((members _).mp isFirst)), same,
      userRecorded_id (existing _ ((members _).mp isSecond))]
  · intro user
    rw [List.mem_map]
    constructor
    · rintro ⟨uID, listed, rfl⟩
      have member := (members uID).mp listed
      obtain ⟨item, found⟩ := existing uID member
      exact ⟨uID, item, member, found, by rw [userRecorded, found]⟩
    · rintro ⟨uID, item, member, found, rfl⟩
      exact ⟨uID, (members uID).mpr member, by rw [userRecorded, found]⟩

theorem mem_membersOf {database : Database} {uID groupID : String} :
    uID ∈ database.membersOf groupID ↔ IsMember database uID groupID := by
  rw [Database.membersOf, List.mem_map]
  constructor
  · rintro ⟨⟨⟨user, group⟩, value⟩, chosen, rfl⟩
    obtain ⟨found, same⟩ := FiniteMap.mem_select.mp chosen
    obtain rfl : group = groupID := beq_iff_eq.mp same
    exact Option.isSome_iff_exists.mpr ⟨value, found⟩
  · intro member
    obtain ⟨value, found⟩ := Option.isSome_iff_exists.mp member
    exact ⟨((uID, groupID), value), FiniteMap.mem_select.mpr ⟨found, beq_self_eq_true _⟩, rfl⟩

private theorem membersOf_nodup (database : Database) (groupID : String) : (database.membersOf groupID).Nodup := by
  have keys := FiniteMap.select_keys_nodup database.memberships fun key _ => key.2 == groupID
  rw [Database.membersOf]
  refine List.Nodup.map_on ?_ (List.Nodup.of_map _ keys)
  rintro ⟨⟨uID, first⟩, _⟩ chosen ⟨⟨_, second⟩, _⟩ chosen' rfl
  have same := beq_iff_eq.mp (FiniteMap.mem_select.mp chosen).2
  have same' := beq_iff_eq.mp (FiniteMap.mem_select.mp chosen').2
  simp only at same same'
  rw [same, same']

/-- A loop of lookups by ID answers with what the table holds. -/
theorem returns_getUsers {server : Server} (consistent : MembershipsConsistent server)
    (records : List (CacheRecord String)) :
    Returns (records.mapM fun record => getUser record.record) server fun users after => Looked server after ∧
      users = records.map fun record => userRecorded server.database record.record := by
  refine (returns_mapM records _ server (fun visited users current => Looked server current ∧
    users = visited.map fun record => userRecorded server.database record.record) ⟨.refl server, rfl⟩ ?_).mono
    fun _ _ => id
  rintro visited record rest users current - ⟨looked, same⟩
  have kept := consistent.looked looked
  refine returns_getUser kept.succeeding kept.users _ fun user after looked' answers _ => ?_
  refine ⟨looked.trans looked', ?_⟩
  rw [looked.database] at answers
  simp [same, answers.eq_recorded]

/-- Collecting the members from the table puts them all into the category. -/
theorem returns_collectMembers {server : Server} (consistent : MembershipsConsistent server) (groupID : String)
    (ids : List String) (members : ∀ id ∈ ids, IsMember server.database id groupID) :
    Returns (ids.mapM fun id => do
      let user ← getUser id
      let record ← CacheRecord.lasting user userCacheValidity
      modify fun server => { server with users := { server.users with
        userCache := server.users.userCache.insert user.id record } }
      cacheMembership user.id groupID
      return user) server fun users after => MembershipsConsistent after ∧ after.database = server.database ∧
        users = ids.map (userRecorded server.database) ∧ ∀ id ∈ ids, KnownMember after.users id groupID := by
  refine (returns_mapM ids _ server (fun visited users current => MembershipsConsistent current ∧
    current.database = server.database ∧ users = visited.map (userRecorded server.database) ∧
    ∀ id ∈ visited, KnownMember current.users id groupID) ⟨consistent, rfl, rfl, by simp⟩ ?_).mono fun _ _ => id
  rintro visited id rest users current split ⟨kept, database, same, known⟩
  have member : IsMember current.database id groupID := database ▸ members id (by simp [split])
  obtain ⟨item, found⟩ := kept.existing id groupID member
  simp only [returns_bind, returns_lasting, returns_modify, returns_pure]
  refine returns_getUser kept.succeeding kept.users id fun user after looked answers _ => ?_
  have whole : user = userOfItem id item := by
    rw [answers.eq_recorded, userRecorded, found]
  subst whole
  have held : UserHeld after.database.users (userOfItem id item) := looked.database ▸ userHeld_of_lookup found
  have later := kept.looked looked
  have filled : MembershipsConsistent { after.tick with users := { after.users with
      userCache := after.users.userCache.insert id ⟨userOfItem id item, after.clock 0 + userCacheValidity⟩ } } := {
    succeeding := later.succeeding
    steady := (Later.tick after).steady later.steady
    users := later.users.list ⟨userOfItem id item, after.clock 0 + userCacheValidity⟩ held
    groups := later.groups
    names := later.names
    existing := later.existing
    members := later.members.later ((Later.tick after).trans (.of_eq rfl rfl)) rfl rfl }
  refine (returns_cacheMembership filled (looked.database ▸ member : IsMember after.database id groupID)).mono ?_
  rintro _ final ⟨last, database', -, known'⟩
  refine ⟨last, database'.trans (looked.database.trans database), ?_, ?_⟩
  · rw [same, answers.eq_recorded, database, List.map_append]
    rfl
  · intro other listed
    rw [known' other groupID]
    obtain visited | last := List.mem_append.mp listed
    · refine .inr ?_
      rw [KnownMember, looked.members]
      exact known other visited
    · exact .inl ⟨List.mem_singleton.mp last, rfl⟩

private theorem returns_listUsersByGroup {server : Server} (consistent : MembershipsConsistent server) (groupID : String) :
    Returns (listUsersByGroup groupID) server fun users after => MembershipsConsistent after ∧
      ListsMembers server.database groupID users := by
  have existing : ∀ uID, IsMember server.database uID groupID → ∃ item, server.database.users.lookup uID = some item :=
    fun uID member => consistent.existing uID groupID member
  unfold listUsersByGroup
  simp only [returns_bind, returns_get, returns_now, returns_ite, returns_pure]
  split
  next trusted =>
    have current := consistent.looked (.tick server)
    refine (returns_getUsers current _).mono ?_
    rintro users after ⟨looked, rfl⟩
    refine ⟨current.looked looked, ?_⟩
    have ids := Category.members_ident_nodup (server.users.userByGroupCache.find groupID)
    have mapped : (server.users.userByGroupCache.find groupID).members.map
        (fun record => userRecorded server.database record.record) =
        ((server.users.userByGroupCache.find groupID).members.map fun record => ident record.record).map
          (userRecorded server.database) := by
      rw [List.map_map]
      rfl
    rw [tick_database, mapped]
    refine listsMembers_map existing ids fun uID => ?_
    rw [List.mem_map]
    constructor
    · rintro ⟨record, listed, rfl⟩
      have holds := ConcurrentMultimap.mem_find_members.mp listed
      exact consistent.members.faithful _ _ (knownMember_of_findValue holds)
    · intro member
      have known := consistent.members.complete groupID ⟨0, trusted⟩ uID member
      obtain ⟨record, found⟩ : ∃ record, server.users.userByGroupCache.findValue groupID uID = some record :=
        Option.isSome_iff_exists.mp known
      have holds := ConcurrentMultimap.holds_of_findValue found
      exact ⟨record, ConcurrentMultimap.mem_find_members.mpr holds, ConcurrentMultimap.ident_of_findValue found⟩
  next =>
    have asked := (Looked.tick server).trans (.answered _)
    have kept := consistent.looked asked
    simp only [returns_request, tick_outcomes, consistent.succeeding 0, if_true]
    split
    next none =>
      refine ⟨kept, ?_⟩
      have lists := listsMembers_map existing (membersOf_nodup server.database groupID) fun _ => mem_membersOf
      rw [show server.database.membersOf groupID = [] from none] at lists
      exact lists
    next some =>
      refine (returns_collectMembers kept groupID _ fun id => mem_membersOf.mp).mono ?_
      rintro users after ⟨last, database, rfl, known⟩
      refine ⟨?_, listsMembers_map existing (membersOf_nodup server.database groupID) fun _ => mem_membersOf⟩
      have filled : ∀ uID, IsMember after.database uID groupID → KnownMember after.users uID groupID :=
        fun uID member => known uID (mem_membersOf.mpr (database ▸ member))
      exact {
        succeeding := last.succeeding
        steady := (Later.tick after).steady last.steady
        users := last.users.of_eq rfl rfl rfl
        groups := last.groups
        names := last.names
        existing := last.existing
        members := last.members.stamp ((Later.tick after).trans (.of_eq rfl rfl)) rfl rfl filled }

theorem groupOfItem_itemOfGroup {group : Group} (valid : group.valid = true) :
    groupOfItem group.id (itemOfGroup group) = group := by
  cases group
  cases valid
  rfl

theorem GroupHeld.eq {table : FiniteMap String GroupItem} {first second : Group} (held : GroupHeld table first)
    (held' : GroupHeld table second) (same : first.id = second.id) : first = second := by
  obtain ⟨item, found, whole⟩ := held
  obtain ⟨item', found', whole'⟩ := held'
  rw [← same, found] at found'
  cases found'
  rw [whole, whole', same]

theorem GroupHeld.erase {table : FiniteMap String GroupItem} {group : Group} {id : String}
    (held : GroupHeld table group) (different : group.id ≠ id) : GroupHeld (AList.erase id table) group := by
  obtain ⟨stored, found, whole⟩ := held
  refine ⟨stored, ?_, whole⟩
  rw [FiniteMap.lookup_erase, if_neg different]
  exact found

theorem GroupsAgree.insertFresh {table : FiniteMap String GroupItem} {caches : GroupCaches}
    (agree : GroupsAgree table caches) {id : String} {item : GroupItem} (fresh : table.lookup id = none) :
    GroupsAgree (AList.insert id item table) caches := by
  have kept : ∀ group, GroupHeld table group → GroupHeld (AList.insert id item table) group := by
    rintro group ⟨stored, found, whole⟩
    refine ⟨stored, ?_, whole⟩
    rw [FiniteMap.lookup_insert, if_neg]
    · exact found
    · intro same
      rw [same, fresh] at found
      cases found
  exact ⟨agree.byID.mono kept, agree.byName.mono fun group good => ⟨kept group good.1, good.2⟩⟩

theorem GroupsAgree.forget {table : FiniteMap String GroupItem} {caches : GroupCaches}
    (agree : GroupsAgree table caches) (id : String) : GroupsAgree (AList.erase id table) (caches.forget id) := by
  unfold GroupCaches.forget
  cases present : caches.groupCache.lookup id with
  | none =>
    have other : ∀ group : Group, (caches.groupCache.lookup group.id).isSome = true → group.id ≠ id := by
      rintro group cached rfl
      rw [present] at cached
      cases cached
    refine ⟨fun name entry found => ?_, agree.byName.mono fun group good => ?_⟩
    · obtain ⟨same, held⟩ := agree.byID name entry found
      exact ⟨same, held.erase (other _ (by rw [same, found]; rfl))⟩
    · exact ⟨good.1.erase (other _ good.2), good.2⟩
  | some record =>
    obtain ⟨same, held⟩ := agree.byID _ _ present
    refine ⟨agree.byID.erase fun group different good => good.erase different,
      agree.byName.erase fun group different good => ?_⟩
    have apart : group.id ≠ id := fun clash => different (good.1.eq held (clash.trans same.symm) ▸ rfl)
    refine ⟨good.1.erase apart, ?_⟩
    rw [FiniteMap.lookup_erase, if_neg apart]
    exact good.2

private theorem returns_addGroup {server : Server} (consistent : MembershipsConsistent server) {group : Group}
    (allowed : (MembershipOperation.addGroup group).permitted server) :
    Returns (addGroup group) server fun added after => added = true ∧ MembershipsConsistent after := by
  obtain ⟨valid, fresh, unused, email, phone, field, description⟩ := allowed
  unfold addGroup
  simp only [email, phone, field, description, if_false, returns_bind, returns_request, returns_ite,
    consistent.succeeding 0, if_true, returns_modify, returns_pure]
  have held : GroupHeld (AList.insert group.id (itemOfGroup group) server.database.groups) group :=
    ⟨itemOfGroup group, by rw [FiniteMap.lookup_insert, if_pos rfl], (groupOfItem_itemOfGroup valid).symm⟩
  have rows : ∀ id item, (AList.insert group.id (itemOfGroup group) server.database.groups).lookup id = some item →
      id = group.id ∧ item.name = group.name ∨ server.database.groups.lookup id = some item := by
    intro id item found
    rw [FiniteMap.lookup_insert] at found
    split at found
    next same =>
      cases found
      exact .inl ⟨same, rfl⟩
    next => exact .inr found
  refine returns_cacheGroup held fun after filled => ⟨trivial, MembershipsConsistent.looked ?_ filled⟩
  exact {
    succeeding := fun n => consistent.succeeding _
    steady := consistent.steady
    users := consistent.users
    groups := consistent.groups.insertFresh fresh
    names := by
      intro name id item id' item' found named found' named'
      obtain ⟨same, own⟩ | old := rows id item found <;> obtain ⟨same', own'⟩ | old' := rows id' item' found'
      · rw [same, same']
      · exact absurd (named'.trans (named.symm.trans own)) (unused _ _ old')
      · exact absurd (named.trans (named'.symm.trans own')) (unused _ _ old)
      · exact consistent.names name _ _ _ _ old named old' named'
    existing := consistent.existing
    members := consistent.members.later ((Later.answered server).trans (.of_eq rfl rfl)) rfl rfl }

/-- The members are removed by ID, so that each removal succeeds. -/
theorem returns_removeMembers {groupID : String} (known : startsWith groupIDPrefix groupID = true)
    (ids : List String) {server : Server} (consistent : MembershipsConsistent server) :
    Returns (removeMembers groupID ids) server fun removed after => removed = true ∧ MembershipsConsistent after := by
  induction ids generalizing server with
  | nil => exact ⟨rfl, consistent⟩
  | cons uID rest ih =>
    unfold removeMembers
    simp only [returns_bind, returns_ite, returns_pure]
    refine (returns_removeUserFromGroup consistent uID groupID).mono ?_
    rintro removed after ⟨kept, done⟩
    rw [if_pos (done known)]
    exact ih kept

private theorem returns_removeGroup {server : Server} (consistent : MembershipsConsistent server) {groupID : String}
    (known : startsWith groupIDPrefix groupID = true) :
    Returns (removeGroup groupID) server fun removed after => removed = true ∧ MembershipsConsistent after := by
  have asked := consistent.looked (.answered server)
  unfold removeGroup getMembersOfGroup
  simp only [returns_bind, returns_request, returns_ite, consistent.succeeding 0, if_true, returns_get, returns_pure]
  refine (returns_removeMembers known _ asked).mono ?_
  rintro removed after ⟨rfl, kept⟩
  simp only [if_true, returns_modify, kept.succeeding 0]
  refine ⟨trivial, ?_⟩
  exact {
    succeeding := fun n => kept.succeeding _
    steady := kept.steady
    users := kept.users
    groups := kept.groups.forget groupID
    names := by
      have rows : ∀ id item, (AList.erase groupID after.database.groups).lookup id = some item →
          after.database.groups.lookup id = some item := by
        intro id item found
        rw [FiniteMap.lookup_erase] at found
        split at found
        next => cases found
        next => exact found
      intro name id item id' item' found named found' named'
      exact kept.names name _ _ _ _ (rows _ _ found) named (rows _ _ found') named'
    existing := kept.existing
    members := kept.members.later ((Later.answered after).trans (.of_eq rfl rfl)) rfl rfl }

private theorem execute_keeps_memberships (operation : MembershipOperation) (server : Server)
    (consistent : MembershipsConsistent server) (allowed : operation.permitted server) :
    Returns operation.execute server fun _ after => MembershipsConsistent after := by
  cases operation with
  | addUserToGroup uID group =>
    simp only [MembershipOperation.execute, returns_bind, returns_pure]
    exact returns_addUserToGroup consistent allowed
  | removeUserFromGroup uID group =>
    simp only [MembershipOperation.execute, returns_bind, returns_pure]
    exact (returns_removeUserFromGroup consistent uID group).mono fun _ _ => And.left
  | userInGroup uID group =>
    simp only [MembershipOperation.execute, userInGroup, returns_bind, returns_pure]
    refine returns_normalizeGroupID consistent.succeeding consistent.groups (consistent.names group) ?_ ?_
    · intro groupID passed looked _
      exact (returns_decideMembership (consistent.looked looked) uID groupID).mono fun _ _ => And.left
    · exact fun passed looked _ => consistent.looked looked
  | listUsersByGroup groupID =>
    simp only [MembershipOperation.execute, returns_bind, returns_pure]
    exact (returns_listUsersByGroup consistent groupID).mono fun _ _ => And.left
  | addGroup group =>
    simp only [MembershipOperation.execute, returns_bind, returns_pure]
    exact (returns_addGroup consistent allowed).mono fun _ _ => And.right
  | removeGroup groupID =>
    simp only [MembershipOperation.execute, returns_bind, returns_pure]
    exact (returns_removeGroup consistent allowed).mono fun _ _ => And.right

structure MembershipsStart (server : Server) : Prop where
  users : server.users = {}
  groups : server.groups = {}
  names : ∀ name, GroupNameUnique server.database.groups name
  existing : ∀ uID groupID, IsMember server.database uID groupID → ∃ item, server.database.users.lookup uID = some item
  succeeding : Succeeding server
  steady : Steady server

theorem MembershipsStart.consistent {server : Server} (start : MembershipsStart server) :
    MembershipsConsistent server where
  succeeding := start.succeeding
  steady := start.steady
  users := start.users ▸ .empty _
  groups := start.groups ▸ .empty _
  names := start.names
  existing := start.existing
  members := by
    constructor
    · intro uID groupID cached
      simp [KnownMember, start.users] at cached
    · intro groupID trusted
      rw [start.users, ConcurrentMultimap.stamp_empty] at trusted
      exact absurd trusted (not_trusted_zero _)

/-- After any sequence of operations and for any passage of time, a listing gives
exactly the members the table records, each once; and a decision agrees with the
table exactly when no cached record expires between the decision's two looks at
the clock. -/
theorem membership_answers_agree_iff {server : Server} {history : List MembershipOperation}
    (start : MembershipsStart server)
    (allowed : Permitted MembershipOperation.execute MembershipOperation.permitted history server) :
    Returns (history.forM MembershipOperation.execute) server fun _ current =>
      (∀ uID text, Returns (userInGroup uID text) current (fun answer _ => answer = true ↔
          ∃ groupID, DesignatesGroup current.database text groupID ∧ IsMember current.database uID groupID) ↔
        Returns (normalizeGroupID text false) current (fun normalized passed =>
          ∀ groupID, normalized = some groupID → OutlastsChecks passed uID groupID)) ∧
      (∀ groupID, Returns (listUsersByGroup groupID) current fun users _ =>
        ListsMembers current.database groupID users) := by
  refine (returns_history execute_keeps_memberships start.consistent allowed).mono fun _ current consistent => ?_
  refine ⟨userInGroup_right_iff consistent, fun groupID => ?_⟩
  exact (returns_listUsersByGroup consistent groupID).mono fun _ _ => And.right

/-- A member of a group, on a server whose clock passes the end of the validity of
the first record it caches at the fourth reading. -/
def expiringServer : Server where
  database := {
    users := AList.insert "user_1" ⟨"Alice", "globus", "token", "a@b", none, none, false⟩ ∅
    memberships := AList.insert ("user_1", "group_1") () ∅
    groups := AList.insert "group_1" ⟨"physics", none, none, none, none⟩ ∅ }
  clock := jumpingClock 3 (userCacheValidity + 1)

private theorem expiringServer_start : MembershipsStart expiringServer where
  users := rfl
  groups := rfl
  names := by
    intro name id item id' item' found named found' named'
    simp only [expiringServer, FiniteMap.lookup_insert, FiniteMap.lookup_empty] at found found'
    split at found <;> split at found' <;> simp_all
  existing := by
    intro uID groupID member
    simp only [IsMember, expiringServer, FiniteMap.lookup_insert, FiniteMap.lookup_empty, Prod.mk.injEq] at member ⊢
    split at member
    next same => simp [same.1]
    next => simp at member
  succeeding := fun _ => rfl
  steady := jumpingClock_monotone _ _

/-- A decision caches the membership; the next one finds the record valid, and
denies the membership when it looks again. -/
theorem member_denied_at_expiry :
    Permitted MembershipOperation.execute MembershipOperation.permitted [.userInGroup "user_1" "group_1"]
        expiringServer ∧
      MembershipsStart expiringServer ∧
      Returns ([.userInGroup "user_1" "group_1"].forM MembershipOperation.execute) expiringServer fun _ current =>
        IsMember current.database "user_1" "group_1" ∧
          Returns (userInGroup "user_1" "group_1") current fun answer _ => answer = false :=
  ⟨⟨trivial, fun _ _ => trivial⟩, expiringServer_start, rfl, rfl⟩

def lastingServer : Server := { expiringServer with clock := fun _ => 0 }

/-- The member leaves the group and joins it again, and is then looked for. -/
theorem membership_answers_agree_run :
    let history : List MembershipOperation := [.userInGroup "user_1" "group_1", .removeUserFromGroup "user_1" "group_1",
      .addUserToGroup "user_1" "group_1", .userInGroup "user_1" "group_1"]
    Returns (history.forM MembershipOperation.execute) lastingServer fun _ current =>
      (Returns (userInGroup "user_1" "group_1") current (fun answer _ => answer = true ↔
          ∃ groupID, DesignatesGroup current.database "group_1" groupID ∧ IsMember current.database "user_1" groupID) ↔
        Returns (normalizeGroupID "group_1" false) current (fun normalized passed =>
          ∀ groupID, normalized = some groupID → OutlastsChecks passed "user_1" groupID)) ∧
      Returns (listUsersByGroup "group_1") current fun users _ => ListsMembers current.database "group_1" users := by
  intro history
  have start : MembershipsStart lastingServer :=
    { expiringServer_start with steady := fun _ _ _ => Nat.le_refl 0, succeeding := fun _ => rfl }
  have allowed : Permitted MembershipOperation.execute MembershipOperation.permitted history lastingServer := by
    refine ⟨trivial, fun decided ran => ⟨trivial, fun removed removal => ⟨?_, fun _ _ => ⟨trivial, fun _ _ => trivial⟩⟩⟩⟩
    cases ran
    cases removal
    exact ⟨_, rfl⟩
  exact (membership_answers_agree_iff start allowed).mono fun _ _ agree => ⟨agree.1 "user_1" "group_1", agree.2 "group_1"⟩

end Slate
