import Slate.Proofs.Courses
import Slate.Proofs.MembershipDecisions

/-! Listings of the groups of a user. Copies of group records lie in a category for each
user, which an update of a group does not reach. -/

namespace Slate
open Library

-- Lookups leave the copies alone, and cache more groups by ID.
structure GroupsGrown (before after : Server) : Prop where
  copies : after.groups.groupByUserCache = before.groups.groupByUserCache
  grown : ∀ id, (before.groups.groupCache.lookup id).isSome = true → (after.groups.groupCache.lookup id).isSome = true

instance : IsPreorder Server GroupsGrown where
  refl _ := ⟨rfl, fun _ => id⟩
  trans _ _ _ early late := ⟨late.copies.trans early.copies, fun id present => late.grown id (early.grown id present)⟩

theorem GroupsGrown.of_eq {before after : Server} (same : after.groups = before.groups) : GroupsGrown before after :=
  ⟨by rw [same], fun _ => by rw [same]; exact id⟩

theorem caching_grown : CachingGroups GroupsGrown where
  tick := fun _ => .of_eq rfl
  answered := fun _ => .of_eq rfl
  replace := fun _ _ => ⟨rfl, fun _ => isSome_insert _ _ _ _⟩

structure GroupsLooked (before after : Server) : Prop extends Looked before after, GroupsGrown before after

theorem GroupsLooked.trans {first second third : Server} (early : GroupsLooked first second)
    (late : GroupsLooked second third) : GroupsLooked first third :=
  ⟨early.toLooked.trans late.toLooked, IsTrans.trans _ _ _ early.toGroupsGrown late.toGroupsGrown⟩

theorem GroupsLooked.tick (server : Server) : GroupsLooked server server.tick := ⟨.tick server, .of_eq rfl⟩
theorem GroupsLooked.answered (server : Server) : GroupsLooked server server.answered := ⟨.answered server, .of_eq rfl⟩

private theorem leads_getUser {course : Server → Server → Prop} [IsPreorder Server course] (passing : Passing course)
    (users : ∀ server caches, course server { server with users := caches }) (id : String) :
    Leads course (getUser id) := by
  unfold getUser
  refine Leads.get.bind fun server => (leads_cached passing _ _).bind fun found => ?_
  cases found with
  | some user => exact .pure _
  | none =>
    refine (leads_request passing).bind fun _ => .ite (fun _ => Leads.get.bind fun server => ?_) fun _ => .pure _
    split
    next => exact .pure _
    next =>
      refine Leads.bind ?_ fun _ => .pure _
      exact (leads_lasting passing _ _).bind fun _ => .modifies fun server => users server _

def groupsPart : ServerPart GroupCaches := ⟨Server.groups, fun _ => rfl, fun _ => rfl⟩

/-- The copy of a group in the category of a user. -/
abbrev copyOf (server : Server) (uID groupID : String) : Option (CacheRecord Group) :=
  server.groups.groupByUserCache.entryOf uID groupID

/-- Every copy, whether or not it has expired, is of a group of which the user is a member,
and which is cached by ID, too. A category that is trusted has a true copy of each. -/
structure CopiesAgree (server : Server) : Prop where
  faithful : ∀ uID groupID entry, copyOf server uID groupID = some entry →
    IsMember server.database uID groupID ∧ (server.groups.groupCache.lookup groupID).isSome = true
  complete : ∀ uID, Trusted server (server.groups.groupByUserCache.stamp uID) →
    ∀ groupID, IsMember server.database uID groupID →
      ∃ entry, copyOf server uID groupID = some entry ∧ GroupHeld server.database.groups entry.record

theorem copy_named {server : Server} {uID groupID : String} {entry : CacheRecord Group}
    (found : copyOf server uID groupID = some entry) : entry.record.id = groupID :=
  (server.groups.groupByUserCache.find uID).keyed _ _ found

/-- Neither the memberships nor the copies change, and the groups only so that what was
true of a copy in a trusted category still is. -/
theorem CopiesAgree.regrouped {before after : Server} (agree : CopiesAgree before) (later : Later before after)
    (memberships : after.database.memberships = before.database.memberships)
    (copies : after.groups.groupByUserCache = before.groups.groupByUserCache)
    (cached : ∀ uID groupID, IsMember before.database uID groupID →
      (before.groups.groupCache.lookup groupID).isSome = true → (after.groups.groupCache.lookup groupID).isSome = true)
    (held : ∀ uID groupID entry, Trusted after (before.groups.groupByUserCache.stamp uID) →
      IsMember before.database uID groupID → copyOf before uID groupID = some entry →
      GroupHeld before.database.groups entry.record → GroupHeld after.database.groups entry.record) :
    CopiesAgree after := by
  have member : ∀ uID groupID, IsMember after.database uID groupID ↔ IsMember before.database uID groupID := by
    intro uID groupID
    rw [IsMember, IsMember, memberships]
  have same : ∀ uID groupID, copyOf after uID groupID = copyOf before uID groupID := by
    intro uID groupID
    rw [copyOf, copies]
  constructor
  · intro uID groupID entry found
    rw [same] at found
    obtain ⟨isMember, present⟩ := agree.faithful _ _ _ found
    exact ⟨(member _ _).mpr isMember, cached _ _ isMember present⟩
  · intro uID trusted groupID isMember
    rw [copies] at trusted
    have was := (member _ _).mp isMember
    obtain ⟨entry, found, whole⟩ := agree.complete uID (later.trusted trusted) groupID was
    exact ⟨entry, (same _ _).trans found, held _ _ _ trusted was found whole⟩

/-- A copy of a group enters a category, and its membership the table, if it is not there. -/
theorem CopiesAgree.put {before after : Server} (agree : CopiesAgree before) (later : Later before after)
    (uID : String) {entry : CacheRecord Group} {reading : Time}
    (table : ∀ uID' groupID', IsMember after.database uID' groupID' ↔
      (uID' = uID ∧ groupID' = entry.record.id) ∨ IsMember before.database uID' groupID')
    (groups : after.database.groups = before.database.groups) (held : GroupHeld before.database.groups entry.record)
    (grown : ∀ id, (before.groups.groupCache.lookup id).isSome = true → (after.groups.groupCache.lookup id).isSome = true)
    (cached : (after.groups.groupCache.lookup entry.record.id).isSome = true)
    (copies : after.groups.groupByUserCache = (before.groups.groupByUserCache.insertOrAssign uID entry reading).2)
    (steady : Steady after) (passed : reading ≤ after.clock 0) : CopiesAgree after := by
  have copy : ∀ uID' groupID', copyOf after uID' groupID' =
      if uID' = uID ∧ groupID' = entry.record.id then some entry else copyOf before uID' groupID' := by
    intro uID' groupID'
    rw [copyOf, copies, ConcurrentMultimap.entryOf_insertOrAssign]
    rfl
  constructor
  · intro uID' groupID' other found
    rw [copy] at found
    split at found
    next same => exact ⟨(table _ _).mpr (.inl same), same.2 ▸ cached⟩
    next =>
      obtain ⟨isMember, present⟩ := agree.faithful _ _ _ found
      exact ⟨(table _ _).mpr (.inr isMember), grown _ present⟩
  · intro uID' trusted groupID' isMember
    rw [copies, ConcurrentMultimap.stamp_insertOrAssign] at trusted
    split at trusted
    next => exact absurd trusted (steady.not_trusted passed)
    next =>
      rw [copy, groups]
      split
      next => exact ⟨entry, rfl, held⟩
      next different =>
        have was := ((table _ _).mp isMember).resolve_left different
        exact agree.complete _ (later.trusted trusted) _ was

/-- A membership leaves the table, and its copy the category. -/
theorem CopiesAgree.remove {before after : Server} (agree : CopiesAgree before) (later : Later before after)
    (uID groupID : String)
    (table : ∀ uID' groupID', IsMember after.database uID' groupID' ↔
      ¬ (uID' = uID ∧ groupID' = groupID) ∧ IsMember before.database uID' groupID')
    (groups : after.database.groups = before.database.groups)
    (caches : after.groups.groupCache = before.groups.groupCache)
    (copies : ∀ uID' groupID', copyOf after uID' groupID' =
      if uID' = uID ∧ groupID' = groupID then none else copyOf before uID' groupID')
    (stamps : ∀ uID', after.groups.groupByUserCache.stamp uID' = before.groups.groupByUserCache.stamp uID' ∨
      after.groups.groupByUserCache.stamp uID' = 0) : CopiesAgree after := by
  constructor
  · intro uID' groupID' entry found
    rw [copies] at found
    split at found
    next => cases found
    next different =>
      obtain ⟨isMember, present⟩ := agree.faithful _ _ _ found
      exact ⟨(table _ _).mpr ⟨different, isMember⟩, caches ▸ present⟩
  · intro uID' trusted groupID' isMember
    obtain ⟨different, was⟩ := (table _ _).mp isMember
    have kept : Trusted after (before.groups.groupByUserCache.stamp uID') := by
      obtain same | zero := stamps uID'
      · rwa [same] at trusted
      · rw [zero] at trusted
        exact absurd trusted (not_trusted_zero _)
    rw [copies, if_neg different, groups]
    exact agree.complete _ (later.trusted kept) _ was

/-- A category with true copies of all groups of its user may be stamped. -/
theorem CopiesAgree.stamp {before after : Server} (agree : CopiesAgree before) (later : Later before after)
    {uID : String} {time : Time} (database : after.database = before.database)
    (caches : after.groups.groupCache = before.groups.groupCache)
    (copies : after.groups.groupByUserCache = (before.groups.groupByUserCache.updateExpiration uID time).2)
    (filled : ∀ groupID, IsMember before.database uID groupID →
      ∃ entry, copyOf before uID groupID = some entry ∧ GroupHeld before.database.groups entry.record) :
    CopiesAgree after := by
  have copy : ∀ uID' groupID', copyOf after uID' groupID' = copyOf before uID' groupID' := by
    intro uID' groupID'
    rw [copyOf, copies, ConcurrentMultimap.entryOf_updateExpiration]
  constructor
  · intro uID' groupID' entry found
    rw [copy] at found
    rw [database, caches]
    exact agree.faithful _ _ _ found
  · intro uID' trusted groupID' isMember
    rw [database] at isMember
    rw [copy, database]
    rw [copies, ConcurrentMultimap.stamp_updateExpiration] at trusted
    split at trusted
    next same =>
      obtain ⟨rfl, -⟩ := same
      exact filled groupID' isMember
    next => exact agree.complete _ (later.trusted trusted) _ isMember

theorem GroupsAgree.of_eq {table : FiniteMap String GroupItem} {caches other : GroupCaches} (agree : GroupsAgree table caches)
    (byID : other.groupCache = caches.groupCache) (byName : other.groupByNameCache = caches.groupByNameCache) :
    GroupsAgree table other := by
  obtain ⟨first, second⟩ := agree
  exact ⟨byID ▸ first, by rw [byName, byID]; exact second⟩

structure GroupListingsConsistent (server : Server) : Prop where
  succeeding : Succeeding server
  steady : Steady server
  users : UsersAgree server.database.users server.users
  groups : GroupsAgree server.database.groups server.groups
  names : ∀ name, GroupNameUnique server.database.groups name
  prefixed : ∀ groupID item, server.database.groups.lookup groupID = some item → startsWith groupIDPrefix groupID = true
  existing : ∀ uID groupID, IsMember server.database uID groupID → ∃ item, server.database.groups.lookup groupID = some item
  copies : CopiesAgree server

theorem GroupListingsConsistent.looked {before after : Server} (consistent : GroupListingsConsistent before)
    (looked : GroupsLooked before after) : GroupListingsConsistent after where
  succeeding := looked.succeeding consistent.succeeding
  steady := looked.steady consistent.steady
  users := looked.database ▸ looked.users consistent.users
  groups := looked.database ▸ looked.groups consistent.groups
  names := looked.database ▸ consistent.names
  prefixed := looked.database ▸ consistent.prefixed
  existing := looked.database ▸ consistent.existing
  copies := by
    refine consistent.copies.regrouped looked.toLater (by rw [looked.database]) looked.copies
      (fun _ groupID _ => looked.grown groupID) fun _ _ _ _ _ _ held => ?_
    rw [looked.database]
    exact held

private theorem returns_findGroupByID_grown (id : String) (server : Server) :
    Returns (findGroupByID id) server fun _ after => GroupsLooked server after := by
  refine (Returns.also ?_ (leads_findGroupByID caching_grown id server).yields).mono fun _ after both =>
    ⟨both.1, both.2⟩
  exact returns_findGroupByID id server fun _ _ looked => looked

section Lookups
variable {server : Server} (consistent : GroupListingsConsistent server)
include consistent

private theorem returns_normalizeGroupID_grown (text : String) :
    Returns (normalizeGroupID text false) server fun normalized after => GroupsLooked server after ∧
      (∀ groupID, normalized = some groupID → DesignatesGroup server.database text groupID) ∧
      (startsWith groupIDPrefix text = true → normalized = some text) := by
  have itself : startsWith groupIDPrefix text = true → DesignatesGroup server.database text text :=
    fun known => by rw [DesignatesGroup, if_pos known]
  have normalized : Returns (normalizeGroupID text false) server fun normalized after => Looked server after ∧
      (∀ groupID, normalized = some groupID → DesignatesGroup server.database text groupID) ∧
      (startsWith groupIDPrefix text = true → normalized = some text) := by
    refine returns_normalizeGroupID consistent.succeeding consistent.groups (consistent.names text) ?_ ?_
    · intro groupID after looked designated
      refine ⟨looked, fun other same => ?_, fun known => ?_⟩
      · rw [← Option.some.inj same]
        exact designated
      · rw [designated.unique (consistent.names text) (itself known)]
    · exact fun after looked absent => ⟨looked, fun other same => (by cases same), fun known => absurd (itself known) (absent text)⟩
  have grown := leads_normalizeGroupID caching_grown text false server
  exact (normalized.also grown.yields).mono fun _ after both => ⟨⟨both.1.1, both.2⟩, both.1.2⟩

private theorem returns_findGroupByName_grown (name : String) :
    Returns (findGroupByName name) server fun _ after => GroupsLooked server after := by
  refine (Returns.also ?_ (leads_findGroupByName caching_grown name server).yields).mono fun _ after both =>
    ⟨both.1, both.2⟩
  exact returns_findGroupByName consistent.succeeding consistent.groups (consistent.names name)
    (fun _ _ looked _ _ _ => looked) fun _ looked _ => looked

/-- A group that the table holds is found, and is cached afterwards. -/
theorem returns_findGroupByID_held {groupID : String} {item : GroupItem}
    (stored : server.database.groups.lookup groupID = some item) :
    Returns (findGroupByID groupID) server fun group after => GroupsLooked server after ∧
      group = groupOfItem groupID item ∧ (after.groups.groupCache.lookup groupID).isSome = true := by
  have held : GroupHeld server.database.groups (groupOfItem groupID item) := groupHeld_of_lookup stored
  have grown := returns_findGroupByID_grown groupID server
  suffices found : Returns (findGroupByID groupID) server fun group after =>
      group = groupOfItem groupID item ∧ (after.groups.groupCache.lookup groupID).isSome = true from
    grown.and found
  unfold findGroupByID
  simp only [returns_bind, returns_get]
  refine returns_cached ?_ ?_
  · intro entry present _
    obtain ⟨same, true_⟩ := consistent.groups.byID _ _ present
    exact ⟨true_.eq held same, by simp [present]⟩
  · intro passed moved
    have missed := Looked.missed moved
    simp only [returns_bind, returns_request, returns_ite, returns_get, returns_pure, answered_database,
      missed.succeeding consistent.succeeding 0, if_true]
    rw [missed.database, stored]
    unfold cacheGroup
    simp only [returns_bind, returns_lasting, returns_modify, returns_pure]
    exact ⟨trivial, isSome_insert_self _ _ _⟩

private theorem returns_getUser_known {uID : String} (known : ∃ item, server.database.users.lookup uID = some item) :
    Returns (getUser uID) server fun user after => GroupsLooked server after ∧
      after.groups = server.groups ∧ user.id = uID := by
  have untouched : Returns (getUser uID) server fun user after => Looked server after ∧ user.id = uID := by
    refine returns_getUser consistent.succeeding consistent.users uID fun user after looked answers _ => ⟨looked, ?_⟩
    rw [answers.eq_recorded]
    exact userRecorded_id known
  have leads : Leads (Past groupsPart) (getUser uID) := leads_getUser (passing_past _) (fun _ _ => ⟨.of_eq rfl rfl, rfl⟩) uID
  have same := leads server
  refine (untouched.also same.yields).mono fun user after => ?_
  rintro ⟨⟨looked, named⟩, -, kept⟩
  exact ⟨⟨looked, .of_eq kept⟩, kept, named⟩
end Lookups

private theorem groupHeld_stored (table : FiniteMap String GroupItem) {group : Group} (valid : group.valid = true) :
    GroupHeld (AList.insert group.id (itemOfGroup group) table) group :=
  ⟨itemOfGroup group, by rw [FiniteMap.lookup_insert, if_pos rfl], (groupOfItem_itemOfGroup valid).symm⟩

theorem GroupHeld.insert {table : FiniteMap String GroupItem} {group : Group} {id : String} {item : GroupItem}
    (held : GroupHeld table group) (different : group.id ≠ id) : GroupHeld (AList.insert id item table) group := by
  obtain ⟨stored, found, whole⟩ := held
  refine ⟨stored, ?_, whole⟩
  rw [FiniteMap.lookup_insert, if_neg different]
  exact found

/-- The row of a group is written and the group cached; no other group has the name. -/
theorem GroupsAgree.store {table : FiniteMap String GroupItem} {caches : GroupCaches} (agree : GroupsAgree table caches)
    (record : CacheRecord Group) (valid : record.record.valid = true)
    (named : ∀ id item, table.lookup id = some item → id = record.record.id → item.name = record.record.name) :
    GroupsAgree (AList.insert record.record.id (itemOfGroup record.record) table) (caches.replace record) := by
  have held := groupHeld_stored table valid
  refine ⟨agree.byID.insert held fun (group : Group) different good => good.insert different,
    agree.byName.insert ⟨held, isSome_insert_self _ _ _⟩ ?_⟩
  rintro group different ⟨good, present⟩
  refine ⟨good.insert fun same => different ?_, isSome_insert _ _ _ _ present⟩
  obtain ⟨item, stored, whole⟩ := good
  rw [whole]
  exact named _ item stored same

/-- Without a record of the group by ID, there has to be no copy to drop. -/
theorem returns_forgetGroupOfUser_exactly {server : Server} {groupID : String} {good : Group → Prop}
    (byID : Keeps server.groups.groupCache Group.id good) {uID : String}
    (uncached : server.groups.groupCache.lookup groupID = none → copyOf server uID groupID = none) :
    Returns (forgetGroupOfUser uID groupID) server fun _ after =>
      after = { server with groups := after.groups } ∧ after.groups.groupCache = server.groups.groupCache ∧
      after.groups.groupByNameCache = server.groups.groupByNameCache ∧
      (∀ uID' groupID', copyOf after uID' groupID' =
        if uID' = uID ∧ groupID' = groupID then none else copyOf server uID' groupID') ∧
      ∀ uID', after.groups.groupByUserCache.stamp uID' = server.groups.groupByUserCache.stamp uID' ∨
        after.groups.groupByUserCache.stamp uID' = 0 := by
  unfold forgetGroupOfUser
  simp only [returns_modify]
  cases present : server.groups.groupCache.lookup groupID with
  | none =>
    refine ⟨rfl, rfl, rfl, fun uID' groupID' => ?_, fun _ => .inl rfl⟩
    dsimp only
    split
    next same =>
      obtain ⟨rfl, rfl⟩ := same
      exact uncached present
    next => rfl
  | some record =>
    have named : record.record.id = groupID := (byID _ _ present).1
    refine ⟨rfl, rfl, rfl, fun uID' groupID' => ?_, fun uID' => ConcurrentMultimap.stamp_eraseValue ..⟩
    dsimp only [copyOf]
    rw [ConcurrentMultimap.entryOf_eraseValue, ident_group, named]

section Changes
variable {server : Server} (consistent : GroupListingsConsistent server)
include consistent

private theorem returns_addUserToGroup_listed {uID text : String}
    (known : ∃ item, server.database.users.lookup uID = some item)
    (recorded : ∀ groupID, DesignatesGroup server.database text groupID →
      ∃ item, server.database.groups.lookup groupID = some item) :
    Returns (addUserToGroup uID text) server fun _ after => GroupListingsConsistent after := by
  unfold addUserToGroup
  rw [returns_bind]
  refine (returns_normalizeGroupID_grown consistent text).mono ?_
  rintro (_ | groupID) normalized ⟨first, designated, -⟩
  · exact consistent.looked first
  obtain ⟨item, stored⟩ := recorded groupID (designated groupID rfl)
  have early := consistent.looked first
  simp only [returns_bind]
  rw [← first.database] at stored known
  refine (returns_findGroupByID_held early stored).mono ?_
  rintro group found ⟨second, rfl, present⟩
  have middle := early.looked second
  rw [← second.database] at stored known
  refine (returns_getUser_known middle known).mono ?_
  rintro user named ⟨third, same, rfl⟩
  have late := middle.looked third
  rw [← third.database] at stored
  rw [← same] at present
  unfold putMembership cacheMembership cacheGroupOfUser
  simp only [returns_request, returns_ite, late.succeeding 0, if_true, returns_bind, returns_modify, returns_lasting,
    returns_now, returns_pure]
  have passing : Later named (((named.answered.tick).tick).tick).tick :=
    (((Later.answered named).trans (.tick _)).trans (.tick _)).trans ((Later.tick _).trans (.tick _))
  exact {
    succeeding := passing.succeeding late.succeeding
    steady := passing.steady late.steady
    users := late.users.of_eq rfl rfl rfl
    groups := late.groups.of_eq rfl rfl
    names := late.names
    prefixed := late.prefixed
    existing := fun uID' groupID' member => by
      obtain ⟨-, rfl⟩ | before := (isMember_insert rfl _ _).mp member
      · exact ⟨item, stored⟩
      · exact late.existing _ _ before
    copies := late.copies.put (passing.trans (.of_eq rfl rfl)) user.id (isMember_insert rfl) rfl
      (groupHeld_of_lookup stored) (fun _ => id) present rfl (passing.steady late.steady)
      (late.steady (by decide : 3 ≤ 4)) }

private theorem returns_removeUserFromGroup_listed (uID text : String) :
    Returns (removeUserFromGroup uID text) server fun removed after => GroupListingsConsistent after ∧
      (startsWith groupIDPrefix text = true → removed = true ∧ ∀ uID' groupID', IsMember after.database uID' groupID' ↔
        ¬ (uID' = uID ∧ groupID' = text) ∧ IsMember server.database uID' groupID') := by
  unfold removeUserFromGroup
  rw [returns_bind]
  refine (returns_normalizeGroupID_grown consistent text).mono ?_
  rintro (_ | groupID) normalized ⟨first, -, itself⟩
  · exact ⟨consistent.looked first, fun known => nomatch itself known⟩
  have early := consistent.looked first
  unfold forgetMembership deleteMembership
  simp only [returns_bind, returns_modify]
  refine (returns_forgetGroupOfUser_exactly (by exact early.groups.byID) ?_).mono ?_
  · exact fun absent => by
      cases found : copyOf normalized uID groupID with
      | none => rfl
      | some entry =>
        have present := (early.copies.faithful _ _ _ found).2
        rw [absent] at present
        cases present
  rintro _ forgotten ⟨rest, byID, byName, copies, stamps⟩
  rw [rest]
  simp only [returns_request, returns_ite, early.succeeding 0, if_true, returns_bind, returns_modify, returns_pure]
  refine ⟨?_, fun known => ⟨trivial, ?_⟩⟩
  · exact {
      succeeding := fun n => early.succeeding _
      steady := early.steady
      users := early.users.of_eq rfl rfl rfl
      groups := early.groups.of_eq byID byName
      names := early.names
      prefixed := early.prefixed
      existing := fun uID' groupID' member => early.existing _ _ ((isMember_erase rfl _ _).mp member).2
      copies := early.copies.remove ((Later.answered normalized).trans (.of_eq rfl rfl)) uID groupID (isMember_erase rfl)
        rfl byID copies stamps }
  · obtain rfl := Option.some.inj (itself known)
    intro uID' groupID'
    rw [← first.database]
    exact isMember_erase rfl uID' groupID'

/-- No category that can still be trusted holds another record of the group. -/
def NoOtherCopy (server : Server) (group : Group) : Prop :=
  ∀ uID entry, server.clock 0 < server.groups.groupByUserCache.stamp uID → copyOf server uID group.id = some entry →
    entry.record = group

private theorem returns_updateGroup_listed {group : Group} (valid : group.valid = true)
    (known : startsWith groupIDPrefix group.id = true)
    (named : ∀ id item, server.database.groups.lookup id = some item → (id = group.id ↔ item.name = group.name))
    (copies : NoOtherCopy server group) :
    Returns (updateGroup group) server fun _ after => GroupListingsConsistent after := by
  unfold updateGroup cacheGroup
  simp only [returns_bind, returns_request, returns_ite, consistent.succeeding 0, if_true, returns_modify, returns_lasting,
    returns_pure]
  have rows : ∀ id item, (AList.insert group.id (itemOfGroup group) server.database.groups).lookup id = some item →
      id = group.id ∧ item.name = group.name ∨ id ≠ group.id ∧ server.database.groups.lookup id = some item := by
    intro id item found
    rw [FiniteMap.lookup_insert] at found
    split at found
    next same =>
      cases found
      exact .inl ⟨same, rfl⟩
    next different => exact .inr ⟨different, found⟩
  have passing : Later server server.answered.tick := (Later.answered server).trans (.tick _)
  exact {
    succeeding := passing.succeeding consistent.succeeding
    steady := passing.steady consistent.steady
    users := consistent.users
    groups := consistent.groups.store ⟨group, server.clock 0 + groupCacheValidity⟩ valid fun id item stored same =>
      (named id item stored).mp same
    names := by
      intro name id item id' item' found sameName found' sameName'
      obtain ⟨same, own⟩ | ⟨different, old⟩ := rows id item found <;>
        obtain ⟨same', own'⟩ | ⟨different', old'⟩ := rows id' item' found'
      · rw [same, same']
      · exact absurd ((named _ _ old').mpr (sameName'.trans (sameName.symm.trans own))) different'
      · exact absurd ((named _ _ old).mpr (sameName.trans (sameName'.symm.trans own'))) different
      · exact consistent.names name _ _ _ _ old sameName old' sameName'
    prefixed := by
      intro id item found
      obtain ⟨rfl, -⟩ | ⟨-, old⟩ := rows id item found
      · exact known
      · exact consistent.prefixed _ _ old
    existing := fun uID groupID member => by
      obtain ⟨item, stored⟩ := consistent.existing uID groupID member
      obtain ⟨_, found⟩ := Option.isSome_iff_exists.mp
        (isSome_insert server.database.groups group.id groupID (itemOfGroup group) (by rw [stored]; rfl))
      exact ⟨_, found⟩
    copies := by
      refine consistent.copies.regrouped (passing.trans (.of_eq rfl rfl)) rfl rfl
        (fun _ _ _ => isSome_insert _ _ _ _) ?_
      rintro uID groupID entry ⟨n, early⟩ member copied held
      by_cases same : entry.record.id = group.id
      · obtain rfl : groupID = group.id := (copy_named copied).symm.trans same
        have trusted : server.clock 0 < server.groups.groupByUserCache.stamp uID :=
          (consistent.steady (Nat.zero_le (n + 1))).trans_lt early
        rw [copies uID entry trusted copied]
        exact groupHeld_stored _ valid
      · exact held.insert same }

private theorem returns_addGroup_listed {group : Group} (valid : group.valid = true)
    (known : startsWith groupIDPrefix group.id = true) (fresh : server.database.groups.lookup group.id = none)
    (unused : ∀ id item, server.database.groups.lookup id = some item → item.name ≠ group.name)
    (given : group.email ≠ "" ∧ group.phone ≠ "" ∧ group.scienceField ≠ "" ∧ group.description ≠ "") :
    Returns (addGroup group) server fun _ after => GroupListingsConsistent after := by
  have same : addGroup group = updateGroup group := by
    unfold addGroup updateGroup
    simp [given]
  rw [same]
  refine returns_updateGroup_listed consistent valid known (fun id item stored => ?_) fun uID entry _ copied => ?_
  · refine iff_of_false (fun same => ?_) (unused id item stored)
    rw [same, fresh] at stored
    cases stored
  · obtain ⟨item, stored⟩ := consistent.existing _ _ (consistent.copies.faithful _ _ _ copied).1
    rw [fresh] at stored
    cases stored
end Changes

private theorem GroupCaches.forget_groupByUserCache (caches : GroupCaches) (groupID : String) :
    (caches.forget groupID).groupByUserCache = caches.groupByUserCache := by
  unfold forget
  split <;> rfl

private theorem GroupCaches.isSome_forget {caches : GroupCaches} {groupID id : String} (different : id ≠ groupID)
    (present : (caches.groupCache.lookup id).isSome = true) :
    ((caches.forget groupID).groupCache.lookup id).isSome = true := by
  unfold forget
  split
  next => exact present
  next =>
    dsimp only
    rw [FiniteMap.lookup_erase, if_neg different]
    exact present

/-- The members that are removed one by one are no members in the end. -/
theorem returns_removeMembers_listed {groupID : String} (known : startsWith groupIDPrefix groupID = true)
    (ids : List String) {server : Server} (consistent : GroupListingsConsistent server)
    (all : ∀ uID, IsMember server.database uID groupID → uID ∈ ids) :
    Returns (removeMembers groupID ids) server fun removed after => removed = true ∧ GroupListingsConsistent after ∧
      ∀ uID, ¬ IsMember after.database uID groupID := by
  induction ids generalizing server with
  | nil => exact ⟨rfl, consistent, fun uID member => nomatch all uID member⟩
  | cons uID rest ih =>
    unfold removeMembers
    simp only [returns_bind, returns_ite, returns_pure]
    refine (returns_removeUserFromGroup_listed consistent uID groupID).mono ?_
    rintro removed after ⟨kept, done⟩
    obtain ⟨removed, table⟩ := done known
    rw [if_pos removed]
    refine ih kept fun other member => ?_
    obtain ⟨different, was⟩ := (table _ _).mp member
    exact (List.mem_cons.mp (all other was)).resolve_left fun same => different ⟨same, rfl⟩

private theorem returns_removeGroup_listed {server : Server} (consistent : GroupListingsConsistent server) (groupID : String) :
    Returns (removeGroup groupID) server fun _ after => GroupListingsConsistent after := by
  have asked := consistent.looked (.answered server)
  unfold removeGroup getMembersOfGroup
  simp only [returns_bind, returns_request, returns_ite, consistent.succeeding 0, if_true, returns_get, returns_pure]
  have removed : Returns (removeMembers groupID (server.answered.database.membersOf groupID)) server.answered
      fun removed after => removed = true ∧ GroupListingsConsistent after ∧ ∀ uID, ¬ IsMember after.database uID groupID := by
    by_cases known : startsWith groupIDPrefix groupID = true
    · exact returns_removeMembers_listed known _ asked fun uID => mem_membersOf.mpr
    · have none : ∀ uID, ¬ IsMember server.answered.database uID groupID := by
        intro uID member
        obtain ⟨item, stored⟩ := asked.existing uID groupID member
        exact known (asked.prefixed groupID item stored)
      rw [List.eq_nil_iff_forall_not_mem.mpr fun uID listed => none uID (mem_membersOf.mp listed)]
      exact ⟨rfl, asked, none⟩
  refine removed.mono ?_
  rintro removed after ⟨rfl, kept, none⟩
  simp only [if_true, returns_modify, kept.succeeding 0]
  have rows : ∀ id item, (AList.erase groupID after.database.groups).lookup id = some item →
      after.database.groups.lookup id = some item := by
    intro id item found
    rw [FiniteMap.lookup_erase] at found
    split at found
    next => cases found
    next => exact found
  have others : ∀ uID id, IsMember after.database uID id → id ≠ groupID := by
    rintro uID id member rfl
    exact none uID member
  exact {
    succeeding := fun n => kept.succeeding _
    steady := kept.steady
    users := kept.users
    groups := kept.groups.forget groupID
    names := fun name id item id' item' found named found' named' =>
      kept.names name _ _ _ _ (rows _ _ found) named (rows _ _ found') named'
    prefixed := fun id item found => kept.prefixed _ _ (rows _ _ found)
    existing := fun uID id member => by
      obtain ⟨item, stored⟩ := kept.existing uID id member
      refine ⟨item, ?_⟩
      dsimp only
      rw [FiniteMap.lookup_erase, if_neg (others uID id member)]
      exact stored
    copies := by
      refine kept.copies.regrouped ((Later.answered after).trans (.of_eq rfl rfl)) rfl ?_ ?_ ?_
      · exact after.groups.forget_groupByUserCache groupID
      · exact fun uID id member present => GroupCaches.isSome_forget (others uID id member) present
      · intro uID id entry _ member copied held
        exact held.erase ((copy_named copied).symm ▸ others uID id member) }

/-- The group the table holds for an ID, or the invalid group. -/
def groupRecorded (database : Database) (id : String) : Group :=
  match database.groups.lookup id with
  | some item => groupOfItem id item
  | none => {}

theorem groupRecorded_eq {database : Database} {id : String} {item : GroupItem}
    (stored : database.groups.lookup id = some item) : groupRecorded database id = groupOfItem id item := by
  rw [groupRecorded, stored]

theorem GroupHeld.eq_recorded {database : Database} {group : Group} (held : GroupHeld database.groups group) :
    group = groupRecorded database group.id := by
  obtain ⟨item, stored, whole⟩ := held
  rw [groupRecorded_eq stored]
  exact whole

/-- The groups of which the table records the user as a member, each once and as the table
has it now. -/
def ListsGroups (database : Database) (uID : String) (groups : List Group) : Prop :=
  groups.Nodup ∧ ∀ group, group ∈ groups ↔
    ∃ groupID item, IsMember database uID groupID ∧ database.groups.lookup groupID = some item ∧
      group = groupOfItem groupID item

private theorem listsGroups_map {database : Database} {uID : String} {ids : List String}
    (existing : ∀ groupID, IsMember database uID groupID → ∃ item, database.groups.lookup groupID = some item)
    (nodup : ids.Nodup) (members : ∀ groupID, groupID ∈ ids ↔ IsMember database uID groupID) :
    ListsGroups database uID (ids.map (groupRecorded database)) := by
  have named : ∀ id ∈ ids, (groupRecorded database id).id = id := by
    intro id listed
    obtain ⟨item, stored⟩ := existing id ((members id).mp listed)
    rw [groupRecorded_eq stored]
    rfl
  constructor
  · refine nodup.map_on fun first isFirst second isSecond same => ?_
    rw [← named first isFirst, same, named second isSecond]
  · intro group
    rw [List.mem_map]
    constructor
    · rintro ⟨groupID, listed, rfl⟩
      have member := (members groupID).mp listed
      obtain ⟨item, stored⟩ := existing groupID member
      exact ⟨groupID, item, member, stored, groupRecorded_eq stored⟩
    · rintro ⟨groupID, item, member, stored, rfl⟩
      exact ⟨groupID, (members groupID).mpr member, groupRecorded_eq stored⟩

/-- The fresh ones among the listed groups are the groups exactly when they are all. -/
theorem listsGroups_fresh_iff {database : Database} {uID : String} {entries : List (CacheRecord Group)}
    {clock : Nat → Time} (lists : ListsGroups database uID (entries.map CacheRecord.record)) :
    ListsGroups database uID (freshRecords clock entries) ↔ AllFresh clock entries := by
  constructor
  · intro fresh
    have same : (freshRecords clock entries).Perm (entries.map CacheRecord.record) :=
      (List.perm_ext_iff_of_nodup fresh.1 lists.1).mpr fun group => (fresh.2 group).trans (lists.2 group).symm
    apply allFresh_of_length
    rw [same.length_eq, List.length_map]
  · intro fresh
    rw [freshRecords_eq fresh]
    exact lists

theorem mem_groupsOf {database : Database} {uID groupID : String} :
    groupID ∈ database.groupsOf uID ↔ IsMember database uID groupID := by
  rw [Database.groupsOf, List.mem_map]
  constructor
  · rintro ⟨⟨⟨user, group⟩, value⟩, chosen, rfl⟩
    obtain ⟨found, same⟩ := FiniteMap.mem_select.mp chosen
    obtain rfl : user = uID := beq_iff_eq.mp same
    exact Option.isSome_iff_exists.mpr ⟨value, found⟩
  · intro member
    obtain ⟨value, found⟩ := Option.isSome_iff_exists.mp member
    exact ⟨((uID, groupID), value), FiniteMap.mem_select.mpr ⟨found, beq_self_eq_true _⟩, rfl⟩

private theorem groupsOf_nodup (database : Database) (uID : String) : (database.groupsOf uID).Nodup := by
  have keys := FiniteMap.select_keys_nodup database.memberships fun key _ => key.1 == uID
  rw [Database.groupsOf]
  refine List.Nodup.map_on ?_ (List.Nodup.of_map _ keys)
  rintro ⟨⟨first, groupID⟩, _⟩ chosen ⟨⟨second, _⟩, _⟩ chosen' rfl
  have same := beq_iff_eq.mp (FiniteMap.mem_select.mp chosen).2
  have same' := beq_iff_eq.mp (FiniteMap.mem_select.mp chosen').2
  simp only at same same'
  rw [same, same']

section Listing
variable {server : Server} (consistent : GroupListingsConsistent server) (user : String)
include consistent

/-- A group of the user is listed as the table has it, and a true copy is in the category. -/
theorem returns_listGroupOfUser {groupID : String} (member : IsMember server.database user groupID) :
    Returns (listGroupOfUser user groupID) server fun group after => GroupListingsConsistent after ∧
      after.database = server.database ∧ group = groupRecorded server.database groupID ∧
      ∀ id, (id = groupID ∨ ∃ entry, copyOf server user id = some entry ∧ GroupHeld server.database.groups entry.record) →
        ∃ entry, copyOf after user id = some entry ∧ GroupHeld after.database.groups entry.record := by
  obtain ⟨item, stored⟩ := consistent.existing user groupID member
  unfold listGroupOfUser
  rw [returns_bind]
  refine (returns_findGroupByID_held consistent stored).mono ?_
  rintro group found ⟨looked, rfl, present⟩
  have kept := consistent.looked looked
  simp only [returns_bind, returns_lasting, returns_now, returns_modify, returns_pure]
  rw [← looked.database] at stored member
  have held : GroupHeld found.database.groups (groupOfItem groupID item) := groupHeld_of_lookup stored
  have passing : Later found found.tick.tick := (Later.tick found).trans (.tick _)
  refine ⟨?_, looked.database, ?_, ?_⟩
  · exact {
      succeeding := passing.succeeding kept.succeeding
      steady := passing.steady kept.steady
      users := kept.users
      groups := (kept.groups.replace held).of_eq rfl rfl
      names := kept.names
      prefixed := kept.prefixed
      existing := kept.existing
      copies := by
        refine kept.copies.put (passing.trans (.of_eq rfl rfl)) user (fun uID id => ?_) rfl held
          (fun _ => isSome_insert _ _ _ _) (isSome_insert_self _ _ _) rfl (passing.steady kept.steady)
          (kept.steady (by decide : 1 ≤ 2))
        refine ⟨.inr, fun either => either.elim (fun same => ?_) fun was => was⟩
        rw [same.1, same.2]
        exact member }
  · rw [looked.database] at stored
    exact (groupRecorded_eq stored).symm
  · intro id either
    dsimp only [copyOf]
    rw [ConcurrentMultimap.entryOf_insertOrAssign]
    split
    next => exact ⟨_, rfl, held⟩
    next different =>
      obtain rfl | ⟨entry, copied, whole⟩ := either
      · exact absurd ⟨rfl, rfl⟩ different
      · refine ⟨entry, ?_, looked.database ▸ whole⟩
        rw [tick_groups, tick_groups, looked.copies]
        exact copied

private theorem returns_collectGroups (ids : List String) (members : ∀ id ∈ ids, IsMember server.database user id) :
    Returns (ids.mapM (listGroupOfUser user)) server fun groups after => GroupListingsConsistent after ∧
      after.database = server.database ∧ groups = ids.map (groupRecorded server.database) ∧
      ∀ id ∈ ids, ∃ entry, copyOf after user id = some entry ∧ GroupHeld after.database.groups entry.record := by
  refine (returns_mapM ids _ server (fun visited groups current => GroupListingsConsistent current ∧
    current.database = server.database ∧ groups = visited.map (groupRecorded server.database) ∧
    ∀ id ∈ visited, ∃ entry, copyOf current user id = some entry ∧ GroupHeld current.database.groups entry.record)
    ⟨consistent, rfl, rfl, by simp⟩ ?_).mono fun _ _ => id
  rintro visited id rest groups current split ⟨kept, database, same, copied⟩
  have member : IsMember current.database user id := database ▸ members id (by simp [split])
  refine (returns_listGroupOfUser kept user member).mono ?_
  rintro group after ⟨last, database', rfl, copied'⟩
  refine ⟨last, database'.trans database, ?_, fun other listed => ?_⟩
  · rw [same, database, List.map_append]
    rfl
  · obtain visited | last := List.mem_append.mp listed
    · exact copied' other (.inr (copied other visited))
    · exact copied' other (.inl (List.mem_singleton.mp last))

omit consistent in
private theorem returns_cachedGroups :
    Returns (maybeReturnCachedCategoryMembers (server.groups.groupByUserCache.find user)) server fun answer after =>
      GroupsLooked server after ∧ answer =
        if server.clock 0 < server.groups.groupByUserCache.stamp user then
          some (freshRecords (fun n => server.clock (n + 1)) (server.groups.groupByUserCache.find user).members)
        else none := by
  have grown := leads_members caching_grown.toPassing (server.groups.groupByUserCache.find user) server
  have answered : Returns (maybeReturnCachedCategoryMembers (server.groups.groupByUserCache.find user)) server
      fun answer after => Looked server after ∧ answer =
        if server.clock 0 < server.groups.groupByUserCache.stamp user then
          some (freshRecords (fun n => server.clock (n + 1)) (server.groups.groupByUserCache.find user).members)
        else none := by
    refine returns_cachedMembers (fun trusted after looked => ⟨looked, ?_⟩) fun stale after looked => ⟨looked, ?_⟩
    · exact (if_pos trusted).symm
    · exact (if_neg stale).symm
  exact (answered.also grown.yields).mono fun _ after both => ⟨⟨both.1.1, both.2⟩, both.1.2⟩

/-- The copies in a trusted category are the groups of its user. -/
theorem listsGroups_cached (trusted : server.clock 0 < server.groups.groupByUserCache.stamp user) :
    ListsGroups server.database user ((server.groups.groupByUserCache.find user).members.map CacheRecord.record) := by
  have complete := consistent.copies.complete user ⟨0, trusted⟩
  have ids := Category.members_ident_nodup (server.groups.groupByUserCache.find user)
  have copied : ∀ entry ∈ (server.groups.groupByUserCache.find user).members,
      IsMember server.database user entry.record.id ∧ GroupHeld server.database.groups entry.record := by
    intro entry listed
    have found : copyOf server user entry.record.id = some entry := ConcurrentMultimap.mem_find_members.mp listed
    have member := (consistent.copies.faithful _ _ _ found).1
    obtain ⟨other, same, held⟩ := complete _ member
    rw [found] at same
    cases same
    exact ⟨member, held⟩
  have mapped : (server.groups.groupByUserCache.find user).members.map CacheRecord.record =
      ((server.groups.groupByUserCache.find user).members.map fun entry => ident entry.record).map
        (groupRecorded server.database) := by
    rw [List.map_map]
    exact List.map_congr_left fun entry listed => (copied entry listed).2.eq_recorded
  rw [mapped]
  refine listsGroups_map (consistent.existing user) ids fun groupID => ?_
  rw [List.mem_map]
  constructor
  · rintro ⟨entry, listed, rfl⟩
    exact (copied entry listed).1
  · intro member
    obtain ⟨entry, found, -⟩ := complete groupID member
    have named := copy_named found
    refine ⟨entry, ConcurrentMultimap.mem_find_members.mpr ?_, named⟩
    rw [ConcurrentMultimap.Holds, ConcurrentMultimap.findValue_eq, ident_group, named]
    exact found

/-- A listing is right unless it answers from a category in which a copy has expired. -/
theorem returns_listGroupsForUser :
    Returns (listGroupsForUser user) server fun groups after => GroupListingsConsistent after ∧
      (ListsGroups server.database user groups ↔
        (server.clock 0 < server.groups.groupByUserCache.stamp user →
          AllFresh (fun n => server.clock (n + 1)) (server.groups.groupByUserCache.find user).members)) := by
  unfold listGroupsForUser
  simp only [returns_bind, returns_get]
  refine (returns_cachedGroups user).mono ?_
  rintro answer asked ⟨looked, answered⟩
  have kept := consistent.looked looked
  by_cases trusted : server.clock 0 < server.groups.groupByUserCache.stamp user
  · rw [if_pos trusted] at answered
    subst answered
    refine ⟨kept, ?_⟩
    rw [listsGroups_fresh_iff (listsGroups_cached consistent user trusted)]
    exact ⟨fun fresh _ => fresh, fun fresh => fresh trusted⟩
  rw [if_neg trusted] at answered
  subst answered
  have recorded := listsGroups_map (consistent.existing user) (groupsOf_nodup server.database user) fun _ => mem_groupsOf
  simp only [returns_bind, returns_request, returns_ite, kept.succeeding 0, if_true, returns_get, returns_pure,
    returns_now, returns_modify, answered_database, looked.database]
  split
  next none =>
    refine ⟨kept.looked (.answered asked), iff_of_true ?_ fun yet => absurd yet trusted⟩
    rw [none] at recorded
    exact recorded
  next some =>
    have collected := returns_collectGroups (kept.looked (.answered asked)) user (server.database.groupsOf user)
      fun id listed => by
        rw [answered_database, looked.database]
        exact mem_groupsOf.mp listed
    rw [answered_database, looked.database] at collected
    refine collected.mono ?_
    rintro groups after ⟨last, database, rfl, copied⟩
    refine ⟨?_, iff_of_true recorded fun yet => absurd yet trusted⟩
    exact {
      succeeding := last.succeeding
      steady := (Later.tick after).steady last.steady
      users := last.users
      groups := last.groups.of_eq rfl rfl
      names := last.names
      prefixed := last.prefixed
      existing := last.existing
      copies := last.copies.stamp ((Later.tick after).trans (.of_eq rfl rfl)) rfl rfl rfl fun groupID member =>
        copied groupID (mem_groupsOf.mpr (database ▸ member)) }

end Listing

inductive GroupOperation where
  | addGroup (group : Group)
  | updateGroup (group : Group)
  | removeGroup (groupID : String)
  | addUserToGroup (uID group : String)
  | removeUserFromGroup (uID group : String)
  | listGroupsForUser (user : String)
  | findGroupByID (id : String)
  | findGroupByName (name : String)
  deriving DecidableEq, Repr

namespace GroupOperation

def execute : GroupOperation → StoreM Unit
  | .addGroup group => do let _ ← Slate.addGroup group
  | .updateGroup group => do let _ ← Slate.updateGroup group
  | .removeGroup groupID => do let _ ← Slate.removeGroup groupID
  | .addUserToGroup uID group => do let _ ← Slate.addUserToGroup uID group
  | .removeUserFromGroup uID group => do let _ ← Slate.removeUserFromGroup uID group
  | .listGroupsForUser user => do let _ ← Slate.listGroupsForUser user
  | .findGroupByID id => do let _ ← Slate.findGroupByID id
  | .findGroupByName name => do let _ ← Slate.findGroupByName name

/-- A new group has a fresh ID of the usual form and an unused name, and no attribute that
must not be empty is empty. A group that is updated exists and keeps its name, and no
category that can still be trusted holds another record of it. Users who become members
exist, and so does their group. -/
def permitted : GroupOperation → Server → Prop
  | .addGroup group, server => group.valid = true ∧ startsWith groupIDPrefix group.id = true ∧
      server.database.groups.lookup group.id = none ∧
      (∀ id item, server.database.groups.lookup id = some item → item.name ≠ group.name) ∧
      group.email ≠ "" ∧ group.phone ≠ "" ∧ group.scienceField ≠ "" ∧ group.description ≠ ""
  | .updateGroup group, server => group.valid = true ∧
      (∃ item, server.database.groups.lookup group.id = some item ∧ item.name = group.name) ∧ NoOtherCopy server group
  | .addUserToGroup uID text, server => (∃ item, server.database.users.lookup uID = some item) ∧
      ∀ groupID, DesignatesGroup server.database text groupID →
        ∃ item, server.database.groups.lookup groupID = some item
  | _, _ => True

end GroupOperation

private theorem execute_keeps_groups (operation : GroupOperation) (server : Server)
    (consistent : GroupListingsConsistent server) (allowed : operation.permitted server) :
    Returns operation.execute server fun _ after => GroupListingsConsistent after := by
  cases operation with
  | addGroup group =>
    obtain ⟨valid, known, fresh, unused, given⟩ := allowed
    simp only [GroupOperation.execute, returns_bind, returns_pure]
    exact returns_addGroup_listed consistent valid known fresh unused given
  | updateGroup group =>
    obtain ⟨valid, ⟨item, stored, same⟩, copies⟩ := allowed
    simp only [GroupOperation.execute, returns_bind, returns_pure]
    refine returns_updateGroup_listed consistent valid (consistent.prefixed _ _ stored) (fun id other found => ?_) copies
    constructor
    · rintro rfl
      rw [stored] at found
      cases found
      exact same
    · exact fun named => consistent.names group.name _ _ _ _ found named stored same
  | removeGroup groupID =>
    simp only [GroupOperation.execute, returns_bind, returns_pure]
    exact returns_removeGroup_listed consistent groupID
  | addUserToGroup uID text =>
    simp only [GroupOperation.execute, returns_bind, returns_pure]
    exact returns_addUserToGroup_listed consistent allowed.1 allowed.2
  | removeUserFromGroup uID text =>
    simp only [GroupOperation.execute, returns_bind, returns_pure]
    exact (returns_removeUserFromGroup_listed consistent uID text).mono fun _ _ => And.left
  | listGroupsForUser user =>
    simp only [GroupOperation.execute, returns_bind, returns_pure]
    exact (returns_listGroupsForUser consistent user).mono fun _ _ => And.left
  | findGroupByID id =>
    simp only [GroupOperation.execute, returns_bind, returns_pure]
    exact (returns_findGroupByID_grown id server).mono fun _ _ looked => consistent.looked looked
  | findGroupByName name =>
    simp only [GroupOperation.execute, returns_bind, returns_pure]
    exact (returns_findGroupByName_grown consistent name).mono fun _ _ looked => consistent.looked looked

/-- A server that has just started on tables which fit together. -/
structure GroupListingsStart (server : Server) : Prop where
  users : server.users = {}
  groups : server.groups = {}
  names : ∀ name, GroupNameUnique server.database.groups name
  prefixed : ∀ groupID item, server.database.groups.lookup groupID = some item → startsWith groupIDPrefix groupID = true
  existing : ∀ uID groupID, IsMember server.database uID groupID → ∃ item, server.database.groups.lookup groupID = some item
  succeeding : Succeeding server
  steady : Steady server

theorem GroupListingsStart.consistent {server : Server} (start : GroupListingsStart server) :
    GroupListingsConsistent server where
  succeeding := start.succeeding
  steady := start.steady
  users := start.users ▸ .empty _
  groups := start.groups ▸ .empty _
  names := start.names
  prefixed := start.prefixed
  existing := start.existing
  copies := by
    constructor
    · intro uID groupID entry found
      simp [copyOf, start.groups] at found
    · intro uID trusted
      rw [start.groups, ConcurrentMultimap.stamp_empty] at trusted
      exact absurd trusted (not_trusted_zero _)

/-- After any sequence of operations in which no update changes a group of which a trusted
category holds a copy, and for any passage of time, a listing gives exactly the groups the
table records, as it has them now, if and only if no copy of the category it answers from
has expired before its turn to be checked. -/
theorem group_listings_current_iff {server : Server} {history : List GroupOperation} (start : GroupListingsStart server)
    (allowed : Permitted GroupOperation.execute GroupOperation.permitted history server) :
    Returns (history.forM GroupOperation.execute) server fun _ current => ∀ user,
      Returns (listGroupsForUser user) current (fun groups _ => ListsGroups current.database user groups) ↔
        (current.clock 0 < current.groups.groupByUserCache.stamp user →
          AllFresh (fun n => current.clock (n + 1)) (current.groups.groupByUserCache.find user).members) := by
  refine (returns_history execute_keeps_groups start.consistent allowed).mono fun _ current consistent user => ?_
  obtain ⟨groups, after, ran, -, exact_⟩ := returns_iff.mp (returns_listGroupsForUser consistent user)
  rw [Returns, ran]
  exact exact_

/-- A member of a group, on a server whose clock does not move. -/
def physicsServer : Server where
  database := {
    users := AList.insert "user_1" ⟨"Alice", "globus", "token", "a@b", none, none, false⟩ ∅
    memberships := AList.insert ("user_1", "group_1") () ∅
    groups := AList.insert "group_1" ⟨"physics", some "old@x", some "1", some "Physics", some "none"⟩ ∅ }

def physicsGroup : Group := ⟨true, "group_1", "physics", "new@x", "1", "Physics", "none"⟩

private theorem physicsServer_start : GroupListingsStart physicsServer where
  users := rfl
  groups := rfl
  names := by
    intro name id item id' item' found named found' named'
    simp only [physicsServer, FiniteMap.lookup_insert, FiniteMap.lookup_empty] at found found'
    split at found <;> split at found' <;> simp_all
  prefixed := by
    intro groupID item found
    simp only [physicsServer, FiniteMap.lookup_insert, FiniteMap.lookup_empty] at found
    split at found
    next same => rw [same]; decide
    next => cases found
  existing := by
    intro uID groupID member
    simp only [IsMember, physicsServer, FiniteMap.lookup_insert, FiniteMap.lookup_empty, Prod.mk.injEq] at member ⊢
    split at member
    next same => simp [same.2]
    next => simp at member
  succeeding := fun _ => rfl
  steady := fun _ _ _ => Nat.le_refl 0

/-- The groups of a user are listed, then one of them gets another address. Its row exists
and keeps its name; yet the next listing, at the same time, shows the old address. -/
theorem group_listed_as_before_update :
    GroupListingsStart physicsServer ∧
      (physicsServer.database.groups.lookup "group_1").map GroupItem.name = some physicsGroup.name ∧
      Returns ([.listGroupsForUser "user_1", .updateGroup physicsGroup].forM GroupOperation.execute) physicsServer
        fun _ current => current.database.groups.lookup "group_1" = some (itemOfGroup physicsGroup) ∧
          Returns (listGroupsForUser "user_1") current fun groups _ =>
            groups = [{ physicsGroup with email := "old@x" }] ∧ ¬ ListsGroups current.database "user_1" groups := by
  refine ⟨physicsServer_start, rfl, rfl, rfl, fun lists => ?_⟩
  have listed := (lists.2 physicsGroup).mpr ⟨"group_1", itemOfGroup physicsGroup, rfl, rfl, rfl⟩
  exact absurd listed (by decide)

theorem group_listings_current_run :
    Returns ([.updateGroup physicsGroup, .listGroupsForUser "user_1"].forM GroupOperation.execute) physicsServer
      fun _ current => Returns (listGroupsForUser "user_1") current fun groups _ =>
        ListsGroups current.database "user_1" groups := by
  have allowed : Permitted GroupOperation.execute GroupOperation.permitted
      [.updateGroup physicsGroup, .listGroupsForUser "user_1"] physicsServer :=
    ⟨⟨rfl, ⟨_, rfl, rfl⟩, fun _ _ trusted => absurd trusted (Nat.not_lt_zero 0)⟩, fun _ _ => ⟨trivial, fun _ _ => trivial⟩⟩
  have fresh : Returns ([.updateGroup physicsGroup, .listGroupsForUser "user_1"].forM GroupOperation.execute) physicsServer
      fun _ current => current.clock 0 < current.groups.groupByUserCache.stamp "user_1" →
        AllFresh (fun n => current.clock (n + 1)) (current.groups.groupByUserCache.find "user_1").members :=
    fun _ _ entry _ => Nat.zero_le entry.expirationTime
  exact ((group_listings_current_iff physicsServer_start allowed).and fresh).mono fun _ _ both => (both.1 "user_1").mpr both.2

end Slate
