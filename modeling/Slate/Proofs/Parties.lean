import Slate.Library.Upholding
import Slate.UserRequests

/-! Users who act together, and what the store keeps of others while it does as they ask. -/

namespace Slate
open Library

/-- Users who act together: their accounts, the tokens set aside for them, the groups none of them
belongs to, with the names and the secrets of these groups, and the data in which what is secret is sealed. -/
structure Party where
  ids : Set String
  tokens : Set String
  closed : Set String
  names : Set String
  secrets : Set String
  sealed : Set String
  nobody : "" ∉ ids

namespace Party
variable (party : Party)

/-- Of the tokens of accounts, the ones set aside are those of the party, which has no administrator. -/
structure Fits (user : User) : Prop where
  token : user.valid = true → (user.token ∈ party.tokens ↔ user.id ∈ party.ids)
  plain : user.valid = true → user.id ∈ party.ids → user.admin = false

structure FitsGroup (group : Group) : Prop where
  known : group.valid = true → startsWith groupIDPrefix group.id = true
  name : group.valid = true → (group.name ∈ party.names ↔ group.id ∈ party.closed)

/-- What a closed group may be called in a request. -/
def Closed (groupID : String) : Prop :=
  if startsWith groupIDPrefix groupID = true then groupID ∈ party.closed else groupID ∈ party.names

/-- The secrets of closed groups are told by their IDs, and only they may have sealed data. -/
structure FitsSecret (secret : Secret) : Prop where
  place : secret.valid = true → (secret.id ∈ party.secrets ↔ party.Closed secret.group)
  data : secret.valid = true → secret.data ∈ party.sealed → party.Closed secret.group

end Party

/-- Whatever is stored or cached fits the party. -/
structure Contained (party : Party) (server : Server) : Prop where
  rows : ∀ id item, server.database.users.lookup id = some item → party.Fits (userOfItem id item)
  byID : Keeps server.users.userCache User.id party.Fits
  byToken : Keeps server.users.userByTokenCache User.token party.Fits
  byGlobusID : Keeps server.users.userByGlobusIDCache User.globusID party.Fits
  members : ∀ uID groupID, server.database.memberships.lookup (uID, groupID) = some () → uID ∈ party.ids → groupID ∉ party.closed
  known : ∀ uID groupID entry, server.users.userByGroupCache.entryOf groupID uID = some entry → uID ∈ party.ids →
    groupID ∉ party.closed
  groupRows : ∀ id item, server.database.groups.lookup id = some item → party.FitsGroup (groupOfItem id item)
  groupsByID : Keeps server.groups.groupCache Group.id party.FitsGroup
  groupsByName : Keeps server.groups.groupByNameCache Group.name party.FitsGroup
  secretRows : ∀ id item, server.database.secrets.lookup id = some item → party.FitsSecret (secretOfItem id item)
  secretsByID : Keeps server.secrets.secretCache Secret.id party.FitsSecret

theorem Contained.of_same {party : Party} {before after : Server} (contained : Contained party before)
    (database : after.database = before.database) (users : after.users = before.users) (groups : after.groups = before.groups)
    (secrets : after.secrets = before.secrets) : Contained party after where
  rows := database ▸ contained.rows
  byID := users ▸ contained.byID
  byToken := users ▸ contained.byToken
  byGlobusID := users ▸ contained.byGlobusID
  members := database ▸ contained.members
  known := users ▸ contained.known
  groupRows := database ▸ contained.groupRows
  groupsByID := groups ▸ contained.groupsByID
  groupsByName := groups ▸ contained.groupsByName
  secretRows := database ▸ contained.secretRows
  secretsByID := secrets ▸ contained.secretsByID

/-- No account but those of the party has changed, no membership in a closed group and no secret of one, and nothing
that is stored besides. -/
structure Spared (party : Party) (before after : Server) : Prop where
  users : ∀ id, id ∉ party.ids → after.database.users.lookup id = before.database.users.lookup id
  memberships : ∀ uID groupID, groupID ∈ party.closed →
    after.database.memberships.lookup (uID, groupID) = before.database.memberships.lookup (uID, groupID)
  secrets : ∀ id, id ∈ party.secrets → after.database.secrets.lookup id = before.database.secrets.lookup id
  others : after.database = { before.database with
    users := after.database.users
    memberships := after.database.memberships
    secrets := after.database.secrets }

theorem Spared.of_same {party : Party} {before after : Server} (same : after.database = before.database) :
    Spared party before after :=
  ⟨fun _ _ => by rw [same], fun _ _ _ => by rw [same], fun _ _ => by rw [same], by rw [same]⟩

instance (party : Party) : IsPreorder Server (Spared party) where
  refl _ := .of_same rfl
  trans first second third early late := {
    users := fun id other => (late.users id other).trans (early.users id other)
    memberships := fun uID groupID closed => (late.memberships uID groupID closed).trans (early.memberships uID groupID closed)
    secrets := fun id closed => (late.secrets id closed).trans (early.secrets id closed)
    others := by
      rw [late.others, early.others] }

/-- What the party itself does spares others. -/
def Sparing (party : Party) (own : Prop) (before after : Server) : Prop := own → Spared party before after

instance (party : Party) (own : Prop) : IsPreorder Server (Sparing party own) where
  refl state _ := refl (r := Spared party) state
  trans _ _ _ early late is := IsTrans.trans (r := Spared party) _ _ _ (early is) (late is)

/-- The store keeps what it is trusted with, whatever it throws. -/
abbrev Upheld {α : Type} (party : Party) (own : Prop) (program : StoreM α) (good : α → Prop) : Prop :=
  Upholds (Contained party) (Sparing party own) (fun _ => True) program good

section
variable {party : Party} {own : Prop}

/-- A change of what is cached alone. -/
theorem upheld_caches {change : Server → Server} (same : ∀ server, (change server).database = server.database)
    (keeps : ∀ server, Contained party server → Contained party (change server)) :
    Upheld party own (modify change) fun _ => True :=
  .modifies fun server contained => ⟨keeps server contained, fun _ => .of_same (same server)⟩

theorem upheld_now : Upheld party own now fun _ => True :=
  .modifyGet fun _ contained => ⟨contained.of_same rfl rfl rfl rfl, fun _ => .of_same rfl, trivial⟩

theorem upheld_request : Upheld party own request fun _ => True :=
  .modifyGet fun _ contained => ⟨contained.of_same rfl rfl rfl rfl, fun _ => .of_same rfl, trivial⟩

theorem upheld_lasting {α : Type} (record : α) (validity : Time) :
    Upheld party own (CacheRecord.lasting record validity) fun entry => entry.record = record :=
  upheld_now.bind fun _ _ => .pure rfl

theorem upheld_current {α : Type} (entry : CacheRecord α) : Upheld party own entry.current fun _ => True :=
  upheld_now.bind fun _ _ => .pure trivial

theorem upheld_cached {α : Type} {cache : CuckooHashMap String (CacheRecord α)} {name : String} (good : α → Prop)
    (known : ∀ entry, cache.lookup name = some entry → good entry.record) :
    Upheld party own (cached cache name) fun found => ∀ value, found = some value → good value := by
  unfold cached
  split
  next => exact .pure fun _ impossible => by cases impossible
  next entry found =>
    apply (upheld_current entry).bind
    intro fresh _
    refine .ite (fun _ => ?_) fun _ => .pure fun _ impossible => by cases impossible
    apply Upholds.pure
    rintro _ ⟨⟩
    exact known entry found

theorem Contained.replace {before : Server} (contained : Contained party before) {record : CacheRecord User}
    (fits : party.Fits record.record) : Contained party { before with users := before.users.replace record } :=
  { contained with
    byID := contained.byID.insert fits fun _ _ => id
    byToken := contained.byToken.insert fits fun _ _ => id
    byGlobusID := contained.byGlobusID.insert fits fun _ _ => id }

theorem upheld_cacheUser {user : User} (fits : party.Fits user) : Upheld party own (cacheUser user) fun _ => True := by
  apply (upheld_lasting user userCacheValidity).bind
  rintro record same
  refine upheld_caches (fun _ => rfl) ?_
  intro server contained
  exact contained.replace (same ▸ fits)

theorem Party.Fits.invalid {user : User} (invalid : user.valid = false) : party.Fits user :=
  ⟨fun valid => Bool.noConfusion (invalid.symm.trans valid), fun valid => Bool.noConfusion (invalid.symm.trans valid)⟩

theorem upheld_getUser (id : String) :
    Upheld party own (getUser id) fun user => party.Fits user ∧ (user.id = id ∨ user = {}) := by
  have nobody : party.Fits {} := .invalid rfl
  apply Upholds.get.bind
  intro server contained
  apply (upheld_cached (fun user => user.id = id ∧ party.Fits user) (contained.byID id)).bind
  intro found known
  cases found with
  | some user =>
    obtain ⟨same, fits⟩ := known user rfl
    exact .pure ⟨fits, .inl same⟩
  | none =>
    apply upheld_request.bind
    intro answered _
    refine .ite (fun _ => ?_) fun _ => .pure ⟨nobody, .inr rfl⟩
    apply Upholds.get.bind
    intro server contained
    split
    next => exact .pure ⟨nobody, .inr rfl⟩
    next item found =>
      apply (upheld_cacheUser (contained.rows id item found)).bind
      intro _ _
      exact .pure ⟨contained.rows id item found, .inl rfl⟩

private theorem upheld_findUserBy {cache : UserCaches → CuckooHashMap String (CacheRecord User)} {key : UserItem → String}
    {shown : User → String} (keeps : ∀ server, Contained party server → Keeps (cache server.users) shown party.Fits)
    (same : ∀ id item, shown (userOfItem id item) = key item) (described value : String) :
    Upheld party own (findUserBy cache key described value) fun user =>
      party.Fits user ∧ (user.valid = true → shown user = value) := by
  have nobody : party.Fits {} := .invalid rfl
  apply Upholds.get.bind
  intro server contained
  apply (upheld_cached (fun user => shown user = value ∧ party.Fits user) (keeps server contained value)).bind
  intro found known
  cases found with
  | some user =>
    obtain ⟨same, fits⟩ := known user rfl
    exact .pure ⟨fits, fun _ => same⟩
  | none =>
    apply upheld_request.bind
    intro answered _
    refine .ite (fun _ => ?_) fun _ => .pure ⟨nobody, fun impossible => by cases impossible⟩
    apply Upholds.get.bind
    intro server contained
    split
    next => exact .pure ⟨nobody, fun impossible => by cases impossible⟩
    next id item selected =>
      have member : (id, item) ∈ server.database.users.select fun _ item => key item == value := by
        rw [selected]
        exact .head _
      obtain ⟨found, wanted⟩ := FiniteMap.mem_select.mp member
      apply (upheld_cacheUser (contained.rows id item found)).bind
      intro _ _
      exact .pure ⟨contained.rows id item found, fun _ => (same id item).trans (beq_iff_eq.mp wanted)⟩
    next => exact .throw trivial

private theorem upheld_findUserByToken (token : String) :
    Upheld party own (findUserByToken token) fun user => party.Fits user ∧ (user.valid = true → user.token = token) :=
  upheld_findUserBy (fun _ contained => contained.byToken) (fun _ _ => rfl) _ _

theorem upheld_findUserByGlobusID (globusID : String) :
    Upheld party own (findUserByGlobusID globusID) fun user =>
      party.Fits user ∧ (user.valid = true → user.globusID = globusID) :=
  upheld_findUserBy (fun _ contained => contained.byGlobusID) (fun _ _ => rfl) _ _

/-- Who asks with a token set aside for the party is one of it. -/
theorem upheld_authenticateUser (token : Option String) :
    Upheld party own (authenticateUser token) fun user => party.Fits user ∧
      ((∀ text, token = some text → text ∈ party.tokens) → user.valid = true → user.id ∈ party.ids) := by
  cases token with
  | none => exact .pure ⟨.invalid rfl, fun _ impossible => by cases impossible⟩
  | some text =>
    apply (upheld_findUserByToken text).mono
    rintro user ⟨fits, same⟩
    refine ⟨fits, fun carried valid => (fits.token valid).mp ?_⟩
    rw [same valid]
    exact carried text rfl

/-- Writing a record that fits, and of the party if the party writes it. -/
theorem upheld_putUserItem {user : User} (valid : user.valid = true) (fits : party.Fits user) (mine : own → user.id ∈ party.ids) :
    Upheld party own (putUserItem user) fun _ => True := by
  apply Upholds.modifies
  intro server contained
  constructor
  · refine { contained with rows := ?_ }
    intro id item found
    dsimp only at found
    rw [FiniteMap.lookup_insert] at found
    split at found
    next same =>
      cases found
      have whole : userOfItem user.id (itemOfUser user) = user := by
        cases user
        cases valid
        rfl
      rw [same, whole]
      exact fits
    next => exact contained.rows id item found
  · intro is
    refine ⟨fun id other => ?_, fun _ _ _ => rfl, fun _ _ => rfl, rfl⟩
    dsimp only
    rw [FiniteMap.lookup_insert, if_neg]
    rintro rfl
    exact other (mine is)

theorem upheld_addUser {user : User} (valid : user.valid = true) (fits : party.Fits user) (mine : own → user.id ∈ party.ids) :
    Upheld party own (addUser user) fun _ => True := by
  apply upheld_request.bind
  intro answered _
  refine .ite (fun _ => ?_) fun _ => .pure trivial
  apply (upheld_putUserItem valid fits mine).bind
  intro _ _
  exact (upheld_cacheUser fits).bind fun _ _ => .pure trivial

theorem upheld_updateUser {user oldUser : User} (valid : user.valid = true) (fits : party.Fits user)
    (mine : own → user.id ∈ party.ids) : Upheld party own (updateUser user oldUser) fun _ => True := by
  apply upheld_request.bind
  intro answered _
  refine .ite (fun _ => ?_) fun _ => .pure trivial
  apply (upheld_putUserItem valid fits mine).bind
  intro _ _
  apply (upheld_lasting user userCacheValidity).bind
  rintro record rfl
  have first : Upheld party own (modify fun server => { server with users := { server.users with
      userCache := server.users.userCache.insert record.record.id record } }) fun _ => True := by
    refine upheld_caches (fun _ => rfl) ?_
    intro server contained
    exact { contained with byID := contained.byID.insert fits fun _ _ => id }
  have second : Upheld party own (modify fun server => { server with users := server.users.eraseToken oldUser.token })
      fun _ => True := by
    refine upheld_caches (fun _ => rfl) ?_
    intro server contained
    exact { contained with byToken := contained.byToken.erase fun _ _ => id }
  have third : Upheld party own (modify fun server => { server with users := { server.users with
      userByTokenCache := server.users.userByTokenCache.insert record.record.token record
      userByGlobusIDCache := server.users.userByGlobusIDCache.insert record.record.globusID record } }) fun _ => True := by
    refine upheld_caches (fun _ => rfl) ?_
    intro server contained
    exact { contained with byToken := contained.byToken.insert fits fun _ _ => id
                           byGlobusID := contained.byGlobusID.insert fits fun _ _ => id }
  apply first.bind
  intro _ _
  exact .ite (fun _ => second.bind fun _ _ => third.bind fun _ _ => .pure trivial) fun _ => third.bind fun _ _ => .pure trivial

theorem Contained.forget {before : Server} (contained : Contained party before) (uID : String) :
    Contained party { before with users := before.users.forget uID } := by
  unfold UserCaches.forget
  split
  next => exact contained.of_same rfl rfl rfl rfl
  next =>
    exact { contained with byID := contained.byID.erase fun _ _ => id, byToken := contained.byToken.erase fun _ _ => id
                           byGlobusID := contained.byGlobusID.erase fun _ _ => id }

private theorem upheld_deleteUserItem {id : String} (mine : own → id ∈ party.ids) :
    Upheld party own (deleteUserItem id) fun _ => True := by
  apply Upholds.modifies
  intro server contained
  constructor
  · refine { contained with rows := ?_ }
    intro other item found
    dsimp only at found
    rw [FiniteMap.lookup_erase] at found
    split at found
    next => cases found
    next => exact contained.rows other item found
  · intro is
    refine ⟨fun other others => ?_, fun _ _ _ => rfl, fun _ _ => rfl, rfl⟩
    dsimp only
    rw [FiniteMap.lookup_erase, if_neg]
    rintro rfl
    exact others (mine is)

theorem upheld_removeUser {id : String} (mine : own → id ∈ party.ids) : Upheld party own (removeUser id) fun _ => True := by
  have forgotten : Upheld party own (modify fun server => { server with users := server.users.forget id }) fun _ => True :=
    upheld_caches (fun _ => rfl) fun server contained => contained.forget id
  apply forgotten.bind
  intro _ _
  apply upheld_request.bind
  intro answered _
  exact .ite (fun _ => (upheld_deleteUserItem mine).bind fun _ _ => .pure trivial) fun _ => .pure trivial

private theorem upheld_cacheGroup {group : Group} (fits : party.FitsGroup group) : Upheld party own (cacheGroup group) fun _ => True := by
  apply (upheld_lasting group groupCacheValidity).bind
  rintro record rfl
  refine upheld_caches (fun _ => rfl) ?_
  intro server contained
  exact { contained with
    groupsByID := contained.groupsByID.insert fits fun _ _ => id
    groupsByName := contained.groupsByName.insert fits fun _ _ => id }

theorem Party.FitsGroup.invalid {group : Group} (invalid : group.valid = false) : party.FitsGroup group :=
  ⟨fun valid => Bool.noConfusion (invalid.symm.trans valid), fun valid => Bool.noConfusion (invalid.symm.trans valid)⟩

theorem upheld_findGroupByID (id : String) :
    Upheld party own (findGroupByID id) fun group => party.FitsGroup group ∧ (group.valid = true → group.id = id) := by
  have nothing : party.FitsGroup {} := .invalid rfl
  apply Upholds.get.bind
  intro server contained
  apply (upheld_cached (fun group => group.id = id ∧ party.FitsGroup group) (contained.groupsByID id)).bind
  intro found known
  cases found with
  | some group =>
    obtain ⟨same, fits⟩ := known group rfl
    exact .pure ⟨fits, fun _ => same⟩
  | none =>
    apply upheld_request.bind
    intro answered _
    refine .ite (fun _ => ?_) fun _ => .pure ⟨nothing, fun impossible => by cases impossible⟩
    apply Upholds.get.bind
    intro server contained
    split
    next => exact .pure ⟨nothing, fun impossible => by cases impossible⟩
    next item found =>
      apply (upheld_cacheGroup (contained.groupRows id item found)).bind
      intro _ _
      exact .pure ⟨contained.groupRows id item found, fun _ => rfl⟩

theorem upheld_findGroupByName (name : String) :
    Upheld party own (findGroupByName name) fun group => party.FitsGroup group ∧ (group.valid = true → group.name = name) := by
  have nothing : party.FitsGroup {} := .invalid rfl
  apply Upholds.get.bind
  intro server contained
  apply (upheld_cached (fun group => group.name = name ∧ party.FitsGroup group) (contained.groupsByName name)).bind
  intro found known
  cases found with
  | some group =>
    obtain ⟨same, fits⟩ := known group rfl
    exact .pure ⟨fits, fun _ => same⟩
  | none =>
    apply upheld_request.bind
    intro answered _
    refine .ite (fun _ => ?_) fun _ => .pure ⟨nothing, fun impossible => by cases impossible⟩
    apply Upholds.get.bind
    intro server contained
    split
    next => exact .pure ⟨nothing, fun impossible => by cases impossible⟩
    next id item selected =>
      have member : (id, item) ∈ server.database.groups.select fun _ item => item.name == name := by
        rw [selected]
        exact .head _
      obtain ⟨found, wanted⟩ := FiniteMap.mem_select.mp member
      have fits : party.FitsGroup { groupOfItem id item with name } := by
        obtain rfl := beq_iff_eq.mp wanted
        exact contained.groupRows id item found
      apply (upheld_cacheGroup fits).bind
      intro _ _
      exact .pure ⟨fits, fun _ => rfl⟩
    next => exact .throw trivial

/-- The ID of a group is called closed exactly if its name is. -/
theorem Party.FitsGroup.closed_iff {group : Group} (fits : party.FitsGroup group) (valid : group.valid = true) :
    party.Closed group.id ↔ group.id ∈ party.closed := by
  rw [Party.Closed, if_pos (fits.known valid)]

/-- The closed groups are those that closed groups may be called. -/
theorem upheld_normalizeGroupID (groupID : String) :
    Upheld party own (normalizeGroupID groupID false) fun found =>
      ∀ id, found = some id → (id ∈ party.closed ↔ party.Closed groupID) := by
  by_cases known : startsWith groupIDPrefix groupID = true
  · rw [normalizeGroupID_known known]
    apply Upholds.pure
    rintro _ ⟨⟩
    rw [Party.Closed, if_pos known]
  · unfold normalizeGroupID
    simp only [Bool.false_eq_true, if_false, known, Bool.not_false, if_true]
    apply (upheld_findGroupByName groupID).bind
    rintro group ⟨fits, same⟩
    refine .ite (fun _ => .pure fun _ impossible => by cases impossible) fun valid => .pure ?_
    have valid : group.valid = true := by simpa using valid
    rintro _ ⟨⟩
    rw [Party.Closed, if_neg known, ← same valid]
    exact (fits.name valid).symm

theorem upheld_getGroup (idOrName : String) : Upheld party own (getGroup idOrName) fun group =>
    group.valid = true → (party.Closed group.id ↔ party.Closed idOrName) := by
  refine .ite (fun known => ?_) fun unknown => ?_
  · apply (upheld_findGroupByID idOrName).mono
    rintro group ⟨-, same⟩ valid
    rw [same valid]
  · apply (upheld_findGroupByName idOrName).mono
    rintro group ⟨fits, same⟩ valid
    rw [fits.closed_iff valid, ← fits.name valid, same valid, Party.Closed, if_neg unknown]

theorem upheld_cacheMembership {uID groupID : String} (outside : uID ∈ party.ids → groupID ∉ party.closed) :
    Upheld party own (cacheMembership uID groupID) fun _ => True := by
  apply (upheld_lasting uID userCacheValidity).bind
  rintro record rfl
  apply upheld_now.bind
  intro reading _
  refine upheld_caches (fun _ => rfl) ?_
  intro server contained
  refine { contained with known := ?_ }
  intro other group entry found
  dsimp only at found
  rw [ConcurrentMultimap.entryOf_insertOrAssign] at found
  split at found
  next same =>
    obtain ⟨rfl, rfl⟩ := same
    exact outside
  next => exact contained.known other group entry found

private theorem upheld_membershipLookup (uID groupID : String) : Upheld party own (membershipLookup uID groupID) fun answer =>
    ∀ found, answer = some found → uID ∈ party.ids → groupID ∉ party.closed := by
  apply Upholds.get.bind
  intro server contained
  split
  next => exact .pure fun _ impossible => by cases impossible
  next record found =>
    apply (upheld_current record).bind
    intro fresh _
    refine .ite (fun _ => ?_) fun _ => .pure fun _ impossible => by cases impossible
    apply (upheld_current record).bind
    exact fun _ _ => .pure fun _ _ => contained.known uID groupID record found

private theorem upheld_membershipQuery (uID groupID : String) : Upheld party own (membershipQuery uID groupID) fun answer =>
    answer = true → uID ∈ party.ids → groupID ∉ party.closed := by
  apply upheld_request.bind
  intro answered _
  refine .ite (fun _ => ?_) fun _ => .pure fun impossible => by cases impossible
  apply Upholds.get.bind
  intro server contained
  apply Upholds.pure
  intro present
  obtain ⟨⟨⟩, found⟩ := Option.isSome_iff_exists.mp present
  exact contained.members uID groupID found

/-- Nobody of the party is found to be a member of a closed group. -/
theorem upheld_userInGroup (uID groupID : String) :
    Upheld party own (userInGroup uID groupID) fun answer => answer = true → uID ∈ party.ids → ¬ party.Closed groupID := by
  apply (upheld_normalizeGroupID groupID).bind
  intro normalized same
  cases normalized with
  | none => exact .pure fun impossible => by cases impossible
  | some group =>
    have closed := same group rfl
    apply (upheld_membershipLookup uID group).bind
    intro answer known
    cases answer with
    | some answer => exact .pure fun _ mine => mt closed.mpr (known answer rfl mine)
    | none =>
      apply (upheld_membershipQuery uID group).bind
      intro confirmed known
      refine .ite (fun yes => ?_) fun _ => .pure fun impossible => by cases impossible
      apply (upheld_cacheMembership (known yes)).bind
      exact fun _ _ => .pure fun _ mine => mt closed.mpr (known yes mine)

private theorem upheld_putMembership {uID groupID : String} (outside : uID ∈ party.ids → groupID ∉ party.closed)
    (mine : own → groupID ∉ party.closed) : Upheld party own (putMembership uID groupID) fun _ => True := by
  apply Upholds.modifies
  intro server contained
  constructor
  · refine { contained with members := ?_ }
    intro other group found
    dsimp only at found
    rw [FiniteMap.lookup_insert] at found
    split at found
    next same =>
      obtain ⟨rfl, rfl⟩ := Prod.mk.inj same
      exact outside
    next => exact contained.members other group found
  · intro is
    refine ⟨fun _ _ => rfl, fun other group closed => ?_, fun _ _ => rfl, rfl⟩
    dsimp only
    rw [FiniteMap.lookup_insert, if_neg]
    rintro same
    obtain ⟨-, rfl⟩ := Prod.mk.inj same
    exact mine is closed

private theorem upheld_cacheGroupOfUser (userID : String) (group : Group) :
    Upheld party own (cacheGroupOfUser userID group) fun _ => True := by
  apply (upheld_lasting group groupCacheValidity).bind
  intro record _
  apply upheld_now.bind
  intro reading _
  refine upheld_caches (fun _ => rfl) ?_
  intro server contained
  exact { contained with }

theorem upheld_addUserToGroup {uID groupID : String} (outside : uID ∈ party.ids → ¬ party.Closed groupID)
    (mine : own → ¬ party.Closed groupID) : Upheld party own (addUserToGroup uID groupID) fun _ => True := by
  apply (upheld_normalizeGroupID groupID).bind
  intro normalized same
  cases normalized with
  | none => exact .pure trivial
  | some id =>
    have closed := same id rfl
    apply (upheld_findGroupByID id).bind
    intro group _
    apply (upheld_getUser uID).bind
    intro user _
    apply upheld_request.bind
    intro answered _
    refine .ite (fun _ => ?_) fun _ => .pure trivial
    have outside := fun is => mt closed.mp (outside is)
    apply (upheld_putMembership outside fun is => mt closed.mp (mine is)).bind
    intro _ _
    apply (upheld_cacheMembership outside).bind
    intro _ _
    exact (upheld_cacheGroupOfUser user.id group).bind fun _ _ => .pure trivial

private theorem upheld_forgetMembership (uID groupID : String) : Upheld party own (forgetMembership uID groupID) fun _ => True := by
  refine upheld_caches (fun _ => rfl) ?_
  intro server contained
  refine { contained with known := ?_ }
  intro other group entry found
  dsimp only at found
  rw [ConcurrentMultimap.entryOf_eraseValue] at found
  split at found
  next => cases found
  next => exact contained.known other group entry found

private theorem upheld_forgetGroupOfUser (uID groupID : String) :
    Upheld party own (forgetGroupOfUser uID groupID) fun _ => True := by
  refine upheld_caches ?_ ?_
  · intro server
    dsimp only
    split <;> rfl
  · intro server contained
    dsimp only
    split
    next => exact contained
    next => exact { contained with }

/-- Nobody of the party is a member of a closed group, so that leaving one changes nothing. -/
theorem upheld_deleteMembership {uID groupID : String} (mine : own → groupID ∉ party.closed ∨ uID ∈ party.ids) :
    Upheld party own (deleteMembership uID groupID) fun _ => True := by
  apply Upholds.modifies
  intro server contained
  constructor
  · refine { contained with members := ?_ }
    intro other group found
    dsimp only at found
    rw [FiniteMap.lookup_erase] at found
    split at found
    next => cases found
    next => exact contained.members other group found
  · intro is
    refine ⟨fun _ _ => rfl, fun other group shut => ?_, fun _ _ => rfl, rfl⟩
    dsimp only
    rw [FiniteMap.lookup_erase]
    split
    next same =>
      obtain ⟨rfl, rfl⟩ := Prod.mk.inj same
      rcases mine is with free | own
      · exact absurd shut free
      · cases found : server.database.memberships.lookup (other, group) with
        | none => rfl
        | some _ => exact absurd shut (contained.members other group found own)
    next => rfl

theorem upheld_removeUserFromGroup {uID groupID : String} (mine : own → ¬ party.Closed groupID ∨ uID ∈ party.ids) :
    Upheld party own (removeUserFromGroup uID groupID) fun _ => True := by
  apply (upheld_normalizeGroupID groupID).bind
  intro normalized same
  cases normalized with
  | none => exact .pure trivial
  | some group =>
    have closed := same group rfl
    apply (upheld_forgetMembership uID group).bind
    intro _ _
    apply (upheld_forgetGroupOfUser uID group).bind
    intro _ _
    apply upheld_request.bind
    intro answered _
    refine .ite (fun _ => ?_) fun _ => .pure trivial
    apply (upheld_deleteMembership fun is => (mine is).imp_left (mt closed.mp)).bind
    exact fun _ _ => .pure trivial

theorem upheld_getUserGroupMemberships (uID : String) (useNames : Bool) :
    Upheld party own (getUserGroupMemberships uID useNames) fun _ => True := by
  apply upheld_request.bind
  intro answered _
  refine .ite (fun _ => ?_) fun _ => .pure trivial
  apply Upholds.get.bind
  intro server _
  refine .ite (fun _ => ?_) fun _ => .pure trivial
  have each : ∀ groupStr, Upheld party own (do return (← findGroupByID groupStr).name) fun _ => True :=
    fun groupStr => (upheld_findGroupByID groupStr).bind fun _ _ => .pure trivial
  exact (Upholds.mapM fun groupStr _ => each groupStr).mono fun _ _ => trivial

private theorem upheld_cacheByID {user : User} (fits : party.Fits user) {record : CacheRecord User} (same : record.record = user) :
    Upheld party own (modify fun server => { server with users := { server.users with
      userCache := server.users.userCache.insert user.id record } }) fun _ => True := by
  subst same
  refine upheld_caches (fun _ => rfl) ?_
  intro server contained
  exact { contained with byID := contained.byID.insert fits fun _ _ => id }

theorem upheld_listUsers : Upheld party own listUsers fun _ => True := by
  apply upheld_now.bind
  intro reading _
  apply Upholds.get.bind
  intro server _
  refine .ite (fun _ => Upholds.get.bind fun _ _ => .pure trivial) fun _ => ?_
  apply upheld_request.bind
  intro answered _
  refine .ite (fun _ => ?_) fun _ => .pure trivial
  apply Upholds.get.bind
  intro server contained
  have each : ∀ entry ∈ server.database.users.pairs, Upheld party own (do
      let user := userOfItem entry.1 entry.2
      let record ← CacheRecord.lasting user userCacheValidity
      modify fun server => { server with users := { server.users with
        userCache := server.users.userCache.insert user.id record } }
      return user) fun _ => True := by
    intro entry member
    have fits := contained.rows entry.1 entry.2 (FiniteMap.mem_pairs.mp member)
    apply (upheld_lasting (userOfItem entry.1 entry.2) userCacheValidity).bind
    intro record same
    exact (upheld_cacheByID fits same).bind fun _ _ => .pure trivial
  apply (Upholds.mapM each).bind
  intro collected _
  apply upheld_now.bind
  intro reading _
  have stamped : Upheld party own (modify fun server => { server with users := { server.users with
      expirationTime := reading + userCacheValidity } }) fun _ => True :=
    upheld_caches (fun _ => rfl) fun _ contained => { contained with }
  exact stamped.bind fun _ _ => .pure trivial

theorem upheld_listUsersByGroup (group : String) : Upheld party own (listUsersByGroup group) fun _ => True := by
  apply Upholds.get.bind
  intro server _
  apply upheld_now.bind
  intro reading _
  refine .ite (fun _ => ?_) fun _ => ?_
  · have each : ∀ record : CacheRecord String, Upheld party own (getUser record.record) fun _ => True :=
      fun record => (upheld_getUser record.record).mono fun _ _ => trivial
    exact (Upholds.mapM fun record _ => each record).mono fun _ _ => trivial
  apply upheld_request.bind
  intro answered _
  refine .ite (fun _ => ?_) fun _ => .pure trivial
  apply Upholds.get.bind
  intro server contained
  refine .ite (fun _ => .pure trivial) fun _ => ?_
  have each : ∀ id ∈ server.database.membersOf group, Upheld party own (do
      let user ← getUser id
      let record ← CacheRecord.lasting user userCacheValidity
      modify fun server => { server with users := { server.users with
        userCache := server.users.userCache.insert user.id record } }
      cacheMembership user.id group
      return user) fun _ => True := by
    intro id member
    have outside : id ∈ party.ids → group ∉ party.closed := by
      obtain ⟨⟨⟨uID, groupID⟩, ⟨⟩⟩, selected, rfl⟩ := List.mem_map.mp member
      obtain ⟨found, wanted⟩ := FiniteMap.mem_select.mp selected
      obtain rfl : groupID = group := beq_iff_eq.mp wanted
      exact contained.members uID groupID found
    apply (upheld_getUser id).bind
    rintro user ⟨fits, same⟩
    apply (upheld_lasting user userCacheValidity).bind
    intro record whole
    apply (upheld_cacheByID fits whole).bind
    intro _ _
    have outside : user.id ∈ party.ids → group ∉ party.closed := by
      intro mine
      rcases same with same | rfl
      · exact outside (same ▸ mine)
      · exact absurd mine party.nobody
    exact (upheld_cacheMembership outside).bind fun _ _ => .pure trivial
  apply (Upholds.mapM each).bind
  intro users _
  apply upheld_now.bind
  intro reading _
  have stamped : Upheld party own (modify fun server => { server with users := { server.users with userByGroupCache :=
      (server.users.userByGroupCache.updateExpiration group (reading + userCacheValidity)).2 } }) fun _ => True := by
    refine upheld_caches (fun _ => rfl) ?_
    intro server contained
    refine { contained with known := ?_ }
    intro uID groupID entry found
    dsimp only at found
    rw [ConcurrentMultimap.entryOf_updateExpiration] at found
    exact contained.known uID groupID entry found
  exact stamped.bind fun _ _ => .pure trivial

end

end Slate
