import Slate.Proofs.Agreement

/-! What lookups of users and normalizations of group and cluster strings answer
when all requests succeed: what the tables say, whatever is cached. -/

namespace Slate
open Library

/-- The only user that is wanted, or the invalid user when there is none. -/
def Answers (database : Database) (wanted : String → UserItem → Prop) (answer : User) : Prop :=
  (∃ id item, database.users.lookup id = some item ∧ wanted id item ∧ answer = userOfItem id item) ∨
    answer = {} ∧ ∀ id item, database.users.lookup id = some item → ¬ wanted id item

theorem UserHeld.answers {database : Database} {user : User} {wanted : String → UserItem → Prop}
    (held : UserHeld database.users user)
    (chosen : ∀ item, user = userOfItem user.id item → wanted user.id item) : Answers database wanted user := by
  obtain ⟨item, found, same⟩ := held
  exact .inl ⟨user.id, item, found, chosen item same, same⟩

theorem userHeld_of_lookup {database : Database} {id : String} {item : UserItem}
    (found : database.users.lookup id = some item) : UserHeld database.users (userOfItem id item) := ⟨item, found, rfl⟩

/-- No two users share a token or a Globus ID. -/
structure UsersUnique (table : FiniteMap String UserItem) : Prop where
  tokens : ∀ id item id' item', table.lookup id = some item → table.lookup id' = some item' →
    item.token = item'.token → id = id'
  globusIDs : ∀ id item id' item', table.lookup id = some item → table.lookup id' = some item' →
    item.globusID = item'.globusID → id = id'

section Users
variable {server : Server} (succeeding : Succeeding server) (agree : UsersAgree server.database.users server.users)
include succeeding agree

theorem returns_getUser (id : String) {post : User → Server → Prop}
    (next : ∀ user after, Looked server after → Answers server.database (fun key _ => key = id) user →
      UsersAgree after.database.users after.users → post user after) :
    Returns (getUser id) server post := by
  have finish : ∀ user after, Looked server after → Answers server.database (fun key _ => key = id) user →
      post user after :=
    fun user after looked answers => next user after looked answers (looked.database ▸ looked.users agree)
  unfold getUser
  simp only [returns_bind, returns_get]
  refine returns_cached ?_ ?_
  · intro entry present valid
    obtain ⟨same, held⟩ := agree.byID _ _ present
    exact finish _ _ (.tick server) (held.answers fun _ _ => same)
  · intro passed moved
    have missed := Looked.missed moved
    have asked := missed.trans (.answered passed)
    simp only [returns_bind, returns_request, returns_ite, returns_pure, returns_get, missed.succeeding succeeding 0,
      if_true]
    rw [asked.database]
    cases found : server.database.users.lookup id with
    | none =>
      refine finish _ _ asked (.inr ⟨rfl, ?_⟩)
      rintro key item held rfl
      rw [found] at held
      cases held
    | some item =>
      have held : UserHeld server.database.users (userOfItem id item) := userHeld_of_lookup found
      simp only [returns_bind, returns_pure]
      refine returns_cacheUser (asked.database ▸ held) fun after stored => ?_
      exact finish _ _ (asked.trans stored) (held.answers fun _ _ => rfl)

private theorem returns_findUserBy {cache : UserCaches → CuckooHashMap String (CacheRecord User)} {key : UserItem → String}
    {described value : String} {part : User → String}
    (keeps : Keeps (cache server.users) part (UserHeld server.database.users))
    (reads : ∀ id item, part (userOfItem id item) = key item)
    (unique : ∀ id item id' item', server.database.users.lookup id = some item →
      server.database.users.lookup id' = some item' → key item = key item' → id = id')
    {post : User → Server → Prop}
    (next : ∀ user after, Looked server after → Answers server.database (fun _ item => key item = value) user →
      UsersAgree after.database.users after.users → post user after) :
    Returns (findUserBy cache key described value) server post := by
  have finish : ∀ user after, Looked server after → Answers server.database (fun _ item => key item = value) user →
      post user after :=
    fun user after looked answers => next user after looked answers (looked.database ▸ looked.users agree)
  unfold findUserBy
  simp only [returns_bind, returns_get]
  refine returns_cached ?_ ?_
  · intro entry present valid
    obtain ⟨same, held⟩ := keeps _ _ present
    refine finish _ _ (.tick server) (held.answers fun item whole => ?_)
    rw [whole, reads] at same
    exact same
  · intro passed moved
    have missed := Looked.missed moved
    have asked := missed.trans (.answered passed)
    simp only [returns_bind, returns_request, returns_ite, returns_pure, returns_get, missed.succeeding succeeding 0,
      if_true]
    rw [asked.database]
    have single := FiniteMap.select_cases server.database.users (fun _ item => key item == value)
      fun id item id' item' held chosen held' chosen' =>
        unique id item id' item' held held' ((beq_iff_eq.mp chosen).trans (beq_iff_eq.mp chosen').symm)
    obtain ⟨selected, none⟩ | ⟨id, item, selected, found, chosen⟩ := single
    · rw [selected]
      exact finish _ _ asked (.inr ⟨rfl, fun key item held same => none key item held (beq_iff_eq.mpr same)⟩)
    · rw [selected]
      have held : UserHeld server.database.users (userOfItem id item) := userHeld_of_lookup found
      simp only [returns_bind, returns_pure]
      refine returns_cacheUser (asked.database ▸ held) fun after stored => ?_
      exact finish _ _ (asked.trans stored) (.inl ⟨id, item, found, beq_iff_eq.mp chosen, rfl⟩)

theorem returns_findUserByToken (unique : UsersUnique server.database.users) (token : String) {post : User → Server → Prop}
    (next : ∀ user after, Looked server after → Answers server.database (fun _ item => item.token = token) user →
      UsersAgree after.database.users after.users → post user after) :
    Returns (findUserByToken token) server post :=
  returns_findUserBy succeeding agree (agree.byToken.mono fun _ => And.left) (fun _ _ => rfl) unique.tokens next

theorem returns_findUserByGlobusID (unique : UsersUnique server.database.users) (globusID : String)
    {post : User → Server → Prop}
    (next : ∀ user after, Looked server after → Answers server.database (fun _ item => item.globusID = globusID) user →
      UsersAgree after.database.users after.users → post user after) :
    Returns (findUserByGlobusID globusID) server post :=
  returns_findUserBy succeeding agree (agree.byGlobusID.mono fun _ => And.left) (fun _ _ => rfl) unique.globusIDs next

end Users

/-- The group a string stands for: the ID it begins like, or else the group of
that name. -/
def DesignatesGroup (database : Database) (text groupID : String) : Prop :=
  if startsWith groupIDPrefix text then groupID = text
  else ∃ item, database.groups.lookup groupID = some item ∧ item.name = text

/-- Where the wildcard is allowed, it and its name stand for themselves. -/
def DesignatesGrantee (database : Database) (text groupID : String) : Prop :=
  if text = wildcard ∨ text = wildcardName then groupID = wildcard else DesignatesGroup database text groupID

def DesignatesCluster (database : Database) (text cID : String) : Prop :=
  if startsWith clusterIDPrefix text then cID = text
  else ∃ item, database.clusters.lookup cID = some item ∧ item.name = some text

def GroupNameUnique (table : FiniteMap String GroupItem) (name : String) : Prop :=
  ∀ id item id' item', table.lookup id = some item → item.name = name →
    table.lookup id' = some item' → item'.name = name → id = id'

/-- The row has every attribute, besides the name, that has to be there. -/
def ClusterItem.Complete (item : ClusterItem) : Prop :=
  item.owningGroup.isSome = true ∧ item.config.isSome = true ∧ item.systemNamespace.isSome = true

/-- At most one cluster has the name, and its row is complete. -/
structure ClusterNameUnique (table : FiniteMap String ClusterItem) (name : String) : Prop where
  unique : ∀ id item id' item', table.lookup id = some item → item.name = some name →
    table.lookup id' = some item' → item'.name = some name → id = id'
  complete : ∀ id item, table.lookup id = some item → item.name = some name → item.Complete

theorem GroupNameUnique.empty (name : String) : GroupNameUnique ∅ name := by
  intro id item id' item' found
  rw [FiniteMap.lookup_empty] at found
  cases found

theorem ClusterNameUnique.empty (name : String) : ClusterNameUnique ∅ name where
  unique := by
    intro id item id' item' found
    rw [FiniteMap.lookup_empty] at found
    cases found
  complete := by
    intro id item found
    rw [FiniteMap.lookup_empty] at found
    cases found

theorem DesignatesGroup.unique {database : Database} {text id id' : String} (single : GroupNameUnique database.groups text)
    (first : DesignatesGroup database text id) (second : DesignatesGroup database text id') : id = id' := by
  unfold DesignatesGroup at first second
  split at first
  next known =>
    rw [if_pos known] at second
    rw [first, second]
  next unknown =>
    rw [if_neg unknown] at second
    obtain ⟨item, found, named⟩ := first
    obtain ⟨item', found', named'⟩ := second
    exact single _ _ _ _ found named found' named'

theorem DesignatesGrantee.unique {database : Database} {text id id' : String} (single : GroupNameUnique database.groups text)
    (first : DesignatesGrantee database text id) (second : DesignatesGrantee database text id') : id = id' := by
  unfold DesignatesGrantee at first second
  split at first
  next known =>
    rw [if_pos known] at second
    rw [first, second]
  next unknown =>
    rw [if_neg unknown] at second
    exact first.unique single second

theorem DesignatesCluster.unique {database : Database} {text id id' : String}
    (single : ClusterNameUnique database.clusters text)
    (first : DesignatesCluster database text id) (second : DesignatesCluster database text id') : id = id' := by
  unfold DesignatesCluster at first second
  split at first
  next known =>
    rw [if_pos known] at second
    rw [first, second]
  next unknown =>
    rw [if_neg unknown] at second
    obtain ⟨item, found, named⟩ := first
    obtain ⟨item', found', named'⟩ := second
    exact single.unique _ _ _ _ found named found' named'

theorem groupHeld_of_lookup {database : Database} {id : String} {item : GroupItem}
    (found : database.groups.lookup id = some item) : GroupHeld database.groups (groupOfItem id item) := ⟨item, found, rfl⟩

section Groups
variable {server : Server} (succeeding : Succeeding server) (agree : GroupsAgree server.database.groups server.groups)
include succeeding agree

theorem returns_findGroupByName {name : String} (single : GroupNameUnique server.database.groups name)
    {post : Group → Server → Prop}
    (found : ∀ group after, Looked server after → group.valid = true → group.name = name →
      GroupHeld server.database.groups group → post group after)
    (missing : ∀ after, Looked server after →
      (∀ id item, server.database.groups.lookup id = some item → item.name ≠ name) → post {} after) :
    Returns (findGroupByName name) server post := by
  unfold findGroupByName
  simp only [returns_bind, returns_get]
  refine returns_cached ?_ ?_
  · intro entry present valid
    obtain ⟨same, held, -⟩ := agree.byName _ _ present
    obtain ⟨item, -, whole⟩ := id held
    exact found _ _ (.tick server) (by rw [whole]; rfl) same held
  · intro passed moved
    have missed := Looked.missed moved
    have asked := missed.trans (.answered passed)
    simp only [returns_bind, returns_request, returns_ite, returns_pure, returns_get, missed.succeeding succeeding 0,
      if_true]
    rw [asked.database]
    have cases := FiniteMap.select_cases server.database.groups (fun _ item => item.name == name)
      fun id item id' item' held chosen held' chosen' =>
        single id item id' item' held (beq_iff_eq.mp chosen) held' (beq_iff_eq.mp chosen')
    obtain ⟨selected, none⟩ | ⟨id, item, selected, stored, chosen⟩ := cases
    · rw [selected]
      exact missing _ asked fun id item held same => none id item held (beq_iff_eq.mpr same)
    · rw [selected]
      obtain rfl : item.name = name := beq_iff_eq.mp chosen
      have held : GroupHeld server.database.groups (groupOfItem id item) := groupHeld_of_lookup stored
      simp only [returns_bind, returns_pure]
      refine returns_cacheGroup (asked.database ▸ held) fun after filled => ?_
      exact found _ _ (asked.trans filled) rfl rfl held

/-- A string is normalized to the group it stands for, if there is one. -/
theorem returns_normalizeGroupID {text : String} (single : GroupNameUnique server.database.groups text)
    {post : Option String → Server → Prop}
    (found : ∀ groupID after, Looked server after → DesignatesGroup server.database text groupID →
      post (some groupID) after)
    (missing : ∀ after, Looked server after → (∀ groupID, ¬ DesignatesGroup server.database text groupID) →
      post none after) :
    Returns (normalizeGroupID text false) server post := by
  unfold normalizeGroupID
  unfold DesignatesGroup at found missing
  simp only [Bool.false_eq_true, if_false]
  cases known : startsWith groupIDPrefix text with
  | true =>
    simp only [known, if_true, Bool.not_true, Bool.false_eq_true, if_false, returns_pure] at found ⊢
    exact found _ _ (.refl server) rfl
  | false =>
    simp only [known, Bool.false_eq_true, if_false, Bool.not_false, if_true, returns_bind] at found missing ⊢
    refine returns_findGroupByName succeeding agree single ?_ ?_
    · rintro group after looked valid rfl ⟨item, stored, whole⟩
      simp only [valid, Bool.not_true, Bool.false_eq_true, if_false, returns_pure]
      refine found _ _ looked ⟨item, stored, ?_⟩
      rw [whole]
      rfl
    · intro after looked none
      simp only [Bool.not_false, if_true, returns_pure]
      refine missing _ looked fun groupID => ?_
      rintro ⟨item, stored, named⟩
      exact none _ _ stored named

theorem returns_normalizeGrantee {text : String} (single : GroupNameUnique server.database.groups text)
    {post : Option String → Server → Prop}
    (found : ∀ groupID after, Looked server after → DesignatesGrantee server.database text groupID →
      post (some groupID) after)
    (missing : ∀ after, Looked server after → (∀ groupID, ¬ DesignatesGrantee server.database text groupID) →
      post none after) :
    Returns (normalizeGroupID text true) server post := by
  have plain : text ≠ wildcard → text ≠ wildcardName →
      normalizeGroupID text true = normalizeGroupID text false := by
    intro first second
    simp only [normalizeGroupID, first, second, if_true, if_false, Bool.false_eq_true]
  unfold DesignatesGrantee at found missing
  by_cases first : text = wildcard
  · subst first
    exact found _ _ (.refl server) (by simp)
  · by_cases second : text = wildcardName
    · subst second
      exact found _ _ (.refl server) (by simp)
    · rw [plain first second]
      simp only [first, second, or_self, if_false] at found missing
      exact returns_normalizeGroupID succeeding agree single found missing

end Groups

theorem returns_clusterOfItem {database : Database} {id name : String} {item : ClusterItem} {server : Server}
    (stored : database.clusters.lookup id = some item) (named : item.name = some name) (complete : item.Complete)
    {post : Cluster → Server → Prop}
    (next : ∀ cluster, cluster.name = name → ClusterHeld database.clusters cluster → post cluster server) :
    Returns (clusterOfItem id item) server post := by
  obtain ⟨group, config, space⟩ := complete
  obtain ⟨group, grouped⟩ := Option.isSome_iff_exists.mp group
  obtain ⟨config, configured⟩ := Option.isSome_iff_exists.mp config
  obtain ⟨space, spaced⟩ := Option.isSome_iff_exists.mp space
  simp only [clusterOfItem, named, grouped, configured, spaced, findOrThrow, returns_bind, returns_pure]
  exact next _ rfl ⟨rfl, item, stored, named⟩

section Clusters
variable {server : Server} (succeeding : Succeeding server)
  (agree : ClustersAgree server.database.clusters server.clusters)
include succeeding agree

private theorem returns_findClusterByName {name : String} (single : ClusterNameUnique server.database.clusters name)
    {post : Cluster → Server → Prop}
    (found : ∀ cluster after, Looked server after → cluster.name = name → ClusterHeld server.database.clusters cluster →
      post cluster after)
    (missing : ∀ after, Looked server after →
      (∀ id item, server.database.clusters.lookup id = some item → item.name ≠ some name) → post {} after) :
    Returns (findClusterByName name) server post := by
  unfold findClusterByName
  simp only [returns_bind, returns_get]
  refine returns_cached ?_ ?_
  · intro entry present valid
    obtain ⟨same, held⟩ := agree.byName _ _ present
    exact found _ _ (.tick server) same held
  · intro passed moved
    have missed := Looked.missed moved
    have asked := missed.trans (.answered passed)
    simp only [returns_bind, returns_request, returns_ite, returns_pure, returns_get, missed.succeeding succeeding 0,
      if_true]
    rw [asked.database]
    have cases := FiniteMap.select_cases server.database.clusters (fun _ item => item.name == some name)
      fun id item id' item' held chosen held' chosen' =>
        single.unique id item id' item' held (beq_iff_eq.mp chosen) held' (beq_iff_eq.mp chosen')
    obtain ⟨selected, none⟩ | ⟨id, item, selected, stored, chosen⟩ := cases
    · rw [selected]
      exact missing _ asked fun id item held same => none id item held (beq_iff_eq.mpr same)
    · rw [selected]
      have named : item.name = some name := beq_iff_eq.mp chosen
      simp only [returns_bind]
      refine returns_clusterOfItem stored named (single.complete _ _ stored named) fun cluster same held => ?_
      simp only [returns_pure]
      refine returns_cacheCluster (asked.database ▸ held) fun after filled => ?_
      exact found _ _ (asked.trans filled) same held

theorem returns_normalizeClusterID {text : String} (single : ClusterNameUnique server.database.clusters text)
    {post : Option String → Server → Prop}
    (found : ∀ cID after, Looked server after → DesignatesCluster server.database text cID → post (some cID) after)
    (missing : ∀ after, Looked server after → (∀ cID, ¬ DesignatesCluster server.database text cID) →
      post none after) :
    Returns (normalizeClusterID text) server post := by
  unfold normalizeClusterID
  unfold DesignatesCluster at found missing
  cases known : startsWith clusterIDPrefix text with
  | true =>
    simp only [known, if_true, Bool.not_true, Bool.false_eq_true, if_false, returns_pure] at found ⊢
    exact found _ _ (.refl server) rfl
  | false =>
    simp only [known, Bool.false_eq_true, if_false, Bool.not_false, if_true, returns_bind] at found missing ⊢
    refine returns_findClusterByName succeeding agree single ?_ ?_
    · rintro cluster after looked rfl ⟨valid, item, stored, named⟩
      simp only [valid, Bool.not_true, Bool.false_eq_true, if_false, returns_pure]
      exact found _ _ looked ⟨item, stored, named⟩
    · intro after looked none
      simp only [Bool.not_false, if_true, returns_pure]
      refine missing _ looked fun cID => ?_
      rintro ⟨item, stored, named⟩
      exact none _ _ stored named

end Clusters
end Slate
