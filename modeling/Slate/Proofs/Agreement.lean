import Slate.Clusters
import Slate.Users
import Slate.Proofs.Passage

/-! What is cached about single users, groups and clusters agrees with the
tables, and a lookup keeps it so. -/

namespace Slate
open Library

def UserHeld (table : FiniteMap String UserItem) (user : User) : Prop :=
  ∃ item, table.lookup user.id = some item ∧ user = userOfItem user.id item

def GroupHeld (table : FiniteMap String GroupItem) (group : Group) : Prop :=
  ∃ item, table.lookup group.id = some item ∧ group = groupOfItem group.id item

def ClusterHeld (table : FiniteMap String ClusterItem) (cluster : Cluster) : Prop :=
  cluster.valid = true ∧ ∃ item, table.lookup cluster.id = some item ∧ item.name = some cluster.name

/-- All three caches hold what the table holds, and what is cached by token or
by Globus ID is cached by ID, too. -/
structure UsersAgree (table : FiniteMap String UserItem) (caches : UserCaches) : Prop where
  byID : Keeps caches.userCache User.id (UserHeld table)
  byToken : Keeps caches.userByTokenCache User.token fun user =>
    UserHeld table user ∧ (caches.userCache.lookup user.id).isSome = true
  byGlobusID : Keeps caches.userByGlobusIDCache User.globusID fun user =>
    UserHeld table user ∧ (caches.userCache.lookup user.id).isSome = true

structure GroupsAgree (table : FiniteMap String GroupItem) (caches : GroupCaches) : Prop where
  byID : Keeps caches.groupCache Group.id (GroupHeld table)
  byName : Keeps caches.groupByNameCache Group.name fun group =>
    GroupHeld table group ∧ (caches.groupCache.lookup group.id).isSome = true

structure ClustersAgree (table : FiniteMap String ClusterItem) (caches : ClusterCaches) : Prop where
  byID : Keeps caches.clusterCache Cluster.id (ClusterHeld table)
  byName : Keeps caches.clusterByNameCache Cluster.name (ClusterHeld table)

theorem UsersAgree.empty (table : FiniteMap String UserItem) : UsersAgree table {} := ⟨Keeps.empty, Keeps.empty, Keeps.empty⟩
theorem GroupsAgree.empty (table : FiniteMap String GroupItem) : GroupsAgree table {} := ⟨Keeps.empty, Keeps.empty⟩
theorem ClustersAgree.empty (table : FiniteMap String ClusterItem) : ClustersAgree table {} := ⟨Keeps.empty, Keeps.empty⟩

theorem isSome_insert {κ α : Type} [DecidableEq κ] (map : FiniteMap κ α) (key other : κ) (value : α)
    (present : (map.lookup other).isSome = true) :
    ((AList.insert key value map).lookup other).isSome = true := by
  rw [FiniteMap.lookup_insert]
  split
  next => rfl
  next => exact present

theorem isSome_insert_self {κ α : Type} [DecidableEq κ] (map : FiniteMap κ α) (key : κ) (value : α) :
    ((AList.insert key value map).lookup key).isSome = true := by
  rw [FiniteMap.lookup_insert, if_pos rfl]
  rfl

theorem UsersAgree.replace {table : FiniteMap String UserItem} {caches : UserCaches} (agree : UsersAgree table caches)
    {record : CacheRecord User} (held : UserHeld table record.record) :
    UsersAgree table (caches.replace record) where
  byID := agree.byID.insert held fun _ _ kept => kept
  byToken := agree.byToken.insert ⟨held, by simp [UserCaches.replace]⟩
    fun _ _ kept => ⟨kept.1, isSome_insert _ _ _ _ kept.2⟩
  byGlobusID := agree.byGlobusID.insert ⟨held, by simp [UserCaches.replace]⟩
    fun _ _ kept => ⟨kept.1, isSome_insert _ _ _ _ kept.2⟩

theorem GroupsAgree.replace {table : FiniteMap String GroupItem} {caches : GroupCaches} (agree : GroupsAgree table caches)
    {record : CacheRecord Group} (held : GroupHeld table record.record) :
    GroupsAgree table (caches.replace record) where
  byID := agree.byID.insert held fun _ _ kept => kept
  byName := agree.byName.insert ⟨held, by simp [GroupCaches.replace]⟩
    fun _ _ kept => ⟨kept.1, isSome_insert _ _ _ _ kept.2⟩

theorem ClustersAgree.replace {table : FiniteMap String ClusterItem} {caches : ClusterCaches} (agree : ClustersAgree table caches)
    {record : CacheRecord Cluster} (held : ClusterHeld table record.record) (byGroup : Time) :
    ClustersAgree table (caches.replace record byGroup) where
  byID := agree.byID.insert held fun _ _ kept => kept
  byName := agree.byName.insert held fun _ _ kept => kept

/-- A lookup passes time and may fill the caches of single users, groups and
clusters with what the tables hold. It changes nothing else. -/
structure Looked (before after : Server) : Prop extends Later before after where
  database : after.database = before.database
  members : after.users.userByGroupCache = before.users.userByGroupCache
  access : after.clusters.clusterGroupAccessCache = before.clusters.clusterGroupAccessCache
  instances : after.instances = before.instances
  secrets : after.secrets = before.secrets
  volumes : after.volumes = before.volumes
  users : UsersAgree before.database.users before.users → UsersAgree before.database.users after.users
  groups : GroupsAgree before.database.groups before.groups → GroupsAgree before.database.groups after.groups
  clusters : ClustersAgree before.database.clusters before.clusters → ClustersAgree before.database.clusters after.clusters

namespace Looked

theorem trans {first second third : Server} (early : Looked first second) (late : Looked second third) :
    Looked first third where
  toLater := early.toLater.trans late.toLater
  database := late.database.trans early.database
  members := late.members.trans early.members
  access := late.access.trans early.access
  instances := late.instances.trans early.instances
  secrets := late.secrets.trans early.secrets
  volumes := late.volumes.trans early.volumes
  users := fun agree => early.database ▸ late.users (early.database.symm ▸ early.users agree)
  groups := fun agree => early.database ▸ late.groups (early.database.symm ▸ early.groups agree)
  clusters := fun agree => early.database ▸ late.clusters (early.database.symm ▸ early.clusters agree)

theorem of_later {before after : Server} (later : Later before after) (database : after.database = before.database)
    (users : after.users = before.users) (groups : after.groups = before.groups)
    (clusters : after.clusters = before.clusters) (instances : after.instances = before.instances)
    (secrets : after.secrets = before.secrets) (volumes : after.volumes = before.volumes) : Looked before after where
  toLater := later
  database := database
  members := by rw [users]
  access := by rw [clusters]
  instances := instances
  secrets := secrets
  volumes := volumes
  users := fun agree => users ▸ agree
  groups := fun agree => groups ▸ agree
  clusters := fun agree => clusters ▸ agree

theorem refl (server : Server) : Looked server server := of_later (.refl server) rfl rfl rfl rfl rfl rfl rfl
theorem tick (server : Server) : Looked server server.tick := of_later (.tick server) rfl rfl rfl rfl rfl rfl rfl
theorem answered (server : Server) : Looked server server.answered :=
  of_later (.answered server) rfl rfl rfl rfl rfl rfl rfl

/-- Missing a cache costs at most one reading of the clock. -/
theorem missed {server passed : Server} (same : passed = server ∨ passed = server.tick) : Looked server passed := by
  rcases same with rfl | rfl
  · exact refl _
  · exact tick _

end Looked

/-- Caching a user that the table holds is a lookup's business. -/
theorem returns_cacheUser {user : User} {server : Server} (held : UserHeld server.database.users user)
    {post : Unit → Server → Prop} (next : ∀ after, Looked server after → post ⟨⟩ after) :
    Returns (cacheUser user) server post := by
  unfold cacheUser
  simp only [returns_bind, returns_lasting, returns_modify]
  apply next
  exact {
    toLater := (Later.tick server).trans (.of_eq rfl rfl)
    database := rfl
    members := rfl
    access := rfl
    instances := rfl
    secrets := rfl
    volumes := rfl
    users := fun agree => agree.replace held
    groups := id
    clusters := id }

theorem returns_cacheGroup {group : Group} {server : Server} (held : GroupHeld server.database.groups group)
    {post : Unit → Server → Prop} (next : ∀ after, Looked server after → post ⟨⟩ after) :
    Returns (cacheGroup group) server post := by
  unfold cacheGroup
  simp only [returns_bind, returns_lasting, returns_modify]
  apply next
  exact {
    toLater := (Later.tick server).trans (.of_eq rfl rfl)
    database := rfl
    members := rfl
    access := rfl
    instances := rfl
    secrets := rfl
    volumes := rfl
    users := id
    groups := fun agree => agree.replace held
    clusters := id }

theorem returns_cacheCluster {cluster : Cluster} {server : Server} (held : ClusterHeld server.database.clusters cluster)
    {post : Unit → Server → Prop} (next : ∀ after, Looked server after → post ⟨⟩ after) :
    Returns (cacheCluster cluster) server post := by
  unfold cacheCluster writeClusterConfigToDisk
  simp only [returns_bind, returns_lasting, returns_now, returns_modify]
  apply next
  exact {
    toLater := ((Later.tick server).trans (.tick _)).trans (.of_eq rfl rfl)
    database := rfl
    members := rfl
    access := rfl
    instances := rfl
    secrets := rfl
    volumes := rfl
    users := id
    groups := id
    clusters := fun agree =>
      have kept := agree.replace held (server.tick.clock 0)
      ⟨kept.byID, kept.byName⟩ }

end Slate
