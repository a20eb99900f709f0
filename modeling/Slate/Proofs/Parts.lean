import Slate.Access
import Slate.Credentials
import Slate.Instances
import Slate.Proofs.Listings

/-! Parts of a server that a program leaves alone, while the clock moves on. A part is
read off the tables and the caches only. -/

namespace Slate
open Library

universe u

structure ServerPart (γ : Type u) where
  read : Server → γ
  tick : ∀ server, read server.tick = read server
  answered : ∀ server, read server.answered = read server

/-- Time does not run backwards from the first server to the second. -/
structure Ages (before after : Server) : Prop where
  steady : Steady before → Steady after
  time : Steady before → before.clock 0 ≤ after.clock 0

namespace Ages

theorem refl (server : Server) : Ages server server := ⟨id, fun _ => le_refl _⟩

theorem trans {first second third : Server} (early : Ages first second) (late : Ages second third) :
    Ages first third :=
  ⟨fun steady => late.steady (early.steady steady),
    fun steady => (early.time steady).trans (late.time (early.steady steady))⟩

theorem of_later {before after : Server} (later : Later before after) : Ages before after where
  steady := later.steady
  time := fun steady => by
    obtain ⟨n, clock⟩ := later.clock
    rw [clock]
    exact steady (Nat.zero_le _)

theorem of_clock {before after : Server} (same : after.clock = before.clock) : Ages before after where
  steady := fun steady => by
    unfold Steady
    rw [same]
    exact steady
  time := fun _ => by rw [same]

end Ages

variable {γ : Type u}

/-- The second server is the first some time later, with the same part. -/
structure Aside (part : ServerPart γ) (before after : Server) : Prop where
  ages : Ages before after
  same : part.read after = part.read before

namespace Aside

variable {part : ServerPart γ}

theorem refl (part : ServerPart γ) (server : Server) : Aside part server server := ⟨.refl server, rfl⟩

theorem trans {first second third : Server} (early : Aside part first second) (late : Aside part second third) :
    Aside part first third :=
  ⟨early.ages.trans late.ages, late.same.trans early.same⟩

theorem tick (part : ServerPart γ) (server : Server) : Aside part server server.tick :=
  ⟨.of_later (.tick server), part.tick server⟩

theorem answered (part : ServerPart γ) (server : Server) : Aside part server server.answered :=
  ⟨.of_later (.answered server), part.answered server⟩

end Aside

/-- Wherever it returns, the program has left the part alone. -/
def Beside {α : Type} (part : ServerPart γ) (program : StoreM α) : Prop :=
  ∀ server, Yields program server fun _ after => Aside part server after

namespace Beside

variable {α β : Type} {part : ServerPart γ}

theorem pure (value : α) : Beside part (Pure.pure value : StoreM α) := fun server => .refl part server

theorem throw (message : String) : Beside part (MonadExcept.throw message : StoreM α) := fun _ => trivial

theorem bind {program : StoreM α} {next : α → StoreM β} (first : Beside part program)
    (rest : ∀ value, Beside part (next value)) : Beside part (program >>= next) := by
  intro server
  rw [yields_bind]
  refine (first server).mono fun value middle early => ?_
  exact (rest value middle).mono fun _ _ late => early.trans late

theorem ite {condition : Prop} [Decidable condition] {first second : StoreM α} (yes : condition → Beside part first)
    (no : ¬ condition → Beside part second) : Beside part (if condition then first else second) := by
  split
  next holds => exact yes holds
  next fails => exact no fails

theorem gets : Beside part (MonadState.get : StoreM Server) := fun server => .refl part server

theorem modifies {change : Server → Server} (clock : ∀ server, (change server).clock = server.clock)
    (same : ∀ server, part.read (change server) = part.read server) : Beside part (modify change : StoreM Unit) :=
  fun server => ⟨.of_clock (clock server), same server⟩

theorem now : Beside part Slate.now := fun server => .tick part server

theorem request : Beside part Slate.request := fun server => .answered part server

theorem lasting (record : α) (validity : Time) : Beside part (CacheRecord.lasting record validity) := by
  unfold CacheRecord.lasting
  exact now.bind fun _ => pure _

theorem current (entry : CacheRecord α) : Beside part entry.current := by
  unfold CacheRecord.current
  exact now.bind fun _ => pure _

theorem cached (part : ServerPart γ) (cache : CuckooHashMap String (CacheRecord α)) (key : String) : Beside part
    (Slate.cached cache key) := by
  unfold Slate.cached
  cases cache.lookup key with
  | none => exact pure _
  | some entry => exact (current entry).bind fun _ => ite (fun _ => pure _) fun _ => pure _

theorem mapM {items : List α} {body : α → StoreM β} (each : ∀ item ∈ items, Beside part (body item)) :
    Beside part (items.mapM body) := by
  induction items with
  | nil => exact pure _
  | cons item rest ih =>
    rw [List.mapM_cons]
    refine (each item (by simp)).bind fun value => ?_
    exact (ih fun other member => each other (by simp [member])).bind fun _ => pure _

theorem findOrThrow (stored : Option α) (message : String) : Beside part (Slate.findOrThrow stored message) := by
  cases stored with
  | none => exact throw _
  | some value => exact pure value

theorem clusterOfItem (part : ServerPart γ) (id : String) (item : ClusterItem) : Beside part (Slate.clusterOfItem id item) := by
  unfold Slate.clusterOfItem
  refine (findOrThrow _ _).bind fun _ => ?_
  refine (findOrThrow _ _).bind fun _ => ?_
  refine (findOrThrow _ _).bind fun _ => ?_
  exact (findOrThrow _ _).bind fun _ => pure _

theorem members {ι : Type} [Identified α ι] [DecidableEq ι] (part : ServerPart γ) (category : Category α) :
    Beside part (maybeReturnCachedCategoryMembers category) := by
  unfold maybeReturnCachedCategoryMembers
  refine now.bind fun _ => ite (fun _ => ?_) fun _ => pure _
  refine Beside.bind (mapM fun entry _ => ?_) fun _ => pure _
  exact (current entry).bind fun _ => pure _

end Beside

/-- The program returns, and has left the part alone. -/
def Passes {α : Type} (part : ServerPart γ) (program : StoreM α) : Prop :=
  ∀ server, Returns program server fun _ after => Later server after ∧ part.read after = part.read server

namespace Passes

variable {α β : Type} {part : ServerPart γ}

theorem pure (value : α) : Passes part (Pure.pure value : StoreM α) := fun server => ⟨.refl server, rfl⟩

theorem bind {program : StoreM α} {next : α → StoreM β} (first : Passes part program)
    (rest : ∀ value, Passes part (next value)) : Passes part (program >>= next) := by
  intro server
  rw [returns_bind]
  refine (first server).mono fun value middle early => ?_
  exact (rest value middle).mono fun _ _ late => ⟨early.1.trans late.1, late.2.trans early.2⟩

theorem ite {condition : Prop} [Decidable condition] {first second : StoreM α} (yes : condition → Passes part first)
    (no : ¬ condition → Passes part second) : Passes part (if condition then first else second) := by
  split
  next holds => exact yes holds
  next fails => exact no fails

theorem gets : Passes part (MonadState.get : StoreM Server) := fun server => ⟨.refl server, rfl⟩

theorem modifies {change : Server → Server} (clock : ∀ server, (change server).clock = server.clock)
    (outcomes : ∀ server, (change server).outcomes = server.outcomes)
    (same : ∀ server, part.read (change server) = part.read server) : Passes part (modify change : StoreM Unit) :=
  fun server => ⟨.of_eq (clock server) (outcomes server), same server⟩

theorem now : Passes part Slate.now := fun server => ⟨.tick server, part.tick server⟩

theorem request : Passes part Slate.request := fun server => ⟨.answered server, part.answered server⟩

theorem lasting (record : α) (validity : Time) : Passes part (CacheRecord.lasting record validity) := by
  unfold CacheRecord.lasting
  exact now.bind fun _ => pure _

theorem current (entry : CacheRecord α) : Passes part entry.current := by
  unfold CacheRecord.current
  exact now.bind fun _ => pure _

theorem mapM {items : List α} {body : α → StoreM β} (each : ∀ item ∈ items, Passes part (body item)) :
    Passes part (items.mapM body) := by
  induction items with
  | nil => exact pure _
  | cons item rest ih =>
    rw [List.mapM_cons]
    refine (each item (by simp)).bind fun value => ?_
    exact (ih fun other member => each other (by simp [member])).bind fun _ => pure _

end Passes

theorem beside_findGroupByName {γ : Type} {part : ServerPart γ}
    (groups : ∀ server caches, part.read { server with groups := caches } = part.read server) (name : String) :
    Beside part (findGroupByName name) := by
  have caching : ∀ group, Beside part (cacheGroup group) := by
    intro group
    unfold cacheGroup
    exact (Beside.lasting _ _).bind fun record => .modifies (fun _ => rfl) fun server => groups server _
  unfold findGroupByName
  refine Beside.gets.bind fun server => (Beside.cached part _ _).bind fun found => ?_
  cases found with
  | some group => exact .pure _
  | none =>
    refine Beside.request.bind fun succeeded => .ite (fun _ => ?_) fun _ => .pure _
    refine Beside.gets.bind fun server => ?_
    split
    next => exact .pure _
    next => exact (caching _).bind fun _ => .pure _
    next => exact .throw _

theorem beside_normalizeGroupID {γ : Type} {part : ServerPart γ}
    (groups : ∀ server caches, part.read { server with groups := caches } = part.read server) (text : String)
    (allowWildcard : Bool) : Beside part (normalizeGroupID text allowWildcard) := by
  have named : Beside part (do
      if !startsWith groupIDPrefix text then
        let group ← findGroupByName text
        if !group.valid then
          return none
        return some group.id
      return some text) := by
    refine .ite (fun _ => ?_) fun _ => .pure _
    exact (beside_findGroupByName groups text).bind fun group => .ite (fun _ => .pure _) fun _ => .pure _
  unfold normalizeGroupID
  refine .ite (fun _ => ?_) fun _ => named
  refine .ite (fun _ => .pure _) fun _ => ?_
  exact .ite (fun _ => .pure _) fun _ => named

theorem beside_normalizeGiven {γ : Type} {part : ServerPart γ}
    (groups : ∀ server caches, part.read { server with groups := caches } = part.read server) (text : String) :
    Beside part (normalizeGiven (normalizeGroupID · false) text) := by
  unfold normalizeGiven
  exact .ite (fun _ => .pure _) fun _ => beside_normalizeGroupID groups text false

theorem beside_cacheInstance {γ : Type} {part : ServerPart γ}
    (instances : ∀ server caches, part.read { server with instances := caches } = part.read server)
    (inst : ApplicationInstance) : Beside part (cacheInstance inst) := by
  unfold cacheInstance modifyInstances
  refine (Beside.lasting _ _).bind fun record => Beside.now.bind fun _ => Beside.now.bind fun _ => ?_
  refine Beside.now.bind fun _ => Beside.now.bind fun _ => ?_
  exact .modifies (fun _ => rfl) fun server => instances server _

theorem beside_cacheCluster {γ : Type} {part : ServerPart γ}
    (clusters : ∀ server caches, part.read { server with clusters := caches } = part.read server) (cluster : Cluster) :
    Beside part (cacheCluster cluster) := by
  unfold cacheCluster writeClusterConfigToDisk
  refine (Beside.lasting _ _).bind fun record => Beside.now.bind fun _ => Beside.bind ?_ fun _ => ?_
  all_goals exact Beside.modifies (fun _ => rfl) fun server => clusters server _

theorem beside_clusterCached {γ : Type} (part : ServerPart γ) (key : ClusterKey) : Beside part (clusterCached key) := by
  cases key <;> exact Beside.gets.bind fun _ => .cached part _ _

theorem beside_clusterQuery {γ : Type} (part : ServerPart γ) (key : ClusterKey) : Beside part (clusterQuery key) := by
  unfold clusterQuery
  refine Beside.request.bind fun succeeded => .ite (fun _ => ?_) fun _ => .pure _
  cases key with
  | id cID =>
    refine Beside.gets.bind fun server => ?_
    split
    next => exact .pure _
    next => exact (Beside.clusterOfItem part _ _).bind fun _ => .pure _
  | name name =>
    refine Beside.gets.bind fun server => ?_
    split
    next => exact .pure _
    next => exact (Beside.clusterOfItem part _ _).bind fun _ => .pure _
    next => exact .throw _

theorem beside_decideAccess {γ : Type} {part : ServerPart γ}
    (access : ∀ server cache, part.read { server with clusters := { server.clusters with
      clusterGroupAccessCache := cache } } = part.read server) (groupID cID : String) :
    Beside part (decideAccess groupID cID) := by
  have known : ∀ value, Beside part (accessCached cID value) := by
    intro value
    unfold accessCached
    refine Beside.gets.bind fun server => ?_
    cases server.clusters.clusterGroupAccessCache.findValue cID value with
    | none => exact .pure _
    | some record => exact (Beside.current record).bind fun _ => .ite (fun _ => .pure _) fun _ => .pure _
  have queried : ∀ group, Beside part (queryAccess group cID) := by
    intro group
    unfold queryAccess accessQuery cacheAccess
    refine (Beside.request.bind fun _ => .ite (fun _ => Beside.gets.bind fun _ => .pure _) fun _ => .pure _).bind ?_
    intro found
    cases found with
    | none => exact .pure _
    | some found =>
      refine Beside.bind ((Beside.lasting _ _).bind fun record => Beside.now.bind fun reading => ?_) fun _ => .pure _
      exact .modifies (fun _ => rfl) fun server => access server _
  unfold decideAccess clusterAllowsAllGroups
  refine Beside.bind ?_ fun allowed => .ite (fun _ => .pure _) fun _ => ?_
  · refine (known _).bind fun record => ?_
    cases record with
    | some record => exact (Beside.current record).bind fun _ => .pure _
    | none =>
      refine (known _).bind fun record => ?_
      cases record with
      | some => exact .pure _
      | none => exact queried _
  · refine (known _).bind fun record => ?_
    cases record with
    | some => exact .pure _
    | none =>
      refine (known _).bind fun record => ?_
      cases record with
      | some => exact .pure _
      | none => exact queried _

/-- The group is given by ID, or is the wildcard. -/
def Guest (group : String) : Prop := group = wildcard ∨ startsWith groupIDPrefix group = true

theorem normalizeGroupID_guest {group : String} (guest : Guest group) : normalizeGroupID group true = return some group := by
  unfold normalizeGroupID
  rcases guest with rfl | known
  · rfl
  · have first : group ≠ wildcard := by
      rintro rfl
      exact absurd known (by decide)
    have second : group ≠ wildcardName := by
      rintro rfl
      exact absurd known (by decide)
    simp [first, second, known]

private theorem beside_findClusterByName {γ : Type} {part : ServerPart γ} (caching : ∀ cluster, Beside part (cacheCluster cluster))
    (name : String) : Beside part (findClusterByName name) := by
  rw [findClusterByName_pieces]
  unfold findCluster
  refine (beside_clusterCached part _).bind fun found => ?_
  cases found with
  | some cluster => exact .pure _
  | none =>
    refine (beside_clusterQuery part _).bind fun found => ?_
    cases found with
    | none => exact .pure _
    | some cluster => exact (caching cluster).bind fun _ => .pure _

theorem beside_normalizeClusterID {γ : Type} {part : ServerPart γ} (caching : ∀ cluster, Beside part (cacheCluster cluster))
    (text : String) : Beside part (normalizeClusterID text) := by
  unfold normalizeClusterID
  refine .ite (fun _ => ?_) fun _ => .pure _
  exact (beside_findClusterByName caching text).bind fun cluster => .ite (fun _ => .pure _) fun _ => .pure _

end Slate
