import Slate.ClusterRecords
import Slate.Proofs.SecretKeeping

/-! What a handler reads of a request and of the group and the cluster that it names. A text that
begins like an identifier is one, any other is a name. -/

namespace Slate
open Library Handler

def metadataText (body : Json) (name : String) : Option String := body.member "metadata" >>= fun metadata => memberText metadata name

theorem yields_requestMetadata (body : Json) (missing incorrect : String) (server : Server) :
    Yields (requestMetadata body missing incorrect) server fun metadata _ => body.member "metadata" = some metadata := by
  unfold requestMetadata
  rw [yields_bind, yields_require]
  intro _
  rw [yields_bind, yields_require]
  intro _
  rw [yields_bind, yields_accessing]
  intro metadata there
  rw [yields_bind, yields_require]
  exact fun _ => there

theorem yields_checkRequired (metadata : Json) (name missing incorrect : String) (server : Server) :
    Yields (checkRequired metadata name missing incorrect) server fun _ _ =>
      memberText metadata name = some ((memberText metadata name).getD "") := by
  unfold checkRequired checkOptional
  rw [yields_bind, yields_require]
  intro has
  obtain ⟨value, there⟩ := Json.member_of_hasMember has
  rw [there, yields_require]
  intro isString
  unfold memberText
  rw [there]
  cases value with
  | string text => rfl
  | null => cases isString
  | bool => cases isString
  | number => cases isString
  | array => cases isString
  | object => cases isString

/-- What is cached under a key, be it still valid or not. -/
def CachedAs {α : Type} (cache : CuckooHashMap String (CacheRecord α)) (key : String) (value : α) : Prop :=
  ∃ entry, cache.lookup key = some entry ∧ entry.record = value

namespace Server
variable (server : Server) (text : String)

/-- The group that a text means, as it is cached or in its table. -/
def MeansGroup (group : Group) : Prop :=
  if startsWith groupIDPrefix text then
    CachedAs server.groups.groupCache text group ∨
      ∃ item, server.database.groups.lookup text = some item ∧ groupOfItem text item = group
  else
    CachedAs server.groups.groupByNameCache text group ∨
      ∃ id item, server.database.groups.lookup id = some item ∧ item.name = text ∧ groupOfItem id item = group

/-- The cluster that a text means, as it is cached or in its table. -/
def MeansCluster (cluster : Cluster) : Prop :=
  if startsWith clusterIDPrefix text then
    CachedAs server.clusters.clusterCache text cluster ∨ server.database.cluster text = some cluster
  else
    CachedAs server.clusters.clusterByNameCache text cluster ∨
      ∃ id, server.database.cluster id = some cluster ∧ cluster.name = text

end Server

theorem yields_cached {α : Type} (cache : CuckooHashMap String (CacheRecord α)) (key : String) (server : Server) :
    Yields (cached cache key) server fun found _ =>
      ∀ record, found = some record → CachedAs cache key record := by
  unfold cached
  split
  next =>
    intro _ impossible
    cases impossible
  next entry found =>
    rw [yields_bind]
    refine (Yields.trivial _ _).mono fun fresh _ _ => ?_
    rw [yields_ite]
    split
    next =>
      intro record same
      cases same
      exact ⟨entry, found, rfl⟩
    next =>
      intro _ impossible
      cases impossible

structure SameClusters (before after : Server) : Prop where
  database : after.database = before.database
  clusters : after.clusters = before.clusters

namespace SameClusters

instance : IsPreorder Server SameClusters where
  refl _ := ⟨rfl, rfl⟩
  trans _ _ _ early late := ⟨late.database.trans early.database, late.clusters.trans early.clusters⟩

theorem caching : CachingGroups SameClusters where
  tick _ := ⟨rfl, rfl⟩
  answered _ := ⟨rfl, rfl⟩
  replace _ _ := ⟨rfl, rfl⟩

theorem means {before after : Server} (same : SameClusters before after) {text : String} {cluster : Cluster}
    (means : after.MeansCluster text cluster) : before.MeansCluster text cluster := by
  unfold Server.MeansCluster at means ⊢
  rwa [same.database, same.clusters] at means

theorem userInGroup (uID groupID : String) : Leads SameClusters (userInGroup uID groupID) :=
  leads_userInGroup caching (fun _ _ => (leads_lasting caching.toPassing _ _).bind fun _ =>
    (leads_now caching.toPassing).bind fun _ => .modifies fun _ => ⟨rfl, rfl⟩) _ _

end SameClusters

section
variable {α : Type} {cache : CuckooHashMap String (CacheRecord α)} {key : String} {server : Server} {good : α → Prop}

/-- What is found is cached, or else what a query has. -/
theorem yields_found {query : Option α → StoreM α} (cached_ : ∀ value, CachedAs cache key value → good value)
    (returned : ∀ value, query (some value) = return value)
    (queried : ∀ passed, passed.database = server.database → Yields (query none) passed fun value _ => good value) :
    Yields (cached cache key >>= query) server fun value _ => good value := by
  rw [yields_bind]
  apply ((yields_cached cache key server).and (leads_cached SameClusters.caching.toPassing cache key server).yields).mono
  rintro found passed ⟨inside, same⟩
  cases found with
  | some value =>
    rw [returned, yields_pure]
    exact cached_ value (inside value rfl)
  | none => exact queried passed same.database

end

theorem yields_getGroup (text : String) (server : Server) :
    Yields (getGroup text) server fun group _ => group.valid = true → server.MeansGroup text group := by
  have nothing : ∀ (means : Group → Prop) (passed : Server),
      Yields (pure {} : StoreM Group) passed fun group _ => group.valid = true → means group :=
    fun _ _ impossible => by cases impossible
  unfold getGroup Server.MeansGroup
  rw [yields_ite]
  split
  next known =>
    unfold findGroupByID
    rw [yields_bind, yields_get]
    apply yields_found (fun group inside _ => .inl inside) fun _ => rfl
    intro passed same
    rw [yields_bind, yields_request, yields_ite]
    split
    next =>
      rw [yields_bind, yields_get]
      split
      next => exact nothing _ _
      next item stored =>
        rw [yields_bind]
        exact (Yields.trivial _ _).mono fun _ _ _ _ => .inr ⟨item, same ▸ stored, rfl⟩
    next => exact nothing _ _
  next named =>
    unfold findGroupByName
    rw [yields_bind, yields_get]
    apply yields_found (fun group inside _ => .inl inside) fun _ => rfl
    intro passed same
    rw [yields_bind, yields_request, yields_ite]
    split
    next =>
      rw [yields_bind, yields_get]
      split
      next => exact nothing _ _
      next id item rows =>
        have member : (id, item) ∈ server.database.groups.select fun _ item => item.name == text := by
          rw [← same]
          exact rows ▸ List.mem_singleton_self _
        obtain ⟨stored, chosen⟩ := FiniteMap.mem_select.mp member
        have name : item.name = text := beq_iff_eq.mp chosen
        rw [yields_bind]
        exact (Yields.trivial _ _).mono fun _ _ _ _ => .inr ⟨id, item, stored, name, by rw [← name]; rfl⟩
      next => trivial
    next => exact nothing _ _

private theorem yields_clusterOfItem_read (id : String) (item : ClusterItem) (server : Server) :
    Yields (clusterOfItem id item) server fun cluster _ => item.read id = some cluster := by
  unfold clusterOfItem findOrThrow ClusterItem.read
  cases item.name <;> simp only [yields_bind, yields_pure, yields_throw]
  cases item.owningGroup <;> simp only [yields_pure, yields_throw]
  cases item.config <;> simp only [yields_pure, yields_throw]
  cases item.systemNamespace <;> simp only [yields_pure, yields_throw]
  rfl

theorem yields_getCluster (text : String) (server : Server) :
    Yields (getCluster text) server fun cluster _ => cluster.valid = true → server.MeansCluster text cluster := by
  have nothing : ∀ (means : Cluster → Prop) (passed : Server),
      Yields (pure {} : StoreM Cluster) passed fun cluster _ => cluster.valid = true → means cluster :=
    fun _ _ impossible => by cases impossible
  unfold getCluster Server.MeansCluster
  rw [yields_ite]
  split
  next known =>
    unfold findClusterByID
    rw [yields_bind, yields_get]
    apply yields_found (fun cluster inside _ => .inl inside) fun _ => rfl
    intro passed same
    rw [yields_bind, yields_request, yields_ite]
    split
    next =>
      rw [yields_bind, yields_get]
      split
      next => exact nothing _ _
      next item stored =>
        rw [yields_bind]
        apply (yields_clusterOfItem_read text item _).mono
        intro cluster _ read
        rw [yields_bind]
        refine (Yields.trivial _ _).mono fun _ _ _ _ => .inr ?_
        rw [Database.cluster, ← same]
        exact Option.bind_eq_some_iff.mpr ⟨item, stored, read⟩
    next => exact nothing _ _
  next named =>
    unfold findClusterByName
    rw [yields_bind, yields_get]
    apply yields_found (fun cluster inside _ => .inl inside) fun _ => rfl
    intro passed same
    rw [yields_bind, yields_request, yields_ite]
    split
    next =>
      rw [yields_bind, yields_get]
      split
      next => exact nothing _ _
      next id item rows =>
        have member : (id, item) ∈ server.database.clusters.select fun _ item => item.name == some text := by
          rw [← same]
          exact rows ▸ List.mem_singleton_self _
        obtain ⟨stored, chosen⟩ := FiniteMap.mem_select.mp member
        rw [yields_bind]
        apply (yields_clusterOfItem_read id item _).mono
        intro cluster _ read
        rw [yields_bind]
        refine (Yields.trivial _ _).mono fun _ _ _ _ => .inr ⟨id, Option.bind_eq_some_iff.mpr ⟨item, stored, read⟩, ?_⟩
        exact Option.some.inj ((ClusterItem.read_name read).2.2.symm.trans (beq_iff_eq.mp chosen))
      next => trivial
    next => exact nothing _ _

section
variable {α : Type} {groupID clusterID uID : String} {server : Server} {post : α → Server → Prop}

/-- A request of a user for something of a group on a cluster, once both are known. -/
theorem yields_places {rest : Group → Cluster → HandlerM α}
    (next : ∀ group cluster passed, server.MeansGroup groupID group → server.MeansCluster clusterID cluster →
      Yields (rest group cluster) passed post) :
    Yields (do
      let group ← onStore (getGroup groupID)
      require (some group.valid) 404 "Group not found"
      let member ← onStore (userInGroup uID group.id)
      require (some member) 403 "User not authorized"
      let cluster ← onStore (getCluster clusterID)
      require (some cluster.valid) 404 "Cluster not found"
      rest group cluster) server post := by
  rw [yields_bind, yields_onStore]
  apply ((yields_getGroup groupID server).and (leads_getGroup SameClusters.caching groupID server).yields).mono
  rintro group located ⟨means, same⟩
  rw [yields_bind, yields_require]
  intro valid
  rw [yields_bind, yields_onStore]
  apply (SameClusters.userInGroup uID group.id located).yields.mono
  intro member known still
  rw [yields_bind, yields_require]
  intro _
  rw [yields_bind, yields_onStore]
  apply (yields_getCluster clusterID known).mono
  intro cluster passed named
  rw [yields_bind, yields_require]
  intro there
  have unchanged : SameClusters server known := IsTrans.trans (r := SameClusters) _ _ _ same still
  exact next group cluster passed (means (Option.some.inj valid)) (unchanged.means (named (Option.some.inj there)))

end

end Slate
