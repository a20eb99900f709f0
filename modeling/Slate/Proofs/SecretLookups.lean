import Slate.Secrets
import Slate.Proofs.Listings

/-! Lookups and listings of secrets, over every sequence of operations and every
passage of time. A listing writes its arguments into the records it caches. -/

namespace Slate
open Library

def SecretRead (row : SecretItem) (secret : Secret) : Prop := secret = secretOfItem secret.id row

private theorem secretRead_itemOfSecret {secret : Secret} (valid : secret.valid = true) :
    SecretRead (itemOfSecret secret) secret := by
  unfold SecretRead secretOfItem itemOfSecret
  rw [← valid]

theorem SecretRead.keys {row : SecretItem} {secret : Secret} (read : SecretRead row secret) :
    secret.group = row.owningGroup ∧ secret.cluster = row.cluster :=
  ⟨congrArg Secret.group read, congrArg Secret.cluster read⟩

/-- The key of a row among the pairs of a group and a cluster. -/
def SecretItem.pair (row : SecretItem) : String := pairKey row.owningGroup row.cluster

structure SecretsAgree (server : Server) (table : FiniteMap String SecretItem) (caches : SecretCaches) : Prop where
  main : CacheAgrees server table SecretRead caches.secretCache 0
  byGroup : IndexAgrees server table SecretRead SecretItem.owningGroup caches.secretCache caches.secretByGroupCache
  byPair : IndexAgrees server table SecretRead SecretItem.pair caches.secretCache caches.secretByGroupAndClusterCache

namespace SecretsAgree

variable {before after : Server} {table table' : FiniteMap String SecretItem} {caches : SecretCaches}

theorem empty (server : Server) (table : FiniteMap String SecretItem) : SecretsAgree server table {} :=
  ⟨.empty server table SecretRead, .empty server table SecretRead _, .empty server table SecretRead _⟩

theorem later (agree : SecretsAgree before table caches) (later : Later before after) :
    SecretsAgree after table caches :=
  ⟨agree.main.later later, agree.byGroup.later later, agree.byPair.later later⟩

theorem put (agree : SecretsAgree before table caches) (later : Later before after) (steady : Steady after)
    (record : CacheRecord Secret) {row : SecretItem} (read : SecretRead row record.record)
    (puts : Puts table table' record.record.id row) {byGroup byPair : Time} (groupPassed : byGroup ≤ after.clock 0)
    (pairPassed : byPair ≤ after.clock 0) : SecretsAgree after table' (caches.replace record byGroup byPair) := by
  obtain ⟨group, cluster⟩ := read.keys
  unfold SecretCaches.replace
  rw [group, cluster]
  exact ⟨agree.main.put later puts read, agree.byGroup.put later steady puts read groupPassed,
    agree.byPair.put later steady puts read pairPassed⟩

theorem forget (agree : SecretsAgree before table caches) (later : Later before after) (id : String) :
    SecretsAgree after (AList.erase id table) (caches.forget id) := by
  unfold SecretCaches.forget
  cases present : caches.secretCache.lookup id with
  | none =>
    exact ⟨agree.main.eraseUncached later present, agree.byGroup.eraseUncached later present,
      agree.byPair.eraseUncached later present⟩
  | some entry =>
    obtain ⟨named, row, stored, read⟩ := agree.main.faithful id entry present
    obtain ⟨secret, expirationTime⟩ := entry
    obtain rfl : secret.id = id := named
    obtain ⟨group, cluster⟩ := read.keys
    have only : ∀ row', table.lookup secret.id = some row' → row' = row := by
      intro row' stored'
      rw [stored] at stored'
      exact (Option.some.inj stored').symm
    dsimp only
    rw [group, cluster]
    exact ⟨agree.main.erase later secret.id, agree.byGroup.eraseValue later fun row' stored' => by rw [only row' stored'],
      agree.byPair.eraseCategory later fun row' stored' => by rw [only row' stored']; rfl⟩

/-- A listing by group has all rows of the group, and one with a cluster has all
rows whose key it stamps. -/
theorem stamp (agree : SecretsAgree before table caches) (later : Later before after) {groupID cID : String}
    (time : Time)
    (filledGroup : cID = "" → ∀ id row, table.lookup id = some row → row.owningGroup = groupID →
      (caches.secretByGroupCache.entryOf groupID id).isSome = true)
    (filledPair : cID ≠ "" → ∀ id row, table.lookup id = some row → row.pair = pairKey groupID cID →
      (caches.secretByGroupAndClusterCache.entryOf (pairKey groupID cID) id).isSome = true) :
    SecretsAgree after table (caches.stamp groupID cID time) := by
  have kept := agree.later later
  unfold SecretCaches.stamp
  split
  next given => exact ⟨kept.main, kept.byGroup, agree.byPair.stamp later time (filledPair given)⟩
  next open_ => exact ⟨kept.main, agree.byGroup.stamp later time (filledGroup (not_not.mp open_)), kept.byPair⟩

end SecretsAgree

/-- A row is in its category by group and in its category by group and cluster. -/
def SecretCaches.Knows (caches : SecretCaches) (id : String) (row : SecretItem) : Prop :=
  (caches.secretByGroupCache.entryOf row.owningGroup id).isSome = true ∧
    (caches.secretByGroupAndClusterCache.entryOf row.pair id).isSome = true

theorem SecretCaches.knows_replace {caches : SecretCaches} {id : String} {row : SecretItem}
    (knows : caches.Knows id row) (record : CacheRecord Secret) (byGroup byPair : Time) :
    (caches.replace record byGroup byPair).Knows id row :=
  ⟨isSome_insertOrAssign _ record _ knows.1, isSome_insertOrAssign _ record _ knows.2⟩

theorem SecretCaches.knows_replaced (caches : SecretCaches) {record : CacheRecord Secret} {row : SecretItem}
    (read : SecretRead row record.record) (byGroup byPair : Time) :
    (caches.replace record byGroup byPair).Knows record.record.id row := by
  obtain ⟨group, cluster⟩ := read.keys
  unfold SecretCaches.Knows SecretItem.pair
  rw [← group, ← cluster]
  exact ⟨isSome_insertOrAssign_self _ record _, isSome_insertOrAssign_self _ record _⟩

structure SecretsConsistent (server : Server) : Prop where
  succeeding : Succeeding server
  steady : Steady server
  groups : GroupsAgree server.database.groups server.groups
  clusters : ClustersAgree server.database.clusters server.clusters
  agree : SecretsAgree server server.database.secrets server.secrets

theorem SecretsConsistent.looked {before after : Server} (consistent : SecretsConsistent before)
    (looked : Looked before after) : SecretsConsistent after where
  succeeding := looked.succeeding consistent.succeeding
  steady := looked.steady consistent.steady
  groups := looked.database ▸ looked.groups consistent.groups
  clusters := looked.database ▸ looked.clusters consistent.clusters
  agree := by
    rw [looked.database, looked.secrets]
    exact consistent.agree.later looked.toLater

/-- A change of the table and the caches of secrets alone. -/
theorem SecretsConsistent.changed {before after : Server} (consistent : SecretsConsistent before)
    (later : Later before after) (groupTable : after.database.groups = before.database.groups)
    (clusterTable : after.database.clusters = before.database.clusters) (groups : after.groups = before.groups)
    (clusters : after.clusters = before.clusters)
    (agree : SecretsAgree after after.database.secrets after.secrets) : SecretsConsistent after where
  succeeding := later.succeeding consistent.succeeding
  steady := later.steady consistent.steady
  groups := by
    rw [groupTable, groups]
    exact consistent.groups
  clusters := by
    rw [clusterTable, clusters]
    exact consistent.clusters
  agree := agree

/-- A secret is cached after its row has entered the table, or has been read from it. -/
theorem returns_cacheSecret {before server : Server} (consistent : SecretsConsistent before)
    (later : Later before server) (groupTable : server.database.groups = before.database.groups)
    (clusterTable : server.database.clusters = before.database.clusters) (groups : server.groups = before.groups)
    (clusters : server.clusters = before.clusters) (secrets : server.secrets = before.secrets)
    {secret : Secret} {row : SecretItem} (read : SecretRead row secret)
    (puts : Puts before.database.secrets server.database.secrets secret.id row) :
    Returns (cacheSecret secret) server fun _ after => SecretsConsistent after ∧ after.database = server.database ∧
      after.secrets.Knows secret.id row ∧ ∀ id row, server.secrets.Knows id row → after.secrets.Knows id row := by
  unfold cacheSecret modifySecrets
  simp only [returns_bind, returns_lasting, returns_now, returns_modify]
  obtain ⟨passed, same⟩ : ∃ passed, passed = server.tick.tick.tick := ⟨_, rfl⟩
  have passing : Later server passed := same ▸ ((Later.tick server).trans (.tick _)).trans (.tick _)
  have database : passed.database = server.database := by simp only [same, tick_database]
  have sameGroups : passed.groups = server.groups := by simp only [same, tick_groups]
  have sameClusters : passed.clusters = server.clusters := by simp only [same, tick_clusters]
  have sameSecrets : passed.secrets = server.secrets := by simp only [same, tick_secrets]
  have order : ∀ n ≤ 3, server.clock n ≤ passed.clock 0 := by
    simp only [same, tick_clock]
    exact fun n order => later.steady consistent.steady order
  rw [← same]
  have put := consistent.agree.put (later.trans passing) ((later.trans passing).steady consistent.steady)
    ⟨secret, server.clock 0 + secretCacheValidity⟩ read puts (order 1 (by omega)) (order 2 (by omega))
  rw [← secrets, ← sameSecrets, ← database] at put
  refine ⟨consistent.changed ((later.trans passing).trans (.of_eq rfl rfl)) ?_ ?_ ?_ ?_ (put.later (.of_eq rfl rfl)),
    database, SecretCaches.knows_replaced _ read .., fun id row knows => ?_⟩
  · exact (congrArg Database.groups database).trans groupTable
  · exact (congrArg Database.clusters database).trans clusterTable
  · exact sameGroups.trans groups
  · exact sameClusters.trans clusters
  · exact SecretCaches.knows_replace (sameSecrets ▸ knows) ..

private theorem returns_addSecret {server : Server} (consistent : SecretsConsistent server) {secret : Secret}
    (valid : secret.valid = true) (fresh : server.database.secrets.lookup secret.id = none)
    (header : startsWith "scrypt" secret.data = true) (length : 128 ≤ secret.data.length) :
    Returns (addSecret secret) server fun added after => added = true ∧ SecretsConsistent after := by
  have long : ¬ secret.data.length < 128 := Nat.not_lt.mpr length
  unfold addSecret
  simp only [header, long, Bool.not_true, Bool.false_eq_true, if_false, returns_bind, returns_request, returns_ite,
    consistent.succeeding 0, if_true, returns_pure, returns_modify]
  refine Returns.mono (returns_cacheSecret consistent ?later ?_ ?_ ?_ ?_ ?_ (secretRead_itemOfSecret valid) ?puts) ?_
  case later => exact (Later.answered server).trans (.of_eq rfl rfl)
  case puts => exact .insert fresh
  all_goals try rfl
  exact fun _ after kept => ⟨trivial, kept.1⟩

private theorem returns_removeSecret {server : Server} (consistent : SecretsConsistent server) (id : String) :
    Returns (removeSecret id) server fun removed after => removed = true ∧ SecretsConsistent after := by
  unfold removeSecret modifySecrets
  simp only [returns_bind, returns_request, returns_ite, returns_pure, returns_modify]
  split
  next =>
    have later := Later.answered server
    exact ⟨trivial, consistent.changed (later.trans (.of_eq rfl rfl)) rfl rfl rfl rfl
      ((consistent.agree.forget later id).later (.of_eq rfl rfl))⟩
  next failed => exact absurd (consistent.succeeding 0) failed

/-- The secret the table has for an ID, or the invalid secret. -/
def secretRecorded (database : Database) (id : String) : Secret :=
  match database.secrets.lookup id with
  | some item => secretOfItem id item
  | none => {}

/-- A lookup gives exactly what the table has. -/
theorem returns_getSecret {server : Server} (consistent : SecretsConsistent server) (id : String) :
    Returns (getSecret id) server fun secret after => SecretsConsistent after ∧
      secret = secretRecorded server.database id := by
  unfold getSecret secretRecorded
  simp only [returns_bind, returns_get]
  apply returns_cached
  · intro entry present _
    obtain ⟨named, row, stored, read⟩ := consistent.agree.main.faithful id entry present
    refine ⟨consistent.looked (.tick server), ?_⟩
    rw [stored]
    exact named ▸ read
  · intro passed missed
    have looked := Looked.missed missed
    have kept := consistent.looked looked
    have asked := kept.looked (.answered passed)
    simp only [returns_bind, returns_request, returns_ite, kept.succeeding 0, if_true, returns_get, answered_database,
      looked.database]
    split
    next absent => exact ⟨asked, by rw [absent]⟩
    next item found =>
      have read : SecretRead item (secretOfItem id item) := rfl
      simp only [returns_bind, returns_pure]
      refine (returns_cacheSecret asked (.refl _) rfl rfl rfl rfl rfl read (.present_already ?_)).mono
        fun _ _ kept => ⟨kept.1, by rw [found]⟩
      rw [answered_database, looked.database]
      exact found

/-- A row that a listing selects without being asked for it. -/
def SecretMismatch (database : Database) (groupID cID : String) : Prop :=
  ∃ id row, database.secrets.lookup id = some row ∧ listingSelects groupID cID row.owningGroup row.cluster = true ∧
    ¬ Matches groupID cID row.owningGroup row.cluster

/-- The arguments stand for the attributes of a row that matches them. -/
theorem listedSecret_eq (id : String) {groupID cID : String} {row : SecretItem}
    (same : Matches groupID cID row.owningGroup row.cluster) :
    listedSecret groupID cID id row = secretOfItem id row := by
  obtain ⟨group, cluster⟩ := same
  unfold listedSecret
  have first : (if groupID = "" then row.owningGroup else groupID) = row.owningGroup := by
    split
    next => rfl
    next given => exact (group.resolve_left given).symm
  have second : (if cID = "" then row.cluster else cID) = row.cluster := by
    split
    next => rfl
    next given => exact (cluster.resolve_left given).symm
  rw [first, second]
  rfl

/-- The category that the listing consults is trusted. -/
def SecretsTrusted (server : Server) (groupID cID : String) : Prop :=
  ∃ category, server.secrets.listing groupID cID = some category ∧ server.clock 0 < category.expiration

/-- Rows that are selected are answered and cached, with the arguments in them. -/
theorem returns_collectListedSecrets {server : Server} (consistent : SecretsConsistent server) {groupID cID : String}
    {rows : List (String × SecretItem)}
    (stored : ∀ entry ∈ rows, server.database.secrets.lookup entry.1 = some entry.2)
    (same : ∀ entry ∈ rows, Matches groupID cID entry.2.owningGroup entry.2.cluster) :
    Returns (rows.mapM fun (id, item) => do
      let secret := listedSecret groupID cID id item
      cacheSecret secret
      return secret) server fun secrets after => SecretsConsistent after ∧ after.database = server.database ∧
        secrets = rows.map (fun entry => listedSecret groupID cID entry.1 entry.2) ∧
        ∀ entry ∈ rows, after.secrets.Knows entry.1 entry.2 := by
  apply returns_mapM rows _ server fun visited secrets current => SecretsConsistent current ∧
    current.database = server.database ∧
    secrets = visited.map (fun entry => listedSecret groupID cID entry.1 entry.2) ∧
    ∀ entry ∈ visited, current.secrets.Knows entry.1 entry.2
  · exact ⟨consistent, rfl, rfl, by simp⟩
  · rintro visited ⟨id, row⟩ rest secrets current split ⟨kept, sameTable, read, known⟩
    have present : current.database.secrets.lookup id = some row := by
      rw [sameTable]
      exact stored (id, row) (by simp [split])
    have exactly := listedSecret_eq id (same (id, row) (by simp [split]))
    have isRead : SecretRead row (listedSecret groupID cID id row) := by
      rw [exactly]
      rfl
    simp only [returns_bind, returns_pure]
    refine (returns_cacheSecret kept (.refl current) rfl rfl rfl rfl rfl isRead (.present_already present)).mono ?_
    rintro _ after ⟨kept', same', knows, others⟩
    refine ⟨kept', same'.trans sameTable, by rw [read, List.map_append]; rfl, ?_⟩
    intro entry member
    obtain visited | last := List.mem_append.mp member
    · exact others _ _ (known entry visited)
    · rw [List.mem_singleton.mp last]
      exact knows

/-- The answer is the same when rows do not match. -/
theorem returns_listedSecrets (groupID cID : String) (rows : List (String × SecretItem)) (server : Server) :
    Returns (rows.mapM fun (id, item) => do
      let secret := listedSecret groupID cID id item
      cacheSecret secret
      return secret) server fun secrets _ =>
        secrets = rows.map fun entry => listedSecret groupID cID entry.1 entry.2 := by
  apply returns_mapM rows _ server fun visited secrets _ =>
    secrets = visited.map fun entry => listedSecret groupID cID entry.1 entry.2
  · rfl
  · rintro visited ⟨id, row⟩ rest secrets current - rfl
    simp only [cacheSecret, modifySecrets, returns_bind, returns_lasting, returns_now, returns_modify, returns_pure]
    rw [List.map_append]
    rfl

/-- What the answer of the listing depends on: that no record of the category it
answers from expires before its turn to be checked, or that the query it sends
selects only what is wanted. -/
def SecretsReady (server : Server) (groupID cID : String) : Prop :=
  (SecretsTrusted server groupID cID → ∀ category, server.secrets.listing groupID cID = some category →
    AllFresh (fun n => server.clock (n + 1)) category.members) ∧
  (¬ SecretsTrusted server groupID cID → ¬ SecretMismatch server.database groupID cID)

/-- What is left to do when no category answers the listing. -/
def listSecretsQueried (groupID cID : String) : StoreM (List Secret) := do
  if groupID = "" ∧ cID = "" then
    return []
  unless ← request do
    return []
  let secrets ← ((← get).database.secretsSelected groupID cID).mapM fun (id, item) => do
    let secret := listedSecret groupID cID id item
    cacheSecret secret
    return secret
  let reading ← now
  modifySecrets fun caches => caches.stamp groupID cID (reading + secretCacheValidity)
  return secrets

private theorem returns_listSecretsQueried {server : Server} (consistent : SecretsConsistent server) {groupID cID : String}
    (given : groupID ≠ "" ∨ cID ≠ "")
    (unambiguous : cID ≠ "" →
      PairUnambiguous server.database.secrets SecretItem.owningGroup SecretItem.cluster groupID cID) :
    Returns (listSecretsQueried groupID cID) server fun answer after =>
      (¬ SecretMismatch server.database groupID cID → SecretsConsistent after) ∧
      (Lists server.database.secrets SecretRead (fun row => Matches groupID cID row.owningGroup row.cluster) answer ↔
        ¬ SecretMismatch server.database groupID cID) := by
  have asked := consistent.looked (.answered server)
  have some_ : ¬ (groupID = "" ∧ cID = "") := fun none => given.elim (absurd none.1) (absurd none.2)
  unfold listSecretsQueried
  simp only [some_, if_false, returns_bind, returns_request, consistent.succeeding 0, returns_ite, if_true, returns_get,
    returns_pure, answered_database]
  by_cases mismatch : SecretMismatch server.database groupID cID
  · refine (returns_listedSecrets groupID cID _ _).mono ?_
    rintro secrets after rfl
    refine ⟨fun absent => absurd mismatch absent, fun lists => ?_, fun absent => absurd mismatch absent⟩
    obtain ⟨id, row, stored, selected, different⟩ := mismatch
    have member : listedSecret groupID cID id row ∈
        (server.database.secretsSelected groupID cID).map fun entry => listedSecret groupID cID entry.1 entry.2 :=
      List.mem_map.mpr ⟨(id, row), FiniteMap.mem_select.mpr ⟨stored, selected⟩, rfl⟩
    obtain ⟨row', stored', -, wanted⟩ := lists.sound _ member
    have same : server.database.secrets.lookup id = some row' := stored'
    rw [stored] at same
    cases same
    exact absurd wanted different
  · have every : ∀ entry ∈ server.database.secretsSelected groupID cID,
        server.database.secrets.lookup entry.1 = some entry.2 ∧
          Matches groupID cID entry.2.owningGroup entry.2.cluster := by
      intro entry chosen
      obtain ⟨stored, selected⟩ := FiniteMap.mem_select.mp chosen
      refine ⟨stored, by_contra fun different => mismatch ⟨_, _, stored, selected, different⟩⟩
    refine (returns_collectListedSecrets asked (fun entry chosen => (every entry chosen).1)
      fun entry chosen => (every entry chosen).2).mono ?_
    rintro secrets after ⟨kept, same, rfl, known⟩
    refine ⟨fun _ => ?_, fun _ => mismatch, fun _ => ?_⟩
    · refine kept.changed ((Later.tick after).trans (.of_eq rfl rfl)) rfl rfl rfl rfl ?_
      change SecretsAgree _ after.database.secrets (after.secrets.stamp groupID cID _)
      have stored : after.database.secrets = server.database.secrets := by rw [same, answered_database]
      refine (kept.agree.stamp (.tick after) _ (fun open_ id row found own => ?_)
        fun named id row found keyed => ?_).later (.of_eq rfl rfl)
      · rw [stored] at found
        have wanted : Matches groupID cID row.owningGroup row.cluster := ⟨.inr own, .inl open_⟩
        have knows := known (id, row) (FiniteMap.mem_select.mpr ⟨found, wanted.selected given⟩)
        exact own ▸ knows.1
      · rw [stored] at found
        obtain ⟨group, cluster⟩ := unambiguous named id row found keyed
        have wanted : Matches groupID cID row.owningGroup row.cluster := ⟨.inr group, .inr cluster⟩
        have knows := known (id, row) (FiniteMap.mem_select.mpr ⟨found, wanted.selected given⟩)
        exact keyed ▸ knows.2
    · have answered : (server.database.secretsSelected groupID cID).map
          (fun entry => listedSecret groupID cID entry.1 entry.2) =
            (server.database.secretsSelected groupID cID).map fun entry => secretOfItem entry.1 entry.2 :=
        List.map_congr_left fun entry chosen => listedSecret_eq entry.1 (every entry chosen).2
      have lists : Lists server.database.secrets SecretRead
          (fun row => listingSelects groupID cID row.owningGroup row.cluster = true)
          ((server.database.secretsSelected groupID cID).map fun entry => secretOfItem entry.1 entry.2) :=
        lists_select fun id row _ => ⟨rfl, rfl⟩
      rw [answered]
      refine (lists_selected_iff lists fun row => Matches.selected given).mpr ?_
      exact fun id row found selected => by_contra fun different => mismatch ⟨id, row, found, selected, different⟩

private theorem returns_listSecretsNormalized {server : Server} (consistent : SecretsConsistent server) {groupID cID : String}
    (given : groupID ≠ "" ∨ cID ≠ "")
    (unambiguous : cID ≠ "" →
      PairUnambiguous server.database.secrets SecretItem.owningGroup SecretItem.cluster groupID cID) :
    Returns (listSecretsNormalized groupID cID) server fun answer after =>
      (SecretsTrusted server groupID cID ∨ ¬ SecretMismatch server.database groupID cID → SecretsConsistent after) ∧
      (Lists server.database.secrets SecretRead (fun row => Matches groupID cID row.owningGroup row.cluster) answer ↔
        SecretsReady server groupID cID) := by
  have queried : ∀ passed, Looked server passed → ¬ SecretsTrusted server groupID cID →
      Returns (listSecretsQueried groupID cID) passed fun answer after =>
        (SecretsTrusted server groupID cID ∨ ¬ SecretMismatch server.database groupID cID → SecretsConsistent after) ∧
        (Lists server.database.secrets SecretRead (fun row => Matches groupID cID row.owningGroup row.cluster) answer ↔
          SecretsReady server groupID cID) := by
    intro passed looked untrusted
    have same : passed.database = server.database := looked.database
    rw [← same] at unambiguous
    refine (returns_listSecretsQueried (consistent.looked looked) given unambiguous).mono ?_
    rw [same]
    rintro answer after ⟨kept, exactly⟩
    refine ⟨fun harmless => kept (harmless.resolve_left untrusted), exactly.trans ?_⟩
    exact ⟨fun clear => ⟨fun trusted => absurd trusted untrusted, fun _ => clear⟩, fun ready => ready.2 untrusted⟩
  have listed : ∀ category, server.secrets.listing groupID cID = some category →
      server.clock 0 < category.expiration →
      Lists server.database.secrets SecretRead (fun row => Matches groupID cID row.owningGroup row.cluster)
        (category.members.map CacheRecord.record) := by
    intro category found trusted
    unfold SecretCaches.listing at found
    split at found
    next both =>
      cases found
      refine (consistent.agree.byPair.lists ⟨0, trusted⟩).congr fun id row stored => ?_
      constructor
      · intro keyed
        obtain ⟨group, cluster⟩ := unambiguous both.2 id row stored keyed
        exact ⟨.inr group, .inr cluster⟩
      · rintro ⟨group, cluster⟩
        rw [SecretItem.pair, group.resolve_left both.1, cluster.resolve_left both.2]
    next notBoth =>
      split at found
      next named =>
        cases found
        have open_ : cID = "" := by_contra fun also => notBoth ⟨named, also⟩
        refine (consistent.agree.byGroup.lists ⟨0, trusted⟩).congr fun id row stored => ?_
        exact ⟨fun own => ⟨.inr own, .inl open_⟩, fun wanted => wanted.1.resolve_left named⟩
      next => cases found
  unfold listSecretsNormalized
  simp only [returns_bind, returns_get]
  split
  next category found =>
    simp only [returns_bind]
    apply returns_cachedMembers
    · intro trusted after looked
      have isTrusted : SecretsTrusted server groupID cID := ⟨category, found, trusted⟩
      refine ⟨fun _ => consistent.looked looked, (lists_freshRecords_iff (listed category found trusted)).trans ?_⟩
      constructor
      · intro fresh
        refine ⟨fun _ other also => ?_, fun untrusted => absurd isTrusted untrusted⟩
        rw [found] at also
        cases also
        exact fresh
      · exact fun ready => ready.1 isTrusted category found
    · intro stale passed looked
      refine queried passed looked ?_
      rintro ⟨other, also, trusted⟩
      rw [found] at also
      cases also
      exact stale trusted
  next absent =>
    refine queried server (.refl server) ?_
    rintro ⟨other, also, -⟩
    exact absent other also

/-- The arguments stand for at most one group and one cluster, and no other pair of
a stored secret is written like these. -/
structure SecretsAskable (database : Database) (group cluster : String) : Prop where
  resolvable : Resolvable database group cluster
  unambiguous : cluster ≠ "" → ∀ groupID cID, DesignatesArguments database group cluster groupID cID →
    PairUnambiguous database.secrets SecretItem.owningGroup SecretItem.cluster groupID cID

def ListsSecrets (database : Database) (group cluster : String) (answer : List Secret) : Prop :=
  Lists database.secrets SecretRead (fun row => Wanted database group cluster row.owningGroup row.cluster) answer

/-- A listing is harmless when it is answered from a category, or when the query it
sends selects only what is wanted. -/
def SecretsSafe (server : Server) (groupID cID : String) : Prop :=
  SecretsTrusted server groupID cID ∨ ¬ SecretMismatch server.database groupID cID

theorem returns_listSecrets {server : Server} (consistent : SecretsConsistent server) {group cluster : String}
    (askable : SecretsAskable server.database group cluster) :
    (Returns (normalizeArguments group cluster) server (fun normalized passed =>
        ∀ groupID cID, normalized = some (groupID, cID) → SecretsSafe passed groupID cID) →
      Returns (listSecrets group cluster) server fun _ after => SecretsConsistent after) ∧
    (Returns (listSecrets group cluster) server (fun answer _ => ListsSecrets server.database group cluster answer) ↔
      Returns (normalizeArguments group cluster) server fun normalized passed =>
        ∀ groupID cID, normalized = some (groupID, cID) → SecretsReady passed groupID cID) := by
  unfold listSecrets
  simp only [askable.resolvable.given, if_false]
  refine returns_listing consistent.succeeding consistent.groups consistent.clusters askable.resolvable SecretsSafe
    (fun _ => consistent.looked) ?_ ?_
  · exact fun none => .nothing fun _ row _ => none row.owningGroup row.cluster
  · intro groupID cID passed looked designated
    have same : passed.database = server.database := looked.database
    have groupGiven := designated.groupEmpty askable.resolvable.groupIDs
    have clusterGiven := designated.clusterEmpty askable.resolvable.clusterIDs
    have given : groupID ≠ "" ∨ cID ≠ "" := by
      rw [Ne, Ne, groupGiven, clusterGiven]
      exact not_and_or.mp askable.resolvable.given
    have unambiguous := fun named => askable.unambiguous (mt clusterGiven.mpr named) groupID cID designated
    rw [← same] at unambiguous
    refine (returns_listSecretsNormalized (consistent.looked looked) given unambiguous).mono ?_
    rintro answer after ⟨kept, exactly⟩
    rw [same] at exactly
    have wanted := designated.wanted_iff askable.resolvable
    have translated : ListsSecrets server.database group cluster answer ↔ _ :=
      ⟨fun lists => lists.congr fun _ row _ => wanted row.owningGroup row.cluster,
        fun lists => lists.congr fun _ row _ => (wanted row.owningGroup row.cluster).symm⟩
    exact ⟨kept, translated.trans exactly⟩

inductive SecretOperation where
  | addSecret (secret : Secret)
  | removeSecret (id : String)
  | getSecret (id : String)
  | listSecrets (group cluster : String)
  | findSecretByName (group cluster name : String)

def SecretOperation.execute : SecretOperation → StoreM Unit
  | .addSecret secret => do let _ ← Slate.addSecret secret
  | .removeSecret id => do let _ ← Slate.removeSecret id
  | .getSecret id => do let _ ← Slate.getSecret id
  | .listSecrets group cluster => do let _ ← Slate.listSecrets group cluster
  | .findSecretByName group cluster name => do let _ ← Slate.findSecretByName group cluster name

/-- Secrets that are added are encrypted and have new IDs, and the arguments of
listings are not ambiguous. -/
def SecretOperation.proper (operation : SecretOperation) (server : Server) : Prop :=
  match operation with
  | .addSecret secret => secret.valid = true ∧ server.database.secrets.lookup secret.id = none ∧
      startsWith "scrypt" secret.data = true ∧ 128 ≤ secret.data.length
  | .listSecrets group cluster => SecretsAskable server.database group cluster
  | .findSecretByName group cluster _ => SecretsAskable server.database group cluster
  | _ => True

/-- The listing of these arguments is harmless. -/
def ListsSafely (server : Server) (group cluster : String) : Prop :=
  Returns (normalizeArguments group cluster) server fun normalized passed =>
    ∀ groupID cID, normalized = some (groupID, cID) → SecretsSafe passed groupID cID

def SecretOperation.permitted (operation : SecretOperation) (server : Server) : Prop :=
  operation.proper server ∧
    match operation with
    | .listSecrets group cluster => ListsSafely server group cluster
    | .findSecretByName group cluster _ => ListsSafely server group cluster
    | _ => True

private theorem execute_keeps_secrets (operation : SecretOperation) (server : Server) (consistent : SecretsConsistent server)
    (allowed : operation.permitted server) :
    Returns operation.execute server fun _ after => SecretsConsistent after := by
  obtain ⟨proper, safe⟩ := allowed
  cases operation with
  | addSecret secret =>
    obtain ⟨valid, fresh, header, length⟩ := proper
    simp only [SecretOperation.execute, returns_bind, returns_pure]
    exact (returns_addSecret consistent valid fresh header length).mono fun _ _ => And.right
  | removeSecret id =>
    simp only [SecretOperation.execute, returns_bind, returns_pure]
    exact (returns_removeSecret consistent id).mono fun _ _ => And.right
  | getSecret id =>
    simp only [SecretOperation.execute, returns_bind, returns_pure]
    exact (returns_getSecret consistent id).mono fun _ _ => And.left
  | listSecrets group cluster =>
    simp only [SecretOperation.execute, returns_bind, returns_pure]
    exact (returns_listSecrets consistent proper).1 safe
  | findSecretByName group cluster name =>
    simp only [SecretOperation.execute, Slate.findSecretByName, returns_bind, returns_pure]
    exact (returns_listSecrets consistent proper).1 safe

structure SecretsStart (server : Server) : Prop where
  groups : server.groups = {}
  clusters : server.clusters = {}
  secrets : server.secrets = {}
  succeeding : Succeeding server
  steady : Steady server

theorem SecretsStart.consistent {server : Server} (start : SecretsStart server) : SecretsConsistent server where
  succeeding := start.succeeding
  steady := start.steady
  groups := start.groups ▸ .empty _
  clusters := start.clusters ▸ .empty _
  agree := start.secrets ▸ .empty _ _

/-- After any sequence of permitted operations and for any passage of time, a lookup
gives the stored secret with every field; a listing is exact if and only if no
record of the category it answers from has expired before its turn to be checked
or, when the table is asked, the query selects no secret on another cluster. -/
theorem secret_answers_agree_iff {server : Server} {history : List SecretOperation} (start : SecretsStart server)
    (allowed : Permitted SecretOperation.execute SecretOperation.permitted history server) :
    Returns (history.forM SecretOperation.execute) server fun _ current =>
      (∀ id, Returns (getSecret id) current fun secret _ => secret = secretRecorded current.database id) ∧
      ∀ group cluster, SecretsAskable current.database group cluster →
        (Returns (listSecrets group cluster) current
            (fun answer _ => ListsSecrets current.database group cluster answer) ↔
          Returns (normalizeArguments group cluster) current fun normalized passed =>
            ∀ groupID cID, normalized = some (groupID, cID) → SecretsReady passed groupID cID) := by
  refine (returns_history execute_keeps_secrets start.consistent allowed).mono fun _ current consistent => ?_
  exact ⟨fun id => (returns_getSecret consistent id).mono fun _ _ => And.right,
    fun group cluster askable => (returns_listSecrets consistent askable).2⟩

def secretServer : Server where
  database := { secrets := AList.insert "secret_1" ⟨"key", "group_1", "cluster_1", "today", "scrypt"⟩ ∅ }

private theorem secretServer_start : SecretsStart secretServer where
  groups := rfl
  clusters := rfl
  secrets := rfl
  succeeding := fun _ => rfl
  steady := fun _ _ _ => Nat.le_refl 0

/-- An argument that merely starts like the ID of a cluster designates no cluster of
a secret, and is written together with no group like a secret's. -/
theorem secretServer_askable : SecretsAskable secretServer.database "group_1" "cluster_" where
  resolvable := ⟨by decide, fun _ => .empty _, fun _ => .empty _, rfl, rfl⟩
  unambiguous := by
    rintro - groupID cID ⟨group, cluster⟩ id row stored keyed
    obtain rfl : groupID = "group_1" := group
    obtain rfl : cID = "cluster_" := cluster
    rw [secretServer, FiniteMap.lookup_insert] at stored
    split at stored
    next =>
      cases stored
      exact absurd keyed (by decide)
    next => cases stored

/-- The listing for such an argument finds the secret and caches it with the
argument in place of its cluster; a lookup by ID then answers that. -/
theorem secret_answered_with_argument :
    Permitted SecretOperation.execute SecretOperation.proper [.listSecrets "group_1" "cluster_"] secretServer ∧
      SecretsStart secretServer ∧
      Returns ([.listSecrets "group_1" "cluster_"].forM SecretOperation.execute) secretServer fun _ current =>
        (current.database.secrets.lookup "secret_1").map SecretItem.cluster = some "cluster_1" ∧
          Returns (getSecret "secret_1") current fun secret _ => secret.cluster = "cluster_" :=
  ⟨⟨secretServer_askable, fun _ _ => trivial⟩, secretServer_start, rfl, rfl⟩

/-- A listing by group and cluster, and a lookup of what it has found. -/
theorem secret_answers_agree_run :
    Returns ([.listSecrets "group_1" "cluster_1", .getSecret "secret_1"].forM SecretOperation.execute) secretServer fun _ current =>
      Returns (getSecret "secret_1") current fun secret _ => secret = secretRecorded current.database "secret_1" := by
  have askable : SecretsAskable secretServer.database "group_1" "cluster_1" := {
    resolvable := ⟨by decide, fun _ => .empty _, fun _ => .empty _, rfl, rfl⟩
    unambiguous := by
      rintro - groupID cID ⟨group, cluster⟩ id row stored -
      obtain rfl : groupID = "group_1" := group
      obtain rfl : cID = "cluster_1" := cluster
      rw [secretServer, FiniteMap.lookup_insert] at stored
      split at stored <;> cases stored
      exact ⟨rfl, rfl⟩ }
  have safe : ListsSafely secretServer "group_1" "cluster_1" := by
    intro groupID cID same
    cases same
    refine .inr fun mismatch => ?_
    obtain ⟨id, row, stored, -, other⟩ := mismatch
    change secretServer.database.secrets.lookup id = some row at stored
    rw [secretServer, FiniteMap.lookup_insert] at stored
    split at stored <;> cases stored
    exact other ⟨.inr rfl, .inr rfl⟩
  have allowed : Permitted SecretOperation.execute SecretOperation.permitted
      [.listSecrets "group_1" "cluster_1", .getSecret "secret_1"] secretServer :=
    ⟨⟨askable, safe⟩, fun _ _ => ⟨⟨trivial, trivial⟩, fun _ _ => trivial⟩⟩
  exact (secret_answers_agree_iff secretServer_start allowed).mono fun _ _ agree => agree.1 "secret_1"

end Slate
