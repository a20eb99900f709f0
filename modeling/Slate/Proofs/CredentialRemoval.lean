import Slate.Proofs.CredentialRaces
import Slate.Deletions

/-! When a credential that is taken away from a cluster is revoked as well. -/

namespace Slate
open Library

/-- The access key that the record of a cluster carries. -/
def Database.carried (database : Database) (cID : String) : Option String :=
  database.clusters.lookup cID >>= ClusterItem.recordedKey

def Revoked (database : Database) (key : String) : Prop :=
  ∃ item, database.credentials.lookup key = some item ∧ item.revoked = true

/-- A credential in use that nothing revoked, and that a cluster does not carry any more. -/
def LostCredential (before after : Database) (key : String) : Prop :=
  (∃ item, after.credentials.lookup key = some item ∧ item.inUse = true ∧ item.revoked = false) ∧
    ∃ cID, before.carried cID = some key ∧ after.carried cID ≠ some key

/-- The same call, once more, for what the store then says of the cluster. -/
def withdrawAgain (cID : String) : StoreM String := do
  withdrawIfReachable (← findClusterByID cID) true

/-- A success means that the cluster carries no credential and that the one it carried is revoked. After
an error, any credential that was lost can be revoked if nothing fails. -/
def TakesAway (cluster : Cluster) (reachable : Bool) (server : Server) : Prop :=
  Yields (withdrawIfReachable cluster reachable) server fun result after =>
    if result = "" then after.database.carried cluster.id = none ∧
      ∀ key, server.database.carried cluster.id = some key → Revoked after.database key
    else ∀ key, LostCredential server.database after.database key → ∃ clock outcomes,
      Returns (withdrawAgain cluster.id) { after with clock, outcomes } fun _ last => Revoked last.database key

/-- How it comes that the credential a cluster carries is not lost: the first request fails, the record
cannot be read again, or the credential is revoked. -/
inductive Safely (cluster : Cluster) (server : Server) (key : String) : Prop
  | failing (failing : server.outcomes 0 = false)
  | unreadable {item : ClusterItem} (read : server.outcomes 1 = true)
    (stored : server.database.clusters.lookup cluster.id = some item) (unreadable : item.read cluster.id = none)
  | already (already : Revoked server.database key)
  | revoking (same : cluster.monitoringCredential.accessKey = key) (succeeding : server.outcomes 2 = true)
    (pooled : (server.database.credentials.lookup key).isSome = true)

variable {server : Server} {cluster : Cluster} {cID : String}

private theorem clusterOfItem_unread {item : ClusterItem} (unread : item.read cID = none) :
    ∃ message, clusterOfItem cID item = throw message := by
  unfold ClusterItem.read at unread
  unfold clusterOfItem findOrThrow
  cases named : item.name
  case none => exact ⟨_, rfl⟩
  cases owned : item.owningGroup
  case none => exact ⟨_, rfl⟩
  cases configured : item.config
  case none => exact ⟨_, rfl⟩
  cases spaced : item.systemNamespace
  case none => exact ⟨_, rfl⟩
  rw [named, owned, configured, spaced] at unread
  cases unread

/-- Caching reads the clock only. -/
theorem returns_cacheCluster_outcomes (cluster : Cluster) (server : Server) :
    Returns (cacheCluster cluster) server fun _ after =>
      after.database = server.database ∧ after.outcomes = server.outcomes := by
  unfold cacheCluster writeClusterConfigToDisk
  simp only [returns_bind, returns_lasting, returns_now, returns_modify]
  exact ⟨rfl, rfl⟩

/-- Loading a cluster again takes one request. -/
theorem ends_reloadCluster (cID : String) (server : Server) : Ends (reloadCluster cID) server
    (fun _ after => after.database = server.database ∧ (∀ n, after.outcomes n = server.outcomes (n + 1)) ∧
      ∀ item, server.outcomes 0 = true → server.database.clusters.lookup cID = some item → item.read cID ≠ none)
    fun _ _ => server.outcomes 0 = true ∧ ∃ item, server.database.clusters.lookup cID = some item ∧ item.read cID = none := by
  unfold reloadCluster findClusterByID
  have erased : (AList.erase cID server.clusters.clusterCache).lookup cID = none := by
    rw [FiniteMap.lookup_erase, if_pos rfl]
  simp only [ends_bind, ends_modify, ends_get, cached, erased, ends_pure, ends_request, ends_ite]
  split
  next succeeding =>
    change server.outcomes 0 = true at succeeding
    split
    next absent =>
      change server.database.clusters.lookup cID = none at absent
      exact ⟨rfl, fun _ => rfl, fun item _ stored => by cases absent.symm.trans stored⟩
    next item stored =>
      change server.database.clusters.lookup cID = some item at stored
      cases read : item.read cID with
      | none =>
        obtain ⟨message, thrown⟩ := clusterOfItem_unread read
        rw [thrown, ends_bind, ends_throw]
        exact ⟨succeeding, item, stored, read⟩
      | some cluster =>
        rw [clusterOfItem_read read, pure_bind, ends_bind]
        refine (returns_cacheCluster_outcomes cluster _).ends.mono ?_ fun _ _ => id
        rintro _ after ⟨database, outcomes⟩
        refine ⟨database, fun n => congrFun outcomes n, fun other _ same => ?_⟩
        cases stored.symm.trans same
        rw [read]
        exact Option.some_ne_none cluster
  next failing => exact ⟨rfl, fun _ => rfl, fun item succeeding => absurd succeeding failing⟩

def Database.without (database : Database) (cID : String) (item : ClusterItem) : Database :=
  { database with clusters := database.clusters.insert cID { item with monCredential := some nocred } }

private theorem without_carried (database : Database) (cID : String) (item : ClusterItem) :
    (database.without cID item).carried cID = none := by
  rw [Database.carried, Database.without]
  dsimp only
  rw [FiniteMap.lookup_insert, if_pos rfl]
  exact recordedKey_nocred item

private theorem read_without (item : ClusterItem) (cID : String) :
    ClusterItem.read { item with monCredential := some nocred } cID = none ↔ item.read cID = none := by
  unfold ClusterItem.read
  cases item.name <;> cases item.owningGroup <;> cases item.config <;> cases item.systemNamespace <;> simp

/-- A record that has no attribute for a credential carries none. -/
theorem recordedKey_absent {item : ClusterItem} (absent : item.monCredential = none) : item.recordedKey = none := by
  unfold ClusterItem.recordedKey
  rw [absent]
  decide

def Database.revoking (database : Database) (key : String) (succeeding : Bool) : Database :=
  match succeeding, database.credentials.lookup key with
  | true, some item =>
    { database with credentials := database.credentials.insert key { item with inUse := false, revoked := true } }
  | _, _ => database

private theorem revoking_carried (database : Database) (key : String) (succeeding : Bool) (cID : String) :
    (database.revoking key succeeding).carried cID = database.carried cID := by
  unfold Database.revoking
  split <;> rfl

private theorem revoked_revoking {database : Database} {key wanted : String} {succeeding : Bool} :
    Revoked (database.revoking key succeeding) wanted ↔ Revoked database wanted ∨
      key = wanted ∧ succeeding = true ∧ (database.credentials.lookup wanted).isSome = true := by
  unfold Database.revoking
  split
  next item pooled =>
    unfold Revoked
    dsimp only
    rw [FiniteMap.lookup_insert]
    split
    next same =>
      subst same
      simp [pooled]
    next different =>
      constructor
      · exact Or.inl
      · rintro (already | ⟨same, -⟩)
        · exact already
        · exact absurd same.symm different
  next unpooled =>
    constructor
    · exact Or.inl
    · rintro (already | ⟨rfl, rfl, pooled⟩)
      · exact already
      · obtain ⟨item, found⟩ := Option.isSome_iff_exists.mp pooled
        exact absurd found (unpooled item rfl)

private theorem returns_revoking (key : String) (server : Server) : Returns (revokeMonitoringCredential key) server
    fun _ after => after.database = server.database.revoking key (server.outcomes 0) := by
  unfold revokeMonitoringCredential putCredential Database.revoking
  simp only [returns_bind, returns_request, returns_ite, returns_pure, returns_get]
  cases server.outcomes 0 with
  | false => rfl
  | true =>
    simp only [if_true, answered_database]
    cases server.database.credentials.lookup key <;> rfl

/-- The credential is taken away and asked to be revoked, or it stays where it was. -/
inductive TakenAway (cluster : Cluster) (server : Server) (result : String) (after : Server) : Prop
  | failed (error : result ≠ "") (same : after.database = server.database)
    (kept : server.outcomes 0 = false ∨ server.database.carried cluster.id = none)
  | done {item : ClusterItem} (success : result = "") (succeeding : server.outcomes 0 = true)
    (stored : server.database.clusters.lookup cluster.id = some item)
    (read : server.outcomes 1 = true → item.read cluster.id ≠ none)
    (database : after.database =
      (server.database.without cluster.id item).revoking cluster.monitoringCredential.accessKey (server.outcomes 2))

private theorem ends_withdrawMonitoringCredential (usable : cluster.monitoringCredential.usable = true) (server : Server) :
    Ends (withdrawMonitoringCredential cluster) server (TakenAway cluster server)
      fun _ _ => server.outcomes 0 = true ∧ server.outcomes 1 = true ∧
        ∃ item, server.database.clusters.lookup cluster.id = some item ∧ item.read cluster.id = none := by
  have error : "Failed to remove monitoring credential for Cluster " ++ cluster.name ≠ "" := by
    intro empty
    exact absurd (String.append_eq_empty_iff.mp empty).1 (by decide)
  unfold withdrawMonitoringCredential removeClusterMonitoringCredential eraseCredential putClusterItem
  simp only [usable, if_true, ends_bind, ends_request, ends_ite, ends_pure, ends_get]
  split
  next succeeding =>
    split
    next absent =>
      refine .failed error rfl (Or.inr ?_)
      rw [Database.carried, show server.database.clusters.lookup cluster.id = none from absent]
      rfl
    next item stored =>
      change server.database.clusters.lookup cluster.id = some item at stored
      split
      next absent =>
        refine .failed error rfl (Or.inr ?_)
        rw [Database.carried, stored]
        exact recordedKey_absent absent
      next =>
        simp only [if_true, ends_bind, ends_modify, ends_pure]
        refine (ends_reloadCluster cluster.id _).mono ?_ ?_
        · rintro _ between ⟨database, outcomes, read⟩
          refine ((returns_revoking cluster.monitoringCredential.accessKey between).mono fun _ after revoked => ?_).ends
          refine .done rfl succeeding stored (fun second => ?_) ?_
          · refine (read_without item cluster.id).not.mp (read _ second ?_)
            exact FiniteMap.lookup_insert .. |>.trans (if_pos rfl)
          · rw [revoked, database, outcomes]
            rfl
        · rintro _ _ ⟨second, other, found, unread⟩
          refine ⟨succeeding, second, item, stored, (read_without item cluster.id).mp ?_⟩
          cases (FiniteMap.lookup_insert .. |>.trans (if_pos rfl)).symm.trans found
          exact unread
  next failing => exact .failed error rfl (Or.inl (eq_false_of_ne_true failing))

/-- Nothing is done for a cluster that is not reachable, or that has no credential for all the caller knows. -/
theorem withdrawIfReachable_idle {reachable : Bool} (idle : ¬ (reachable = true ∧ cluster.monitoringCredential.usable = true)) :
    withdrawIfReachable cluster reachable = return "" := by
  unfold withdrawIfReachable withdrawMonitoringCredential
  cases reachable with
  | false => rfl
  | true => rw [if_neg fun usable => idle ⟨rfl, usable⟩]; rfl

/-- Taking a credential away revokes it exactly when the caller knows of one and what the cluster carries
is revoked safely. -/
theorem takesAway_iff (cluster : Cluster) (reachable : Bool) (server : Server) :
    TakesAway cluster reachable server ↔ ∀ key, server.database.carried cluster.id = some key →
      reachable = true ∧ cluster.monitoringCredential.usable = true ∧ Safely cluster server key := by
  unfold TakesAway
  by_cases idle : reachable = true ∧ cluster.monitoringCredential.usable = true
  case neg =>
    rw [withdrawIfReachable_idle idle, yields_pure, if_pos rfl]
    constructor
    · rintro ⟨none_, -⟩ key carried
      exact absurd (none_.symm.trans carried) nofun
    · intro all
      have none_ : server.database.carried cluster.id = none := by
        cases carried : server.database.carried cluster.id with
        | none => rfl
        | some key => exact absurd ⟨(all key carried).1, (all key carried).2.1⟩ idle
      exact ⟨none_, fun key carried => absurd (none_.symm.trans carried) nofun⟩
  obtain ⟨rfl, usable⟩ := idle
  have ends := ends_withdrawMonitoringCredential usable server
  change Yields (withdrawMonitoringCredential cluster) server _ ↔ _
  unfold Yields
  unfold Ends at ends
  cases ran : withdrawMonitoringCredential cluster server with
  | error message after =>
    rw [ran] at ends
    obtain ⟨-, second, item, stored, unread⟩ := ends
    exact ⟨fun _ key _ => ⟨rfl, usable, .unreadable second stored unread⟩, fun _ => trivial⟩
  | ok result after =>
    rw [ran] at ends
    dsimp only
    cases ends with
    | failed error same kept =>
      rw [if_neg error]
      constructor
      · rintro - key carried
        refine ⟨rfl, usable, .failing (kept.resolve_right fun none_ => ?_)⟩
        exact absurd (none_.symm.trans carried) nofun
      · rintro - key ⟨-, cID, carried, lost⟩
        rw [same] at lost
        exact absurd carried lost
    | @done item success succeeding stored read database =>
      rw [if_pos success, database, revoking_carried, without_carried]
      simp only [true_and, revoked_revoking]
      refine forall_congr' fun key => imp_congr_right fun carried => ?_
      constructor
      · rintro (already | ⟨same, third, pooled⟩)
        · exact ⟨usable, .already already⟩
        · exact ⟨usable, .revoking same third pooled⟩
      · rintro ⟨-, failing | ⟨second, other, unread⟩ | already | ⟨same, third, pooled⟩⟩
        · exact absurd (failing.symm.trans succeeding) nofun
        · cases stored.symm.trans other
          exact absurd unread (read second)
        · exact Or.inl already
        · exact Or.inr ⟨same, third, pooled⟩

/-- A cluster that has been given a credential, with the record that is cached for it. -/
def givenCredential : StoreM Cluster := do
  let cred : S3Credential := { accessKey := "key", secretKey := "secret" }
  let _ ← addCluster clusterTwo
  let _ ← addMonitoringCredential cred
  let _ ← acquireCredential cred.accessKey
  let _ ← setClusterMonitoringCredential clusterTwo.id { cred with inUse := true }
  findClusterByID clusterTwo.id

/-- The last request, which is the one to revoke the credential, fails. -/
def failingLast : Nat → Bool := fun n => n != 7

/-- What is said of the withdrawal, and what became of the credential. -/
def leftOfCredential : StoreM (Option String × String × Option CredentialItem) := do
  let cluster ← givenCredential
  let before ← get
  let result ← withdrawIfReachable cluster true
  return (before.database.carried cluster.id, result, (← get).database.credentials.lookup "key")

theorem credential_left_in_use :
    ¬ ∀ outcomes, Yields givenCredential { outcomes } fun cluster server => TakesAway cluster true server := by
  intro all
  have left : Returns leftOfCredential { outcomes := failingLast } fun left _ =>
      left = (some "key", "", some ⟨"secret", true, false⟩) := .of_result (by decide +kernel)
  unfold leftOfCredential at left
  simp only [returns_bind, returns_get, returns_pure, Prod.mk.injEq] at left
  obtain ⟨cluster, server, given, left⟩ := returns_iff.mp left
  obtain ⟨result, after, ran, carried, success, stored⟩ := returns_iff.mp left
  have takes := ((all failingLast).of_ok given).of_ok ran
  rw [if_pos success] at takes
  obtain ⟨item, found, revoked⟩ := takes.2 "key" carried
  cases stored.symm.trans found
  cases revoked

end Slate
