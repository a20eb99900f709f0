import Slate.CredentialRequests
import Slate.PagedQueries
import Slate.Proofs.ClusterCoherence
import Slate.Proofs.CredentialRemoval

/-! A credential is recorded on a cluster as one text, which is read again as what is
before its first space and what is after it. -/

namespace Slate
open Library Handler

/-- The first page of the table of clusters has a row with the text of the credential. -/
def Splitting.ShowsText (splitting : Splitting) (cred : S3Credential) (database : Database) : Prop :=
  ∃ row, splitting.clusters.OnFirst database.clusters.pairs row ∧ row.2.monCredential = some cred.serialize

/-- The credential that has been recorded on a cluster is the one that is read from it, by whichever
server has the same tables, and the search for it finds a cluster that has it: this one, unless another
had the same text before. -/
structure CredentialKept (splitting : Splitting) (cred : S3Credential) (cID : String) (old : Cluster)
    (before after : Database) : Prop where
  reported : ∀ reader : Server, reader.database = after → reader.outcomes 0 = true →
    Returns (clusterQuery (.id cID)) reader fun found _ => found = some { old with monitoringCredential := cred }
  found : ∀ reader : Server, reader.database = after → reader.outcomes 0 = true →
    Returns (splitting.findClusterUsingCredential cred) reader fun found _ =>
      found.valid ∧ found.monitoringCredential = cred ∧ after.cluster found.id = some found ∧
        ((∀ id item, before.clusters.lookup id = some item → item.monCredential ≠ some cred.serialize) → found.id = cID)

private theorem yields_metadataString (metadata : Json) (name what : String) (server : Server) :
    Yields (metadataString metadata name what) server fun _ after => after = server := by
  unfold metadataString
  simp

/-- The keys that are accepted are not empty, and the credential is new. -/
theorem yields_requestedCredential (body : Json) (server : Server) :
    Yields (requestedCredential body) server fun cred after =>
      after = server ∧ cred.usable = true ∧ cred.inUse = false ∧ cred.revoked = false := by
  unfold requestedCredential
  simp only [yields_bind, yields_pure, yields_require, yields_accessing]
  intro _ _ metadata _ _
  refine (yields_metadataString metadata _ _ server).mono ?_
  rintro accessKey _ rfl
  refine (yields_metadataString metadata _ _ _).mono ?_
  rintro secretKey _ rfl
  intro first second
  exact ⟨rfl, by simp_all [S3Credential.usable], trivial, trivial⟩

/-- Where the access key has a space, what is read is no longer the same access key. -/
theorem credential_split {cred : S3Credential} (spaced : ' ' ∈ cred.accessKey.toList) :
    S3Credential.deserialize cred.serialize ≠ cred := by
  have chars : cred.serialize.toList = cred.accessKey.toList ++ ' ' :: cred.secretKey.toList := by
    simp [S3Credential.serialize]
  have early : (cred.accessKey.toList ++ ' ' :: cred.secretKey.toList).findIdx (· == ' ') < cred.accessKey.toList.length := by
    have inside : cred.accessKey.toList.findIdx (· == ' ') < cred.accessKey.toList.length :=
      List.findIdx_lt_length_of_exists ⟨' ', spaced, rfl⟩
    rw [List.findIdx_append, if_pos inside]
    exact inside
  intro same
  have keys : (S3Credential.deserialize cred.serialize).accessKey.toList.length = cred.accessKey.toList.length := by rw [same]
  unfold S3Credential.deserialize at keys
  simp only [chars] at keys
  split at keys
  · rw [String.toList_ofList, List.length_take] at keys
    omega
  · change 0 = _ at keys
    omega

theorem credential_roundtrip_iff {cred : S3Credential} (usable : cred.usable = true)
    (plain : cred.inUse = false ∧ cred.revoked = false) :
    S3Credential.deserialize cred.serialize = cred ↔ ' ' ∉ cred.accessKey.toList :=
  ⟨fun same spaced => credential_split spaced same, fun spaceless => credential_roundtrip plain (.inr ⟨usable, spaceless⟩)⟩

/-- Once a credential was recorded, nothing else in the table of clusters has changed. -/
theorem setClusterMonitoringCredential_clusters {before after : Server} {cID : String} {cred : S3Credential} {item : ClusterItem}
    (stored : before.database.clusters.lookup cID = some item)
    (succeeded : setClusterMonitoringCredential cID cred before = .ok true after) :
    after.database.clusters = before.database.clusters.insert cID { item with monCredential := some cred.serialize } := by
  have run : Yields (setClusterMonitoringCredential cID cred) before fun done after => done = true →
      after.database.clusters = before.database.clusters.insert cID { item with monCredential := some cred.serialize } := by
    unfold setClusterMonitoringCredential recordCredential putClusterItem
    simp only [yields_bind, yields_request, yields_ite, yields_get, yields_modify, yields_pure, answered_database, stored,
      Option.getD_some, if_true]
    split
    · split
      · exact fun impossible => by cases impossible
      · refine (ends_reloadCluster cID _).yields.mono ?_
        rintro _ after ⟨database, -⟩ _
        rw [database]
    · exact fun impossible => by cases impossible
  exact run.of_ok succeeded rfl

private theorem Database.cluster_of_insert {before after : Database} {cID : String} {old : Cluster} {item : ClusterItem}
    (read : item.read cID = some old) (cred : S3Credential)
    (clusters : after.clusters = before.clusters.insert cID { item with monCredential := some cred.serialize }) :
    after.cluster cID = some { old with monitoringCredential := S3Credential.deserialize cred.serialize } := by
  rw [Database.cluster, clusters, FiniteMap.lookup_insert, if_pos rfl]
  exact read_recredential read (some cred.serialize)

private theorem Database.cluster_stored {database : Database} {cID : String} {cluster : Cluster}
    (known : database.cluster cID = some cluster) :
    ∃ item, database.clusters.lookup cID = some item ∧ item.read cID = some cluster := by
  rw [Database.cluster, Option.bind_eq_bind, Option.bind_eq_some_iff] at known
  exact known

/-- A query reads the cluster as the table has it. -/
theorem returns_clusterQuery {reader : Server} {cID : String} {cluster : Cluster}
    (known : reader.database.cluster cID = some cluster) (succeeding : reader.outcomes 0 = true) :
    Returns (clusterQuery (.id cID)) reader fun found _ => found = some cluster := by
  obtain ⟨item, stored, read⟩ := Database.cluster_stored known
  unfold clusterQuery
  simp only [returns_bind, returns_request, returns_ite, returns_get, succeeding, if_true, answered_database, stored,
    clusterOfItem_read read, returns_pure]

/-- The search finds one of the clusters whose record has the text of the credential, where
there is one on the first page and each record can be read. -/
theorem returns_findClusterUsingCredential_shown {splitting : Splitting} {reader : Server} {cred : S3Credential}
    (complete : ∀ id item, reader.database.clusters.lookup id = some item → (item.read id).isSome)
    (shown : splitting.ShowsText cred reader.database) (succeeding : reader.outcomes 0 = true) :
    Returns (splitting.findClusterUsingCredential cred) reader fun found _ =>
      reader.database.cluster found.id = some found ∧
        ∃ item, reader.database.clusters.lookup found.id = some item ∧ item.monCredential = some cred.serialize := by
  obtain ⟨row, first, using_⟩ := shown
  unfold Splitting.findClusterUsingCredential Splitting.clusterUsingCredential
  simp only [returns_bind, returns_request, returns_ite, returns_get, succeeding, if_true, answered_database]
  cases selected : (splitting.clusters.query reader.database.clusters.pairs
      (fun row => row.2.monCredential == some cred.serialize) none).items with
  | nil =>
    have there : row ∈ (splitting.clusters.query reader.database.clusters.pairs
        (fun row => row.2.monCredential == some cred.serialize) none).items :=
      Paging.mem_query_none.mpr ⟨first, beq_iff_eq.mpr using_⟩
    rw [selected] at there
    cases there
  | cons row rows =>
    obtain ⟨other, row⟩ := row
    have there : (other, row) ∈ (splitting.clusters.query reader.database.clusters.pairs
        (fun row => row.2.monCredential == some cred.serialize) none).items := by
      rw [selected]
      exact .head _
    obtain ⟨first, has⟩ := Paging.mem_query_none.mp there
    have found := FiniteMap.mem_pairs.mp first.mem
    obtain ⟨cluster, read⟩ := Option.isSome_iff_exists.mp (complete other row found)
    have named := ClusterItem.read_name read
    simp only [returns_bind, clusterOfItem_read read, returns_pure]
    refine (returns_cacheCluster_outcomes cluster _).mono ?_
    rintro _ after -
    rw [named.1, Database.cluster, found]
    exact ⟨read, row, rfl, beq_iff_eq.mp has⟩

/-- Where no row of the first page has the text, nothing is found. -/
theorem returns_findClusterUsingCredential_missed {splitting : Splitting} {reader : Server} {cred : S3Credential}
    (missed : ¬ splitting.ShowsText cred reader.database) :
    Returns (splitting.findClusterUsingCredential cred) reader fun found _ => found.valid = false := by
  unfold Splitting.findClusterUsingCredential Splitting.clusterUsingCredential
  simp only [returns_bind, returns_request, returns_ite, returns_get, returns_pure, answered_database]
  split
  next =>
    cases selected : (splitting.clusters.query reader.database.clusters.pairs
        (fun row => row.2.monCredential == some cred.serialize) none).items with
    | nil => exact returns_pure _ _ _ |>.mpr rfl
    | cons row rows =>
      have there : row ∈ (splitting.clusters.query reader.database.clusters.pairs
          (fun row => row.2.monCredential == some cred.serialize) none).items := by
        rw [selected]
        exact .head _
      obtain ⟨first, has⟩ := Paging.mem_query_none.mp there
      exact absurd ⟨row, first, beq_iff_eq.mp has⟩ missed
  next => trivial

/-- A credential that has been recorded on a cluster is kept exactly if its access key has no space
and the row is one that the search looks at. -/
theorem credentialKept_iff {splitting : Splitting} {cred : S3Credential} {before after : Server} {cID : String} {old : Cluster}
    (usable : cred.usable = true) (plain : cred.inUse = false ∧ cred.revoked = false)
    (known : before.database.cluster cID = some old)
    (succeeded : setClusterMonitoringCredential cID cred before = .ok true after)
    (complete : ∀ id item, after.database.clusters.lookup id = some item → (item.read id).isSome) :
    CredentialKept splitting cred cID old before.database after.database ↔
      ' ' ∉ cred.accessKey.toList ∧ splitting.ShowsText cred after.database := by
  obtain ⟨item, stored, read⟩ := Database.cluster_stored known
  have clusters := setClusterMonitoringCredential_clusters stored succeeded
  have recorded := Database.cluster_of_insert read cred clusters
  constructor
  · intro kept
    have report := kept.reported { database := after.database } rfl rfl
    have query := @returns_clusterQuery { database := after.database } cID _ recorded rfl
    obtain ⟨_, _, -, same, ours⟩ := returns_iff.mp (query.and report)
    have same := congrArg Cluster.monitoringCredential (Option.some.inj (same.symm.trans ours))
    refine ⟨(credential_roundtrip_iff usable plain).mp same, ?_⟩
    by_contra missed
    have search := kept.found { database := after.database } rfl rfl
    have nothing := @returns_findClusterUsingCredential_missed splitting { database := after.database } cred missed
    obtain ⟨_, _, -, invalid, found⟩ := returns_iff.mp (nothing.and search)
    exact Bool.noConfusion (invalid.symm.trans found.1)
  · rintro ⟨spaceless, shown⟩
    have roundtrip := (credential_roundtrip_iff usable plain).mpr spaceless
    constructor
    · intro reader same succeeding
      rw [roundtrip] at recorded
      exact returns_clusterQuery (same ▸ recorded) succeeding
    · intro reader same succeeding
      rw [← same] at complete shown
      refine (returns_findClusterUsingCredential_shown complete shown succeeding).mono ?_
      rintro found - ⟨table, row, there, has⟩
      have reads : row.read found.id = some found := by rwa [Database.cluster, there] at table
      refine ⟨(ClusterItem.read_name reads).2.1, ?_, same ▸ table, fun sole => ?_⟩
      · rw [(ClusterItem.reads reads).credential, has]
        exact roundtrip
      · by_contra other
        rw [same, clusters, FiniteMap.lookup_insert, if_neg other] at there
        exact sole found.id row there has

/-- A credential that the handler has accepted is in the pool. It is read again from its text exactly if
its access key has no space, and where it is recorded on a cluster, it is kept exactly if the row is one
that the search looks at besides. -/
theorem addMonitoringCredentialRequest_kept_iff {user : User} {body : Json} {before after : Server} {response : Response}
    (accepted : addMonitoringCredentialRequest user body before = .ok response after) :
    ∃ cred, requestedCredential body before = .ok cred before ∧
      after.database.credentials.lookup cred.accessKey = some ⟨cred.secretKey, false, false⟩ ∧
      (S3Credential.deserialize cred.serialize = cred ↔ ' ' ∉ cred.accessKey.toList) ∧
      ∀ (splitting : Splitting) (cID : String) (old : Cluster) (idle recorded : Server), idle.database.cluster cID = some old →
        setClusterMonitoringCredential cID cred idle = .ok true recorded →
        (∀ id item, recorded.database.clusters.lookup id = some item → (item.read id).isSome) →
          (CredentialKept splitting cred cID old idle.database recorded.database ↔
            ' ' ∉ cred.accessKey.toList ∧ splitting.ShowsText cred recorded.database) := by
  have run : Yields (addMonitoringCredentialRequest user body) before fun _ after => ∃ cred,
      requestedCredential body before = .ok cred before ∧ cred.usable = true ∧ cred.inUse = false ∧ cred.revoked = false ∧
      after.database.credentials.lookup cred.accessKey = some ⟨cred.secretKey, false, false⟩ := by
    unfold addMonitoringCredentialRequest
    simp only [yields_bind, yields_require, yields_pure, yields_onStore]
    intro _
    unfold Yields
    cases ran : requestedCredential body before with
    | error => trivial
    | ok cred taken =>
      obtain ⟨rfl, usable, idle, live⟩ := (yields_requestedCredential body before).of_ok ran
      have put : Yields (addMonitoringCredential cred) taken fun added after => some added = some true →
          after.database.credentials.lookup cred.accessKey = some ⟨cred.secretKey, false, false⟩ := by
        unfold addMonitoringCredential putCredential
        simp only [usable, idle, live, yields_bind, yields_request, yields_ite, yields_pure, yields_modify, Bool.not_true,
          Bool.false_eq_true, if_false]
        split
        · intro _
          exact (FiniteMap.lookup_insert _ _ _ _).trans (if_pos rfl)
        · exact fun impossible => by cases impossible
      exact put.mono fun added after stored done => ⟨cred, rfl, usable, idle, live, stored done⟩
  obtain ⟨cred, requested, usable, idle, live, stored⟩ := run.of_ok accepted
  refine ⟨cred, requested, stored, credential_roundtrip_iff usable ⟨idle, live⟩, ?_⟩
  intro splitting cID old earlier recorded known succeeded complete
  exact credentialKept_iff usable ⟨idle, live⟩ known succeeded complete

def administrator : User := { valid := true, id := "user_1", admin := true }

def keysBody (accessKey secretKey : String) : Json :=
  .object [("metadata", .object [("accessKey", .string accessKey), ("secretKey", .string secretKey)])]

/-- A server with one cluster that has no credential. -/
def bareServer : Server where
  database := {
    clusters := AList.insert "cluster_1" ⟨some "east", some "", some "", some "group_1", none, none⟩ ∅ }

def bareCluster : Cluster where
  valid := true
  id := "cluster_1"
  name := "east"
  owningGroup := "group_1"
  owningOrganization := missingString

/-- The credential that is added is recorded on the cluster, and kept. -/
theorem addMonitoringCredentialRequest_kept_plain : ∃ cred recorded,
    requestedCredential (keysBody "key" "secret") {} = .ok cred {} ∧
      setClusterMonitoringCredential "cluster_1" cred bareServer = .ok true recorded ∧
      (CredentialKept {} cred "cluster_1" bareCluster bareServer.database recorded.database ↔
        ' ' ∉ cred.accessKey.toList ∧ Splitting.ShowsText {} cred recorded.database) := by
  obtain ⟨cred, requested, -, -, kept⟩ :=
    addMonitoringCredentialRequest_kept_iff (show addMonitoringCredentialRequest administrator (keysBody "key" "secret") {} =
      .ok { status := 200 } _ from rfl)
  obtain rfl : cred = { accessKey := "key", secretKey := "secret" } := by
    cases requested
    rfl
  have succeeded : setClusterMonitoringCredential "cluster_1" { accessKey := "key", secretKey := "secret" } bareServer =
      .ok true _ := rfl
  refine ⟨_, _, requested, succeeded, kept {} "cluster_1" bareCluster bareServer _ rfl succeeded ?_⟩
  intro id item found
  have stored : (bareServer.database.clusters.insert "cluster_1"
      ⟨some "east", some "", some "", some "group_1", none, some "key secret"⟩).lookup id = some item := found
  rw [FiniteMap.lookup_insert] at stored
  split at stored
  next =>
    cases stored
    rfl
  next different =>
    have other : bareServer.database.clusters.lookup id = none := by
      rw [show bareServer.database.clusters = AList.insert "cluster_1" _ ∅ from rfl, FiniteMap.lookup_insert,
        if_neg different]
      rfl
    cases other.symm.trans stored

/-- An access key with a space is accepted, and what is read again is another access key. -/
theorem addMonitoringCredentialRequest_split : ¬ ∀ (user : User) (body : Json) (before after : Server) (response : Response)
    (cred : S3Credential), addMonitoringCredentialRequest user body before = .ok response after →
      requestedCredential body before = .ok cred before → S3Credential.deserialize cred.serialize = cred := by
  intro kept
  have roundtrip := kept administrator (keysBody "my key" "secret") {} _ { status := 200 }
    { accessKey := "my key", secretKey := "secret" } rfl rfl
  exact absurd roundtrip (by decide)

end Slate
