import Slate.CredentialCalls
import Slate.Proofs.Passage
import Slate.Proofs.Agreement

/-! Whether monitoring credentials stay exclusive while their handlers run at once. They
do when nothing is written that rests on what has meanwhile become false. -/

namespace Slate
open Library

/-- No access key is recorded on two clusters, every key that is recorded is in use,
and no key that is revoked is in use. -/
structure CredentialsExclusive (database : Database) : Prop where
  single : ∀ cID item other item' key, database.clusters.lookup cID = some item →
    database.clusters.lookup other = some item' → item.recordedKey = some key → item'.recordedKey = some key →
    cID = other
  inUse : ∀ cID item key, database.clusters.lookup cID = some item → item.recordedKey = some key →
    ∃ row, database.credentials.lookup key = some row ∧ row.inUse = true
  revoked : ∀ key row, database.credentials.lookup key = some row → row.revoked = true → row.inUse = false

/-- The text of a credential gives back its access key, when that has no space. -/
theorem recordedKey_serialize {cred : S3Credential} (spaceless : ' ' ∉ cred.accessKey.toList) {item : ClusterItem}
    {key : String} (recorded : ClusterItem.recordedKey { item with monCredential := some cred.serialize } = some key) :
    key = cred.accessKey := by
  have chars : cred.serialize.toList = cred.accessKey.toList ++ ' ' :: cred.secretKey.toList := by
    simp [S3Credential.serialize]
  have pos : (cred.accessKey.toList ++ ' ' :: cred.secretKey.toList).findIdx (· == ' ') = cred.accessKey.toList.length := by
    rw [List.findIdx_append, if_neg]
    · simp [List.findIdx_cons]
    · simpa using spaceless
  unfold ClusterItem.recordedKey S3Credential.deserialize at recorded
  simp only [Option.getD_some, chars, pos, List.take_left, String.ofList_toList] at recorded
  split at recorded
  next wellFormed =>
    split at recorded
    next => exact (Option.some.inj recorded).symm
    next => cases recorded
  next => cases recorded

theorem recordedKey_nocred (item : ClusterItem) :
    ClusterItem.recordedKey { item with monCredential := some nocred } = none := by
  have none : S3Credential.deserialize nocred = {} := by decide
  unfold ClusterItem.recordedKey
  simp only [Option.getD_some, none]
  rfl

namespace CredentialCall

/-- The access key that a call has acquired and is about to record on a cluster. -/
def claimed : CredentialCall → Option String
  | recording _ cred => some cred.accessKey
  | _ => none

/-- The access key that a call is about to add. -/
def added : CredentialCall → Option String
  | adding cred => some cred.accessKey
  | _ => none

inductive Steps (server after : Server) : CredentialCall → CredentialCall → Prop
  | keeps {call moved : CredentialCall} (database : after.database = server.database) (claims : moved.claimed = none)
      (adds : moved.added = none) : Steps server after call moved
  | adds {cred : S3Credential} (succeeded : server.outcomes 0 = true)
      (clusters : after.database.clusters = server.database.clusters)
      (credentials : after.database.credentials = server.database.credentials.insert cred.accessKey
        { secretKey := cred.secretKey, inUse := false, revoked := false }) :
      Steps server after (adding cred) (finished true)
  | acquires {cID accessKey : String} {item row : CredentialItem} {others : List (String × CredentialItem)}
      {moved : CredentialCall} (found : server.database.credentials.lookup accessKey = some row)
      (free : row.inUse = false) (kept : row.revoked = false)
      (clusters : after.database.clusters = server.database.clusters)
      (credentials : after.database.credentials = server.database.credentials.insert accessKey { row with inUse := true })
      (claims : moved.claimed = none ∨ moved.claimed = some accessKey) (adds : moved.added = none) :
      Steps server after (acquiring cID ((accessKey, item) :: others)) moved
  | records {cID : String} {cred : S3Credential} {purpose : ClusterPurpose} {item : ClusterItem}
      (succeeded : server.outcomes 0 = true) (credentials : after.database.credentials = server.database.credentials)
      (clusters : after.database.clusters = server.database.clusters.insert cID
        { item with monCredential := some cred.serialize }) :
      Steps server after (recording cID cred) (reloading cID purpose)
  | erases {cID accessKey : String} {cause : RemovalCause} {purpose : ClusterPurpose} {item : ClusterItem}
      (credentials : after.database.credentials = server.database.credentials)
      (clusters : after.database.clusters = server.database.clusters.insert cID { item with monCredential := some nocred }) :
      Steps server after (erasing cID accessKey cause) (reloading cID purpose)
  | revokes {accessKey : String} {cause : RemovalCause} {row : CredentialItem} {moved : CredentialCall}
      (succeeded : server.outcomes 0 = true) (found : server.database.credentials.lookup accessKey = some row)
      (clusters : after.database.clusters = server.database.clusters)
      (credentials : after.database.credentials = server.database.credentials.insert accessKey
        { row with inUse := false, revoked := true })
      (claims : moved.claimed = none) (adds : moved.added = none) :
      Steps server after (revoking accessKey cause) moved
  | deletes {accessKey : String} {row : CredentialItem} (found : server.database.credentials.lookup accessKey = some row)
      (free : row.inUse = false) (clusters : after.database.clusters = server.database.clusters)
      (credentials : after.database.credentials = AList.erase accessKey server.database.credentials) :
      Steps server after (deleting accessKey) (finished true)
  | writes {cluster : Cluster} {cause : WriteCause} (succeeded : server.outcomes 0 = true)
      (credentials : after.database.credentials = server.database.credentials)
      (clusters : after.database.clusters = server.database.clusters.insert cluster.id (itemOfCluster cluster)) :
      Steps server after (writing cluster cause) (cachingWritten cluster cause)
  | drops {cID : String} {requested : Bool} (credentials : after.database.credentials = server.database.credentials)
      (clusters : after.database.clusters = AList.erase cID server.database.clusters) :
      Steps server after (deletingCluster cID requested) (finished requested)

/-- The call neither claims a key nor is about to add one. -/
structure Neutral (call : CredentialCall) : Prop where
  claims : call.claimed = none
  adds : call.added = none

theorem Neutral.steps {server after : Server} {call moved : CredentialCall} (neutral : moved.Neutral)
    (database : after.database = server.database) : Steps server after call moved :=
  .keeps database neutral.claims neutral.adds

private theorem proceed_neutral (cluster : Cluster) (purpose : ClusterPurpose) : (proceed cluster purpose).Neutral := by
  unfold proceed removeFrom
  cases purpose <;> simp only <;> repeat' split
  all_goals exact ⟨rfl, rfl⟩

private theorem afterRevoking_neutral (done : Bool) (cause : RemovalCause) : (afterRevoking done cause).Neutral := by
  cases cause <;> exact ⟨rfl, rfl⟩

private theorem afterWriting_neutral (cluster : Cluster) (written : Bool) (cause : WriteCause) :
    (afterWriting cluster written cause).Neutral := by
  unfold afterWriting
  repeat' split
  all_goals exact ⟨rfl, rfl⟩

/-- Caching a cluster does not touch the database. -/
theorem yields_cacheCluster (cluster : Cluster) (server : Server) :
    Yields (cacheCluster cluster) server fun _ after => after.database = server.database := by
  unfold cacheCluster writeClusterConfigToDisk
  simp only [yields_bind, yields_lasting, yields_now, yields_modify]
  rfl

private theorem yields_clusterOfItem (id : String) (item : ClusterItem) (server : Server) :
    Yields (clusterOfItem id item) server fun _ after => after = server := by
  unfold clusterOfItem findOrThrow
  cases item.name <;> simp only [yields_bind, yields_pure, yields_throw]
  cases item.owningGroup <;> simp only [yields_pure, yields_throw]
  cases item.config <;> simp only [yields_pure, yields_throw]
  cases item.systemNamespace <;> simp only [yields_pure, yields_throw]

private theorem yields_clusterCached (key : ClusterKey) (server : Server) :
    Yields (clusterCached key) server fun _ after => after.database = server.database := by
  cases key with
  | id cID =>
    simp only [clusterCached, yields_bind, yields_get]
    exact Returns.yields (returns_cached (fun _ _ _ => rfl) fun passed same => by rcases same with rfl | rfl <;> rfl)
  | name name =>
    simp only [clusterCached, yields_bind, yields_get]
    exact Returns.yields (returns_cached (fun _ _ _ => rfl) fun passed same => by rcases same with rfl | rfl <;> rfl)

private theorem yields_clusterQuery (key : ClusterKey) (server : Server) :
    Yields (clusterQuery key) server fun _ after => after.database = server.database := by
  have read : ∀ id item, Yields (clusterOfItem id item) server.answered fun _ after =>
      after.database = server.database :=
    fun id item => (yields_clusterOfItem id item server.answered).mono fun _ after same => by rw [same]; rfl
  unfold clusterQuery
  simp only [yields_bind, yields_request, yields_ite, yields_pure]
  split
  next =>
    cases key with
    | id cID =>
      simp only [yields_bind, yields_get]
      split
      next => rfl
      next item found =>
        simp only [yields_bind, yields_pure]
        exact read cID item
    | name name =>
      simp only [yields_bind, yields_get]
      split
      next => rfl
      next id item rows =>
        simp only [yields_bind, yields_pure]
        exact read id item
      next => trivial
  next => rfl

private theorem yields_getMonitoringCredential (accessKey : String) (server : Server) :
    Yields (getMonitoringCredential accessKey) server fun _ after => after.database = server.database := by
  unfold getMonitoringCredential
  simp only [yields_bind, yields_request, yields_ite, yields_pure, yields_get]
  split
  next => split <;> rfl
  next => rfl

section Pieces
variable (splitting : Splitting) (server : Server)

attribute [local simp] piece

private abbrev Covered (call : CredentialCall) : Prop :=
  Yields (call.piece splitting) server fun moved after => Steps server after call moved

private theorem adding_steps (cred : S3Credential) : Covered splitting server (adding cred) := by
  simp only [Covered, piece, addMonitoringCredential, putCredential, yields_bind, yields_ite, yields_throw, yields_request,
    yields_pure, yields_modify]
  split
  next => trivial
  split
  next => trivial
  split
  next => trivial
  split
  next succeeded => exact .adds succeeded rfl rfl
  next => exact .keeps rfl rfl rfl

private theorem looking_steps (key : ClusterKey) (purpose : ClusterPurpose) :
    Covered splitting server (looking key purpose) := by
  simp only [Covered, piece, yields_bind]
  refine (yields_clusterCached key server).mono fun found after same => ?_
  cases found with
  | none => exact .keeps same rfl rfl
  | some cluster => exact (proceed_neutral _ _).steps same

private theorem reading_steps (key : ClusterKey) (purpose : ClusterPurpose) :
    Covered splitting server (reading key purpose) := by
  simp only [Covered, piece, yields_bind]
  refine (yields_clusterQuery key server).mono fun found after same => ?_
  cases found with
  | none => exact (proceed_neutral _ _).steps same
  | some cluster => exact .keeps same rfl rfl

private theorem scanning_steps (cID : String) : Covered splitting server (scanning cID) := by
  simp only [Covered, piece, Splitting.availableCredentials, yields_bind, yields_request, yields_ite, yields_pure,
    yields_get]
  split
  next => split <;> exact .keeps rfl rfl rfl
  next => exact .keeps rfl rfl rfl

private theorem acquiring_steps (cID : String) (candidates : List (String × CredentialItem)) :
    Covered splitting server (acquiring cID candidates) := by
  cases candidates with
  | nil =>
    simp only [Covered, piece, yields_pure]
    exact .keeps rfl rfl rfl
  | cons candidate others =>
    obtain ⟨accessKey, item⟩ := candidate
    simp only [Covered, piece, acquireCredential, putCredential, yields_bind, yields_request, yields_ite, yields_get]
    split
    next =>
      split
      next => exact .keeps rfl rfl rfl
      next row found =>
        simp only [yields_ite, yields_pure, yields_bind, yields_modify]
        split
        next => exact .keeps rfl rfl rfl
        next available =>
          obtain ⟨free, kept⟩ : row.inUse = false ∧ row.revoked = false := by simpa using available
          simp only [if_true]
          split
          next => exact .acquires found free kept rfl rfl (.inr rfl) rfl
          next => exact .acquires found free kept rfl rfl (.inl rfl) rfl
    next => exact .keeps rfl rfl rfl

private theorem recording_steps (cID : String) (cred : S3Credential) : Covered splitting server (recording cID cred) := by
  simp only [Covered, piece, recordCredential, putClusterItem, yields_bind, yields_request, yields_ite, yields_pure,
    yields_get, yields_modify]
  split
  next succeeded =>
    split
    next => exact .keeps rfl rfl rfl
    next => exact .records succeeded rfl rfl
  next => exact .keeps rfl rfl rfl

private theorem erasing_steps (cID accessKey : String) (cause : RemovalCause) :
    Covered splitting server (erasing cID accessKey cause) := by
  simp only [Covered, piece, eraseCredential, putClusterItem, yields_bind, yields_request, yields_ite, yields_get]
  split
  next =>
    split
    next => exact .keeps rfl rfl rfl
    next item found =>
      simp only [yields_ite, yields_pure, yields_bind, yields_modify]
      split
      next => exact .keeps rfl rfl rfl
      next => exact .erases rfl rfl
  next => exact .keeps rfl rfl rfl

private theorem revoking_steps (accessKey : String) (cause : RemovalCause) :
    Covered splitting server (revoking accessKey cause) := by
  simp only [Covered, piece, revokeMonitoringCredential, putCredential, yields_bind, yields_request, yields_ite,
    yields_get]
  split
  next succeeded =>
    split
    next => exact (afterRevoking_neutral _ _).steps rfl
    next row found =>
      exact .revokes succeeded found rfl rfl (afterRevoking_neutral _ _).claims (afterRevoking_neutral _ _).adds
  next => exact (afterRevoking_neutral _ _).steps rfl

private theorem finding_steps (accessKey : String) : Covered splitting server (finding accessKey) := by
  simp only [Covered, piece, yields_bind]
  refine (yields_getMonitoringCredential accessKey server).mono fun cred after same => ?_
  simp only [yields_ite, yields_pure]
  split <;> exact .keeps same rfl rfl

private theorem scanningClusters_steps (cred : S3Credential) : Covered splitting server (scanningClusters cred) := by
  simp only [Covered, piece, Splitting.clusterUsingCredential, yields_bind, yields_request, yields_ite, yields_pure,
    yields_get]
  split
  next =>
    split
    next => exact .keeps rfl rfl rfl
    next id item others rows =>
      simp only [yields_bind, yields_pure]
      refine (yields_clusterOfItem id item server.answered).mono fun cluster after same => ?_
      exact .keeps (by rw [same]; rfl) rfl rfl
  next => exact .keeps rfl rfl rfl

private theorem checking_steps (accessKey : String) : Covered splitting server (checking accessKey) := by
  simp only [Covered, piece, yields_bind]
  refine (yields_getMonitoringCredential accessKey server).mono fun cred after same => ?_
  simp only [yields_ite, yields_pure]
  split <;> exact .keeps same rfl rfl

private theorem deleting_steps (accessKey : String) : Covered splitting server (deleting accessKey) := by
  simp only [Covered, piece, deleteMonitoringCredential, yields_bind, yields_request, yields_ite, yields_get]
  split
  next =>
    split
    next => exact .keeps rfl rfl rfl
    next row found =>
      simp only [yields_ite, yields_pure, yields_bind, yields_modify]
      split
      next => exact .keeps rfl rfl rfl
      next free => exact .deletes found (by simpa using free) rfl rfl
  next => exact .keeps rfl rfl rfl

private theorem writing_steps (cluster : Cluster) (cause : WriteCause) :
    Covered splitting server (writing cluster cause) := by
  simp only [Covered, piece, writeCluster, putClusterItem, yields_bind, yields_request, yields_ite, yields_pure,
    yields_modify]
  split
  next succeeded => exact .writes succeeded rfl rfl
  next => exact (afterWriting_neutral _ _ _).steps rfl

private theorem deletingCluster_steps (cID : String) (requested : Bool) :
    Covered splitting server (deletingCluster cID requested) := by
  simp only [Covered, piece, deleteClusterItem, yields_bind, yields_request, yields_ite, yields_pure, yields_modify]
  split
  next => exact .drops rfl rfl
  next => exact .keeps rfl rfl rfl

end Pieces

theorem piece_steps {splitting : Splitting} {call moved : CredentialCall} {server after : Server}
    (busy : call.idle = false) (ran : call.piece splitting server = .ok moved after) : Steps server after call moved := by
  suffices covers : Covered splitting server call from covers.of_ok ran
  cases call with
  | ready | given | finished => cases busy
  | adding cred => exact adding_steps splitting server cred
  | looking key purpose => exact looking_steps splitting server key purpose
  | reading key purpose => exact reading_steps splitting server key purpose
  | caching cluster purpose =>
    simp only [Covered, piece, yields_bind, yields_pure]
    exact (yields_cacheCluster cluster server).mono fun _ after same => (proceed_neutral _ _).steps same
  | scanning cID => exact scanning_steps splitting server cID
  | acquiring cID candidates => exact acquiring_steps splitting server cID candidates
  | recording cID cred => exact recording_steps splitting server cID cred
  | reloading cID purpose =>
    simp only [Covered, piece, yields_bind, yields_modify, yields_pure]
    exact .keeps rfl rfl rfl
  | erasing cID accessKey cause => exact erasing_steps splitting server cID accessKey cause
  | revoking accessKey cause => exact revoking_steps splitting server accessKey cause
  | finding accessKey => exact finding_steps splitting server accessKey
  | scanningClusters cred => exact scanningClusters_steps splitting server cred
  | cachingUser cluster accessKey =>
    simp only [Covered, piece, yields_bind, yields_pure]
    exact (yields_cacheCluster cluster server).mono fun _ after same => .keeps same rfl rfl
  | checking accessKey => exact checking_steps splitting server accessKey
  | deleting accessKey => exact deleting_steps splitting server accessKey
  | writing cluster cause => exact writing_steps splitting server cluster cause
  | cachingWritten cluster cause =>
    simp only [Covered, piece, yields_bind, yields_pure]
    exact (yields_cacheCluster cluster server).mono fun _ after same => (afterWriting_neutral _ _ _).steps same
  | forgetting cID requested =>
    simp only [Covered, piece, yields_bind, yields_modify, yields_pure]
    exact .keeps rfl rfl rfl
  | deletingCluster cID requested => exact deletingCluster_steps splitting server cID requested

end CredentialCall

def Unrecorded (key : String) (database : Database) : Prop :=
  ∀ cID item, database.clusters.lookup cID = some item → item.recordedKey ≠ some key

/-- A key is added, recorded or revoked, and a whole cluster is written, only while that
does not make two of what is stored contradict each other. -/
structure CredentialsCareful (event : Event CredentialRequest) (pool : Pool Server CredentialCall) : Prop where
  adds : ∀ call cred, event = .advance call → pool.calls call = .adding cred → pool.store.outcomes 0 = true →
    Unrecorded cred.accessKey pool.store.database ∧ ∀ other, (pool.calls other).claimed ≠ some cred.accessKey
  records : ∀ call cID cred, event = .advance call → pool.calls call = .recording cID cred →
    pool.store.outcomes 0 = true → ' ' ∉ cred.accessKey.toList ∧
      ∃ row, pool.store.database.credentials.lookup cred.accessKey = some row ∧ row.inUse = true
  revokes : ∀ call key cause, event = .advance call → pool.calls call = .revoking key cause →
    pool.store.outcomes 0 = true → Unrecorded key pool.store.database
  writes : ∀ call cluster cause, event = .advance call → pool.calls call = .writing cluster cause →
    pool.store.outcomes 0 = true → ∀ key, (itemOfCluster cluster).recordedKey = some key →
      (∃ row, pool.store.database.credentials.lookup key = some row ∧ row.inUse = true) ∧
      (∀ other item, other ≠ cluster.id → pool.store.database.clusters.lookup other = some item →
        item.recordedKey ≠ some key) ∧
      ∀ other, (pool.calls other).claimed ≠ some key

/-- A key that a call has acquired is not available, and while it is in use it is on no
cluster and no other call has acquired it. -/
structure CredentialsSettled (pool : Pool Server CredentialCall) : Prop where
  exclusive : CredentialsExclusive pool.store.database
  taken : ∀ call key row, (pool.calls call).claimed = some key →
    pool.store.database.credentials.lookup key = some row → row.inUse = true ∨ row.revoked = true
  sole : ∀ call key row, (pool.calls call).claimed = some key →
    pool.store.database.credentials.lookup key = some row → row.inUse = true →
    Unrecorded key pool.store.database ∧ ∀ other, (pool.calls other).claimed = some key → other = call

namespace CredentialsExclusive
variable {before after : Database}

theorem unrecorded (exclusive : CredentialsExclusive before) {key : String} {row : CredentialItem}
    (found : before.credentials.lookup key = some row) (free : row.inUse = false) : Unrecorded key before := by
  intro cID item stored recorded
  obtain ⟨row', found', used⟩ := exclusive.inUse cID item key stored recorded
  rw [found] at found'
  cases found'
  rw [free] at used
  cases used

/-- The record of a key changes that no cluster has. -/
theorem put (exclusive : CredentialsExclusive before) {key : String} {row : CredentialItem}
    (nowhere : Unrecorded key before) (proper : row.revoked = true → row.inUse = false)
    (clusters : after.clusters = before.clusters)
    (credentials : after.credentials = before.credentials.insert key row) : CredentialsExclusive after where
  single := clusters ▸ exclusive.single
  inUse := by
    rw [clusters, credentials]
    intro cID item other stored recorded
    rw [FiniteMap.lookup_insert, if_neg]
    · exact exclusive.inUse cID item other stored recorded
    · rintro rfl
      exact nowhere cID item stored recorded
  revoked := by
    rw [credentials]
    intro other row' found
    rw [FiniteMap.lookup_insert] at found
    split at found
    next =>
      cases found
      exact proper
    next => exact exclusive.revoked other row' found

theorem remove (exclusive : CredentialsExclusive before) {key : String} (nowhere : Unrecorded key before)
    (clusters : after.clusters = before.clusters)
    (credentials : after.credentials = AList.erase key before.credentials) : CredentialsExclusive after where
  single := clusters ▸ exclusive.single
  inUse := by
    rw [clusters, credentials]
    intro cID item other stored recorded
    rw [FiniteMap.lookup_erase, if_neg]
    · exact exclusive.inUse cID item other stored recorded
    · rintro rfl
      exact nowhere cID item stored recorded
  revoked := by
    rw [credentials]
    intro other row' found
    rw [FiniteMap.lookup_erase] at found
    split at found
    next => cases found
    next => exact exclusive.revoked other row' found

/-- A cluster gets a record whose key, if it has one, is in use and on no other cluster. -/
theorem write (exclusive : CredentialsExclusive before) {cID : String} {item : ClusterItem}
    (fits : ∀ key, item.recordedKey = some key → (∃ row, before.credentials.lookup key = some row ∧ row.inUse = true) ∧
      ∀ other item', other ≠ cID → before.clusters.lookup other = some item' → item'.recordedKey ≠ some key)
    (credentials : after.credentials = before.credentials)
    (clusters : after.clusters = before.clusters.insert cID item) : CredentialsExclusive after where
  single := by
    rw [clusters]
    intro first item₁ second item₂ key stored stored' recorded recorded'
    rw [FiniteMap.lookup_insert] at stored stored'
    split at stored
    next here =>
      cases stored
      split at stored'
      next there => exact here.trans there.symm
      next elsewhere => exact absurd recorded' ((fits key recorded).2 second item₂ elsewhere stored')
    next elsewhere =>
      split at stored'
      next =>
        cases stored'
        exact absurd recorded ((fits key recorded').2 first item₁ elsewhere stored)
      next => exact exclusive.single first item₁ second item₂ key stored stored' recorded recorded'
  inUse := by
    rw [clusters, credentials]
    intro first item₁ key stored recorded
    rw [FiniteMap.lookup_insert] at stored
    split at stored
    next =>
      cases stored
      exact (fits key recorded).1
    next => exact exclusive.inUse first item₁ key stored recorded
  revoked := credentials ▸ exclusive.revoked

theorem drop (exclusive : CredentialsExclusive before) {cID : String} (credentials : after.credentials = before.credentials)
    (clusters : after.clusters = AList.erase cID before.clusters) : CredentialsExclusive after := by
  have kept : ∀ {other item}, after.clusters.lookup other = some item → before.clusters.lookup other = some item := by
    intro other item stored
    rw [clusters, FiniteMap.lookup_erase] at stored
    split at stored
    next => cases stored
    next => exact stored
  exact ⟨fun first item₁ second item₂ key stored stored' => exclusive.single first item₁ second item₂ key (kept stored) (kept stored'),
    fun first item key stored => credentials ▸ exclusive.inUse first item key (kept stored), credentials ▸ exclusive.revoked⟩

end CredentialsExclusive

theorem Unrecorded.same {key : String} {before after : Database} (nowhere : Unrecorded key before)
    (clusters : after.clusters = before.clusters) : Unrecorded key after := by
  intro cID item stored
  rw [clusters] at stored
  exact nowhere cID item stored

theorem Unrecorded.write {key : String} {before after : Database} (nowhere : Unrecorded key before) {cID : String}
    {item : ClusterItem} (fits : item.recordedKey ≠ some key) (clusters : after.clusters = before.clusters.insert cID item) :
    Unrecorded key after := by
  intro other item' stored
  rw [clusters, FiniteMap.lookup_insert] at stored
  split at stored
  next =>
    cases stored
    exact fits
  next => exact nowhere other item' stored

/-- A step that claims no key, leaves the record of each claimed key alone or retires
it, and records none that is claimed and in use. -/
theorem CredentialsSettled.after {pool after : Pool Server CredentialCall} (settled : CredentialsSettled pool) (call : Nat)
    (exclusive : CredentialsExclusive after.store.database)
    (claims : ∀ other key, (after.calls other).claimed = some key → other ≠ call ∧ (pool.calls other).claimed = some key)
    (rows : ∀ other key row, other ≠ call → (pool.calls other).claimed = some key →
      after.store.database.credentials.lookup key = some row →
      pool.store.database.credentials.lookup key = some row ∨ row.revoked = true ∧ row.inUse = false)
    (nowhere : ∀ other key, other ≠ call → (pool.calls other).claimed = some key →
      (∀ row, pool.store.database.credentials.lookup key = some row → row.inUse = true →
        ∀ third, (pool.calls third).claimed = some key → third = other) →
      Unrecorded key pool.store.database → Unrecorded key after.store.database) : CredentialsSettled after where
  exclusive := exclusive
  taken := by
    intro other key row claimed found
    obtain ⟨different, claimed⟩ := claims other key claimed
    obtain found | ⟨revoked, -⟩ := rows other key row different claimed found
    · exact settled.taken other key row claimed found
    · exact .inr revoked
  sole := by
    intro other key row claimed found used
    obtain ⟨different, claimed⟩ := claims other key claimed
    obtain found | ⟨-, free⟩ := rows other key row different claimed found
    · obtain ⟨unrecorded, alone⟩ := settled.sole other key row claimed found used
      refine ⟨nowhere other key different claimed (fun _ _ _ => alone) unrecorded, fun third claimed' => ?_⟩
      exact alone third (claims third key claimed').2
    · rw [free] at used
      cases used

/-- A call that marks an available key as being in use may claim it. -/
private theorem CredentialsSettled.acquire {pool after : Pool Server CredentialCall} (settled : CredentialsSettled pool)
    {call : Nat} {accessKey : String} {row : CredentialItem}
    (found : pool.store.database.credentials.lookup accessKey = some row) (free : row.inUse = false)
    (kept : row.revoked = false) (clusters : after.store.database.clusters = pool.store.database.clusters)
    (credentials : after.store.database.credentials =
      pool.store.database.credentials.insert accessKey { row with inUse := true })
    (claimed : (after.calls call).claimed = none ∨ (after.calls call).claimed = some accessKey)
    (same : ∀ other, other ≠ call → after.calls other = pool.calls other) : CredentialsSettled after := by
  have nowhere := settled.exclusive.unrecorded found free
  have unclaimed : ∀ other, (pool.calls other).claimed ≠ some accessKey := by
    intro other claimed
    obtain used | dead := settled.taken other accessKey row claimed found
    · rw [free] at used
      cases used
    · rw [kept] at dead
      cases dead
  have exclusive := settled.exclusive.put nowhere (fun dead => by rw [kept] at dead; cases dead) clusters credentials
  -- A claim is an old one of another key, or the new one.
  have whose : ∀ other key, (after.calls other).claimed = some key →
      key ≠ accessKey ∧ (pool.calls other).claimed = some key ∨ key = accessKey ∧ other = call := by
    intro other key now
    rcases eq_or_ne other call with rfl | different
    · obtain none | here := claimed
      · rw [none] at now
        cases now
      · rw [here] at now
        exact .inr ⟨(Option.some.inj now).symm, rfl⟩
    · rw [same other different] at now
      refine .inl ⟨?_, now⟩
      rintro rfl
      exact unclaimed other now
  refine ⟨exclusive, fun other key row' claims found' => ?_, fun other key row' claims found' used => ?_⟩
  · rw [credentials, FiniteMap.lookup_insert] at found'
    obtain ⟨different, old⟩ | ⟨rfl, -⟩ := whose other key claims
    · rw [if_neg different] at found'
      exact settled.taken other key row' old found'
    · rw [if_pos rfl] at found'
      cases found'
      exact .inl rfl
  · rw [credentials, FiniteMap.lookup_insert] at found'
    obtain ⟨different, old⟩ | ⟨rfl, rfl⟩ := whose other key claims
    · rw [if_neg different] at found'
      obtain ⟨unrecorded, alone⟩ := settled.sole other key row' old found' used
      refine ⟨unrecorded.same clusters, fun third claims' => ?_⟩
      obtain ⟨-, old'⟩ | ⟨rfl, -⟩ := whose third key claims'
      · exact alone third old'
      · exact absurd rfl different
    · refine ⟨nowhere.same clusters, fun third claims' => ?_⟩
      obtain ⟨different, -⟩ | ⟨-, same⟩ := whose third key claims'
      · exact absurd rfl different
      · exact same

theorem CredentialsSettled.advance {splitting : Splitting} {pool after : Pool Server CredentialCall} (settled : CredentialsSettled pool)
    {call : Nat} (careful : CredentialsCareful (.advance call) pool)
    (stepped : (credentialSystem splitting).step (.advance call) pool = some after) : CredentialsSettled after := by
  obtain ⟨advanced, same⟩ := System.step_moved stepped
  obtain ⟨busy, ran⟩ := System.advance_ofPieces advanced
  have steps := CredentialCall.piece_steps busy ran
  have claims : (after.calls call).claimed = none → ∀ other key, (after.calls other).claimed = some key →
      other ≠ call ∧ (pool.calls other).claimed = some key := by
    intro none other key claims
    rcases eq_or_ne other call with rfl | different
    · rw [none] at claims
      cases claims
    · exact ⟨different, same other different ▸ claims⟩
  generalize current : pool.calls call = before at steps
  generalize next : after.calls call = moved at steps claims
  cases steps with
  | keeps database neutral =>
    refine settled.after call (database ▸ settled.exclusive) (claims neutral) ?_ ?_
    · exact fun other key row different claimed found => .inl (database ▸ found)
    · exact fun other key different claimed alone unrecorded => database ▸ unrecorded
  | @adds cred succeeded clusters credentials =>
    obtain ⟨nowhere, unclaimed⟩ := careful.adds call cred rfl current succeeded
    refine settled.after call (settled.exclusive.put nowhere (fun _ => rfl) clusters credentials) (claims rfl) ?_ ?_
    · intro other key row different claimed found
      rw [credentials, FiniteMap.lookup_insert, if_neg] at found
      · exact .inl found
      · rintro rfl
        exact unclaimed other claimed
    · exact fun other key different claimed alone unrecorded => unrecorded.same clusters
  | @acquires cID accessKey item row others moved found free kept clusters credentials claimed =>
    exact settled.acquire found free kept clusters credentials (next ▸ claimed) same
  | @records cID cred purpose item succeeded credentials clusters =>
    obtain ⟨spaceless, row, found, used⟩ := careful.records call cID cred rfl current succeeded
    have mine : (pool.calls call).claimed = some cred.accessKey := by
      rw [current]
      rfl
    obtain ⟨nowhere, alone⟩ := settled.sole call cred.accessKey row mine found used
    refine settled.after call (settled.exclusive.write (fun key recorded => ?_) credentials clusters) (claims rfl) ?_ ?_
    · obtain rfl := recordedKey_serialize spaceless recorded
      exact ⟨⟨row, found, used⟩, fun other item' different stored => nowhere other item' stored⟩
    · exact fun other key row different claimed found => .inl (credentials ▸ found)
    · intro other key different claimed _ unrecorded
      refine Unrecorded.write unrecorded (fun recorded => ?_) clusters
      obtain rfl := recordedKey_serialize spaceless recorded
      exact different (alone other claimed)
  | @erases cID accessKey cause purpose item credentials clusters =>
    refine settled.after call (settled.exclusive.write (fun key recorded => ?_) credentials clusters) (claims rfl) ?_ ?_
    · rw [recordedKey_nocred] at recorded
      cases recorded
    · exact fun other key row different claimed found => .inl (credentials ▸ found)
    · intro other key different claimed _ unrecorded
      refine Unrecorded.write unrecorded ?_ clusters
      rw [recordedKey_nocred]
      exact fun impossible => nomatch impossible
  | @revokes accessKey cause row moved succeeded found clusters credentials neutral =>
    have nowhere := careful.revokes call accessKey cause rfl current succeeded
    refine settled.after call (settled.exclusive.put nowhere (fun _ => rfl) clusters credentials) (claims neutral) ?_ ?_
    · intro other key row' different claimed found'
      rw [credentials, FiniteMap.lookup_insert] at found'
      split at found'
      next =>
        cases found'
        exact .inr ⟨rfl, rfl⟩
      next => exact .inl found'
    · exact fun other key different claimed alone unrecorded => unrecorded.same clusters
  | @deletes accessKey row found free clusters credentials =>
    have nowhere := settled.exclusive.unrecorded found free
    refine settled.after call (settled.exclusive.remove nowhere clusters credentials) (claims rfl) ?_ ?_
    · intro other key row' different claimed found'
      rw [credentials, FiniteMap.lookup_erase] at found'
      split at found'
      next => cases found'
      next => exact .inl found'
    · exact fun other key different claimed alone unrecorded => unrecorded.same clusters
  | @writes cluster cause succeeded credentials clusters =>
    have fits := careful.writes call cluster cause rfl current succeeded
    refine settled.after call (settled.exclusive.write (fun key recorded => ?_) credentials clusters) (claims rfl) ?_ ?_
    · exact ⟨(fits key recorded).1, (fits key recorded).2.1⟩
    · exact fun other key row different claimed found => .inl (credentials ▸ found)
    · intro other key different claimed _ unrecorded
      exact Unrecorded.write unrecorded (fun recorded => (fits key recorded).2.2 other claimed) clusters
  | @drops cID requested credentials clusters =>
    refine settled.after call (settled.exclusive.drop credentials clusters) (claims rfl) ?_ ?_
    · exact fun other key row different claimed found => .inl (credentials ▸ found)
    · intro other key different claimed _ unrecorded third item stored
      rw [clusters, FiniteMap.lookup_erase] at stored
      split at stored
      next => cases stored
      next => exact unrecorded third item stored

private theorem CredentialCall.begin_unclaimed (request : CredentialRequest) : (CredentialCall.begin request).claimed = none := by
  cases request with
  | addMonitoringCredential accessKey secretKey =>
    simp only [begin]
    split <;> rfl
  | _ => rfl

theorem CredentialsSettled.start {splitting : Splitting} {pool after : Pool Server CredentialCall}
    (settled : CredentialsSettled pool) {call : Nat} {request : CredentialRequest}
    (stepped : (credentialSystem splitting).step (.start call request) pool = some after) :
    CredentialsSettled after := by
  obtain ⟨store, begun, same⟩ := System.step_started stepped
  change after.calls call = CredentialCall.begin request at begun
  refine settled.after call (store ▸ settled.exclusive) (fun other key claims => ?_) ?_ ?_
  · rcases eq_or_ne other call with rfl | different
    · rw [begun, CredentialCall.begin_unclaimed] at claims
      cases claims
    · exact ⟨different, same other different ▸ claims⟩
  · exact fun other key row different claimed found => .inl (store ▸ found)
  · exact fun other key different claimed alone unrecorded => store ▸ unrecorded

theorem CredentialsSettled.step {splitting : Splitting} {pool after : Pool Server CredentialCall}
    (settled : CredentialsSettled pool) {event : Event CredentialRequest} (careful : CredentialsCareful event pool)
    (stepped : (credentialSystem splitting).step event pool = some after) : CredentialsSettled after := by
  cases event with
  | start call request => exact settled.start stepped
  | advance call => exact settled.advance careful stepped

/-- The record of the key is gone or revoked, and no call is about to add the key. -/
structure Retired (key : String) (pool : Pool Server CredentialCall) : Prop where
  revoked : ∀ row, pool.store.database.credentials.lookup key = some row → row.revoked = true
  unadded : ∀ call, (pool.calls call).added ≠ some key

theorem Retired.unrecorded {key : String} {pool : Pool Server CredentialCall} (retired : Retired key pool)
    (exclusive : CredentialsExclusive pool.store.database) : Unrecorded key pool.store.database := by
  intro cID item stored recorded
  obtain ⟨row, found, used⟩ := exclusive.inUse cID item key stored recorded
  rw [exclusive.revoked key row found (retired.revoked row found)] at used
  cases used

theorem Retired.step {splitting : Splitting} {key : String} {pool after : Pool Server CredentialCall} (retired : Retired key pool)
    {event : Event CredentialRequest}
    (starts : ∀ call request, event = .start call request → (CredentialCall.begin request).added ≠ some key)
    (stepped : (credentialSystem splitting).step event pool = some after) : Retired key after := by
  cases event with
  | start call request =>
    obtain ⟨store, begun, same⟩ := System.step_started stepped
    change after.calls call = CredentialCall.begin request at begun
    refine ⟨store ▸ retired.revoked, fun other => ?_⟩
    rcases eq_or_ne other call with rfl | different
    · rw [begun]
      exact starts other request rfl
    · rw [same other different]
      exact retired.unadded other
  | advance call =>
    obtain ⟨advanced, same⟩ := System.step_moved stepped
    obtain ⟨busy, ran⟩ := System.advance_ofPieces advanced
    have steps := CredentialCall.piece_steps busy ran
    have mine := retired.unadded call
    suffices moved : (∀ row, after.store.database.credentials.lookup key = some row → row.revoked = true) ∧
        (after.calls call).added = none by
      refine ⟨moved.1, fun other => ?_⟩
      rcases eq_or_ne other call with rfl | different
      · rw [moved.2]
        exact fun impossible => nomatch impossible
      · rw [same other different]
        exact retired.unadded other
    generalize pool.calls call = before at steps mine
    generalize after.calls call = moved at steps
    cases steps with
    | keeps database claims adds => exact ⟨database ▸ retired.revoked, adds⟩
    | @adds cred succeeded clusters credentials =>
      refine ⟨fun row found => ?_, rfl⟩
      rw [credentials, FiniteMap.lookup_insert, if_neg] at found
      · exact retired.revoked row found
      · rintro rfl
        exact mine rfl
    | @acquires cID accessKey item row others moved found free kept clusters credentials claims adds =>
      refine ⟨fun row' found' => ?_, adds⟩
      rw [credentials, FiniteMap.lookup_insert, if_neg] at found'
      · exact retired.revoked row' found'
      · rintro rfl
        rw [retired.revoked row found] at kept
        cases kept
    | records succeeded credentials => exact ⟨credentials ▸ retired.revoked, rfl⟩
    | erases credentials => exact ⟨credentials ▸ retired.revoked, rfl⟩
    | @revokes accessKey cause row moved succeeded found clusters credentials claims adds =>
      refine ⟨fun row' found' => ?_, adds⟩
      rw [credentials, FiniteMap.lookup_insert] at found'
      split at found'
      next =>
        cases found'
        rfl
      next => exact retired.revoked row' found'
    | @deletes accessKey row found free clusters credentials =>
      refine ⟨fun row' found' => ?_, rfl⟩
      rw [credentials, FiniteMap.lookup_erase] at found'
      split at found'
      next => cases found'
      next => exact retired.revoked row' found'
    | writes succeeded credentials => exact ⟨credentials ▸ retired.revoked, rfl⟩
    | drops credentials => exact ⟨credentials ▸ retired.revoked, rfl⟩

/-- No request that is under way, or starts later, adds this key. -/
structure NoneAdds (key : String) (pool : Pool Server CredentialCall) (later : List (Event CredentialRequest)) : Prop where
  waiting : ∀ call, (pool.calls call).added ≠ some key
  starting : ∀ call request, .start call request ∈ later → (CredentialCall.begin request).added ≠ some key

/-- In a careful run no key is on two clusters, each key that is on one is in use, and a
key that has been revoked is never on a cluster again, unless it is added anew. -/
theorem credentials_stay_exclusive {splitting : Splitting} {pool last : Pool Server CredentialCall}
    {events : List (Event CredentialRequest)}
    (ready : ∀ call, pool.calls call = .ready) (exclusive : CredentialsExclusive pool.store.database)
    (ran : (credentialSystem splitting).run events pool = some last)
    (careful : (credentialSystem splitting).Meets CredentialsCareful events pool) :
    CredentialsExclusive last.store.database ∧
      ∀ earlier later middle key row, events = earlier ++ later →
        (credentialSystem splitting).run earlier pool = some middle →
        middle.store.database.credentials.lookup key = some row → row.revoked = true → NoneAdds key middle later →
        ∀ cID item, last.store.database.clusters.lookup cID = some item → item.recordedKey ≠ some key := by
  have fresh : CredentialsSettled pool := by
    refine ⟨exclusive, fun call key row claims => ?_, fun call key row claims => ?_⟩
    · rw [ready call] at claims
      cases claims
    · rw [ready call] at claims
      cases claims
  have settled : CredentialsSettled last :=
    System.run_meets ran careful fresh fun _ _ _ stepped careful settled => settled.step careful stepped
  refine ⟨settled.exclusive, ?_⟩
  rintro earlier later middle key row rfl before found revoked none
  obtain ⟨middle', before', rest⟩ := System.run_append.mp ran
  obtain rfl : middle = middle' := Option.some.inj (before.symm.trans before')
  have retired : Retired key middle := by
    refine ⟨fun row' found' => ?_, none.waiting⟩
    rw [found] at found'
    cases found'
    exact revoked
  have still : Retired key last := by
    refine System.run_keeps rest retired fun event member before after stepped kept => kept.step ?_ stepped
    rintro call request rfl
    exact none.starting call request member
  exact still.unrecorded settled.exclusive

/-- Two clusters, the first of which has the only credential. -/
def clusterOne : Cluster :=
  { id := "cluster_1", name := "one", monitoringCredential := { accessKey := "K", secretKey := "S" } }

def clusterTwo : Cluster := { id := "cluster_2", name := "two" }

def monitoredPool : Pool Server CredentialCall where
  store :=
    { database :=
      { clusters := AList.insert "cluster_1" (itemOfCluster clusterOne) (AList.insert "cluster_2" (itemOfCluster clusterTwo) ∅)
        credentials := AList.insert "K" { secretKey := "S", inUse := true, revoked := false } ∅ } }
  calls := fun _ => .ready

def recordedKeys (pool : Pool Server CredentialCall) : List (Option String) :=
  ["cluster_1", "cluster_2"].map fun cID => (pool.store.database.clusters.lookup cID).bind ClusterItem.recordedKey

def staleUpdate : List (Event CredentialRequest) :=
  [.start 0 (.updateCluster "cluster_1" none (some "Org") .abandoned)] ++ List.replicate 4 (.advance 0) ++
    [.start 1 (.removeClusterMonitoringCredential "cluster_1")] ++ List.replicate 7 (.advance 1) ++ [.advance 0]

def staleSetup : List (Event CredentialRequest) :=
  [.start 0 (.updateCluster "cluster_1" (some "config") none (.verified false false))] ++ List.replicate 7 (.advance 0) ++
    [.start 1 (.removeClusterMonitoringCredential "cluster_1")] ++ List.replicate 7 (.advance 1) ++ [.advance 0]

/-- An update of the first cluster reads it, its credential is removed and revoked, and
the update records the revoked key again; so does an update of the configuration whose
first write comes before the removal. When the key is then added anew, which puts its
record whatever there is, the second cluster is given the same key. -/
theorem credential_shared :
    ((credentialSystem {}).run staleUpdate monitoredPool).map
      (fun pool => (pool.calls 1, recordedKeys pool, pool.store.database.credentials.lookup "K")) =
        some (.finished true, [some "K", none], some { secretKey := "S", inUse := false, revoked := true }) ∧
    ((credentialSystem {}).run staleSetup monitoredPool).map
      (fun pool => (pool.calls 1, recordedKeys pool, pool.store.database.credentials.lookup "K")) =
        some (.finished true, [some "K", none], some { secretKey := "S", inUse := false, revoked := true }) ∧
    ((credentialSystem {}).run (staleUpdate ++ [.start 2 (.addMonitoringCredential "K" "S"), .advance 2] ++
        [.start 3 (.getClusterMonitoringCredential "cluster_2")] ++ List.replicate 6 (.advance 3)) monitoredPool).map
      recordedKeys = some [some "K", some "K"] := ⟨rfl, rfl, rfl⟩

/-- The next step of the call is not one that has to be careful. -/
def CredentialCall.harmless : CredentialCall → Bool
  | adding _ => false
  | recording _ _ => false
  | revoking _ _ => false
  | writing _ _ => false
  | _ => true

section
variable {splitting : Splitting} {call : Nat} {events : List (Event CredentialRequest)}
  {pool next : Pool Server CredentialCall}

private theorem careful_start {request : CredentialRequest}
    (stepped : (credentialSystem splitting).step (.start call request) pool = some next)
    (rest : (credentialSystem splitting).Meets CredentialsCareful events next) :
    (credentialSystem splitting).Meets CredentialsCareful (.start call request :: events) pool := by
  refine ⟨⟨?_, ?_, ?_, ?_⟩, fun after stepped' => ?_⟩
  · exact fun _ _ impossible => by cases impossible
  · exact fun _ _ _ impossible => by cases impossible
  · exact fun _ _ _ impossible => by cases impossible
  · exact fun _ _ _ impossible => by cases impossible
  · obtain rfl : next = after := Option.some.inj (stepped.symm.trans stepped')
    exact rest

private theorem careful_advance (stepped : (credentialSystem splitting).step (.advance call) pool = some next)
    (harmless : (pool.calls call).harmless = true)
    (rest : (credentialSystem splitting).Meets CredentialsCareful events next) :
    (credentialSystem splitting).Meets CredentialsCareful (.advance call :: events) pool := by
  refine ⟨⟨?_, ?_, ?_, ?_⟩, fun after stepped' => ?_⟩
  · rintro other cred same adding -
    cases same
    rw [adding] at harmless
    cases harmless
  · rintro other cID cred same recording -
    cases same
    rw [recording] at harmless
    cases harmless
  · rintro other key cause same revoking -
    cases same
    rw [revoking] at harmless
    cases harmless
  · rintro other cluster cause same writing -
    cases same
    rw [writing] at harmless
    cases harmless
  · obtain rfl : next = after := Option.some.inj (stepped.symm.trans stepped')
    exact rest

/-- A cluster is written whose key is in use and on no other cluster, while no call has
acquired one. -/
private theorem careful_writing {cluster : Cluster} {cause : WriteCause} {key : String} {row : CredentialItem}
    (stepped : (credentialSystem splitting).step (.advance call) pool = some next)
    (current : pool.calls call = .writing cluster cause)
    (carries : (itemOfCluster cluster).recordedKey = some key)
    (found : pool.store.database.credentials.lookup key = some row) (used : row.inUse = true)
    (elsewhere : ∀ other item, other ≠ cluster.id → pool.store.database.clusters.lookup other = some item →
      item.recordedKey ≠ some key)
    (unclaimed : ∀ other, (pool.calls other).claimed = none)
    (rest : (credentialSystem splitting).Meets CredentialsCareful events next) :
    (credentialSystem splitting).Meets CredentialsCareful (.advance call :: events) pool := by
  refine ⟨⟨?_, ?_, ?_, ?_⟩, fun after stepped' => ?_⟩
  · rintro other cred same adding -
    cases same
    rw [current] at adding
    cases adding
  · rintro other cID cred same recording -
    cases same
    rw [current] at recording
    cases recording
  · rintro other key cause same revoking -
    cases same
    rw [current] at revoking
    cases revoking
  · rintro other cluster' cause' same writing - key' recorded
    cases same
    rw [current] at writing
    cases writing
    rw [carries] at recorded
    cases recorded
    refine ⟨⟨row, found, used⟩, elsewhere, fun third claimed => ?_⟩
    rw [unclaimed third] at claimed
    cases claimed
  · obtain rfl : next = after := Option.some.inj (stepped.symm.trans stepped')
    exact rest

private theorem careful_revoking {accessKey : String} {cause : RemovalCause}
    (stepped : (credentialSystem splitting).step (.advance call) pool = some next)
    (current : pool.calls call = .revoking accessKey cause) (nowhere : Unrecorded accessKey pool.store.database)
    (rest : (credentialSystem splitting).Meets CredentialsCareful events next) :
    (credentialSystem splitting).Meets CredentialsCareful (.advance call :: events) pool := by
  refine ⟨⟨?_, ?_, ?_, ?_⟩, fun after stepped' => ?_⟩
  · rintro other cred same adding -
    cases same
    rw [current] at adding
    cases adding
  · rintro other cID cred same recording -
    cases same
    rw [current] at recording
    cases recording
  · rintro other key cause same revoking -
    cases same
    rw [current] at revoking
    cases revoking
    exact nowhere
  · rintro other cluster cause same writing -
    cases same
    rw [current] at writing
    cases writing
  · obtain rfl : next = after := Option.some.inj (stepped.symm.trans stepped')
    exact rest

end

private theorem monitoredPool_exclusive : CredentialsExclusive monitoredPool.store.database := by
  have empty : CredentialsExclusive {} := ⟨by simp, by simp, by simp⟩
  have added : CredentialsExclusive
      { credentials := AList.insert "K" { secretKey := "S", inUse := true, revoked := false } ∅ } :=
    empty.put (fun cID item stored => by simp at stored) (fun revoked => by cases revoked) rfl rfl
  have unmonitored : CredentialsExclusive
      { credentials := AList.insert "K" { secretKey := "S", inUse := true, revoked := false } ∅
        clusters := AList.insert "cluster_2" (itemOfCluster clusterTwo) ∅ } := by
    refine added.write (fun key recorded => ?_) rfl rfl
    cases recorded
  refine unmonitored.write (fun key recorded => ?_) rfl rfl
  have same : some "K" = some key := recorded
  cases same
  refine ⟨⟨_, rfl, rfl⟩, fun other item different stored => ?_⟩
  rw [FiniteMap.lookup_insert] at stored
  split at stored
  next =>
    cases stored
    exact fun impossible => nomatch impossible
  next => cases stored

private theorem others_bare {other : String} {item : ClusterItem} (different : other ≠ "cluster_1")
    (stored : monitoredPool.store.database.clusters.lookup other = some item) : item.recordedKey = none := by
  unfold monitoredPool at stored
  simp only [FiniteMap.lookup_insert, FiniteMap.lookup_empty, if_neg different] at stored
  split at stored
  next =>
    cases stored
    rfl
  next => cases stored

/-- However often the first cluster is written, the others have no key. -/
private theorem others_differ {first item : ClusterItem} {clusters : FiniteMap String ClusterItem} {other : String}
    (bare : ∀ {item}, clusters.lookup other = some item → item.recordedKey = none) (different : other ≠ "cluster_1")
    (stored : (AList.insert "cluster_1" first clusters).lookup other = some item) : item.recordedKey = none := by
  rw [FiniteMap.lookup_insert, if_neg different] at stored
  exact bare stored

def configured : List (Event CredentialRequest) :=
  [.start 0 (.updateCluster "cluster_1" (some "config") none (.verified false false))] ++ List.replicate 10 (.advance 0) ++
    [.start 1 (.removeClusterMonitoringCredential "cluster_1")] ++ List.replicate 7 (.advance 1)

/-- The first cluster gets a new configuration, which writes its record twice; then its
credential is removed and revoked. -/
theorem credentials_stay_exclusive_run :
    ∃ last, (credentialSystem {}).run configured monitoredPool = some last ∧
      last.calls 0 = .finished true ∧ last.calls 1 = .finished true ∧ CredentialsExclusive last.store.database := by
  have careful : (credentialSystem {}).Meets CredentialsCareful configured monitoredPool := by
    refine careful_start rfl ?_
    iterate 4 refine careful_advance rfl rfl ?_
    refine careful_writing rfl rfl rfl rfl rfl ?_ ?_ ?_
    · intro other item different stored
      rw [others_bare different stored]
      exact fun impossible => by cases impossible
    · intro other
      cases other with
      | zero => rfl
      | succ other => rfl
    iterate 2 refine careful_advance rfl rfl ?_
    refine careful_writing rfl rfl rfl rfl rfl ?_ ?_ ?_
    · intro other item different stored
      rw [others_differ (others_bare different) different stored]
      exact fun impossible => by cases impossible
    · intro other
      cases other with
      | zero => rfl
      | succ other => rfl
    iterate 2 refine careful_advance rfl rfl ?_
    refine careful_start rfl ?_
    iterate 6 refine careful_advance rfl rfl ?_
    refine careful_revoking rfl rfl ?_ trivial
    intro cID item stored
    rcases eq_or_ne cID "cluster_1" with rfl | different
    · cases stored
      exact fun impossible => by cases impossible
    · rw [others_differ (others_differ (others_differ (others_bare different) different) different) different stored]
      exact fun impossible => by cases impossible
  have exclusive := credentials_stay_exclusive (fun _ => rfl) monitoredPool_exclusive rfl careful
  exact ⟨_, rfl, rfl, rfl, exclusive.1⟩

end Slate
