import Slate.Proofs.Allowances
import Slate.Proofs.Parts

/-! Permissions to use applications, over histories of operations by which they are read
and changed and in which any request may fail. -/

namespace Slate
open Library

/-- The ID of a cluster is its prefix followed by characters other than a colon. -/
def ClusterID (cID : String) : Prop := startsWith clusterIDPrefix cID = true ∧ ':' ∉ cID.toList

private theorem applicationsKey_injective {groupID cID groupID' cID' : String} (formed : ':' ∉ cID.toList) (formed' : ':' ∉ cID'.toList)
    (same : applicationsKey groupID cID = applicationsKey groupID' cID') : groupID = groupID' ∧ cID = cID' := by
  have chars : ∀ group cluster : String, (applicationsKey group cluster).toList =
      cluster.toList ++ ':' :: (group.toList ++ ":Applications".toList) := by
    intro group cluster
    simp [applicationsKey]
  have first : ∀ group cluster : String, ':' ∉ cluster.toList →
      (applicationsKey group cluster).toList.takeWhile (· ≠ ':') = cluster.toList := by
    intro group cluster plain
    rw [chars, List.takeWhile_append_of_pos]
    · simp
    · intro char member
      have other : char ≠ ':' := fun equal => plain (equal ▸ member)
      simpa using other
  have clusters : cID = cID' := by
    apply String.toList_injective
    rw [← first groupID cID formed, ← first groupID' cID' formed', same]
  subst clusters
  have texts := congrArg String.toList same
  rw [chars, chars] at texts
  have groups := List.append_cancel_right (List.cons.inj (List.append_cancel_left texts)).2
  exact ⟨String.toList_injective groups, rfl⟩

/-- The set of names that the table holds for a group and a cluster. -/
def Database.applicationsFor (database : Database) (groupID cID : String) : Finset String :=
  applicationsOfItem (database.applications.lookup (cID, applicationsKey groupID cID))

private theorem allowance_eq (database : Database) (groupID cID : String) :
    database.allowance groupID cID = .ofNames (database.applicationsFor groupID cID) := rfl

/-- What is cached is what the table holds. -/
def PermissionsKnown (server : Server) : Prop :=
  ∀ groupID cID, ClusterID cID → ∀ entry,
    server.clusters.clusterGroupApplicationCache.lookup (applicationsKey groupID cID) = some entry →
    entry.record = server.database.applicationsFor groupID cID

def permissionsPart : ServerPart (FiniteMap (String × String) (Finset String) ×
    CuckooHashMap String (CacheRecord (Finset String))) where
  read := fun server => (server.database.applications, server.clusters.clusterGroupApplicationCache)
  tick := fun _ => rfl
  answered := fun _ => rfl

theorem PermissionsKnown.of_same {before after : Server} (known : PermissionsKnown before)
    (same : permissionsPart.read after = permissionsPart.read before) : PermissionsKnown after := by
  obtain ⟨table, cache⟩ := Prod.mk.inj same
  intro groupID cID formed entry found
  rw [cache] at found
  rw [Database.applicationsFor, table]
  exact known groupID cID formed entry found

section Pair
variable (groupID cID : String)

/-- The cached set, if there is one, is still valid at the next reading of the clock. -/
def Server.applicationsFresh (server : Server) : Bool :=
  match server.clusters.clusterGroupApplicationCache.lookup (applicationsKey groupID cID) with
  | none => false
  | some entry => decide (server.clock 0 ≤ entry.expirationTime)

/-- The set can be read, from the cache or from the table. -/
def Server.applicationsReadable (server : Server) : Bool := server.applicationsFresh groupID cID || server.outcomes 0

/-- The request that follows the reading of the set succeeds. -/
def Server.applicationsWritable (server : Server) : Bool :=
  server.outcomes (if server.applicationsFresh groupID cID then 0 else 1)

end Pair

variable {groupID cID : String} {server : Server}

private theorem returns_cacheApplications (known : PermissionsKnown server) (formed : ClusterID cID) {names : Finset String}
    (held : names = server.database.applicationsFor groupID cID) :
    Returns (cacheApplications groupID cID names) server fun _ after =>
      PermissionsKnown after ∧ after.database = server.database ∧ after.outcomes = server.outcomes := by
  unfold cacheApplications
  simp only [returns_bind, returns_lasting, returns_modify]
  refine ⟨?_, rfl, rfl⟩
  intro group cluster formed' entry found
  rw [FiniteMap.lookup_insert] at found
  split at found
  next same =>
    cases found
    obtain ⟨rfl, rfl⟩ := applicationsKey_injective formed'.2 formed.2 same
    exact held
  next => exact known group cluster formed' entry found

private theorem returns_queryApplications (known : PermissionsKnown server) (formed : ClusterID cID) :
    Returns (queryApplications groupID cID) server fun names after =>
      PermissionsKnown after ∧ after.database = server.database ∧ after.outcomes 0 = server.outcomes 1 ∧
        names = if server.outcomes 0 = true then server.database.applicationsFor groupID cID else ∅ := by
  have kept : PermissionsKnown server.answered := known.of_same rfl
  unfold queryApplications applicationsQuery
  simp only [returns_bind, returns_request, returns_ite, returns_pure, returns_get]
  by_cases succeeded : server.outcomes 0 = true
  · rw [if_pos succeeded]
    refine (returns_cacheApplications kept formed rfl).mono ?_
    rintro _ after ⟨later, same, next⟩
    refine ⟨later, same, ?_, (if_pos succeeded).symm⟩
    rw [next, answered_outcomes]
  · rw [if_neg succeeded]
    exact ⟨kept, rfl, rfl, (if_neg succeeded).symm⟩

/-- The set that is read is the table's, or is empty when it cannot be read. -/
theorem returns_readApplications (known : PermissionsKnown server) (formed : ClusterID cID) :
    Returns (readApplications groupID cID) server fun names after =>
      PermissionsKnown after ∧ after.database = server.database ∧
        after.outcomes 0 = server.applicationsWritable groupID cID ∧
        names = if server.applicationsReadable groupID cID then server.database.applicationsFor groupID cID else ∅ := by
  unfold readApplications applicationsCached cached
  simp only [returns_bind, returns_get]
  cases present : server.clusters.clusterGroupApplicationCache.lookup (applicationsKey groupID cID) with
  | none =>
    have stale : server.applicationsFresh groupID cID = false := by simp [Server.applicationsFresh, present]
    simpa [Server.applicationsReadable, Server.applicationsWritable, stale] using returns_queryApplications known formed
  | some entry =>
    simp only [returns_bind, returns_current, returns_ite, returns_pure, decide_eq_true_eq]
    by_cases valid : server.clock 0 ≤ entry.expirationTime
    · rw [if_pos valid]
      have fresh : server.applicationsFresh groupID cID = true := by simp [Server.applicationsFresh, present, valid]
      refine ⟨known.of_same rfl, rfl, ?_, ?_⟩
      · simp [Server.applicationsWritable, fresh]
      · simpa [Server.applicationsReadable, fresh] using known groupID cID formed entry present
    · rw [if_neg valid]
      have stale : server.applicationsFresh groupID cID = false := by simp [Server.applicationsFresh, present, valid]
      have ticked : PermissionsKnown server.tick := known.of_same rfl
      simp only [Server.applicationsReadable, Server.applicationsWritable, stale, Bool.false_or]
      exact returns_queryApplications ticked formed

/-- Storing a set changes the permission of one group on one cluster. -/
theorem returns_storeApplications (known : PermissionsKnown server) (formed : ClusterID cID) (allowed stored : Finset String) :
    Returns (storeApplications groupID cID allowed stored) server fun done after =>
      done = server.outcomes 0 ∧ (done = false ∨ applicationsOfItem (some stored) = allowed → PermissionsKnown after) ∧
        after.database = if done then { server.database with
          applications := server.database.applications.insert (cID, applicationsKey groupID cID) stored }
        else server.database := by
  unfold storeApplications putApplications
  simp only [returns_bind, returns_request, returns_ite, returns_pure, returns_modify]
  by_cases succeeded : server.outcomes 0 = true
  · rw [if_pos succeeded]
    unfold cacheApplications
    simp only [returns_bind, returns_lasting, returns_modify]
    refine ⟨succeeded.symm, ?_, rfl⟩
    intro meaning group cluster formed' entry found
    simp only [tick_clusters, tick_database, answered_clusters, answered_database] at found ⊢
    rw [FiniteMap.lookup_insert] at found
    rw [Database.applicationsFor, FiniteMap.lookup_insert]
    split at found
    next same =>
      cases found
      obtain ⟨rfl, rfl⟩ := applicationsKey_injective formed'.2 formed.2 same
      rw [if_pos rfl]
      exact (meaning.resolve_left (by simp)).symm
    next different =>
      rw [if_neg fun equal => different (Prod.mk.inj equal).2]
      exact known group cluster formed' entry found
  · rw [if_neg succeeded]
    have failed : server.outcomes 0 = false := by simpa using succeeded
    exact ⟨failed.symm, fun _ => known.of_same rfl, rfl⟩

private theorem allowance_stored (database : Database) (stored : Finset String) (groupID cID group cluster : String) :
    Database.allowance { database with
        applications := database.applications.insert (cID, applicationsKey groupID cID) stored } group cluster =
      if cluster = cID ∧ group = groupID then .ofNames (applicationsOfItem (some stored))
      else database.allowance group cluster := by
  rw [Database.allowance, FiniteMap.lookup_insert]
  by_cases same : cluster = cID ∧ group = groupID
  · obtain ⟨rfl, rfl⟩ := same
    rw [if_pos rfl, if_pos ⟨rfl, rfl⟩]
  · rw [if_neg same, if_neg]
    · rfl
    · intro equal
      obtain ⟨clusters, keys⟩ := Prod.mk.inj equal
      subst clusters
      apply same
      refine ⟨rfl, ?_⟩
      simpa [applicationsKey, String.ext_iff] using keys

private theorem allowance_changed {before after : Database} {done : Bool} {stored : Finset String}
    (changed : after = if done then { before with
      applications := before.applications.insert (cID, applicationsKey groupID cID) stored } else before) :
    after.allowance groupID cID =
        (if done then .ofNames (applicationsOfItem (some stored)) else before.allowance groupID cID) ∧
      ∀ group cluster, ¬ (cluster = cID ∧ group = groupID) →
        after.allowance group cluster = before.allowance group cluster := by
  cases done with
  | false =>
    obtain rfl : after = before := changed
    exact ⟨rfl, fun _ _ _ => rfl⟩
  | true =>
    rw [if_pos rfl] at changed
    subst changed
    refine ⟨?_, fun group cluster different => ?_⟩
    · rw [allowance_stored, if_pos ⟨rfl, rfl⟩]
      rfl
    · rw [allowance_stored, if_neg different]

inductive ApplicationOperation where
  | allowVoToUseApplication (group cluster appName : String)
  | denyGroupUseOfApplication (group cluster appName : String)
  | listApplicationsGroupMayUseOnCluster (group cluster : String)
  | groupMayUseApplication (group cluster appName : String)
  deriving DecidableEq, Repr

inductive ApplicationAnswer where
  | changed (done : Bool)
  | listed (names : Finset String)
  | decided (may : Bool)
  deriving DecidableEq

def designate (group cluster : String) : StoreM (Option (String × String)) := do
  let some groupID ← normalizeGroupID group true
    | return none
  let some cID ← normalizeClusterID cluster
    | return none
  return some (groupID, cID)

private theorem withNormalized_designate (group cluster : String) (next : String → String → StoreM Bool) :
    withNormalized group cluster true next = designate group cluster >>= fun pair =>
      match pair with
      | none => return false
      | some (groupID, cID) => next groupID cID := by
  unfold withNormalized designate
  simp only [bind_assoc]
  refine bind_congr fun groupID => ?_
  cases groupID with
  | none => rfl
  | some groupID =>
    simp only [bind_assoc]
    refine bind_congr fun cID => ?_
    cases cID <;> rfl

theorem listApplications_designate (group cluster : String) :
    listApplicationsGroupMayUseOnCluster group cluster = designate group cluster >>= fun pair =>
      match pair with
      | none => return ∅
      | some (groupID, cID) => readApplications groupID cID := by
  unfold listApplicationsGroupMayUseOnCluster designate
  simp only [bind_assoc]
  refine bind_congr fun groupID => ?_
  cases groupID with
  | none => rfl
  | some groupID =>
    simp only [bind_assoc]
    refine bind_congr fun cID => ?_
    cases cID <;> rfl

namespace ApplicationOperation

def group : ApplicationOperation → String
  | allowVoToUseApplication group _ _ => group
  | denyGroupUseOfApplication group _ _ => group
  | listApplicationsGroupMayUseOnCluster group _ => group
  | groupMayUseApplication group _ _ => group

def cluster : ApplicationOperation → String
  | allowVoToUseApplication _ cluster _ => cluster
  | denyGroupUseOfApplication _ cluster _ => cluster
  | listApplicationsGroupMayUseOnCluster _ cluster => cluster
  | groupMayUseApplication _ cluster _ => cluster

def run : ApplicationOperation → StoreM ApplicationAnswer
  | allowVoToUseApplication group cluster appName => do
    return .changed (← Slate.allowVoToUseApplication group cluster appName)
  | denyGroupUseOfApplication group cluster appName => do
    return .changed (← Slate.denyGroupUseOfApplication group cluster appName)
  | listApplicationsGroupMayUseOnCluster group cluster => do
    return .listed (← Slate.listApplicationsGroupMayUseOnCluster group cluster)
  | groupMayUseApplication group cluster appName => do
    return .decided (← Slate.groupMayUseApplication group cluster appName)

def execute (operation : ApplicationOperation) : StoreM Unit := do
  let _ ← operation.run

/-- What the operation answers, and leaves permitted, is as the header has it. -/
def Effect (before after : Allowance) : ApplicationOperation → ApplicationAnswer → Prop
  | allowVoToUseApplication _ _ appName, .changed done => after = if done then before.allow appName else before
  | denyGroupUseOfApplication _ _ appName, .changed done =>
    if done then before.deny appName = some after else after = before
  | listApplicationsGroupMayUseOnCluster _ _, .listed names => after = before ∧ .ofNames names = before
  | groupMayUseApplication _ _ appName, .decided may => after = before ∧ (may = true ↔ before.Permits appName)
  | _, _ => False

/-- The operation is about this group and this cluster. The server is the one that the
lookups of their names leave. -/
def Concerns (operation : ApplicationOperation) (server : Server) (groupID cID : String) (middle : Server) : Prop :=
  designate operation.group operation.cluster server = .ok (some (groupID, cID)) middle

/-- The operation does as documented to the group and the cluster that it is about, and
nothing to any others. -/
def Documented (operation : ApplicationOperation) (server : Server) : Prop :=
  Yields operation.run server fun answer after => ∀ groupID cID,
    ((∃ middle, operation.Concerns server groupID cID middle) →
      operation.Effect (server.database.allowance groupID cID) (after.database.allowance groupID cID) answer) ∧
    ((∀ middle, ¬ operation.Concerns server groupID cID middle) →
      after.database.allowance groupID cID = server.database.allowance groupID cID)

/-- The set is read where that makes a difference, and the name of an application is not
the one that marks an empty set. -/
def Careful (groupID cID : String) (server : Server) : ApplicationOperation → Prop
  | allowVoToUseApplication _ _ appName => server.applicationsWritable groupID cID = true →
    Wild appName ∨ appName ≠ noneMarker ∧ (server.applicationsReadable groupID cID = true ∨
      (server.database.allowance groupID cID).Replaceable appName)
  | denyGroupUseOfApplication _ _ _ => True
  | listApplicationsGroupMayUseOnCluster _ _ => server.applicationsReadable groupID cID = true ∨
    server.database.allowance groupID cID = .specific ∅
  | groupMayUseApplication _ _ appName => server.applicationsReadable groupID cID = true ∨
    ¬ (server.database.allowance groupID cID).Permits appName

def finish (groupID cID : String) (names : Finset String) : ApplicationOperation → StoreM ApplicationAnswer
  | allowVoToUseApplication _ _ appName => do
    let allowed := allowApplication names (applicationNamed appName)
    return .changed (← storeApplications groupID cID allowed allowed)
  | denyGroupUseOfApplication _ _ appName =>
    match denyApplication names (applicationNamed appName) with
    | none => return .changed false
    | some allowed => do return .changed (← storeApplications groupID cID allowed (markEmpty allowed))
  | listApplicationsGroupMayUseOnCluster _ _ => return .listed names
  | groupMayUseApplication _ _ appName => return .decided (wildcardName ∈ names || appName ∈ names)

end ApplicationOperation

private theorem permits_ofNames {names : Finset String} {name : String} :
    (Allowance.ofNames names).Permits name ↔ wildcardName ∈ names ∨ name ∈ names := by
  unfold Allowance.ofNames
  split
  next universal => exact iff_of_true trivial (.inl universal)
  next specific => exact (or_iff_right specific).symm

/-- What an operation does once the set is read, and exactly when that is as documented. -/
theorem returns_finish {operation : ApplicationOperation} (known : PermissionsKnown server) (formed : ClusterID cID) :
    Returns (readApplications groupID cID >>= operation.finish groupID cID) server fun answer after =>
      (operation.Effect (server.database.allowance groupID cID) (after.database.allowance groupID cID) answer ↔
        operation.Careful groupID cID server) ∧
      (operation.Careful groupID cID server → PermissionsKnown after) ∧
      ∀ group cluster, ¬ (cluster = cID ∧ group = groupID) →
        after.database.allowance group cluster = server.database.allowance group cluster := by
  rw [returns_bind]
  refine (returns_readApplications known formed).mono ?_
  rintro names middle ⟨later, database, outcome, read⟩
  have plain : noneMarker ∉ names := by
    rw [read]
    split
    · exact noneMarker_not_mem_item _
    · exact Finset.notMem_empty _
  have same : ∀ group cluster, middle.database.allowance group cluster = server.database.allowance group cluster := by
    intro group cluster
    rw [database]
  cases operation with
  | allowVoToUseApplication _ _ appName =>
    simp only [ApplicationOperation.finish, returns_bind, returns_pure]
    refine (returns_storeApplications later formed _ _).mono ?_
    rintro done after ⟨rfl, kept, changed⟩
    rw [outcome] at kept changed ⊢
    obtain ⟨mine, others⟩ := allowance_changed (changed.trans (by rw [database]))
    refine ⟨?_, ?_, others⟩
    · simp only [ApplicationOperation.Effect, ApplicationOperation.Careful, mine]
      by_cases writable : server.applicationsWritable groupID cID = true
      · simp only [writable, if_true, true_implies]
        exact stored_allow_iff appName plain read
      · simp [writable]
    · intro careful
      apply kept
      by_cases writable : server.applicationsWritable groupID cID = true
      · right
        apply applicationsOfItem_some
        rw [noneMarker_mem_allowApplication plain]
        rintro rfl
        exact (careful writable).elim noneMarker_not_wild fun right => right.1 rfl
      · exact .inl (by simpa using writable)
  | denyGroupUseOfApplication _ _ appName =>
    simp only [ApplicationOperation.finish]
    cases denied : denyApplication names (applicationNamed appName) with
    | none =>
      refine ⟨?_, fun _ => later, fun group cluster _ => same group cluster⟩
      exact iff_of_true (same groupID cID) trivial
    | some allowed =>
      simp only [returns_bind, returns_pure]
      refine (returns_storeApplications later formed _ _).mono ?_
      rintro done after ⟨rfl, kept, changed⟩
      rw [outcome] at kept changed ⊢
      have stored := applicationsOfItem_markEmpty (noneMarker_not_mem_denied plain denied)
      obtain ⟨mine, others⟩ := allowance_changed (changed.trans (by rw [database]))
      refine ⟨iff_of_true ?_ trivial, fun _ => kept (.inr stored), others⟩
      simp only [ApplicationOperation.Effect, mine, stored]
      by_cases writable : server.applicationsWritable groupID cID = true
      · simp only [writable, if_true]
        exact denied_deny read denied
      · simp [writable]
  | listApplicationsGroupMayUseOnCluster =>
    refine ⟨?_, fun _ => later, fun group cluster _ => same group cluster⟩
    simp only [ApplicationOperation.Effect, ApplicationOperation.Careful, same, true_and]
    rw [read, allowance_eq]
    by_cases readable : server.applicationsReadable groupID cID = true
    · simp [readable]
    · rw [if_neg readable, or_iff_right readable, ofNames_empty]
      exact eq_comm
  | groupMayUseApplication _ _ appName =>
    refine ⟨?_, fun _ => later, fun group cluster _ => same group cluster⟩
    simp only [ApplicationOperation.Effect, ApplicationOperation.Careful, same, true_and]
    rw [read, allowance_eq, permits_ofNames]
    by_cases readable : server.applicationsReadable groupID cID = true
    · simp [readable]
    · simp [readable]

namespace ApplicationOperation

/-- What the operation answers when an argument is the name of nothing. -/
def refusal : ApplicationOperation → ApplicationAnswer
  | allowVoToUseApplication _ _ _ => .changed false
  | denyGroupUseOfApplication _ _ _ => .changed false
  | listApplicationsGroupMayUseOnCluster _ _ => .listed ∅
  | groupMayUseApplication _ _ _ => .decided false

/-- The reading of the set. A change goes through the listing, which resolves the IDs again. -/
def reading (groupID cID : String) : ApplicationOperation → StoreM (Finset String)
  | allowVoToUseApplication _ _ _ => Slate.listApplicationsGroupMayUseOnCluster groupID cID
  | denyGroupUseOfApplication _ _ _ => Slate.listApplicationsGroupMayUseOnCluster groupID cID
  | _ => readApplications groupID cID

/-- The arguments of an operation are resolved first. -/
theorem run_designate (operation : ApplicationOperation) :
    operation.run = designate operation.group operation.cluster >>= fun pair =>
      match pair with
      | none => return operation.refusal
      | some (groupID, cID) => operation.reading groupID cID >>= operation.finish groupID cID := by
  cases operation with
  | allowVoToUseApplication group cluster appName =>
    simp only [run, Slate.allowVoToUseApplication, withNormalized_designate, bind_assoc]
    refine bind_congr fun pair => ?_
    rcases pair with _ | ⟨groupID, cID⟩
    · rfl
    · simp only [reading, finish, bind_assoc]
  | denyGroupUseOfApplication group cluster appName =>
    simp only [run, Slate.denyGroupUseOfApplication, withNormalized_designate, bind_assoc]
    refine bind_congr fun pair => ?_
    rcases pair with _ | ⟨groupID, cID⟩
    · rfl
    · simp only [reading, finish, bind_assoc]
      refine bind_congr fun names => ?_
      cases denyApplication names (applicationNamed appName) <;> rfl
  | listApplicationsGroupMayUseOnCluster group cluster =>
    simp only [run, listApplications_designate, bind_assoc]
    refine bind_congr fun pair => ?_
    rcases pair with _ | ⟨groupID, cID⟩ <;> rfl
  | groupMayUseApplication group cluster appName =>
    simp only [run, Slate.groupMayUseApplication, listApplications_designate, bind_assoc]
    refine bind_congr fun pair => ?_
    rcases pair with _ | ⟨groupID, cID⟩
    · rfl
    · simp only [reading, finish, pure_bind]

private theorem reading_known (operation : ApplicationOperation) (guest : Guest groupID) (formed : ClusterID cID) :
    operation.reading groupID cID = readApplications groupID cID := by
  have again : designate groupID cID = return some (groupID, cID) := by
    unfold designate
    rw [normalizeGroupID_guest guest, normalizeClusterID_known formed.1]
    rfl
  have listed : Slate.listApplicationsGroupMayUseOnCluster groupID cID = readApplications groupID cID := by
    rw [listApplications_designate, again]
    rfl
  cases operation with
  | allowVoToUseApplication => exact listed
  | denyGroupUseOfApplication => exact listed
  | listApplicationsGroupMayUseOnCluster => rfl
  | groupMayUseApplication => rfl

/-- The names that are given are those of a group and a cluster with IDs as they are
generated, or of nothing. -/
def Formed (operation : ApplicationOperation) (server : Server) : Prop :=
  ∀ groupID cID middle, operation.Concerns server groupID cID middle → Guest groupID ∧ ClusterID cID

/-- The operation is careful with the group and the cluster that it is about. -/
def Sound (operation : ApplicationOperation) (server : Server) : Prop :=
  ∀ groupID cID middle, operation.Concerns server groupID cID middle → operation.Careful groupID cID middle

end ApplicationOperation

private theorem beside_designate (group cluster : String) : Beside permissionsPart (designate group cluster) := by
  have groups : Beside permissionsPart (normalizeGroupID group true) := beside_normalizeGroupID (fun _ _ => rfl) group true
  have clusters : ∀ cluster, Beside permissionsPart (cacheCluster cluster) := by
    intro cluster
    unfold cacheCluster writeClusterConfigToDisk
    refine (Beside.lasting _ _).bind fun record => Beside.now.bind fun _ => Beside.bind ?_ fun _ => ?_
    all_goals exact Beside.modifies (fun _ => rfl) fun _ => rfl
  unfold designate
  refine groups.bind fun groupID => ?_
  cases groupID with
  | none => exact .pure _
  | some groupID =>
    refine (beside_normalizeClusterID clusters cluster).bind fun cID => ?_
    cases cID <;> exact .pure _

/-- Exactly when an operation does as documented, and what it keeps then. -/
theorem documented_iff {operation : ApplicationOperation} (known : PermissionsKnown server)
    (formed : operation.Formed server) :
    (operation.Documented server ↔ operation.Sound server) ∧
      (operation.Sound server → Yields operation.run server fun _ after => PermissionsKnown after) := by
  have beside := beside_designate operation.group operation.cluster server
  unfold ApplicationOperation.Documented ApplicationOperation.Sound
  rw [operation.run_designate]
  simp only [yields_bind]
  unfold Yields at beside ⊢
  cases ran : designate operation.group operation.cluster server with
  | error message stopped =>
    have nothing : ∀ groupID cID middle, ¬ operation.Concerns server groupID cID middle := by
      intro groupID cID middle concerns
      cases ran.symm.trans concerns
    exact ⟨iff_of_true trivial fun groupID cID middle concerns => absurd concerns (nothing _ _ _), fun _ => trivial⟩
  | ok pair middle =>
    rw [ran] at beside
    have later : PermissionsKnown middle := known.of_same beside.same
    have same : ∀ group cluster, middle.database.allowance group cluster = server.database.allowance group cluster := by
      intro group cluster
      have table : middle.database.applications = server.database.applications := congrArg Prod.fst beside.same
      rw [Database.allowance, table]
      rfl
    rcases pair with _ | ⟨groupID, cID⟩
    · have nothing : ∀ groupID cID middle, ¬ operation.Concerns server groupID cID middle := by
        intro groupID cID middle concerns
        cases ran.symm.trans concerns
      refine ⟨iff_of_true ?_ fun groupID cID middle concerns => absurd concerns (nothing _ _ _), fun _ => later⟩
      refine fun groupID cID => ⟨?_, fun _ => same groupID cID⟩
      rintro ⟨_, concerns⟩
      exact absurd concerns (nothing _ _ _)
    · obtain ⟨guest, shaped⟩ := formed groupID cID middle ran
      have unique : ∀ group cluster stopped, operation.Concerns server group cluster stopped →
          group = groupID ∧ cluster = cID ∧ stopped = middle := by
        intro group cluster stopped concerns
        cases ran.symm.trans concerns
        exact ⟨rfl, rfl, rfl⟩
      have finished : Returns (readApplications groupID cID >>= operation.finish groupID cID) middle _ :=
        returns_finish later shaped
      obtain ⟨answer, after, rest, exact_, kept, others⟩ := returns_iff.mp finished
      dsimp only
      rw [operation.reading_known guest shaped, rest]
      dsimp only
      rw [same] at exact_
      constructor
      · constructor
        · intro documented group cluster stopped concerns
          obtain ⟨rfl, rfl, rfl⟩ := unique group cluster stopped concerns
          exact exact_.mp ((documented group cluster).1 ⟨_, concerns⟩)
        · intro sound group cluster
          refine ⟨?_, fun unconcerned => ?_⟩
          · rintro ⟨stopped, concerns⟩
            obtain ⟨rfl, rfl, rfl⟩ := unique group cluster stopped concerns
            exact exact_.mpr (sound group cluster stopped concerns)
          · refine (others group cluster ?_).trans (same group cluster)
            rintro ⟨rfl, rfl⟩
            exact unconcerned middle ran
      · exact fun sound => kept (sound groupID cID middle ran)

/-- In every history, the operations do as documented just when each of them is careful
in the state that it starts from. -/
theorem permissions_documented_iff {history : List ApplicationOperation} {server : Server} (start : PermissionsKnown server)
    (formed : Permitted ApplicationOperation.execute ApplicationOperation.Formed history server) :
    Permitted ApplicationOperation.execute ApplicationOperation.Documented history server ↔
      Permitted ApplicationOperation.execute ApplicationOperation.Sound history server := by
  induction history generalizing server with
  | nil => exact Iff.rfl
  | cons operation rest ih =>
    obtain ⟨documented, kept⟩ := documented_iff start formed.1
    have later : operation.Sound server → ∀ after, operation.execute server = .ok ⟨⟩ after →
        (Permitted ApplicationOperation.execute ApplicationOperation.Documented rest after ↔
          Permitted ApplicationOperation.execute ApplicationOperation.Sound rest after) := by
      intro sound after ran
      have known : Yields operation.execute server fun _ after => PermissionsKnown after := by
        unfold ApplicationOperation.execute
        simp only [yields_bind, yields_pure]
        exact kept sound
      exact ih (known.of_ok ran) (formed.2 after ran)
    constructor
    · rintro ⟨first, others⟩
      have sound := documented.mp first
      exact ⟨sound, fun after ran => (later sound after ran).mp (others after ran)⟩
    · rintro ⟨sound, others⟩
      exact ⟨documented.mpr sound, fun after ran => (later sound after ran).mpr (others after ran)⟩

/-- An application is allowed where all were, and then asked for. -/
theorem permissions_documented_run :
    let history : List ApplicationOperation := [.allowVoToUseApplication "group_1" "cluster_1" "nginx",
      .groupMayUseApplication "group_1" "cluster_1" "nginx"]
    Permitted ApplicationOperation.execute ApplicationOperation.Documented history ({} : Server) := by
  intro history
  have known : PermissionsKnown ({} : Server) := by
    intro groupID cID _ entry found
    simp at found
  have shaped : Guest "group_1" ∧ ClusterID "cluster_1" := ⟨.inr (by decide), by decide, by decide⟩
  have formed : Permitted ApplicationOperation.execute ApplicationOperation.Formed history ({} : Server) := by
    refine ⟨?_, fun _ _ => ⟨?_, fun _ _ => trivial⟩⟩ <;>
    · intro groupID cID middle concerns
      cases concerns
      exact shaped
  refine (permissions_documented_iff known formed).mpr ⟨?_, fun after ran => ⟨?_, fun _ _ => trivial⟩⟩
  · intro groupID cID middle concerns
    cases concerns
    exact fun _ => .inr ⟨by decide, .inl rfl⟩
  · intro groupID cID middle concerns
    cases concerns
    cases ran
    exact .inl (by decide)

/-- A group may use two applications; the next request to the database fails. -/
def permittedServer : Server where
  database := { applications :=
    AList.insert ("cluster_1", applicationsKey "group_1" "cluster_1") {"nginx", "redis"} ∅ }
  outcomes := fun n => n != 0

/-- An application that is allowed when the set cannot be read takes the place of the
others. -/
theorem unread_permissions_lost :
    PermissionsKnown permittedServer ∧
      ¬ (ApplicationOperation.allowVoToUseApplication "group_1" "cluster_1" "mysql").Documented permittedServer := by
  constructor
  · intro groupID cID _ entry found
    simp [permittedServer] at found
  · intro documented
    have effect : Allowance.specific {"mysql"} = .specific {"mysql", "nginx", "redis"} :=
      (documented "group_1" "cluster_1").1 ⟨_, rfl⟩
    exact absurd effect (by decide)

end Slate
