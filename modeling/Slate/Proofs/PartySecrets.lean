import Slate.Messages
import Slate.Proofs.Parties
import Slate.Proofs.SecretLookups

/-! What the store keeps of others when it comes to clusters and secrets. -/

namespace Slate
open Library

section
variable {party : Party} {own : Prop}

theorem upheld_changeClusters (change : ClusterCaches → ClusterCaches) :
    Upheld party own (modify fun server => { server with clusters := change server.clusters }) fun _ => True :=
  upheld_caches (fun _ => rfl) fun _ contained => contained.of_same rfl rfl rfl rfl

private theorem upheld_clusterOfItem (id : String) (item : ClusterItem) : Upheld party own (clusterOfItem id item) fun _ => True := by
  have found : ∀ {α : Type} (stored : Option α) (message : String),
      Upheld party own (findOrThrow stored message) fun _ => True := by
    intro α stored message
    cases stored with
    | none => exact .throw trivial
    | some value => exact .pure trivial
  apply (found _ _).bind
  intro _ _
  apply (found _ _).bind
  intro _ _
  apply (found _ _).bind
  intro _ _
  exact (found _ _).bind fun _ _ => .pure trivial

private theorem upheld_cacheCluster (cluster : Cluster) : Upheld party own (cacheCluster cluster) fun _ => True := by
  apply (upheld_lasting cluster clusterCacheValidity).bind
  intro record _
  apply upheld_now.bind
  intro byGroup _
  apply (upheld_changeClusters fun caches => caches.replace record byGroup).bind
  intro _ _
  exact upheld_changeClusters fun caches => { caches with
    clusterConfigs := caches.clusterConfigs.insert cluster.id cluster.config }

private theorem upheld_findClusterByID (cID : String) : Upheld party own (findClusterByID cID) fun _ => True := by
  apply Upholds.get.bind
  intro server _
  apply (upheld_cached (fun _ => True) fun _ _ => trivial).bind
  intro found _
  cases found with
  | some cluster => exact .pure trivial
  | none =>
    apply upheld_request.bind
    intro answered _
    refine .ite (fun _ => ?_) fun _ => .pure trivial
    apply Upholds.get.bind
    intro server _
    split
    next => exact .pure trivial
    next item found =>
      apply (upheld_clusterOfItem cID item).bind
      intro cluster _
      exact (upheld_cacheCluster cluster).bind fun _ _ => .pure trivial

private theorem upheld_findClusterByName (name : String) : Upheld party own (findClusterByName name) fun _ => True := by
  apply Upholds.get.bind
  intro server _
  apply (upheld_cached (fun _ => True) fun _ _ => trivial).bind
  intro found _
  cases found with
  | some cluster => exact .pure trivial
  | none =>
    apply upheld_request.bind
    intro answered _
    refine .ite (fun _ => ?_) fun _ => .pure trivial
    apply Upholds.get.bind
    intro server _
    split
    next => exact .pure trivial
    next id item selected =>
      apply (upheld_clusterOfItem id item).bind
      intro cluster _
      exact (upheld_cacheCluster cluster).bind fun _ _ => .pure trivial
    next => exact .throw trivial

theorem upheld_getCluster (idOrName : String) : Upheld party own (getCluster idOrName) fun _ => True :=
  .ite (fun _ => upheld_findClusterByID _) fun _ => upheld_findClusterByName _

private theorem upheld_normalizeClusterID (cID : String) : Upheld party own (normalizeClusterID cID) fun _ => True := by
  refine .ite (fun _ => ?_) fun _ => .pure trivial
  apply (upheld_findClusterByName cID).bind
  exact fun _ _ => .ite (fun _ => .pure trivial) fun _ => .pure trivial

theorem upheld_configPathForCluster (cID : String) : Upheld party own (configPathForCluster cID) fun _ => True := by
  apply (upheld_findClusterByID cID).bind
  intro cluster _
  refine .ite (fun _ => .throw trivial) fun _ => ?_
  apply Upholds.get.bind
  intro server _
  split
  next => exact .pure trivial
  next => exact .throw trivial

theorem upheld_accessCached (cID value : String) : Upheld party own (accessCached cID value) fun _ => True := by
  apply Upholds.get.bind
  intro server _
  split
  next => exact .pure trivial
  next => exact (upheld_current _).bind fun _ _ => .ite (fun _ => .pure trivial) fun _ => .pure trivial

private theorem upheld_cacheAccess (cID value : String) : Upheld party own (cacheAccess cID value) fun _ => True := by
  apply (upheld_lasting value clusterCacheValidity).bind
  intro record _
  apply upheld_now.bind
  intro reading _
  exact upheld_changeClusters fun caches => { caches with
    clusterGroupAccessCache := (caches.clusterGroupAccessCache.insertOrAssign cID record reading).2 }

private theorem upheld_queryAccess (groupID cID : String) : Upheld party own (queryAccess groupID cID) fun _ => True := by
  have queried : Upheld party own (accessQuery groupID cID) fun _ => True :=
    upheld_request.bind fun _ _ => .ite (fun _ => Upholds.get.bind fun _ _ => .pure trivial) fun _ => .pure trivial
  apply queried.bind
  intro found _
  cases found with
  | none => exact .pure trivial
  | some found => exact (upheld_cacheAccess _ _).bind fun _ _ => .pure trivial

private theorem upheld_clusterAllowsAllGroups (cID : String) : Upheld party own (clusterAllowsAllGroups cID) fun _ => True := by
  apply (upheld_accessCached cID wildcard).bind
  intro record _
  cases record with
  | some record => exact upheld_current record
  | none =>
    apply (upheld_accessCached cID (negativeMarker wildcard)).bind
    intro record _
    cases record with
    | some record => exact .pure trivial
    | none => exact upheld_queryAccess _ _

private theorem upheld_decideAccess (groupID cID : String) : Upheld party own (decideAccess groupID cID) fun _ => True := by
  apply (upheld_clusterAllowsAllGroups cID).bind
  intro everyone _
  refine .ite (fun _ => .pure trivial) fun _ => ?_
  apply (upheld_accessCached cID groupID).bind
  intro record _
  cases record with
  | some record => exact .pure trivial
  | none =>
    apply (upheld_accessCached cID (negativeMarker groupID)).bind
    intro record _
    cases record with
    | some record => exact .pure trivial
    | none => exact upheld_queryAccess _ _

theorem upheld_groupAllowedOnCluster (groupID cID : String) :
    Upheld party own (groupAllowedOnCluster groupID cID) fun _ => True := by
  apply (upheld_normalizeGroupID groupID).bind
  intro group _
  cases group with
  | none => exact .pure trivial
  | some group =>
    apply (upheld_normalizeClusterID cID).bind
    intro cluster _
    cases cluster with
    | none => exact .pure trivial
    | some cluster => exact upheld_decideAccess group cluster

theorem upheld_cacheSecret {secret : Secret} (fits : party.FitsSecret secret) :
    Upheld party own (cacheSecret secret) fun _ => True := by
  apply (upheld_lasting secret secretCacheValidity).bind
  rintro record rfl
  apply upheld_now.bind
  intro byGroup _
  apply upheld_now.bind
  intro byPair _
  refine upheld_caches (fun _ => rfl) ?_
  intro server contained
  exact { contained with secretsByID := contained.secretsByID.insert fits fun _ _ => id }

theorem Party.FitsSecret.invalid {secret : Secret} (invalid : secret.valid = false) : party.FitsSecret secret :=
  ⟨fun valid => Bool.noConfusion (invalid.symm.trans valid), fun valid => Bool.noConfusion (invalid.symm.trans valid)⟩

theorem upheld_getSecret (id : String) :
    Upheld party own (getSecret id) fun secret => party.FitsSecret secret ∧ (secret.valid = true → secret.id = id) := by
  have nothing : party.FitsSecret {} := .invalid rfl
  apply Upholds.get.bind
  intro server contained
  apply (upheld_cached (fun secret => secret.id = id ∧ party.FitsSecret secret) (contained.secretsByID id)).bind
  intro found known
  cases found with
  | some secret =>
    obtain ⟨same, fits⟩ := known secret rfl
    exact .pure ⟨fits, fun _ => same⟩
  | none =>
    apply upheld_request.bind
    intro answered _
    refine .ite (fun _ => ?_) fun _ => .pure ⟨nothing, fun impossible => by cases impossible⟩
    apply Upholds.get.bind
    intro server contained
    split
    next => exact .pure ⟨nothing, fun impossible => by cases impossible⟩
    next item found =>
      apply (upheld_cacheSecret (contained.secretRows id item found)).bind
      intro _ _
      exact .pure ⟨contained.secretRows id item found, fun _ => rfl⟩

theorem upheld_addSecret {secret : Secret} (valid : secret.valid = true) (fits : party.FitsSecret secret)
    (mine : own → secret.id ∉ party.secrets) : Upheld party own (addSecret secret) fun _ => True := by
  have put : Upheld party own (modify fun server => { server with database := { server.database with
      secrets := server.database.secrets.insert secret.id (itemOfSecret secret) } }) fun _ => True := by
    apply Upholds.modifies
    intro server contained
    constructor
    · refine { contained with secretRows := ?_ }
      intro id item found
      dsimp only at found
      rw [FiniteMap.lookup_insert] at found
      split at found
      next same =>
        cases found
        have whole : secretOfItem secret.id (itemOfSecret secret) = secret := by
          cases secret
          cases valid
          rfl
        rw [same, whole]
        exact fits
      next => exact contained.secretRows id item found
    · intro is
      refine ⟨fun _ _ => rfl, fun _ _ _ => rfl, fun id closed => ?_, rfl⟩
      dsimp only
      rw [FiniteMap.lookup_insert, if_neg]
      rintro rfl
      exact mine is closed
  refine .ite (fun _ => .throw trivial) fun _ => .ite (fun _ => .throw trivial) fun _ => ?_
  apply upheld_request.bind
  intro answered _
  refine .ite (fun _ => ?_) fun _ => .pure trivial
  apply put.bind
  intro _ _
  exact (upheld_cacheSecret fits).bind fun _ _ => .pure trivial

theorem upheld_removeSecret {secretID : String} (mine : own → secretID ∉ party.secrets) :
    Upheld party own (removeSecret secretID) fun _ => True := by
  have forgotten : Upheld party own (modifySecrets fun caches => caches.forget secretID) fun _ => True := by
    refine upheld_caches (fun _ => rfl) ?_
    intro server contained
    refine { contained with secretsByID := ?_ }
    unfold SecretCaches.forget
    dsimp only
    split
    next => exact contained.secretsByID
    next => exact contained.secretsByID.erase fun _ _ => id
  have deleted : Upheld party own (modify fun server => { server with database := { server.database with
      secrets := AList.erase secretID server.database.secrets } }) fun _ => True := by
    apply Upholds.modifies
    intro server contained
    constructor
    · refine { contained with secretRows := ?_ }
      intro other item found
      dsimp only at found
      rw [FiniteMap.lookup_erase] at found
      split at found
      next => cases found
      next => exact contained.secretRows other item found
    · intro is
      refine ⟨fun _ _ => rfl, fun _ _ _ => rfl, fun other closed => ?_, rfl⟩
      dsimp only
      rw [FiniteMap.lookup_erase, if_neg]
      rintro rfl
      exact mine is closed
  apply forgotten.bind
  intro _ _
  apply upheld_request.bind
  intro answered _
  exact .ite (fun _ => deleted.bind fun _ _ => .pure trivial) fun _ => .pure trivial

private theorem upheld_members {α ι : Type} [Identified α ι] [DecidableEq ι] (category : Category α) :
    Upheld party own (maybeReturnCachedCategoryMembers category) fun _ => True := by
  have each : ∀ entry : CacheRecord α, Upheld party own (do
      let fresh ← entry.current
      return if fresh then some entry.record else none) fun _ => True :=
    fun entry => (upheld_current entry).bind fun _ _ => .pure trivial
  apply upheld_now.bind
  intro reading _
  refine .ite (fun _ => ?_) fun _ => .pure trivial
  exact (Upholds.mapM fun entry _ => each entry).bind fun _ _ => .pure trivial

private theorem upheld_normalizeArguments (group cluster : String) :
    Upheld party own (normalizeArguments group cluster) fun _ => True := by
  have groups : Upheld party own (normalizeGiven (normalizeGroupID · false) group) fun _ => True :=
    .ite (fun _ => .pure trivial) fun _ => (upheld_normalizeGroupID group).mono fun _ _ => trivial
  have clusters : Upheld party own (normalizeGiven normalizeClusterID cluster) fun _ => True :=
    .ite (fun _ => .pure trivial) fun _ => upheld_normalizeClusterID cluster
  apply groups.bind
  intro normalized _
  cases normalized with
  | none => exact .pure trivial
  | some group =>
    apply clusters.bind
    intro normalized _
    cases normalized with
    | none => exact .pure trivial
    | some cluster => exact .pure trivial

/-- A secret is listed with the group of its row. -/
theorem listedSecret_group {group cluster : String} (id : String) {item : SecretItem}
    (selected : listingSelects group cluster item.owningGroup item.cluster = true) :
    (listedSecret group cluster id item).group = item.owningGroup := by
  unfold listingSelects at selected
  unfold listedSecret
  dsimp only
  split
  next => rfl
  next given =>
    rw [if_pos given, Bool.and_eq_true, beq_iff_eq] at selected
    exact selected.1.symm

theorem Party.FitsSecret.listed {group cluster id : String} {item : SecretItem}
    (fits : party.FitsSecret (secretOfItem id item))
    (selected : listingSelects group cluster item.owningGroup item.cluster = true) :
    party.FitsSecret (listedSecret group cluster id item) := by
  have same := listedSecret_group id selected
  refine ⟨fun _ => ?_, fun _ => ?_⟩
  · rw [same]
    exact fits.place rfl
  · rw [same]
    exact fits.data rfl

private theorem upheld_listSecretsQueried (group cluster : String) :
    Upheld party own (listSecretsQueried group cluster) fun _ => True := by
  refine .ite (fun _ => .pure trivial) fun _ => ?_
  apply upheld_request.bind
  intro answered _
  refine .ite (fun _ => ?_) fun _ => .pure trivial
  apply Upholds.get.bind
  intro server contained
  have each : ∀ entry ∈ server.database.secretsSelected group cluster, Upheld party own (do
      let secret := listedSecret group cluster entry.1 entry.2
      cacheSecret secret
      return secret) fun _ => True := by
    intro entry member
    obtain ⟨found, selected⟩ := FiniteMap.mem_select.mp member
    have fits := (contained.secretRows entry.1 entry.2 found).listed selected
    exact (upheld_cacheSecret fits).bind fun _ _ => .pure trivial
  apply (Upholds.mapM each).bind
  intro secrets _
  apply upheld_now.bind
  intro reading _
  have stamped : Upheld party own (modifySecrets fun caches => caches.stamp group cluster (reading + secretCacheValidity))
      fun _ => True := by
    refine upheld_caches (fun _ => rfl) ?_
    intro server contained
    refine { contained with secretsByID := ?_ }
    unfold SecretCaches.stamp
    dsimp only
    split
    next => exact contained.secretsByID
    next => exact contained.secretsByID
  exact stamped.bind fun _ _ => .pure trivial

theorem upheld_listSecrets (group cluster : String) : Upheld party own (listSecrets group cluster) fun _ => True := by
  have listed : ∀ group cluster, Upheld party own (listSecretsNormalized group cluster) fun _ => True := by
    intro group cluster
    unfold listSecretsNormalized
    apply Upholds.get.bind
    intro server _
    dsimp only
    split
    next category found =>
      apply (upheld_members category).bind
      intro members _
      cases members with
      | some members => exact .pure trivial
      | none => exact upheld_listSecretsQueried group cluster
    next => exact upheld_listSecretsQueried group cluster
  refine .ite (fun _ => .throw trivial) fun _ => ?_
  apply (upheld_normalizeArguments group cluster).bind
  intro arguments _
  cases arguments with
  | none => exact .pure trivial
  | some arguments => exact listed _ _

theorem upheld_findSecretByName (group cluster name : String) :
    Upheld party own (findSecretByName group cluster name) fun _ => True :=
  (upheld_listSecrets group cluster).bind fun _ _ => .pure trivial

theorem upheld_catchRuntimeError {α : Type} {good : α → Prop} {program : StoreM α} {handler : String → StoreM α}
    (upheld : Upheld party own program good) (handled : ∀ message, Upheld party own (handler message) good) :
    Upheld party own (catchRuntimeError program handler) good :=
  upheld.tryCatch fun message _ => .ite (fun _ => .throw trivial) fun _ => handled message

theorem upheld_runCommand (outside : Outside) (command : String) (args : List String) (environment : List (String × String)) :
    Upheld party own (runCommand outside command args environment) fun _ => True := by
  unfold runCommand
  split
  next => exact .pure trivial
  next => exact .throw trivial

theorem upheld_kubectl (outside : Outside) (configPath : String) (arguments : List String) :
    Upheld party own (kubectl outside configPath arguments) fun _ => True :=
  (upheld_runCommand _ _ _ _).bind fun _ _ => .pure trivial

theorem upheld_deleteSecret (outside : Outside) {secret : Secret} (force reachable : Bool)
    (mine : own → secret.id ∉ party.secrets) : Upheld party own (deleteSecret outside secret force reachable) fun _ => True := by
  have removed : Upheld party own (do
      unless ← removeSecret secret.id do
        return "Failed to delete secret from database"
      return "") fun _ => True :=
    (upheld_removeSecret mine).bind fun _ _ => .ite (fun _ => .pure trivial) fun _ => .pure trivial
  have withdrawn : ∀ group, Upheld party own (withdrawSecret outside secret group force) fun _ => True := by
    intro group
    apply (upheld_configPathForCluster secret.cluster).bind
    intro configPath _
    exact (upheld_kubectl _ _ _).bind fun _ _ => .pure trivial
  apply (upheld_findGroupByID secret.group).bind
  intro group _
  refine .ite (fun _ => ?_) fun _ => removed
  apply (upheld_catchRuntimeError (withdrawn group) fun _ => .pure trivial).bind
  intro failure _
  exact .ite (fun _ => .pure trivial) fun _ => removed

end

end Slate
