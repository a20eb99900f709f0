import Slate.Proofs.SecretKeeping

/-! What is only read changes no table, whatever it caches on the way. -/

namespace Slate
open Library Handler

/-- Time passes, requests are answered and caches change, but no table does. -/
structure OnlyReads (before after : Server) : Prop extends Later before after where
  database : after.database = before.database

namespace OnlyReads

theorem of_same {before after : Server} (database : after.database = before.database) (clock : after.clock = before.clock)
    (outcomes : after.outcomes = before.outcomes) : OnlyReads before after := ⟨.of_eq clock outcomes, database⟩

instance : IsPreorder Server OnlyReads where
  refl _ := .of_same rfl rfl rfl
  trans _ _ _ early late := ⟨early.toLater.trans late.toLater, late.database.trans early.database⟩

theorem looking : Looking OnlyReads where
  tick server := ⟨.tick server, rfl⟩
  answered server := ⟨.answered server, rfl⟩
  groups _ _ := .of_same rfl rfl rfl
  clusters _ _ _ := .of_same rfl rfl rfl

theorem passing : Passing OnlyReads := looking.toPassing

end OnlyReads

private theorem leads_modifyInstances_reads (change : InstanceCaches → InstanceCaches) : Leads OnlyReads (modifyInstances change) :=
  .modifies fun _ => .of_same rfl rfl rfl

private theorem leads_modifySecrets_reads (change : SecretCaches → SecretCaches) : Leads OnlyReads (modifySecrets change) :=
  .modifies fun _ => .of_same rfl rfl rfl

private theorem leads_modifyVolumes_reads (change : VolumeCaches → VolumeCaches) : Leads OnlyReads (modifyVolumes change) :=
  .modifies fun _ => .of_same rfl rfl rfl

theorem leads_userInGroup_reads (uID groupID : String) : Leads OnlyReads (userInGroup uID groupID) :=
  leads_userInGroup OnlyReads.looking.caching (fun _ _ => (leads_lasting OnlyReads.passing _ _).bind fun _ =>
    (leads_now OnlyReads.passing).bind fun _ => .modifies fun _ => .of_same rfl rfl rfl) _ _

theorem leads_groupAllowedOnCluster_reads (groupID cID : String) : Leads OnlyReads (groupAllowedOnCluster groupID cID) :=
  leads_groupAllowedOnCluster OnlyReads.looking (fun _ _ => (leads_lasting OnlyReads.passing _ _).bind fun _ =>
    (leads_now OnlyReads.passing).bind fun _ => .modifies fun _ => .of_same rfl rfl rfl) _ _

theorem leads_groupMayUseApplication_reads (groupID cID appName : String) :
    Leads OnlyReads (groupMayUseApplication groupID cID appName) := by
  have read : ∀ group cluster, Leads OnlyReads (readApplications group cluster) := by
    intro group cluster
    have queried : Leads OnlyReads (applicationsQuery group cluster) :=
      (leads_request OnlyReads.passing).bind fun _ => .ite (fun _ => Leads.get.bind fun _ => .pure _) fun _ => .pure _
    have learned : ∀ applications, Leads OnlyReads (cacheApplications group cluster applications) := fun applications =>
      (leads_lasting OnlyReads.passing _ _).bind fun _ => .modifies fun _ => .of_same rfl rfl rfl
    have cachedApplications : Leads OnlyReads (applicationsCached group cluster) :=
      Leads.get.bind fun _ => leads_cached OnlyReads.passing _ _
    apply cachedApplications.bind
    intro found
    cases found with
    | some applications => exact .pure _
    | none =>
      apply queried.bind
      intro found
      cases found with
      | none => exact .pure _
      | some applications => exact (learned _).bind fun _ => .pure _
  have listed : Leads OnlyReads (listApplicationsGroupMayUseOnCluster groupID cID) := by
    apply (leads_normalizeGroupID OnlyReads.looking.caching _ _).bind
    intro normalized
    cases normalized with
    | none => exact .pure _
    | some group =>
      apply (leads_normalizeClusterID OnlyReads.looking _).bind
      intro normalized
      cases normalized with
      | none => exact .pure _
      | some cluster => exact read group cluster
  exact listed.bind fun _ => .pure _

theorem leads_listVolumes_reads (group cluster : String) :
    Leads OnlyReads (listPersistentVolumeClaimsByClusterOrGroup group cluster) := by
  have cacheListed : ∀ pvc, Leads OnlyReads (cacheListedVolume pvc) := by
    intro pvc
    apply (leads_lasting OnlyReads.passing _ _).bind
    intro _
    exact (leads_now OnlyReads.passing).bind fun _ => (leads_now OnlyReads.passing).bind fun _ => leads_modifyVolumes_reads _
  have readRow : ∀ id item, Leads OnlyReads (readVolume id item) := by
    intro id item
    unfold readVolume
    split
    next => exact .pure _
    next => exact .throw _
  have listed : ∀ kind group cluster, Leads OnlyReads (listVolumesNormalized kind group cluster) := by
    intro kind group cluster
    apply Leads.get.bind
    intro server
    apply (leads_members OnlyReads.passing _).bind
    intro found
    cases found with
    | some members => exact .pure _
    | none =>
      refine (leads_request OnlyReads.passing).bind fun _ => .ite (fun _ => Leads.get.bind fun _ => .ite (fun _ => .pure _) fun _ => ?_)
        fun _ => .pure _
      apply Leads.bind (.mapM fun entry _ => (readRow _ _).bind fun _ => (cacheListed _).bind fun _ => .pure _)
      intro _
      exact (leads_now OnlyReads.passing).bind fun _ => (leads_modifyVolumes_reads _).bind fun _ => .pure _
  apply (leads_normalizeArguments OnlyReads.looking _ _).bind
  intro normalized
  cases normalized with
  | none => exact .pure _
  | some normalized =>
    dsimp only
    split
    next => exact .pure _
    next => exact listed _ _ _

theorem leads_listInstances_reads (group cluster : String) :
    Leads OnlyReads (listApplicationInstancesByClusterOrGroup group cluster) := by
  have caching : ∀ inst, Leads OnlyReads (cacheInstance inst) := by
    intro inst
    apply (leads_lasting OnlyReads.passing _ _).bind
    intro _
    refine (leads_now OnlyReads.passing).bind fun _ => (leads_now OnlyReads.passing).bind fun _ => ?_
    exact (leads_now OnlyReads.passing).bind fun _ => (leads_now OnlyReads.passing).bind fun _ => leads_modifyInstances_reads _
  have listed : ∀ kind group cluster, Leads OnlyReads (listInstancesNormalized kind group cluster) := by
    intro kind group cluster
    apply Leads.get.bind
    intro server
    apply (leads_members OnlyReads.passing _).bind
    intro found
    cases found with
    | some members => exact .pure _
    | none =>
      refine (leads_request OnlyReads.passing).bind fun _ => .ite (fun _ => Leads.get.bind fun _ => .ite (fun _ => .pure _) fun _ => ?_)
        fun _ => .pure _
      apply Leads.bind (.mapM fun entry _ => (caching _).bind fun _ => .pure _)
      intro _
      exact (leads_now OnlyReads.passing).bind fun _ => (leads_modifyInstances_reads _).bind fun _ => .pure _
  apply (leads_normalizeArguments OnlyReads.looking _ _).bind
  intro normalized
  cases normalized with
  | none => exact .pure _
  | some normalized =>
    dsimp only
    split
    next => exact .pure _
    next => exact listed _ _ _

private theorem leads_cacheSecret_reads (secret : Secret) : Leads OnlyReads (cacheSecret secret) := by
  apply (leads_lasting OnlyReads.passing _ _).bind
  intro _
  exact (leads_now OnlyReads.passing).bind fun _ => (leads_now OnlyReads.passing).bind fun _ => leads_modifySecrets_reads _

theorem leads_listSecrets_reads (group cluster : String) : Leads OnlyReads (listSecrets group cluster) := by
  have queried : ∀ group cluster, Leads OnlyReads (listSecretsQueried group cluster) := by
    intro group cluster
    unfold listSecretsQueried
    refine .ite (fun _ => .pure _) fun _ => (leads_request OnlyReads.passing).bind fun _ => .ite (fun _ => ?_) fun _ => .pure _
    apply Leads.get.bind
    intro server
    apply Leads.bind (.mapM fun entry _ => (leads_cacheSecret_reads _).bind fun _ => .pure _)
    intro _
    exact (leads_now OnlyReads.passing).bind fun _ => (leads_modifySecrets_reads _).bind fun _ => .pure _
  have listed : ∀ group cluster, Leads OnlyReads (listSecretsNormalized group cluster) := by
    intro group cluster
    apply Leads.get.bind
    intro server
    dsimp only
    split
    next category found =>
      apply (leads_members OnlyReads.passing category).bind
      intro members
      cases members with
      | some members => exact .pure _
      | none => exact queried group cluster
    next => exact queried group cluster
  apply Leads.ite (fun _ => .throw _)
  intro _
  apply (leads_normalizeArguments OnlyReads.looking _ _).bind
  intro normalized
  cases normalized with
  | none => exact .pure _
  | some normalized => exact listed _ _

theorem leads_getSecret_reads (id : String) : Leads OnlyReads (getSecret id) := by
  apply Leads.get.bind
  intro server
  apply (leads_cached OnlyReads.passing _ _).bind
  intro found
  cases found with
  | some secret => exact .pure _
  | none =>
    refine (leads_request OnlyReads.passing).bind fun _ => .ite (fun _ => Leads.get.bind fun server => ?_) fun _ => .pure _
    split
    next => exact .pure _
    next => exact (leads_cacheSecret_reads _).bind fun _ => .pure _

end Slate
