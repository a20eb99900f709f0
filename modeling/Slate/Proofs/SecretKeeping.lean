import Slate.Proofs.DeletedClusters
import Slate.SecretRequests

/-! What is stored under an ID stays as it is, whatever other requests about secrets do, and
however they end. -/

namespace Slate
open Library Handler

section
variable {α : Type} {course : Server → Server → Prop}

theorem leads_onStore {program : StoreM α} (leads : Leads course program) : Leads course (onStore program) := by
  intro server
  have ends := leads server
  unfold Ends at ends ⊢
  unfold onStore
  cases ran : program server with
  | ok value after =>
    rw [ran] at ends
    exact ends
  | error message after =>
    rw [ran] at ends
    exact ends

def ServerCourse {σ : Type} (server : σ → Server) (course : Server → Server → Prop) (before after : σ) : Prop :=
  course (server before) (server after)

instance {σ : Type} (server : σ → Server) [IsPreorder Server course] : IsPreorder σ (ServerCourse server course) where
  refl state := refl (server state)
  trans _ _ _ early late := IsTrans.trans (r := course) _ _ _ early late

abbrev ClusterCourse (course : Server → Server → Prop) : ClusterWorld → ClusterWorld → Prop :=
  ServerCourse ClusterWorld.server course

abbrev SecretCourse (course : Server → Server → Prop) : SecretWorld → SecretWorld → Prop :=
  ServerCourse (fun world => world.server) course

theorem leads_onServer {program : HandlerM α} (leads : Leads course program) :
    Leads (ClusterCourse course) (onServer program) := by
  intro world
  have ends := leads world.server
  unfold Ends at ends ⊢
  unfold onServer
  cases ran : program world.server with
  | ok value after =>
    rw [ran] at ends
    exact ends
  | error halt after =>
    rw [ran] at ends
    exact ends

theorem leads_onCluster {program : ClusterM α} (leads : Leads (ClusterCourse course) program) :
    Leads (SecretCourse course) (onCluster program) := by
  intro world
  have ends := leads world.toClusterWorld
  unfold Ends at ends ⊢
  unfold onCluster
  cases ran : program world.toClusterWorld with
  | ok value after =>
    rw [ran] at ends
    exact ends
  | error halt after =>
    rw [ran] at ends
    exact ends

end

section
variable {σ α : Type} {relation : σ → σ → Prop} [IsPreorder σ relation]

theorem leads_accessing (found : Option α) : Leads relation (accessing found : EStateM Halt σ α) := by
  cases found with
  | none => exact .throw _
  | some value => exact .pure _

theorem leads_refuse (status : Nat) (message : String) : Leads relation (refuse status message : EStateM Halt σ α) :=
  .throw _

theorem leads_require (test : Option Bool) (status : Nat) (message : String) :
    Leads relation (require test status message : EStateM Halt σ Unit) :=
  (leads_accessing _).bind fun _ => .ite (fun _ => .pure _) fun _ => leads_refuse _ _

theorem leads_fromExcept (result : Except String α) : Leads relation (fromExcept result : EStateM Halt σ α) := by
  cases result with
  | ok value => exact .pure _
  | error message => exact .throw _

theorem leads_catchInHandler {program : EStateM Halt σ α} {handler : String → EStateM Halt σ α}
    (first : Leads relation program) (rest : ∀ message, Leads relation (handler message)) :
    Leads relation (catchInHandler program handler) := by
  refine first.tryCatch fun halt => ?_
  cases halt with
  | thrown message => exact .ite (fun _ => .throw _) fun _ => rest message
  | response response => exact .throw _
  | assertion => exact .throw _

private theorem leads_checkSecretMember (member : String × Json) {course : Server → Server → Prop} [IsPreorder Server course] :
    Leads course (checkSecretMember member) :=
  (leads_require _ _ _).bind fun _ => (leads_require _ _ _).bind fun _ => (leads_require _ _ _).bind fun _ =>
    (leads_require _ _ _).bind fun _ => leads_require _ _ _

end

/-- Whatever the table or the cache has under the ID has data of this kind. -/
structure DataKept (id : String) (data : String → Prop) (server : Server) : Prop where
  stored : ∀ item, server.database.secrets.lookup id = some item → data item.contents
  known : ∀ entry, server.secrets.secretCache.lookup id = some entry → data entry.record.data

abbrev KeepsData (id : String) (data : String → Prop) : Server → Server → Prop := Preserving (DataKept id data)

section
variable {id : String} {data : String → Prop}

theorem looking_kept : Looking (KeepsData id data) where
  tick _ kept := ⟨kept.stored, kept.known⟩
  answered _ kept := ⟨kept.stored, kept.known⟩
  groups _ _ kept := ⟨kept.stored, kept.known⟩
  clusters _ _ _ kept := ⟨kept.stored, kept.known⟩

private theorem removing_kept (cID : String) : Removing cID (KeepsData id data) where
  toLooking := looking_kept
  access _ _ _ kept := ⟨kept.stored, kept.known⟩
  revoked _ _ kept := ⟨kept.stored, kept.known⟩
  dropped _ kept := ⟨kept.stored, kept.known⟩
  locations _ kept := ⟨kept.stored, kept.known⟩

theorem leads_userInGroup_kept (uID groupID : String) : Leads (KeepsData id data) (userInGroup uID groupID) := by
  have passing : Passing (KeepsData id data) := looking_kept.toPassing
  exact leads_userInGroup looking_kept.caching (fun _ _ => (leads_lasting passing _ _).bind fun _ =>
    (leads_now passing).bind fun _ => .modifies fun _ kept => ⟨kept.stored, kept.known⟩) _ _

private theorem leads_groupAllowedOnCluster_kept (groupID cID : String) :
    Leads (KeepsData id data) (groupAllowedOnCluster groupID cID) :=
  leads_groupAllowedOnCluster looking_kept (fun cluster => leads_cacheAccess (removing_kept cluster)) _ _

/-- A secret that is cached has the data of its row. -/
theorem leads_cacheSecret_kept {secret : Secret} (same : secret.id = id → data secret.data) :
    Leads (KeepsData id data) (cacheSecret secret) := by
  have passing : Passing (KeepsData id data) := looking_kept.toPassing
  unfold cacheSecret CacheRecord.lasting
  simp only [bind_assoc, pure_bind]
  refine (leads_now passing).bind fun _ => (leads_now passing).bind fun _ => (leads_now passing).bind fun _ => ?_
  refine .modifies fun server kept => ⟨kept.stored, fun entry there => ?_⟩
  unfold SecretCaches.replace at there
  dsimp only at there
  rw [FiniteMap.lookup_insert] at there
  split at there
  next here =>
    cases there
    exact same here.symm
  next => exact kept.known entry there

theorem leads_getSecret_kept (other : String) : Leads (KeepsData id data) (getSecret other) := by
  have passing : Passing (KeepsData id data) := looking_kept.toPassing
  unfold getSecret
  refine Leads.get.bind fun _ => (leads_cached passing _ _).bind fun found => ?_
  cases found with
  | some secret => exact .pure _
  | none =>
    refine (leads_request passing).bind fun _ => .ite (fun _ => .get_bind fun server kept => ?_) fun _ => .pure _
    split
    next => exact .pure _
    next item found =>
      refine (leads_cacheSecret_kept ?_).bind fun _ => .pure _
      rintro rfl
      exact kept.stored item found

private theorem leads_listSecretsNormalized_kept (group cluster : String) :
    Leads (KeepsData id data) (listSecretsNormalized group cluster) := by
  have passing : Passing (KeepsData id data) := looking_kept.toPassing
  have queried : Leads (KeepsData id data) (listSecretsQueried group cluster) := by
    unfold listSecretsQueried
    refine .ite (fun _ => .pure _) fun _ => (leads_request passing).bind fun _ => .ite (fun _ => ?_) fun _ => .pure _
    refine .get_bind fun server kept => Leads.bind (.mapM fun entry member => ?_) fun _ => ?_
    · refine (leads_cacheSecret_kept ?_).bind fun _ => .pure _
      rintro rfl
      exact kept.stored entry.2 (FiniteMap.mem_select.mp member).1
    · refine (leads_now passing).bind fun _ => Leads.bind ?_ fun _ => .pure _
      refine .modifies fun server kept => ⟨kept.stored, fun entry there => kept.known entry ?_⟩
      unfold SecretCaches.stamp at there
      split at there <;> exact there
  unfold listSecretsNormalized
  refine Leads.get.bind fun server => ?_
  dsimp only
  split
  next category found =>
    refine (leads_members passing category).bind fun members => ?_
    cases members with
    | some members => exact .pure _
    | none => exact queried
  next => exact queried

theorem leads_listSecrets_kept (group cluster : String) : Leads (KeepsData id data) (listSecrets group cluster) := by
  unfold listSecrets
  refine .ite (fun _ => .throw _) fun _ => (leads_normalizeArguments looking_kept _ _).bind fun arguments => ?_
  cases arguments with
  | none => exact .pure _
  | some arguments => exact leads_listSecretsNormalized_kept _ _

private theorem leads_findSecretByName_kept (group cluster name : String) :
    Leads (KeepsData id data) (findSecretByName group cluster name) :=
  (leads_listSecrets_kept _ _).bind fun _ => .pure _

theorem leads_removeSecret_kept (other : String) : Leads (KeepsData id data) (removeSecret other) := by
  have passing : Passing (KeepsData id data) := looking_kept.toPassing
  unfold removeSecret
  refine Leads.bind (.modifies fun server kept => ⟨kept.stored, fun entry there => kept.known entry ?_⟩) fun _ =>
    (leads_request passing).bind fun _ => .ite (fun _ => Leads.bind (.modifies fun server kept => ⟨fun item there =>
      kept.stored item ?_, kept.known⟩) fun _ => .pure _) fun _ => .pure _
  · unfold SecretCaches.forget at there
    dsimp only at there
    split at there
    next => exact there
    next =>
      dsimp only at there
      rw [FiniteMap.lookup_erase] at there
      split at there
      next => cases there
      next => exact there
  · rw [FiniteMap.lookup_erase] at there
    split at there
    next => cases there
    next => exact there

theorem leads_addSecret_kept {secret : Secret} (fresh : secret.id ≠ id) : Leads (KeepsData id data) (addSecret secret) := by
  have passing : Passing (KeepsData id data) := looking_kept.toPassing
  have inserted : Leads (KeepsData id data) (modify fun server => { server with database := { server.database with
      secrets := server.database.secrets.insert secret.id (itemOfSecret secret) } } : StoreM Unit) := by
    refine .modifies fun server kept => ⟨fun item there => kept.stored item ?_, kept.known⟩
    rw [FiniteMap.lookup_insert, if_neg fresh.symm] at there
    exact there
  unfold addSecret
  refine .ite (fun _ => .throw _) fun _ => .ite (fun _ => .throw _) fun _ => ?_
  refine (leads_request passing).bind fun _ => .ite (fun _ => inserted.bind fun _ => ?_) fun _ => .pure _
  exact (leads_cacheSecret_kept fun same => absurd same fresh).bind fun _ => .pure _

private theorem leads_checkOptional (metadata : Json) (name message : String) {course : Server → Server → Prop}
    [IsPreorder Server course] : Leads course (checkOptional metadata name message) := by
  unfold checkOptional
  split
  next => exact .pure _
  next => exact leads_require _ _ _

theorem leads_checkSecretBody (body : Json) {course : Server → Server → Prop} [IsPreorder Server course] :
    Leads course (checkSecretBody body) := by
  have required : ∀ metadata name missing incorrect, Leads course (checkRequired metadata name missing incorrect) :=
    fun _ _ _ _ => (leads_require _ _ _).bind fun _ => leads_checkOptional _ _ _
  have metadata : ∀ missing incorrect, Leads course (requestMetadata body missing incorrect) := fun _ _ =>
    (leads_require _ _ _).bind fun _ => (leads_require _ _ _).bind fun _ => (leads_accessing _).bind fun _ =>
      (leads_require _ _ _).bind fun _ => .pure _
  unfold checkSecretBody
  refine (metadata _ _).bind fun metadata => (required _ _ _ _).bind fun _ => (required _ _ _ _).bind fun _ => ?_
  refine (required _ _ _ _).bind fun _ => (leads_require _ _ _).bind fun _ => (leads_require _ _ _).bind fun _ => ?_
  split
  next => exact (Leads.forM fun member _ => leads_checkSecretMember member).bind fun _ => .pure _
  next => exact leads_refuse _ _
  next => exact (leads_checkOptional _ _ _).bind fun _ => .pure _

theorem leads_requestedSecret_kept (user : User) (value : UInt64) (ctime : String) (body : Json) :
    Leads (KeepsData id data) (requestedSecret user value ctime body) := by
  unfold requestedSecret
  refine (leads_checkSecretBody body).bind fun checked => (leads_accessing _).bind fun name => ?_
  refine Leads.bind ((leads_require _ _ _).bind fun _ => leads_require _ _ _) fun _ => ?_
  refine (leads_onStore (leads_getGroup looking_kept.caching _)).bind fun group => (leads_require _ _ _).bind fun _ => ?_
  refine (leads_onStore (leads_userInGroup_kept _ _)).bind fun _ => (leads_require _ _ _).bind fun _ => ?_
  refine (leads_onStore (leads_getCluster looking_kept _)).bind fun cluster => (leads_require _ _ _).bind fun _ => ?_
  have named : Leads (KeepsData id data) (do
      let existing ← onStore (findSecretByName group.id cluster.id name)
      require (some !existing.valid) 400 "A secret with the same name already exists"
      return (({ valid := true, id := generateSecretID value, name, group := group.id, cluster := cluster.id, ctime } : Secret),
        group, checked.2)) :=
    (leads_onStore (leads_findSecretByName_kept _ _ _)).bind fun _ => (leads_require _ _ _).bind fun _ => .pure _
  refine .ite (fun _ => ?_) fun _ => named
  exact (leads_onStore (leads_groupAllowedOnCluster_kept _ _)).bind fun _ => (leads_require _ _ _).bind fun _ => named

end

end Slate
