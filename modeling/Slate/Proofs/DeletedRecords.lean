import Slate.ClusterSetup
import Slate.Proofs.ClusterCoherence
import Slate.Proofs.Courses

/-! What deleting an instance, a secret or a volume claim leaves, when the caches of
clusters are coherent and every program can be run. -/

namespace Slate
open Library

def Outside.Able (outside : Outside) : Prop :=
  ∀ command args environment, ∃ result, outside.run command args environment = .ok result

theorem ClustersCoherent.past {before after : Server} (coherent : ClustersCoherent before)
    (past : Past clusterView before after) : ClustersCoherent after := by
  obtain ⟨later, same⟩ := past
  refine ⟨later.steady coherent.steady, later.succeeding coherent.succeeding, ?_⟩
  rw [same]
  have stamp : after.clusters.expirationTime = before.clusters.expirationTime := congrArg ClusterView.expirationTime same
  rw [stamp]
  exact { coherent.view with listing := fun trusted => coherent.view.listing (later.trusted trusted) }

/-- What is thrown is a `runtime_error`. -/
structure Catchable (thrown : String) : Prop where
  found : thrown ≠ keyNotFound
  unasserted : thrown ≠ failedAssertion

/-- The caches of clusters stay coherent, and what is thrown can be caught. -/
def Regular {α : Type} (program : StoreM α) : Prop :=
  ∀ server, ClustersCoherent server → Ends program server (fun _ after => ClustersCoherent after) fun thrown after =>
    Catchable thrown ∧ ClustersCoherent after

namespace Regular

variable {α β : Type}

theorem pure (value : α) : Regular (Pure.pure value : StoreM α) := fun _ coherent => coherent

theorem throw {message : String} (known : Catchable message) : Regular (MonadExcept.throw message : StoreM α) :=
  fun _ coherent => ⟨known, coherent⟩

theorem bind {program : StoreM α} {next : α → StoreM β} (first : Regular program)
    (rest : ∀ value, Regular (next value)) : Regular (program >>= next) := by
  intro server coherent
  rw [ends_bind]
  exact (first server coherent).mono (fun value middle kept => rest value middle kept) fun _ _ => id

theorem ite {condition : Prop} [Decidable condition] {first second : StoreM α} (yes : condition → Regular first)
    (no : ¬ condition → Regular second) : Regular (if condition then first else second) := by
  split
  next holds => exact yes holds
  next fails => exact no fails

theorem of_passes {program : StoreM α} (passes : Passes clusterView program) : Regular program :=
  fun server coherent => ((passes server).mono fun _ _ past => coherent.past past).ends

private theorem of_returns {program : StoreM α}
    (returns : ∀ server, ClustersCoherent server → Returns program server fun _ after => ClustersCoherent after) :
    Regular program := fun server coherent => (returns server coherent).ends

end Regular

private theorem passes_cached {α : Type} (cache : CuckooHashMap String (CacheRecord α)) (key : String) :
    Passes clusterView (cached cache key) := by
  unfold cached
  cases cache.lookup key with
  | none => exact .pure _
  | some entry => exact (Passes.current entry).bind fun _ => .ite (fun _ => .pure _) fun _ => .pure _

theorem passes_cacheGroup (group : Group) : Passes clusterView (cacheGroup group) :=
  (Passes.lasting _ _).bind fun _ => .modifies (fun _ => rfl) (fun _ => rfl) fun _ => rfl

theorem passes_findGroupByID (id : String) : Passes clusterView (findGroupByID id) := by
  unfold findGroupByID
  refine Passes.gets.bind fun server => (passes_cached _ _).bind fun found => ?_
  cases found with
  | some group => exact .pure _
  | none =>
    refine Passes.request.bind fun _ => .ite (fun _ => Passes.gets.bind fun server => ?_) fun _ => .pure _
    split
    next => exact .pure _
    next => exact (passes_cacheGroup _).bind fun _ => .pure _

private theorem regular_findGroupByName (name : String) : Regular (findGroupByName name) := by
  have message : Catchable ("Group name \"" ++ name ++ "\" is not unique!") := by
    constructor <;>
    · intro same
      have heads := congrArg (fun text => text.toList.head?) same
      simp [keyNotFound, failedAssertion, String.toList_append] at heads
  unfold findGroupByName
  refine (Regular.of_passes Passes.gets).bind fun server => (Regular.of_passes (passes_cached _ _)).bind fun found => ?_
  cases found with
  | some group => exact .pure _
  | none =>
    refine (Regular.of_passes Passes.request).bind fun _ => .ite (fun _ => ?_) fun _ => .pure _
    refine (Regular.of_passes Passes.gets).bind fun server => ?_
    split
    next => exact .pure _
    next => exact (Regular.of_passes (passes_cacheGroup _)).bind fun _ => .pure _
    next => exact .throw message

theorem regular_getGroup (idOrName : String) : Regular (getGroup idOrName) :=
  .ite (fun _ => .of_passes (passes_findGroupByID _)) fun _ => regular_findGroupByName _

private theorem regular_getCluster (idOrName : String) : Regular (getCluster idOrName) := by
  refine .ite (fun _ => .of_returns fun server coherent => ?_) fun _ => .of_returns fun server coherent => ?_
  · exact (returns_findClusterByID_exact coherent _).mono fun _ _ found => found.1.coherent
  · exact (returns_findClusterByName_exact coherent _).mono fun _ _ found => found.1.coherent

theorem regular_configPathForCluster (cID : String) : Regular (configPathForCluster cID) := by
  intro server coherent
  cases known : server.database.cluster cID with
  | some cluster =>
    exact ((returns_configPathForCluster_exact coherent known).mono fun _ _ kept => kept.2.coherent).ends
  | none =>
    have message : Catchable (cID ++ " does not exist; cannot get config data") := by
      constructor <;>
      · intro same
        have ends := congrArg (fun text => text.toList.getLast?) same
        simp [keyNotFound, failedAssertion, String.toList_append] at ends
    unfold configPathForCluster
    rw [ends_bind]
    refine (returns_findClusterByID_exact coherent cID).ends.mono ?_ fun _ _ => id
    rintro cluster after ⟨read, same, -⟩
    rw [known, Option.getD_none] at same
    rw [same]
    exact ⟨message, read.coherent⟩

section
variable {outside : Outside} (able : outside.Able)
include able

theorem regular_runCommand (command : String) (args : List String) (environment : List (String × String)) :
    Regular (runCommand outside command args environment) := by
  obtain ⟨result, ran⟩ := able command args environment
  unfold runCommand
  rw [ran]
  exact .pure _

theorem regular_kubectl (configPath : String) (arguments : List String) : Regular (kubectl outside configPath arguments) :=
  (regular_runCommand able _ _ _).bind fun _ => .pure _

private theorem regular_getHelmMajorVersion : Regular (getHelmMajorVersion outside) := by
  have message : Catchable helmVersionError := ⟨by decide, by decide⟩
  refine (regular_runCommand able _ _ _).bind fun result => ?_
  cases stated : statedVersion result.output with
  | ok version => exact .pure _
  | error thrown =>
    rw [statedVersion_error stated]
    exact .throw message

private theorem regular_uninstall (inst : ApplicationInstance) (force : Bool) : Regular (uninstall outside inst force) := by
  refine (regular_getGroup _).bind fun group => (regular_configPathForCluster _).bind fun _ => ?_
  refine (regular_getCluster _).bind fun cluster => (regular_getHelmMajorVersion able).bind fun version => ?_
  refine Regular.bind ?_ fun result => .ite (fun _ => .pure _) fun _ => .pure _
  exact (regular_getHelmMajorVersion able).bind fun _ => regular_runCommand able _ _ _

private theorem regular_withdrawSecret (secret : Secret) (group : Group) (force : Bool) :
    Regular (withdrawSecret outside secret group force) :=
  (regular_configPathForCluster _).bind fun _ => (regular_kubectl able _ _).bind fun _ => .pure _

private theorem regular_withdrawVolume (parse : String → Json) (volume : PersistentVolumeClaim) (group : Group) (force : Bool) :
    Regular (withdrawVolume outside parse volume group force) := by
  refine (regular_configPathForCluster _).bind fun _ => (regular_kubectl able _ _).bind fun pods => ?_
  split
  next => exact .pure _
  next => exact (regular_kubectl able _ _).bind fun _ => .pure _
  next => exact .pure _
end

/-- The instance and its configuration are gone, and nothing else of the kind. -/
structure InstanceErased (id : String) (before after : Server) : Prop extends Touching (some .application) before after where
  table : after.database.instances = AList.erase id before.database.instances
  configs : after.database.instanceConfigs = AList.erase id before.database.instanceConfigs
  caches : after.instances = before.instances.forget id

structure SecretErased (id : String) (before after : Server) : Prop extends Touching (some .secret) before after where
  table : after.database.secrets = AList.erase id before.database.secrets

structure VolumeErased (id : String) (before after : Server) : Prop extends Touching (some .volume) before after where
  table : after.database.volumes = AList.erase id before.database.volumes
  caches : after.volumes = before.volumes.forget id

section
variable {server : Server}

/-- What is caught changes nothing that a deletion is about. -/
theorem returns_caught {α : Type} (coherent : ClustersCoherent server) {program : StoreM α} (answer : String → α)
    (regular : Regular program) (leads : Leads (Touching none) program) :
    Returns (catchRuntimeError program fun thrown => return answer thrown) server fun _ after =>
      ClustersCoherent after ∧ Touching none server after := by
  unfold catchRuntimeError
  rw [returns_tryCatch]
  refine ((regular server coherent).and (leads server)).mono (fun _ _ => id) ?_
  rintro thrown after ⟨⟨known, kept⟩, same⟩
  rw [if_neg known.found]
  exact ⟨kept, same⟩

/-- A deletion that is forced goes on whatever happens on the cluster. -/
theorem yields_caught {α : Type} {program : StoreM α} (answer : String → α) {good : α → Prop}
    (answers : Yields program server fun message _ => good message) (caught : ∀ thrown, good (answer thrown)) :
    Yields (catchRuntimeError program fun thrown => return answer thrown) server fun message _ => good message := by
  unfold catchRuntimeError
  rw [yields_tryCatch]
  unfold Ends
  cases ran : program server with
  | ok message after => exact answers.of_ok ran
  | error thrown after =>
    change Yields (if thrown = keyNotFound then throw thrown else pure (answer thrown)) after fun message _ => good message
    rw [yields_ite]
    split
    next => trivial
    next => exact caught thrown

private theorem yields_uninstall (outside : Outside) (inst : ApplicationInstance) :
    Yields (uninstall outside inst true) server fun message _ => message = "" := by
  unfold uninstall
  refine Yields.after fun group _ => Yields.after fun _ _ => Yields.after fun cluster _ => ?_
  refine Yields.after fun version _ => Yields.after fun result _ => ?_
  rw [yields_ite]
  split <;> rfl

/-- Whatever pods `kubectl` lists with this configuration, the list can be gone through and
none of them mounts a claim of this name. -/
def Unused (outside : Outside) (parse : String → Json) (configPath name : String) : Prop :=
  ∀ nspace pods, outside.kubectlAnswer configPath (podsArguments nspace) = .ok pods →
    podsMountedBy name (parse pods.output) = some []

private theorem yields_withdrawVolume (coherent : ClustersCoherent server) {outside : Outside} {parse : String → Json}
    {volume : PersistentVolumeClaim} {cluster : Cluster} (known : server.database.cluster volume.cluster = some cluster)
    (free : Unused outside parse cluster.config volume.name) (group : Group) :
    Yields (withdrawVolume outside parse volume group true) server fun withdrawn _ => withdrawn = some "" := by
  unfold withdrawVolume
  rw [yields_bind]
  refine (returns_configPathForCluster_exact coherent known).yields.mono ?_
  rintro config middle ⟨rfl, -⟩
  rw [yields_bind, kubectl_answer]
  cases answered : outside.kubectlAnswer cluster.config (podsArguments group.namespaceName) with
  | error thrown => exact trivial
  | ok pods =>
    change Yields (pure pods) middle _
    rw [yields_pure, free _ pods answered]
    exact Yields.after fun _ _ => by simp

private theorem returns_removeApplicationInstance_exactly (succeeding : Succeeding server) (id : String) :
    Returns (removeApplicationInstance id) server fun removed after => removed = true ∧ InstanceErased id server after ∧
      Past clusterView server after := by
  have first : server.outcomes 0 = true := succeeding 0
  have second : server.outcomes 1 = true := succeeding 1
  have later := (Later.answered server).trans (.answered _)
  unfold removeApplicationInstance modifyInstances
  simp only [returns_bind, returns_modify, returns_request, returns_ite, returns_pure, answered_outcomes, first, second,
    if_true]
  exact ⟨trivial, ⟨⟨later.trans (.of_eq rfl rfl), fun other => absurd rfl other, fun _ => ⟨rfl, rfl⟩, fun _ => ⟨rfl, rfl⟩,
    rfl, rfl⟩, rfl, rfl, rfl⟩, later.trans (.of_eq rfl rfl), rfl⟩

private theorem returns_removeSecret_exactly (succeeding : Succeeding server) (id : String) :
    Returns (removeSecret id) server fun removed after => removed = true ∧ SecretErased id server after ∧
      Past clusterView server after := by
  have first : server.outcomes 0 = true := succeeding 0
  have later := Later.answered server
  unfold removeSecret modifySecrets
  simp only [returns_bind, returns_modify, returns_request, returns_ite, returns_pure, first, if_true]
  exact ⟨trivial, ⟨⟨later.trans (.of_eq rfl rfl), fun _ => ⟨rfl, rfl, rfl⟩, fun other => absurd rfl other,
    fun _ => ⟨rfl, rfl⟩, rfl, rfl⟩, rfl⟩, later.trans (.of_eq rfl rfl), rfl⟩

private theorem returns_removePersistentVolumeClaim_exactly (succeeding : Succeeding server) (id : String) :
    Returns (removePersistentVolumeClaim id) server fun removed after => removed = true ∧ VolumeErased id server after ∧
      Past clusterView server after := by
  have first : server.outcomes 0 = true := succeeding 0
  have later := Later.answered server
  unfold removePersistentVolumeClaim modifyVolumes
  simp only [returns_bind, returns_modify, returns_request, returns_ite, returns_pure, first, if_true]
  exact ⟨trivial, ⟨⟨later.trans (.of_eq rfl rfl), fun _ => ⟨rfl, rfl, rfl⟩, fun _ => ⟨rfl, rfl⟩,
    fun other => absurd rfl other, rfl, rfl⟩, rfl, rfl⟩, later.trans (.of_eq rfl rfl), rfl⟩

-- What happens on the cluster before the record is erased changes nothing about it.
theorem InstanceErased.after {id : String} {before middle after : Server} (same : Touching none before middle)
    (erased : InstanceErased id middle after) : InstanceErased id before after where
  toTouching := same.widen.trans erased.toTouching
  table := by rw [erased.table, (same.applications nofun).1]
  configs := by rw [erased.configs, (same.applications nofun).2.1]
  caches := by rw [erased.caches, (same.applications nofun).2.2]

theorem SecretErased.after {id : String} {before middle after : Server} (same : Touching none before middle)
    (erased : SecretErased id middle after) : SecretErased id before after where
  toTouching := same.widen.trans erased.toTouching
  table := by rw [erased.table, (same.secrets nofun).1]

theorem VolumeErased.after {id : String} {before middle after : Server} (same : Touching none before middle)
    (erased : VolumeErased id middle after) : VolumeErased id before after where
  toTouching := same.widen.trans erased.toTouching
  table := by rw [erased.table, (same.volumes nofun).1]
  caches := by rw [erased.caches, (same.volumes nofun).2]

variable (coherent : ClustersCoherent server) {outside : Outside} (able : outside.Able)
include coherent able

theorem returns_deleteApplicationInstance (inst : ApplicationInstance) (force : Bool) :
    Returns (deleteApplicationInstance outside inst force) server fun result after => ClustersCoherent after ∧
      (force = true → result = "") ∧ (result = "" → InstanceErased inst.id server after) ∧
      (result ≠ "" → Touching none server after) := by
  have forced : Yields (catchRuntimeError (uninstall outside inst force) fun thrown =>
      return if force then "" else "Failed to delete instance using helm: " ++ thrown) server fun failure _ =>
        force = true → failure = "" := by
    cases force with
    | true => exact (yields_caught _ (yields_uninstall outside inst) fun _ => rfl).mono fun _ _ none _ => none
    | false => exact (Yields.trivial _ _).mono fun _ _ _ => nofun
  have caught := (returns_caught coherent (fun thrown => if force then "" else "Failed to delete instance using helm: " ++ thrown)
    (regular_uninstall able inst force) (leads_uninstall looking_touching outside inst force)).also forced
  unfold deleteApplicationInstance
  rw [returns_bind]
  refine caught.mono ?_
  rintro failure middle ⟨⟨kept, same⟩, unlessForced⟩
  by_cases failed : failure = ""
  · rw [if_neg (not_not.mpr failed), returns_bind]
    refine (returns_removeApplicationInstance_exactly kept.succeeding inst.id).mono ?_
    rintro removed after ⟨rfl, erased, past⟩
    exact ⟨kept.past past, fun _ => rfl, fun _ => erased.after same, fun failed => absurd rfl failed⟩
  · rw [if_pos failed]
    exact ⟨kept, unlessForced, fun none => absurd none failed, fun _ => same⟩

theorem returns_deleteSecret (secret : Secret) (reachable : Bool) :
    Returns (deleteSecret outside secret true reachable) server fun result after => result = "" ∧
      ClustersCoherent after ∧ SecretErased secret.id server after := by
  have looked := ((passes_findGroupByID secret.group) server).also
    (leads_findGroupByID (looking_touching : Looking (Touching none)).caching secret.group server).yields
  have removal : ∀ middle, ClustersCoherent middle → Touching none server middle →
      Returns (do
        unless ← removeSecret secret.id do
          return "Failed to delete secret from database"
        return "") middle fun result after => result = "" ∧ ClustersCoherent after ∧ SecretErased secret.id server after := by
    intro middle kept same
    rw [returns_bind]
    refine (returns_removeSecret_exactly kept.succeeding secret.id).mono ?_
    rintro removed after ⟨rfl, erased, past⟩
    exact ⟨rfl, kept.past past, erased.after same⟩
  unfold deleteSecret
  rw [returns_bind]
  refine looked.mono ?_
  rintro group found ⟨past, same⟩
  have kept := coherent.past past
  cases reachable with
  | false => exact removal found kept same
  | true =>
    simp only [if_true, returns_bind]
    have forced : Yields (catchRuntimeError (withdrawSecret outside secret group true) fun _ =>
        return if true then "" else "Failed to delete secret from kubernetes") found fun failure _ => failure = "" := by
      refine yields_caught (fun _ => if true then "" else "Failed to delete secret from kubernetes") ?_ fun _ => rfl
      exact Yields.after fun _ _ => Yields.after fun _ _ => by simp
    refine ((returns_caught kept (fun _ => if true then "" else "Failed to delete secret from kubernetes")
      (regular_withdrawSecret able secret group true)
      (leads_withdrawSecret looking_touching outside secret group true)).also forced).mono ?_
    rintro failure middle ⟨⟨kept, more⟩, rfl⟩
    exact removal middle kept (same.trans more)

theorem returns_deleteVolumeClaim {parse : String → Json} {volume : PersistentVolumeClaim} {cluster : Cluster}
    (known : server.database.cluster volume.cluster = some cluster)
    (free : Unused outside parse cluster.config volume.name) (reachable : Bool) :
    Returns (deleteVolumeClaim outside parse volume true reachable) server fun result after => result = "" ∧
      ClustersCoherent after ∧ VolumeErased volume.id server after := by
  have removal : ∀ middle, ClustersCoherent middle → Touching none server middle →
      Returns (do
        unless ← removePersistentVolumeClaim volume.id do
          return "Failed to delete volume from database"
        return "") middle fun result after => result = "" ∧ ClustersCoherent after ∧ VolumeErased volume.id server after := by
    intro middle kept same
    rw [returns_bind]
    refine (returns_removePersistentVolumeClaim_exactly kept.succeeding volume.id).mono ?_
    rintro removed after ⟨rfl, erased, past⟩
    exact ⟨rfl, kept.past past, erased.after same⟩
  unfold deleteVolumeClaim
  cases reachable with
  | false => exact removal server coherent (refl server)
  | true =>
    simp only [if_true, returns_bind]
    refine (((passes_findGroupByID volume.group) server).also
      (leads_findGroupByID (looking_touching : Looking (Touching none)).caching volume.group server).yields).mono ?_
    rintro group found ⟨past, same⟩
    have kept := coherent.past past
    have known' : found.database.cluster volume.cluster = some cluster := by
      unfold Database.cluster
      rw [Database.table_of_same same.others Database.clusters fun _ => rfl]
      exact known
    refine ((returns_caught kept (fun _ => some (if true then "" else "Failed to delete volume from kubernetes"))
      (regular_withdrawVolume able parse volume group true)
      (leads_withdrawVolume looking_touching outside parse volume group true)).also
      (yields_caught (fun _ => some (if true then "" else "Failed to delete volume from kubernetes"))
        (yields_withdrawVolume kept known' free group) fun _ => rfl)).mono ?_
    rintro withdrawn middle ⟨⟨kept, more⟩, rfl⟩
    exact removal middle kept (same.trans more)
end

end Slate
