import Slate.ClusterSetup
import Slate.Proofs.Creations

/-! A volume claim is recorded if and only if its creation is answered as a success, as far as the
database and the programs that are run allow. -/

namespace Slate
open Library Handler

theorem FiniteMap.erase_insert {κ α : Type} [DecidableEq κ] {map : FiniteMap κ α} {key : κ} (fresh : map.lookup key = none) (value : α) :
    AList.erase key (AList.insert key value map) = map := by
  have absent : key ∉ map := AList.lookup_eq_none.mp fresh
  apply AList.ext
  rw [AList.insert_of_notMem absent]
  exact List.kerase_cons_eq rfl

/-- A step that is taken if a request succeeds. -/
theorem ends_requested {α : Type} {accepted refused : StoreM α} {server : Server} {post : α → Server → Prop}
    {thrown : String → Server → Prop}
    (yes : server.outcomes 0 = true → Ends accepted server.answered post thrown)
    (no : server.outcomes 0 = false → Ends refused server.answered post thrown) :
    Ends (do if ← request then accepted else refused) server post thrown := by
  rw [ends_bind, ends_request, ends_ite]
  split
  next given => exact yes given
  next given => exact no (Bool.not_eq_true _ ▸ given)

def Database.withVolume (volume : PersistentVolumeClaim) (database : Database) : Database :=
  { database with volumes := database.volumes.insert volume.id (itemOfVolume volume) }

/-- Something is cached, and the answer is that all went well. -/
theorem ends_cached {record : Database → Database} {before server : Server} {caching : StoreM Unit} {thrown : String → Server → Prop}
    (confined : Confined OnlyReads (fun _ => False) caching) (stored : Stored record before server) :
    Ends (do
        caching
        return true) server (fun success after => if success then Stored record before after else LastFailed before after) thrown := by
  rw [ends_bind]
  apply (confined server).mono
  · exact fun _ _ reads => stored.reads reads
  · exact fun _ _ halted => halted.1.elim

theorem confined_now {allowed : String → Prop} : Confined OnlyReads allowed now := fun server => OnlyReads.passing.tick server

theorem confined_lasting {α : Type} {allowed : String → Prop} (value : α) (validity : Time) :
    Confined OnlyReads allowed (CacheRecord.lasting value validity) := confined_now.bind fun _ => .pure _

private theorem confined_cacheVolume (pvc : PersistentVolumeClaim) : Confined OnlyReads (fun _ => False) (cacheVolume pvc) := by
  apply (confined_lasting _ _).bind
  intro _
  refine confined_now.bind fun _ => confined_now.bind fun _ => confined_now.bind fun _ => ?_
  exact .modifies fun _ => .of_same rfl rfl rfl

private theorem reversible_volume {before : Server} {volume : PersistentVolumeClaim}
    (fresh : before.database.volumes.lookup volume.id = none) :
    Reversible (Database.withVolume volume) (addPersistentVolumeClaim volume) (removePersistentVolumeClaim volume.id) before where
  added server reads := by
    apply ends_requested
    · intro given
      rw [ends_bind, ends_modify]
      apply ends_cached (confined_cacheVolume volume)
      exact ⟨(reads.toLater.trans (.answered server)).trans (.of_eq rfl rfl), congrArg (Database.withVolume volume) reads.database⟩
    · intro given
      exact .of_request reads.toLater given rfl
  removed server stored := by
    unfold removePersistentVolumeClaim modifyVolumes
    rw [ends_bind, ends_modify]
    apply ends_requested
    · intro given
      rw [ends_bind, ends_modify]
      refine .inl ?_
      change { server.database with volumes := AList.erase volume.id server.database.volumes } = before.database
      rw [stored.database, Database.withVolume]
      dsimp only
      rw [FiniteMap.erase_insert fresh]
    · intro given
      exact .inr (.of_request (stored.toLater.trans (.of_eq rfl rfl)) given rfl)

section
variable {relation : Server → Server → Prop} [IsPreorder Server relation]

theorem confined_checkOptional (metadata : Json) (name text : String) :
    Confined relation Halt.Refusal (checkOptional metadata name text) := by
  unfold checkOptional
  split
  next => exact .pure _
  next => exact confined_require (by decide) _ _

theorem confined_checkRequired (metadata : Json) (name missing incorrect : String) :
    Confined relation Halt.Refusal (checkRequired metadata name missing incorrect) :=
  (confined_require (by decide) _ _).bind fun _ => confined_checkOptional _ _ _

theorem confined_requestMetadata (body : Json) (missing incorrect : String) :
    Confined relation Halt.Refusal (requestMetadata body missing incorrect) := by
  refine (confined_require (by decide) _ _).bind fun _ => (confined_require (by decide) _ _).bind fun _ => ?_
  apply (confined_accessing (show Halt.Refusal .assertion from trivial) _).bind
  intro metadata
  exact (confined_require (by decide) _ _).bind fun _ => .pure _

private theorem confined_checkSetting {α : Type} (result : Except String α) (refusal : String) :
    Confined relation Halt.Refusal (checkSetting result refusal) := by
  cases result with
  | ok value => exact .pure _
  | error message => exact confined_refuse (by decide) _

private theorem confined_describedVolume (value : UInt64) (ctime : String) (body : Json) :
    Confined relation Halt.Refusal (describedVolume value ctime body) := by
  apply (confined_requestMetadata body _ _).bind
  intro metadata
  have required : ∀ name missing incorrect, Confined relation Halt.Refusal (checkRequired metadata name missing incorrect) :=
    fun _ _ _ => confined_checkRequired _ _ _ _
  refine (required _ _ _).bind fun _ => (required _ _ _).bind fun _ => (required _ _ _).bind fun _ => ?_
  refine (required _ _ _).bind fun _ => (required _ _ _).bind fun _ => (required _ _ _).bind fun _ => ?_
  refine (required _ _ _).bind fun _ => (confined_checkSetting _ _).bind fun _ => ?_
  exact (confined_checkSetting _ _).bind fun _ => .pure _

end

private theorem confined_requestedVolume (user : User) (value : UInt64) (ctime : String) (body : Json) :
    Confined OnlyReads Halt.Refusal (requestedVolume user value ctime body) := by
  apply (confined_describedVolume value ctime body).bind
  intro described
  apply Confined.bind ((confined_require (by decide) _ _).bind fun _ => confined_require (by decide) _ _)
  intro _
  apply (confined_lookup (leads_getGroup OnlyReads.looking.caching _)).bind
  intro group
  refine (confined_require (by decide) _ _).bind fun _ => (confined_lookup (leads_userInGroup_reads _ _)).bind fun _ => ?_
  refine (confined_require (by decide) _ _).bind fun _ => (confined_lookup (leads_getCluster OnlyReads.looking _)).bind fun cluster => ?_
  apply (confined_require (by decide) _ _).bind
  intro _
  have named : Confined OnlyReads Halt.Refusal (onStore (findPersistentVolumeClaimByName group.id cluster.id described.name)) :=
    confined_lookup ((leads_listVolumes_reads _ _).bind fun _ => .pure _)
  have rest : ∀ existing : PersistentVolumeClaim, Confined OnlyReads Halt.Refusal (do
      require (some !existing.valid) 400 "A volume with the same name already exists"
      return ({ described with valid := true, group := group.id, cluster := cluster.id }, group) : HandlerM (PersistentVolumeClaim × Group)) :=
    fun _ => (confined_require (by decide) _ _).bind fun _ => .pure _
  refine .ite ?_ (named.bind rest)
  apply (confined_lookup (leads_groupAllowedOnCluster_reads _ _)).bind
  intro _
  exact (confined_require (by decide) _ _).bind fun _ => named.bind rest

/-- A claim has the ID that has been drawn for it and the settings that the body of the request has. It has no selectors, for which
nobody asks. -/
structure VolumeSettings (value : UInt64) (ctime : String) (body : Json) (volume : PersistentVolumeClaim) : Prop where
  id : volume.id = generateVolumeID value
  ctime : volume.ctime = ctime
  name : metadataText body "name" = some volume.name
  storageRequest : metadataText body "storageRequest" = some volume.storageRequest
  storageClass : metadataText body "storageClass" = some volume.storageClass
  accessMode : (metadataText body "accessMode").map accessModeFromString = some (.ok volume.accessMode)
  volumeMode : (metadataText body "volumeMode").map volumeModeFromString = some (.ok volume.volumeMode)
  selectors : volume.selectorMatchLabel = "" ∧ volume.selectorLabelExpressions = []

/-- Beyond its settings, a claim has the group and the cluster that the body names. -/
structure AskedVolume (server : Server) (value : UInt64) (ctime : String) (body : Json) (volume : PersistentVolumeClaim) (group : Group) :
    Prop extends VolumeSettings value ctime body volume where
  group : volume.group = group.id ∧ ∃ text, metadataText body "group" = some text ∧ server.MeansGroup text group
  cluster : ∃ text cluster, metadataText body "cluster" = some text ∧ server.MeansCluster text cluster ∧ volume.cluster = cluster.id

private theorem yields_checkSetting {α : Type} (result : Except String α) (refusal : String) (server : Server) :
    Yields (checkSetting result refusal) server fun value _ => result = .ok value := by
  cases result with
  | ok value => rfl
  | error message => trivial

private theorem yields_describedVolume (value : UInt64) (ctime : String) (body : Json) (server : Server) :
    Yields (describedVolume value ctime body) server fun volume _ => VolumeSettings value ctime body volume ∧
      metadataText body "group" = some volume.group ∧ metadataText body "cluster" = some volume.cluster := by
  unfold describedVolume metadataText
  rw [yields_bind]
  apply (yields_requestMetadata body _ _ server).mono
  intro metadata _ there
  rw [yields_bind]
  apply (yields_checkRequired metadata "group" _ _ _).mono
  intro _ _ grouped
  rw [yields_bind]
  apply (yields_checkRequired metadata "cluster" _ _ _).mono
  intro _ _ clustered
  rw [yields_bind]
  apply (yields_checkRequired metadata "name" _ _ _).mono
  intro _ _ named
  rw [yields_bind]
  apply (yields_checkRequired metadata "storageRequest" _ _ _).mono
  intro _ _ requested
  rw [yields_bind]
  apply (yields_checkRequired metadata "accessMode" _ _ _).mono
  intro _ _ accessed
  rw [yields_bind]
  apply (yields_checkRequired metadata "volumeMode" _ _ _).mono
  intro _ _ moded
  rw [yields_bind]
  apply (yields_checkRequired metadata "storageClass" _ _ _).mono
  intro _ _ classed
  dsimp only
  rw [yields_bind]
  apply (yields_checkSetting _ _ _).mono
  intro accessMode _ access
  rw [yields_bind]
  apply (yields_checkSetting _ _ _).mono
  intro volumeMode _ volume
  have text : ∀ name, metadataText body name = memberText metadata name := fun name => by rw [metadataText, there]; rfl
  refine ⟨⟨rfl, rfl, (text _).trans named, (text _).trans requested, (text _).trans classed, ?_, ?_, rfl, rfl⟩,
    (text _).trans grouped, (text _).trans clustered⟩
  · rw [text, accessed]
    exact congrArg some access
  · rw [text, moded]
    exact congrArg some volume

private theorem yields_requestedVolume (user : User) (value : UInt64) (ctime : String) (body : Json) (server : Server) :
    Yields (requestedVolume user value ctime body) server fun asked _ => AskedVolume server value ctime body asked.1 asked.2 := by
  unfold requestedVolume
  rw [yields_bind]
  have unchanged : Confined Eq Halt.Refusal (describedVolume value ctime body) := confined_describedVolume value ctime body
  apply ((yields_describedVolume value ctime body server).and (unchanged server).yields).mono
  rintro volume _ ⟨⟨settings, grouped, clustered⟩, rfl⟩
  have checked : Confined Eq Halt.Refusal (checkVolumeName volume.name) :=
    (confined_require (by decide) _ _).bind fun _ => confined_require (by decide) _ _
  rw [yields_bind]
  apply (checked server).yields.mono
  rintro _ _ rfl
  apply yields_places
  intro group cluster passed means named
  have kept : VolumeSettings value ctime body { volume with valid := true, group := group.id, cluster := cluster.id } :=
    ⟨settings.id, settings.ctime, settings.name, settings.storageRequest, settings.storageClass, settings.accessMode,
      settings.volumeMode, settings.selectors⟩
  have asked : AskedVolume server value ctime body { volume with valid := true, group := group.id, cluster := cluster.id } group :=
    ⟨kept, ⟨rfl, volume.group, grouped, means⟩, volume.cluster, cluster, clustered, named, rfl⟩
  have free : ∀ server', Yields (do
      let existing ← onStore (findPersistentVolumeClaimByName group.id cluster.id volume.name)
      require (some !existing.valid) 400 "A volume with the same name already exists"
      return ({ volume with valid := true, group := group.id, cluster := cluster.id }, group) : HandlerM (PersistentVolumeClaim × Group))
        server' fun asked _ => AskedVolume server value ctime body asked.1 asked.2 := by
    intro server'
    apply Yields.after
    intro _ _
    apply Yields.after
    exact fun _ _ => asked
  rw [yields_ite]
  split
  next =>
    apply Yields.after
    intro _ _
    apply Yields.after
    exact fun _ server => free server
  next => exact free passed

theorem yields_inHandler {α : Type} (program : StoreM α) (world : HandingWorld) :
    Yields (inHandler program) world fun _ after => after.commands = world.commands ∧ after.handed = world.handed := by
  unfold Yields inHandler withFiles onServer onStore
  cases program world.server with
  | ok value after => exact ⟨rfl, rfl⟩
  | error message after => trivial

theorem yields_withFiles {α : Type} (program : ClusterM α) (world : HandingWorld) :
    Yields (withFiles program) world fun _ after => after.handed = world.handed := by
  unfold Yields withFiles
  cases program world.toClusterWorld with
  | ok value after => rfl
  | error message after => trivial

/-- What a program that is run on files answers, and that it has been run. -/
theorem yields_ranProgram {α : Type} (arguments : List String) (program : List (List String) → StoreM α) (world : HandingWorld) :
    Yields (withFiles (runProgram arguments program)) world fun value after =>
      after.commands = world.commands ++ [arguments] ∧ after.handed = world.handed ∧
        ∃ server, program world.commands world.server = .ok value server := by
  unfold Yields withFiles
  cases ran : program world.commands world.server with
  | ok value server =>
    rw [runProgram_returned ran]
    exact ⟨rfl, rfl, server, rfl⟩
  | error message server =>
    rw [runProgram_thrown ran]
    trivial

theorem kubectl_ran {outside : Outside} {configPath : String} {arguments : List String} {server after : Server} {result : CommandResult}
    (ran : kubectl outside configPath arguments server = .ok result after) :
    outside.kubectlAnswer configPath arguments = .ok result := by
  rw [kubectl_answer] at ran
  unfold ofExcept at ran
  cases answered : outside.kubectlAnswer configPath arguments with
  | ok answer =>
    rw [answered] at ran
    cases ran
    rfl
  | error message =>
    rw [answered] at ran
    cases ran

private theorem ends_withFiles {program : HandlerM Unit} {world : HandingWorld} {post : Unit → Server → Prop}
    {thrown : Halt → Server → Prop}
    (ends : Ends program world.server post thrown) :
    Ends (withFiles (onServer program)) world (fun value after => post value after.server) fun halt after => thrown halt after.server := by
  unfold Ends at ends ⊢
  unfold withFiles onServer
  cases ran : program world.server with
  | ok value after =>
    rw [ran] at ends
    exact ends
  | error halt after =>
    rw [ran] at ends
    exact ends

section
variable (outside : Outsides) (files : TemporaryFiles) (write : Json → String)

theorem confined_handOver (path content : String) {allowed : Halt → Prop} :
    Confined (HandingCourse OnlyReads) allowed (handOver files path content) := .modifies fun world => refl world.server

/-- The last command that has been run has created the claim from a file with its document. -/
def VolumeAccepted (volume : PersistentVolumeClaim) (group : Group) (before after : HandingWorld) : Prop :=
  ∃ commands configPath pvcFile complete result,
    after.handed = before.handed ++ [⟨pvcFile, write (volumeDocument volume group), complete⟩] ∧
    after.commands = commands ++ [["create", "-f", pvcFile]] ∧
    (outside commands).kubectlAnswer configPath ["create", "-f", pvcFile] = .ok result ∧ result.status = 0

private theorem yields_deployVolume (volume : PersistentVolumeClaim) (group : Group) (world : HandingWorld) :
    Yields (deployVolume outside files write volume group) world fun _ after => VolumeAccepted outside write volume group world after := by
  unfold deployVolume
  rw [yields_bind]
  apply (yields_inHandler _ world).mono
  intro configPath located same
  rw [yields_bind]
  have named : Yields (catchInHandler (withFiles (kubectlCreateNamespace outside files configPath)) fun message => do
      let _ ← inHandler (removePersistentVolumeClaim volume.id)
      refuse 500 ("Failed to create namespace: " ++ message)) located fun _ after => after.handed = located.handed := by
    apply yields_catchInHandler (yields_withFiles _ located)
    intro message after
    rw [yields_bind]
    exact (Yields.trivial _ _).mono fun _ _ _ => trivial
  apply named.mono
  intro _ ready kept
  rw [yields_bind, yields_fromExcept]
  intro pvcFile _
  rw [yields_bind, handOver, yields_modify, yields_bind]
  apply (yields_ranProgram _ _ _).mono
  rintro result after ⟨commands, handed, server, ran⟩
  rw [yields_ite]
  split
  next =>
    rw [yields_bind]
    exact (Yields.trivial _ _).mono fun _ _ _ => trivial
  next good =>
    let text := write (volumeDocument volume group)
    refine ⟨_, configPath, pvcFile, files.opens pvcFile && files.writes pvcFile (utf8 text), result, ?_, commands, kubectl_ran ran,
      not_not.mp good⟩
    rw [handed, kept, same.2]

private theorem ends_deployVolume {before : Server} {volume : PersistentVolumeClaim} (group : Group)
    (reversible : Reversible (Database.withVolume volume) (addPersistentVolumeClaim volume) (removePersistentVolumeClaim volume.id) before)
    {world : HandingWorld} (stored : Stored (Database.withVolume volume) before world.server) :
    Ends (deployVolume outside files write volume group) world (fun _ after => Stored (Database.withVolume volume) before after.server)
      fun halt after => Halted (Database.withVolume volume) before halt after.server := by
  have thrown : ∀ message, Halt.Escape (.thrown message) := fun _ => trivial
  unfold deployVolume
  rw [ends_bind]
  apply (ends_then (confined_inHandler thrown (leads_configPathForCluster OnlyReads.looking _)) stored).mono _ fun _ _ => id
  intro configPath located stored
  rw [ends_bind]
  apply (ends_catch (confined_withFiles (confined_kubectlCreateNamespace outside files configPath))
    (fun message world stored => ends_takeBack_inHandler reversible (by decide) _ stored) stored).mono _ fun _ _ => id
  intro _ ready stored
  rw [ends_bind]
  have found : Confined (HandingCourse OnlyReads) Halt.Escape (fromExcept (files.make 1 ".pvc.json")) := confined_fromExcept thrown _
  apply (ends_then found stored).mono _ fun _ _ => id
  intro pvcFile made stored
  rw [ends_bind]
  apply (ends_then (confined_handOver files pvcFile _) stored).mono _ fun _ _ => id
  intro _ written stored
  rw [ends_bind]
  have ran : Confined (HandingCourse OnlyReads) Halt.Escape (withFiles (kubectlRun outside configPath ["create", "-f", pvcFile])) :=
    confined_withFiles (confined_runProgram thrown _ fun _ => leads_kubectl _ _ _)
  apply (ends_then ran stored).mono _ fun _ _ => id
  intro result after stored
  rw [ends_ite]
  split
  next => exact ends_takeBack_inHandler reversible (by decide) _ stored
  next => exact stored

def askVolume (user : User) (value : UInt64) (ctime : String) (body : Json) : HandingM (PersistentVolumeClaim × Group) := do
  withFiles (onServer (require (some user.valid) 403 "User not authorized"))
  withFiles (onServer (requestedVolume user value ctime body))

/-- What becomes of a request once it is known what is asked for. -/
def recordVolume (asked : PersistentVolumeClaim × Group) : HandingM Response := do
  withFiles (onServer (storeVolume asked.1))
  deployVolume outside files write asked.1 asked.2
  let owner ← inHandler (getGroup asked.1.group)
  let cluster ← inHandler (getCluster asked.1.cluster)
  return volumeResponse asked.1 owner.name cluster.name

private theorem createVolumeClaim_eq (user : User) (value : UInt64) (ctime : String) (body : Json) :
    createVolumeClaim outside files write user value ctime body =
      askVolume user value ctime body >>= recordVolume outside files write := by
  rw [askVolume, bind_assoc]
  rfl

private theorem confined_askVolume (user : User) (value : UInt64) (ctime : String) (body : Json) :
    Confined (HandingCourse OnlyReads) Halt.Refusal (askVolume user value ctime body) :=
  (confined_withFiles (confined_onServer (confined_require (by decide) _ _))).bind fun _ =>
    confined_withFiles (confined_onServer (confined_requestedVolume user value ctime body))

private theorem yields_askVolume (user : User) (value : UInt64) (ctime : String) (body : Json) (world : HandingWorld) :
    Yields (askVolume user value ctime body) world fun asked after =>
      AskedVolume world.server value ctime body asked.1 asked.2 ∧ after.handed = world.handed := by
  have asked : ∀ middle : HandingWorld, Yields (withFiles (onServer (requestedVolume user value ctime body))) middle
      fun asked _ => AskedVolume middle.server value ctime body asked.1 asked.2 := by
    intro middle
    have yields := yields_requestedVolume user value ctime body middle.server
    unfold Yields at yields ⊢
    unfold withFiles onServer
    cases ran : requestedVolume user value ctime body middle.server with
    | ok asked after =>
      rw [ran] at yields
      exact yields
    | error halt after => trivial
  have permitted : Confined (HandingCourse Eq) Halt.Refusal (withFiles (onServer (require (some user.valid) 403 "User not authorized"))) :=
    confined_withFiles (confined_onServer (confined_require (by decide) _ _))
  unfold askVolume
  rw [yields_bind]
  apply ((yields_withFiles _ world).and (permitted world).yields).mono
  rintro _ middle ⟨same, unchanged⟩
  have server : world.server = middle.server := unchanged
  rw [server]
  apply ((asked middle).and (yields_withFiles _ middle)).mono
  exact fun _ _ both => ⟨both.1, both.2.trans same⟩

def DescribesVolume (volume : PersistentVolumeClaim) (response : Response) : Prop :=
  ∃ groupName clusterName, response = volumeResponse volume groupName clusterName

private theorem yields_recordVolume (asked : PersistentVolumeClaim × Group) (world : HandingWorld) :
    Yields (recordVolume outside files write asked) world fun response after =>
      DescribesVolume asked.1 response ∧ VolumeAccepted outside write asked.1 asked.2 world after := by
  unfold recordVolume
  rw [yields_bind]
  apply (yields_withFiles _ world).mono
  intro _ ready same
  rw [yields_bind]
  apply (yields_deployVolume outside files write asked.1 asked.2 ready).mono
  rintro _ done ⟨commands, configPath, pvcFile, complete, result, handed, ran, accepted⟩
  rw [yields_bind]
  apply (yields_inHandler _ done).mono
  intro owner found kept
  rw [yields_bind]
  apply (yields_inHandler _ found).mono
  intro cluster after keeps
  refine ⟨⟨owner.name, cluster.name, rfl⟩, commands, configPath, pvcFile, complete, result, ?_, ?_, accepted⟩
  · rw [keeps.2, kept.2, handed, same]
  · rw [keeps.1, kept.1, ran]

private theorem ends_recordVolume {before : Server} {asked : PersistentVolumeClaim × Group}
    (fresh : before.database.volumes.lookup asked.1.id = none) {world : HandingWorld} (reads : OnlyReads before world.server) :
    Ends (recordVolume outside files write asked) world
      (fun response after => response.status = 200 ∧ Stored (Database.withVolume asked.1) before after.server)
      fun halt after => Halted (Database.withVolume asked.1) before halt after.server := by
  have reversible := reversible_volume fresh
  have thrown : ∀ message, Halt.Escape (.thrown message) := fun _ => trivial
  unfold recordVolume
  rw [ends_bind]
  apply (ends_withFiles (ends_added reversible (by decide) reads)).mono _ fun _ _ => id
  intro _ ready stored
  rw [ends_bind]
  apply (ends_deployVolume outside files write asked.2 reversible stored).mono _ fun _ _ => id
  intro _ done stored
  rw [ends_bind]
  apply (ends_then (confined_inHandler thrown (leads_getGroup OnlyReads.looking.caching _)) stored).mono _ fun _ _ => id
  intro owner found stored
  rw [ends_bind]
  apply (ends_then (confined_inHandler thrown (leads_getCluster OnlyReads.looking _)) stored).mono _ fun _ _ => id
  exact fun _ _ stored => ⟨rfl, stored⟩

/-- Whatever is asked for and whatever the programs do, a claim is recorded if its creation is answered as a success: then it has what
was asked for, and the cluster has accepted it. Otherwise the tables are as before, unless the last request to the database has failed
or an exception has left the handler. -/
theorem createVolumeClaim_settles (user : User) (value : UInt64) (ctime : String) (body : Json) (world : HandingWorld)
    (fresh : world.server.database.volumes.lookup (generateVolumeID value) = none) :
    ∃ asked : PersistentVolumeClaim × Group, asked.1.id = generateVolumeID value ∧
      Settles (fun world : HandingWorld => world.server) (Database.withVolume asked.1)
        (fun response after => AskedVolume world.server value ctime body asked.1 asked.2 ∧ DescribesVolume asked.1 response ∧
          VolumeAccepted outside write asked.1 asked.2 world after)
        (createVolumeClaim outside files write user value ctime body) world := by
  rw [createVolumeClaim_eq]
  apply settles_bind (confined_askVolume user value ctime body) (yields_askVolume user value ctime body world)
  · rintro asked middle ⟨volume, same⟩ reads
    have yields : Yields (recordVolume outside files write asked) middle fun response after =>
        AskedVolume world.server value ctime body asked.1 asked.2 ∧ DescribesVolume asked.1 response ∧
          VolumeAccepted outside write asked.1 asked.2 world after := by
      apply (yields_recordVolume outside files write asked middle).mono
      rintro response after ⟨described, accepted⟩
      refine ⟨volume, described, ?_⟩
      unfold VolumeAccepted at accepted ⊢
      rwa [same] at accepted
    have absent : world.server.database.volumes.lookup asked.1.id = none := by
      rw [volume.id]
      exact fresh
    exact (ends_recordVolume outside files write absent reads).also yields
  · exact fun asked _ known => known.1.id
  · exact @rfl _ (({ id := generateVolumeID value }, {}) : PersistentVolumeClaim × Group).1.id

end

def volumeWorld : HandingWorld := { server := emptySecretWorld.server }

/-- A request for a claim of a group and on a cluster that it has the names of. -/
def volumeBody : Json := .object [("metadata", .object [("name", .string "data"), ("group", .string "web"),
  ("cluster", .string "atlas"), ("storageRequest", .string "5Gi"), ("accessMode", .string "RWO"),
  ("volumeMode", .string "Filesystem"), ("storageClass", .string "fast")])]

mutual

/-- A document as text, if its numbers are integers and no text in it has anything to be escaped. -/
def jsonText : Json → String
  | .null => "null"
  | .bool value => toString value
  | .number value _ => toString value
  | .string text => "\"" ++ text ++ "\""
  | .array items => "[" ++ ",".intercalate (itemTexts items) ++ "]"
  | .object members => "\x7b" ++ ",".intercalate (memberTexts members) ++ "\x7d"

def itemTexts : List Json → List String
  | [] => []
  | item :: rest => jsonText item :: itemTexts rest

def memberTexts : List (String × Json) → List String
  | [] => []
  | (name, value) :: rest => ("\"" ++ name ++ "\":" ++ jsonText value) :: memberTexts rest

end

/-- What comes of a request for a claim that nothing stands in the way of. -/
def volumeOutcome : Option Response × HandingWorld :=
  ending (createVolumeClaim secretOutside secretFiles jsonText secretUser 1 "today" volumeBody volumeWorld)

theorem volumeOutcome_settles : volumeOutcome.1.map Response.status = some 200 ∧
    ∃ asked : PersistentVolumeClaim × Group, asked.1.id = generateVolumeID 1 ∧
      Settles (fun world : HandingWorld => world.server) (Database.withVolume asked.1)
        (fun response after => AskedVolume volumeWorld.server 1 "today" volumeBody asked.1 asked.2 ∧ DescribesVolume asked.1 response ∧
          VolumeAccepted secretOutside jsonText asked.1 asked.2 volumeWorld after)
        (createVolumeClaim secretOutside secretFiles jsonText secretUser 1 "today" volumeBody) volumeWorld :=
  ⟨by decide +kernel, createVolumeClaim_settles secretOutside secretFiles jsonText secretUser 1 "today" volumeBody volumeWorld rfl⟩

end Slate
