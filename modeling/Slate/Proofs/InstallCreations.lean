import Slate.InstallRequests
import Slate.Proofs.SecretCreations

/-! An application instance is recorded if and only if its installation is answered as a success, as
far as the database and the programs that are run allow. -/

namespace Slate
open Library Handler

/-- An instance is recorded apart from its configuration. -/
def Database.withInstance (inst : ApplicationInstance) (database : Database) : Database :=
  { database with
    instances := database.instances.insert inst.id (itemOfInstance inst)
    instanceConfigs := database.instanceConfigs.insert inst.id inst.config }

structure NoInstance (id : String) (database : Database) : Prop where
  record : database.instances.lookup id = none
  config : database.instanceConfigs.lookup id = none

private theorem confined_cacheInstance (inst : ApplicationInstance) : Confined OnlyReads (fun _ => False) (cacheInstance inst) := by
  apply (confined_lasting _ _).bind
  intro _
  refine confined_now.bind fun _ => confined_now.bind fun _ => confined_now.bind fun _ => confined_now.bind fun _ => ?_
  exact .modifies fun _ => .of_same rfl rfl rfl

private theorem confined_cacheInstanceConfig (id config : String) : Confined OnlyReads (fun _ => False)
    (cacheInstanceConfig id config) := by
  apply Confined.get.bind
  intro server
  refine .ite ((confined_lasting _ _).bind fun _ => ?_) (.pure _)
  exact .modifies fun _ => .of_same rfl rfl rfl

private theorem reversible_instance {before : Server} {inst : ApplicationInstance} (fresh : NoInstance inst.id before.database) :
    Reversible (Database.withInstance inst) (addApplicationInstance inst) (removeApplicationInstance inst.id) before where
  added server reads := by
    apply ends_requested
    · intro given
      rw [ends_bind, ends_modify]
      apply ends_requested
      · intro given
        rw [ends_bind, ends_modify]
        have caching : Confined OnlyReads (fun _ => False) (do
            cacheInstance inst
            cacheInstanceConfig inst.id inst.config) :=
          (confined_cacheInstance inst).bind fun _ => confined_cacheInstanceConfig inst.id inst.config
        rw [← bind_assoc]
        apply ends_cached caching
        constructor
        · exact ((((reads.toLater.trans (.answered server)).trans (.of_eq rfl rfl)).trans (.answered _)).trans (.of_eq rfl rfl))
        · exact congrArg (Database.withInstance inst) reads.database
      · intro given
        refine .of_request ?_ given rfl
        exact (reads.toLater.trans (.answered server)).trans (.of_eq rfl rfl)
    · intro given
      exact .of_request reads.toLater given rfl
  removed server stored := by
    unfold removeApplicationInstance modifyInstances
    rw [ends_bind, ends_modify]
    apply ends_requested
    · intro given
      rw [ends_bind, ends_modify]
      apply ends_requested
      · intro given
        rw [ends_bind, ends_modify]
        refine .inl ?_
        change { server.database with
          instances := AList.erase inst.id server.database.instances
          instanceConfigs := AList.erase inst.id server.database.instanceConfigs } = before.database
        rw [stored.database, Database.withInstance]
        dsimp only
        rw [FiniteMap.erase_insert fresh.record, FiniteMap.erase_insert fresh.config]
      · intro given
        refine .inr (.of_request ?_ given rfl)
        exact ((stored.toLater.trans (.of_eq rfl rfl)).trans (.answered _)).trans (.of_eq rfl rfl)
    · intro given
      exact .inr (.of_request (stored.toLater.trans (.of_eq rfl rfl)) given rfl)

section
variable (yaml : Yaml) (outside : Outsides)

theorem confined_tagOf {σ : Type} {relation : σ → σ → Prop} [IsPreorder σ relation] (config : String) {status : Nat} (bad : status ≠ 200)
    (refusal : String) : Confined relation Halt.Refusal (tagOf yaml config status refusal : EStateM Halt σ (Option String)) := by
  unfold tagOf
  split
  next => exact .pure _
  next => exact confined_refuse bad _

theorem confined_runHelm {course : Server → Server → Prop} [IsPreorder Server course] (arguments : List String)
    (environment : List (String × String)) : Confined (ClusterCourse course) Halt.Escape (runHelm outside arguments environment) :=
  confined_runProgram (fun _ => trivial) _ fun _ => leads_runCommand _ _ _ _

private theorem confined_instanceTag {course : Server → Server → Prop} [IsPreorder Server course]
    (appName installSrc config chartVersion : String) :
    Confined (ClusterCourse course) Halt.Refusal (instanceTag yaml outside appName installSrc config chartVersion) := by
  have default : Confined (ClusterCourse course) Halt.Refusal (defaultTag yaml outside appName installSrc chartVersion) := by
    apply ((confined_runHelm outside _ _).allow fun _ => Halt.Escape.refusal).bind
    intro commandResult
    refine .ite ((confined_refuse (by decide) _).bind fun _ => ?_) ?_
    all_goals
      apply (confined_tagOf yaml _ (by decide) _).bind
      intro found
      cases found with
      | some tag => exact .pure _
      | none => exact confined_refuse (by decide) _
  unfold instanceTag
  split
  next =>
    apply Confined.bind (.pure none)
    intro found
    cases found with
    | some tag => exact .pure _
    | none => exact default
  next =>
    apply (confined_tagOf yaml config (by decide) _).bind
    intro found
    cases found with
    | some tag => exact .pure _
    | none => exact default

private theorem confined_installPlace (user : User) (appName groupID clusterID : String) :
    Confined OnlyReads Halt.Refusal (installPlace user appName groupID clusterID) := by
  apply (confined_lookup (leads_getGroup OnlyReads.looking.caching _)).bind
  intro group
  refine (confined_require (by decide) _ _).bind fun _ => (confined_lookup (leads_getCluster OnlyReads.looking _)).bind fun cluster => ?_
  refine (confined_require (by decide) _ _).bind fun _ => (confined_lookup (leads_userInGroup_reads _ _)).bind fun _ => ?_
  apply (confined_require (by decide) _ _).bind
  intro _
  refine .ite ?_ (.pure _)
  apply (confined_lookup (leads_groupAllowedOnCluster_reads _ _)).bind
  intro _
  refine (confined_require (by decide) _ _).bind fun _ => (confined_lookup (leads_groupMayUseApplication_reads _ _ _)).bind fun _ => ?_
  exact (confined_require (by decide) _ _).bind fun _ => .pure _

section
variable {course : Server → Server → Prop} [IsPreorder Server course]

private theorem confined_requestedSettings (body : Json) : Confined course Halt.Refusal (requestedSettings body) := by
  have required : ∀ name missing incorrect, Confined course Halt.Refusal (checkRequired body name missing incorrect) :=
    fun _ _ _ => confined_checkRequired _ _ _ _
  exact (required _ _ _).bind fun _ => (required _ _ _).bind fun _ => (required _ _ _).bind fun _ => .pure _

private theorem confined_checkInstanceTag (tag : String) : Confined course Halt.Refusal (checkInstanceTag tag) :=
  (confined_require (by decide) _ _).bind fun _ => confined_require (by decide) _ _

private theorem confined_namedInstance (value : UInt64) (appName installSrc tag config ctime : String) (group : Group) (cluster : Cluster) :
    Confined course Halt.Refusal (namedInstance value appName installSrc tag config ctime group cluster) :=
  (confined_require (by decide) _ _).bind fun _ => .pure _

end

private theorem confined_askedInstance (user : User) (appName installSrc : String) (value : UInt64) (ctime : String) (body : Json) :
    Confined (ClusterCourse OnlyReads) Halt.Refusal (askedInstance yaml outside user appName installSrc value ctime body) := by
  have named : ∀ inst, Confined OnlyReads Halt.Refusal (checkInstanceName inst) := fun _ =>
    (confined_lookup (leads_listInstances_reads _ _)).bind fun _ => confined_require (by decide) _ _
  apply (confined_onServer (confined_requestedSettings body)).bind
  intro settings
  apply (confined_instanceTag yaml outside _ _ _ _).bind
  intro tag
  apply (confined_onServer (confined_checkInstanceTag tag)).bind
  intro _
  apply (confined_onServer (confined_installPlace user appName _ _)).bind
  intro place
  apply (confined_onServer (confined_namedInstance _ _ _ _ _ _ _ _)).bind
  intro inst
  exact (confined_onServer (named inst)).bind fun _ => .pure _

private theorem runCommand_ran {outside : Outside} {command : String} {arguments : List String} {environment : List (String × String)}
    {server after : Server} {result : CommandResult} (ran : runCommand outside command arguments environment server = .ok result after) :
    outside.run command arguments environment = .ok result := by
  unfold runCommand at ran
  cases answered : outside.run command arguments environment with
  | ok answer =>
    rw [answered] at ran
    cases ran
    rfl
  | error message =>
    rw [answered] at ran
    cases ran

private theorem yields_runProgram {α : Type} (arguments : List String) (program : List (List String) → StoreM α) (world : ClusterWorld) :
    Yields (runProgram arguments program) world fun value _ => ∃ server, program world.commands world.server = .ok value server := by
  unfold Yields
  cases ran : program world.commands world.server with
  | ok value server =>
    rw [runProgram_returned ran]
    exact ⟨server, rfl⟩
  | error message server =>
    rw [runProgram_thrown ran]
    trivial

private theorem yields_runHelm (arguments : List String) (environment : List (String × String)) (world : ClusterWorld) :
    Yields (runHelm outside arguments environment) world fun result _ =>
      (outside world.commands).run "helm" arguments environment = .ok result := by
  apply (yields_runProgram _ _ world).mono
  rintro result _ ⟨server, ran⟩
  exact runCommand_ran ran

/-- The tag that is given by a configuration or, if it has none, by the default configuration of the chart as helm has told it. -/
inductive GivenTag (inspected : Outside) (installSrc chartVersion config tag : String) : Prop where
  | own (some_ : config ≠ "") (extracted : extractInstanceTag yaml config = .ok (some tag))
  | default {result : CommandResult} (none_ : config = "" ∨ extractInstanceTag yaml config = .ok none)
      (ran : inspected.run "helm" (inspectArguments installSrc chartVersion) [] = .ok result) (good : result.status = 0)
      (extracted : extractInstanceTag yaml result.output = .ok (some tag))

private theorem yields_tagOf {σ : Type} (config : String) (status : Nat) (refusal : String) (state : σ) :
    Yields (tagOf yaml config status refusal : EStateM Halt σ (Option String)) state fun tag _ => extractInstanceTag yaml config = .ok tag := by
  unfold tagOf
  split
  next tag extracted => exact extracted
  next => trivial

private theorem yields_defaultTag (appName installSrc chartVersion : String) (world : ClusterWorld) :
    Yields (defaultTag yaml outside appName installSrc chartVersion) world fun tag _ => ∃ result,
      (outside world.commands).run "helm" (inspectArguments installSrc chartVersion) [] = .ok result ∧ result.status = 0 ∧
        extractInstanceTag yaml result.output = .ok (some tag) := by
  unfold defaultTag
  rw [yields_bind]
  apply (yields_runHelm outside _ _ world).mono
  intro result after ran
  rw [yields_ite]
  split
  next => trivial
  next good =>
    rw [yields_bind]
    apply (yields_tagOf yaml _ _ _ after).mono
    intro found _ extracted
    cases found with
    | none => trivial
    | some tag => exact ⟨result, ran, not_not.mp good, extracted⟩

private theorem yields_instanceTag (appName installSrc config chartVersion : String) (world : ClusterWorld) :
    Yields (instanceTag yaml outside appName installSrc config chartVersion) world fun tag _ =>
      GivenTag yaml (outside world.commands) installSrc chartVersion config tag := by
  have default (none_ : config = "" ∨ extractInstanceTag yaml config = .ok none) :
      Yields (defaultTag yaml outside appName installSrc chartVersion) world fun tag _ =>
        GivenTag yaml (outside world.commands) installSrc chartVersion config tag := by
    apply (yields_defaultTag yaml outside appName installSrc chartVersion world).mono
    rintro tag _ ⟨result, ran, good, extracted⟩
    exact .default none_ ran good extracted
  unfold instanceTag
  rw [yields_ite]
  split
  next empty =>
    rw [yields_bind, yields_pure]
    exact default (.inl empty)
  next some_ =>
    rw [yields_bind]
    have unchanged : Confined Eq Halt.Refusal
        (tagOf yaml config 400 "Configuration could not be parsed as YAML.\n" : ClusterM (Option String)) :=
      confined_tagOf yaml config (by decide) _
    apply ((yields_tagOf yaml config _ _ world).and (unchanged world).yields).mono
    rintro given _ ⟨extracted, rfl⟩
    cases given with
    | some tag => exact .own some_ extracted
    | none => exact default (.inr extracted)

/-- What is asked of an instance: its ID is the one that has been drawn for it, its name tells of its tag, and it has the group, the cluster
and the configuration of the request. -/
structure AskedInstance (world : ClusterWorld) (value : UInt64) (appName installSrc ctime : String) (body : Json)
    (inst : ApplicationInstance)
    (group : Group) (cluster : Cluster) (chartVersion : String) : Prop where
  version : chartVersion = (memberText body "chartVersion").getD ""
  id : inst.id = generateInstanceID value
  application : inst.application = installSrc
  ctime : inst.ctime = ctime
  owningGroup : inst.owningGroup = group.id ∧ ∃ text, memberText body "group" = some text ∧ world.server.MeansGroup text group
  cluster : inst.cluster = cluster.id ∧ ∃ text, memberText body "cluster" = some text ∧ world.server.MeansCluster text cluster
  settings : ∃ config tag, memberText body "configuration" = some config ∧
    GivenTag yaml (outside world.commands) installSrc chartVersion config tag ∧
    inst.name = (if tag ≠ "" then appName ++ "-" ++ tag else appName) ∧
    inst.config = if reduceYAML yaml config = "" then "\n" else reduceYAML yaml config
  short : inst.name.utf8ByteSize ≤ 63

private theorem yields_requestedSettings (body : Json) (server : Server) :
    Yields (requestedSettings body) server fun settings _ => memberText body "group" = some settings.group ∧
      memberText body "cluster" = some settings.cluster ∧ memberText body "configuration" = some settings.config ∧
        settings.chartVersion = (memberText body "chartVersion").getD "" := by
  unfold requestedSettings
  rw [yields_bind]
  apply (yields_checkRequired body "group" _ _ server).mono
  intro _ _ grouped
  rw [yields_bind]
  apply (yields_checkRequired body "cluster" _ _ _).mono
  intro _ _ clustered
  rw [yields_bind]
  apply (yields_checkRequired body "configuration" _ _ _).mono
  exact fun _ _ configured => ⟨grouped, clustered, configured, rfl⟩

private theorem yields_installPlace (user : User) (appName groupID clusterID : String) (server : Server) :
    Yields (installPlace user appName groupID clusterID) server fun place _ =>
      server.MeansGroup groupID place.1 ∧ server.MeansCluster clusterID place.2 := by
  unfold installPlace
  rw [yields_bind, yields_onStore]
  apply ((yields_getGroup groupID server).and (leads_getGroup SameClusters.caching groupID server).yields).mono
  rintro group located ⟨means, same⟩
  rw [yields_bind, yields_require]
  intro valid
  rw [yields_bind, yields_onStore]
  apply (yields_getCluster clusterID located).mono
  intro cluster passed named
  rw [yields_bind, yields_require]
  intro there
  have known : server.MeansGroup groupID group ∧ server.MeansCluster clusterID cluster :=
    ⟨means (Option.some.inj valid), same.means (named (Option.some.inj there))⟩
  apply Yields.after
  intro _ _
  apply Yields.after
  intro _ permitted
  rw [yields_ite]
  split
  next =>
    apply Yields.after
    intro _ _
    apply Yields.after
    intro _ _
    apply Yields.after
    intro _ _
    apply Yields.after
    exact fun _ _ => known
  next => exact known

private theorem yields_askedInstance (user : User) (appName installSrc : String) (value : UInt64) (ctime : String) (body : Json)
    (world : ClusterWorld) : Yields (askedInstance yaml outside user appName installSrc value ctime body) world fun asked _ =>
      AskedInstance yaml outside world value appName installSrc ctime body asked.1 asked.2.1 asked.2.2.1 asked.2.2.2 := by
  unfold askedInstance
  rw [yields_bind, yields_onServer]
  have unchanged : Confined Eq Halt.Refusal (requestedSettings body) := confined_requestedSettings body
  apply ((yields_requestedSettings body world.server).and (unchanged world.server).yields).mono
  rintro settings _ ⟨⟨grouped, clustered, configured, version⟩, rfl⟩
  rw [yields_bind]
  have spared : Confined (ClusterCourse Eq) Halt.Refusal
      (instanceTag yaml outside appName installSrc settings.config settings.chartVersion) :=
    confined_instanceTag yaml outside appName installSrc settings.config settings.chartVersion
  apply ((yields_instanceTag yaml outside appName installSrc settings.config settings.chartVersion _).and (spared _).yields).mono
  rintro tag tagged ⟨given, unchanged⟩
  have server : world.server = tagged.server := unchanged
  rw [yields_bind, yields_onServer]
  have checked : Confined Eq Halt.Refusal (checkInstanceTag tag) := confined_checkInstanceTag tag
  apply (checked tagged.server).yields.mono
  rintro _ _ rfl
  rw [yields_bind, yields_onServer]
  apply (yields_installPlace user appName settings.group settings.cluster tagged.server).mono
  rintro ⟨group, cluster⟩ located ⟨means, meant⟩
  dsimp only at means meant ⊢
  rw [yields_bind, yields_onServer, namedInstance, yields_bind, yields_require]
  intro short
  rw [yields_pure]
  apply Yields.after
  intro _ _
  rw [← server] at means meant
  exact ⟨version, rfl, rfl, rfl, ⟨rfl, settings.group, grouped, means⟩, ⟨rfl, settings.cluster, clustered, meant⟩,
    ⟨settings.config, tag, configured, given, rfl, rfl⟩, of_decide_eq_true (Option.some.inj short)⟩

variable (store : ServerConfiguration) (files : TemporaryFiles)

/-- The last command that has been run has installed the instance with the configuration that it was handed. -/
def InstallAccepted (inst : ApplicationInstance) (group : Group) (cluster : Cluster) (chartVersion : String)
    (before after : HandingWorld) : Prop :=
  ∃ commands clusterConfig configFile version result,
    after.handed = before.handed ++ [⟨configFile, inst.config, true⟩] ∧
    after.commands = commands ++ [installArguments store inst group cluster version configFile chartVersion] ∧
    (outside commands).run "helm" (installArguments store inst group cluster version configFile chartVersion)
      [("KUBECONFIG", clusterConfig)] = .ok result ∧ deployed result = true

section
variable (inst : ApplicationInstance) (group : Group) (cluster : Cluster) (configFile chartVersion : String)

private theorem yields_deployInstance (world : HandingWorld) :
    Yields (deployInstance store outside files inst group cluster configFile chartVersion) world fun _ after =>
      after.handed = world.handed ∧ ∃ commands clusterConfig version result,
        after.commands = commands ++ [installArguments store inst group cluster version configFile chartVersion] ∧
        (outside commands).run "helm" (installArguments store inst group cluster version configFile chartVersion)
          [("KUBECONFIG", clusterConfig)] = .ok result ∧ deployed result = true := by
  unfold deployInstance
  rw [yields_bind]
  apply (yields_inHandler _ world).mono
  intro clusterConfig located same
  rw [yields_bind]
  have named : Yields (catchInHandler (withFiles (kubectlCreateNamespace outside files clusterConfig)) fun message => do
      let _ ← inHandler (removeApplicationInstance inst.id)
      refuse 500 message) located fun _ after => after.handed = located.handed := by
    apply yields_catchInHandler (yields_withFiles _ located)
    intro message after
    rw [yields_bind]
    exact (Yields.trivial _ _).mono fun _ _ _ => trivial
  apply named.mono
  intro _ ready kept
  rw [yields_bind]
  apply (yields_withFiles _ ready).mono
  intro version asked keeps
  dsimp only
  rw [yields_bind, runHelm]
  apply (yields_ranProgram _ _ _).mono
  rintro result after ⟨commands, handed, server, ran⟩
  rw [yields_ite]
  split
  next =>
    rw [yields_bind]
    apply (Yields.trivial _ _).mono
    intro _ _ _
    rw [yields_bind]
    exact (Yields.trivial _ _).mono fun _ _ _ => trivial
  next good =>
    refine ⟨?_, asked.commands, clusterConfig, version, result, commands, runCommand_ran ran, ?_⟩
    · rw [handed, keeps, kept, same.2]
    · rw [Bool.not_eq_true, Bool.not_eq_eq_eq_not, Bool.not_false] at good
      exact good

private theorem ends_deployInstance {before : Server}
    (reversible : Reversible (Database.withInstance inst) (addApplicationInstance inst) (removeApplicationInstance inst.id) before)
    {world : HandingWorld} (stored : Stored (Database.withInstance inst) before world.server) :
    Ends (deployInstance store outside files inst group cluster configFile chartVersion) world
      (fun _ after => Stored (Database.withInstance inst) before after.server)
      fun halt after => Halted (Database.withInstance inst) before halt after.server := by
  have thrown : ∀ message, Halt.Escape (.thrown message) := fun _ => trivial
  unfold deployInstance
  rw [ends_bind]
  apply (ends_then (confined_inHandler thrown (leads_configPathForCluster OnlyReads.looking _)) stored).mono _ fun _ _ => id
  intro clusterConfig located stored
  rw [ends_bind]
  apply (ends_catch (confined_withFiles (confined_kubectlCreateNamespace outside files clusterConfig))
    (fun message world stored => ends_takeBack_inHandler reversible (by decide) _ stored) stored).mono _ fun _ _ => id
  intro _ ready stored
  rw [ends_bind]
  have version : Confined (HandingCourse OnlyReads) Halt.Escape
      (withFiles (runProgram ["version"] fun commands => getHelmMajorVersion (outside commands))) :=
    confined_withFiles (confined_runProgram thrown _ fun _ => leads_getHelmMajorVersion _)
  apply (ends_then version stored).mono _ fun _ _ => id
  intro version asked stored
  dsimp only
  rw [ends_bind]
  apply (ends_then (confined_withFiles (confined_runHelm outside _ _)) stored).mono _ fun _ _ => id
  intro result after stored
  rw [ends_ite]
  split
  next =>
    rw [ends_bind]
    apply (ends_inHandler (reversible.removed after.server stored)).mono
    · intro _ removed left
      -- The clean-up asks nothing of the database, whatever comes of it.
      have cleaned : Confined (HandingCourse Eq) Halt.Escape
          (withFiles (runHelm outside (cleanupArguments inst group cluster version) [("KUBECONFIG", clusterConfig)])) :=
        confined_withFiles (confined_runHelm outside _ _)
      rw [ends_bind]
      apply (cleaned removed).mono
      · intro _ after same
        have equal : removed.server = after.server := same
        rw [equal] at left
        exact ⟨(by decide : 500 ≠ 200), left⟩
      · rintro halt after ⟨escape, same⟩
        have equal : removed.server = after.server := same
        rw [equal] at left
        cases halt with
        | response response => exact escape.elim
        | thrown message => exact .inr left
        | assertion => exact .inr left
    · rintro halt after ⟨message, -, impossible⟩
      exact impossible.elim
  next => exact stored

end

/-- The instance is asked for, and its configuration is written to a file. -/
def askInstance (user : User) (appName installSrc : String) (value : UInt64) (ctime : String) (body : Json) :
    HandingM ((ApplicationInstance × Group × Cluster × String) × String) := do
  let asked ← withFiles (askedInstance yaml outside user appName installSrc value ctime body)
  let configFile ← writeInstanceConfig files asked.1
  return (asked, configFile)

def recordInstance (appName : String) (asked : (ApplicationInstance × Group × Cluster × String) × String) : HandingM Response := do
  storeInstance asked.1.1
  deployInstance store outside files asked.1.1 asked.1.2.1 asked.1.2.2.1 asked.2 asked.1.2.2.2
  return installResponse asked.1.1 appName

private theorem installApplicationImpl_eq (user : User) (appName installSrc : String) (value : UInt64) (ctime : String) (body : Json) :
    installApplicationImpl yaml store outside files user appName installSrc value ctime body =
      askInstance yaml outside files user appName installSrc value ctime body >>= recordInstance outside store files appName := by
  simp only [askInstance, bind_assoc, pure_bind]
  rfl

private theorem confined_askInstance (user : User) (appName installSrc : String) (value : UInt64) (ctime : String) (body : Json) :
    Confined (HandingCourse OnlyReads) Halt.Refusal (askInstance yaml outside files user appName installSrc value ctime body) := by
  have written : ∀ inst, Confined (HandingCourse OnlyReads) Halt.Refusal (writeInstanceConfig files inst) := by
    intro inst
    apply (confined_fromExcept (fun _ => trivial) _).bind
    intro path
    apply (confined_handOver files path _).bind
    intro _
    exact .ite ((confined_refuse (by decide) _).bind fun _ => .pure _) (.pure _)
  apply (confined_withFiles (confined_askedInstance yaml outside user appName installSrc value ctime body)).bind
  intro asked
  exact (written asked.1).bind fun _ => .pure _

private theorem yields_askInstance (user : User) (appName installSrc : String) (value : UInt64) (ctime : String) (body : Json)
    (world : HandingWorld) : Yields (askInstance yaml outside files user appName installSrc value ctime body) world fun asked after =>
      AskedInstance yaml outside world.toClusterWorld value appName installSrc ctime body asked.1.1 asked.1.2.1
          asked.1.2.2.1 asked.1.2.2.2 ∧
        after.handed = world.handed ++ [⟨asked.2, asked.1.1.config, true⟩] := by
  have known : Yields (withFiles (askedInstance yaml outside user appName installSrc value ctime body)) world fun asked _ =>
      AskedInstance yaml outside world.toClusterWorld value appName installSrc ctime body asked.1 asked.2.1 asked.2.2.1 asked.2.2.2 := by
    have yields := yields_askedInstance yaml outside user appName installSrc value ctime body world.toClusterWorld
    unfold Yields at yields ⊢
    unfold withFiles
    cases ran : askedInstance yaml outside user appName installSrc value ctime body world.toClusterWorld with
    | ok asked after =>
      rw [ran] at yields
      exact yields
    | error halt after => trivial
  unfold askInstance
  rw [yields_bind]
  apply (known.and (yields_withFiles _ world)).mono
  rintro asked middle ⟨instance_, same⟩
  rw [yields_bind, writeInstanceConfig, yields_bind, yields_fromExcept]
  intro path _
  rw [yields_bind, handOver, yields_modify]
  dsimp only
  rw [yields_ite]
  split
  next =>
    rw [yields_bind]
    exact trivial
  next good =>
    refine ⟨instance_, ?_⟩
    rw [Bool.not_eq_true, Bool.not_eq_eq_eq_not, Bool.not_false] at good
    rw [good, same]

private theorem ends_storeInstance {before : Server} {inst : ApplicationInstance}
    (reversible : Reversible (Database.withInstance inst) (addApplicationInstance inst) (removeApplicationInstance inst.id) before)
    {world : HandingWorld} (reads : OnlyReads before world.server) :
    Ends (storeInstance inst) world (fun _ after => Stored (Database.withInstance inst) before after.server)
      fun halt after => Halted (Database.withInstance inst) before halt after.server := by
  unfold storeInstance
  rw [ends_bind]
  apply (ends_inHandler (reversible.added world.server reads)).mono
  · intro success after added
    cases success with
    | true => exact added
    | false => exact ⟨(by decide : 500 ≠ 200), .inr added⟩
  · rintro halt after ⟨message, rfl, same⟩
    exact .inr (.inl same.database)

private theorem ends_recordInstance {before : Server} {asked : (ApplicationInstance × Group × Cluster × String) × String}
    (fresh : NoInstance asked.1.1.id before.database) (appName : String) {world : HandingWorld} (reads : OnlyReads before world.server) :
    Ends (recordInstance outside store files appName asked) world
      (fun response after => response.status = 200 ∧ Stored (Database.withInstance asked.1.1) before after.server)
      fun halt after => Halted (Database.withInstance asked.1.1) before halt after.server := by
  have reversible := reversible_instance fresh
  unfold recordInstance
  rw [ends_bind]
  apply (ends_storeInstance reversible reads).mono _ fun _ _ => id
  intro _ ready stored
  rw [ends_bind]
  apply (ends_deployInstance outside store files asked.1.1 asked.1.2.1 asked.1.2.2.1 asked.2 asked.1.2.2.2 reversible stored).mono _ fun _ _ => id
  exact fun _ _ stored => ⟨rfl, stored⟩

private theorem yields_recordInstance (appName : String) (asked : (ApplicationInstance × Group × Cluster × String) × String)
    (world : HandingWorld) :
    Yields (recordInstance outside store files appName asked) world fun response after =>
      response = installResponse asked.1.1 appName ∧ after.handed = world.handed ∧ ∃ commands clusterConfig version result,
        after.commands = commands ++ [installArguments store asked.1.1 asked.1.2.1 asked.1.2.2.1 version asked.2 asked.1.2.2.2] ∧
        (outside commands).run "helm" (installArguments store asked.1.1 asked.1.2.1 asked.1.2.2.1 version asked.2 asked.1.2.2.2)
          [("KUBECONFIG", clusterConfig)] = .ok result ∧ deployed result = true := by
  unfold recordInstance
  rw [yields_bind]
  have kept : Yields (storeInstance asked.1.1) world fun _ after => after.handed = world.handed := by
    unfold storeInstance
    rw [yields_bind]
    apply (yields_inHandler _ world).mono
    intro success after same
    rw [yields_require]
    exact fun _ => same.2
  apply kept.mono
  intro _ ready same
  rw [yields_bind]
  apply (yields_deployInstance outside store files asked.1.1 asked.1.2.1 asked.1.2.2.1 asked.2 asked.1.2.2.2 ready).mono
  exact fun _ _ installed => ⟨rfl, installed.1.trans same, installed.2⟩

end

def installOutside : Outsides := fun _ => ⟨fun _ arguments _ =>
  .ok { output := if arguments = ["version"] then "Version:\"v3.5\"" else "STATUS: deployed" }⟩

def installYaml : Yaml where
  loadAll text := .ok [if startsWith "Instance: " text then .map [("Instance", .scalar (.ofList (text.toList.drop 10)))] else .scalar text]
  emit
    | [.map [(key, .scalar text)]] => key ++ ": " ++ text
    | _ => ""

def installBody : Json :=
  .object [("group", .string "group_1"), ("cluster", .string "atlas"), ("configuration", .string "Instance: blog")]

/-- What comes of a request for an instance that nothing stands in the way of. -/
def installOutcome : Option Response × HandingWorld :=
  ending (installApplicationImpl installYaml ⟨"", 0, "slateci.net"⟩ installOutside secretFiles secretUser "nginx" "slate/nginx" 1 "today"
    installBody volumeWorld)

end Slate
