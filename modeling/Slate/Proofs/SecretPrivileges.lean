import Slate.Proofs.UserPrivileges

/-! What the handlers of requests about secrets keep of others, and whose contents their replies have. -/

namespace Slate
open Library Handler

def askedGroup (body : Json) : String := (body.member "metadata" >>= (memberText · "group")).getD ""

namespace SecretCommand

/-- The ID of a new secret is set aside exactly if it is for a closed group, and so is what its contents are encrypted to. -/
def Fresh (party : Party) (coding : SecretCoding) : SecretCommand → Prop
  | createSecret value salt _ body => (generateSecretID value ∈ party.secrets ↔ party.Closed (askedGroup body)) ∧
      ∀ plain data, coding.encrypt salt plain = .ok data → data ∈ party.sealed → party.Closed (askedGroup body)
  | _ => True

/-- A command that copies no secret of a closed group to a group that is not closed. -/
def Reserved (party : Party) : SecretCommand → Prop
  | createSecret _ _ _ body => ∀ sourceID, memberText body "copyFrom" = some sourceID → sourceID ∈ party.secrets →
      party.Closed (askedGroup body)
  | _ => True

end SecretCommand

section
variable {party : Party} {coding : SecretCoding} {known : Secret → Prop} {own : Prop} {user : User}

private theorem minds_catchInHandler {σ α : Type} {view : σ → Server} {good : α → Prop} {program : EStateM Halt σ α}
    {handler : String → EStateM Halt σ α} (minds : MindsIn view party coding known own program good)
    (handled : ∀ message, MindsIn view party coding known own (handler message) good) :
    MindsIn view party coding known own (catchInHandler program handler) good := by
  apply minds.tryCatch
  intro halt discreet
  cases halt with
  | thrown message =>
    exact .ite (fun _ => minds_throw message) fun _ => handled message
  | response response => exact .throw discreet
  | assertion => exact .throw fun _ impossible => by cases impossible

/-- Of what is encrypted or decrypted nothing is known but where it comes from. -/
theorem upheld_decryptSecret (secret : Secret) :
    Upheld party own (decryptSecret coding secret) fun plain => coding.decrypt secret.data = .ok plain := by
  unfold decryptSecret
  refine .ite (fun _ => .throw trivial) fun _ => ?_
  split
  next plain found => exact .pure found
  next => exact .throw trivial

private theorem upheld_encryptContents (salt : Nat) (members : Members) :
    Upheld party own (encryptContents coding salt members) fun data => ∃ plain, coding.encrypt salt plain = .ok data := by
  unfold encryptContents encryptSecret
  dsimp only
  split
  next data found => exact .pure ⟨_, found⟩
  next => exact .throw trivial

private theorem minds_secretDocument (secret : Secret) : Minds party coding known own (secretDocument coding secret) fun document =>
    ∃ plain, coding.decrypt secret.data = .ok plain ∧ document = coding.parse plain := by
  apply minds_catchInHandler
  · apply (minds_onStore (upheld_decryptSecret secret)).bind
    intro plain found
    exact .pure ⟨plain, found, rfl⟩
  · exact fun _ => minds_refuse _ _

/-- Who may look at a secret is a member of its group, so that it is of no closed one if the party asks. -/
theorem minds_forMember {α : Type} {good : α → Prop} {secret : Secret} (mine : own → user.id ∈ party.ids) (message : String)
    {rest : HandlerM α} (goesOn : secret.valid = true → (own → ¬ party.Closed secret.group) → Minds party coding known own rest good) :
    Minds party coding known own (do
      require (some secret.valid) 404 message
      let member ← onStore (userInGroup user.id secret.group)
      require (some member) 403 "User not authorized"
      rest) good := by
  apply (minds_require _ _ _).bind
  intro _ there
  apply (minds_onStore (upheld_userInGroup user.id secret.group)).bind
  intro member decided
  apply (minds_require _ _ _).bind
  intro _ yes
  exact goesOn (Option.some.inj there) fun is => decided (Option.some.inj yes) (mine is)

private theorem minds_memberSecret {α : Type} {good : α → Prop} (mine : own → user.id ∈ party.ids) (secretID message : String)
    {rest : Secret → HandlerM α} (goesOn : ∀ secret, secret.valid = true → secret.id = secretID → party.FitsSecret secret →
      (own → ¬ party.Closed secret.group) → Minds party coding known own (rest secret) good) :
    Minds party coding known own (do
      let secret ← onStore (getSecret secretID)
      require (some secret.valid) 404 message
      let member ← onStore (userInGroup user.id secret.group)
      require (some member) 403 "User not authorized"
      rest secret) good := by
  apply (minds_onStore (upheld_getSecret secretID)).bind
  rintro secret ⟨fits, same⟩
  exact minds_forMember mine message fun there => goesOn secret there (same there) fits

/-- The secrets that are known may be shown. -/
theorem minds_shownSecret (mine : own → user.valid = true → user.id ∈ party.ids) (secretID : String) {server : Server}
    (contained : Contained party server)
    (knows : Yields (getSecret secretID) server fun secret _ => secret.valid = true → known secret) :
    Ends (getSecretRequest coding user secretID) server
      (fun response after => Contained party after ∧ Sparing party own server after ∧ DiscreetTo party coding known own response)
      fun halt after => Contained party after ∧ Sparing party own server after ∧
        ∀ response, halt = .response response → DiscreetTo party coding known own response := by
  have permitted : Yields (require (some user.valid) 403 "User not authorized" : HandlerM Unit) server
      fun _ middle => middle = server := by
    rw [yields_require]
    exact fun _ => rfl
  have minds : Minds party coding known own (require (some user.valid) 403 "User not authorized") fun _ => some user.valid = some true :=
    minds_require _ _ _
  apply minds.bind_ends contained permitted
  rintro _ _ valid kept rfl
  apply Upholds.bind_ends (minds_onStore (upheld_getSecret secretID)) kept ((yields_onStore _ _ _).mpr knows)
  rintro secret middle ⟨fits, -⟩ kept shown
  refine minds_forMember (fun is => mine is (Option.some.inj valid)) _ ?_ middle kept
  intro there outside
  apply (minds_onStore (upheld_getGroup secret.group)).bind
  intro group _
  apply (minds_onStore (upheld_getCluster secret.cluster)).bind
  intro cluster _
  apply (minds_secretDocument secret).bind
  rintro contents ⟨plain, opened, rfl⟩
  refine .pure fun is => ⟨?_, ?_⟩
  · rintro _ ⟨⟩ token discloses
    simp at discloses
  · rintro _ ⟨⟩
    exact ⟨secret, plain, shown there, outside is, mt (fits.data there) (outside is), opened, rfl⟩

private theorem minds_listSecretsRequest (group cluster : Option String) :
    Minds party coding known own (listSecretsRequest user group cluster) (DiscreetTo party coding known own) := by
  apply (minds_require _ _ _).bind
  intro _ _
  cases group with
  | none => exact minds_refuse _ _
  | some groupRaw =>
    apply (minds_onStore (upheld_getGroup groupRaw)).bind
    intro group _
    apply (minds_require _ _ _).bind
    intro _ _
    have each : ∀ secret : Secret, Minds party coding known own (do
        let group ← onStore (getGroup secret.group)
        let cluster ← onStore (getCluster secret.cluster)
        return listedSecretItem secret group cluster) fun item => ∀ token, ¬ Discloses token item := by
      intro secret
      apply (minds_onStore (upheld_getGroup secret.group)).bind
      intro group _
      apply (minds_onStore (upheld_getCluster secret.cluster)).bind
      intro cluster _
      apply Upholds.pure
      intro token
      simp [listedSecretItem]
    have listed : Minds party coding known own (do
        let secrets ← onStore (listSecrets group.id (cluster.getD ""))
        let items ← secrets.mapM fun secret => do
          let group ← onStore (getGroup secret.group)
          let cluster ← onStore (getCluster secret.cluster)
          return listedSecretItem secret group cluster
        return ⟨200, some (.object [("apiVersion", .string "v1alpha3"), ("items", .array items)])⟩)
        (DiscreetTo party coding known own) := by
      apply (minds_onStore (upheld_listSecrets _ _)).bind
      intro secrets _
      apply (Upholds.mapM fun secret _ => each secret).bind
      intro items silent
      apply Upholds.pure
      apply discreet_plain rfl
      intro _ token discloses
      have inside : ∃ item ∈ items, Discloses token item := by simpa using discloses
      obtain ⟨item, member, deeper⟩ := inside
      exact absurd deeper (silent item member token)
    refine .ite (fun _ => ?_) fun _ => listed
    apply (minds_onStore (upheld_userInGroup user.id group.id)).bind
    intro member _
    exact (minds_require _ _ _).bind fun _ _ => listed

private theorem minds_deleteSecretRequest (mine : own → user.valid = true → user.id ∈ party.ids) (outside : Outside)
    (secretID : String) (force : Bool) :
    Minds party coding known own (deleteSecretRequest outside user secretID force) (DiscreetTo party coding known own) := by
  apply (minds_require _ _ _).bind
  intro _ valid
  apply minds_memberSecret fun is => mine is (Option.some.inj valid)
  intro secret there _ fits apart
  have spared : own → secret.id ∉ party.secrets := fun is => mt (fits.place there).mp (apart is)
  apply (minds_onStore (upheld_deleteSecret outside force true spared)).bind
  intro err _
  exact (minds_require _ _ _).bind fun _ _ => .pure (discreet_silent 200)

private theorem minds_checkSecretMember (member : String × Json) :
    Minds party coding known own (checkSecretMember member) fun _ => True := by
  iterate 4
    apply (minds_require _ _ _).bind
    intro _ _
  exact (minds_require _ _ _).mono fun _ _ => trivial

private theorem minds_checkSecretBody (body : Json) :
    Minds party coding known own (checkSecretBody body) fun checked => body.member "metadata" = some checked.1 := by
  apply (minds_requestMetadata _ _ _).bind
  intro metadata there
  iterate 3
    apply (minds_checkRequired _ _ _ _).bind
    intro _ _
  apply (minds_require _ _ _).bind
  intro _ _
  apply (minds_require _ _ _).bind
  intro _ _
  split
  next members _ => exact (Upholds.forM fun member _ => minds_checkSecretMember member).bind fun _ _ => .pure there
  next => exact minds_refuse _ _
  next => exact (minds_checkOptional _ _ _).bind fun _ _ => .pure there

private theorem minds_requestedSecret (mine : own → user.id ∈ party.ids) (value : UInt64) (ctime : String) (body : Json) :
    Minds party coding known own (requestedSecret user value ctime body) fun asked => asked.1.valid = true ∧
      asked.1.id = generateSecretID value ∧ (party.Closed asked.1.group ↔ party.Closed (askedGroup body)) ∧
      (own → ¬ party.Closed asked.1.group) := by
  apply (minds_checkSecretBody body).bind
  rintro ⟨metadata, contents⟩ there
  have named : askedGroup body = (memberText metadata "group").getD "" := by
    rw [askedGroup, there, Option.bind_eq_bind, Option.bind_some]
  apply (minds_accessing _).bind
  intro name _
  have checked : Minds party coding known own (checkSecretName name) fun _ => True :=
    (minds_require _ _ _).bind fun _ _ => (minds_require _ _ _).mono fun _ _ => trivial
  apply checked.bind
  intro _ _
  apply (minds_onStore (upheld_getGroup _)).bind
  intro group same
  apply (minds_require _ _ _).bind
  intro _ valid
  have same := same (Option.some.inj valid)
  rw [← named] at same
  apply (minds_onStore (upheld_userInGroup user.id group.id)).bind
  intro member decided
  apply (minds_require _ _ _).bind
  intro _ yes
  have outside : own → ¬ party.Closed group.id := fun is => decided (Option.some.inj yes) (mine is)
  apply (minds_onStore (upheld_getCluster _)).bind
  intro cluster _
  apply (minds_require _ _ _).bind
  intro _ _
  have settled : Minds party coding known own (do
      let existing ← onStore (findSecretByName group.id cluster.id name)
      require (some !existing.valid) 400 "A secret with the same name already exists"
      return (({ valid := true, id := generateSecretID value, name, group := group.id, cluster := cluster.id, ctime } : Secret),
        group, contents)) fun asked => asked.1.valid = true ∧ asked.1.id = generateSecretID value ∧
        (party.Closed asked.1.group ↔ party.Closed (askedGroup body)) ∧ (own → ¬ party.Closed asked.1.group) := by
    apply (minds_onStore (upheld_findSecretByName group.id cluster.id name)).bind
    intro existing _
    exact (minds_require _ _ _).bind fun _ _ => .pure ⟨rfl, rfl, same, outside⟩
  refine .ite (fun _ => ?_) fun _ => settled
  apply (minds_onStore (upheld_groupAllowedOnCluster group.id cluster.id)).bind
  intro allowed _
  exact (minds_require _ _ _).bind fun _ _ => settled

/-- Sealed data comes only to a closed group. -/
theorem minds_secretData (mine : own → user.id ∈ party.ids) {value : UInt64} {salt : Nat} {ctime : String} {body : Json}
    (fresh : (SecretCommand.createSecret value salt ctime body).Fresh party coding)
    (reserved : ¬ own → (SecretCommand.createSecret value salt ctime body).Reserved party) (contents : Option Members) :
    Minds party coding known own (secretData coding user salt body contents) fun result =>
      result.1 ∈ party.sealed → party.Closed (askedGroup body) := by
  cases contents with
  | some members =>
    apply (minds_onStore (upheld_encryptContents salt members)).bind
    rintro data ⟨plain, encrypted⟩
    exact .pure (fresh.2 plain data encrypted)
  | none =>
    apply (minds_accessing _).bind
    intro sourceID named
    apply minds_memberSecret mine
    intro existing there same fits outside
    apply (minds_onStore (upheld_decryptSecret existing)).bind
    intro plain _
    refine .pure fun inside => ?_
    have closed := fits.data there inside
    by_cases is : own
    · exact absurd closed (outside is)
    · exact reserved is sourceID named (same ▸ (fits.place there).mpr closed)

theorem ends_onServer_iff {α : Type} (program : HandlerM α) (world : ClusterWorld) (post : α → ClusterWorld → Prop)
    (thrown : Halt → ClusterWorld → Prop) : Ends (onServer program) world post thrown ↔ Ends program world.server
      (fun value server => post value { world with server }) fun halt server => thrown halt { world with server } := by
  unfold Ends onServer
  cases program world.server with
  | ok => rfl
  | error => rfl

theorem ends_onCluster_iff {α : Type} (program : ClusterM α) (world : SecretWorld) (post : α → SecretWorld → Prop)
    (thrown : Halt → SecretWorld → Prop) : Ends (onCluster program) world post thrown ↔ Ends program world.toClusterWorld
      (fun value after => post value { world with toClusterWorld := after })
      fun halt after => thrown halt { world with toClusterWorld := after } := by
  unfold Ends onCluster
  cases program world.toClusterWorld with
  | ok => rfl
  | error => rfl

theorem minds_onServer {α : Type} {program : HandlerM α} {good : α → Prop} (minds : Minds party coding known own program good) :
    MindsIn ClusterWorld.server party coding known own (onServer program) good :=
  minds.within (fun _ _ => rfl) (ends_onServer_iff program)

theorem minds_onCluster {α : Type} {program : ClusterM α} {good : α → Prop}
    (minds : MindsIn ClusterWorld.server party coding known own program good) :
    MindsIn (fun world : SecretWorld => world.server) party coding known own (onCluster program) good :=
  minds.within (fun _ _ => rfl) (ends_onCluster_iff program)

theorem minds_fromExcept {σ α : Type} {view : σ → Server} (result : Except String α) :
    MindsIn view party coding known own (fromExcept result) fun _ => True := by
  cases result with
  | ok value => exact .pure trivial
  | error message => exact minds_throw message

theorem minds_runProgram {α : Type} {arguments : List String} {program : List (List String) → StoreM α}
    (upheld : ∀ commands, Upheld party own (program commands) fun _ => True) :
    MindsIn ClusterWorld.server party coding known own (runProgram arguments program) fun _ => True := by
  apply Upholds.get.bind
  intro world _
  apply (minds_onServer (minds_onStore (upheld world.commands))).bind
  intro result _
  have noted : MindsIn ClusterWorld.server party coding known own (modify fun world : ClusterWorld =>
      { world with commands := world.commands ++ [arguments] }) fun _ => True :=
    .modifies fun world contained => ⟨contained, refl (r := Sparing party own) world.server⟩
  exact noted.bind fun _ _ => .pure trivial

private theorem minds_kubectlRun (outside : Outsides) (configPath : String) (arguments : List String) :
    MindsIn ClusterWorld.server party coding known own (kubectlRun outside configPath arguments) fun _ => True :=
  minds_runProgram fun _ => upheld_kubectl _ _ _

private theorem minds_kubectlCreateNamespace (outside : Outsides) (files : TemporaryFiles) (configPath : String) :
    MindsIn ClusterWorld.server party coding known own (kubectlCreateNamespace outside files configPath) fun _ => True := by
  have versioned : MindsIn ClusterWorld.server party coding known own (getControllerVersion outside configPath) fun _ => True :=
    (minds_runProgram fun _ => upheld_runCommand _ _ _ _).bind fun _ _ => .pure trivial
  apply versioned.bind
  intro version _
  apply (minds_fromExcept (files.make 0 "namespace_yaml_")).bind
  intro tmpFile _
  apply (minds_runProgram fun _ => upheld_runCommand _ _ _ _).bind
  intro result _
  exact .ite (fun _ => minds_throw _) fun _ => .pure trivial

private theorem minds_writeSecretFile (files : TemporaryFiles) (number : Nat) (member : String × Json) :
    MindsIn (fun world : SecretWorld => world.server) party coding known own (writeSecretFile files number member) fun _ => True := by
  apply (minds_accessing _).bind
  intro coded _
  apply (minds_fromExcept _).bind
  intro content _
  apply (minds_fromExcept _).bind
  intro path _
  have written : MindsIn (fun world : SecretWorld => world.server) party coding known own (do
      if !files.writes path content then
        throw (.thrown ("Failed while writing to " ++ path))
      return ({ key := cText member.1, path, content } : SecretFile)) fun _ => True :=
    .ite (fun _ => (minds_throw _).bind fun _ (_ : True) => .pure trivial) fun _ => .pure trivial
  exact .ite (fun _ => (minds_throw _).bind fun _ (_ : True) => written) fun _ => written

private theorem minds_deploySecret (outside : Outsides) (files : TemporaryFiles) {secret : Secret} (group : Group) (contents : Json)
    (mine : own → secret.id ∉ party.secrets) :
    MindsIn (fun world : SecretWorld => world.server) party coding known own (deploySecret outside files secret group contents)
      fun _ => True := by
  have withdrawn : ∀ message, MindsIn (fun world : SecretWorld => world.server) party coding known own (do
      let _ ← onCluster (onServer (onStore (removeSecret secret.id)))
      refuse 500 message : SecretM Unit) fun _ => True := by
    intro message
    apply (minds_onCluster (minds_onServer (minds_onStore (upheld_removeSecret mine)))).bind
    intro _ _
    exact minds_refuse _ _
  apply (minds_onCluster (minds_onServer (minds_onStore (upheld_configPathForCluster secret.cluster)))).bind
  intro configPath _
  apply (minds_catchInHandler (minds_onCluster (minds_kubectlCreateNamespace outside files configPath)) fun _ => withdrawn _).bind
  intro _ _
  apply (minds_accessing _).bind
  intro members _
  apply (Upholds.mapM fun entry _ => minds_writeSecretFile files (entry.2 + 1) entry.1).bind
  intro valueFiles _
  have handed : MindsIn (fun world : SecretWorld => world.server) party coding known own (modify fun world : SecretWorld =>
      { world with handed := world.handed ++ [valueFiles] }) fun _ => True :=
    .modifies fun world contained => ⟨contained, refl (r := Sparing party own) world.server⟩
  apply handed.bind
  intro _ _
  apply (minds_onCluster (minds_kubectlRun outside configPath _)).bind
  intro result _
  exact .ite (fun _ => withdrawn _) fun _ => .pure trivial

private theorem minds_createSecret (fits : own → user.valid = true → user.id ∈ party.ids) (outside : Outsides) (files : TemporaryFiles)
    {value : UInt64} {salt : Nat} {ctime : String} {body : Json}
    (fresh : (SecretCommand.createSecret value salt ctime body).Fresh party coding)
    (reserved : ¬ own → (SecretCommand.createSecret value salt ctime body).Reserved party) :
    MindsIn (fun world : SecretWorld => world.server) party coding known own
      (createSecret outside files coding user value salt ctime body) (DiscreetTo party coding known own) := by
  apply (minds_onCluster (minds_onServer (minds_require _ _ _))).bind
  intro _ valid
  have mine : own → user.id ∈ party.ids := fun is => fits is (Option.some.inj valid)
  apply (minds_onCluster (minds_onServer (minds_requestedSecret mine value ctime body))).bind
  rintro ⟨secret, group, contents⟩ ⟨valid, named, same, apart⟩
  apply (minds_onCluster (minds_onServer (minds_secretData mine fresh reserved contents))).bind
  rintro ⟨data, contents⟩ sealed
  have fitting : party.FitsSecret { secret with data } := by
    refine ⟨fun _ => ?_, fun _ inside => same.mpr (sealed inside)⟩
    dsimp only
    rw [named, same]
    exact fresh.1
  have spared : own → secret.id ∉ party.secrets := by
    intro is
    rw [named, fresh.1, ← same]
    exact apart is
  have stored : Minds party coding known own (storeSecret { secret with data }) fun _ => True := by
    have added : Upheld party own (addSecret { secret with data }) fun _ => True := upheld_addSecret valid fitting spared
    apply (minds_onStore (upheld_catchRuntimeError added fun _ => .pure trivial)).bind
    intro success _
    exact (minds_require _ _ _).mono fun _ _ => trivial
  apply (minds_onCluster (minds_onServer stored)).bind
  intro _ _
  have deployed : MindsIn (fun world : SecretWorld => world.server) party coding known own
      (deploySecret outside files { secret with data } group contents) fun _ => True :=
    minds_deploySecret outside files group contents spared
  apply deployed.bind
  intro _ _
  apply Upholds.pure
  apply discreet_plain rfl
  intro _ token discloses
  simp at discloses

/-- Each command but the one that shows a secret, sent by a user with or without rights. -/
theorem minds_performSecret (mine : own → user.valid = true → user.id ∈ party.ids) (outside : Outsides) (files : TemporaryFiles)
    {command : SecretCommand} (fresh : command.Fresh party coding) (reserved : ¬ own → command.Reserved party)
    (hides : ∀ secretID, command ≠ .getSecret secretID) :
    MindsIn (fun world : SecretWorld => world.server) party coding known own (command.perform files coding outside user)
      (DiscreetTo party coding known own) := by
  cases command with
  | listSecrets group cluster => exact minds_onCluster (minds_onServer (minds_listSecretsRequest group cluster))
  | createSecret value salt ctime body => exact minds_createSecret mine outside files fresh reserved
  | deleteSecret secretID force =>
    apply Upholds.get.bind
    intro world _
    exact minds_onCluster (minds_onServer (minds_deleteSecretRequest mine _ secretID force))
  | getSecret secretID => exact absurd rfl (hides secretID)

end

end Slate
