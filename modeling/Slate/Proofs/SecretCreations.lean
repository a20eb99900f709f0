import Slate.ClusterSetup
import Slate.Proofs.VolumeCreations

/-! A secret is recorded if and only if its creation is answered as a success, as far as the
database and the programs that are run allow. -/

namespace Slate
open Library Handler

def Database.withSecret (secret : Secret) (database : Database) : Database :=
  { database with secrets := database.secrets.insert secret.id (itemOfSecret secret) }

private theorem confined_cacheSecret (secret : Secret) : Confined OnlyReads (fun _ => False) (cacheSecret secret) := by
  apply (confined_lasting _ _).bind
  intro _
  refine confined_now.bind fun _ => confined_now.bind fun _ => ?_
  exact .modifies fun _ => .of_same rfl rfl rfl

private theorem reversible_secret {before : Server} {secret : Secret} (fresh : before.database.secrets.lookup secret.id = none) :
    Reversible (Database.withSecret secret) (addSecret secret) (removeSecret secret.id) before where
  added server reads := by
    unfold addSecret
    rw [ends_ite]
    split
    next => exact reads
    next =>
      rw [ends_ite]
      split
      next => exact reads
      next =>
        apply ends_requested
        · intro given
          rw [ends_bind, ends_modify]
          apply ends_cached (confined_cacheSecret secret)
          exact ⟨(reads.toLater.trans (.answered server)).trans (.of_eq rfl rfl), congrArg (Database.withSecret secret) reads.database⟩
        · intro given
          exact .of_request reads.toLater given rfl
  removed server stored := by
    unfold removeSecret modifySecrets
    rw [ends_bind, ends_modify]
    apply ends_requested
    · intro given
      rw [ends_bind, ends_modify]
      refine .inl ?_
      change { server.database with secrets := AList.erase secret.id server.database.secrets } = before.database
      rw [stored.database, Database.withSecret]
      dsimp only
      rw [FiniteMap.erase_insert fresh]
    · intro given
      exact .inr (.of_request (stored.toLater.trans (.of_eq rfl rfl)) given rfl)

private theorem confined_checkSecretMember {relation : Server → Server → Prop} [IsPreorder Server relation] (member : String × Json) :
    Confined relation Halt.Refusal (checkSecretMember member) := by
  refine (confined_require (by decide) _ _).bind fun _ => (confined_require (by decide) _ _).bind fun _ => ?_
  refine (confined_require (by decide) _ _).bind fun _ => (confined_require (by decide) _ _).bind fun _ => ?_
  exact confined_require (by decide) _ _

private theorem confined_checkSecretBody {relation : Server → Server → Prop} [IsPreorder Server relation] (body : Json) :
    Confined relation Halt.Refusal (checkSecretBody body) := by
  apply (confined_requestMetadata body _ _).bind
  intro metadata
  have required : ∀ name missing incorrect, Confined relation Halt.Refusal (checkRequired metadata name missing incorrect) :=
    fun _ _ _ => confined_checkRequired _ _ _ _
  refine (required _ _ _).bind fun _ => (required _ _ _).bind fun _ => (required _ _ _).bind fun _ => ?_
  refine (confined_require (by decide) _ _).bind fun _ => (confined_require (by decide) _ _).bind fun _ => ?_
  split
  next => exact (Confined.forM fun member _ => confined_checkSecretMember member).bind fun _ => .pure _
  next => exact confined_refuse (by decide) _
  next => exact (confined_checkOptional _ _ _).bind fun _ => .pure _

private theorem confined_requestedSecret (user : User) (value : UInt64) (ctime : String) (body : Json) :
    Confined OnlyReads Halt.Refusal (requestedSecret user value ctime body) := by
  apply (confined_checkSecretBody body).bind
  intro checked
  apply (confined_accessing (show Halt.Refusal .assertion from trivial) _).bind
  intro name
  apply Confined.bind ((confined_require (by decide) _ _).bind fun _ => confined_require (by decide) _ _)
  intro _
  apply (confined_lookup (leads_getGroup OnlyReads.looking.caching _)).bind
  intro group
  refine (confined_require (by decide) _ _).bind fun _ => (confined_lookup (leads_userInGroup_reads _ _)).bind fun _ => ?_
  refine (confined_require (by decide) _ _).bind fun _ => (confined_lookup (leads_getCluster OnlyReads.looking _)).bind fun cluster => ?_
  apply (confined_require (by decide) _ _).bind
  intro _
  have named : Confined OnlyReads Halt.Refusal (onStore (findSecretByName group.id cluster.id name)) :=
    confined_lookup ((leads_listSecrets_reads _ _).bind fun _ => .pure _)
  have rest : ∀ existing : Secret, Confined OnlyReads Halt.Refusal (do
      require (some !existing.valid) 400 "A secret with the same name already exists"
      return (({ valid := true, id := generateSecretID value, name, group := group.id, cluster := cluster.id, ctime } : Secret),
        group, checked.2)) :=
    fun _ => (confined_require (by decide) _ _).bind fun _ => .pure _
  refine .ite ?_ (named.bind rest)
  apply (confined_lookup (leads_groupAllowedOnCluster_reads _ _)).bind
  intro _
  exact (confined_require (by decide) _ _).bind fun _ => named.bind rest

section
variable (coding : SecretCoding)

private theorem confined_secretData (user : User) (salt : Nat) (body : Json) (contents : Option Members) :
    Confined OnlyReads Halt.Refusal (secretData coding user salt body contents) := by
  have encrypted : ∀ members, Leads OnlyReads (encryptContents coding salt members) := by
    intro members
    rw [encryptContents_eq, encryptSecret]
    split
    next => exact .pure _
    next => exact .throw _
  have decrypted : ∀ secret, Leads OnlyReads (decryptSecret coding secret) := by
    intro secret
    refine .ite (fun _ => .throw _) fun _ => ?_
    split
    next => exact .pure _
    next => exact .throw _
  cases contents with
  | some members => exact (confined_lookup (encrypted members)).bind fun _ => .pure _
  | none =>
    apply (confined_accessing (show Halt.Refusal .assertion from trivial) _).bind
    intro sourceID
    apply (confined_lookup (leads_getSecret_reads sourceID)).bind
    intro existing
    refine (confined_require (by decide) _ _).bind fun _ => (confined_lookup (leads_userInGroup_reads _ _)).bind fun _ => ?_
    exact (confined_require (by decide) _ _).bind fun _ => (confined_lookup (decrypted existing)).bind fun _ => .pure _

/-- What a user asks for who may: the secret with its data, its group and what is to be deployed. -/
def askSecret (user : User) (value : UInt64) (salt : Nat) (ctime : String) (body : Json) : SecretM (Secret × Group × Json) := do
  onCluster (onServer (require (some user.valid) 403 "User not authorized"))
  let (secret, group, contents) ← onCluster (onServer (requestedSecret user value ctime body))
  let (data, contents) ← onCluster (onServer (secretData coding user salt body contents))
  return ({ secret with data }, group, contents)

private theorem confined_askSecret (user : User) (value : UInt64) (salt : Nat) (ctime : String) (body : Json) :
    Confined (SecretCourse OnlyReads) Halt.Refusal (askSecret coding user value salt ctime body) := by
  apply (confined_onCluster (confined_onServer (confined_require (by decide) _ _))).bind
  intro _
  apply (confined_onCluster (confined_onServer (confined_requestedSecret user value ctime body))).bind
  intro asked
  exact (confined_onCluster (confined_onServer (confined_secretData coding user salt body asked.2.2))).bind fun _ => .pure _

/-- Data that a secret has under an ID, as it is cached or in the table. -/
def Server.HasData (server : Server) (id data : String) : Prop :=
  (∃ secret, CachedAs server.secrets.secretCache id secret ∧ secret.data = data) ∨
    ∃ item, server.database.secrets.lookup id = some item ∧ item.contents = data

private theorem dataKept_hasData (server : Server) (id : String) : DataKept id (server.HasData id) server where
  stored item there := .inr ⟨item, there, rfl⟩
  known entry there := .inl ⟨entry.record, ⟨entry, there, rfl⟩, rfl⟩

/-- Where the data of a secret come from, and the contents that they stand for: they are the encryption of the contents in the body of
the request, or the data of the secret that is to be copied. -/
inductive SuppliedSecret (server : Server) (salt : Nat) (body : Json) (data : String) : Json → Prop where
  | given {members : Members} (asked : body.member "contents" = some (.object members))
      (encrypted : coding.encrypt salt (coding.write members) = .ok data) : SuppliedSecret server salt body data (.object members)
  | copied {source plain : String} (absent : body.member "contents" = none) (asked : memberText body "copyFrom" = some source)
      (stored : server.HasData source data) (decrypted : coding.decrypt data = .ok plain) :
      SuppliedSecret server salt body data (coding.parse plain)

structure AskedSecret (server : Server) (value : UInt64) (salt : Nat) (ctime : String) (body : Json) (secret : Secret) (group : Group)
    (contents : Json) : Prop extends RequestedSecret server value ctime body secret group where
  data : SuppliedSecret coding server salt body secret.data contents

private theorem yields_secretData (user : User) (salt : Nat) {body : Json} {contents : Option Members} (asked : Asked body contents)
    {before server : Server} (kept : ∀ source, DataKept source (before.HasData source) server) :
    Yields (secretData coding user salt body contents) server fun supplied _ =>
      SuppliedSecret coding before salt body supplied.1 supplied.2 := by
  cases contents with
  | some members =>
    apply (yields_secretData_contents coding user salt body members server).mono
    rintro ⟨data, _⟩ _ ⟨encrypted, rfl⟩
    exact .given asked.1 encrypted
  | none =>
    cases named : memberText body "copyFrom" with
    | none =>
      rw [secretData, named, yields_bind, yields_accessing]
      intro _ impossible
      cases impossible
    | some source =>
      apply (yields_secretData_copy coding user salt named (kept source)).mono
      rintro ⟨data, _⟩ _ ⟨stored, plain, decrypted, rfl⟩
      exact .copied asked named stored decrypted

private theorem yields_askSecret (user : User) (value : UInt64) (salt : Nat) (ctime : String) (body : Json) (world : SecretWorld) :
    Yields (askSecret coding user value salt ctime body) world fun asked after =>
      AskedSecret coding world.server value salt ctime body asked.1 asked.2.1 asked.2.2 ∧ after.handed = world.handed := by
  have permitted : Leads Eq (require (some user.valid) 403 "User not authorized" : HandlerM Unit) := leads_require _ _ _
  have still : ∀ source, Yields (requestedSecret user value ctime body) world.server fun _ located =>
      DataKept source (world.server.HasData source) located := fun source =>
    (leads_requestedSecret_kept user value ctime body world.server).yields.mono fun _ _ later =>
      later (dataKept_hasData world.server source)
  have requested : Yields (requestedSecret user value ctime body) world.server fun requested located =>
      (RequestedSecret world.server value ctime body requested.1 requested.2.1 ∧ Asked body requested.2.2) ∧
        ∀ source, DataKept source (world.server.HasData source) located := by
    have known := yields_requestedSecret user value ctime body world.server
    unfold Yields at known still ⊢
    cases ran : requestedSecret user value ctime body world.server with
    | ok requested located =>
      rw [ran] at known still
      exact ⟨known, still⟩
    | error halt after => trivial
  unfold askSecret
  rw [yields_bind, yields_onCluster, yields_onServer]
  apply (permitted world.server).yields.mono
  rintro _ _ rfl
  rw [yields_bind, yields_onCluster, yields_onServer]
  apply requested.mono
  rintro ⟨secret, group, given⟩ located ⟨⟨requested, asked⟩, kept⟩
  dsimp only at requested asked ⊢
  rw [yields_bind, yields_onCluster, yields_onServer]
  apply (yields_secretData coding user salt asked kept).mono
  rintro ⟨data, contents⟩ after supplied
  exact ⟨⟨⟨requested.id, requested.ctime, requested.name, requested.group, requested.cluster⟩, supplied⟩, rfl⟩

end

private theorem yields_ranCommand {α : Type} (arguments : List String) (program : List (List String) → StoreM α) (world : SecretWorld) :
    Yields (onCluster (runProgram arguments program)) world fun value after =>
      after.commands = world.commands ++ [arguments] ∧ after.handed = world.handed ∧
        ∃ server, program world.commands world.server = .ok value server := by
  unfold Yields onCluster
  cases ran : program world.commands world.server with
  | ok value server =>
    rw [runProgram_returned ran]
    exact ⟨rfl, rfl, server, rfl⟩
  | error message server =>
    rw [runProgram_thrown ran]
    trivial

private theorem ends_onStore {α : Type} {program : StoreM α} {server : Server} {post : α → Server → Prop}
    (ends : Ends program server post fun _ _ => False) : Ends (onStore program) server post fun _ _ => False := by
  unfold Ends at ends ⊢
  unfold onStore
  cases ran : program server with
  | ok value after =>
    rw [ran] at ends
    exact ends
  | error message after =>
    rw [ran] at ends
    exact ends

private theorem ends_onServer {α : Type} {program : HandlerM α} {world : SecretWorld} {post : α → Server → Prop}
    {thrown : Halt → Server → Prop}
    (ends : Ends program world.server post thrown) :
    Ends (onCluster (onServer program)) world (fun value after => post value after.server) fun halt after => thrown halt after.server := by
  unfold Ends at ends ⊢
  unfold onCluster onServer
  cases ran : program world.server with
  | ok value after =>
    rw [ran] at ends
    exact ends
  | error halt after =>
    rw [ran] at ends
    exact ends

section
variable (outside : Outsides) (files : TemporaryFiles)

/-- The last command that has been run has created the secret from a file for each of its members. -/
def SecretAccepted (secret : Secret) (group : Group) (contents : Json) (before after : SecretWorld) : Prop :=
  ∃ commands configPath members valueFiles result,
    contents = .object members ∧ after.handed = before.handed ++ [valueFiles] ∧ List.Forall₂ Filed members valueFiles ∧
    after.commands = commands ++ [secretArguments secret.name group.namespaceName valueFiles] ∧
    (outside commands).kubectlAnswer configPath (secretArguments secret.name group.namespaceName valueFiles) = .ok result ∧
    result.status = 0

/-- The deployment once the namespace is there. -/
def deployFiles (secret : Secret) (group : Group) (configPath : String) (members : Members) : SecretM Unit := do
  let valueFiles ← members.zipIdx.mapM fun (member, index) => writeSecretFile files (index + 1) member
  modify fun world => { world with handed := world.handed ++ [valueFiles] }
  let result ← onCluster (kubectlRun outside configPath (secretArguments secret.name group.namespaceName valueFiles))
  if result.status ≠ 0 then
    let _ ← onCluster (onServer (onStore (removeSecret secret.id)))
    refuse 500 ("Failed to store secret to kubernetes: " ++ result.error)

private theorem yields_deployFiles (secret : Secret) (group : Group) (configPath : String) (members : Members) (world : SecretWorld) :
    Yields (deployFiles outside files secret group configPath members) world fun _ after =>
      SecretAccepted outside secret group (.object members) world after := by
  unfold deployFiles
  rw [yields_bind]
  have each : Yields (members.zipIdx.mapM fun entry => writeSecretFile files (entry.2 + 1) entry.1) world
      fun valueFiles after => after = world ∧ List.Forall₂ (fun entry file => Filed entry.1 file) members.zipIdx valueFiles :=
    yields_mapM_each (fun entry world => yields_writeSecretFile files (entry.2 + 1) entry.1 world) world
  apply each.mono
  rintro valueFiles _ ⟨rfl, filed⟩
  have given : List.Forall₂ Filed members valueFiles := by
    have mapped := (List.forall₂_map_left_iff (f := Prod.fst)).mpr filed
    rwa [List.zipIdx_map_fst] at mapped
  rw [yields_bind, yields_modify, yields_bind]
  apply (yields_ranCommand _ _ _).mono
  rintro result after ⟨commands, handed, server, ran⟩
  rw [yields_ite]
  split
  next =>
    rw [yields_bind]
    exact (Yields.trivial _ _).mono fun _ _ _ => trivial
  next good =>
    exact ⟨_, configPath, members, valueFiles, result, rfl, handed, given, commands, kubectl_ran ran, not_not.mp good⟩

private theorem yields_deploysSecret (secret : Secret) (group : Group) (contents : Json) (world : SecretWorld) :
    Yields (deploySecret outside files secret group contents) world fun _ after =>
      SecretAccepted outside secret group contents world after := by
  unfold deploySecret
  rw [yields_bind, yields_onCluster]
  apply (Yields.trivial _ _).mono
  intro configPath located _
  rw [yields_bind]
  have named : Yields (catchInHandler (onCluster (kubectlCreateNamespace outside files configPath)) fun message => do
      let _ ← onCluster (onServer (onStore (removeSecret secret.id)))
      refuse 500 ("Failed to create namespace: " ++ message)) { world with toClusterWorld := located }
      fun _ after => after.handed = world.handed := by
    apply yields_catchInHandler
    · rw [yields_onCluster]
      exact (Yields.trivial _ _).mono fun _ _ _ => rfl
    · intro message after
      rw [yields_bind]
      exact (Yields.trivial _ _).mono fun _ _ _ => trivial
  apply named.mono
  intro _ ready same
  rw [yields_bind, yields_accessing]
  intro members there
  apply (yields_deployFiles outside files secret group configPath members ready).mono
  rintro _ after ⟨commands, configPath, others, valueFiles, result, object, handed, filed, ran⟩
  cases contents with
  | object given =>
    cases there
    exact ⟨commands, configPath, others, valueFiles, result, object, same ▸ handed, filed, ran⟩
  | null => cases there
  | bool => cases there
  | number => cases there
  | string => cases there
  | array => cases there

private theorem ends_removeSecret {α : Type} {before : Server} {secret : Secret}
    (reversible : Reversible (Database.withSecret secret) (addSecret secret) (removeSecret secret.id) before) (text : String)
    {post : α → SecretWorld → Prop} {world : SecretWorld} (stored : Stored (Database.withSecret secret) before world.server) :
    Ends (do
        let _ ← onCluster (onServer (onStore (removeSecret secret.id)))
        refuse 500 text : SecretM α) world post fun halt after => Halted (Database.withSecret secret) before halt after.server := by
  have removed : Ends (onCluster (onServer (onStore (removeSecret secret.id)))) world (fun _ after => NothingLeft before after.server)
      fun _ _ => False := ends_onServer (ends_onStore (reversible.removed world.server stored))
  exact ends_takeBack removed (fun _ _ => id) (by decide) text

private theorem confined_writeSecretFile (number : Nat) (member : String × Json) :
    Confined (SecretCourse OnlyReads) Halt.Escape (writeSecretFile files number member) := by
  have thrown : ∀ message, Halt.Escape (.thrown message) := fun _ => trivial
  apply (confined_accessing (show Halt.Escape .assertion from trivial) _).bind
  intro coded
  apply (confined_fromExcept thrown _).bind
  intro content
  apply (confined_fromExcept thrown _).bind
  intro path
  exact .ite (.throw trivial) (.ite (.throw trivial) (.pure _))

private theorem ends_deploySecret {before : Server} {secret : Secret} (group : Group) (contents : Json)
    (reversible : Reversible (Database.withSecret secret) (addSecret secret) (removeSecret secret.id) before)
    {world : SecretWorld} (stored : Stored (Database.withSecret secret) before world.server) :
    Ends (deploySecret outside files secret group contents) world (fun _ after => Stored (Database.withSecret secret) before after.server)
      fun halt after => Halted (Database.withSecret secret) before halt after.server := by
  have thrown : ∀ message, Halt.Escape (.thrown message) := fun _ => trivial
  have located : Confined (SecretCourse OnlyReads) Halt.Escape (onCluster (onServer (onStore (configPathForCluster secret.cluster)))) :=
    confined_onCluster (confined_onServer (confined_onStore thrown (leads_configPathForCluster OnlyReads.looking _)))
  unfold deploySecret
  rw [ends_bind]
  apply (ends_then located stored).mono _ fun _ _ => id
  intro configPath world stored
  rw [ends_bind]
  apply (ends_catch (confined_onCluster (confined_kubectlCreateNamespace outside files configPath))
    (fun message world stored => ends_removeSecret reversible _ stored) stored).mono _ fun _ _ => id
  intro _ ready stored
  rw [ends_bind]
  have opened : Confined (SecretCourse OnlyReads) Halt.Escape (accessing contents.getObject) := confined_accessing trivial _
  apply (ends_then opened stored).mono _ fun _ _ => id
  intro members ready stored
  rw [ends_bind]
  have filed : Confined (SecretCourse OnlyReads) Halt.Escape
      (members.zipIdx.mapM fun entry => writeSecretFile files (entry.2 + 1) entry.1) := .mapM fun _ _ => confined_writeSecretFile files _ _
  apply (ends_then filed stored).mono _ fun _ _ => id
  intro valueFiles written stored
  rw [ends_bind]
  have handed : Confined (SecretCourse OnlyReads) Halt.Escape
      (modify fun world => { world with handed := world.handed ++ [valueFiles] }) := .modifies fun world => refl world.server
  apply (ends_then handed stored).mono _ fun _ _ => id
  intro _ given stored
  rw [ends_bind]
  have ran : Confined (SecretCourse OnlyReads) Halt.Escape
      (onCluster (kubectlRun outside configPath (secretArguments secret.name group.namespaceName valueFiles))) :=
    confined_onCluster (confined_runProgram thrown _ fun _ => leads_kubectl _ _ _)
  apply (ends_then ran stored).mono _ fun _ _ => id
  intro result after stored
  rw [ends_ite]
  split
  next => exact ends_removeSecret reversible _ stored
  next => exact stored

variable (coding : SecretCoding)

/-- What becomes of a request once it is known what is asked for. -/
def recordSecret (asked : Secret × Group × Json) : SecretM Response := do
  onCluster (onServer (storeSecret asked.1))
  deploySecret outside files asked.1 asked.2.1 asked.2.2
  return secretResponse asked.1

private theorem createSecret_eq (user : User) (value : UInt64) (salt : Nat) (ctime : String) (body : Json) :
    createSecret outside files coding user value salt ctime body =
      askSecret coding user value salt ctime body >>= recordSecret outside files := by
  simp only [askSecret, bind_assoc, pure_bind]
  rfl

private theorem yields_recordSecret (asked : Secret × Group × Json) (world : SecretWorld) :
    Yields (recordSecret outside files asked) world fun response after =>
      response = secretResponse asked.1 ∧ SecretAccepted outside asked.1 asked.2.1 asked.2.2 world after := by
  unfold recordSecret
  rw [yields_bind, yields_onCluster, yields_onServer]
  apply (Yields.trivial _ _).mono
  intro _ stored _
  rw [yields_bind]
  exact (yields_deploysSecret outside files asked.1 asked.2.1 asked.2.2 _).mono fun _ _ accepted => ⟨rfl, accepted⟩

private theorem ends_recordSecret {before : Server} {asked : Secret × Group × Json}
    (fresh : before.database.secrets.lookup asked.1.id = none)
    {world : SecretWorld} (reads : OnlyReads before world.server) :
    Ends (recordSecret outside files asked) world
      (fun response after => response.status = 200 ∧ Stored (Database.withSecret asked.1) before after.server)
      fun halt after => Halted (Database.withSecret asked.1) before halt after.server := by
  have reversible := reversible_secret fresh
  unfold recordSecret
  rw [ends_bind]
  apply (ends_onServer (ends_added reversible (by decide) reads)).mono _ fun _ _ => id
  intro _ ready stored
  rw [ends_bind]
  apply (ends_deploySecret outside files asked.2.1 asked.2.2 reversible stored).mono _ fun _ _ => id
  exact fun _ _ stored => ⟨rfl, stored⟩

end

/-- What comes of a request for a secret that nothing stands in the way of. -/
def secretOutcome : Option Response × SecretWorld :=
  ending (createSecret secretOutside secretFiles plainCoding secretUser 1 0 "today" (secretBody "dGV4dA==") emptySecretWorld)

def copyBody (source : String) : Json := .object [
  ("metadata", .object [("name", .string "copy"), ("group", .string "web"), ("cluster", .string "atlas")]),
  ("copyFrom", .string source)]

def copyOutcome : Option Response × SecretWorld :=
  ending (createSecret secretOutside secretFiles plainCoding secretUser 2 0 "today" (copyBody (generateSecretID 1)) secretOutcome.2)

end Slate
