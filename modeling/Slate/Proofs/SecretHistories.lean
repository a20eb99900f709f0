import Slate.Proofs.NamedPlaces
import Slate.Proofs.SecretCopies

/-! Secrets that are created with contents and copied, over every sequence of requests: which
of them are fetched, and have been deployed, with the contents that were requested. -/

namespace Slate
open Library Handler

theorem yields_catchInHandler {σ α : Type} {program : EStateM Halt σ α} {handler : String → EStateM Halt σ α} {state : σ}
    {post : α → σ → Prop} (first : Yields program state post) (rest : ∀ message after, Yields (handler message) after post) :
    Yields (catchInHandler program handler) state post := by
  unfold catchInHandler
  rw [yields_tryCatch]
  unfold Ends
  cases ran : program state with
  | ok value after => exact first.of_ok ran
  | error halt after =>
    cases halt with
    | thrown message =>
      change Yields (if message = keyNotFound then throw (.thrown message) else handler message) after post
      rw [yields_ite]
      split
      next => trivial
      next => exact rest message after
    | response response => trivial
    | assertion => trivial

theorem yields_onServer {α : Type} (program : HandlerM α) (world : ClusterWorld) (post : α → ClusterWorld → Prop) :
    Yields (onServer program) world post ↔ Yields program world.server fun value server => post value { world with server } := by
  unfold Yields onServer
  cases program world.server <;> rfl

theorem yields_onCluster {α : Type} (program : ClusterM α) (world : SecretWorld) (post : α → SecretWorld → Prop) :
    Yields (onCluster program) world post ↔
      Yields program world.toClusterWorld fun value after => post value { world with toClusterWorld := after } := by
  unfold Yields onCluster
  cases program world.toClusterWorld <;> rfl

/-- A value that is text in base64 as far as it is read. -/
def AcceptedMember (member : String × Json) : Prop :=
  ∃ text, member.2 = .string text ∧ sanityCheckBase64 (utf8 (cText text)) = true

def Filed (member : String × Json) (file : SecretFile) : Prop :=
  file.key = cText member.1 ∧ ∃ text, member.2 = .string text ∧ decodeBase64 (utf8 (cText text)) = .ok file.content

/-- The file has the key of the member, and its value once it is decoded. -/
def Delivers (member : String × Json) (file : SecretFile) : Prop :=
  file.key = member.1 ∧ ∃ text, member.2 = .string text ∧ decodeBase64 (utf8 text) = .ok file.content

/-- There is no NUL in the key and in the value. -/
def PlainMember (member : String × Json) : Prop := NulFree member.1 ∧ ∀ text, member.2 = .string text → NulFree text

private theorem delivers_iff {member : String × Json} {file : SecretFile} (accepted : AcceptedMember member)
    (filed : Filed member file) : Delivers member file ↔ PlainMember member := by
  obtain ⟨text, string, sane⟩ := accepted
  obtain ⟨key, text', string', decoded⟩ := filed
  obtain rfl : text = text' := Json.string.inj (string.symm.trans string')
  constructor
  · rintro ⟨same, text', string', whole⟩
    obtain rfl : text = text' := Json.string.inj (string.symm.trans string')
    refine ⟨(cText_eq_iff _).mp (key.symm.trans same), fun text' string' => ?_⟩
    obtain rfl : text = text' := Json.string.inj (string.symm.trans string')
    by_contra nul
    obtain ⟨rest, behind⟩ := utf8_of_nul nul
    rw [behind] at whole
    exact decodeBase64_nul sane decoded rest whole
  · rintro ⟨plainKey, plain⟩
    rw [(cText_eq_iff _).mpr (plain text string)] at decoded
    exact ⟨key.trans ((cText_eq_iff _).mpr plainKey), text, string, decoded⟩

/-- All files of a secret have what they are to have just if there is no NUL in its contents. -/
theorem delivers_all_iff {members : Members} {valueFiles : List SecretFile} (accepted : ∀ member ∈ members, AcceptedMember member)
    (filed : List.Forall₂ Filed members valueFiles) :
    List.Forall₂ Delivers members valueFiles ↔ ∀ member ∈ members, PlainMember member := by
  induction filed with
  | nil => simp
  | @cons member file members valueFiles first rest ih =>
    have others := ih fun other later => accepted other (.tail _ later)
    rw [List.forall₂_cons, delivers_iff (accepted member (.head _)) first, others, List.forall_mem_cons]

private theorem yields_checkSecretMember (member : String × Json) (server : Server) :
    Yields (checkSecretMember member) server fun _ _ => AcceptedMember member := by
  unfold checkSecretMember
  simp only [yields_bind, yields_require]
  intro string _ _ _ sane
  obtain ⟨key, value⟩ := member
  cases value with
  | string text => exact ⟨text, rfl, Option.some.inj sane⟩
  | null => cases string
  | bool => cases string
  | number => cases string
  | array => cases string
  | object => cases string

private theorem yields_checkSecretMembers (members : Members) (server : Server) :
    Yields (members.forM checkSecretMember) server fun _ _ => ∀ member ∈ members, AcceptedMember member := by
  induction members generalizing server with
  | nil =>
    intro _ member
    cases member
  | cons member members ih =>
    change Yields (checkSecretMember member >>= fun _ => members.forM checkSecretMember) server _
    rw [yields_bind]
    refine (yields_checkSecretMember member server).mono fun _ after first => ?_
    refine (ih after).mono fun _ _ rest => ?_
    exact List.forall_mem_cons.mpr ⟨first, rest⟩

/-- The contents in the body of a request, if it has any. -/
def Asked (body : Json) : Option Members → Prop
  | some members => body.member "contents" = some (.object members) ∧ ∀ member ∈ members, AcceptedMember member
  | none => body.member "contents" = none

structure ReadSecret (body metadata : Json) (contents : Option Members) : Prop where
  within : body.member "metadata" = some metadata
  group : memberText metadata "group" = some ((memberText metadata "group").getD "")
  cluster : memberText metadata "cluster" = some ((memberText metadata "cluster").getD "")
  asked : Asked body contents

private theorem yields_checkSecretBody (body : Json) (server : Server) :
    Yields (checkSecretBody body) server fun checked _ => ReadSecret body checked.1 checked.2 := by
  unfold checkSecretBody
  rw [yields_bind]
  apply (yields_requestMetadata body _ _ server).mono
  intro metadata _ there
  apply Yields.after
  intro _ _
  rw [yields_bind]
  apply (yields_checkRequired metadata "group" _ _ _).mono
  intro _ _ grouped
  rw [yields_bind]
  apply (yields_checkRequired metadata "cluster" _ _ _).mono
  intro _ _ clustered
  apply Yields.after
  intro _ _
  apply Yields.after
  intro _ passed
  split
  next members given =>
    rw [yields_bind]
    exact (yields_checkSecretMembers members passed).mono fun _ _ accepted => ⟨there, grouped, clustered, given, accepted⟩
  next => trivial
  next absent =>
    apply Yields.after
    exact fun _ _ => ⟨there, grouped, clustered, absent⟩

/-- A secret has the ID that has been drawn for it, and the name, the group and the cluster that the body of the request names. -/
structure RequestedSecret (server : Server) (value : UInt64) (ctime : String) (body : Json) (secret : Secret) (group : Group) : Prop where
  id : secret.id = generateSecretID value
  ctime : secret.ctime = ctime
  name : metadataText body "name" = some secret.name
  group : secret.group = group.id ∧ ∃ text, metadataText body "group" = some text ∧ server.MeansGroup text group
  cluster : ∃ text cluster, metadataText body "cluster" = some text ∧ server.MeansCluster text cluster ∧ secret.cluster = cluster.id

theorem yields_requestedSecret (user : User) (value : UInt64) (ctime : String) (body : Json) (server : Server) :
    Yields (requestedSecret user value ctime body) server fun requested _ =>
      RequestedSecret server value ctime body requested.1 requested.2.1 ∧ Asked body requested.2.2 := by
  unfold requestedSecret
  rw [yields_bind]
  have unchanged : Leads Eq (checkSecretBody body) := leads_checkSecretBody body
  apply ((yields_checkSecretBody body server).and (unchanged server).yields).mono
  rintro ⟨metadata, contents⟩ _ ⟨read, rfl⟩
  have text : ∀ name, metadataText body name = memberText metadata name := fun name => by rw [metadataText, read.within]; rfl
  rw [yields_bind, yields_accessing]
  intro name named
  have checked : Leads Eq (checkSecretName name) := (leads_require _ _ _).bind fun _ => leads_require _ _ _
  rw [yields_bind]
  apply (checked server).yields.mono
  rintro _ _ rfl
  apply yields_places
  intro group cluster passed means meant
  have requested : RequestedSecret server value ctime body
      { valid := true, id := generateSecretID value, name, group := group.id, cluster := cluster.id, ctime } group :=
    ⟨rfl, rfl, (text _).trans named, ⟨rfl, _, (text _).trans read.group, means⟩, _, cluster, (text _).trans read.cluster, meant, rfl⟩
  have free : ∀ server', Yields (do
      let existing ← onStore (findSecretByName group.id cluster.id name)
      require (some !existing.valid) 400 "A secret with the same name already exists"
      return (({ valid := true, id := generateSecretID value, name, group := group.id, cluster := cluster.id, ctime } : Secret),
        group, contents)) server' fun requested _ =>
          RequestedSecret server value ctime body requested.1 requested.2.1 ∧ Asked body requested.2.2 := by
    intro server'
    apply Yields.after
    intro _ _
    apply Yields.after
    exact fun _ _ => ⟨requested, read.asked⟩
  rw [yields_ite]
  split
  next =>
    apply Yields.after
    intro _ _
    apply Yields.after
    exact fun _ server => free server
  next => exact free passed

section
variable {id : String} {data : String → Prop} (outside : Outsides) (files : TemporaryFiles)

theorem leads_runProgram {course : Server → Server → Prop} [IsPreorder Server course] {arguments : List String}
    {program : List (List String) → StoreM CommandResult} (leads : ∀ commands, Leads course (program commands)) :
    Leads (ClusterCourse course) (runProgram arguments program) :=
  Leads.get.bind fun world => (leads_onServer (leads_onStore (leads world.commands))).bind fun _ =>
    Leads.bind (.modifies fun world => refl world.server) fun _ => .pure _

private theorem leads_kubectlCreateNamespace {course : Server → Server → Prop} [IsPreorder Server course] (configPath : String) :
    Leads (ClusterCourse course) (kubectlCreateNamespace outside files configPath) := by
  unfold kubectlCreateNamespace
  refine Leads.bind ?_ fun _ => (leads_fromExcept _).bind fun _ => ?_
  · exact (leads_runProgram fun _ => leads_runCommand _ _ _ _).bind fun _ => .pure _
  · exact (leads_runProgram fun _ => leads_runCommand _ _ _ _).bind fun _ => .ite (fun _ => .throw _) fun _ => .pure _

private theorem leads_writeSecretFile {relation : SecretWorld → SecretWorld → Prop} [IsPreorder SecretWorld relation] (number : Nat)
    (member : String × Json) : Leads relation (writeSecretFile files number member) := by
  unfold writeSecretFile
  refine (leads_accessing _).bind fun _ => (leads_fromExcept _).bind fun _ => (leads_fromExcept _).bind fun _ => ?_
  exact .ite (fun _ => .throw _) fun _ => .ite (fun _ => .throw _) fun _ => .pure _

private theorem leads_deploySecret_kept (secret : Secret) (group : Group) (contents : Json) :
    Leads (SecretCourse (KeepsData id data)) (deploySecret outside files secret group contents) := by
  have removed : Leads (SecretCourse (KeepsData id data)) (onCluster (onServer (onStore (removeSecret secret.id)))) :=
    leads_onCluster (leads_onServer (leads_onStore (leads_removeSecret_kept _)))
  unfold deploySecret
  refine Leads.bind ?_ fun configPath => Leads.bind ?_ fun _ => (leads_accessing _).bind fun members => ?_
  · exact leads_onCluster (leads_onServer (leads_onStore (leads_configPathForCluster looking_kept _)))
  · refine leads_catchInHandler (leads_onCluster (leads_kubectlCreateNamespace _ _ _)) fun _ => ?_
    exact removed.bind fun _ => leads_refuse _ _
  · refine Leads.bind (.mapM fun _ _ => leads_writeSecretFile _ _ _) fun valueFiles => ?_
    refine Leads.bind (.modifies fun _ kept => kept) fun _ => ?_
    refine (leads_onCluster (leads_runProgram fun _ => leads_kubectl _ _ _)).bind fun result => ?_
    exact .ite (fun _ => removed.bind fun _ => leads_refuse _ _) fun _ => .pure _

variable (coding : SecretCoding)

private theorem leads_secretData_kept (user : User) (salt : Nat) (body : Json) (contents : Option Members) :
    Leads (KeepsData id data) (secretData coding user salt body contents) := by
  have encrypted : ∀ members, Leads (KeepsData id data) (encryptContents coding salt members) := by
    intro members
    rw [encryptContents_eq, encryptSecret]
    split
    next => exact .pure _
    next => exact .throw _
  have decrypted : ∀ secret, Leads (KeepsData id data) (decryptSecret coding secret) := by
    intro secret
    refine .ite (fun _ => .throw _) fun _ => ?_
    split
    next => exact .pure _
    next => exact .throw _
  cases contents with
  | some members => exact (leads_onStore (encrypted members)).bind fun _ => .pure _
  | none =>
    refine (leads_accessing _).bind fun sourceID => (leads_onStore (leads_getSecret_kept sourceID)).bind fun existing => ?_
    refine (leads_require _ _ _).bind fun _ => (leads_onStore (leads_userInGroup_kept _ _)).bind fun _ => ?_
    exact (leads_require _ _ _).bind fun _ => (leads_onStore (decrypted existing)).bind fun _ => .pure _

private theorem leads_storeSecret_kept {secret : Secret} (fresh : secret.id ≠ id) : Leads (KeepsData id data) (storeSecret secret) :=
  (leads_onStore (leads_catchRuntimeError (leads_addSecret_kept fresh) fun _ => .pure _)).bind fun _ => leads_require _ _ _

/-- However a request for a secret ends, the other ones are kept. -/
theorem leads_createSecret_kept (user : User) {value : UInt64} (salt : Nat) (ctime : String) (body : Json)
    (fresh : generateSecretID value ≠ id) :
    Leads (SecretCourse (KeepsData id data)) (createSecret outside files coding user value salt ctime body) := by
  have requested : Leads (SecretCourse (KeepsData id data)) (onCluster (onServer (requestedSecret user value ctime body))) :=
    leads_onCluster (leads_onServer (leads_requestedSecret_kept _ _ _ _))
  refine Leads.bind (leads_onCluster (leads_onServer (leads_require _ _ _))) fun _ => ?_
  have named : ∀ world, Yields (onCluster (onServer (requestedSecret user value ctime body))) world
      fun requested _ => requested.1.id = generateSecretID value := by
    intro world
    rw [yields_onCluster, yields_onServer]
    exact (yields_requestedSecret user value ctime body world.server).mono fun _ _ drawn => drawn.1.id
  refine requested.bind_yields named fun asked drawn => ?_
  refine Leads.bind (leads_onCluster (leads_onServer (leads_secretData_kept _ _ _ _ _))) fun supplied => ?_
  refine Leads.bind (leads_onCluster (leads_onServer (leads_storeSecret_kept ?_))) fun _ => ?_
  · intro same
    exact fresh (drawn.symm.trans same)
  · exact (leads_deploySecret_kept _ _ _ _ _).bind fun _ => .pure _

end

/-- A secret that is found has data such as are kept under its ID. -/
theorem yields_getSecret {id : String} {data : String → Prop} {server : Server} (kept : DataKept id data server) :
    Yields (getSecret id) server fun secret _ => secret.valid = true → data secret.data := by
  have looked : Yields (cached server.secrets.secretCache id) server fun _ after => KeepsData id data server after :=
    (leads_cached looking_kept.toPassing _ _ server).yields
  unfold getSecret
  rw [yields_bind, yields_get, yields_bind]
  refine ((yields_cached _ id server).and (looked.mono fun _ _ later => later kept)).mono ?_
  rintro found passed ⟨recorded, still⟩
  cases found with
  | some secret =>
    obtain ⟨entry, there, rfl⟩ := recorded secret rfl
    exact fun _ => kept.known entry there
  | none =>
    dsimp only
    rw [yields_bind, yields_request, yields_ite]
    split
    next =>
      rw [yields_bind, yields_get]
      split
      next =>
        intro impossible
        cases impossible
      next item there =>
        rw [yields_bind]
        exact (Yields.trivial _ _).mono fun _ _ _ _ => still.stored item there
    next =>
      intro impossible
      cases impossible

section
variable (coding : SecretCoding)

private theorem yields_decryptSecret (secret : Secret) (server : Server) :
    Yields (decryptSecret coding secret) server fun plain _ => coding.decrypt secret.data = .ok plain := by
  unfold decryptSecret
  rw [yields_ite]
  split
  next => trivial
  next =>
    split
    next plain decrypted => exact decrypted
    next => trivial

/-- The document that a request gets of a secret is what its data stand for. -/
theorem yields_getSecretRequest (user : User) {id data : String} {server : Server} (kept : DataKept id (· = data) server) :
    Yields (getSecretRequest coding user id) server fun response _ =>
      ∃ plain, coding.decrypt data = .ok plain ∧ response.body >>= Json.member "contents" = some (coding.parse plain) := by
  unfold getSecretRequest
  rw [yields_bind, yields_require]
  intro _
  rw [yields_bind, yields_onStore]
  refine (yields_getSecret kept).mono fun secret found same => ?_
  rw [yields_bind, yields_require]
  intro valid
  have same := same (Option.some.inj valid)
  rw [yields_bind]
  refine (Yields.trivial _ _).mono fun member _ _ => ?_
  rw [yields_bind, yields_require]
  intro _
  rw [yields_bind]
  refine (Yields.trivial _ _).mono fun group _ _ => ?_
  rw [yields_bind]
  refine (Yields.trivial _ _).mono fun cluster passed _ => ?_
  have read : Yields (secretDocument coding secret) passed fun contents _ =>
      ∃ plain, coding.decrypt data = .ok plain ∧ contents = coding.parse plain := by
    refine yields_catchInHandler ?_ fun _ _ => trivial
    rw [yields_bind, yields_onStore]
    exact (yields_decryptSecret coding secret passed).mono fun plain _ decrypted => ⟨plain, same ▸ decrypted, rfl⟩
  rw [yields_bind]
  refine read.mono ?_
  rintro contents _ ⟨plain, decrypted, rfl⟩
  exact ⟨plain, decrypted, rfl⟩

theorem yields_secretData_contents (user : User) (salt : Nat) (body : Json) (members : Members) (server : Server) :
    Yields (secretData coding user salt body (some members)) server fun supplied _ =>
      coding.encrypt salt (coding.write members) = .ok supplied.1 ∧ supplied.2 = .object members := by
  rw [secretData, yields_bind, yields_onStore, encryptContents_eq, encryptSecret]
  split
  next data encrypted => exact ⟨encrypted, rfl⟩
  next => trivial

/-- A copy has the data of its source, and the contents that they stand for. -/
theorem yields_secretData_copy (user : User) (salt : Nat) {body : Json} {source : String} {data : String → Prop} {server : Server}
    (from_ : memberText body "copyFrom" = some source) (kept : DataKept source data server) :
    Yields (secretData coding user salt body none) server fun supplied _ =>
      data supplied.1 ∧ ∃ plain, coding.decrypt supplied.1 = .ok plain ∧ supplied.2 = coding.parse plain := by
  rw [secretData, from_, yields_bind, yields_accessing]
  intro sourceID same
  cases same
  rw [copiedSecret, yields_bind, yields_onStore]
  refine (yields_getSecret kept).mono fun existing _ same => ?_
  rw [yields_bind, yields_require]
  intro valid
  have same := same (Option.some.inj valid)
  rw [yields_bind]
  refine (Yields.trivial _ _).mono fun member _ _ => ?_
  rw [yields_bind, yields_require]
  intro _
  rw [yields_bind, yields_onStore]
  refine (yields_decryptSecret coding existing _).mono fun plain _ decrypted => ?_
  exact ⟨same, plain, decrypted, rfl⟩

end

private theorem yields_addSecret (secret : Secret) (server : Server) :
    Yields (addSecret secret) server fun added after => added = true → DataKept secret.id (· = secret.data) after := by
  unfold addSecret cacheSecret CacheRecord.lasting modifySecrets
  rw [yields_ite]
  split
  next => trivial
  next =>
    rw [yields_ite]
    split
    next => trivial
    next =>
      simp only [bind_assoc, pure_bind, yields_bind, yields_request, yields_ite, yields_now, yields_modify, yields_pure]
      split
      next =>
        intro _
        constructor
        · intro item there
          have row := (FiniteMap.lookup_insert _ _ _ _).symm.trans there
          rw [if_pos rfl] at row
          cases row
          rfl
        · intro entry there
          have record := (FiniteMap.lookup_insert _ _ _ _).symm.trans there
          rw [if_pos rfl] at record
          cases record
          rfl
      next =>
        intro impossible
        cases impossible

private theorem yields_storeSecret (secret : Secret) (server : Server) :
    Yields (storeSecret secret) server fun _ after => DataKept secret.id (· = secret.data) after := by
  unfold storeSecret catchRuntimeError
  rw [yields_bind, yields_onStore, yields_tryCatch]
  unfold Ends
  cases ran : addSecret secret server with
  | ok added after =>
    change Yields (require (some added) _ _) after _
    rw [yields_require]
    intro done
    exact (yields_addSecret secret server).of_ok ran (Option.some.inj done)
  | error message after =>
    change Yields (if message = keyNotFound then throw message else pure false) after _
    rw [yields_ite]
    split
    next => trivial
    next =>
      rw [yields_pure, yields_require]
      intro impossible
      cases impossible

section
variable (outside : Outsides) (files : TemporaryFiles)

theorem yields_fromExcept {σ α : Type} (result : Except String α) (state : σ) (post : α → σ → Prop) :
    Yields (fromExcept result) state post ↔ ∀ value, result = .ok value → post value state := by
  cases result with
  | ok value =>
    constructor
    · intro holds _ same
      cases same
      exact holds
    · exact fun holds => holds value rfl
  | error message =>
    refine iff_of_true trivial ?_
    intro _ impossible
    cases impossible

theorem yields_writeSecretFile (number : Nat) (member : String × Json) (world : SecretWorld) :
    Yields (writeSecretFile files number member) world fun file after => after = world ∧ Filed member file := by
  unfold writeSecretFile
  rw [yields_bind, yields_accessing]
  intro coded read
  rw [yields_bind, yields_fromExcept]
  intro content decoded
  rw [yields_bind, yields_fromExcept]
  intro path _
  rw [yields_ite]
  split
  next => trivial
  next =>
    rw [yields_ite]
    split
    next => trivial
    next =>
      refine ⟨rfl, rfl, ?_⟩
      obtain ⟨key, value⟩ := member
      cases value with
      | string text =>
        cases read
        exact ⟨text, rfl, decoded⟩
      | null => cases read
      | bool => cases read
      | number => cases read
      | array => cases read
      | object => cases read

/-- A secret that is deployed has a file for each of its members. -/
theorem yields_deploySecret (secret : Secret) (group : Group) (members : Members) (world : SecretWorld) :
    Yields (deploySecret outside files secret group (.object members)) world fun _ after =>
      ∃ valueFiles, after.handed = world.handed ++ [valueFiles] ∧ List.Forall₂ Filed members valueFiles := by
  unfold deploySecret
  rw [yields_bind, yields_onCluster]
  refine (Yields.trivial _ _).mono fun configPath located _ => ?_
  rw [yields_bind]
  have named : Yields (catchInHandler (onCluster (kubectlCreateNamespace outside files configPath)) fun message => do
      let _ ← onCluster (onServer (onStore (removeSecret secret.id)))
      refuse 500 ("Failed to create namespace: " ++ message)) { world with toClusterWorld := located }
      fun _ after => after.handed = world.handed := by
    refine yields_catchInHandler ?_ fun _ _ => ?_
    · rw [yields_onCluster]
      exact (Yields.trivial _ _).mono fun _ _ _ => rfl
    · rw [yields_bind]
      exact (Yields.trivial _ _).mono fun _ _ _ => trivial
  refine named.mono fun _ ready same => ?_
  rw [yields_bind, yields_accessing]
  intro members' there
  cases there
  rw [yields_bind]
  have each : Yields (members.zipIdx.mapM fun entry => writeSecretFile files (entry.2 + 1) entry.1) ready
      fun valueFiles after => after = ready ∧ List.Forall₂ (fun entry file => Filed entry.1 file) members.zipIdx valueFiles :=
    yields_mapM_each (fun entry world => yields_writeSecretFile files (entry.2 + 1) entry.1 world) ready
  refine each.mono ?_
  rintro valueFiles _ ⟨rfl, filed⟩
  rw [yields_bind, yields_modify, yields_bind, yields_onCluster]
  refine (Yields.trivial _ _).mono fun result after _ => ?_
  have given : List.Forall₂ Filed members valueFiles := by
    have mapped := (List.forall₂_map_left_iff (f := Prod.fst)).mpr filed
    rwa [List.zipIdx_map_fst] at mapped
  rw [yields_ite]
  split
  next =>
    rw [yields_bind]
    exact (Yields.trivial _ _).mono fun _ _ _ => trivial
  next => exact ⟨valueFiles, congrArg (· ++ [valueFiles]) same, given⟩

variable (coding : SecretCoding)

/-- A secret that is created has the data with which it was supplied, and the files of its members
have been handed over. -/
theorem yields_createSecret (user : User) (value : UInt64) (salt : Nat) (ctime : String) (body : Json) (world : SecretWorld)
    {good : String → Json → Prop} (supplies : Yields (requestedSecret user value ctime body) world.server
      fun requested located => Yields (secretData coding user salt body requested.2.2) located fun supplied _ =>
        good supplied.1 supplied.2 ∧ ∃ members, supplied.2 = .object members) :
    Yields (createSecret outside files coding user value salt ctime body) world fun _ after =>
      ∃ data members valueFiles, good data (.object members) ∧ DataKept (generateSecretID value) (· = data) after.server ∧
        after.handed = world.handed ++ [valueFiles] ∧ List.Forall₂ Filed members valueFiles := by
  have requested := (yields_requestedSecret user value ctime body world.server).and supplies
  unfold createSecret
  rw [yields_bind, yields_onCluster, yields_onServer, yields_require]
  intro _
  rw [yields_bind, yields_onCluster, yields_onServer]
  refine requested.mono ?_
  rintro ⟨secret, group, contents⟩ located ⟨⟨⟨drawn, -⟩, -⟩, supplied⟩
  dsimp only at drawn supplied ⊢
  rw [yields_bind, yields_onCluster, yields_onServer]
  refine supplied.mono ?_
  rintro ⟨data, document⟩ ready ⟨holds, members, rfl⟩
  dsimp only
  rw [yields_bind, yields_onCluster, yields_onServer]
  refine (yields_storeSecret _ ready).mono fun _ stored kept => ?_
  have still : ∀ world, Yields (deploySecret outside files { secret with data } group (.object members)) world fun _ after =>
      SecretCourse (KeepsData secret.id (· = data)) world after := fun world =>
    (leads_deploySecret_kept outside files _ group _ world).yields
  rw [yields_bind]
  refine ((yields_deploySecret outside files _ group members _).and (still _)).mono ?_
  rintro _ after ⟨⟨valueFiles, handed, filed⟩, later⟩
  exact ⟨data, members, valueFiles, holds, drawn ▸ later kept, handed, filed⟩

end

/-- A secret that has been created, with the contents that were requested and the files that were
handed to the cluster. -/
structure MadeSecret where
  id : String
  contents : Members
  valueFiles : List SecretFile

section
variable (outside : Outsides) (files : TemporaryFiles) (coding : SecretCoding)

/-- What else the service does. No ID is drawn again, and what is not about secrets leaves them alone. -/
inductive SecretStep (made : List MadeSecret) (before : SecretWorld) : SecretWorld → Prop
  | create (user : User) (value : UInt64) (salt : Nat) (ctime : String) (body : Json)
      (fresh : ∀ secret ∈ made, generateSecretID value ≠ secret.id) :
      SecretStep made before (leftState (createSecret outside files coding user value salt ctime body before))
  | get (id : String) : SecretStep made before (leftState (onCluster (onServer (onStore (getSecret id))) before))
  | list (group cluster : String) :
      SecretStep made before (leftState (onCluster (onServer (onStore (listSecrets group cluster))) before))
  | remove (id : String) : SecretStep made before (leftState (onCluster (onServer (onStore (removeSecret id))) before))
  | other {after : SecretWorld} (table : after.server.database.secrets = before.server.database.secrets)
      (caches : after.server.secrets = before.server.secrets) : SecretStep made before after

/-- The secrets that have been created with contents, or copied from such ones. -/
inductive SecretHistory : List MadeSecret → SecretWorld → Prop
  | start (world : SecretWorld) : SecretHistory [] world
  | create {made : List MadeSecret} {before after : SecretWorld} {user : User} {value : UInt64} {salt : Nat}
      {ctime : String} {body : Json} {response : Response} {contents : Members} {valueFiles : List SecretFile}
      (past : SecretHistory made before) (fresh : ∀ secret ∈ made, generateSecretID value ≠ secret.id)
      (asked : body.member "contents" = some (.object contents))
      (ran : createSecret outside files coding user value salt ctime body before = .ok response after)
      (handed : after.handed = before.handed ++ [valueFiles]) :
      SecretHistory (⟨generateSecretID value, contents, valueFiles⟩ :: made) after
  | copy {made : List MadeSecret} {before after : SecretWorld} {user : User} {value : UInt64} {salt : Nat}
      {ctime : String} {body : Json} {response : Response} {source : MadeSecret} {valueFiles : List SecretFile}
      (past : SecretHistory made before) (fresh : ∀ secret ∈ made, generateSecretID value ≠ secret.id)
      (member : source ∈ made) (absent : body.member "contents" = none)
      (from_ : memberText body "copyFrom" = some source.id)
      (ran : createSecret outside files coding user value salt ctime body before = .ok response after)
      (handed : after.handed = before.handed ++ [valueFiles]) :
      SecretHistory (⟨generateSecretID value, source.contents, valueFiles⟩ :: made) after
  | step {made : List MadeSecret} {before after : SecretWorld} (past : SecretHistory made before)
      (step : SecretStep outside files coding made before after) : SecretHistory made after

variable {outside files coding} {made : List MadeSecret}

/-- Nothing that the service does changes the data of a secret that has been created. -/
theorem SecretStep.keeps {before after : SecretWorld} (step : SecretStep outside files coding made before after)
    {secret : MadeSecret} (member : secret ∈ made) {data : String} (kept : DataKept secret.id (· = data) before.server) :
    DataKept secret.id (· = data) after.server := by
  have ofStore : ∀ {α : Type} {program : StoreM α}, Leads (KeepsData secret.id (· = data)) program →
      DataKept secret.id (· = data) (leftState (onCluster (onServer (onStore program)) before)).server := fun leads =>
    (leads_onCluster (leads_onServer (leads_onStore leads))).left before kept
  cases step with
  | create user value salt ctime body fresh =>
    exact (leads_createSecret_kept outside files coding user salt ctime body (fresh secret member)).left before kept
  | get id => exact ofStore (leads_getSecret_kept id)
  | list group cluster => exact ofStore (leads_listSecrets_kept group cluster)
  | remove id => exact ofStore (leads_removeSecret_kept id)
  | other table caches => exact ⟨table.symm ▸ kept.stored, caches.symm ▸ kept.known⟩

/-- The writer and the parser are inverse on members that are strings, and decryption is the inverse
of encryption. -/
structure SecretCoding.Inverse (coding : SecretCoding) : Prop where
  parses : ∀ members : Members, (∀ member ∈ members, member.2.isString = true) →
    coding.parse (coding.write members) = .object members
  decrypts : ∀ salt plain data, coding.encrypt salt plain = .ok data → coding.decrypt data = .ok plain

structure MadeSecret.Recorded (coding : SecretCoding) (secret : MadeSecret) (server : Server) : Prop where
  stored : ∃ data, DataKept secret.id (· = data) server ∧ coding.decrypt data = .ok (coding.write secret.contents)
  accepted : ∀ member ∈ secret.contents, AcceptedMember member
  filed : List.Forall₂ Filed secret.contents secret.valueFiles

private theorem parse_write (inverse : coding.Inverse) {members : Members} (accepted : ∀ member ∈ members, AcceptedMember member) :
    coding.parse (coding.write members) = .object members := by
  apply inverse.parses
  intro member inside
  obtain ⟨text, string, -⟩ := accepted member inside
  rw [string]
  rfl

theorem MadeSecret.Recorded.later {secret : MadeSecret} {before after : Server} (known : secret.Recorded coding before)
    (keeps : ∀ data, DataKept secret.id (· = data) before → DataKept secret.id (· = data) after) : secret.Recorded coding after := by
  obtain ⟨⟨data, kept, decrypted⟩, accepted, filed⟩ := known
  exact ⟨⟨data, keeps data kept, decrypted⟩, accepted, filed⟩

section
variable {user : User} {value : UInt64} {salt : Nat} {ctime : String} {body : Json} {before after : SecretWorld}
  {response : Response} {contents : Members} {valueFiles : List SecretFile}

/-- A request that is supplied with data for the contents, and with the contents. -/
theorem recorded_of_supplied (supplies : Yields (requestedSecret user value ctime body) before.server
      fun requested located => Yields (secretData coding user salt body requested.2.2) located fun supplied _ =>
        (coding.decrypt supplied.1 = .ok (coding.write contents) ∧ ∀ member ∈ contents, AcceptedMember member) ∧
          supplied.2 = .object contents)
    (ran : createSecret outside files coding user value salt ctime body before = .ok response after)
    (handed : after.handed = before.handed ++ [valueFiles]) :
    MadeSecret.Recorded coding ⟨generateSecretID value, contents, valueFiles⟩ after.server := by
  have created : Yields (createSecret outside files coding user value salt ctime body) before fun _ after =>
      ∃ data members valueFiles, ((coding.decrypt data = .ok (coding.write contents) ∧
        ∀ member ∈ contents, AcceptedMember member) ∧ Json.object members = .object contents) ∧
          DataKept (generateSecretID value) (· = data) after.server ∧ after.handed = before.handed ++ [valueFiles] ∧
            List.Forall₂ Filed members valueFiles := by
    refine @yields_createSecret outside files coding user value salt ctime body before (fun data document =>
      (coding.decrypt data = .ok (coding.write contents) ∧ ∀ member ∈ contents, AcceptedMember member) ∧
        document = .object contents) ?_
    exact supplies.mono fun _ _ supplied => supplied.mono fun _ _ holds => ⟨holds, contents, holds.2⟩
  obtain ⟨data, members, valueFiles', ⟨⟨decrypted, accepted⟩, same⟩, kept, handed', filed⟩ := created.of_ok ran
  cases same
  obtain rfl : valueFiles' = valueFiles :=
    List.singleton_inj.mp (List.append_cancel_left (handed'.symm.trans handed))
  exact ⟨⟨data, kept, decrypted⟩, accepted, filed⟩

private theorem recorded_created (inverse : coding.Inverse) (asked : body.member "contents" = some (.object contents))
    (ran : createSecret outside files coding user value salt ctime body before = .ok response after)
    (handed : after.handed = before.handed ++ [valueFiles]) :
    MadeSecret.Recorded coding ⟨generateSecretID value, contents, valueFiles⟩ after.server := by
  refine recorded_of_supplied ?_ ran handed
  refine (yields_requestedSecret user value ctime body before.server).mono ?_
  rintro ⟨secret, group, given⟩ located ⟨-, known⟩
  cases given with
  | none => cases asked.symm.trans known
  | some members =>
    obtain ⟨there, accepted⟩ := known
    cases asked.symm.trans there
    refine (yields_secretData_contents coding user salt body contents located).mono ?_
    rintro supplied _ ⟨encrypted, document⟩
    exact ⟨⟨inverse.decrypts _ _ _ encrypted, accepted⟩, document⟩

private theorem recorded_copied (inverse : coding.Inverse) {source : MadeSecret} (known : source.Recorded coding before.server)
    (absent : body.member "contents" = none) (from_ : memberText body "copyFrom" = some source.id)
    (ran : createSecret outside files coding user value salt ctime body before = .ok response after)
    (handed : after.handed = before.handed ++ [valueFiles]) :
    MadeSecret.Recorded coding ⟨generateSecretID value, source.contents, valueFiles⟩ after.server := by
  obtain ⟨⟨data, kept, decrypted⟩, accepted, -⟩ := known
  have later : Yields (requestedSecret user value ctime body) before.server fun _ located =>
      KeepsData source.id (· = data) before.server located := (leads_requestedSecret_kept user value ctime body before.server).yields
  refine recorded_of_supplied ?_ ran handed
  refine ((yields_requestedSecret user value ctime body before.server).and later).mono ?_
  rintro ⟨secret, group, given⟩ located ⟨⟨-, known⟩, still⟩
  cases given with
  | some members => cases absent.symm.trans known.1
  | none =>
    refine (yields_secretData_copy coding user salt from_ (still kept)).mono ?_
    rintro ⟨data, contents⟩ _ ⟨rfl, plain, decrypted', document⟩
    cases decrypted.symm.trans decrypted'
    exact ⟨⟨decrypted, accepted⟩, document.trans (parse_write inverse accepted)⟩

theorem MadeSecret.Recorded.beside {secret : MadeSecret} (known : secret.Recorded coding before.server)
    (fresh : generateSecretID value ≠ secret.id)
    (ran : createSecret outside files coding user value salt ctime body before = .ok response after) :
    secret.Recorded coding after.server := by
  apply known.later
  intro data kept
  have left := (leads_createSecret_kept outside files coding user salt ctime body fresh).left before kept
  rw [ran] at left
  exact left

end

/-- What has been created stays known, whatever the service does afterwards. -/
theorem SecretHistory.recorded (inverse : coding.Inverse) {world : SecretWorld}
    (history : SecretHistory outside files coding made world) :
    ∀ secret ∈ made, secret.Recorded coding world.server := by
  induction history with
  | start =>
    intro _ member
    cases member
  | create past fresh asked ran handed ih =>
    intro secret member
    rcases List.mem_cons.mp member with rfl | earlier
    · exact recorded_created inverse asked ran handed
    · exact (ih secret earlier).beside (fresh secret earlier) ran
  | copy past fresh source absent from_ ran handed ih =>
    intro secret member
    rcases List.mem_cons.mp member with rfl | earlier
    · exact recorded_copied inverse (ih _ source) absent from_ ran handed
    · exact (ih secret earlier).beside (fresh secret earlier) ran
  | step past step ih =>
    intro secret member
    exact (ih secret member).later fun data kept => step.keeps member kept

/-- The stored, the deployed and the fetched secret agree. -/
structure MadeSecret.Agrees (coding : SecretCoding) (secret : MadeSecret) (server : Server) : Prop where
  fetched : ∀ user response after, getSecretRequest coding user secret.id server = .ok response after →
    response.body >>= Json.member "contents" = some (.object secret.contents)
  deployed : List.Forall₂ Delivers secret.contents secret.valueFiles

/-- They do just if there is no NUL in a key or a value of the contents. -/
theorem secrets_agree_iff (inverse : coding.Inverse) {world : SecretWorld}
    (history : SecretHistory outside files coding made world) {secret : MadeSecret} (member : secret ∈ made) :
    secret.Agrees coding world.server ↔ ∀ member ∈ secret.contents, PlainMember member := by
  obtain ⟨⟨data, kept, decrypted⟩, accepted, filed⟩ := history.recorded inverse secret member
  rw [← delivers_all_iff accepted filed]
  constructor
  · exact fun agrees => agrees.deployed
  · intro delivered
    refine ⟨fun user response after ran => ?_, delivered⟩
    obtain ⟨plain, decrypted', read⟩ := (yields_getSecretRequest coding user kept).of_ok ran
    cases decrypted.symm.trans decrypted'
    rw [read, parse_write inverse accepted]

end

/-- A character as it is written in a string. -/
def escapeJson (c : Char) : List Char :=
  if c = '"' ∨ c = '\\' then ['\\', c] else if c = '\x00' then "\\u0000".toList else [c]

def quoteJson (text : List Char) : List Char := '"' :: (text.flatMap escapeJson ++ ['"'])

def writeMembers : List (List Char × List Char) → List Char
  | [] => []
  | [member] => quoteJson member.1 ++ ':' :: quoteJson member.2
  | member :: members => quoteJson member.1 ++ ':' :: (quoteJson member.2 ++ ',' :: writeMembers members)

/-- The strings in a document, outside or inside of one of them. -/
def readQuoted : Option (List Char) → List Char → List (List Char)
  | _, [] => []
  | none, c :: rest => if c = '"' then readQuoted (some []) rest else readQuoted none rest
  | some read, '\\' :: 'u' :: '0' :: '0' :: '0' :: '0' :: rest => readQuoted (some (read ++ ['\x00'])) rest
  | some read, '\\' :: c :: rest => readQuoted (some (read ++ [c])) rest
  | some read, c :: rest => if c = '"' then read :: readQuoted none rest else readQuoted (some (read ++ [c])) rest

def pairedStrings : List (List Char) → List (List Char × List Char)
  | key :: value :: rest => (key, value) :: pairedStrings rest
  | _ => []

private theorem readQuoted_escaped (read text rest : List Char) :
    readQuoted (some read) (text.flatMap escapeJson ++ '"' :: rest) = (read ++ text) :: readQuoted none rest := by
  induction text generalizing read with
  | nil => simp [readQuoted]
  | cons c text ih =>
    rw [List.flatMap_cons, escapeJson]
    split
    next special =>
      rcases special with rfl | rfl
      · simp [readQuoted, ih]
      · simp [readQuoted, ih]
    next ordinary =>
      split
      next zero =>
        subst zero
        simp [readQuoted, ih]
      next =>
        obtain ⟨noQuote, noSlash⟩ := not_or.mp ordinary
        rw [List.singleton_append, List.cons_append, readQuoted, if_neg noQuote, ih, List.append_assoc,
          List.singleton_append]
        · exact fun _ same => absurd same noSlash
        · exact fun _ _ same => absurd same noSlash

theorem readQuoted_quoted (text rest : List Char) : readQuoted none (quoteJson text ++ rest) = text :: readQuoted none rest := by
  rw [quoteJson, List.cons_append, List.append_assoc, readQuoted, if_pos rfl]
  exact readQuoted_escaped [] text rest

theorem readQuoted_skip {c : Char} (other : c ≠ '"') (rest : List Char) : readQuoted none (c :: rest) = readQuoted none rest := by
  rw [readQuoted, if_neg other]

private theorem readQuoted_members (members : List (List Char × List Char)) :
    pairedStrings (readQuoted none (writeMembers members ++ ['\x7d'])) = members := by
  fun_induction writeMembers members with
  | case1 => rfl
  | case2 member =>
    rw [List.append_assoc, List.cons_append, readQuoted_quoted, readQuoted_skip (by decide), readQuoted_quoted]
    rfl
  | case3 member members some ih =>
    rw [List.append_assoc, List.cons_append, List.append_assoc, List.cons_append, readQuoted_quoted,
      readQuoted_skip (by decide), readQuoted_quoted, readQuoted_skip (by decide), pairedStrings, ih]

def stringMember (member : String × Json) : List Char × List Char := (member.1.toList, (member.2.getString.getD "").toList)

/-- Objects of strings as they are written, and an encryption that keeps the text behind a header. -/
def plainCoding : SecretCoding where
  write members := .ofList ('\x7b' :: (writeMembers (members.map stringMember) ++ ['\x7d']))
  parse text := .object ((pairedStrings (readQuoted none text.toList)).map fun member =>
    (.ofList member.1, .string (.ofList member.2)))
  encrypt _ plain := .ok (.ofList ("scrypt".toList ++ List.replicate 122 ' ' ++ plain.toList))
  decrypt data := .ok (.ofList (data.toList.drop 128))

theorem plainCoding_inverse : plainCoding.Inverse where
  parses members strings := by
    have unread := readQuoted_members (members.map stringMember)
    have skipped : readQuoted none ('\x7b' :: (writeMembers (members.map stringMember) ++ ['\x7d'])) =
        readQuoted none (writeMembers (members.map stringMember) ++ ['\x7d']) := readQuoted_skip (by decide) _
    simp only [plainCoding, String.toList_ofList, skipped, unread, List.map_map]
    congr 1
    apply (List.map_congr_left ?_).trans (List.map_id members)
    rintro ⟨key, value⟩ inside
    have string := strings _ inside
    cases value with
    | string text => simp [stringMember, Json.getString]
    | null => cases string
    | bool => cases string
    | number => cases string
    | array => cases string
    | object => cases string
  decrypts salt plain data encrypted := by
    cases encrypted
    simp [plainCoding]

def secretOutside : Outsides := fun _ => ⟨fun _ _ _ => .ok { output := "CREATED AT" }⟩

def secretFiles : TemporaryFiles := ⟨fun number name => .ok (name ++ toString number), fun _ => true, fun _ _ => true⟩

def secretUser : User := { valid := true, id := "user_1" }

def emptySecretWorld : SecretWorld :=
  { server := { database := {
      groups := (∅ : FiniteMap _ _).insert "group_1" ⟨"web", none, none, none, none⟩
      clusters := (∅ : FiniteMap _ _).insert "cluster_1"
        ⟨some "atlas", some "config", some "slate", some "group_1", some "Atlas", none⟩
      memberships := (∅ : FiniteMap _ _).insert ("user_1", "group_1") () } } }

def secretBody (value : String) : Json := .object [
  ("metadata", .object [("name", .string "key"), ("group", .string "group_1"), ("cluster", .string "cluster_1")]),
  ("contents", .object [("name", .string value)])]

/-- Whether a request for a secret is successful, and how many lists of files are handed over. -/
def createdBy (value : String) : Option Nat :=
  match createSecret secretOutside secretFiles plainCoding secretUser 1 0 "today" (secretBody value) emptySecretWorld with
  | .ok _ after => some after.handed.length
  | .error _ _ => none

private theorem history_of_created {value : String} (created : createdBy value = some 1) : ∃ world valueFiles,
    SecretHistory secretOutside secretFiles plainCoding [⟨generateSecretID 1, [("name", .string value)], valueFiles⟩] world := by
  unfold createdBy at created
  cases ran : createSecret secretOutside secretFiles plainCoding secretUser 1 0 "today" (secretBody value) emptySecretWorld with
  | ok response after =>
    rw [ran] at created
    obtain ⟨valueFiles, handed⟩ := List.length_eq_one_iff.mp (Option.some.inj created)
    refine ⟨after, valueFiles, .create (.start emptySecretWorld) ?_ rfl ran handed⟩
    intro _ member
    cases member
  | error halt after =>
    rw [ran] at created
    cases created

theorem secrets_agree_iff_plain : ∃ world valueFiles,
    SecretHistory secretOutside secretFiles plainCoding [⟨generateSecretID 1, [("name", .string "dGV4dA==")], valueFiles⟩] world ∧
      (MadeSecret.Agrees plainCoding ⟨generateSecretID 1, [("name", .string "dGV4dA==")], valueFiles⟩ world.server ↔
        ∀ member ∈ [("name", Json.string "dGV4dA==")], PlainMember member) := by
  obtain ⟨world, valueFiles, history⟩ := @history_of_created "dGV4dA==" (by decide +kernel)
  exact ⟨world, valueFiles, history, secrets_agree_iff plainCoding_inverse history (.head _)⟩

/-- What stands behind a NUL is stored, but not deployed. -/
theorem secret_deployed_truncated : ¬ ∀ (outside : Outsides) (files : TemporaryFiles) (coding : SecretCoding)
    (made : List MadeSecret) (world : SecretWorld), coding.Inverse → SecretHistory outside files coding made world →
      ∀ secret ∈ made, secret.Agrees coding world.server := by
  intro all
  obtain ⟨world, valueFiles, history⟩ := @history_of_created "dGV4dA==\x00" (by decide +kernel)
  have agrees := all _ _ _ _ _ plainCoding_inverse history _ (.head _)
  have recorded := history.recorded plainCoding_inverse _ (.head _)
  have plain := (delivers_all_iff recorded.accepted recorded.filed).mp agrees.deployed
  exact absurd ((plain _ (.head _)).2 _ rfl) (by decide)

end Slate
