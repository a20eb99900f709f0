import Slate.Proofs.SecretHistories
import Slate.Proofs.SecretPrivileges

/-! What users who are no administrators can do together through requests about users and secrets. They can change their
own accounts, the groups they belong to and the secrets of these groups, and learn their own tokens and these secrets. -/

namespace Slate
open Library Handler

namespace Command

def Fresh (party : Party) (coding : SecretCoding) : Command → Prop
  | user command => command.Fresh party
  | secret command => command.Fresh party coding

def Reserved (party : Party) : Command → Prop
  | user command => command.Reserved party
  | secret command => command.Reserved party

end Command

/-- The message has a token set aside for the party, or none. -/
def Message.SentBy (party : Party) (message : Message) : Prop := ∀ token, message.token = some token → token ∈ party.tokens

/-- The secret with this ID, as it is stored or cached. -/
def Server.Knows (server : Server) (id : String) (secret : Secret) : Prop :=
  (∃ item, server.database.secrets.lookup id = some item ∧ secret = secretOfItem id item) ∨
    ∃ entry, server.secrets.secretCache.lookup id = some entry ∧ secret = entry.record

/-- What is stored and the secrets that are cached stay as they are. -/
def LeavesSecrets (before after : Server) : Prop := after.database = before.database ∧ after.secrets = before.secrets

namespace LeavesSecrets

instance : IsPreorder Server LeavesSecrets where
  refl _ := ⟨rfl, rfl⟩
  trans _ _ _ early late := ⟨late.1.trans early.1, late.2.trans early.2⟩

theorem passing : Passing LeavesSecrets where
  tick _ := ⟨rfl, rfl⟩
  answered _ := ⟨rfl, rfl⟩

theorem knows {before after : Server} (leaves : LeavesSecrets before after) : after.Knows = before.Knows := by
  unfold Server.Knows
  rw [leaves.1, leaves.2]

end LeavesSecrets

private theorem leads_authenticateUser (token : Option String) : Leads LeavesSecrets (authenticateUser token) := by
  have cacheUser : ∀ user, Leads LeavesSecrets (cacheUser user) := fun user =>
    (leads_lasting LeavesSecrets.passing _ _).bind fun _ => .modifies fun _ => ⟨rfl, rfl⟩
  cases token with
  | none => exact .pure _
  | some token =>
    refine Leads.get.bind fun server => (leads_cached LeavesSecrets.passing _ _).bind fun found => ?_
    cases found with
    | some user => exact .pure _
    | none =>
      refine (leads_request LeavesSecrets.passing).bind fun _ => .ite (fun _ => Leads.get.bind fun server => ?_) fun _ => .pure _
      split
      next => exact .pure _
      next => exact (cacheUser _).bind fun _ => .pure _
      next => exact .throw _

/-- A secret that is found was stored or cached before. -/
theorem yields_getSecret_knows (id : String) (server : Server) :
    Yields (getSecret id) server fun secret _ => secret.valid = true → server.Knows id secret := by
  have looked : Yields (cached server.secrets.secretCache id) server fun _ after => LeavesSecrets server after :=
    (leads_cached LeavesSecrets.passing _ _ server).yields
  unfold getSecret
  rw [yields_bind, yields_get, yields_bind]
  refine ((yields_cached _ id server).and looked).mono ?_
  rintro found passed ⟨recorded, same⟩
  cases found with
  | some secret =>
    obtain ⟨entry, there, rfl⟩ := recorded secret rfl
    exact fun _ => .inr ⟨entry, there, rfl⟩
  | none =>
    dsimp only
    rw [yields_bind, yields_request, yields_ite]
    split
    next =>
      rw [yields_bind, yields_get]
      split
      next =>
        intro impossible
        cases impossible
      next item there =>
        rw [yields_bind]
        have stored : server.database.secrets.lookup id = some item := same.1 ▸ there
        exact (Yields.trivial _ _).mono fun _ _ _ _ => .inl ⟨item, stored, rfl⟩
    next =>
      intro impossible
      cases impossible

/-- The message asks for this secret, which was stored or cached before. -/
def Message.Shows (message : Message) (server : Server) (secret : Secret) : Prop :=
  ∃ id, message.command = .secret (.getSecret id) ∧ server.Knows id secret

section
variable {party : Party} {files : TemporaryFiles} {coding : SecretCoding}

private theorem ends_perform {command : Command} (fresh : command.Fresh party coding) {own : Prop}
    (reserved : ¬ own → command.Reserved party) {user : User} (fits : party.Fits user)
    (mine : own → user.valid = true → user.id ∈ party.ids) (outside : Outsides) {world : SecretWorld}
    (contained : Contained party world.server) {known : Secret → Prop}
    (shows : ∀ id secret, command = .secret (.getSecret id) → world.server.Knows id secret → known secret) :
    Ends (command.perform files coding outside user) world
      (fun response after => Contained party after.server ∧ Sparing party own world.server after.server ∧
        DiscreetTo party coding known own response)
      fun halt after => Contained party after.server ∧ Sparing party own world.server after.server ∧
        ∀ response, halt = .response response → DiscreetTo party coding known own response := by
  cases command with
  | user command => exact minds_onCluster (minds_onServer (minds_perform fits mine fresh reserved)) world contained
  | secret command =>
    by_cases shown : ∃ id, command = .getSecret id
    · obtain ⟨id, rfl⟩ := shown
      have knows : Yields (getSecret id) world.server fun secret _ => secret.valid = true → known secret :=
        (yields_getSecret_knows id world.server).mono fun secret _ found valid => shows id secret rfl (found valid)
      exact (ends_onCluster_iff _ _ _ _).mpr ((ends_onServer_iff _ _ _ _).mpr (minds_shownSecret mine id contained knows))
    · exact minds_performSecret mine outside files fresh reserved (fun id same => shown ⟨id, same⟩) world contained

private theorem ends_handle {message : Message} (fresh : message.command.Fresh party coding)
    (reserved : ¬ message.SentBy party → message.command.Reserved party) {world : SecretWorld}
    (contained : Contained party world.server) :
    Ends (message.handle files coding) world
      (fun response after => Contained party after.server ∧ Sparing party (message.SentBy party) world.server after.server ∧
        DiscreetTo party coding (message.Shows world.server) (message.SentBy party) response)
      fun halt after => Contained party after.server ∧ Sparing party (message.SentBy party) world.server after.server ∧
        ∀ response, halt = .response response →
          DiscreetTo party coding (message.Shows world.server) (message.SentBy party) response := by
  have authenticated : MindsIn (fun world : SecretWorld => world.server) party coding (message.Shows world.server) (message.SentBy party)
      (onWorld (onStore (authenticateUser message.token))) _ :=
    minds_onCluster (minds_onServer (minds_onStore (upheld_authenticateUser message.token)))
  have same : Yields (onWorld (onStore (authenticateUser message.token))) world
      fun _ middle => LeavesSecrets world.server middle.server := by
    rw [onWorld, yields_onCluster, yields_onServer, yields_onStore]
    exact (leads_authenticateUser message.token world.server).yields
  apply Upholds.bind_ends authenticated contained same
  rintro user middle ⟨fits, mine⟩ kept same
  apply ends_perform fresh reserved fits mine message.outside kept
  intro id secret asked knows
  exact ⟨id, asked, same.knows ▸ knows⟩

private theorem answer_contained {message : Message} {world : SecretWorld} (contained : Contained party world.server)
    (fresh : message.command.Fresh party coding) (reserved : ¬ message.SentBy party → message.command.Reserved party) :
    Contained party (message.answer files coding world).2.server ∧ (message.SentBy party →
      Spared party world.server (message.answer files coding world).2.server ∧
        ∀ response, (message.answer files coding world).1 = some response →
          Discreet party coding (message.Shows world.server) response) := by
  have ends : Ends (message.handle files coding) world _ _ := ends_handle fresh reserved contained
  unfold Ends at ends
  unfold Message.answer
  cases ran : message.handle files coding world with
  | ok response after =>
    rw [ran] at ends
    obtain ⟨kept, spares, discreet⟩ := ends
    refine ⟨kept, fun mine => ⟨spares mine, ?_⟩⟩
    rintro _ ⟨⟩
    exact discreet mine
  | error halt after =>
    rw [ran] at ends
    obtain ⟨kept, spares, discreet⟩ := ends
    cases halt with
    | response response =>
      refine ⟨kept, fun mine => ⟨spares mine, ?_⟩⟩
      rintro _ ⟨⟩
      exact discreet response rfl mine
    | thrown message => exact ⟨kept, fun mine => ⟨spares mine, fun _ impossible => by cases impossible⟩⟩
    | assertion => exact ⟨kept, fun mine => ⟨spares mine, fun _ impossible => by cases impossible⟩⟩

variable {world : SecretWorld} {messages : List Message}

/-- What each message of a run comes to. -/
theorem serveAll_contained (contained : Contained party world.server)
    (fresh : ∀ message ∈ messages, message.command.Fresh party coding)
    (reserved : ∀ message ∈ messages, ¬ message.SentBy party → message.command.Reserved party) :
    ∀ served ∈ serveAll (Message.answer files coding) messages world, Contained party served.after.server ∧
      (served.operation.SentBy party → Spared party served.before.server served.after.server ∧
        ∀ response, served.result = some response →
          Discreet party coding (served.operation.Shows served.before.server) response) :=
  serveAll_each (fun world : SecretWorld => Contained party world.server) (fun message => message.command.Fresh party coding ∧
      (¬ message.SentBy party → message.command.Reserved party))
    (fun served => served.operation.SentBy party → Spared party served.before.server served.after.server ∧
      ∀ response, served.result = some response →
        Discreet party coding (served.operation.Shows served.before.server) response)
    (fun _ _ contained met => answer_contained contained met.1 met.2) contained
    fun message member => ⟨fresh message member, reserved message member⟩

/-- Whatever requests about users and secrets are made, in any order and however the database and the programs that are run
answer them, the users of a party come to no rights that nobody else gives them, and their own requests change no account
but theirs, no membership in a closed group and no secret of one. -/
theorem messages_contained (contained : Contained party world.server)
    (fresh : ∀ message ∈ messages, message.command.Fresh party coding)
    (reserved : ∀ message ∈ messages, ¬ message.SentBy party → message.command.Reserved party) :
    ∀ served ∈ serveAll (Message.answer files coding) messages world, Contained party served.after.server ∧
      (served.operation.SentBy party → Spared party served.before.server served.after.server) := by
  intro served member
  obtain ⟨kept, own⟩ := serveAll_contained contained fresh reserved served member
  exact ⟨kept, fun mine => (own mine).1⟩

/-- Nor does a reply to the party have the token of anyone else; and the contents it has are those of the secret asked for,
as it was stored or cached before, which is of no closed group. -/
theorem messages_discreet (contained : Contained party world.server)
    (fresh : ∀ message ∈ messages, message.command.Fresh party coding)
    (reserved : ∀ message ∈ messages, ¬ message.SentBy party → message.command.Reserved party) :
    ∀ served ∈ serveAll (Message.answer files coding) messages world, served.operation.SentBy party →
      ∀ response, served.result = some response →
        Discreet party coding (served.operation.Shows served.before.server) response := by
  intro served member mine
  obtain ⟨-, own⟩ := serveAll_contained contained fresh reserved served member
  exact (own mine).2

end

/-- Encrypted data, with a header that is told apart by one character. -/
def encryptedWith (mark : Char) (plain : String) : String :=
  .ofList ("scrypt".toList ++ mark :: (List.replicate 121 '0' ++ plain.toList))

def markedCoding : SecretCoding where
  write _ := "\x7b\x7d"
  parse := .string
  encrypt _ plain := .ok (encryptedWith '1' plain)
  decrypt data := .ok (.ofList (data.toList.drop 128))

/-- An administrator, a user who is a member of one group, a secret of this group and one of the other. -/
def outsiderWorld : SecretWorld := { server := { database := {
  users := ((∅ : FiniteMap String UserItem).insert "user_1" ⟨"Alice", "globus_1", "alice", "a@b", none, none, false⟩).insert
    "user_0" ⟨"Root", "globus_0", "root", "r@b", none, none, true⟩
  groups := ((∅ : FiniteMap String GroupItem).insert "group_1" ⟨"astro", none, none, none, none⟩).insert
    "group_2" ⟨"web", none, none, none, none⟩
  memberships := (∅ : FiniteMap _ _).insert ("user_1", "group_2") ()
  secrets := ((∅ : FiniteMap String SecretItem).insert "secret_1" ⟨"key", "group_1", "cluster_1", "today", encryptedWith '0' "hidden"⟩).insert
    "secret_2" ⟨"cert", "group_2", "cluster_1", "today", encryptedWith '0' "shown"⟩ } } }

/-- The user alone, who may try whatever is not the token of the administrator. -/
def outsider : Party where
  ids := {"user_1"}
  tokens := {token | token ≠ "root"}
  closed := {"group_1"}
  names := {"astro"}
  secrets := {"secret_1"}
  sealed := {encryptedWith '0' "hidden"}
  nobody := by simp

def metadataBody (members : Members) (others : Members := []) : Json := .object (("metadata", .object members) :: others)

def outsiderSecret : Json := metadataBody [("name", .string "copy"), ("group", .string "web"), ("cluster", .string "cluster_1")]
  [("copyFrom", .string "secret_1")]

def outsiderMessages : List Message := [
  ⟨some "alice", .user (.addUserToGroup "user_1" "astro"), secretOutside⟩,
  ⟨some "alice", .user (.updateUser "user_1" (metadataBody [("admin", .bool true)])), secretOutside⟩,
  ⟨some "guess", .user (.deleteUser "user_0"), secretOutside⟩,
  ⟨some "alice", .secret (.getSecret "secret_1"), secretOutside⟩,
  ⟨some "alice", .secret (.getSecret "secret_2"), secretOutside⟩,
  ⟨some "alice", .secret (.createSecret 7 0 "today" outsiderSecret), secretOutside⟩,
  ⟨some "alice", .user (.replaceUserToken "user_1" 1 2), secretOutside⟩,
  ⟨some "root", .user (.updateUser "user_1" (metadataBody [("name", .string "Alicia")])), secretOutside⟩]

private theorem outsider_contained : Contained outsider outsiderWorld.server where
  rows id item found := by
    simp only [outsiderWorld, FiniteMap.lookup_insert, FiniteMap.lookup_empty] at found
    split at found
    next same =>
      cases found
      constructor <;> simp [outsider, userOfItem, same]
    next =>
      split at found
      next same =>
        cases found
        constructor <;> simp [outsider, userOfItem, same]
      next => cases found
  byID := .empty
  byToken := .empty
  byGlobusID := .empty
  members uID groupID found := by
    simp only [outsiderWorld, FiniteMap.lookup_insert, FiniteMap.lookup_empty] at found
    split at found
    next same =>
      obtain ⟨-, rfl⟩ := Prod.mk.inj same
      simp [outsider]
    next => cases found
  known _ _ _ found := by
    rw [show outsiderWorld.server.users.userByGroupCache = ∅ from rfl, ConcurrentMultimap.entryOf_empty] at found
    cases found
  groupRows id item found := by
    simp only [outsiderWorld, FiniteMap.lookup_insert, FiniteMap.lookup_empty] at found
    split at found
    next same =>
      cases found
      subst same
      exact ⟨fun _ => by decide, fun _ => by simp [outsider, groupOfItem]⟩
    next =>
      split at found
      next same =>
        cases found
        subst same
        exact ⟨fun _ => by decide, fun _ => by simp [outsider, groupOfItem]⟩
      next => cases found
  groupsByID := .empty
  groupsByName := .empty
  secretRows id item found := by
    simp only [outsiderWorld, FiniteMap.lookup_insert, FiniteMap.lookup_empty] at found
    split at found
    next same =>
      cases found
      subst same
      have unclosed : ¬ outsider.Closed "group_2" := by
        rw [Party.Closed, if_pos (by decide)]
        exact (by decide : "group_2" ≠ "group_1")
      have other : encryptedWith '0' "shown" ≠ encryptedWith '0' "hidden" := by
        intro same
        have texts := List.cons.inj (List.append_cancel_left (String.ofList_injective same))
        exact absurd (List.append_cancel_left texts.2) (by decide)
      exact ⟨fun _ => iff_of_false (by decide : "secret_2" ≠ "secret_1") unclosed, fun _ inside => absurd inside other⟩
    next =>
      split at found
      next same =>
        cases found
        subst same
        have closed : outsider.Closed "group_1" := by
          rw [Party.Closed, if_pos (by decide)]
          exact rfl
        exact ⟨fun _ => iff_of_true rfl closed, fun _ _ => closed⟩
      next => cases found
  secretsByID := .empty

private theorem encryptedWith_ne (plain other : String) : encryptedWith '1' plain ≠ encryptedWith '0' other := by
  intro same
  have texts := String.ofList_injective same
  have marks := List.append_cancel_left texts
  cases marks

private theorem outsider_fresh : ∀ message ∈ outsiderMessages, message.command.Fresh outsider markedCoding := by
  intro message member
  simp only [outsiderMessages, List.mem_cons, List.not_mem_nil, or_false] at member
  rcases member with rfl | rfl | rfl | rfl | rfl | rfl | rfl | rfl
  · trivial
  · trivial
  · trivial
  · trivial
  · trivial
  · have different : generateSecretID 7 ≠ "secret_1" := by decide
    have asked : askedGroup outsiderSecret = "web" := by decide
    have unclosed : ¬ outsider.Closed (askedGroup outsiderSecret) := by
      rw [asked, Party.Closed, if_neg (by decide)]
      simp [outsider]
    refine ⟨iff_of_false different unclosed, ?_⟩
    rintro plain _ ⟨⟩ inside
    exact absurd inside (encryptedWith_ne _ _)
  · have different : generateUserToken 1 2 ≠ "root" := by decide
    exact iff_of_true different rfl
  · trivial

private theorem outsider_reserved : ∀ message ∈ outsiderMessages, ¬ message.SentBy outsider → message.command.Reserved outsider := by
  have own : ∀ {token : String} {command : Command}, token ≠ "root" →
      Message.SentBy outsider ⟨some token, command, secretOutside⟩ := by
    rintro token command different _ ⟨⟩
    exact different
  intro message member others
  simp only [outsiderMessages, List.mem_cons, List.not_mem_nil, or_false] at member
  rcases member with rfl | rfl | rfl | rfl | rfl | rfl | rfl | rfl
  · exact absurd (own (by decide)) others
  · exact absurd (own (by decide)) others
  · trivial
  · trivial
  · trivial
  · exact absurd (own (by decide)) others
  · trivial
  · rintro ⟨metadata, ⟨⟩, impossible⟩
    cases impossible

/-- What the messages come to, one after the other. -/
def outsiderRun : List (Served Message SecretWorld (Option Response)) :=
  serveAll (Message.answer secretFiles markedCoding) outsiderMessages outsiderWorld

theorem messages_contained_outsider : outsiderRun.length = 8 ∧ ∀ served ∈ outsiderRun, Contained outsider served.after.server ∧
    (served.operation.SentBy outsider → Spared outsider served.before.server served.after.server) :=
  ⟨rfl, messages_contained outsider_contained outsider_fresh outsider_reserved⟩

/-- The one secret that the user gets to see is that of the group the user is in. -/
theorem messages_discreet_outsider :
    outsiderRun.filterMap (fun served => served.result >>= Response.body >>= (memberText · "contents")) = ["shown"] ∧
    ∀ served ∈ outsiderRun, served.operation.SentBy outsider → ∀ response, served.result = some response →
      Discreet outsider markedCoding (served.operation.Shows served.before.server) response :=
  ⟨by decide +kernel, messages_discreet outsider_contained outsider_fresh outsider_reserved⟩

end Slate
