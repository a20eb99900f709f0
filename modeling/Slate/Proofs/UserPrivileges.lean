import Slate.Proofs.PartySecrets

/-! What the handlers of requests about users keep of others, and what their replies disclose. -/

namespace Slate
open Library Handler

/-- Somewhere in the document is an access token. What is kept for users is not looked into. -/
inductive Discloses (token : String) : Json → Prop
  | here {members} (there : ("access_token", Json.string token) ∈ members) : Discloses token (.object members)
  | member {name value members} (inside : (name, value) ∈ members) (said : name ≠ "contents") (deeper : Discloses token value) :
      Discloses token (.object members)
  | item {value items} (inside : value ∈ items) (deeper : Discloses token value) : Discloses token (.array items)

namespace Discloses
variable {token : String}

@[simp] theorem string (text : String) : ¬ Discloses token (.string text) := fun impossible => by cases impossible

@[simp] theorem bool (value : Bool) : ¬ Discloses token (.bool value) := fun impossible => by cases impossible

@[simp] theorem object {members : Members} : Discloses token (.object members) ↔
    ∃ member ∈ members, member.1 = "access_token" ∧ member.2 = .string token ∨
      member.1 ≠ "contents" ∧ Discloses token member.2 := by
  constructor
  · intro discloses
    cases discloses with
    | here there => exact ⟨_, there, .inl ⟨rfl, rfl⟩⟩
    | member inside said deeper => exact ⟨_, inside, .inr ⟨said, deeper⟩⟩
  · rintro ⟨⟨name, value⟩, inside, ⟨rfl, rfl⟩ | ⟨said, deeper⟩⟩
    · exact .here inside
    · exact .member inside said deeper

@[simp] theorem array {items : List Json} : Discloses token (.array items) ↔ ∃ value ∈ items, Discloses token value := by
  constructor
  · intro discloses
    cases discloses with
    | item inside deeper => exact ⟨_, inside, deeper⟩
  · rintro ⟨value, inside, deeper⟩
    exact .item inside deeper

end Discloses

/-- A reply has no tokens but those set aside for the party, and no contents but of a known secret that is of no closed
group, and whose data is not sealed. -/
structure Discreet (party : Party) (coding : SecretCoding) (known : Secret → Prop) (response : Response) : Prop where
  tokens : ∀ body, response.body = some body → ∀ token, Discloses token body → token ∈ party.tokens
  contents : ∀ document, response.body >>= Json.member "contents" = some document →
    ∃ secret plain, known secret ∧ ¬ party.Closed secret.group ∧ secret.data ∉ party.sealed ∧
      coding.decrypt secret.data = .ok plain ∧ document = coding.parse plain

def DiscreetTo (party : Party) (coding : SecretCoding) (known : Secret → Prop) (own : Prop) (response : Response) : Prop :=
  own → Discreet party coding known response

section
variable {party : Party} {coding : SecretCoding} {known : Secret → Prop} {own : Prop}

theorem discreet_silent (status : Nat) : DiscreetTo party coding known own { status } := by
  intro _
  constructor
  · intro _ impossible
    cases impossible
  · intro _ impossible
    cases impossible

/-- A reply without contents. -/
theorem discreet_plain {status : Nat} {body : Json} (silent : body.member "contents" = none)
    (kept : own → ∀ token, Discloses token body → token ∈ party.tokens) :
    DiscreetTo party coding known own ⟨status, some body⟩ := by
  refine fun is => ⟨?_, fun document there => ?_⟩
  · rintro _ ⟨⟩
    exact kept is
  · cases silent.symm.trans there

private theorem discreet_error (status : Nat) (message : String) :
    DiscreetTo party coding known own ⟨status, some (generateError message)⟩ := by
  apply discreet_plain rfl
  intro _ token discloses
  simp [generateError] at discloses

private theorem discreet_user {user : User} (mine : own → user.token ∈ party.tokens) (groups : List String) :
    DiscreetTo party coding known own (userResponse user groups) := by
  apply discreet_plain rfl
  intro is token discloses
  have same : user.token = token := by simpa [userMetadata] using discloses
  exact same ▸ mine is

/-- A handler that keeps what the store is trusted with, however it ends. -/
abbrev MindsIn {σ α : Type} (view : σ → Server) (party : Party) (coding : SecretCoding) (known : Secret → Prop)
    (own : Prop) (program : EStateM Halt σ α)
    (good : α → Prop) : Prop :=
  Upholds (fun state => Contained party (view state)) (Order.Preimage view (Sparing party own))
    (fun halt => ∀ response, halt = .response response → DiscreetTo party coding known own response) program good

/-- The same, of a handler that runs no commands. -/
abbrev Minds {α : Type} (party : Party) (coding : SecretCoding) (known : Secret → Prop) (own : Prop)
    (program : HandlerM α) (good : α → Prop) : Prop :=
  MindsIn id party coding known own program good

theorem minds_onStore {α : Type} {program : StoreM α} {good : α → Prop} (upheld : Upheld party own program good) :
    Minds party coding known own (onStore program) good := by
  intro server contained
  have ends := upheld server contained
  unfold Ends at ends ⊢
  unfold onStore
  cases ran : program server with
  | ok value after =>
    rw [ran] at ends
    exact ends
  | error message after =>
    rw [ran] at ends
    exact ⟨ends.1, ends.2.1, fun _ impossible => by cases impossible⟩

section
variable {σ α : Type} {view : σ → Server}

theorem minds_accessing (found : Option α) :
    MindsIn view party coding known own (accessing found) fun value => found = some value := by
  cases found with
  | none => exact .throw fun _ impossible => by cases impossible
  | some value => exact .pure rfl

/-- An exception shows nothing to anybody. -/
theorem minds_throw {good : α → Prop} (message : String) :
    MindsIn view party coding known own (throw (.thrown message)) good :=
  .throw fun _ impossible => by cases impossible

theorem minds_refuse {good : α → Prop} (status : Nat) (message : String) :
    MindsIn view party coding known own (refuse status message) good := by
  apply Upholds.throw
  rintro _ ⟨⟩
  exact discreet_error status message

theorem minds_require (test : Option Bool) (status : Nat) (message : String) :
    MindsIn view party coding known own (require test status message) fun _ => test = some true := by
  apply (minds_accessing test).bind
  intro passed same
  refine .ite (fun yes => ?_) fun _ => minds_refuse status message
  rw [yes] at same
  exact .pure same

end

theorem minds_checkOptional (metadata : Json) (name message : String) :
    Minds party coding known own (checkOptional metadata name message) fun _ => True := by
  unfold checkOptional
  split
  next => exact .pure trivial
  next => exact (minds_require _ _ _).mono fun _ _ => trivial

theorem minds_checkRequired (metadata : Json) (name missing incorrect : String) :
    Minds party coding known own (checkRequired metadata name missing incorrect) fun _ => True :=
  (minds_require _ _ _).bind fun _ _ => minds_checkOptional _ _ _

theorem minds_requestMetadata (body : Json) (missing incorrect : String) :
    Minds party coding known own (requestMetadata body missing incorrect) fun metadata => body.member "metadata" = some metadata := by
  apply (minds_require _ _ _).bind
  intro _ _
  apply (minds_require _ _ _).bind
  intro _ _
  apply (minds_accessing _).bind
  intro metadata found
  exact (minds_require _ _ _).bind fun _ _ => .pure found

end

def GrantsAdmin (body : Json) : Prop :=
  ∃ metadata, body.member "metadata" = some metadata ∧ metadata.member "admin" = some (.bool true)

namespace UserCommand

/-- A random token is one set aside for the party exactly if it is for an account of it. -/
def Fresh (party : Party) : UserCommand → Prop
  | createUser idValue first second _ => generateUserToken first second ∈ party.tokens ↔ generateUserID idValue ∈ party.ids
  | replaceUserToken uID first second => generateUserToken first second ∈ party.tokens ↔ uID ∈ party.ids
  | _ => True

/-- A command that gives the party no rights: it makes none of it an administrator, nor a member of a closed group. -/
def Reserved (party : Party) : UserCommand → Prop
  | createUser idValue _ _ body => GrantsAdmin body → generateUserID idValue ∉ party.ids
  | updateUser uID body => GrantsAdmin body → uID ∉ party.ids
  | addUserToGroup uID groupID => uID ∈ party.ids → ¬ party.Closed groupID
  | _ => True

end UserCommand

section
variable {party : Party} {coding : SecretCoding} {known : Secret → Prop} {own : Prop} {user : User}

theorem Party.Fits.valid_id {uID : String} {found : User} (same : found.id = uID ∨ found = {}) (valid : found.valid = true) :
    found.id = uID := by
  rcases same with same | rfl
  · exact same
  · cases valid

/-- An administrator is not of the party. -/
theorem Party.Fits.other (fits : party.Fits user) (mine : own → user.valid = true → user.id ∈ party.ids)
    (valid : user.valid = true) (admin : user.admin = true) : ¬ own := by
  intro is
  have plain := fits.plain valid (mine is valid)
  exact Bool.noConfusion (plain.symm.trans admin)

theorem minds_authorizeFor (fits : party.Fits user) (mine : own → user.valid = true → user.id ∈ party.ids) (uID message : String) :
    Minds party coding known own (authorizeFor user uID message) fun _ => user.valid = true ∧ (own → uID ∈ party.ids) := by
  apply (minds_require _ _ _).bind
  intro _ valid
  have valid : user.valid = true := Option.some.inj valid
  apply (minds_require _ _ _).mono
  intro _ permitted
  refine ⟨valid, fun is => ?_⟩
  have inside := mine is valid
  have permitted : user.admin = true ∨ user.id = uID := by simpa using permitted
  rcases permitted with admin | rfl
  · exact absurd is (fits.other mine valid admin)
  · exact inside

private theorem minds_authorizeIn (fits : party.Fits user) (valid : user.valid = true) (mine : own → user.id ∈ party.ids)
    (groupID : String) :
    Minds party coding known own (authorizeIn user groupID) fun _ => own → ¬ party.Closed groupID := by
  unfold authorizeIn
  refine .ite (fun _ => ?_) fun admin => .pure fun is => ?_
  · apply (minds_onStore (upheld_userInGroup user.id groupID)).bind
    intro member decided
    exact (minds_require _ _ _).mono fun _ yes is => decided (Option.some.inj yes) (mine is)
  · rw [fits.plain valid (mine is)] at admin
    exact absurd rfl admin

private theorem minds_listUsersRequest (group : Option String) :
    Minds party coding known own (listUsersRequest user group) (DiscreetTo party coding known own) := by
  have listed : ∀ users : List User, DiscreetTo party coding known own ⟨200, some (.object [("apiVersion", .string "v1alpha3"),
      ("items", .array (users.map listedUser))])⟩ := by
    intro users
    apply discreet_plain rfl
    intro _ token discloses
    simp [listedUser] at discloses
  apply (minds_require _ _ _).bind
  intro _ _
  cases group with
  | none => exact (minds_onStore upheld_listUsers).bind fun users _ => .pure (listed users)
  | some group => exact (minds_onStore (upheld_listUsersByGroup group)).bind fun users _ => .pure (listed users)

private theorem minds_requestedUser (idValue first second : UInt64) (body : Json) :
    Minds party coding known own (requestedUser idValue first second body) fun asked => asked.valid = true ∧
      asked.id = generateUserID idValue ∧ asked.token = generateUserToken first second ∧
      (asked.admin = true → GrantsAdmin body) := by
  apply (minds_requestMetadata _ _ _).bind
  intro metadata there
  iterate 5
    apply (minds_checkRequired _ _ _ _).bind
    intro _ _
  apply (minds_require _ _ _).bind
  intro _ _
  apply (minds_require _ _ _).bind
  intro _ _
  iterate 5
    apply (minds_accessing _).bind
    intro _ _
  apply (minds_accessing _).bind
  intro admin flag
  refine .pure ⟨rfl, rfl, rfl, ?_⟩
  rintro rfl
  obtain ⟨value, found, isTrue⟩ := Option.bind_eq_some_iff.mp flag
  exact ⟨metadata, there, found.trans (congrArg some (Json.getBool_eq isTrue))⟩

private theorem minds_createUser (fits : party.Fits user) (mine : own → user.valid = true → user.id ∈ party.ids)
    {idValue first second : UInt64} {body : Json} (fresh : (UserCommand.createUser idValue first second body).Fresh party)
    (reserved : ¬ own → (UserCommand.createUser idValue first second body).Reserved party) :
    Minds party coding known own (createUser user idValue first second body) (DiscreetTo party coding known own) := by
  apply (minds_require _ _ _).bind
  intro _ valid
  have valid : user.valid = true := Option.some.inj valid
  apply (minds_require _ _ _).bind
  intro _ admin
  have others : ¬ own := fits.other mine valid (Option.some.inj admin)
  apply (minds_requestedUser _ _ _ _).bind
  rintro asked ⟨asValid, id, token, grants⟩
  apply (minds_onStore (upheld_findUserByGlobusID asked.globusID)).bind
  intro other _
  apply (minds_require _ _ _).bind
  intro _ _
  have fitting : party.Fits asked := by
    refine ⟨fun _ => by rw [id, token]; exact fresh, fun _ inside => ?_⟩
    rw [id] at inside
    exact Bool.eq_false_iff.mpr fun asAdmin => reserved others (grants asAdmin) inside
  apply (minds_onStore (upheld_addUser asValid fitting fun is => absurd is others)).bind
  intro created _
  exact (minds_require _ _ _).bind fun _ _ => .pure fun is => absurd is others

private theorem minds_getUserInfo (fits : party.Fits user) (mine : own → user.valid = true → user.id ∈ party.ids) (uID : String) :
    Minds party coding known own (getUserInfo user uID) (DiscreetTo party coding known own) := by
  apply (minds_authorizeFor fits mine uID _).bind
  rintro _ ⟨valid, inside⟩
  apply (minds_onStore (upheld_getUser uID)).bind
  rintro target ⟨fits, same⟩
  apply (minds_require _ _ _).bind
  intro _ valid
  have valid : target.valid = true := Option.some.inj valid
  apply (minds_onStore (upheld_getUserGroupMemberships uID true)).bind
  intro groups _
  apply Upholds.pure
  apply discreet_user
  intro is
  rw [fits.token valid, Party.Fits.valid_id same valid]
  exact inside is

private theorem minds_whoAreThey (fits : party.Fits user) (mine : own → user.valid = true → user.id ∈ party.ids) :
    Minds party coding known own (whoAreThey user) (DiscreetTo party coding known own) := by
  apply (minds_require _ _ _).bind
  intro _ valid
  have valid : user.valid = true := Option.some.inj valid
  apply (minds_onStore (upheld_getUserGroupMemberships user.id true)).bind
  intro groups _
  exact .pure (discreet_user (fun is => (fits.token valid).mpr (mine is valid)) groups)

private theorem minds_updatedUserField (metadata : Json) (name old : String) :
    Minds party coding known own (updatedUserField metadata name old) fun _ => True :=
  (minds_checkOptional _ _ _).bind fun _ _ => .pure trivial

/-- Only an administrator comes to ask for a change of these rights. -/
theorem minds_updatedAdmin (metadata : Json) (old : Bool) :
    Minds party coding known own (updatedAdmin user metadata old) fun admin =>
      admin = old ∨ user.admin = true ∧ metadata.member "admin" = some (.bool admin) := by
  unfold updatedAdmin
  split
  next => exact .pure (.inl rfl)
  next value found =>
    apply (minds_require _ _ _).bind
    intro _ _
    apply (minds_require _ _ _).bind
    intro _ admin
    apply (minds_accessing _).mono
    intro flag same
    exact .inr ⟨Option.some.inj admin, found.trans (congrArg some (Json.getBool_eq same))⟩

private theorem minds_updateUserRequest (fits : party.Fits user) (mine : own → user.valid = true → user.id ∈ party.ids)
    {uID : String} {body : Json} (reserved : ¬ own → (UserCommand.updateUser uID body).Reserved party) :
    Minds party coding known own (updateUserRequest user uID body) (DiscreetTo party coding known own) := by
  apply (minds_authorizeFor fits mine uID _).bind
  rintro _ ⟨asks, inside⟩
  apply (minds_onStore (upheld_getUser uID)).bind
  rintro target ⟨old, same⟩
  apply (minds_require _ _ _).bind
  intro _ valid
  have valid : target.valid = true := Option.some.inj valid
  have same := Party.Fits.valid_id same valid
  have asked : Minds party coding known own (requestedUserUpdate user target body) fun updated => updated.valid = true ∧
      updated.id = uID ∧ party.Fits updated := by
    apply (minds_requestMetadata _ _ _).bind
    intro metadata there
    iterate 4
      apply (minds_updatedUserField _ _ _).bind
      intro _ _
    apply (minds_updatedAdmin _ _).bind
    intro admin changed
    refine .pure ⟨valid, same, fun _ => old.token valid, fun _ ours => ?_⟩
    dsimp only at ours ⊢
    rcases changed with rfl | ⟨asAdmin, flag⟩
    · exact old.plain valid ours
    · rw [same] at ours
      apply Bool.eq_false_iff.mpr
      rintro rfl
      exact reserved (fits.other mine asks asAdmin) ⟨metadata, there, flag⟩ ours
  apply asked.bind
  rintro updated ⟨valid, id, fits⟩
  apply (minds_onStore (upheld_updateUser valid fits fun is => id ▸ inside is)).bind
  intro done _
  exact (minds_require _ _ _).bind fun _ _ => .pure (discreet_silent 200)

/-- Both ways in which the requests that name a user go on from the check that there is one. -/
theorem minds_targetUser {α : Type} {good : α → Prop} (uID message : String) {rest : HandlerM α}
    (goesOn : Minds party coding known own rest good) : Minds party coding known own (do
      if user.id ≠ uID then
        let targetUser ← onStore (getUser uID)
        require (some targetUser.valid) 404 message
      rest) good := by
  refine .ite (fun _ => ?_) fun _ => goesOn
  apply (minds_onStore (upheld_getUser uID)).bind
  intro target _
  exact (minds_require _ _ _).bind fun _ _ => goesOn

private theorem minds_deleteUser (fits : party.Fits user) (mine : own → user.valid = true → user.id ∈ party.ids) (uID : String) :
    Minds party coding known own (deleteUser user uID) (DiscreetTo party coding known own) := by
  apply (minds_authorizeFor fits mine uID _).bind
  rintro _ ⟨-, inside⟩
  apply minds_targetUser
  apply (minds_onStore (upheld_getUserGroupMemberships uID false)).bind
  intro groups _
  have each : ∀ groupID ∈ groups, Minds party coding known own (do let _ ← onStore (removeUserFromGroup uID groupID)) fun _ => True :=
    fun groupID _ => (minds_onStore (upheld_removeUserFromGroup fun is => .inr (inside is))).bind fun _ _ => .pure trivial
  apply (Upholds.forM each).bind
  intro _ _
  apply (minds_onStore (upheld_removeUser inside)).bind
  intro deleted _
  exact (minds_require _ _ _).bind fun _ _ => .pure (discreet_silent 200)

private theorem minds_listUsergroups (uID : String) : Minds party coding known own (listUsergroups user uID)
    (DiscreetTo party coding known own) := by
  apply (minds_require _ _ _).bind
  intro _ _
  apply minds_targetUser
  apply (minds_onStore (upheld_getUserGroupMemberships uID true)).bind
  intro groups _
  have each : ∀ groupName ∈ groups, Minds party coding known own (do
      let group ← onStore (findGroupByName groupName)
      return listedGroup groupName group.id) fun item => ∀ token, ¬ Discloses token item := by
    intro groupName _
    apply (minds_onStore (upheld_findGroupByName groupName)).bind
    intro group _
    apply Upholds.pure
    intro token
    simp [listedGroup]
  apply (Upholds.mapM each).bind
  intro items silent
  apply Upholds.pure
  apply discreet_plain rfl
  intro _ token discloses
  have inside : ∃ item ∈ items, Discloses token item := by simpa using discloses
  obtain ⟨item, member, deeper⟩ := inside
  exact absurd deeper (silent item member token)

private theorem minds_addUserToGroupRequest (fits : party.Fits user) (mine : own → user.valid = true → user.id ∈ party.ids)
    {uID groupID : String} (reserved : ¬ own → (UserCommand.addUserToGroup uID groupID).Reserved party) :
    Minds party coding known own (addUserToGroupRequest user uID groupID) (DiscreetTo party coding known own) := by
  apply (minds_require _ _ _).bind
  intro _ valid
  have valid : user.valid = true := Option.some.inj valid
  apply (minds_onStore (upheld_getUser uID)).bind
  intro target _
  apply (minds_require _ _ _).bind
  intro _ _
  apply (minds_onStore (upheld_getGroup groupID)).bind
  intro group _
  apply (minds_require _ _ _).bind
  intro _ _
  apply (minds_authorizeIn fits valid (fun is => mine is valid) groupID).bind
  intro _ member
  have outside : uID ∈ party.ids → ¬ party.Closed groupID := by
    by_cases is : own
    · exact fun _ => member is
    · exact reserved is
  apply (minds_onStore (upheld_addUserToGroup outside member)).bind
  intro success _
  exact (minds_require _ _ _).bind fun _ _ => .pure (discreet_silent 200)

private theorem minds_removeUserFromGroupRequest (fits : party.Fits user) (mine : own → user.valid = true → user.id ∈ party.ids)
    (uID groupID : String) :
    Minds party coding known own (removeUserFromGroupRequest user uID groupID) (DiscreetTo party coding known own) := by
  apply (minds_require _ _ _).bind
  intro _ valid
  have valid : user.valid = true := Option.some.inj valid
  apply (minds_onStore (upheld_getUser uID)).bind
  intro target _
  apply (minds_require _ _ _).bind
  intro _ _
  apply (minds_authorizeIn fits valid (fun is => mine is valid) groupID).bind
  intro _ member
  apply (minds_onStore (upheld_removeUserFromGroup fun is => .inl (member is))).bind
  intro success _
  exact (minds_require _ _ _).bind fun _ _ => .pure (discreet_silent 200)

private theorem minds_findUser (fits : party.Fits user) (mine : own → user.valid = true → user.id ∈ party.ids) (globusID : Option String) :
    Minds party coding known own (findUser user globusID) (DiscreetTo party coding known own) := by
  apply (minds_require _ _ _).bind
  intro _ permitted
  have permitted : user.valid = true ∧ user.admin = true := by simpa using permitted
  have others : ¬ own := fits.other mine permitted.1 permitted.2
  cases globusID with
  | none => exact minds_refuse _ _
  | some globusID =>
    apply (minds_onStore (upheld_findUserByGlobusID globusID)).bind
    intro target _
    exact (minds_require _ _ _).bind fun _ _ => .pure fun is => absurd is others

private theorem minds_replaceUserToken (fits : party.Fits user) (mine : own → user.valid = true → user.id ∈ party.ids)
    {uID : String} {first second : UInt64} (fresh : (UserCommand.replaceUserToken uID first second).Fresh party) :
    Minds party coding known own (replaceUserToken user uID first second) (DiscreetTo party coding known own) := by
  apply (minds_authorizeFor fits mine uID _).bind
  rintro _ ⟨-, inside⟩
  apply (minds_onStore (upheld_getUser uID)).bind
  rintro target ⟨old, same⟩
  apply (minds_require _ _ _).bind
  intro _ valid
  have valid : target.valid = true := Option.some.inj valid
  have same := Party.Fits.valid_id same valid
  have updated : party.Fits { target with token := generateUserToken first second } := by
    refine ⟨fun _ => ?_, old.plain⟩
    dsimp only
    rw [same]
    exact fresh
  have written : Upheld party own (updateUser { target with token := generateUserToken first second } target) fun _ => True :=
    upheld_updateUser valid updated fun is => same ▸ inside is
  apply (minds_onStore written).bind
  intro done _
  apply (minds_require _ _ _).bind
  intro _ _
  apply Upholds.pure
  apply discreet_plain rfl
  intro is token discloses
  have shown : generateUserToken first second = token := by simpa using discloses
  exact shown ▸ fresh.mpr (inside is)

/-- Each command, sent by a user with or without rights. -/
theorem minds_perform (fits : party.Fits user) (mine : own → user.valid = true → user.id ∈ party.ids) {command : UserCommand}
    (fresh : command.Fresh party) (reserved : ¬ own → command.Reserved party) :
    Minds party coding known own (command.perform user) (DiscreetTo party coding known own) := by
  cases command with
  | listUsers group => exact minds_listUsersRequest group
  | createUser idValue first second body => exact minds_createUser fits mine fresh reserved
  | getUserInfo uID => exact minds_getUserInfo fits mine uID
  | whoAreThey => exact minds_whoAreThey fits mine
  | updateUser uID body => exact minds_updateUserRequest fits mine reserved
  | deleteUser uID => exact minds_deleteUser fits mine uID
  | listUsergroups uID => exact minds_listUsergroups uID
  | addUserToGroup uID groupID => exact minds_addUserToGroupRequest fits mine reserved
  | removeUserFromGroup uID groupID => exact minds_removeUserFromGroupRequest fits mine uID groupID
  | findUser globusID => exact minds_findUser fits mine globusID
  | replaceUserToken uID first second => exact minds_replaceUserToken fits mine fresh

end

end Slate
