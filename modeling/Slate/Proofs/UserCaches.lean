import Slate.Proofs.Lookups

/-! The three user caches stay synchronized with the table through every
sequence of operations on users, whatever the clock does. -/

namespace Slate
open Library

/-- An operation on users as a request handler performs it. An update reads the
user before it writes the changed record. -/
inductive UserOperation where
  | addUser (user : User)
  | getUser (id : String)
  | findUserByToken (token : String)
  | findUserByGlobusID (globusID : String)
  | updateUser (user : User)
  | removeUser (id : String)
  | listUsers
  deriving DecidableEq, Repr

namespace UserOperation

def execute : UserOperation → StoreM Unit
  | .addUser user => do let _ ← Slate.addUser user
  | .getUser id => do let _ ← Slate.getUser id
  | .findUserByToken token => do let _ ← Slate.findUserByToken token
  | .findUserByGlobusID globusID => do let _ ← Slate.findUserByGlobusID globusID
  | .updateUser user => do
    let oldUser ← Slate.getUser user.id
    if oldUser.valid then
      let _ ← Slate.updateUser user oldUser
  | .removeUser id => do let _ ← Slate.removeUser id
  | .listUsers => do let _ ← Slate.listUsers

/-- A new user has a fresh ID, token and Globus ID. An update keeps the ID and
the Globus ID, and keeps the token or replaces it by a fresh one. -/
def permitted : UserOperation → Server → Prop
  | .addUser user, server => user.valid = true ∧ server.database.users.lookup user.id = none ∧
      ∀ id item, server.database.users.lookup id = some item →
        item.token ≠ user.token ∧ item.globusID ≠ user.globusID
  | .updateUser user, server => user.valid = true ∧
      ∀ item, server.database.users.lookup user.id = some item → item.globusID = user.globusID ∧
        (item.token = user.token ∨ ∀ id other, server.database.users.lookup id = some other → other.token ≠ user.token)
  | _, _ => True

end UserOperation

structure UsersConsistent (server : Server) : Prop where
  succeeding : Succeeding server
  unique : UsersUnique server.database.users
  agree : UsersAgree server.database.users server.users

theorem UsersConsistent.looked {before after : Server} (consistent : UsersConsistent before)
    (looked : Looked before after) : UsersConsistent after where
  succeeding := looked.succeeding consistent.succeeding
  unique := looked.database ▸ consistent.unique
  agree := looked.database ▸ looked.users consistent.agree

theorem userOfItem_itemOfUser {user : User} (valid : user.valid = true) :
    userOfItem user.id (itemOfUser user) = user := by
  cases user
  cases valid
  rfl

theorem UserHeld.eq {table : FiniteMap String UserItem} {first second : User} (held : UserHeld table first)
    (held' : UserHeld table second) (same : first.id = second.id) : first = second := by
  obtain ⟨item, found, whole⟩ := held
  obtain ⟨item', found', whole'⟩ := held'
  rw [← same, found] at found'
  cases found'
  rw [whole, whole', same]

theorem UserHeld.insert {table : FiniteMap String UserItem} {user : User} {id : String} {item : UserItem}
    (held : UserHeld table user) (different : user.id ≠ id) :
    UserHeld (AList.insert id item table) user := by
  obtain ⟨stored, found, whole⟩ := held
  refine ⟨stored, ?_, whole⟩
  rw [FiniteMap.lookup_insert, if_neg different]
  exact found

theorem UserHeld.erase {table : FiniteMap String UserItem} {user : User} {id : String} (held : UserHeld table user)
    (different : user.id ≠ id) : UserHeld (AList.erase id table) user := by
  obtain ⟨stored, found, whole⟩ := held
  refine ⟨stored, ?_, whole⟩
  rw [FiniteMap.lookup_erase, if_neg different]
  exact found

theorem userHeld_stored (table : FiniteMap String UserItem) {user : User} (valid : user.valid = true) :
    UserHeld (AList.insert user.id (itemOfUser user) table) user := by
  refine ⟨itemOfUser user, ?_, (userOfItem_itemOfUser valid).symm⟩
  rw [FiniteMap.lookup_insert, if_pos rfl]

theorem UsersUnique.insert {table : FiniteMap String UserItem} (unique : UsersUnique table) {id : String} {item : UserItem}
    (fresh : ∀ other row, table.lookup other = some row → other ≠ id →
      row.token ≠ item.token ∧ row.globusID ≠ item.globusID) :
    UsersUnique (AList.insert id item table) := by
  have rows : ∀ other row, (AList.insert id item table).lookup other = some row →
      other = id ∧ row = item ∨ other ≠ id ∧ table.lookup other = some row := by
    intro other row found
    rw [FiniteMap.lookup_insert] at found
    split at found
    next same => exact .inl ⟨same, (Option.some.inj found).symm⟩
    next different => exact .inr ⟨different, found⟩
  constructor
  · intro id₁ item₁ id₂ item₂ found₁ found₂ same
    obtain ⟨rfl, rfl⟩ | ⟨different₁, old₁⟩ := rows _ _ found₁ <;>
      obtain ⟨rfl, rfl⟩ | ⟨different₂, old₂⟩ := rows _ _ found₂
    · rfl
    · exact absurd same.symm (fresh _ _ old₂ different₂).1
    · exact absurd same (fresh _ _ old₁ different₁).1
    · exact unique.tokens _ _ _ _ old₁ old₂ same
  · intro id₁ item₁ id₂ item₂ found₁ found₂ same
    obtain ⟨rfl, rfl⟩ | ⟨different₁, old₁⟩ := rows _ _ found₁ <;>
      obtain ⟨rfl, rfl⟩ | ⟨different₂, old₂⟩ := rows _ _ found₂
    · rfl
    · exact absurd same.symm (fresh _ _ old₂ different₂).2
    · exact absurd same (fresh _ _ old₁ different₁).2
    · exact unique.globusIDs _ _ _ _ old₁ old₂ same

theorem UsersUnique.erase {table : FiniteMap String UserItem} (unique : UsersUnique table) (id : String) :
    UsersUnique (AList.erase id table) := by
  have rows : ∀ other row, (AList.erase id table).lookup other = some row →
      table.lookup other = some row := by
    intro other row found
    rw [FiniteMap.lookup_erase] at found
    split at found
    next => cases found
    next => exact found
  constructor
  · intro id₁ item₁ id₂ item₂ found₁ found₂
    exact unique.tokens _ _ _ _ (rows _ _ found₁) (rows _ _ found₂)
  · intro id₁ item₁ id₂ item₂ found₁ found₂
    exact unique.globusIDs _ _ _ _ (rows _ _ found₁) (rows _ _ found₂)

/-- A user nobody knew of does not disturb what is cached about the others. -/
theorem UsersAgree.insertFresh {table : FiniteMap String UserItem} {caches : UserCaches} (agree : UsersAgree table caches)
    {id : String} {item : UserItem} (fresh : table.lookup id = none) :
    UsersAgree (AList.insert id item table) caches := by
  have kept : ∀ user, UserHeld table user →
      UserHeld (AList.insert id item table) user := by
    intro user held
    refine held.insert ?_
    rintro rfl
    obtain ⟨_, found, -⟩ := held
    rw [fresh] at found
    cases found
  exact ⟨agree.byID.mono kept, agree.byToken.mono fun user good => ⟨kept user good.1, good.2⟩,
    agree.byGlobusID.mono fun user good => ⟨kept user good.1, good.2⟩⟩

private theorem returns_addUser {server : Server} (consistent : UsersConsistent server) {user : User}
    (allowed : (UserOperation.addUser user).permitted server) :
    Returns (addUser user) server fun added after => added = true ∧ UsersConsistent after := by
  obtain ⟨valid, fresh, others⟩ := allowed
  unfold addUser putUserItem
  simp only [returns_bind, returns_request, consistent.succeeding 0, returns_ite, if_true, returns_modify, returns_pure]
  refine returns_cacheUser (userHeld_stored _ valid) fun after filled => ⟨trivial, UsersConsistent.looked ?_ filled⟩
  exact {
    succeeding := fun n => consistent.succeeding _
    unique := consistent.unique.insert fun other row found _ => others other row found
    agree := consistent.agree.insertFresh fresh }

def UserCaches.update (caches : UserCaches) (oldToken : String) (record : CacheRecord User) : UserCaches :=
  { caches with
    userCache := caches.userCache.insert record.record.id record
    userByTokenCache := (if oldToken ≠ record.record.token then AList.erase oldToken caches.userByTokenCache
      else caches.userByTokenCache).insert record.record.token record
    userByGlobusIDCache := caches.userByGlobusIDCache.insert record.record.globusID record }

theorem UsersAgree.update {table : FiniteMap String UserItem} {caches : UserCaches} (agree : UsersAgree table caches)
    {oldUser : User} (record : CacheRecord User) (old : UserHeld table oldUser)
    (same : oldUser.id = record.record.id) (globus : oldUser.globusID = record.record.globusID)
    (valid : record.record.valid = true) :
    UsersAgree (AList.insert record.record.id (itemOfUser record.record) table)
      (caches.update oldUser.token record) := by
  have held := userHeld_stored table valid
  have cached : ∀ id, (caches.userCache.lookup id).isSome = true →
      ((caches.update oldUser.token record).userCache.lookup id).isSome = true :=
    fun id => isSome_insert _ _ _ _
  -- Only the old record is about the user that changes.
  have kept : ∀ user, UserHeld table user → user ≠ oldUser →
      UserHeld (AList.insert record.record.id (itemOfUser record.record) table) user := by
    intro user good different
    exact good.insert fun clash => different (good.eq old (clash.trans same.symm))
  refine ⟨agree.byID.insert held fun (user : User) different good => good.insert different, ?_,
    agree.byGlobusID.insert ⟨held, by simp [UserCaches.update]⟩ fun (user : User) different good => ⟨?_, cached _ good.2⟩⟩
  · unfold UserCaches.update
    dsimp only
    split
    next changed =>
      have erased : Keeps (AList.erase oldUser.token caches.userByTokenCache) User.token fun user =>
          UserHeld (AList.insert record.record.id (itemOfUser record.record) table) user ∧
            ((AList.insert record.record.id record caches.userCache).lookup user.id).isSome = true :=
        agree.byToken.erase fun user different good =>
          ⟨kept user good.1 fun clash => different (clash ▸ rfl), isSome_insert _ _ _ _ good.2⟩
      exact erased.insert ⟨held, by simp⟩ fun _ _ good => good
    next unchanged =>
      have unchanged := not_not.mp unchanged
      refine agree.byToken.insert ⟨held, by simp⟩ ?_
      rintro user different ⟨good, present⟩
      exact ⟨kept user good fun clash => different (clash ▸ unchanged), isSome_insert _ _ _ _ present⟩
  · exact kept user good.1 fun clash => different (clash ▸ globus)

private theorem returns_updateUser {server : Server} (consistent : UsersConsistent server) {user oldUser : User}
    (allowed : (UserOperation.updateUser user).permitted server) (old : UserHeld server.database.users oldUser)
    (same : oldUser.id = user.id) :
    Returns (updateUser user oldUser) server fun updated after => updated = true ∧ UsersConsistent after := by
  obtain ⟨valid, allowed⟩ := allowed
  obtain ⟨item, found, whole⟩ := id old
  rw [same] at found
  obtain ⟨globus, token⟩ := allowed item found
  have agree : ∀ expirationTime, UsersAgree _ _ := fun expirationTime =>
    consistent.agree.update ⟨user, expirationTime⟩ old same (by rw [whole]; exact globus) valid
  have unique : UsersUnique (AList.insert user.id (itemOfUser user) server.database.users) := by
    refine consistent.unique.insert fun other row stored different => ⟨fun clash => ?_, fun clash => different ?_⟩
    · obtain kept | fresh := token
      · exact different (consistent.unique.tokens _ _ _ _ stored found (clash.trans kept.symm))
      · exact fresh other row stored clash
    · exact consistent.unique.globusIDs _ _ _ _ stored found (clash.trans globus.symm)
  unfold updateUser putUserItem
  simp only [returns_bind, returns_request, consistent.succeeding 0, returns_ite, if_true, returns_modify, returns_pure,
    returns_lasting]
  unfold UserCaches.update at agree
  split
  next changed =>
    simp only [changed, if_true, ne_eq, not_false_eq_true] at agree
    exact ⟨trivial, fun n => consistent.succeeding _, unique, ⟨(agree _).byID, (agree _).byToken, (agree _).byGlobusID⟩⟩
  next unchanged =>
    simp only [unchanged, if_false] at agree
    exact ⟨trivial, fun n => consistent.succeeding _, unique, ⟨(agree _).byID, (agree _).byToken, (agree _).byGlobusID⟩⟩

/-- What the main cache knows of a user leads to all that is cached about it. -/
theorem UsersAgree.forget {table : FiniteMap String UserItem} {caches : UserCaches} (agree : UsersAgree table caches)
    (id : String) : UsersAgree (AList.erase id table) (caches.forget id) := by
  unfold UserCaches.forget
  cases present : caches.userCache.lookup id with
  | none =>
    have other : ∀ user : User, (caches.userCache.lookup user.id).isSome = true → user.id ≠ id := by
      rintro user cached rfl
      rw [present] at cached
      cases cached
    refine ⟨fun name entry found => ?_, agree.byToken.mono fun user good => ?_,
      agree.byGlobusID.mono fun user good => ?_⟩
    · obtain ⟨same, held⟩ := agree.byID name entry found
      exact ⟨same, held.erase (other _ (by rw [same, found]; rfl))⟩
    · exact ⟨good.1.erase (other _ good.2), good.2⟩
    · exact ⟨good.1.erase (other _ good.2), good.2⟩
  | some record =>
    obtain ⟨same, held⟩ := agree.byID _ _ present
    have other : ∀ user, UserHeld table user → user ≠ record.record → user.id ≠ id :=
      fun user good different clash => different (good.eq held (clash.trans same.symm))
    have still : ∀ user : User, user.id ≠ id → (caches.userCache.lookup user.id).isSome = true →
        ((AList.erase id caches.userCache).lookup user.id).isSome = true := by
      intro user different cached
      rw [FiniteMap.lookup_erase, if_neg different]
      exact cached
    refine ⟨agree.byID.erase fun (user : User) different good => good.erase different,
      agree.byToken.erase fun (user : User) different good => ?_, agree.byGlobusID.erase fun (user : User) different good => ?_⟩
    · have apart := other user good.1 fun clash => different (clash ▸ rfl)
      exact ⟨good.1.erase apart, still user apart good.2⟩
    · have apart := other user good.1 fun clash => different (clash ▸ rfl)
      exact ⟨good.1.erase apart, still user apart good.2⟩

private theorem returns_removeUser {server : Server} (consistent : UsersConsistent server) (id : String) :
    Returns (removeUser id) server fun removed after => removed = true ∧ UsersConsistent after := by
  unfold removeUser deleteUserItem
  simp only [returns_bind, returns_request, consistent.succeeding 0, returns_ite, if_true, returns_modify, returns_pure]
  exact ⟨trivial, fun n => consistent.succeeding _, consistent.unique.erase id, consistent.agree.forget id⟩

/-- A listing renews the main cache alone. -/
theorem UsersAgree.list {table : FiniteMap String UserItem} {caches : UserCaches} (agree : UsersAgree table caches)
    (record : CacheRecord User) (held : UserHeld table record.record) :
    UsersAgree table { caches with userCache := caches.userCache.insert record.record.id record } :=
  ⟨agree.byID.insert held fun _ _ good => good,
    agree.byToken.mono fun _ good => ⟨good.1, isSome_insert _ _ _ _ good.2⟩,
    agree.byGlobusID.mono fun _ good => ⟨good.1, isSome_insert _ _ _ _ good.2⟩⟩

private theorem returns_listUsers {server : Server} (consistent : UsersConsistent server) :
    Returns listUsers server fun _ after => UsersConsistent after := by
  unfold listUsers
  simp only [returns_bind, returns_now, returns_get, returns_ite, returns_pure]
  split
  next => exact consistent.looked (.tick server)
  next =>
    simp only [returns_request, tick_outcomes, consistent.succeeding 0, if_true, returns_modify]
    have asked := (Looked.tick server).trans (.answered _)
    refine Returns.mono (returns_mapM_keeps (fun current => UsersConsistent current ∧
      current.database = server.database) ⟨consistent.looked asked, rfl⟩ ?_) ?_
    · rintro ⟨id, item⟩ member current ⟨kept, same⟩
      simp only [returns_bind, returns_lasting, returns_modify, returns_pure]
      have held : UserHeld current.database.users (userOfItem id item) := by
        rw [same]
        exact userHeld_of_lookup (FiniteMap.mem_pairs.mp member)
      exact ⟨⟨fun n => kept.succeeding n, kept.unique, kept.agree.list ⟨_, _⟩ held⟩, same⟩
    · rintro collected current ⟨kept, -⟩
      exact ⟨fun n => kept.succeeding n, kept.unique, ⟨kept.agree.byID, kept.agree.byToken, kept.agree.byGlobusID⟩⟩

private theorem execute_keeps_users (operation : UserOperation) (server : Server) (consistent : UsersConsistent server)
    (allowed : operation.permitted server) :
    Returns operation.execute server fun _ after => UsersConsistent after := by
  cases operation with
  | addUser user =>
    simp only [UserOperation.execute, returns_bind, returns_pure]
    exact (returns_addUser consistent allowed).mono fun _ _ => And.right
  | getUser id =>
    simp only [UserOperation.execute, returns_bind, returns_pure]
    exact returns_getUser consistent.succeeding consistent.agree id fun _ _ looked _ _ => consistent.looked looked
  | findUserByToken token =>
    simp only [UserOperation.execute, returns_bind, returns_pure]
    exact returns_findUserByToken consistent.succeeding consistent.agree consistent.unique token
      fun _ _ looked _ _ => consistent.looked looked
  | findUserByGlobusID globusID =>
    simp only [UserOperation.execute, returns_bind, returns_pure]
    exact returns_findUserByGlobusID consistent.succeeding consistent.agree consistent.unique globusID
      fun _ _ looked _ _ => consistent.looked looked
  | updateUser user =>
    simp only [UserOperation.execute, returns_bind, returns_pure, returns_ite]
    refine returns_getUser consistent.succeeding consistent.agree user.id fun oldUser after looked answers _ => ?_
    have current := consistent.looked looked
    split
    next valid =>
      obtain ⟨id, item, found, same, whole⟩ | ⟨invalid, -⟩ := answers
      · subst whole same
        have held : UserHeld after.database.users (userOfItem user.id item) :=
          looked.database ▸ userHeld_of_lookup found
        exact (returns_updateUser current ⟨allowed.1, looked.database ▸ allowed.2⟩ held rfl).mono fun _ _ => And.right
      · rw [invalid] at valid
        cases valid
    next => exact current
  | removeUser id =>
    simp only [UserOperation.execute, returns_bind, returns_pure]
    exact (returns_removeUser consistent id).mono fun _ _ => And.right
  | listUsers =>
    simp only [UserOperation.execute, returns_bind, returns_pure]
    exact returns_listUsers consistent

/-- After any sequence of operations, whatever the clock reads, a user is found
under an ID, a token or a Globus ID exactly when the table holds it, and every
record cached by token or Globus ID is the table's. -/
theorem user_lookups_agree_with_table {server : Server} {history : List UserOperation} (fresh : server.users = {})
    (unique : UsersUnique server.database.users) (succeeding : Succeeding server)
    (allowed : Permitted UserOperation.execute UserOperation.permitted history server) :
    Returns (history.forM UserOperation.execute) server fun _ current =>
      (∀ id, Returns (getUser id) current fun user _ => Answers current.database (fun key _ => key = id) user) ∧
      (∀ token, Returns (findUserByToken token) current fun user _ =>
        Answers current.database (fun _ item => item.token = token) user) ∧
      (∀ globusID, Returns (findUserByGlobusID globusID) current fun user _ =>
        Answers current.database (fun _ item => item.globusID = globusID) user) ∧
      (∀ token entry, current.users.userByTokenCache.lookup token = some entry →
        entry.record.token = token ∧ UserHeld current.database.users entry.record) ∧
      (∀ globusID entry, current.users.userByGlobusIDCache.lookup globusID = some entry →
        entry.record.globusID = globusID ∧ UserHeld current.database.users entry.record) := by
  have start : UsersConsistent server := ⟨succeeding, unique, fresh ▸ .empty _⟩
  refine (returns_history execute_keeps_users start allowed).mono fun _ current consistent => ?_
  obtain ⟨succeeding, unique, agree⟩ := consistent
  refine ⟨fun id => ?_, fun token => ?_, fun globusID => ?_, fun token entry found => ?_,
    fun globusID entry found => ?_⟩
  · exact returns_getUser succeeding agree id fun _ _ _ answers _ => answers
  · exact returns_findUserByToken succeeding agree unique token fun _ _ _ answers _ => answers
  · exact returns_findUserByGlobusID succeeding agree unique globusID fun _ _ _ answers _ => answers
  · exact (agree.byToken token entry found).imp id And.left
  · exact (agree.byGlobusID globusID entry found).imp id And.left

/-- A user is added, found, and removed again. -/
theorem user_lookups_agree_with_table_run :
    let alice : User :=
      { valid := true, id := "user_1", name := "Alice", email := "a@b", phone := "1", institution := "I",
        token := "secret", globusID := "g" }
    Returns ([.addUser alice, .findUserByToken "secret", .removeUser "user_1"].forM UserOperation.execute) ({} : Server)
      fun _ current =>
        Returns (findUserByToken "secret") current fun user _ =>
          Answers current.database (fun _ item => item.token = "secret") user := by
  intro alice
  have allowed : Permitted UserOperation.execute UserOperation.permitted
      [.addUser alice, .findUserByToken "secret", .removeUser "user_1"] ({} : Server) :=
    ⟨⟨rfl, rfl, by simp⟩, fun _ _ => ⟨trivial, fun _ _ => ⟨trivial, fun _ _ => trivial⟩⟩⟩
  exact (user_lookups_agree_with_table rfl ⟨by simp, by simp⟩ (fun _ => rfl) allowed).mono
    fun _ _ agree => agree.2.1 "secret"

end Slate
