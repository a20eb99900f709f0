import Slate.Users
import Slate.Library.Interleaving

/-! Requests about single users as calls that run at once: lookups, the handlers that
change a user and the handler that deletes one. A handler reads the user, builds a
whole new record and writes it. Each step touches the database or one cache. -/

namespace Slate
open Library

inductive UserPlace where
  | byID (id : String)
  | byToken (token : String)
  | byGlobusID (globusID : String)
  deriving DecidableEq, Repr

namespace UserCaches

def entry (caches : UserCaches) : UserPlace → Option (CacheRecord User)
  | .byID id => caches.userCache.lookup id
  | .byToken token => caches.userByTokenCache.lookup token
  | .byGlobusID globusID => caches.userByGlobusIDCache.lookup globusID

def store (caches : UserCaches) (record : CacheRecord User) : UserPlace → UserCaches
  | .byID id => { caches with userCache := caches.userCache.insert id record }
  | .byToken token => { caches with userByTokenCache := caches.userByTokenCache.insert token record }
  | .byGlobusID globusID => { caches with userByGlobusIDCache := caches.userByGlobusIDCache.insert globusID record }

def erase (caches : UserCaches) : UserPlace → UserCaches
  | .byID id => { caches with userCache := AList.erase id caches.userCache }
  | .byToken token => caches.eraseToken token
  | .byGlobusID globusID => { caches with userByGlobusIDCache := AList.erase globusID caches.userByGlobusIDCache }

theorem entry_store (caches : UserCaches) (record : CacheRecord User) (place other : UserPlace) :
    (caches.store record place).entry other = if other = place then some record else caches.entry other := by
  cases place <;> cases other <;> simp [entry, store, FiniteMap.lookup_insert]

theorem entry_erase (caches : UserCaches) (place other : UserPlace) :
    (caches.erase place).entry other = if other = place then none else caches.entry other := by
  cases place <;> cases other <;> simp [entry, erase, eraseToken, FiniteMap.lookup_erase]

end UserCaches

inductive UserCaching where
  | store (place : UserPlace)
  | erase (place : UserPlace)
  deriving DecidableEq, Repr

namespace UserCaching

def place : UserCaching → UserPlace
  | store place => place
  | erase place => place

def apply (record : CacheRecord User) (caches : UserCaches) : UserCaching → UserCaches
  | store place => caches.store record place
  | erase place => caches.erase place

def looked (user : User) : List UserCaching :=
  [store (.byID user.id), store (.byToken user.token), store (.byGlobusID user.globusID)]

def changed (user old : User) : List UserCaching :=
  store (.byID user.id) :: ((if old.token ≠ user.token then [erase (.byToken old.token)] else []) ++
    [store (.byToken user.token), store (.byGlobusID user.globusID)])

end UserCaching

/-- The places that a deletion clears, given what is cached by ID. -/
def clearedPlaces (id : String) : Option (CacheRecord User) → List UserPlace
  | some record => [.byToken record.record.token, .byGlobusID record.record.globusID, .byID id]
  | none => [.byID id]

structure UserChange where
  name : Option String := none
  email : Option String := none
  phone : Option String := none
  institution : Option String := none
  admin : Option Bool := none
  token : Option String := none
  deriving DecidableEq, Repr

def UserChange.apply (change : UserChange) (user : User) : User :=
  { user with
    name := change.name.getD user.name
    email := change.email.getD user.email
    phone := change.phone.getD user.phone
    institution := change.institution.getD user.institution
    admin := change.admin.getD user.admin
    token := change.token.getD user.token }

/-- Users who delete their own account have been looked up by token already. -/
inductive UserRequest where
  | getUser (id : String)
  | findUserByToken (token : String)
  | updateUser (id : String) (name email phone institution : Option String) (admin : Option Bool)
  | replaceUserToken (id token : String)
  | deleteUser (id : String) (own : Bool)
  deriving DecidableEq, Repr

inductive UserPurpose where
  | answer
  | change (change : UserChange)
  | delete
  deriving DecidableEq, Repr

inductive UserCall where
  | ready
  | looking (id : String) (purpose : UserPurpose)
  | reading (id : String) (purpose : UserPurpose)
  | caching (id : String) (user : User) (purpose : UserPurpose)
  | got (id : String) (user : User)
  | searching (token : String)
  | querying (token : String)
  | cachingFound (token : String) (user : User)
  | found (token : String) (user : User)
  | refused (id : String)
  | updating (change : UserChange) (old : User)
  | stored (user old : User)
  | entering (record : CacheRecord User) (first : UserCaching) (rest : List UserCaching) (next : UserCall)
  | updated (user old : User) (done : Bool)
  | forgetting (id : String)
  | clearing (first : UserPlace) (rest : List UserPlace) (id : String)
  | deleting (id : String)
  | deleted (id : String) (done : Bool)
  deriving DecidableEq, Repr

namespace UserCall

def begin : UserRequest → UserCall
  | .getUser id => looking id .answer
  | .findUserByToken token => searching token
  | .updateUser id name email phone institution admin =>
    looking id (.change { name, email, phone, institution, admin })
  | .replaceUserToken id token => looking id (.change { token := some token })
  | .deleteUser id own => if own then forgetting id else looking id .delete

def idle : UserCall → Bool
  | ready => true
  | got _ _ => true
  | found _ _ => true
  | refused _ => true
  | updated _ _ _ => true
  | deleted _ _ => true
  | _ => false

/-- How a call goes on when it has the user it looked for. -/
def proceed (id : String) (user : User) : UserPurpose → UserCall
  | .answer => got id user
  | .change change => if user.valid then updating change user else refused id
  | .delete => if user.valid then forgetting id else refused id

/-- How a call goes on when it has a record to cache. -/
def enter (record : CacheRecord User) (next : UserCall) : List UserCaching → UserCall
  | [] => next
  | first :: rest => entering record first rest next

def clear (id : String) : List UserPlace → UserCall
  | [] => deleting id
  | first :: rest => clearing first rest id

def piece : UserCall → StoreM UserCall
  | looking id purpose => do
    match ← cached (← get).users.userCache id with
    | some user => return proceed id user purpose
    | none => return reading id purpose
  | reading id purpose => do
    unless ← request do
      return proceed id {} purpose
    match (← get).database.users.lookup id with
    | none => return proceed id {} purpose
    | some item => return caching id (userOfItem id item) purpose
  | caching id user purpose => do
    let record ← CacheRecord.lasting user userCacheValidity
    return enter record (proceed id user purpose) (UserCaching.looked user)
  | searching token => do
    match ← cached (← get).users.userByTokenCache token with
    | some user => return found token user
    | none => return querying token
  | querying token => do
    unless ← request do
      return found token {}
    match (← get).database.users.select fun _ item => item.token == token with
    | [] => return found token {}
    | [(id, item)] => return cachingFound token (userOfItem id item)
    | _ => throw ("Multiple user records are associated with token " ++ token ++ "!")
  | cachingFound token user => do
    let record ← CacheRecord.lasting user userCacheValidity
    return enter record (found token user) (UserCaching.looked user)
  | updating change old => do
    unless ← request do
      return updated (change.apply old) old false
    putUserItem (change.apply old)
    return stored (change.apply old) old
  | stored user old => do
    let record ← CacheRecord.lasting user userCacheValidity
    return enter record (updated user old true) (UserCaching.changed user old)
  | entering record first rest next => do
    modify fun server => { server with users := first.apply record server.users }
    return enter record next rest
  | forgetting id => do return clear id (clearedPlaces id ((← get).users.userCache.lookup id))
  | clearing first rest id => do
    modify fun server => { server with users := server.users.erase first }
    return clear id rest
  | deleting id => do
    unless ← request do
      return deleted id false
    deleteUserItem id
    return deleted id true
  | finished => return finished

end UserCall

def userSystem : System Server UserRequest UserCall := .ofPieces UserCall.idle UserCall.begin UserCall.piece

inductive UserAnswer where
  | user (user : User)
  | done (done : Bool)
  deriving DecidableEq, Repr

/-- What a request does when nothing else runs: a lookup, or a handler. -/
def UserRequest.method : UserRequest → StoreM UserAnswer
  | .getUser id => do return .user (← Slate.getUser id)
  | .findUserByToken token => do return .user (← Slate.findUserByToken token)
  | .updateUser id name email phone institution admin => do
    let target ← Slate.getUser id
    if !target.valid then
      return .done false
    return .done (← Slate.updateUser (UserChange.apply { name, email, phone, institution, admin } target) target)
  | .replaceUserToken id token => do
    let target ← Slate.getUser id
    if !target.valid then
      return .done false
    return .done (← Slate.updateUser { target with token } target)
  | .deleteUser id own => do
    if !own then
      let target ← Slate.getUser id
      if !target.valid then
        return .done false
    return .done (← Slate.removeUser id)

namespace UserCall

def afterLookup (id : String) (user : User) : UserPurpose → StoreM UserAnswer
  | .answer => return .user user
  | .change change => do
    if !user.valid then
      return .done false
    return .done (← Slate.updateUser (change.apply user) user)
  | .delete => do
    if !user.valid then
      return .done false
    return .done (← Slate.removeUser id)

def applyAll (record : CacheRecord User) (steps : List UserCaching) : StoreM Unit :=
  steps.forM fun step => modify fun server => { server with users := step.apply record server.users }

def eraseAll (places : List UserPlace) : StoreM Unit :=
  places.forM fun place => modify fun server => { server with users := server.users.erase place }

def deleteRecord (id : String) : StoreM UserAnswer := do
  unless ← request do
    return .done false
  deleteUserItem id
  return .done true

def remaining : UserCall → StoreM UserAnswer
  | ready => return .done false
  | looking id purpose => do afterLookup id (← Slate.getUser id) purpose
  | reading id purpose => do
    unless ← request do
      return ← afterLookup id {} purpose
    match (← get).database.users.lookup id with
    | none => afterLookup id {} purpose
    | some item => do
      cacheUser (userOfItem id item)
      afterLookup id (userOfItem id item) purpose
  | caching id user purpose => do
    cacheUser user
    afterLookup id user purpose
  | got _ user => return .user user
  | searching token => do return .user (← Slate.findUserByToken token)
  | querying token => do
    unless ← request do
      return .user {}
    match (← get).database.users.select fun _ item => item.token == token with
    | [] => return .user {}
    | [(id, item)] => do
      cacheUser (userOfItem id item)
      return .user (userOfItem id item)
    | _ => throw ("Multiple user records are associated with token " ++ token ++ "!")
  | cachingFound _ user => do
    cacheUser user
    return .user user
  | found _ user => return .user user
  | refused _ => return .done false
  | updating change old => do return .done (← Slate.updateUser (change.apply old) old)
  | stored user old => do
    let record ← CacheRecord.lasting user userCacheValidity
    applyAll record (UserCaching.changed user old)
    return .done true
  | entering record first rest next => do
    applyAll record (first :: rest)
    next.remaining
  | updated _ _ done => return .done done
  | forgetting id => do return .done (← Slate.removeUser id)
  | clearing first rest id => do
    eraseAll (first :: rest)
    deleteRecord id
  | deleting id => deleteRecord id
  | deleted _ done => return .done done

theorem remaining_proceed (id : String) (user : User) (purpose : UserPurpose) :
    (proceed id user purpose).remaining = afterLookup id user purpose := by
  cases purpose with
  | answer => rfl
  | change change =>
    unfold proceed afterLookup
    cases user.valid <;> rfl
  | delete =>
    unfold proceed afterLookup
    cases user.valid <;> rfl

theorem remaining_enter (record : CacheRecord User) (next : UserCall) (steps : List UserCaching) :
    (enter record next steps).remaining = (do
      applyAll record steps
      next.remaining) := by
  cases steps <;> rfl

private theorem remaining_clear (id : String) (places : List UserPlace) :
    (clear id places).remaining = (do
      eraseAll places
      deleteRecord id) := by
  cases places <;> rfl

private theorem cacheUser_applyAll (user : User) :
    cacheUser user = (do
      let record ← CacheRecord.lasting user userCacheValidity
      applyAll record (UserCaching.looked user)) := rfl

private theorem updateUser_applyAll (user old : User) :
    Slate.updateUser user old = (do
      unless ← request do
        return false
      putUserItem user
      let record ← CacheRecord.lasting user userCacheValidity
      applyAll record (UserCaching.changed user old)
      return true) := by
  unfold Slate.updateUser UserCaching.changed
  by_cases same : old.token = user.token
  · simp only [same, ne_eq, not_true, if_false]
    rfl
  · simp only [same, ne_eq, not_false_eq_true, if_true]
    rfl

/-- Erasing what is not there changes nothing. -/
theorem erase_absent {caches : UserCaches} {place : UserPlace} (absent : caches.entry place = none) :
    caches.erase place = caches := by
  have same : ∀ {map : FiniteMap String (CacheRecord User)} {key : String}, map.lookup key = none →
      AList.erase key map = map := by
    intro map key missing
    apply AList.ext
    exact List.kerase_of_notMem_keys (AList.lookup_eq_none.mp missing)
  cases place with
  | byID id => simp only [UserCaches.erase, same absent]
  | byToken token => simp only [UserCaches.erase, UserCaches.eraseToken, same absent]
  | byGlobusID globusID => simp only [UserCaches.erase, same absent]

private theorem removeUser_eraseAll (id : String) :
    Slate.removeUser id = (do
      eraseAll (clearedPlaces id ((← get).users.userCache.lookup id))
      unless ← request do
        return false
      deleteUserItem id
      return true) := by
  have cleared : (modify fun server => { server with users := server.users.forget id } : StoreM Unit) =
      (do eraseAll (clearedPlaces id ((← get).users.userCache.lookup id))) := by
    funext server
    change EStateM.Result.ok PUnit.unit { server with users := server.users.forget id } =
      eraseAll (clearedPlaces id (server.users.userCache.lookup id)) server
    rw [UserCaches.forget]
    cases present : server.users.userCache.lookup id with
    | none =>
      have same : server.users.erase (.byID id) = server.users := erase_absent present
      change _ = EStateM.Result.ok PUnit.unit { server with users := server.users.erase (.byID id) }
      rw [same]
    | some record => rfl
  simp only [Slate.removeUser, cleared, bind_assoc]

theorem remaining_begin (request : UserRequest) : (UserCall.begin request).remaining = request.method := by
  cases request with
  | deleteUser id own => cases own <;> rfl
  | _ => rfl

theorem remaining_moves (call : UserCall) (busy : call.idle = false) : call.remaining = call.piece >>= remaining := by
  cases call with
  | ready => cases busy
  | got => cases busy
  | found => cases busy
  | refused => cases busy
  | updated => cases busy
  | deleted => cases busy
  | looking id purpose =>
    simp only [remaining, Slate.getUser, piece, bind_assoc]
    refine bind_congr fun server => ?_
    refine bind_congr fun record => ?_
    cases record with
    | none =>
      simp only [pure_bind, remaining, bind_assoc]
      refine bind_congr fun succeeded => ?_
      cases succeeded with
      | false => rfl
      | true =>
        simp only [if_true, bind_assoc]
        refine bind_congr fun server => ?_
        cases server.database.users.lookup id with
        | none => simp only [pure_bind]
        | some item => simp only [bind_assoc, pure_bind]
    | some user => simp only [pure_bind, remaining_proceed]
  | reading id purpose =>
    simp only [remaining, piece, bind_assoc]
    refine bind_congr fun succeeded => ?_
    cases succeeded with
    | false => simp [remaining_proceed]
    | true =>
      simp only [if_true, bind_assoc]
      refine bind_congr fun server => ?_
      cases server.database.users.lookup id with
      | none => simp only [pure_bind, remaining_proceed]
      | some item => simp only [pure_bind, remaining]
  | caching id user purpose =>
    simp only [remaining, cacheUser_applyAll, piece, bind_assoc, pure_bind, remaining_enter, remaining_proceed]
  | searching token =>
    simp only [remaining, Slate.findUserByToken, findUserBy, piece, bind_assoc]
    refine bind_congr fun server => ?_
    refine bind_congr fun record => ?_
    cases record with
    | none =>
      simp only [pure_bind, remaining, bind_assoc]
      refine bind_congr fun succeeded => ?_
      cases succeeded with
      | false => rfl
      | true =>
        simp only [if_true, bind_assoc]
        refine bind_congr fun server => ?_
        rcases server.database.users.select fun _ item => item.token == token with _ | ⟨first, _ | ⟨second, rest⟩⟩
        · rfl
        · simp only [bind_assoc, pure_bind]
        · rfl
    | some user => simp only [pure_bind, remaining]
  | querying token =>
    simp only [remaining, piece, bind_assoc]
    refine bind_congr fun succeeded => ?_
    cases succeeded with
    | false => rfl
    | true =>
      simp only [if_true, bind_assoc]
      refine bind_congr fun server => ?_
      rcases server.database.users.select fun _ item => item.token == token with _ | ⟨first, _ | ⟨second, rest⟩⟩
      · rfl
      · simp only [pure_bind, remaining]
      · rfl
  | cachingFound token user =>
    simp only [remaining, cacheUser_applyAll, piece, bind_assoc, pure_bind, remaining_enter]
  | updating change old =>
    simp only [remaining, updateUser_applyAll, piece, bind_assoc]
    refine bind_congr fun succeeded => ?_
    cases succeeded <;> simp [remaining]
  | stored user old => simp only [remaining, piece, bind_assoc, pure_bind, remaining_enter]
  | entering record first rest next =>
    simp only [remaining, piece, bind_assoc, pure_bind, remaining_enter]
    rfl
  | forgetting id =>
    simp only [remaining, removeUser_eraseAll, piece, bind_assoc, pure_bind, remaining_clear, deleteRecord]
    refine bind_congr fun server => ?_
    refine bind_congr fun _ => ?_
    refine bind_congr fun succeeded => ?_
    cases succeeded <;> simp
  | clearing first rest id =>
    simp only [remaining, piece, bind_assoc, pure_bind, remaining_clear]
    rfl
  | deleting id =>
    simp only [remaining, deleteRecord, piece, bind_assoc]
    refine bind_congr fun succeeded => ?_
    cases succeeded <;> simp [remaining]

end UserCall

/-- A call that runs alone does what its method does. -/
theorem userCall_alone {request : UserRequest} {server after : Server} {call : UserCall}
    (alone : userSystem.Alone (.begin request, server) (call, after)) :
    request.method server = call.remaining after := by
  rw [← UserCall.remaining_begin request]
  exact System.alone_remaining UserCall.remaining_moves alone

end Slate
