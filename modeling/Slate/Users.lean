import Slate.Server

/-! Users: records, lookups by ID, token and Globus ID, and changes. -/

namespace Slate
open Library

def userOfItem (id : String) (item : UserItem) : User where
  valid := true
  id := id
  name := item.name
  email := item.email
  phone := item.phone.getD missingString
  institution := item.institution.getD missingString
  token := item.token
  globusID := item.globusID
  admin := item.admin

def itemOfUser (user : User) : UserItem where
  name := user.name
  globusID := user.globusID
  token := user.token
  email := user.email
  phone := some user.phone
  institution := some user.institution
  admin := user.admin

def UserCaches.replace (caches : UserCaches) (record : CacheRecord User) : UserCaches :=
  { caches with
    userCache := caches.userCache.insert record.record.id record
    userByTokenCache := caches.userByTokenCache.insert record.record.token record
    userByGlobusIDCache := caches.userByGlobusIDCache.insert record.record.globusID record }

def cacheUser (user : User) : StoreM Unit := do
  let record ← CacheRecord.lasting user userCacheValidity
  modify fun server => { server with users := server.users.replace record }

def putUserItem (user : User) : StoreM Unit :=
  modify fun server => { server with database := { server.database with
    users := server.database.users.insert user.id (itemOfUser user) } }

def addUser (user : User) : StoreM Bool := do
  unless ← request do
    return false
  putUserItem user
  cacheUser user
  return true

def getUser (id : String) : StoreM User := do
  if let some user ← cached (← get).users.userCache id then
    return user
  unless ← request do
    return {}
  match (← get).database.users.lookup id with
  | none => return {}
  | some item =>
    let user := userOfItem id item
    cacheUser user
    return user

/-- The user with a value of an attribute that an index covers. The rows a query
selects have that value, which therefore need not be read back. -/
def findUserBy (cache : UserCaches → CuckooHashMap String (CacheRecord User)) (key : UserItem → String)
    (described value : String) : StoreM User := do
  if let some user ← cached (cache (← get).users) value then
    return user
  unless ← request do
    return {}
  match (← get).database.users.select fun _ item => key item == value with
  | [] => return {}
  | [(id, item)] =>
    let user := userOfItem id item
    cacheUser user
    return user
  | _ => throw ("Multiple user records are associated with " ++ described ++ " " ++ value ++ "!")

def findUserByToken (token : String) : StoreM User :=
  findUserBy UserCaches.userByTokenCache UserItem.token "token" token

def findUserByGlobusID (globusID : String) : StoreM User :=
  findUserBy UserCaches.userByGlobusIDCache UserItem.globusID "Globus ID" globusID

def UserCaches.eraseToken (caches : UserCaches) (token : String) : UserCaches :=
  { caches with userByTokenCache := AList.erase token caches.userByTokenCache }

/-- The update sets every attribute, and creates the row when it is missing. -/
def updateUser (user oldUser : User) : StoreM Bool := do
  unless ← request do
    return false
  putUserItem user
  let record ← CacheRecord.lasting user userCacheValidity
  modify fun server => { server with users := { server.users with
    userCache := server.users.userCache.insert user.id record } }
  if oldUser.token ≠ user.token then
    modify fun server => { server with users := server.users.eraseToken oldUser.token }
  modify fun server => { server with users := { server.users with
    userByTokenCache := server.users.userByTokenCache.insert user.token record
    userByGlobusIDCache := server.users.userByGlobusIDCache.insert user.globusID record } }
  return true

/-- Drops what is cached about a user, whether or not it has expired. The other
two caches are only reachable through the record in the main one. -/
def UserCaches.forget (caches : UserCaches) (id : String) : UserCaches :=
  match caches.userCache.lookup id with
  | none => caches
  | some record =>
    { caches with
      userCache := AList.erase id caches.userCache
      userByTokenCache := AList.erase record.record.token caches.userByTokenCache
      userByGlobusIDCache := AList.erase record.record.globusID caches.userByGlobusIDCache }

def deleteUserItem (id : String) : StoreM Unit :=
  modify fun server => { server with database := { server.database with
    users := AList.erase id server.database.users } }

def removeUser (id : String) : StoreM Bool := do
  modify fun server => { server with users := server.users.forget id }
  unless ← request do
    return false
  deleteUserItem id
  return true

def listUsers : StoreM (List User) := do
  let reading ← now
  if reading < (← get).users.expirationTime then
    return (← get).users.userCache.values.map CacheRecord.record
  unless ← request do
    return []
  let collected ← (← get).database.users.pairs.mapM fun (id, item) => do
    let user := userOfItem id item
    let record ← CacheRecord.lasting user userCacheValidity
    modify fun server => { server with users := { server.users with
      userCache := server.users.userCache.insert user.id record } }
    return user
  let reading ← now
  modify fun server => { server with users := { server.users with
    expirationTime := reading + userCacheValidity } }
  return collected

end Slate
