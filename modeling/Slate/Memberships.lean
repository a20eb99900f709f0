import Slate.Groups
import Slate.Users

/-! Membership of users in groups. A decision, a grant and a removal are each
made of pieces that touch the shared state once; calls that run at once may
interleave between the pieces. -/

namespace Slate
open Library

/-- The cached answer. A record which is valid is returned as a truth value,
which looks at the clock again. -/
def membershipLookup (uID groupID : String) : StoreM (Option Bool) := do
  match (← get).users.userByGroupCache.findValue groupID uID with
  | none => return none
  | some record => if ← record.current then return some (← record.current) else return none

def membershipQuery (uID groupID : String) : StoreM Bool := do
  unless ← request do
    return false
  return ((← get).database.memberships.lookup (uID, groupID)).isSome

def cacheMembership (uID groupID : String) : StoreM Unit := do
  let record ← CacheRecord.lasting uID userCacheValidity
  let reading ← now
  modify fun server => { server with users := { server.users with
    userByGroupCache := (server.users.userByGroupCache.insertOrAssign groupID record reading).2 } }

/-- Asks the table; only a membership is cached. -/
def confirmMembership (uID groupID : String) : StoreM Bool := do
  unless ← membershipQuery uID groupID do
    return false
  cacheMembership uID groupID
  return true

def decideMembership (uID groupID : String) : StoreM Bool := do
  if let some answer ← membershipLookup uID groupID then
    return answer
  confirmMembership uID groupID

def userInGroup (uID groupID : String) : StoreM Bool := do
  let some groupID ← normalizeGroupID groupID false
    | return false
  decideMembership uID groupID

def putMembership (uID groupID : String) : StoreM Unit :=
  modify fun server => { server with database := { server.database with
    memberships := server.database.memberships.insert (uID, groupID) () } }

def cacheGroupOfUser (userID : String) (group : Group) : StoreM Unit := do
  let groupRecord ← CacheRecord.lasting group groupCacheValidity
  let reading ← now
  modify fun server => { server with groups := { server.groups with
    groupByUserCache := (server.groups.groupByUserCache.insertOrAssign userID groupRecord reading).2 } }

def addUserToGroup (uID groupID : String) : StoreM Bool := do
  let some groupID ← normalizeGroupID groupID false
    | return false
  let group ← findGroupByID groupID
  let user ← getUser uID
  unless ← request do
    return false
  putMembership uID groupID
  cacheMembership uID groupID
  cacheGroupOfUser user.id group
  return true

def forgetMembership (uID groupID : String) : StoreM Unit :=
  modify fun server => { server with users := { server.users with
    userByGroupCache := (server.users.userByGroupCache.eraseValue groupID uID).2 } }

def forgetGroupOfUser (uID groupID : String) : StoreM Unit :=
  modify fun server => match server.groups.groupCache.lookup groupID with
    | none => server
    | some record => { server with groups := { server.groups with
        groupByUserCache := (server.groups.groupByUserCache.eraseValue uID record.record).2 } }

def deleteMembership (uID groupID : String) : StoreM Unit :=
  modify fun server => { server with database := { server.database with
    memberships := AList.erase (uID, groupID) server.database.memberships } }

def removeUserFromGroup (uID groupID : String) : StoreM Bool := do
  let some groupID ← normalizeGroupID groupID false
    | return false
  forgetMembership uID groupID
  forgetGroupOfUser uID groupID
  unless ← request do
    return false
  deleteMembership uID groupID
  return true

/-- The IDs of the users whose membership in the group the table records. -/
def Database.membersOf (database : Database) (groupID : String) : List String :=
  (database.memberships.select fun key _ => key.2 == groupID).map fun entry => entry.1.1

def getMembersOfGroup (groupID : String) : StoreM (List String) := do
  unless ← request do
    return []
  return (← get).database.membersOf groupID

/-- A listing from the cache does not look at the expiration of the single
records. One that finds nobody does not touch the cache. -/
def listUsersByGroup (group : String) : StoreM (List User) := do
  let category := (← get).users.userByGroupCache.find group
  let reading ← now
  if reading < category.expiration then
    return ← category.members.mapM fun record => getUser record.record
  unless ← request do
    return []
  let members := (← get).database.membersOf group
  if members = [] then
    return []
  let users ← members.mapM fun id => do
    let user ← getUser id
    let record ← CacheRecord.lasting user userCacheValidity
    modify fun server => { server with users := { server.users with
      userCache := server.users.userCache.insert user.id record } }
    cacheMembership user.id group
    return user
  let reading ← now
  modify fun server => { server with users := { server.users with
    userByGroupCache :=
      (server.users.userByGroupCache.updateExpiration group (reading + userCacheValidity)).2 } }
  return users

/-- The IDs of the groups of which the table records the user as a member. -/
def Database.groupsOf (database : Database) (user : String) : List String :=
  (database.memberships.select fun key _ => key.1 == user).map fun entry => entry.1.2

/-- What a listing does for each group it finds: one record goes to three caches. -/
def listGroupOfUser (user groupID : String) : StoreM Group := do
  let group ← findGroupByID groupID
  let record ← CacheRecord.lasting group groupCacheValidity
  let reading ← now
  modify fun server => { server with groups := { server.groups.replace record with
    groupByUserCache := (server.groups.groupByUserCache.insertOrAssign user record reading).2 } }
  return group

def listGroupsForUser (user : String) : StoreM (List Group) := do
  if let some groups ← maybeReturnCachedCategoryMembers ((← get).groups.groupByUserCache.find user) then
    return groups
  unless ← request do
    return []
  let memberships := (← get).database.groupsOf user
  if memberships = [] then
    return []
  let groups ← memberships.mapM (listGroupOfUser user)
  let reading ← now
  modify fun server => { server with groups := { server.groups with
    groupByUserCache :=
      (server.groups.groupByUserCache.updateExpiration user (reading + groupCacheValidity)).2 } }
  return groups

/-- Drops what is cached about a group; its name is known from the main cache. -/
def GroupCaches.forget (caches : GroupCaches) (groupID : String) : GroupCaches :=
  match caches.groupCache.lookup groupID with
  | none => caches
  | some record =>
    { caches with
      groupCache := AList.erase groupID caches.groupCache
      groupByNameCache := AList.erase record.record.name caches.groupByNameCache }

/-- Removes the members one by one, and gives up at the first failure. -/
def removeMembers (groupID : String) : List String → StoreM Bool
  | [] => return true
  | uID :: rest => do
    unless ← removeUserFromGroup uID groupID do
      return false
    removeMembers groupID rest

def removeGroup (groupID : String) : StoreM Bool := do
  let members ← getMembersOfGroup groupID
  unless ← removeMembers groupID members do
    return false
  modify fun server => { server with groups := server.groups.forget groupID }
  unless ← request do
    return false
  modify fun server => { server with database := { server.database with
    groups := AList.erase groupID server.database.groups } }
  return true

end Slate
