import Slate.Server

/-! Groups: records, lookups by ID and by name, and the normalization of a
string that may be either. -/

namespace Slate

def groupOfItem (id : String) (item : GroupItem) : Group where
  valid := true
  id := id
  name := item.name
  email := item.email.getD missingString
  phone := item.phone.getD missingString
  scienceField := item.scienceField.getD missingString
  description := item.description.getD missingString

def itemOfGroup (group : Group) : GroupItem where
  name := group.name
  email := some group.email
  phone := some group.phone
  scienceField := some group.scienceField
  description := some group.description

def GroupCaches.replace (caches : GroupCaches) (record : CacheRecord Group) : GroupCaches :=
  { caches with
    groupCache := caches.groupCache.insert record.record.id record
    groupByNameCache := caches.groupByNameCache.insert record.record.name record }

def cacheGroup (group : Group) : StoreM Unit := do
  let record ← CacheRecord.lasting group groupCacheValidity
  modify fun server => { server with groups := server.groups.replace record }

def findGroupByID (id : String) : StoreM Group := do
  if let some group ← cached (← get).groups.groupCache id then
    return group
  unless ← request do
    return {}
  match (← get).database.groups.lookup id with
  | none => return {}
  | some item =>
    let group := groupOfItem id item
    cacheGroup group
    return group

def findGroupByName (name : String) : StoreM Group := do
  if let some group ← cached (← get).groups.groupByNameCache name then
    return group
  unless ← request do
    return {}
  match (← get).database.groups.select fun _ item => item.name == name with
  | [] => return {}
  | [(id, item)] =>
    let group := { groupOfItem id item with name }
    cacheGroup group
    return group
  | _ => throw ("Group name \"" ++ name ++ "\" is not unique!")

/-- The group ID a string stands for; none when it is neither an ID nor the
name of a group. Anything that begins like an ID is taken to be one. -/
def normalizeGroupID (groupID : String) (allowWildcard : Bool) : StoreM (Option String) := do
  if allowWildcard then
    if groupID = wildcard then
      return some groupID
    if groupID = wildcardName then
      return some wildcard
  if !startsWith groupIDPrefix groupID then
    let group ← findGroupByName groupID
    if !group.valid then
      return none
    return some group.id
  return some groupID

theorem normalizeGroupID_known {groupID : String} (known : startsWith groupIDPrefix groupID = true) :
    normalizeGroupID groupID false = return some groupID := by
  unfold normalizeGroupID
  simp [known]

def addGroup (group : Group) : StoreM Bool := do
  if group.email = "" then
    throw "Group email must not be empty because Dynamo"
  if group.phone = "" then
    throw "Group phone must not be empty because Dynamo"
  if group.scienceField = "" then
    throw "Group scienceField must not be empty because Dynamo"
  if group.description = "" then
    throw "Group description must not be empty because Dynamo"
  unless ← request do
    return false
  modify fun server => { server with database := { server.database with
    groups := server.database.groups.insert group.id (itemOfGroup group) } }
  cacheGroup group
  return true

/-- Sets every attribute of the row, whether or not there was one. -/
def updateGroup (group : Group) : StoreM Bool := do
  unless ← request do
    return false
  modify fun server => { server with database := { server.database with
    groups := server.database.groups.insert group.id (itemOfGroup group) } }
  cacheGroup group
  return true

end Slate
