import Slate.GroupRequests

/-! The requests about users: who may make them, and how they are answered. The user who asks is
known by a token. Notification mail is left out. -/

namespace Slate
open Library Handler

def generateUserID (value : UInt64) : String := userIDPrefix ++ generateRawID value
def generateUserToken (first second : UInt64) : String := generateRawID first ++ generateRawID second

def authenticateUser : Option String → StoreM User
  | none => return {}
  | some token => findUserByToken token

/-- The groups a user is a member of, by ID or with names looked up in addition. -/
def getUserGroupMemberships (uID : String) (useNames : Bool) : StoreM (List String) := do
  unless ← request do
    return []
  let vos := ((← get).database.groupsOf uID).filter (startsWith groupIDPrefix)
  if useNames then
    vos.mapM fun groupStr => do return (← findGroupByID groupStr).name
  else
    return vos

def listedUser (user : User) : Json := .object [("apiVersion", .string "v1alpha3"), ("kind", .string "User"),
  ("metadata", .object [("id", .string user.id), ("name", .string user.name), ("email", .string user.email),
    ("phone", .string user.phone), ("institution", .string user.institution)])]

def listUsersRequest (user : User) (group : Option String) : HandlerM Response := do
  require (some user.valid) 403 "User not authorized"
  let users ← onStore <| match group with
    | some group => listUsersByGroup group
    | none => listUsers
  return {
    status := 200
    body := some (.object [("apiVersion", .string "v1alpha3"), ("items", .array (users.map listedUser))]) }

def userMetadata (user : User) (groups : List String) : Json := .object [("id", .string user.id), ("name", .string user.name),
  ("email", .string user.email), ("phone", .string user.phone), ("institution", .string user.institution),
  ("access_token", .string user.token), ("admin", .bool user.admin), ("groups", .array (groups.map .string))]

def requestedUser (idValue first second : UInt64) (body : Json) : HandlerM User := do
  let metadata ← requestMetadata body "Missing user metadata in request" "Incorrect type for configuration"
  checkRequired metadata "globusID" "Missing user globus ID in request" "Incorrect type for user globus ID"
  checkRequired metadata "name" "Missing user name in request" "Incorrect type for user name"
  checkRequired metadata "email" "Missing user email in request" "Incorrect type for user email"
  checkRequired metadata "phone" "Missing user phone in request" "Incorrect type for user phone"
  checkRequired metadata "institution" "Missing user institution in request" "Incorrect type for user institution"
  require (metadata.hasMember "admin") 400 "Missing admin flag in request"
  require ((metadata.member "admin").map Json.isBool) 400 "Incorrect type for user admin flag"
  return {
    valid := true
    id := generateUserID idValue
    token := generateUserToken first second
    globusID := ← accessing (memberText metadata "globusID")
    name := ← accessing (memberText metadata "name")
    email := ← accessing (memberText metadata "email")
    phone := ← accessing (memberText metadata "phone")
    institution := ← accessing (memberText metadata "institution")
    admin := ← accessing (metadata.member "admin" >>= Json.getBool) }

def createUser (user : User) (idValue first second : UInt64) (body : Json) : HandlerM Response := do
  require (some user.valid) 403 "Not authorized"
  require (some user.admin) 403 "Not authorized"
  let targetUser ← requestedUser idValue first second body
  let other ← onStore (findUserByGlobusID targetUser.globusID)
  require (some !other.valid) 400 "Globus ID is already registered"
  let created ← onStore (addUser targetUser)
  require (some created) 500 "User account creation failed"
  return {
    status := 200
    body := some (.object [("apiVersion", .string "v1alpha3"), ("metadata", userMetadata targetUser [])]) }

def userResponse (user : User) (groups : List String) : Response where
  status := 200
  body := some (.object [("apiVersion", .string "v1alpha3"), ("kind", .string "User"), ("metadata", userMetadata user groups)])

/-- Users can only be examined and altered by administrators or themselves. -/
def authorizeFor (user : User) (uID message : String) : HandlerM Unit := do
  require (some user.valid) 403 message
  require (some (user.admin || user.id == uID)) 403 message

def getUserInfo (user : User) (uID : String) : HandlerM Response := do
  authorizeFor user uID "User not authorized"
  let targetUser ← onStore (getUser uID)
  require (some targetUser.valid) 404 "Not found"
  let groupMembershipList ← onStore (getUserGroupMemberships uID true)
  return userResponse targetUser groupMembershipList

def whoAreThey (user : User) : HandlerM Response := do
  require (some user.valid) 403 "User not found"
  let groupMembershipList ← onStore (getUserGroupMemberships user.id true)
  return userResponse user groupMembershipList

def updatedUserField (metadata : Json) (name : String) (old : String) : HandlerM String := do
  checkOptional metadata name ("Incorrect type for user " ++ name)
  return (memberText metadata name).getD old

/-- Only administrators can alter the rights of one. -/
def updatedAdmin (user : User) (metadata : Json) (old : Bool) : HandlerM Bool :=
  match metadata.member "admin" with
  | none => return old
  | some value => do
    require (some value.isBool) 400 "Incorrect type for user admin flag"
    require (some user.admin) 403 "User not authorized"
    accessing value.getBool

def requestedUserUpdate (user targetUser : User) (body : Json) : HandlerM User := do
  let metadata ← requestMetadata body "Missing user metadata in request" "Incorrect type for user metadata"
  let name ← updatedUserField metadata "name" targetUser.name
  let email ← updatedUserField metadata "email" targetUser.email
  let phone ← updatedUserField metadata "phone" targetUser.phone
  let institution ← updatedUserField metadata "institution" targetUser.institution
  let admin ← updatedAdmin user metadata targetUser.admin
  return { targetUser with name, email, phone, institution, admin }

def updateUserRequest (user : User) (uID : String) (body : Json) : HandlerM Response := do
  authorizeFor user uID "User not authorized"
  let targetUser ← onStore (getUser uID)
  require (some targetUser.valid) 404 "User not found"
  let updatedUser ← requestedUserUpdate user targetUser body
  let updated ← onStore (updateUser updatedUser targetUser)
  require (some updated) 500 "User account update failed"
  return { status := 200 }

/-- Whether the removals from the groups succeed is not looked at. -/
def deleteUser (user : User) (uID : String) : HandlerM Response := do
  authorizeFor user uID "Not authorized"
  if user.id ≠ uID then
    let targetUser ← onStore (getUser uID)
    require (some targetUser.valid) 404 "User not found"
  let groupMembershipList ← onStore (getUserGroupMemberships uID false)
  groupMembershipList.forM fun groupID => do
    let _ ← onStore (removeUserFromGroup uID groupID)
  let deleted ← onStore (removeUser uID)
  require (some deleted) 500 "User account deletion failed"
  return { status := 200 }

def listedGroup (groupName id : String) : Json := .object [("apiVersion", .string "v1alpha3"), ("kind", .string "Group"),
  ("metadata", .object [("name", .string groupName), ("id", .string id)])]

def listUsergroups (user : User) (uID : String) : HandlerM Response := do
  require (some user.valid) 403 "Not authorized"
  if user.id ≠ uID then
    let targetUser ← onStore (getUser uID)
    require (some targetUser.valid) 404 "User not found"
  let groupMembershipList ← onStore (getUserGroupMemberships uID true)
  let items ← groupMembershipList.mapM fun groupName => do
    let group ← onStore (findGroupByName groupName)
    return listedGroup groupName group.id
  return { status := 200, body := some (.object [("apiVersion", .string "v1alpha3"), ("items", .array items)]) }

/-- Only administrators and members of a group may add others to it and remove them. -/
def authorizeIn (user : User) (groupID : String) : HandlerM Unit := do
  if !user.admin then
    let member ← onStore (userInGroup user.id groupID)
    require (some member) 403 "Not authorized"

def addUserToGroupRequest (user : User) (uID groupID : String) : HandlerM Response := do
  require (some user.valid) 403 "Not authorized"
  let targetUser ← onStore (getUser uID)
  require (some targetUser.valid) 404 "User not found"
  let group ← onStore (getGroup groupID)
  require (some group.valid) 404 "Group not found"
  authorizeIn user groupID
  let success ← onStore (addUserToGroup uID groupID)
  require (some success) 500 "User addition to Group failed"
  return { status := 200 }

def removeUserFromGroupRequest (user : User) (uID groupID : String) : HandlerM Response := do
  require (some user.valid) 403 "Not authorized"
  let targetUser ← onStore (getUser uID)
  require (some targetUser.valid) 404 "User not found"
  authorizeIn user groupID
  let success ← onStore (removeUserFromGroup uID groupID)
  require (some success) 500 "User removal from Group failed"
  return { status := 200 }

def findUser (user : User) (globusID : Option String) : HandlerM Response := do
  require (some (user.valid && user.admin)) 403 "Not authorized"
  match globusID with
  | none => refuse 400 "Missing globus ID in request"
  | some globusID => do
    let targetUser ← onStore (findUserByGlobusID globusID)
    require (some targetUser.valid) 404 "User not found"
    return {
      status := 200
      body := some (.object [("apiVersion", .string "v1alpha3"), ("kind", .string "User"),
        ("metadata", .object [("id", .string targetUser.id), ("access_token", .string targetUser.token)])]) }

def replaceUserToken (user : User) (uID : String) (first second : UInt64) : HandlerM Response := do
  authorizeFor user uID "Not authorized"
  let targetUser ← onStore (getUser uID)
  require (some targetUser.valid) 404 "User not found"
  let updatedUser := { targetUser with token := generateUserToken first second }
  let updated ← onStore (updateUser updatedUser targetUser)
  require (some updated) 500 "User account update failed"
  return {
    status := 200
    body := some (.object [("apiVersion", .string "v1alpha3"), ("kind", .string "User"),
      ("metadata", .object [("id", .string updatedUser.id), ("access_token", .string updatedUser.token)])]) }

/-- What may be asked of the server about users. Random values that a request takes are part of it. -/
inductive UserCommand where
  | listUsers (group : Option String)
  | createUser (idValue first second : UInt64) (body : Json)
  | getUserInfo (uID : String)
  | whoAreThey
  | updateUser (uID : String) (body : Json)
  | deleteUser (uID : String)
  | listUsergroups (uID : String)
  | addUserToGroup (uID groupID : String)
  | removeUserFromGroup (uID groupID : String)
  | findUser (globusID : Option String)
  | replaceUserToken (uID : String) (first second : UInt64)

def UserCommand.perform (user : User) : UserCommand → HandlerM Response
  | listUsers group => listUsersRequest user group
  | createUser idValue first second body => Slate.createUser user idValue first second body
  | getUserInfo uID => Slate.getUserInfo user uID
  | whoAreThey => Slate.whoAreThey user
  | updateUser uID body => updateUserRequest user uID body
  | deleteUser uID => Slate.deleteUser user uID
  | listUsergroups uID => Slate.listUsergroups user uID
  | addUserToGroup uID groupID => addUserToGroupRequest user uID groupID
  | removeUserFromGroup uID groupID => removeUserFromGroupRequest user uID groupID
  | findUser globusID => Slate.findUser user globusID
  | replaceUserToken uID first second => Slate.replaceUserToken user uID first second

end Slate
