import Slate.Deletions
import Slate.Identifiers
import Slate.Memberships
import Slate.Responses

/-! The requests that create and change groups. -/

namespace Slate
open Library Handler

def scienceFields : List String := [
  "Resource Provider", "Astronomy", "Astrophysics", "Biology", "Biochemistry", "Bioinformatics", "Biomedical research",
  "Biophysics", "Botany", "Cellular Biology", "Ecology", "Evolutionary Biology", "Microbiology", "Molecular Biology",
  "Neuroscience", "Physiology", "Structural Biology", "Zoology", "Chemistry", "Biochemistry", "Physical Chemistry",
  "Earth Sciences", "Economics", "Education", "Educational Psychology", "Engineering", "Electronic Engineering",
  "Nanoelectronics", "Mathematics & Computer Science", "Computer Science", "Geographic Information Science",
  "Information Theory", "Mathematics", "Medicine", "Medical Imaging", "Neuroscience", "Physiology", "Logic", "Statistics",
  "Physics", "Accelerator Physics", "Astro-particle Physics", "Astrophysics", "Biophysics",
  "Computational Condensed Matter Physics", "Gravitational Physics", "High Energy Physics", "Neutrino Physics",
  "Nuclear Physics", "Physical Chemistry", "Psychology", "Child Psychology", "Educational Psychology", "Materials Science",
  "Multidisciplinary", "Network Science", "Technology"]

/-- The field of the list that differs in upper and lower case at most, or the empty string. -/
def normalizeScienceField (raw : String) : String :=
  (scienceFields.find? fun field => field.toList.map Char.toLower = raw.toList.map Char.toLower).getD ""

/-- A member may be missing, but is a string if it is there. -/
def checkOptional (metadata : Json) (name message : String) : HandlerM Unit :=
  match metadata.member name with
  | none => return ⟨⟩
  | some value => require (some value.isString) 400 message

/-- Dynamo will get upset if a string is empty. -/
def orBlank (text : String) : String := if text = "" then " " else text

def requestMetadata (body : Json) (missing incorrect : String) : HandlerM Json := do
  require (some !body.isNull) 400 "Invalid JSON in request body"
  require (body.hasMember "metadata") 400 missing
  let metadata ← accessing (body.member "metadata")
  require (some metadata.isObject) 400 incorrect
  return metadata

/-- A member that must be there and be a string, and is looked at later. -/
def checkRequired (metadata : Json) (name missing incorrect : String) : HandlerM Unit := do
  require (metadata.hasMember name) 400 missing
  checkOptional metadata name incorrect

def checkGroupName (name : String) : HandlerM Unit := do
  require (some (name ≠ "")) 400 "Group names may not be the empty string"
  require (some (validTagGroupName name)) 400 "Group names may only contain [a-z], [0-9] and -"
  require (some (name.toList.getLast? ≠ some '-')) 400 "Group names may not end with a dash"
  require (some (name.utf8ByteSize ≤ 54)) 400 "Group names may not be more than 54 characters long"
  require (some !startsWith groupIDPrefix name) 400 ("Group names may not begin with " ++ groupIDPrefix)
  let other ← onStore (findGroupByName name)
  require (some !other.valid) 400 "Group name is already in use"

def memberText (metadata : Json) (name : String) : Option String := metadata.member name >>= Json.getCString

def requestedGroup (user : User) (value : UInt64) (body : Json) : HandlerM Group := do
  let metadata ← requestMetadata body "Missing user metadata in request" "Incorrect type for configuration"
  checkRequired metadata "name" "Missing Group name in request" "Incorrect type for Group name"
  checkOptional metadata "email" "Incorrect type for Group email"
  checkOptional metadata "phone" "Incorrect type for Group phone"
  checkRequired metadata "scienceField" "Missing Group scienceField in request" "Incorrect type for Group scienceField"
  checkOptional metadata "description" "Incorrect type for Group description"
  let name ← accessing (memberText metadata "name")
  checkGroupName name
  let scienceField := normalizeScienceField ((memberText metadata "scienceField").getD "")
  require (some (scienceField ≠ "")) 400 ("Unrecognized value for Group scienceField\n" ++
    "See http://slateci.io/docs/science-fields for a list of accepted values")
  return {
    valid := true
    id := generateGroupID value
    name
    email := orBlank ((memberText metadata "email").getD user.email)
    phone := orBlank ((memberText metadata "phone").getD user.phone)
    scienceField
    description := orBlank ((memberText metadata "description").getD "") }

/-- `operator<<` -/
def described (valid : Bool) (id name invalid : String) : String :=
  if !valid then invalid else if name ≠ "" then id ++ " (" ++ name ++ ")" else id

def User.described (user : User) : String := Slate.described user.valid user.id user.name "invalid user"
def Group.described (group : Group) : String := Slate.described group.valid group.id group.name "invalid Group"

def groupResponse (group : Group) : Response where
  status := 200
  body := some (.object [("apiVersion", .string "v1alpha3"), ("kind", .string "Group"), ("metadata", .object [
    ("id", .string group.id), ("name", .string group.name), ("email", .string group.email), ("phone", .string group.phone),
    ("scienceField", .string group.scienceField), ("description", .string group.description)])])

def createGroup (user : User) (value : UInt64) (body : Json) : HandlerM Response := do
  require (some user.valid) 403 "User not authorized"
  let group ← requestedGroup user value body
  let created ← onStore (addGroup group)
  require (some created) 500 "Group creation failed"
  let added ← onStore (addUserToGroup user.id group.id)
  require (some added) 500 ("Failed to add creating user " ++ user.described ++ " to new Group " ++ group.described)
  return groupResponse group

/-- The field that a request asks for, or the one there is. -/
def updatedField (metadata : Json) (name : String) (old : String) : HandlerM String := do
  checkOptional metadata name ("Incorrect type for " ++ name)
  return (memberText metadata name).getD old

def updatedScienceField (metadata : Json) (old : String) : HandlerM String := do
  checkOptional metadata "scienceField" "Incorrect type for scienceField"
  match memberText metadata "scienceField" with
  | none => return old
  | some raw =>
    require (some (normalizeScienceField raw ≠ "")) 400 "Unrecognized value for Group scienceField"
    return normalizeScienceField raw

/-- A group with the fields that a request asks for, and whether it asks for any. -/
def requestedGroupUpdate (targetGroup : Group) (body : Json) : HandlerM (Group × Bool) := do
  let metadata ← requestMetadata body "Missing Group metadata in request" "Incorrect type for metadata"
  let email ← updatedField metadata "email" targetGroup.email
  let phone ← updatedField metadata "phone" targetGroup.phone
  let scienceField ← updatedScienceField metadata targetGroup.scienceField
  let description ← updatedField metadata "description" targetGroup.description
  return ({ targetGroup with email, phone, scienceField, description },
    ["email", "phone", "scienceField", "description"].any fun name => (metadata.member name).isSome)

/-- The user may change a group as an administrator, or as a member of it. -/
def updateGroupRequest (user : User) (groupID : String) (body : Json) : HandlerM Response := do
  require (some user.valid) 403 "User not authorized"
  if !user.admin then
    let member ← onStore (userInGroup user.id groupID)
    require (some member) 403 "User not authorized"
  let targetGroup ← onStore (getGroup groupID)
  require (some targetGroup.valid) 404 "Group not found"
  let (targetGroup, doUpdate) ← requestedGroupUpdate targetGroup body
  if !doUpdate then
    return { status := 200 }
  let success ← onStore (updateGroup targetGroup)
  require (some success) 500 ("Failed to update " ++ targetGroup.described)
  return { status := 200 }

end Slate
