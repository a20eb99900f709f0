import Slate.Access
import Slate.Base64
import Slate.GroupRequests
import Slate.HandlerCommands

/-! The requests that create a secret, or copy one, and fetch it again. Its contents are
stored as an encrypted document, and handed to kubectl in temporary files. -/

namespace Slate
open Library Handler

/-- The cells that have been obtained, and how many of them are in use. -/
structure SecretStringBuffer (α : Type) where
  data : List α
  size : Nat

namespace SecretStringBuffer

variable {α : Type} [Inhabited α]

def empty : SecretStringBuffer α := ⟨List.replicate 32 default, 0⟩

/-- Only what is in use is copied to the new cells. -/
def reserve (buffer : SecretStringBuffer α) (count : Nat) : SecretStringBuffer α :=
  if count > buffer.data.length then
    { buffer with data := buffer.data.take buffer.size ++ List.replicate (count - buffer.size) default }
  else buffer

def put (buffer : SecretStringBuffer α) (c : α) : SecretStringBuffer α :=
  let grown := if buffer.size = buffer.data.length then buffer.reserve (2 * buffer.size) else buffer
  ⟨grown.data.set grown.size c, grown.size + 1⟩

def contents (buffer : SecretStringBuffer α) : List α := buffer.data.take buffer.size

end SecretStringBuffer

/-- The JSON writer and parser and the encryption, which are libraries of the service. An encryption
draws a salt; a failure has a number. -/
structure SecretCoding where
  write : Members → String
  parse : String → Json
  encrypt : Nat → String → Except Nat String
  decrypt : String → Except Nat String

section
variable (coding : SecretCoding)

def encryptSecret (salt : Nat) (plain : String) : StoreM String :=
  match coding.encrypt salt plain with
  | .ok data => return data
  | .error err => throw ("Failed to encrypt with scrypt: error " ++ toString err)

def decryptSecret (secret : Secret) : StoreM String := do
  if secret.data.length < 128 then
    throw "Invalid encrypted data: too short to contain header"
  match coding.decrypt secret.data with
  | .ok plain => return plain
  | .error err => throw ("Failed to decrypt with scrypt: error " ++ toString err)

end

/-- The text as it is read from its address, up to the first NUL. -/
def cText (text : String) : String := .ofList (text.toList.takeWhile (· ≠ '\x00'))

def utf8 (text : String) : Bytes := text.toList.flatMap String.utf8EncodeChar

def allowedKeyCharacter (c : Char) : Bool := c.isAlphanum || c == '-' || c == '.' || c == '_'

/-- The values need to be strings, the keys need to meet the requirements of Kubernetes. -/
def checkSecretMember (member : String × Json) : HandlerM Unit := do
  require (some member.2.isString) 400 "Secret value is not a string"
  require (some (member.1 ≠ "")) 400 "Secret keys may not be empty"
  require (some (member.1.utf8ByteSize ≤ 253)) 400 "Secret keys may be no more than 253 characters"
  require (some ((cText member.1).toList.all allowedKeyCharacter)) 400 "Secret key does not match [-._a-zA-Z0-9]+"
  require (member.2.getCString.map fun value => sanityCheckBase64 (utf8 value)) 400 "Secret data items must be base64 encoded"

/-- The metadata and the contents of a request, if it has contents. -/
def checkSecretBody (body : Json) : HandlerM (Json × Option Members) := do
  let metadata ← requestMetadata body "Missing user metadata in request" "Incorrect type for metadata"
  checkRequired metadata "name" "Missing secret name in request" "Incorrect type for secret name"
  checkRequired metadata "group" "Missing Group ID in request" "Incorrect type for Group ID"
  checkRequired metadata "cluster" "Missing cluster ID in request" "Incorrect type for cluster ID"
  let contents := body.member "contents"
  let copyFrom := body.member "copyFrom"
  require (some !(contents.isSome && copyFrom.isSome)) 400 "Secret contents and copy source cannot both be specified"
  require (some (contents.isSome || copyFrom.isSome)) 400 "Missing secret contents or source in request"
  match contents with
  | some (.object members) =>
    members.forM checkSecretMember
    return (metadata, some members)
  | some _ => refuse 400 "Incorrect type for contents"
  | none =>
    checkOptional body "copyFrom" "Incorrect type for copyFrom"
    return (metadata, none)

def checkSecretName (name : String) : HandlerM Unit := do
  require (some (name.utf8ByteSize ≤ 253)) 400 "Secret name too long"
  require (some (name.toList.all fun c => c.isLower || c.isDigit || c == '-' || c == '.')) 400
    "Secret name contains an invalid character"

/-- The secret that a request asks for, still without its data, with its group and its contents, if
it has contents. -/
def requestedSecret (user : User) (value : UInt64) (ctime : String) (body : Json) :
    HandlerM (Secret × Group × Option Members) := do
  let (metadata, contents) ← checkSecretBody body
  let name ← accessing (memberText metadata "name")
  checkSecretName name
  let group ← onStore (getGroup ((memberText metadata "group").getD ""))
  require (some group.valid) 404 "Group not found"
  let member ← onStore (userInGroup user.id group.id)
  require (some member) 403 "User not authorized"
  let cluster ← onStore (getCluster ((memberText metadata "cluster").getD ""))
  require (some cluster.valid) 404 "Cluster not found"
  if group.id ≠ cluster.owningGroup then
    let allowed ← onStore (groupAllowedOnCluster group.id cluster.id)
    require (some allowed) 403 "User not authorized"
  let existing ← onStore (findSecretByName group.id cluster.id name)
  require (some !existing.valid) 400 "A secret with the same name already exists"
  return ({ valid := true, id := generateSecretID value, name, group := group.id, cluster := cluster.id, ctime },
    group, contents)

section
variable (coding : SecretCoding)

/-- The contents are serialized again into a buffer, whose useful data is encrypted. -/
def encryptContents (salt : Nat) (members : Members) : StoreM String :=
  let buffer := (coding.write members).toList.foldl SecretStringBuffer.put .empty
  encryptSecret coding salt (.ofList buffer.contents)

/-- The data of a secret that the user may see, and the document that it stands for. -/
def copiedSecret (user : User) (sourceID : String) : HandlerM (String × Json) := do
  let existing ← onStore (getSecret sourceID)
  require (some existing.valid) 404 "The specified source secret does not exist"
  let member ← onStore (userInGroup user.id existing.group)
  require (some member) 403 "User not authorized"
  let plain ← onStore (decryptSecret coding existing)
  return (existing.data, coding.parse plain)

/-- What is to be stored, and the contents that are to be deployed. -/
def secretData (user : User) (salt : Nat) (body : Json) : Option Members → HandlerM (String × Json)
  | some members => do
    let data ← onStore (encryptContents coding salt members)
    return (data, .object members)
  | none => do
    let sourceID ← accessing (memberText body "copyFrom")
    copiedSecret coding user sourceID

end

/-- A temporary file with a value, and the key under which it is handed to kubectl. -/
structure SecretFile where
  key : String
  path : String
  content : Bytes
deriving DecidableEq

/-- What becomes of the temporary files of a request. Each of them is given a name of its own. -/
structure TemporaryFiles where
  make : Nat → String → Except String String
  opens : String → Bool
  writes : String → Bytes → Bool

structure SecretWorld extends ClusterWorld where
  /-- The files with which commands have been run. -/
  handed : List (List SecretFile) := []

abbrev SecretM := EStateM Halt SecretWorld

def onCluster {α : Type} (program : ClusterM α) : SecretM α := fun world =>
  match program world.toClusterWorld with
  | .ok value after => .ok value { world with toClusterWorld := after }
  | .error halt after => .error halt { world with toClusterWorld := after }

def fromExcept {σ α : Type} : Except String α → EStateM Halt σ α
  | .ok value => return value
  | .error message => throw (.thrown message)

section
variable (outside : Outsides) (files : TemporaryFiles)

def controllerArguments (clusterConfig : String) : List String :=
  ["--kubeconfig", clusterConfig, "get", "crd", "clusternss.slateci.io"]

def getControllerVersion (clusterConfig : String) : ClusterM Nat := do
  let result ← runProgram (controllerArguments clusterConfig) fun commands =>
    runCommand (outside commands) "kubectl" (controllerArguments clusterConfig) []
  return if contains result.output "CREATED AT" then 2 else 1

/-- If the namespace already exists that is no problem. -/
def kubectlCreateNamespace (clusterConfig : String) : ClusterM Unit := do
  let _ ← getControllerVersion outside clusterConfig
  let tmpFile ← fromExcept (files.make 0 "namespace_yaml_")
  let arguments := ["--kubeconfig", clusterConfig, "create", "-f", tmpFile]
  let result ← runProgram arguments fun commands => runCommand (outside commands) "kubectl" arguments []
  if result.status ≠ 0 && !(contains result.error "AlreadyExists") then
    throw (.thrown ("Namespace creation failed: " ++ result.error))

/-- Writes a value to a temporary file to avoid losing data if there are NUL bytes. -/
def writeSecretFile (number : Nat) (member : String × Json) : SecretM SecretFile := do
  let coded ← accessing member.2.getCString
  let content ← fromExcept (decodeBase64 (utf8 coded))
  let path ← fromExcept (files.make number "secret_")
  if !files.opens path then
    throw (.thrown ("Failed to open " ++ path ++ " for writing"))
  if !files.writes path content then
    throw (.thrown ("Failed while writing to " ++ path))
  return { key := cText member.1, path, content }

def SecretFile.argument (file : SecretFile) : String := "--from-file=" ++ file.key ++ "=" ++ file.path

def secretArguments (name nspace : String) (valueFiles : List SecretFile) : List String :=
  ["create", "secret", "generic", name, "--namespace", nspace] ++ valueFiles.map SecretFile.argument

/-- `catch(std::runtime_error& err)` in a handler -/
def catchInHandler {σ α : Type} (program : EStateM Halt σ α) (handler : String → EStateM Halt σ α) : EStateM Halt σ α :=
  tryCatch program fun
    | .thrown message => if message = keyNotFound then throw (.thrown message) else handler message
    | halt => throw halt

/-- Puts the secret into Kubernetes; it is removed from the database again if that fails. -/
def deploySecret (secret : Secret) (group : Group) (contents : Json) : SecretM Unit := do
  let configPath ← onCluster (onServer (onStore (configPathForCluster secret.cluster)))
  catchInHandler (onCluster (kubectlCreateNamespace outside files configPath)) fun message => do
    let _ ← onCluster (onServer (onStore (removeSecret secret.id)))
    refuse 500 ("Failed to create namespace: " ++ message)
  let members ← accessing contents.getObject
  let valueFiles ← members.zipIdx.mapM fun (member, index) => writeSecretFile files (index + 1) member
  modify fun world => { world with handed := world.handed ++ [valueFiles] }
  let result ← onCluster (kubectlRun outside configPath (secretArguments secret.name group.namespaceName valueFiles))
  if result.status ≠ 0 then
    let _ ← onCluster (onServer (onStore (removeSecret secret.id)))
    refuse 500 ("Failed to store secret to kubernetes: " ++ result.error)

def secretResponse (secret : Secret) : Response where
  status := 200
  body := some (.object [("apiVersion", .string "v1alpha3"), ("kind", .string "Secret"),
    ("metadata", .object [("id", .string secret.id), ("name", .string secret.name)])])

/-- Stores the secret; anything that is thrown on the way counts as a failure. -/
def storeSecret (secret : Secret) : HandlerM Unit := do
  let success ← onStore (catchRuntimeError (addSecret secret) fun _ => return false)
  require (some success) 500 "Failed to store secret to the persistent store"

variable (coding : SecretCoding)

def createSecret (user : User) (value : UInt64) (salt : Nat) (ctime : String) (body : Json) : SecretM Response := do
  onCluster (onServer (require (some user.valid) 403 "User not authorized"))
  let (secret, group, contents) ← onCluster (onServer (requestedSecret user value ctime body))
  let (data, contents) ← onCluster (onServer (secretData coding user salt body contents))
  let secret := { secret with data }
  onCluster (onServer (storeSecret secret))
  deploySecret outside files secret group contents
  return secretResponse secret

end

section
variable (coding : SecretCoding)

def decryptionFailed (message : String) : String := "Secret decryption failed: " ++ message

def secretDocument (secret : Secret) : HandlerM Json :=
  catchInHandler (do return coding.parse (← onStore (decryptSecret coding secret))) fun message =>
    refuse 500 (decryptionFailed message)

def getSecretRequest (user : User) (secretID : String) : HandlerM Response := do
  require (some user.valid) 403 "User not authorized"
  let secret ← onStore (getSecret secretID)
  require (some secret.valid) 404 "Secret not found"
  let member ← onStore (userInGroup user.id secret.group)
  require (some member) 403 "User not authorized"
  let group ← onStore (getGroup secret.group)
  let cluster ← onStore (getCluster secret.cluster)
  let contents ← secretDocument coding secret
  return {
    status := 200
    body := some (.object [("apiVersion", .string "v1alpha3"), ("kind", .string "Secret"), ("metadata", .object [
      ("id", .string secret.id), ("name", .string secret.name), ("group", .string group.name),
      ("cluster", .string cluster.name), ("created", .string secret.ctime)]), ("contents", contents)]) }

end

end Slate
