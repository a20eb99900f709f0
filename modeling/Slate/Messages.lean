import Slate.SecretRequests
import Slate.UserRequests

/-! The requests about users and secrets as they are sent, with the token of the user who asks. -/

namespace Slate
open Library Handler

def listedSecretItem (secret : Secret) (group : Group) (cluster : Cluster) : Json := .object [
  ("apiVersion", .string "v1alpha3"), ("kind", .string "Secret"), ("metadata", .object [("id", .string secret.id),
    ("name", .string secret.name), ("group", .string group.name), ("cluster", .string cluster.name),
    ("created", .string secret.ctime)])]

/-- Only administrators and members of a group may list its secrets. -/
def listSecretsRequest (user : User) (groupRaw clusterRaw : Option String) : HandlerM Response := do
  require (some user.valid) 403 "User not authorized"
  match groupRaw with
  | none => refuse 400 "Group not specified"
  | some groupRaw => do
    let group ← onStore (getGroup groupRaw)
    require (some group.valid) 404 "Group not found"
    if !user.admin then
      let member ← onStore (userInGroup user.id group.id)
      require (some member) 403 "User not authorized"
    let secrets ← onStore (listSecrets group.id (clusterRaw.getD ""))
    let items ← secrets.mapM fun secret => do
      let group ← onStore (getGroup secret.group)
      let cluster ← onStore (getCluster secret.cluster)
      return listedSecretItem secret group cluster
    return { status := 200, body := some (.object [("apiVersion", .string "v1alpha3"), ("items", .array items)]) }

/-- Only members of a group may delete its secrets. -/
def deleteSecretRequest (outside : Outside) (user : User) (secretID : String) (force : Bool) : HandlerM Response := do
  require (some user.valid) 403 "User not authorized"
  let secret ← onStore (getSecret secretID)
  require (some secret.valid) 404 "Secret not found"
  let member ← onStore (userInGroup user.id secret.group)
  require (some member) 403 "User not authorized"
  let err ← onStore (deleteSecret outside secret force true)
  require (some (err = "")) 500 err
  return { status := 200 }

/-- What may be asked of the server about secrets. What is drawn or read from the clock is part of it. -/
inductive SecretCommand where
  | listSecrets (group cluster : Option String)
  | createSecret (value : UInt64) (salt : Nat) (ctime : String) (body : Json)
  | deleteSecret (secretID : String) (force : Bool)
  | getSecret (secretID : String)

inductive Command where
  | user (command : UserCommand)
  | secret (command : SecretCommand)

/-- A command, sent with the token of the user who asks, and what is outside while it is performed. -/
structure Message where
  token : Option String
  command : Command
  outside : Outsides

def onWorld {α : Type} (program : HandlerM α) : SecretM α := onCluster (onServer program)

section
variable (files : TemporaryFiles) (coding : SecretCoding)

def SecretCommand.perform (outside : Outsides) (user : User) : SecretCommand → SecretM Response
  | listSecrets group cluster => onWorld (listSecretsRequest user group cluster)
  | createSecret value salt ctime body => Slate.createSecret outside files coding user value salt ctime body
  | deleteSecret secretID force => do
    onWorld (deleteSecretRequest (outside (← get).commands) user secretID force)
  | getSecret secretID => onWorld (getSecretRequest coding user secretID)

def Command.perform (outside : Outsides) (user : User) : Command → SecretM Response
  | .user command => onWorld (command.perform user)
  | .secret command => command.perform files coding outside user

def Message.handle (message : Message) : SecretM Response := do
  let user ← onWorld (onStore (authenticateUser message.token))
  message.command.perform files coding message.outside user

/-- How a message is answered, unless an exception leaves its handler or an assertion fails. -/
def Message.answer (message : Message) (world : SecretWorld) : Option Response × SecretWorld :=
  ending (message.handle files coding world)

end

end Slate
