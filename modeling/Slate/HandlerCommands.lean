import Slate.Deletions
import Slate.Responses

/-! Handlers that run commands on a cluster. What a command does may depend on those that have
been run before it. -/

namespace Slate
open Library Handler

/-- The server, and the commands that a handler has run, with their arguments. -/
structure ClusterWorld where
  server : Server := {}
  commands : List (List String) := []

abbrev ClusterM := EStateM Halt ClusterWorld

namespace Handler

def onServer {α : Type} (program : HandlerM α) : ClusterM α := fun world =>
  match program world.server with
  | .ok value server => .ok value { world with server }
  | .error halt server => .error halt { world with server }

/-- Runs a program, with what is outside once the commands before it have been run. -/
def runProgram {α : Type} (arguments : List String) (program : List (List String) → StoreM α) : ClusterM α := do
  let result ← onServer (onStore (program (← get).commands))
  modify fun world => { world with commands := world.commands ++ [arguments] }
  return result

end Handler

abbrev Outsides := List (List String) → Outside

def kubectlRun (outside : Outsides) (configPath : String) (arguments : List String) : ClusterM CommandResult :=
  runProgram arguments fun commands => kubectl (outside commands) configPath arguments

/-- The instance, if there is one that the user may look at and change, and the group it belongs to. -/
def authorizedInstance (user : User) (instanceID : String) (notFound : Nat) : HandlerM (ApplicationInstance × Group) := do
  require (some user.valid) 403 "User not authorized"
  let applicationInstance ← onStore (getApplicationInstance instanceID)
  require (some applicationInstance.valid) notFound "Application instance not found"
  if !user.admin then
    let member ← onStore (userInGroup user.id applicationInstance.owningGroup)
    require (some member) 403 "User not authorized"
  let group ← onStore (getGroup applicationInstance.owningGroup)
  return (applicationInstance, group)

/-- How a request is answered, unless an exception leaves the handler or an assertion fails. -/
def ending {σ : Type} : EStateM.Result Halt σ Response → Option Response × σ
  | .ok response state => (some response, state)
  | .error (.response response) state => (some response, state)
  | .error _ state => (none, state)

section
variable {α : Type} {server after : Server} {commands : List (List String)}

theorem onServer_returned {program : HandlerM α} {value : α} (ran : program server = .ok value after) :
    onServer program ⟨server, commands⟩ = .ok value ⟨after, commands⟩ := by
  rw [onServer, ran]

theorem onServer_thrown {program : HandlerM α} {halt : Halt} (ran : program server = .error halt after) :
    onServer program ⟨server, commands⟩ = .error halt ⟨after, commands⟩ := by
  rw [onServer, ran]

theorem onStore_returned {program : StoreM α} {value : α} (ran : program server = .ok value after) :
    onStore program server = .ok value after := by
  rw [onStore, ran]

private theorem onStore_thrown {program : StoreM α} {message : String} (ran : program server = .error message after) :
    onStore program server = .error (.thrown message) after := by
  rw [onStore, ran]

theorem runProgram_returned {arguments : List String} {program : List (List String) → StoreM α} {value : α}
    (ran : program commands server = .ok value after) :
    runProgram arguments program ⟨server, commands⟩ = .ok value ⟨after, commands ++ [arguments]⟩ := by
  refine (bind_returned rfl).trans ((bind_returned (onServer_returned (onStore_returned ran))).trans ?_)
  rfl

theorem runProgram_thrown {arguments : List String} {program : List (List String) → StoreM α} {message : String}
    (ran : program commands server = .error message after) :
    runProgram arguments program ⟨server, commands⟩ = .error (.thrown message) ⟨after, commands⟩ :=
  (bind_returned rfl).trans (bind_thrown (onServer_thrown (onStore_thrown ran)))

end

section
variable {outside : Outsides} {configPath : String} {arguments : List String} {commands : List (List String)}
  {server after : Server}

theorem kubectlRun_returned {result : CommandResult}
    (ran : kubectl (outside commands) configPath arguments server = .ok result after) :
    kubectlRun outside configPath arguments ⟨server, commands⟩ = .ok result ⟨after, commands ++ [arguments]⟩ :=
  @runProgram_returned _ _ _ _ _ (fun commands => kubectl (outside commands) configPath arguments) _ ran

theorem kubectlRun_thrown {message : String}
    (ran : kubectl (outside commands) configPath arguments server = .error message after) :
    kubectlRun outside configPath arguments ⟨server, commands⟩ = .error (.thrown message) ⟨after, commands⟩ :=
  @runProgram_thrown _ _ _ _ _ (fun commands => kubectl (outside commands) configPath arguments) _ ran

end

section
variable {σ : Type} (state : σ) (status : Nat) (message : String)

theorem require_holds : require (some true) status message state = .ok ⟨⟩ state := rfl

theorem require_refuses : require (some false) status message state =
    .error (.response ⟨status, some (generateError message)⟩) state := rfl

end

end Slate
