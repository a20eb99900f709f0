import Slate.Library.FiniteMap
import Slate.Library.Transitions

/-! Child processes: the handler of SIGCHLD, the thread that reaps them, the handles
through which their exit statuses are read, and the table that the two share. -/

namespace Slate
open Library

/-- A child process. The program knows its PID only; PIDs are given out again, and the
number tells apart the children that had the same one. -/
structure ChildId where
  pid : Nat
  number : Nat
deriving Repr, DecidableEq

inductive Ending
  | exited (code : UInt8)
  | signaled
deriving Repr, DecidableEq

def Ending.exitStatus : Ending → UInt8
  | exited code => code
  | signaled => 255

/-- A child that has exited is there until it is reaped. Its SIGCHLD is delivered before or after that. -/
inductive Life
  | running
  | exited (ending : Ending) (signaled : Bool)
  | reaped (ending : Ending) (signaled : Bool)
deriving Repr, DecidableEq

def Life.isExited : Life → Bool
  | exited _ _ => true
  | _ => false

def Life.isReaped : Life → Bool
  | reaped _ _ => true
  | _ => false

/-- Records refer to handles by their addresses. -/
abbrev Address := Nat

structure ProcessRecord where
  handle : Option Address := none
  exitStatus : UInt8 := 255
deriving Repr, DecidableEq

structure ProcessHandle where
  child : Option ChildId := none
  exitStatus : Option UInt8 := none
deriving Repr, DecidableEq

/-- What is left to do with the table before a handle can be used. -/
inductive Ongoing
  | constructing
  | moving (other : Address)
deriving Repr, DecidableEq

inductive Reaper
  | idle
  | waiting
  | recording (child : ChildId) (ending : Ending)
  | clearing
deriving Repr, DecidableEq

structure Processes where
  children : FiniteMap ChildId Life := ∅
  handles : FiniteMap Address ProcessHandle := ∅
  ongoing : FiniteMap Address Ongoing := ∅
  processTable : FiniteMap Nat ProcessRecord := ∅
  reapFlag : Bool := false
  reaper : Reaper := .idle

namespace Processes

def busy (state : Processes) (handle : Address) : Bool :=
  (state.ongoing.lookup handle).isSome || state.ongoing.values.any fun operation => operation == .moving handle

/-- A PID is taken until the child that has it is reaped. -/
def taken (state : Processes) (pid : Nat) : Bool :=
  state.children.pairs.any fun entry => entry.1.pid == pid && !entry.2.isReaped

/-- A write to an address. Where no handle is, what it changes is not a handle. -/
def setExitStatus (state : Processes) (handle : Address) (status : UInt8) : Processes :=
  match state.handles.lookup handle with
  | some held => { state with handles := state.handles.insert handle { held with exitStatus := some status } }
  | none => state

/-- The start of a child, and of the construction of its handle. -/
def fork (state : Processes) (child : ChildId) (handle : Address) : Option Processes :=
  if (state.children.lookup child).isNone && !state.taken child.pid && (state.handles.lookup handle).isNone then
    some { state with
      children := state.children.insert child .running
      handles := state.handles.insert handle { child := some child }
      ongoing := state.ongoing.insert handle .constructing }
  else none

def exit (state : Processes) (child : ChildId) (ending : Ending) : Option Processes :=
  match state.children.lookup child with
  | some .running => some { state with children := state.children.insert child (.exited ending false) }
  | _ => none

def handleSIGCHLD (state : Processes) (child : ChildId) : Option Processes :=
  match state.children.lookup child with
  | some (.exited ending false) =>
    some { state with children := state.children.insert child (.exited ending true), reapFlag := true }
  | some (.reaped ending false) =>
    some { state with children := state.children.insert child (.reaped ending true), reapFlag := true }
  | _ => none

def checkFlag (state : Processes) : Option Processes :=
  match state.reaper with
  | .idle => some (if state.reapFlag then { state with reaper := .waiting } else state)
  | _ => none

/-- One of the children that have exited, or none when there are none. -/
def waitpid (state : Processes) (found : Option ChildId) : Option Processes :=
  match state.reaper with
  | .waiting =>
    match found with
    | none => if state.children.values.any Life.isExited then none else some { state with reaper := .clearing }
    | some child =>
      match state.children.lookup child with
      | some (.exited ending signaled) =>
        some { state with
          children := state.children.insert child (.reaped ending signaled)
          reaper := .recording child ending }
      | _ => none
  | _ => none

/-- The reaper puts the status into the handle that the record names, or else into a record. -/
def recordStatus (state : Processes) : Option Processes :=
  match state.reaper with
  | .recording child ending =>
    let state := { state with reaper := .waiting }
    some (match state.processTable.lookup child.pid with
      | some record =>
        let state := match record.handle with
          | some handle => state.setExitStatus handle ending.exitStatus
          | none => state
        { state with processTable := state.processTable.erase child.pid }
      | none =>
        { state with processTable := state.processTable.insert child.pid { exitStatus := ending.exitStatus } })
  | _ => none

def clearFlag (state : Processes) : Option Processes :=
  match state.reaper with
  | .clearing => some { state with reapFlag := false, reaper := .idle }
  | _ => none

/-- The construction of a handle ends with a record, or with the status that is found in one. -/
def register (state : Processes) (handle : Address) : Option Processes :=
  match state.ongoing.lookup handle, state.handles.lookup handle with
  | some .constructing, some ⟨some child, _⟩ =>
    let state := { state with ongoing := state.ongoing.erase handle }
    some (match state.processTable.lookup child.pid with
      | some record =>
        { state.setExitStatus handle record.exitStatus with processTable := state.processTable.erase child.pid }
      | none =>
        { state with processTable := state.processTable.insert child.pid { handle := some handle } })
  | _, _ => none

def construct (state : Processes) (handle : Address) : Option Processes :=
  if (state.handles.lookup handle).isNone then
    some { state with handles := state.handles.insert handle {} }
  else none

/-- The child passes from one handle to another; the table is still to be updated. -/
def passChild (state : Processes) (handle other : Address) (source : ProcessHandle) (before : Option UInt8) : Processes :=
  { state with
    handles := (state.handles.insert other { source with child := none }).insert handle ⟨source.child, before⟩
    ongoing := if source.child.isSome then state.ongoing.insert handle (.moving other) else state.ongoing }

/-- A handle that is constructed from another has no status of its own: what it reads until
the table was updated is what was left in its memory. -/
def moveConstruct (state : Processes) (handle other : Address) (left : Option UInt8) : Option Processes :=
  match state.handles.lookup handle, state.handles.lookup other with
  | none, some source => if state.busy other then none else some (state.passChild handle other source left)
  | _, _ => none

/-- The child that the handle had is sent a signal, and is no longer known to it. -/
def moveAssign (state : Processes) (handle other : Address) : Option Processes :=
  match state.handles.lookup handle, state.handles.lookup other with
  | some target, some source =>
    if state.busy handle || state.busy other then none
    else if handle = other then some state
    else some (state.passChild handle other source target.exitStatus)
  | _, _ => none

/-- A move ends with the record that names the old handle, if there still is one, naming the
new one, and with the status taken over. -/
def updateRecord (state : Processes) (handle : Address) : Option Processes :=
  match state.ongoing.lookup handle, state.handles.lookup handle with
  | some (.moving other), some ⟨some child, _⟩ =>
    let state := { state with ongoing := state.ongoing.erase handle }
    some (match state.processTable.lookup child.pid, state.handles.lookup other with
      | some record, some source =>
        { state with
          processTable := state.processTable.insert child.pid
            { record with handle := if record.handle = some other then some handle else record.handle }
          handles := state.handles.insert handle ⟨some child, source.exitStatus⟩ }
      | _, _ => state)
  | _, _ => none

def detach (state : Processes) (handle : Address) : Option Processes :=
  match state.handles.lookup handle with
  | some held =>
    if state.busy handle then none
    else some { state with handles := state.handles.insert handle { held with child := none } }
  | none => none

def destroy (state : Processes) (handle : Address) : Option Processes :=
  match state.handles.lookup handle with
  | some held =>
    if state.busy handle then none
    else
      let processTable := match held.child with
        | some child =>
          match state.processTable.lookup child.pid with
          | some record =>
            if record.handle = some handle then
              if held.exitStatus.isSome then state.processTable.erase child.pid
              else state.processTable.insert child.pid { record with handle := none }
            else state.processTable
          | none => state.processTable
        | none => state.processTable
      some { state with handles := state.handles.erase handle, processTable }
  | none => none

end Processes

/-- What the children, the threads that own handles, the signal handler and the reaper do. -/
inductive ProcessAction
  | fork (child : ChildId) (handle : Address)
  | exit (child : ChildId) (ending : Ending)
  | handleSIGCHLD (child : ChildId)
  | checkFlag
  | waitpid (found : Option ChildId)
  | recordStatus
  | clearFlag
  | register (handle : Address)
  | construct (handle : Address)
  | moveConstruct (handle other : Address) (left : Option UInt8)
  | moveAssign (handle other : Address)
  | updateRecord (handle : Address)
  | detach (handle : Address)
  | destroy (handle : Address)
deriving Repr, DecidableEq

def ProcessAction.perform : ProcessAction → Processes → Option Processes
  | fork child handle, state => state.fork child handle
  | exit child ending, state => state.exit child ending
  | handleSIGCHLD child, state => state.handleSIGCHLD child
  | checkFlag, state => state.checkFlag
  | waitpid found, state => state.waitpid found
  | recordStatus, state => state.recordStatus
  | clearFlag, state => state.clearFlag
  | register handle, state => state.register handle
  | construct handle, state => state.construct handle
  | moveConstruct handle other left, state => state.moveConstruct handle other left
  | moveAssign handle other, state => state.moveAssign handle other
  | updateRecord handle, state => state.updateRecord handle
  | detach handle, state => state.detach handle
  | destroy handle, state => state.destroy handle

end Slate
