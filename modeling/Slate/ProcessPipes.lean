import Slate.Library.Transitions
import Slate.Library.Versions

/-! Commands with the pipes that connect them to this program: the input is written, then the outputs are
read one after the other. -/

namespace Slate
open Library

inductive Output
  | stdout
  | stderr
deriving Repr, DecidableEq

structure Capacities where
  stdin : Nat
  output : Output → Nat
  stdin_pos : 0 < stdin
  output_pos : ∀ stream, 0 < output stream

/-- What a program does next, in one of its states. It may ask for several bytes at once, and gets those
that are there; it writes one byte after the other. -/
inductive Act (σ : Type)
  | read (more : Nat) (next : Bytes → σ)
  | write (stream : Output) (byte : UInt8) (next : σ)
  | closeInput (next : σ)
  | closeOutput (stream : Output) (next : σ)
  | exit (status : UInt8)

/-- One of the outputs: its pipe, the buffer that this program reads it through, and what it has of it. -/
structure Channel where
  pipe : Bytes := []
  isOpen : Bool := true
  unread : Bytes := []
  readEOF : Bool := false
  collected : Bytes := []
  /-- Everything that was written to it. -/
  wrote : Bytes := []
deriving Repr, DecidableEq

namespace Channel

def bufferSize : Nat := 4096

/-- `waitReady(READ, false)` -/
def isReady (channel : Channel) : Bool := !channel.pipe.isEmpty || !channel.isOpen

/-- There is no result while it waits. -/
def underflow (channel : Channel) : Option Channel :=
  if channel.readEOF then some channel
  else if channel.unread ≠ [] then some channel
  else if !channel.isReady then none
  else if channel.pipe = [] then some { channel with readEOF := true }
  else some { channel with unread := channel.pipe.take bufferSize, pipe := channel.pipe.drop bufferSize }

def showmanyc (channel : Channel) : Int :=
  if channel.readEOF then -1
  else if channel.isReady then 1
  else 0

/-- Either as much is asked for as is in the buffer, or one byte. -/
def sgetn (channel : Channel) (count : Nat) : Option (Bytes × Channel) :=
  channel.underflow.map fun filled =>
    (filled.unread.take count, { filled with unread := filled.unread.drop count })

def inAvail (channel : Channel) : Int :=
  if channel.unread ≠ [] then channel.unread.length else channel.showmanyc

end Channel

inductive Parent
  | writing (input : Bytes)
  | reading (stream : Output)
  | readingSome (stream : Output) (taken : Bytes)
  | waiting
  | returned (status : UInt8)
deriving Repr, DecidableEq

/-- A command that runs: the program is in one of its states or has exited. -/
structure Running (σ : Type) where
  parent : Parent
  child : σ ⊕ UInt8
  stdin : Bytes := []
  stdinEnded : Bool := false
  stdinKept : Bool := true
  channel : Output → Channel := fun _ => {}

/-- `runCommandWithInput`, or `runCommand` where there is no input, once the child is started. -/
def Running.runCommand {σ : Type} (first : σ) : Option Bytes → Running σ
  | some input => { parent := .writing input, child := .inl first }
  | none => { parent := .reading .stdout, child := .inl first }

/-- All of a text that there is room for is written, of a longer one some part. -/
def accepted (room part count : Nat) : Nat := if count ≤ room then count else max 1 (min part room)

def nextOutput : Output → Parent
  | .stdout => .reading .stderr
  | .stderr => .waiting

/-- Who goes on. The first number is how much a pipe takes of a text that there is not enough room for. -/
inductive Turn
  | parent (part : Nat)
  | child

namespace Running

variable {σ : Type}

def setChannel (running : Running σ) (stream : Output) (channel : Channel) : Running σ :=
  { running with channel := Function.update running.channel stream channel }

/-- The loop of `xsputn`. An error is reported, and the loop goes on. -/
def xsputn (capacities : Capacities) (part : Nat) (running : Running σ) (input : Bytes) : Option (Running σ) :=
  if running.stdinKept then
    let room := capacities.stdin - running.stdin.length
    if room = 0 then none else
    let result := accepted room part input.length
    some { running with parent := .writing (input.drop result), stdin := running.stdin ++ input.take result }
  else some running

def endInput (running : Running σ) : Running σ :=
  { running with parent := .reading .stdout, stdinEnded := true }

/-- A pass of the loop begins with one byte, for which it waits. -/
def readFirst (running : Running σ) (stream : Output) : Option (Running σ) :=
  ((running.channel stream).sgetn 1).map fun (taken, channel) =>
    if taken = [] then { running.setChannel stream channel with parent := nextOutput stream }
    else { running.setChannel stream channel with parent := .readingSome stream taken }

/-- It goes on with what is there, and adds all of it to the result. -/
def readSome (running : Running σ) (stream : Output) (taken : Bytes) : Option (Running σ) :=
  let channel := running.channel stream
  if channel.inAvail = -1 then
    some { running.setChannel stream { channel with collected := channel.collected ++ taken } with
      parent := nextOutput stream }
  else if channel.inAvail ≤ 0 then
    some { running.setChannel stream { channel with collected := channel.collected ++ taken } with
      parent := .reading stream }
  else (channel.sgetn (min channel.inAvail.toNat 1023)).map fun (more, after) =>
    { running.setChannel stream { after with collected := after.collected ++ (taken ++ more) } with
      parent := .reading stream }

def parentStep (capacities : Capacities) (part : Nat) (running : Running σ) : Option (Running σ) :=
  match running.parent with
  | .writing [] => some running.endInput
  | .writing input => running.xsputn capacities part input
  | .reading stream => running.readFirst stream
  | .readingSome stream taken => running.readSome stream taken
  | .waiting =>
    match running.child with
    | .inl _ => none
    | .inr status => some { running with parent := .returned status }
  | .returned _ => none

def closeOutput (running : Running σ) (stream : Output) : Running σ :=
  running.setChannel stream { running.channel stream with isOpen := false }

/-- What is written to an output that was closed is lost. -/
def writeByte (capacities : Capacities) (running : Running σ) (stream : Output) (byte : UInt8) : Option (Running σ) :=
  let channel := running.channel stream
  if !channel.isOpen then some running
  else if channel.pipe.length < capacities.output stream then
    some (running.setChannel stream
      { channel with pipe := channel.pipe ++ [byte], wrote := channel.wrote ++ [byte] })
  else none

/-- What the program gets that asks for input. -/
def readInput (running : Running σ) (more : Nat) : Option (Bytes × Running σ) :=
  if !running.stdinKept then some ([], running)
  else if running.stdin = [] ∧ !running.stdinEnded then none
  else some (running.stdin.take (more + 1), { running with stdin := running.stdin.drop (more + 1) })

def perform (capacities : Capacities) (running : Running σ) : Act σ → Option (Running σ)
  | .read more next => (running.readInput more).map fun (bytes, after) => { after with child := .inl (next bytes) }
  | .write stream byte next =>
    (running.writeByte capacities stream byte).map fun after => { after with child := .inl next }
  | .closeInput next => some { running with stdinKept := false, child := .inl next }
  | .closeOutput stream next => some { running.closeOutput stream with child := .inl next }
  | .exit status =>
    some { (running.closeOutput .stdout).closeOutput .stderr with stdinKept := false, child := .inr status }

def childStep (capacities : Capacities) (program : σ → Act σ) (running : Running σ) : Option (Running σ) :=
  match running.child with
  | .inl state => running.perform capacities (program state)
  | .inr _ => none

def step (capacities : Capacities) (program : σ → Act σ) : Turn → Running σ → Option (Running σ)
  | .parent part, running => running.parentStep capacities part
  | .child, running => running.childStep capacities program

end Running
end Slate
