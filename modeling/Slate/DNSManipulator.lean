import Slate.Library.FiniteMap
import Slate.Library.Programs
import Mathlib.Data.List.Infix

/-! The manipulation of address records in hosted DNS zones. A record of the same name
with a text in it marks the address records as ones that may be changed. -/

namespace Slate
open Library

inductive RRType
  | A
  | AAAA
  | TXT
  | other (name : String)
  deriving DecidableEq, Repr

namespace RRType

def nameForRRType : RRType → String
  | A => "A"
  | AAAA => "AAAA"
  | TXT => "TXT"
  | other name => name

end RRType

/-- The values of a record set, of which there is at least one. -/
structure RecordSet where
  values : List String
  some : values ≠ []
  deriving DecidableEq

def RecordSet.single (value : String) : RecordSet := ⟨[value], List.cons_ne_nil _ _⟩

/-- The name server, and what the manipulator knows of it. Each request that is still to
come succeeds or fails with an error. -/
structure DNS where
  validServer : Bool := true
  hostedZones : FiniteMap String String := ∅
  records : FiniteMap (String × RRType) RecordSet := ∅
  errors : Nat → Option String := fun _ => none

abbrev DNSM := EStateM String DNS

/-- The next request fails with this error, if there is one. -/
def DNS.request : DNSM (Option String) :=
  modifyGet fun dns => (dns.errors 0, { dns with errors := fun n => dns.errors (n + 1) })

def heritageTag : String := "heritage=slate-api"

def heritageRecord : RecordSet := .single ("\"" ++ heritageTag ++ "\"")

/-- The last position of the character that is not after the limit. -/
def rfind (text : List Char) (c : Char) (limit : Nat) : Option Nat :=
  (List.range (limit + 1)).reverse.find? fun position => text[position]? == some c

/-- The last two components of a name. -/
def zoneOf (name : String) : Option String := do
  let text := name.toList
  let last ← rfind text '.' text.length
  let before ← if last = 0 then none else rfind text '.' (last - 1)
  return String.ofList (text.drop (before + 1) ++ ['.'])

def zoneForName (name : String) : DNSM String :=
  match zoneOf name with
  | some zone => return zone
  | none => throw ("Unable to extract zone from " ++ name)

def hostedZone (zone : String) : DNSM String := do
  match (← get).hostedZones.lookup zone with
  | some id => return id
  | none => throw (zone ++ " is not a hosted zone in this AWS account")

abbrev RecordSets := FiniteMap (String × RRType) RecordSet

/-- The data that there is for a name, none if there is no such record set. -/
def recordData (records : RecordSets) (name : String) (type : RRType) : List String :=
  match records.lookup (name, type) with
  | some set => set.values
  | none => []

def testDNSAnswer (name : String) (type : RRType) (what : String) : DNSM (List String) := do
  if let some error ← DNS.request then
    throw ("Failed to look up " ++ what ++ " record for " ++ name ++ ": " ++ error)
  return recordData (← get).records name type

def containsText (text part : String) : Bool := decide (part.toList <:+: text.toList)

def safeToModifyDNS (name : String) (type : RRType) : DNSM Bool := do
  let _ ← hostedZone (← zoneForName name)
  let baseRecordExists := !(← testDNSAnswer name type "A").isEmpty
  let heritage ← testDNSAnswer name .TXT "TXT"
  let heritageRecordExists := heritage.any fun record => containsText record heritageTag
  return !baseRecordExists || heritageRecordExists

def getDNSRecord (type : RRType) (name : String) : DNSM (List String) := do
  unless (← get).validServer do
    throw "No valid Route53 server"
  let _ ← hostedZone (← zoneForName name)
  testDNSAnswer name type type.nameForRRType

/-- Guesses which kind of record an address belongs to. -/
def addressType (address : String) : Except String RRType :=
  if address.isEmpty then
    .error "Invalid IP address: must not be empty"
  else if address.toList.all ("0123456789.".toList.contains ·) then
    .ok .A
  else if address.toList.all ("0123456789abcdefABCDEF:".toList.contains ·) then
    .ok .AAAA
  else
    .error ("Unrecognized IP address type: " ++ address)

inductive ChangeAction
  | upsert
  | delete
  deriving DecidableEq, Repr

/-- One change to the record sets. What is deleted has to be there exactly. -/
def applyChange (action : ChangeAction) (records : RecordSets)
    (key : String × RRType) (value : RecordSet) : Option RecordSets :=
  match action with
  | .upsert => some (records.insert key value)
  | .delete => if records.lookup key = some value then some (AList.erase key records) else none

/-- A batch of two changes by one action, made as a whole or not at all. -/
def applyChanges (action : ChangeAction) (records : RecordSets) (name : String)
    (type : RRType) (main txt : RecordSet) : Option RecordSets := do
  let changed ← applyChange action records (name, type) main
  applyChange action changed (name, .TXT) txt

/-- Tells whether the request succeeded. -/
def changeResourceRecordSets (action : ChangeAction) (name : String) (type : RRType) (main txt : RecordSet) : DNSM Bool := do
  if (← DNS.request).isSome then
    return false
  match applyChanges action (← get).records name type main txt with
  | some records =>
    modify fun dns => { dns with records := records }
    return true
  | none => return false

/-- Changes an address record together with the record that marks it. -/
def changeIfSafe (action : ChangeAction) (name : String) (type : RRType) (address : String) : DNSM Bool := do
  if ← safeToModifyDNS name type then
    let _ ← hostedZone (← zoneForName name)
    changeResourceRecordSets action name type (.single address) heritageRecord
  else
    return false

/-- Setting and removing a record differ in the action only. -/
def changeDNSRecord (action : ChangeAction) (name address : String) : DNSM Bool := do
  if (← get).validServer then
    match addressType address with
    | .ok type => changeIfSafe action name type address
    | .error thrown => throw thrown
  else
    throw "No valid Route53 server"

def setDNSRecord (name address : String) : DNSM Bool := changeDNSRecord .upsert name address

def removeDNSRecord (name address : String) : DNSM Bool := changeDNSRecord .delete name address

end Slate
