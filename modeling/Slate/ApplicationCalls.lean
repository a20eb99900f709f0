import Slate.Applications
import Slate.Library.Commits

/-! Changes of a group's permitted applications on a cluster, as calls that run at once.
The group and the cluster are given by ID. -/

namespace Slate
open Library

inductive ApplicationRequest where
  | allowVoToUseApplication (appName : String)
  | denyGroupUseOfApplication (appName : String)
  deriving DecidableEq, Repr

/-- Where a call stands: it reads the set, from the cache or the table, then writes the
table, then the cache. -/
inductive ApplicationCall where
  | ready
  | reading (request : ApplicationRequest)
  | querying (request : ApplicationRequest)
  | filling (request : ApplicationRequest) (applications : Finset String)
  | writing (request : ApplicationRequest) (applications : Finset String)
  | caching (request : ApplicationRequest) (allowed : Finset String)
  | changed (request : ApplicationRequest) (done : Bool)
  deriving DecidableEq

namespace ApplicationRequest

def appName : ApplicationRequest → String
  | allowVoToUseApplication appName => appName
  | denyGroupUseOfApplication appName => appName

/-- The set that the request makes of another, and how it is stored. -/
def update (applications : Finset String) : ApplicationRequest → Option (Finset String × Finset String)
  | allowVoToUseApplication appName =>
    let allowed := allowApplication applications (applicationNamed appName)
    some (allowed, allowed)
  | denyGroupUseOfApplication appName =>
    (denyApplication applications (applicationNamed appName)).map fun allowed => (allowed, markEmpty allowed)

def run (groupID cID : String) : ApplicationRequest → StoreM Bool
  | allowVoToUseApplication appName => Slate.allowVoToUseApplication groupID cID appName
  | denyGroupUseOfApplication appName => Slate.denyGroupUseOfApplication groupID cID appName

end ApplicationRequest

namespace ApplicationCall

def begin : ApplicationRequest → ApplicationCall := reading

/-- A call begins once. -/
def idle : ApplicationCall → Bool
  | ready => true
  | _ => false

section
variable (groupID cID : String)

def piece : ApplicationCall → StoreM ApplicationCall
  | reading request => do
    match ← applicationsCached groupID cID with
    | some applications => return writing request applications
    | none => return querying request
  | querying request => do
    match ← applicationsQuery groupID cID with
    | none => return writing request ∅
    | some applications => return filling request applications
  | filling request applications => do
    cacheApplications groupID cID applications
    return writing request applications
  | writing request applications =>
    match request.update applications with
    | none => return changed request false
    | some (allowed, stored) => do
      unless ← Slate.request do
        return changed request false
      putApplications groupID cID stored
      return caching request allowed
  | caching request allowed => do
    cacheApplications groupID cID allowed
    return changed request true
  | finished => return finished

def conclude (request : ApplicationRequest) (applications : Finset String) : StoreM Bool :=
  match request.update applications with
  | none => return false
  | some (allowed, stored) => storeApplications groupID cID allowed stored

def remaining : ApplicationCall → StoreM Bool
  | ready => return false
  | reading request => readApplications groupID cID >>= conclude groupID cID request
  | querying request => queryApplications groupID cID >>= conclude groupID cID request
  | filling request applications => do
    cacheApplications groupID cID applications
    conclude groupID cID request applications
  | writing request applications => conclude groupID cID request applications
  | caching _ allowed => do
    cacheApplications groupID cID allowed
    return true
  | changed _ done => return done

theorem remaining_piece (call : ApplicationCall) :
    remaining groupID cID call = piece groupID cID call >>= remaining groupID cID := by
  cases call with
  | ready => rfl
  | reading request =>
    simp only [piece, remaining, readApplications, bind_assoc]
    refine bind_congr fun cached => ?_
    cases cached with
    | none => rfl
    | some applications => simp only [pure_bind, remaining]
  | querying request =>
    simp only [piece, remaining, queryApplications, bind_assoc]
    refine bind_congr fun found => ?_
    cases found with
    | none => rfl
    | some applications => simp only [pure_bind, bind_assoc, remaining]
  | filling request applications =>
    simp only [piece, remaining, bind_assoc, pure_bind]
  | writing request applications =>
    simp only [piece, remaining, conclude]
    cases request.update applications with
    | none => rfl
    | some sets =>
      simp only [storeApplications, bind_assoc]
      refine bind_congr fun succeeded => ?_
      cases succeeded with
      | false => rfl
      | true => simp only [if_true, bind_assoc, pure_bind, remaining]
  | caching request allowed =>
    simp only [piece, remaining, bind_assoc, pure_bind]
  | changed request done => rfl

end
end ApplicationCall

/-- Any number of calls about one group and one cluster. -/
def applicationSystem (groupID cID : String) : System Server ApplicationRequest ApplicationCall :=
  .ofPieces ApplicationCall.idle .begin (ApplicationCall.piece groupID cID)

end Slate
