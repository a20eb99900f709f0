import Slate.Memberships
import Slate.Library.Interleaving

/-! Decisions, additions and removals of members as calls that run at once. Between
the steps of one call, each of which touches the shared state once, any other call
may move. Groups are given by ID. -/

namespace Slate
open Library

inductive MembershipRequest where
  | userInGroup (uID groupID : String)
  | addUserToGroup (uID groupID : String)
  | removeUserFromGroup (uID groupID : String)
  deriving DecidableEq, Repr

/-- Where a call stands: what it has to do next and what it knows. -/
inductive MembershipCall where
  | ready
  | looking (uID groupID : String)
  | querying (uID groupID : String)
  | confirmed (uID groupID : String)
  | decided (uID groupID : String) (answer : Bool)
  | adding (uID groupID : String)
  | putting (uID groupID : String) (group : Group) (user : User)
  | cachingMember (uID groupID : String) (group : Group) (user : User)
  | cachingGroup (uID groupID : String) (group : Group) (user : User)
  | added (uID groupID : String) (done : Bool)
  | removing (uID groupID : String)
  | forgettingGroup (uID groupID : String)
  | deleting (uID groupID : String)
  | removed (uID groupID : String) (done : Bool)
  deriving DecidableEq, Repr

namespace MembershipCall

def begin : MembershipRequest → MembershipCall
  | .userInGroup uID groupID => looking uID groupID
  | .addUserToGroup uID groupID => adding uID groupID
  | .removeUserFromGroup uID groupID => removing uID groupID

def idle : MembershipCall → Bool
  | ready => true
  | decided _ _ _ => true
  | added _ _ _ => true
  | removed _ _ _ => true
  | _ => false

/-- The next step of a call. The reads before a member is added do not concern the
membership, and are one step. -/
def piece : MembershipCall → StoreM MembershipCall
  | looking uID groupID => do
    match ← membershipLookup uID groupID with
    | some answer => return decided uID groupID answer
    | none => return querying uID groupID
  | querying uID groupID => do
    if ← membershipQuery uID groupID then return confirmed uID groupID else return decided uID groupID false
  | confirmed uID groupID => do
    cacheMembership uID groupID
    return decided uID groupID true
  | adding uID groupID => do
    let group ← findGroupByID groupID
    let user ← getUser uID
    return putting uID groupID group user
  | putting uID groupID group user => do
    unless ← request do
      return added uID groupID false
    putMembership uID groupID
    return cachingMember uID groupID group user
  | cachingMember uID groupID group user => do
    cacheMembership uID groupID
    return cachingGroup uID groupID group user
  | cachingGroup uID groupID group user => do
    cacheGroupOfUser user.id group
    return added uID groupID true
  | removing uID groupID => do
    forgetMembership uID groupID
    return forgettingGroup uID groupID
  | forgettingGroup uID groupID => do
    forgetGroupOfUser uID groupID
    return deleting uID groupID
  | deleting uID groupID => do
    unless ← request do
      return removed uID groupID false
    deleteMembership uID groupID
    return removed uID groupID true
  | finished => return finished

/-- What is left of an addition once the group and the user have been read. -/
def storeMember (uID groupID : String) (group : Group) (user : User) : StoreM Bool := do
  unless ← request do
    return false
  putMembership uID groupID
  cacheMembership uID groupID
  cacheGroupOfUser user.id group
  return true

def deleteMember (uID groupID : String) : StoreM Bool := do
  unless ← request do
    return false
  deleteMembership uID groupID
  return true

def remaining : MembershipCall → StoreM Bool
  | ready => return false
  | looking uID groupID => decideMembership uID groupID
  | querying uID groupID => confirmMembership uID groupID
  | confirmed uID groupID => do
    cacheMembership uID groupID
    return true
  | decided _ _ answer => return answer
  | adding uID groupID => do
    let group ← findGroupByID groupID
    let user ← getUser uID
    storeMember uID groupID group user
  | putting uID groupID group user => storeMember uID groupID group user
  | cachingMember uID groupID group user => do
    cacheMembership uID groupID
    cacheGroupOfUser user.id group
    return true
  | cachingGroup _ _ group user => do
    cacheGroupOfUser user.id group
    return true
  | added _ _ done => return done
  | removing uID groupID => do
    forgetMembership uID groupID
    forgetGroupOfUser uID groupID
    deleteMember uID groupID
  | forgettingGroup uID groupID => do
    forgetGroupOfUser uID groupID
    deleteMember uID groupID
  | deleting uID groupID => deleteMember uID groupID
  | removed _ _ done => return done

end MembershipCall

def membershipSystem : System Server MembershipRequest MembershipCall :=
  .ofPieces MembershipCall.idle MembershipCall.begin MembershipCall.piece

def MembershipRequest.method : MembershipRequest → StoreM Bool
  | .userInGroup uID groupID => Slate.userInGroup uID groupID
  | .addUserToGroup uID groupID => Slate.addUserToGroup uID groupID
  | .removeUserFromGroup uID groupID => Slate.removeUserFromGroup uID groupID

def MembershipRequest.groupID : MembershipRequest → String
  | .userInGroup _ groupID => groupID
  | .addUserToGroup _ groupID => groupID
  | .removeUserFromGroup _ groupID => groupID

theorem MembershipCall.remaining_begin (request : MembershipRequest)
    (known : startsWith groupIDPrefix request.groupID = true) :
    (MembershipCall.begin request).remaining = request.method := by
  cases request with
  | userInGroup uID groupID =>
    have given : normalizeGroupID groupID false = return some groupID := normalizeGroupID_known known
    simp only [MembershipRequest.method, userInGroup, given, pure_bind]
    rfl
  | addUserToGroup uID groupID =>
    have given : normalizeGroupID groupID false = return some groupID := normalizeGroupID_known known
    simp only [MembershipRequest.method, addUserToGroup, given, pure_bind]
    rfl
  | removeUserFromGroup uID groupID =>
    have given : normalizeGroupID groupID false = return some groupID := normalizeGroupID_known known
    simp only [MembershipRequest.method, removeUserFromGroup, given, pure_bind]
    rfl

theorem MembershipCall.remaining_moves (call : MembershipCall) (busy : call.idle = false) :
    call.remaining = call.piece >>= remaining := by
  cases call with
  | ready => cases busy
  | decided => cases busy
  | added => cases busy
  | removed => cases busy
  | looking uID groupID =>
    simp only [piece, bind_assoc]
    refine bind_congr fun found => ?_
    cases found <;> rfl
  | querying uID groupID =>
    simp only [piece, bind_assoc]
    refine bind_congr fun found => ?_
    cases found <;> rfl
  | putting uID groupID group user =>
    simp only [piece, bind_assoc]
    refine bind_congr fun succeeded => ?_
    cases succeeded <;> simp [remaining]
  | deleting uID groupID =>
    simp only [piece, bind_assoc]
    refine bind_congr fun succeeded => ?_
    cases succeeded <;> simp [remaining]
  | _ => simp [remaining, piece]

/-- A call that runs alone does what its method does. -/
theorem membershipCall_alone {request : MembershipRequest} (known : startsWith groupIDPrefix request.groupID = true)
    {server after : Server} {call : MembershipCall}
    (alone : membershipSystem.Alone (.begin request, server) (call, after)) :
    request.method server = call.remaining after := by
  rw [← MembershipCall.remaining_begin request known]
  exact System.alone_remaining MembershipCall.remaining_moves alone

end Slate
