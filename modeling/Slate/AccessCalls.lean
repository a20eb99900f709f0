import Slate.Access
import Slate.Library.Interleaving

/-! Decisions about access to clusters, and granting and revoking it, as calls that
run at once. Groups and clusters are given by ID. -/

namespace Slate
open Library

inductive AccessRequest where
  | groupAllowedOnCluster (groupID cID : String)
  | addGroupToCluster (groupID cID : String)
  | removeGroupFromCluster (groupID cID : String)
  deriving DecidableEq, Repr

/-- Where a call stands. A decision first deals with the wildcard, up to having
learned whether the table has it, and then with the group in the same way. -/
inductive AccessCall where
  | ready
  | deciding (groupID cID : String)
  | doubting (groupID cID : String)
  | asking (groupID cID : String)
  | learned (groupID cID : String) (present : Bool)
  | looking (groupID cID : String)
  | missing (groupID cID : String)
  | querying (groupID cID : String)
  | found (groupID cID : String) (present : Bool)
  | decided (groupID cID : String) (answer : Bool)
  | granting (groupID cID : String)
  | putting (groupID cID : String)
  | caching (groupID cID : String)
  | granted (groupID cID : String) (done : Bool)
  | revoking (groupID cID : String)
  | deleting (groupID cID : String)
  | marking (groupID cID : String)
  | revoked (groupID cID : String) (done : Bool)
  deriving DecidableEq, Repr

namespace AccessCall

def begin : AccessRequest → AccessCall
  | .groupAllowedOnCluster groupID cID => deciding groupID cID
  | .addGroupToCluster groupID cID => granting groupID cID
  | .removeGroupFromCluster groupID cID => revoking groupID cID

def idle : AccessCall → Bool
  | ready => true
  | decided _ _ _ => true
  | granted _ _ _ => true
  | revoked _ _ _ => true
  | _ => false

def cacheFinding (groupID cID : String) (present : Bool) : StoreM Unit :=
  cacheAccess cID (if present then groupID else negativeMarker groupID)

def piece : AccessCall → StoreM AccessCall
  | deciding groupID cID => do
    match ← accessCached cID wildcard with
    | some record => if ← record.current then return decided groupID cID true else return looking groupID cID
    | none => return doubting groupID cID
  | doubting groupID cID => do
    match ← accessCached cID (negativeMarker wildcard) with
    | some _ => return looking groupID cID
    | none => return asking groupID cID
  | asking groupID cID => do
    match ← accessQuery wildcard cID with
    | none => return looking groupID cID
    | some present => return learned groupID cID present
  | learned groupID cID present => do
    cacheFinding wildcard cID present
    if present then return decided groupID cID true else return looking groupID cID
  | looking groupID cID => do
    match ← accessCached cID groupID with
    | some _ => return decided groupID cID true
    | none => return missing groupID cID
  | missing groupID cID => do
    match ← accessCached cID (negativeMarker groupID) with
    | some _ => return decided groupID cID false
    | none => return querying groupID cID
  | querying groupID cID => do
    match ← accessQuery groupID cID with
    | none => return decided groupID cID false
    | some present => return found groupID cID present
  | found groupID cID present => do
    cacheFinding groupID cID present
    return decided groupID cID present
  | granting groupID cID => do
    forgetAccess cID (negativeMarker groupID)
    return putting groupID cID
  | putting groupID cID => do
    unless ← request do
      return granted groupID cID false
    putAccess groupID cID
    return caching groupID cID
  | caching groupID cID => do
    cacheAccess cID groupID
    return granted groupID cID true
  | revoking groupID cID => do
    forgetAccess cID groupID
    return deleting groupID cID
  | deleting groupID cID => do
    unless ← request do
      return revoked groupID cID false
    deleteAccess groupID cID
    return marking groupID cID
  | marking groupID cID => do
    cacheAccess cID (negativeMarker groupID)
    return revoked groupID cID true
  | finished => return finished

/-- What is left of a decision when the cache says nothing about the group having
access. -/
def refuseOrQuery (groupID cID : String) : StoreM Bool := do
  if let some _ ← accessCached cID (negativeMarker groupID) then
    return false
  queryAccess groupID cID

/-- What is left of a decision when not every group has access. -/
def decideGroup (groupID cID : String) : StoreM Bool := do
  if let some _ ← accessCached cID groupID then
    return true
  refuseOrQuery groupID cID

def remaining : AccessCall → StoreM Bool
  | ready => return false
  | deciding groupID cID => decideAccess groupID cID
  | doubting groupID cID => do
    if ← refuseOrQuery wildcard cID then
      return true
    decideGroup groupID cID
  | asking groupID cID => do
    if ← queryAccess wildcard cID then
      return true
    decideGroup groupID cID
  | learned groupID cID present => do
    cacheFinding wildcard cID present
    if present then
      return true
    decideGroup groupID cID
  | looking groupID cID => decideGroup groupID cID
  | missing groupID cID => refuseOrQuery groupID cID
  | querying groupID cID => queryAccess groupID cID
  | found groupID cID present => do
    cacheFinding groupID cID present
    return present
  | decided _ _ answer => return answer
  | granting groupID cID => grantAccess groupID cID
  | putting groupID cID => do
    unless ← request do
      return false
    putAccess groupID cID
    cacheAccess cID groupID
    return true
  | caching groupID cID => do
    cacheAccess cID groupID
    return true
  | granted _ _ done => return done
  | revoking groupID cID => revokeAccess groupID cID
  | deleting groupID cID => do
    unless ← request do
      return false
    deleteAccess groupID cID
    cacheAccess cID (negativeMarker groupID)
    return true
  | marking groupID cID => do
    cacheAccess cID (negativeMarker groupID)
    return true
  | revoked _ _ done => return done

end AccessCall

def accessSystem : System Server AccessRequest AccessCall :=
  .ofPieces AccessCall.idle AccessCall.begin AccessCall.piece

def AccessRequest.method : AccessRequest → StoreM Bool
  | .groupAllowedOnCluster groupID cID => Slate.groupAllowedOnCluster groupID cID
  | .addGroupToCluster groupID cID => Slate.addGroupToCluster groupID cID
  | .removeGroupFromCluster groupID cID => Slate.removeGroupFromCluster groupID cID

/-- The cluster and the group are given by ID; access may be granted to and revoked
from all groups. -/
def AccessRequest.Known : AccessRequest → Prop
  | .groupAllowedOnCluster groupID cID => startsWith groupIDPrefix groupID = true ∧ startsWith clusterIDPrefix cID = true
  | .addGroupToCluster groupID cID =>
    (groupID = wildcard ∨ startsWith groupIDPrefix groupID = true) ∧ startsWith clusterIDPrefix cID = true
  | .removeGroupFromCluster groupID cID =>
    (groupID = wildcard ∨ startsWith groupIDPrefix groupID = true) ∧ startsWith clusterIDPrefix cID = true

theorem withNormalized_known {groupID cID : String} {allowWildcard : Bool} {next : String → String → StoreM Bool}
    (group : allowWildcard = true ∧ groupID = wildcard ∨ startsWith groupIDPrefix groupID = true)
    (cluster : startsWith clusterIDPrefix cID = true) : withNormalized groupID cID allowWildcard next = next groupID cID := by
  have normalized : normalizeGroupID groupID allowWildcard = return some groupID := by
    unfold normalizeGroupID
    obtain ⟨rfl, rfl⟩ | known := group
    · simp
    · have notWildcard : groupID ≠ wildcard := fun same => absurd known (by rw [same]; decide)
      have notName : groupID ≠ wildcardName := fun same => absurd known (by rw [same]; decide)
      cases allowWildcard <;> simp [known, notWildcard, notName]
  simp only [withNormalized, normalized, normalizeClusterID_known cluster, pure_bind]

theorem AccessCall.remaining_begin (request : AccessRequest) (known : request.Known) :
    (AccessCall.begin request).remaining = request.method := by
  cases request with
  | groupAllowedOnCluster groupID cID =>
    rw [AccessRequest.method, Slate.groupAllowedOnCluster, withNormalized_known (.inr known.1) known.2]
    rfl
  | addGroupToCluster groupID cID =>
    rw [AccessRequest.method, Slate.addGroupToCluster,
      withNormalized_known (known.1.imp_left fun same => ⟨rfl, same⟩) known.2]
    rfl
  | removeGroupFromCluster groupID cID =>
    rw [AccessRequest.method, Slate.removeGroupFromCluster,
      withNormalized_known (known.1.imp_left fun same => ⟨rfl, same⟩) known.2]
    rfl

theorem AccessCall.remaining_moves (call : AccessCall) (busy : call.idle = false) :
    call.remaining = call.piece >>= remaining := by
  cases call with
  | ready => cases busy
  | decided => cases busy
  | granted => cases busy
  | revoked => cases busy
  | deciding groupID cID =>
    simp only [remaining, decideAccess, clusterAllowsAllGroups, piece, bind_assoc]
    refine bind_congr fun record => ?_
    cases record with
    | none =>
      simp only [pure_bind, remaining, refuseOrQuery, bind_assoc]
      rfl
    | some record =>
      simp only [bind_assoc]
      refine bind_congr fun valid => ?_
      cases valid <;> rfl
  | doubting groupID cID =>
    simp only [remaining, refuseOrQuery, piece, bind_assoc]
    refine bind_congr fun marker => ?_
    cases marker <;> rfl
  | asking groupID cID =>
    simp only [remaining, queryAccess, piece, bind_assoc]
    refine bind_congr fun answer => ?_
    cases answer with
    | none => rfl
    | some present =>
      simp only [pure_bind, remaining, cacheFinding, bind_assoc]
  | learned groupID cID present =>
    simp only [remaining, piece, bind_assoc]
    refine bind_congr fun _ => ?_
    cases present <;> rfl
  | looking groupID cID =>
    simp only [remaining, decideGroup, piece, bind_assoc]
    refine bind_congr fun record => ?_
    cases record <;> rfl
  | missing groupID cID =>
    simp only [remaining, refuseOrQuery, piece, bind_assoc]
    refine bind_congr fun marker => ?_
    cases marker <;> rfl
  | querying groupID cID =>
    simp only [remaining, queryAccess, piece, bind_assoc]
    refine bind_congr fun answer => ?_
    cases answer <;> rfl
  | putting groupID cID =>
    simp only [remaining, piece, bind_assoc]
    refine bind_congr fun succeeded => ?_
    cases succeeded <;> simp [remaining]
  | deleting groupID cID =>
    simp only [remaining, piece, bind_assoc]
    refine bind_congr fun succeeded => ?_
    cases succeeded <;> simp [remaining]
  | found groupID cID present => simp [remaining, piece]
  | granting groupID cID => simp [remaining, piece, grantAccess]
  | caching groupID cID => simp [remaining, piece]
  | revoking groupID cID => simp [remaining, piece, revokeAccess]
  | marking groupID cID => simp [remaining, piece]

/-- A call that runs alone does what its method does. -/
theorem accessCall_alone {request : AccessRequest} (known : request.Known) {server after : Server} {call : AccessCall}
    (alone : accessSystem.Alone (.begin request, server) (call, after)) :
    request.method server = call.remaining after := by
  rw [← AccessCall.remaining_begin request known]
  exact System.alone_remaining AccessCall.remaining_moves alone

end Slate
