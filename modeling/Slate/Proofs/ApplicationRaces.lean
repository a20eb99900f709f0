import Slate.ApplicationCalls
import Slate.Proofs.ApplicationPermissions
import Mathlib.Data.List.Permutation

/-! Changes of permitted applications that run at once: when none of them is lost. -/

namespace Slate
open Library

namespace ApplicationRequest

def effect : ApplicationRequest → Allowance → Option Allowance
  | allowVoToUseApplication appName, allowance => some (allowance.allow appName)
  | denyGroupUseOfApplication appName, allowance => allowance.deny appName

/-- A call that runs alone is the operation. -/
theorem run_eq_remaining {groupID cID : String} (guest : Guest groupID) (formed : ClusterID cID) (request : ApplicationRequest) :
    request.run groupID cID = (ApplicationCall.begin request).remaining groupID cID := by
  have resolved : ∀ next : String → String → StoreM Bool, withNormalized groupID cID true next = next groupID cID := by
    intro next
    unfold withNormalized
    rw [normalizeGroupID_guest guest, normalizeClusterID_known formed.1]
    rfl
  have listed : listApplicationsGroupMayUseOnCluster groupID cID = readApplications groupID cID := by
    unfold listApplicationsGroupMayUseOnCluster
    rw [normalizeGroupID_guest guest, normalizeClusterID_known formed.1]
    rfl
  cases request with
  | allowVoToUseApplication appName => simp only [run, Slate.allowVoToUseApplication, resolved, listed]; rfl
  | denyGroupUseOfApplication appName =>
    simp only [run, Slate.denyGroupUseOfApplication, resolved, listed]
    refine bind_congr fun names => ?_
    simp only [ApplicationCall.conclude, update]
    cases denyApplication names (applicationNamed appName) <;> rfl

/-- What the request makes of a set stands for its effect, unless the marker is allowed. -/
theorem update_effect {request : ApplicationRequest} {names allowed stored : Finset String} (plain : noneMarker ∉ names)
    (other : request.appName ≠ noneMarker) (updated : request.update names = some (allowed, stored)) :
    noneMarker ∉ allowed ∧ applicationsOfItem (some stored) = allowed ∧
      request.effect (.ofNames names) = some (.ofNames allowed) := by
  cases request with
  | allowVoToUseApplication appName =>
    cases updated
    have outside : noneMarker ∉ allowApplication names (applicationNamed appName) := by
      rw [noneMarker_mem_allowApplication plain]
      exact other
    exact ⟨outside, applicationsOfItem_some outside, congrArg some (ofNames_allowApplication names appName).symm⟩
  | denyGroupUseOfApplication appName =>
    obtain ⟨left, denied, same⟩ := Option.map_eq_some_iff.mp updated
    cases same
    have outside := noneMarker_not_mem_denied plain denied
    refine ⟨outside, applicationsOfItem_markEmpty outside, ?_⟩
    have meaning := ofNames_denyApplication names appName
    rw [denied, Option.map_some] at meaning
    exact meaning.symm

end ApplicationRequest

namespace ApplicationCall
variable (groupID cID : String)

/-- The row of the table and the cached record. -/
def row (server : Server) : Option (Finset String) :=
  server.database.applications.lookup (cID, applicationsKey groupID cID)

def record (server : Server) : Option (CacheRecord (Finset String)) :=
  server.clusters.clusterGroupApplicationCache.lookup (applicationsKey groupID cID)

inductive Steps (store : Server) : ApplicationCall → ApplicationCall → Server → Prop where
  | hit {request entry after} (found : record groupID cID store = some entry) (row : row groupID cID after = row groupID cID store)
      (record : record groupID cID after = record groupID cID store) :
      Steps store (reading request) (writing request entry.record) after
  | missed {request after} (row : row groupID cID after = row groupID cID store)
      (record : record groupID cID after = record groupID cID store) :
      Steps store (reading request) (querying request) after
  | found {request after} (row : row groupID cID after = row groupID cID store)
      (record : record groupID cID after = record groupID cID store) :
      Steps store (querying request) (filling request (store.database.applicationsFor groupID cID)) after
  | failed {request after} (row : row groupID cID after = row groupID cID store)
      (record : record groupID cID after = record groupID cID store) :
      Steps store (querying request) (writing request ∅) after
  | filled {request names limit after} (row : row groupID cID after = row groupID cID store)
      (record : record groupID cID after = some ⟨names, limit⟩) :
      Steps store (filling request names) (writing request names) after
  | refused {request names after} (row : row groupID cID after = row groupID cID store)
      (record : record groupID cID after = record groupID cID store) :
      Steps store (writing request names) (changed request false) after
  | written {request names allowed stored after} (updated : request.update names = some (allowed, stored))
      (succeeded : store.outcomes 0 = true) (row : row groupID cID after = some stored)
      (record : record groupID cID after = record groupID cID store) :
      Steps store (writing request names) (caching request allowed) after
  | cached {request allowed limit after} (row : row groupID cID after = row groupID cID store)
      (record : record groupID cID after = some ⟨allowed, limit⟩) :
      Steps store (caching request allowed) (changed request true) after
  | rest {request done after} (row : row groupID cID after = row groupID cID store)
      (record : record groupID cID after = record groupID cID store) :
      Steps store (changed request done) (changed request done) after

variable {groupID cID}

theorem piece_steps {call moved : ApplicationCall} {store after : Server} (busy : call.idle = false)
    (ran : piece groupID cID call store = .ok moved after) : Steps groupID cID store call moved after := by
  suffices yields : Yields (piece groupID cID call) store fun moved after => Steps groupID cID store call moved after from
    yields.of_ok ran
  cases call with
  | ready => cases busy
  | reading request =>
    simp only [piece, applicationsCached, yields_bind, yields_get]
    refine Returns.yields (returns_cached (fun entry found _ => ?_) fun passed same => ?_)
    · exact .hit found rfl rfl
    · rcases same with rfl | rfl <;> exact .missed rfl rfl
  | querying request =>
    simp only [piece, applicationsQuery, yields_bind, yields_request, yields_ite, yields_pure, yields_get]
    split
    next => exact .found rfl rfl
    next => exact .failed rfl rfl
  | filling request names =>
    simp only [piece, cacheApplications, yields_bind, yields_lasting, yields_modify, yields_pure]
    exact .filled rfl ((FiniteMap.lookup_insert _ _ _ _).trans (if_pos rfl))
  | writing request names =>
    simp only [piece]
    cases updated : request.update names with
    | none => exact .refused rfl rfl
    | some sets =>
      simp only [putApplications, yields_bind, yields_request, yields_ite, yields_pure, yields_modify]
      split
      next succeeded => exact .written updated succeeded ((FiniteMap.lookup_insert _ _ _ _).trans (if_pos rfl)) rfl
      next => exact .refused rfl rfl
  | caching request allowed =>
    simp only [piece, cacheApplications, yields_bind, yields_lasting, yields_modify, yields_pure]
    exact .cached rfl ((FiniteMap.lookup_insert _ _ _ _).trans (if_pos rfl))
  | changed request done => exact .rest rfl rfl

def inHand : ApplicationCall → Option (Finset String)
  | filling _ names => some names
  | writing _ names => some names
  | caching _ allowed => some allowed
  | _ => none

def asked : ApplicationCall → Option ApplicationRequest
  | ready => none
  | reading request => some request
  | querying request => some request
  | filling request _ => some request
  | writing request _ => some request
  | caching request _ => some request
  | changed request _ => some request

def written : ApplicationCall → Bool
  | caching _ _ => true
  | changed _ done => done
  | _ => false

end ApplicationCall

section
variable (groupID cID : String)

/-- The permission in the table, and the calls that change it. -/
def applicationCommits : Commits Server ApplicationRequest ApplicationCall Allowance where
  value := fun server => server.database.allowance groupID cID
  effect := ApplicationRequest.effect
  operation := ApplicationCall.asked
  committed := ApplicationCall.written

/-- A call that writes the table read what it still holds, as far as the request is
concerned, and does not allow the marker; a call that writes the cache puts in what the
table holds. -/
def ApplicationsUndisturbed : Event ApplicationRequest → Pool Server ApplicationCall → Prop
  | .start _ _, _ => True
  | .advance call, pool =>
    match pool.calls call with
    | .writing request names => (request.update names).isSome → pool.store.outcomes 0 = true →
      request.appName ≠ noneMarker ∧
        request.effect (.ofNames names) = request.effect (pool.store.database.allowance groupID cID)
    | .filling _ names => names = pool.store.database.applicationsFor groupID cID
    | .caching _ allowed => allowed = pool.store.database.applicationsFor groupID cID
    | _ => True

/-- No set has the marker in it. The cache agrees with the table, unless a call is about to
write the cache, and has a record when a change is complete. -/
structure ApplicationsOrderly (pool : Pool Server ApplicationCall) : Prop where
  hands : ∀ call names, (pool.calls call).inHand = some names → noneMarker ∉ names
  record : ∀ entry, ApplicationCall.record groupID cID pool.store = some entry → noneMarker ∉ entry.record
  agrees : (∃ call request allowed, pool.calls call = .caching request allowed) ∨
    ∀ entry, ApplicationCall.record groupID cID pool.store = some entry →
      entry.record = pool.store.database.applicationsFor groupID cID
  present : ∀ call request, pool.calls call = .changed request true →
    (ApplicationCall.record groupID cID pool.store).isSome
end

variable {groupID cID : String} {pool after : Pool Server ApplicationCall} {call : Nat}

private theorem applicationCommits_begins : (applicationCommits groupID cID).Begins (applicationSystem groupID cID) where
  idle := by
    intro call waiting
    cases call with
    | ready => exact ⟨rfl, rfl⟩
    | _ => cases waiting
  fresh := fun _ => ⟨rfl, rfl⟩

theorem applicationsFor_of_row {before after : Server}
    (same : ApplicationCall.row groupID cID after = ApplicationCall.row groupID cID before) :
    after.database.applicationsFor groupID cID = before.database.applicationsFor groupID cID :=
  congrArg applicationsOfItem same

section Steps
variable {moved : ApplicationCall} (orderly : ApplicationsOrderly groupID cID pool)
  (others : ∀ other, other ≠ call → after.calls other = pool.calls other) (moves : after.calls call = moved)
include orderly others moves

/-- A step that leaves the row and the record alone. -/
theorem ApplicationsOrderly.passes {current : ApplicationCall} (stands : pool.calls call = current)
    (row : ApplicationCall.row groupID cID after.store = ApplicationCall.row groupID cID pool.store)
    (record : ApplicationCall.record groupID cID after.store = ApplicationCall.record groupID cID pool.store)
    (hand : ∀ names, moved.inHand = some names → noneMarker ∉ names)
    (idle : ∀ request allowed, current ≠ .caching request allowed)
    (done : ∀ request, moved = .changed request true → current = .changed request true) :
    ApplicationsOrderly groupID cID after := by
  subst stands moves
  refine ⟨?_, ?_, ?_, ?_⟩
  · intro other names held
    by_cases same : other = call
    · exact hand names (same ▸ held)
    · exact orderly.hands other names (others other same ▸ held)
  · exact fun entry found => orderly.record entry (record ▸ found)
  · rcases orderly.agrees with ⟨other, request, allowed, busy⟩ | agrees
    · have different : other ≠ call := by
        rintro rfl
        exact idle request allowed busy
      exact .inl ⟨other, request, allowed, (others other different).trans busy⟩
    · refine .inr fun entry found => ?_
      rw [applicationsFor_of_row row]
      exact agrees entry (record ▸ found)
  · intro other request complete
    rw [record]
    by_cases same : other = call
    · subst same
      exact orderly.present other request (done request complete)
    · exact orderly.present other request ((others other same).symm.trans complete)

/-- A step that writes what the table holds to the cache. -/
theorem ApplicationsOrderly.caches {names : Finset String} {limit : Time}
    (row : ApplicationCall.row groupID cID after.store = ApplicationCall.row groupID cID pool.store)
    (record : ApplicationCall.record groupID cID after.store = some ⟨names, limit⟩)
    (held : names = pool.store.database.applicationsFor groupID cID)
    (hand : ∀ mine, moved.inHand = some mine → mine = names) : ApplicationsOrderly groupID cID after := by
  subst moves
  have plain : noneMarker ∉ names := held ▸ noneMarker_not_mem_item _
  refine ⟨?_, ?_, .inr ?_, ?_⟩
  · intro other mine known
    by_cases same : other = call
    · rw [hand mine (same ▸ known)]
      exact plain
    · exact orderly.hands other mine (others other same ▸ known)
  · intro entry found
    rw [record] at found
    cases found
    exact plain
  · intro entry found
    rw [record] at found
    cases found
    rw [applicationsFor_of_row row]
    exact held
  · intro _ _ _
    rw [record]
    rfl

/-- A step that writes the table; the cache follows. -/
theorem ApplicationsOrderly.writes {request : ApplicationRequest} {allowed : Finset String}
    (caching : moved = .caching request allowed)
    (record : ApplicationCall.record groupID cID after.store = ApplicationCall.record groupID cID pool.store)
    (plain : noneMarker ∉ allowed) : ApplicationsOrderly groupID cID after := by
  subst caching
  refine ⟨?_, fun entry found => orderly.record entry (record ▸ found), .inl ⟨call, request, allowed, moves⟩, ?_⟩
  · intro other names held
    by_cases same : other = call
    · rw [same, moves] at held
      cases held
      exact plain
    · exact orderly.hands other names (others other same ▸ held)
  · intro other asked complete
    rw [record]
    by_cases same : other = call
    · rw [same, moves] at complete
      cases complete
    · exact orderly.present other asked ((others other same).symm.trans complete)

end Steps

/-- What a step of a call keeps, and what it commits. -/
theorem applications_step (stepped : (applicationSystem groupID cID).step (.advance call) pool = some after)
    (undisturbed : ApplicationsUndisturbed groupID cID (.advance call) pool) (orderly : ApplicationsOrderly groupID cID pool) :
    ApplicationsOrderly groupID cID after ∧ (after.calls call).asked = (pool.calls call).asked ∧
      (applicationCommits groupID cID).Steps (after.calls call) after.store (pool.calls call) pool.store := by
  obtain ⟨advanced, others⟩ := System.step_moved stepped
  obtain ⟨busy, ran⟩ := System.advance_ofPieces advanced
  have steps := ApplicationCall.piece_steps busy ran
  have hands := orderly.hands call
  simp only [ApplicationsUndisturbed] at undisturbed
  have value : ApplicationCall.row groupID cID after.store = ApplicationCall.row groupID cID pool.store →
      after.store.database.allowance groupID cID = pool.store.database.allowance groupID cID :=
    fun row => congrArg Allowance.ofNames (applicationsFor_of_row row)
  generalize moves : after.calls call = moved at steps
  generalize stands : pool.calls call = current at steps hands undisturbed
  cases steps with
  | hit found row record =>
    refine ⟨orderly.passes others moves stands row record ?_ nofun nofun, rfl, .quiet (value row) rfl⟩
    rintro _ ⟨⟩
    exact orderly.record _ found
  | missed row record =>
    exact ⟨orderly.passes others moves stands row record nofun nofun nofun, rfl, .quiet (value row) rfl⟩
  | found row record =>
    refine ⟨orderly.passes others moves stands row record ?_ nofun nofun, rfl, .quiet (value row) rfl⟩
    rintro _ ⟨⟩
    exact noneMarker_not_mem_item _
  | failed row record =>
    refine ⟨orderly.passes others moves stands row record ?_ nofun nofun, rfl, .quiet (value row) rfl⟩
    rintro _ ⟨⟩
    exact Finset.notMem_empty _
  | filled row record =>
    refine ⟨orderly.caches others moves row record undisturbed ?_, rfl, .quiet (value row) rfl⟩
    rintro _ ⟨⟩
    rfl
  | refused row record =>
    exact ⟨orderly.passes others moves stands row record nofun nofun nofun, rfl, .quiet (value row) rfl⟩
  | written updated succeeded row record =>
    obtain ⟨other, same⟩ := undisturbed (by rw [updated]; rfl) succeeded
    obtain ⟨plain, stored, effect⟩ := ApplicationRequest.update_effect (hands _ rfl) other updated
    refine ⟨orderly.writes others moves rfl record plain, rfl, .commit _ rfl rfl rfl ?_⟩
    have left : after.store.database.applicationsFor groupID cID = _ := (congrArg applicationsOfItem row).trans stored
    change ApplicationRequest.effect _ (pool.store.database.allowance groupID cID) =
      some (.ofNames (after.store.database.applicationsFor groupID cID))
    rw [left, ← same, effect]
  | cached row record =>
    exact ⟨orderly.caches others moves row record undisturbed nofun, rfl, .quiet (value row) rfl⟩
  | rest row record =>
    exact ⟨orderly.passes others moves stands row record nofun nofun fun _ same => same, rfl, .quiet (value row) rfl⟩

private theorem applications_started {request : ApplicationRequest}
    (stepped : (applicationSystem groupID cID).step (.start call request) pool = some after)
    (orderly : ApplicationsOrderly groupID cID pool) : ApplicationsOrderly groupID cID after := by
  obtain ⟨waiting, -⟩ := System.step_start stepped
  obtain ⟨store, mine, others⟩ := System.step_started stepped
  have ready : pool.calls call = .ready := by
    generalize pool.calls call = current at waiting
    cases current with
    | ready => rfl
    | _ => cases waiting
  have row : ApplicationCall.row groupID cID after.store = ApplicationCall.row groupID cID pool.store := by rw [store]
  have record : ApplicationCall.record groupID cID after.store = ApplicationCall.record groupID cID pool.store := by rw [store]
  exact orderly.passes others mine ready row record nofun nofun nofun

/-- When every call has returned true and none was disturbed, the permission in the table
is the outcome of the requests in some order, and the cache agrees with the table. -/
theorem application_updates_kept {events : List (Event ApplicationRequest)} {start final : Pool Server ApplicationCall}
    (ready : ∀ call, start.calls call = .ready)
    (agrees : ∀ entry, ApplicationCall.record groupID cID start.store = some entry →
      entry.record = start.store.database.applicationsFor groupID cID)
    (ran : (applicationSystem groupID cID).run events start = some final)
    (undisturbed : (applicationSystem groupID cID).Meets (ApplicationsUndisturbed groupID cID) events start)
    (returned : ∀ call, final.calls call = .ready ∨ ∃ request, final.calls call = .changed request true) :
    (∃ order : List ApplicationRequest, order.Perm ((begun events).map Prod.snd) ∧
      order.foldlM (fun allowance request => ApplicationRequest.effect request allowance)
        (start.store.database.allowance groupID cID) = some (final.store.database.allowance groupID cID)) ∧
    (∀ entry, ApplicationCall.record groupID cID final.store = some entry →
      entry.record = final.store.database.applicationsFor groupID cID) ∧
    ∀ call request, final.calls call = .changed request true → (ApplicationCall.record groupID cID final.store).isSome := by
  have orderly : ApplicationsOrderly groupID cID start := by
    refine ⟨?_, ?_, .inr agrees, ?_⟩
    · intro call names held
      rw [ready] at held
      cases held
    · intro entry found
      rw [agrees entry found]
      exact noneMarker_not_mem_item _
    · intro call request complete
      rw [ready] at complete
      cases complete
  have preserves : ∀ event before after, (applicationSystem groupID cID).step event before = some after →
      ApplicationsUndisturbed groupID cID event before → ApplicationsOrderly groupID cID before →
      ApplicationsOrderly groupID cID after := by
    intro event before after stepped careful holds
    cases event with
    | start call request => exact applications_started stepped holds
    | advance call => exact (applications_step stepped careful holds).1
  refine ⟨?_, ?_⟩
  · refine Commits.serializable applicationCommits_begins ran undisturbed ?_ ?_ orderly preserves ?_ ?_
    · intro call
      rw [ready]
      rfl
    · intro call
      rw [ready]
      rfl
    · exact fun call before after stepped careful holds => (applications_step stepped careful holds).2
    · intro call request asked
      rcases returned call with unused | ⟨_, done⟩
      · rw [unused] at asked
        cases asked
      · rw [done]
        rfl
  · have last := System.run_meets ran undisturbed orderly preserves
    refine ⟨last.agrees.resolve_left ?_, last.present⟩
    rintro ⟨call, request, allowed, busy⟩
    rcases returned call with unused | ⟨_, done⟩
    · cases busy.symm.trans unused
    · cases busy.symm.trans done

/-- Nothing is recorded about a group's applications on a cluster, so that all are allowed. -/
def applicationPool : Pool Server ApplicationCall := { store := {}, calls := fun _ => .ready }

def applicationsInTurn : List (Event ApplicationRequest) :=
  [.start 0 (.allowVoToUseApplication "nginx"), .advance 0, .advance 0, .advance 0, .advance 0, .advance 0,
    .start 1 (.allowVoToUseApplication "redis"), .advance 1, .advance 1, .advance 1]

def applicationsKept : Pool Server ApplicationCall :=
  ((applicationSystem "group_1" "cluster_1").run applicationsInTurn applicationPool).getD applicationPool

theorem application_updates_kept_run :
    ∃ order : List ApplicationRequest,
      order.Perm [.allowVoToUseApplication "nginx", .allowVoToUseApplication "redis"] ∧
      order.foldlM (fun allowance request => ApplicationRequest.effect request allowance) .universal =
        some (applicationsKept.store.database.allowance "group_1" "cluster_1") := by
  have ran : (applicationSystem "group_1" "cluster_1").run applicationsInTurn applicationPool = some applicationsKept := rfl
  have undisturbed : (applicationSystem "group_1" "cluster_1").Meets (ApplicationsUndisturbed "group_1" "cluster_1")
      applicationsInTurn applicationPool := by
    refine ⟨trivial, fun after stepped => ?_⟩
    cases stepped
    refine ⟨trivial, fun after stepped => ?_⟩
    cases stepped
    refine ⟨trivial, fun after stepped => ?_⟩
    cases stepped
    refine ⟨rfl, fun after stepped => ?_⟩
    cases stepped
    refine ⟨fun _ _ => ⟨by decide, rfl⟩, fun after stepped => ?_⟩
    cases stepped
    refine ⟨rfl, fun after stepped => ?_⟩
    cases stepped
    refine ⟨trivial, fun after stepped => ?_⟩
    cases stepped
    refine ⟨trivial, fun after stepped => ?_⟩
    cases stepped
    refine ⟨fun _ _ => ⟨by decide, by decide⟩, fun after stepped => ?_⟩
    cases stepped
    exact ⟨rfl, fun _ _ => trivial⟩
  have returned : ∀ call, applicationsKept.calls call = .ready ∨
      ∃ request, applicationsKept.calls call = .changed request true := by
    intro call
    match call with
    | 0 => exact .inr ⟨_, rfl⟩
    | 1 => exact .inr ⟨_, rfl⟩
    | _ + 2 => exact .inl rfl
  have agrees : ∀ entry, ApplicationCall.record "group_1" "cluster_1" applicationPool.store = some entry →
      entry.record = applicationPool.store.database.applicationsFor "group_1" "cluster_1" := by
    intro entry found
    cases found
  exact (application_updates_kept (fun _ => rfl) agrees ran undisturbed returned).1

/-- Both calls read the set before either writes it. -/
def applicationsAtOnce : List (Event ApplicationRequest) :=
  [.start 0 (.allowVoToUseApplication "nginx"), .advance 0, .advance 0, .advance 0,
    .start 1 (.allowVoToUseApplication "redis"), .advance 1, .advance 0, .advance 0, .advance 1, .advance 1]

/-- Both calls return true, but only the later application is allowed in the end. -/
theorem application_update_lost :
    ∃ final, (applicationSystem "group_1" "cluster_1").run applicationsAtOnce applicationPool = some final ∧
      (final.calls 0 = .changed (.allowVoToUseApplication "nginx") true ∧
        final.calls 1 = .changed (.allowVoToUseApplication "redis") true) ∧
      ¬ ∃ order : List ApplicationRequest,
        order.Perm [.allowVoToUseApplication "nginx", .allowVoToUseApplication "redis"] ∧
        order.foldlM (fun allowance request => ApplicationRequest.effect request allowance) .universal =
          some (final.store.database.allowance "group_1" "cluster_1") := by
  refine ⟨_, rfl, ⟨rfl, rfl⟩, ?_⟩
  rintro ⟨order, permuted, outcome⟩
  have result : order.foldlM (fun allowance request => ApplicationRequest.effect request allowance) .universal =
      some (.specific {"redis"}) := outcome
  rcases List.perm_pair.mp permuted with rfl | rfl
  · exact absurd result (by decide)
  · exact absurd result (by decide)

end Slate
