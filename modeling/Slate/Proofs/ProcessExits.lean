import Slate.Processes

/-! No child exit is lost, and every handle tells the status of its own child, as long as
no signal comes between the last call to waitpid and the clearing of the flag, PIDs are
not given out again too early, moves end before the child is reaped, and a record does not
outlive the handle's hold on its child. -/

namespace Slate
open Library

namespace Processes

def recordedLife (reaper : Reaper) (child : ChildId) : Option Life → Option UInt8
  | some (.reaped ending _) => if reaper = .recording child ending then none else some ending.exitStatus
  | _ => none

/-- The exit status of a child that the reaper is done with. -/
def recorded (state : Processes) (child : ChildId) : Option UInt8 :=
  recordedLife state.reaper child (state.children.lookup child)

def named (state : Processes) (pid : Nat) : Option (Option Address) := (state.processTable.lookup pid).map ProcessRecord.handle

/-- No child has exited and is left unreaped after its signal. -/
def NoLostExit (state : Processes) : Prop :=
  ¬ ∃ child ending, state.children.lookup child = some (.exited ending true) ∧ state.reapFlag = false ∧
    (state.reaper = .idle ∨ state.reaper = .clearing)

/-- A handle that is in use tells the status of its child as soon as the reaper is done with it, and no other. -/
def StatusesRight (state : Processes) : Prop :=
  ∀ handle held child, state.handles.lookup handle = some held → state.busy handle = false →
    held.child = some child → held.exitStatus = state.recorded child

/-- What is written to the handle that a record names is the status of its child, or no
child's while no other child is being moved from it. -/
def Belongs (state : Processes) (child : ChildId) (handle : Address) : Prop :=
  (∀ held other, state.handles.lookup handle = some held → held.child = some other → other = child) ∧
  ∀ target held other, state.ongoing.lookup target = some (.moving handle) →
    state.handles.lookup target = some held → held.child = some other → other = child

end Processes

open Processes

/-- An action that loses no exit. -/
def Harmless : ProcessAction → Processes → Prop
  | .handleSIGCHLD child, state =>
    state.reaper = .clearing → ∀ ending, state.children.lookup child ≠ some (.exited ending false)
  | .fork child _, state =>
    state.processTable.lookup child.pid = none ∧ ∀ other ending, state.reaper = .recording other ending → other.pid ≠ child.pid
  | .updateRecord handle, state =>
    ∀ held child, state.handles.lookup handle = some held → held.child = some child →
      state.processTable.lookup child.pid ≠ none
  | .recordStatus, state =>
    ∀ child ending record handle, state.reaper = .recording child ending →
      state.processTable.lookup child.pid = some record → record.handle = some handle → state.Belongs child handle
  | _, _ => True

/-- The flag is up while there is something to reap whose signal came. -/
structure Noticed (state : Processes) : Prop where
  flagged : state.reaper ≠ .idle → state.reapFlag = true
  signaled : ∀ child ending, state.children.lookup child = some (.exited ending true) →
    state.reapFlag = true ∧ state.reaper ≠ .clearing
  recording : ∀ child ending, state.reaper = .recording child ending →
    ∃ signaled, state.children.lookup child = some (.reaped ending signaled)

/-- What a handle and the table hold of a child, at every stage of the handle. -/
def Right (state : Processes) (handle : Address) (held : ProcessHandle) (child : ChildId) : Prop :=
  match state.ongoing.lookup handle with
  | none => held.exitStatus = state.recorded child ∧
    (state.recorded child = none → state.named child.pid = some (some handle))
  | some .constructing => held.exitStatus = none ∧
    state.processTable.lookup child.pid = (state.recorded child).map fun status => { exitStatus := status }
  | some (.moving other) => ∃ source, state.handles.lookup other = some source ∧ source.child = none ∧
    state.ongoing.lookup other = none ∧ source.exitStatus = state.recorded child ∧
    (state.recorded child = none → state.named child.pid = some (some other))

def Designates (state : Processes) (handle : Address) (child : ChildId) : Prop :=
  ∃ held, state.handles.lookup handle = some held ∧ held.child = some child

/-- The table has or will have a record for the child. -/
def Held (state : Processes) (child : ChildId) : Prop :=
  (state.children.lookup child).isSome ∧ (state.recorded child = none ∨
    ∃ handle, state.ongoing.lookup handle = some .constructing ∧ Designates state handle child)

structure Tracked (state : Processes) : Prop where
  known : ∀ handle child, Designates state handle child → (state.children.lookup child).isSome
  single : ∀ handle other child, Designates state handle child → Designates state other child → handle = other
  pids : ∀ child other, Held state child → Held state other → child.pid = other.pid → child = other
  ongoing : ∀ handle operation, state.ongoing.lookup handle = some operation → ∃ child, Designates state handle child
  sources : ∀ handle other source, state.ongoing.lookup handle = some (.moving source) →
    state.ongoing.lookup other = some (.moving source) → handle = other
  right : ∀ handle held child, state.handles.lookup handle = some held → held.child = some child →
    Right state handle held child

private theorem Noticed.noLostExit {state : Processes} (noticed : Noticed state) : NoLostExit state := by
  rintro ⟨child, ending, exited, cleared, -⟩
  have flagged := (noticed.signaled child ending exited).1
  rw [cleared] at flagged
  cases flagged

private theorem Tracked.statusesRight {state : Processes} (tracked : Tracked state) : StatusesRight state := by
  intro handle held child found unused designates
  have right := tracked.right handle held child found designates
  have settled : state.ongoing.lookup handle = none := by
    simp only [busy, Bool.or_eq_false_iff, Option.isSome_eq_false_iff, Option.isNone_iff_eq_none] at unused
    exact unused.1
  rw [Right, settled] at right
  exact right.1

private theorem noticed_start : Noticed {} where
  flagged idle := absurd rfl idle
  signaled _ _ found := by simp at found
  recording _ _ found := by cases found

private theorem tracked_start : Tracked {} where
  known _ _ := by simp [Designates]
  single _ _ _ := by simp [Designates]
  pids _ _ held := by
    have known := held.1
    simp at known
  ongoing _ _ found := by simp at found
  sources _ _ _ found := by simp at found
  right _ _ _ found := by simp at found

variable {state after : Processes} {child : ChildId} {handle other : Address} {held : ProcessHandle}

structure Unseen (state after : Processes) : Prop where
  recorded : ∀ child, after.recorded child = state.recorded child
  known : ∀ child, (after.children.lookup child).isSome = (state.children.lookup child).isSome
  handles : after.handles = state.handles
  ongoing : after.ongoing = state.ongoing
  processTable : after.processTable = state.processTable

theorem Tracked.unseen (tracked : Tracked state) (unseen : Unseen state after) : Tracked after where
  known handle child := by
    rw [Designates, unseen.handles, unseen.known]
    exact tracked.known handle child
  single handle other child := by
    simp only [Designates, unseen.handles]
    exact tracked.single handle other child
  pids child other := by
    simp only [Held, Designates, unseen.known, unseen.recorded, unseen.ongoing, unseen.handles]
    exact tracked.pids child other
  ongoing handle operation := by
    simp only [Designates, unseen.ongoing, unseen.handles]
    exact tracked.ongoing handle operation
  sources handle other source := by
    rw [unseen.ongoing]
    exact tracked.sources handle other source
  right handle held child found designates := by
    rw [unseen.handles] at found
    have right := tracked.right handle held child found designates
    simp only [Right, named, unseen.handles, unseen.ongoing, unseen.processTable, unseen.recorded] at right ⊢
    exact right

/-- What holds of one handle is left alone by steps that are about others. -/
theorem Right.elsewhere (right : Right state handle held child) (recorded : after.recorded child = state.recorded child)
    (ongoing : after.ongoing.lookup handle = state.ongoing.lookup handle)
    (table : after.processTable.lookup child.pid = state.processTable.lookup child.pid ∨
      (state.recorded child ≠ none ∧ state.ongoing.lookup handle ≠ some .constructing))
    (source : ∀ other, state.ongoing.lookup handle = some (.moving other) →
      after.handles.lookup other = state.handles.lookup other ∧ after.ongoing.lookup other = state.ongoing.lookup other) :
    Right after handle held child := by
  rw [Right, ongoing]
  rw [Right] at right
  rcases stage : state.ongoing.lookup handle with _ | _ | other <;> rw [stage] at right
  · refine ⟨right.1.trans recorded.symm, fun unrecorded => ?_⟩
    rw [recorded] at unrecorded
    rcases table with same | ⟨known, -⟩
    · rw [named, same]
      exact right.2 unrecorded
    · exact absurd unrecorded known
  · refine ⟨right.1, ?_⟩
    rcases table with same | ⟨-, settled⟩
    · rw [same, recorded]
      exact right.2
    · exact absurd stage settled
  · obtain ⟨old, found, none, free, status, record⟩ := right
    obtain ⟨sameHandle, sameOngoing⟩ := source other stage
    refine ⟨old, sameHandle.trans found, none, sameOngoing.trans free, status.trans recorded.symm, fun unrecorded => ?_⟩
    rw [recorded] at unrecorded
    rcases table with same | ⟨known, -⟩
    · rw [named, same]
      exact record unrecorded
    · exact absurd unrecorded known

theorem Unseen.of_life {life later : Life} {flag : Bool} (found : state.children.lookup child = some life)
    (same : recordedLife state.reaper child (some later) = recordedLife state.reaper child (some life)) :
    Unseen state { state with children := state.children.insert child later, reapFlag := flag } where
  recorded other := by
    change recordedLife state.reaper other ((state.children.insert child later).lookup other) = state.recorded other
    rw [FiniteMap.lookup_insert, Processes.recorded]
    split
    next here =>
      subst here
      rw [found]
      exact same
    next => rfl
  known other := by
    rw [FiniteMap.lookup_insert]
    split
    next here =>
      subst here
      rw [found]
      rfl
    next => rfl
  handles := rfl
  ongoing := rfl
  processTable := rfl

theorem Unseen.of_reaper {reaper : Reaper} {flag : Bool} (before : ∀ child ending, state.reaper ≠ .recording child ending)
    (later : ∀ child ending, reaper ≠ .recording child ending) :
    Unseen state { state with reaper, reapFlag := flag } where
  recorded child := by
    change recordedLife reaper child (state.children.lookup child) = recordedLife state.reaper child (state.children.lookup child)
    rcases state.children.lookup child with _ | _ | _ | ⟨ending, signaled⟩
    · rfl
    · rfl
    · rfl
    · rw [recordedLife, recordedLife, if_neg (before child ending), if_neg (later child ending)]
  known _ := rfl
  handles := rfl
  ongoing := rfl
  processTable := rfl

private theorem exit_unseen {ending : Ending} (ran : state.exit child ending = some after) : Unseen state after := by
  rw [exit] at ran
  split at ran
  next found =>
    cases ran
    exact .of_life found rfl
  next => cases ran

private theorem handleSIGCHLD_unseen (ran : state.handleSIGCHLD child = some after) : Unseen state after := by
  rw [handleSIGCHLD] at ran
  split at ran
  next found =>
    cases ran
    exact .of_life found rfl
  next found =>
    cases ran
    exact .of_life found rfl
  next => cases ran

private theorem checkFlag_unseen (ran : state.checkFlag = some after) : Unseen state after := by
  rw [checkFlag] at ran
  split at ran
  next idle =>
    split at ran <;> cases ran
    · exact .of_reaper (by simp [idle]) nofun
    · exact ⟨fun _ => rfl, fun _ => rfl, rfl, rfl, rfl⟩
  next => cases ran

private theorem clearFlag_unseen (ran : state.clearFlag = some after) : Unseen state after := by
  rw [clearFlag] at ran
  split at ran
  next clearing =>
    cases ran
    exact .of_reaper (by simp [clearing]) nofun
  next => cases ran

private theorem waitpid_unseen {found : Option ChildId} (ran : state.waitpid found = some after) : Unseen state after := by
  unfold waitpid at ran
  split at ran
  next waiting =>
    rcases found with _ | child <;> dsimp only at ran <;> split at ran
    next => cases ran
    next =>
      cases ran
      exact .of_reaper (by simp [waiting]) nofun
    next ending signaled exited =>
      cases ran
      refine ⟨fun other => ?_, fun other => ?_, rfl, rfl, rfl⟩
      · change recordedLife (.recording child ending) other
          ((state.children.insert child (.reaped ending signaled)).lookup other) = state.recorded other
        rw [FiniteMap.lookup_insert, Processes.recorded]
        split
        next here =>
          subst here
          rw [exited]
          exact if_pos rfl
        next elsewhere =>
          rcases state.children.lookup other with _ | _ | _ | ⟨ending', signaled'⟩
          · rfl
          · rfl
          · rfl
          · rw [recordedLife, recordedLife, if_neg (by simp [Ne.symm elsewhere]), if_neg (by simp [waiting])]
      · rw [FiniteMap.lookup_insert]
        split
        next here =>
          subst here
          rw [exited]
          rfl
        next => rfl
    next => cases ran
  next => cases ran

private theorem exit_noticed {ending : Ending} (noticed : Noticed state) (ran : state.exit child ending = some after) :
    Noticed after := by
  rw [exit] at ran
  split at ran
  next running =>
    cases ran
    refine ⟨noticed.flagged, fun other ending exited => ?_, fun other ending recording => ?_⟩
    · rw [FiniteMap.lookup_insert] at exited
      split at exited
      next => cases exited
      next => exact noticed.signaled other ending exited
    · obtain ⟨signaled, found⟩ := noticed.recording other ending recording
      rw [FiniteMap.lookup_insert, if_neg]
      · exact ⟨signaled, found⟩
      · rintro rfl
        rw [running] at found
        cases found
  next => cases ran

private theorem handleSIGCHLD_noticed (noticed : Noticed state) (harmless : Harmless (.handleSIGCHLD child) state)
    (ran : state.handleSIGCHLD child = some after) : Noticed after := by
  rw [handleSIGCHLD] at ran
  split at ran
  next ending exited =>
    cases ran
    have early : state.reaper ≠ .clearing := fun clearing => harmless clearing ending exited
    refine ⟨fun _ => rfl, fun other ending found => ⟨rfl, early⟩, fun other ending recording => ?_⟩
    obtain ⟨signaled, found⟩ := noticed.recording other ending recording
    rw [FiniteMap.lookup_insert, if_neg]
    · exact ⟨signaled, found⟩
    · rintro rfl
      rw [exited] at found
      cases found
  next ending reaped =>
    cases ran
    refine ⟨fun _ => rfl, fun other ending found => ⟨rfl, ?_⟩, fun other ending recording => ?_⟩
    · rw [FiniteMap.lookup_insert] at found
      split at found
      next => cases found
      next => exact (noticed.signaled other ending found).2
    · obtain ⟨signaled, found⟩ := noticed.recording other ending recording
      rw [FiniteMap.lookup_insert]
      split
      next here =>
        subst here
        rw [reaped] at found
        cases found
        exact ⟨true, rfl⟩
      next => exact ⟨signaled, found⟩
  next => cases ran

private theorem checkFlag_noticed (noticed : Noticed state) (ran : state.checkFlag = some after) : Noticed after := by
  rw [checkFlag] at ran
  split at ran
  next idle =>
    split at ran <;> cases ran
    next flagged =>
      exact ⟨fun _ => flagged, fun child ending exited => ⟨(noticed.signaled child ending exited).1, nofun⟩, nofun⟩
    next => exact noticed
  next => cases ran

private theorem waitpid_noticed {found : Option ChildId} (noticed : Noticed state) (ran : state.waitpid found = some after) :
    Noticed after := by
  unfold waitpid at ran
  split at ran
  next waiting =>
    rcases found with _ | child <;> dsimp only at ran <;> split at ran
    next => cases ran
    next none =>
      cases ran
      refine ⟨fun _ => noticed.flagged (by simp [waiting]), fun child ending exited => ?_, nofun⟩
      refine absurd ?_ none
      rw [List.any_eq_true]
      exact ⟨_, FiniteMap.mem_values.mpr ⟨child, exited⟩, rfl⟩
    next ending signaled exited =>
      cases ran
      refine ⟨fun _ => noticed.flagged (by simp [waiting]), fun other ending found => ?_, fun other ending recording => ?_⟩
      · rw [FiniteMap.lookup_insert] at found
        split at found
        next => cases found
        next => exact ⟨(noticed.signaled other ending found).1, nofun⟩
      · cases recording
        exact ⟨signaled, by rw [FiniteMap.lookup_insert, if_pos rfl]⟩
    next => cases ran
  next => cases ran

private theorem clearFlag_noticed (noticed : Noticed state) (ran : state.clearFlag = some after) : Noticed after := by
  rw [clearFlag] at ran
  split at ran
  next clearing =>
    cases ran
    exact ⟨fun busy => absurd rfl busy,
      fun child ending exited => absurd clearing (noticed.signaled child ending exited).2, nofun⟩
  next => cases ran

/-- What a step leaves of the children, the flag and the reaper. -/
structure SameChildren (state after : Processes) : Prop where
  children : after.children = state.children
  reapFlag : after.reapFlag = state.reapFlag
  reaper : after.reaper = state.reaper

theorem SameChildren.recorded (same : SameChildren state after) (child : ChildId) :
    after.recorded child = state.recorded child := by
  rw [Processes.recorded, Processes.recorded, same.children, same.reaper]

theorem Noticed.same (noticed : Noticed state) (same : SameChildren state after) : Noticed after := by
  constructor
  · rw [same.reapFlag, same.reaper]
    exact noticed.flagged
  · rw [same.reapFlag, same.reaper, same.children]
    exact noticed.signaled
  · rw [same.reaper, same.children]
    exact noticed.recording

private theorem construct_same (ran : state.construct handle = some after) : SameChildren state after := by
  rw [construct] at ran
  split at ran <;> cases ran
  exact ⟨rfl, rfl, rfl⟩

private theorem detach_same (ran : state.detach handle = some after) : SameChildren state after := by
  rw [detach] at ran
  split at ran
  next =>
    split at ran <;> cases ran
    exact ⟨rfl, rfl, rfl⟩
  next => cases ran

private theorem destroy_same (ran : state.destroy handle = some after) : SameChildren state after := by
  rw [destroy] at ran
  split at ran
  next =>
    split at ran <;> cases ran
    exact ⟨rfl, rfl, rfl⟩
  next => cases ran

private theorem moveConstruct_same {left : Option UInt8} (ran : state.moveConstruct handle other left = some after) :
    SameChildren state after := by
  rw [moveConstruct] at ran
  split at ran
  next =>
    split at ran <;> cases ran
    exact ⟨rfl, rfl, rfl⟩
  next => cases ran

private theorem moveAssign_same (ran : state.moveAssign handle other = some after) : SameChildren state after := by
  rw [moveAssign] at ran
  split at ran
  next =>
    split at ran
    next => cases ran
    next => split at ran <;> cases ran <;> exact ⟨rfl, rfl, rfl⟩
  next => cases ran

theorem not_busy (free : state.busy handle = false) : state.ongoing.lookup handle = none ∧
    ∀ target, state.ongoing.lookup target ≠ some (.moving handle) := by
  simp only [busy, Bool.or_eq_false_iff, Option.isSome_eq_false_iff, Option.isNone_iff_eq_none, List.any_eq_false] at free
  refine ⟨free.1, fun target moving => ?_⟩
  exact free.2 _ (FiniteMap.mem_values.mpr ⟨target, moving⟩) (by simp)

/-- Every handle that designates a child has it from one that designated it before. -/
structure Carried (state after : Processes) (origin : Address → Address) : Prop where
  children : after.children = state.children
  reaper : after.reaper = state.reaper
  carried : ∀ handle child, Designates after handle child → Designates state (origin handle) child
  apart : ∀ handle other child, Designates after handle child → Designates after other child →
    origin handle = origin other → handle = other
  constructing : ∀ handle, after.ongoing.lookup handle = some .constructing →
    state.ongoing.lookup (origin handle) = some .constructing

theorem Carried.recorded {origin : Address → Address} (carried : Carried state after origin) (child : ChildId) :
    after.recorded child = state.recorded child := by
  rw [Processes.recorded, Processes.recorded, carried.children, carried.reaper]

theorem Carried.still {origin : Address → Address} (carried : Carried state after origin) (held : Held after child) :
    Held state child := by
  rw [Held, carried.children, carried.recorded] at held
  exact ⟨held.1, held.2.imp id fun ⟨handle, stage, designates⟩ =>
    ⟨origin handle, carried.constructing handle stage, carried.carried handle child designates⟩⟩

theorem Tracked.carried {origin : Address → Address} (tracked : Tracked state) (carried : Carried state after origin)
    (ongoing : ∀ handle operation, after.ongoing.lookup handle = some operation → ∃ child, Designates after handle child)
    (sources : ∀ handle other source, after.ongoing.lookup handle = some (.moving source) →
      after.ongoing.lookup other = some (.moving source) → handle = other)
    (right : ∀ handle held child, after.handles.lookup handle = some held → held.child = some child →
      Right after handle held child) : Tracked after where
  known handle child designates := by
    rw [carried.children]
    exact tracked.known _ child (carried.carried handle child designates)
  single handle other child designates designates' :=
    carried.apart handle other child designates designates'
      (tracked.single _ _ child (carried.carried handle child designates) (carried.carried other child designates'))
  pids child other held held' := tracked.pids child other (carried.still held) (carried.still held')
  ongoing := ongoing
  sources := sources
  right := right

/-- Children that need the same place in the table are one. -/
theorem Tracked.alone (tracked : Tracked state) {child' : ChildId}
    (designates : Designates state handle child) (designates' : Designates state other child')
    (needs : state.recorded child = none ∨ state.ongoing.lookup handle = some .constructing)
    (needs' : state.recorded child' = none ∨ state.ongoing.lookup other = some .constructing)
    (same : child.pid = child'.pid) : child = child' :=
  tracked.pids child child'
    ⟨tracked.known handle child designates, needs.imp id fun stage => ⟨handle, stage, designates⟩⟩
    ⟨tracked.known other child' designates', needs'.imp id fun stage => ⟨other, stage, designates'⟩⟩ same

/-- A handle that loses its child, or is gone. -/
theorem Tracked.released (tracked : Tracked state) (free : state.busy handle = false)
    (children : after.children = state.children) (reaper : after.reaper = state.reaper)
    (ongoing : after.ongoing = state.ongoing)
    (others : ∀ other, other ≠ handle → after.handles.lookup other = state.handles.lookup other)
    (released : ∀ child, ¬ Designates after handle child)
    (table : ∀ other held child, other ≠ handle → state.handles.lookup other = some held → held.child = some child →
      after.processTable.lookup child.pid = state.processTable.lookup child.pid ∨
        (state.recorded child ≠ none ∧ state.ongoing.lookup other ≠ some .constructing)) : Tracked after := by
  obtain ⟨settled, unmoved⟩ := not_busy free
  have elsewhere {other child} (designates : Designates after other child) : other ≠ handle := by
    rintro rfl
    exact released child designates
  have carried : Carried state after id :=
    { children, reaper
      carried := fun other child designates => by
        obtain ⟨held, found, has⟩ := id designates
        exact ⟨held, (others other (elsewhere designates)).symm.trans found, has⟩
      apart := fun _ _ _ _ _ same => same
      constructing := fun other stage => by rwa [ongoing] at stage }
  refine tracked.carried carried (fun other operation stage => ?_) ?_ fun other held child found designates => ?_
  · rw [ongoing] at stage
    obtain ⟨child, held, found, has⟩ := tracked.ongoing other operation stage
    refine ⟨child, held, ?_, has⟩
    rw [others other]
    · exact found
    · rintro rfl
      rw [settled] at stage
      cases stage
  · rw [ongoing]
    exact tracked.sources
  · have apart : other ≠ handle := elsewhere ⟨held, found, designates⟩
    rw [others other apart] at found
    refine (tracked.right other held child found designates).elsewhere (carried.recorded child) (by rw [ongoing])
      (table other held child apart found designates) fun source stage => ?_
    refine ⟨others source ?_, by rw [ongoing]⟩
    rintro rfl
    exact unmoved other stage

private theorem detach_tracked (tracked : Tracked state) (ran : state.detach handle = some after) : Tracked after := by
  rw [detach] at ran
  split at ran
  next held found =>
    split at ran
    next => cases ran
    next free =>
      cases ran
      refine tracked.released (by simpa using free) rfl rfl rfl (fun other apart => ?_) ?_ fun _ _ _ _ _ _ => .inl rfl
      · rw [FiniteMap.lookup_insert, if_neg apart]
      · rintro child ⟨held', found', has⟩
        rw [FiniteMap.lookup_insert, if_pos rfl] at found'
        cases found'
        cases has
  next => cases ran

/-- A record that names another handle is not the one that a child needs. -/
theorem Right.other_record (right : Right state other held child) {record : ProcessRecord}
    (found : state.processTable.lookup child.pid = some record) (names : record.handle = some handle)
    (apart : other ≠ handle) (unmoved : state.ongoing.lookup other ≠ some (.moving handle)) :
    state.recorded child ≠ none ∧ state.ongoing.lookup other ≠ some .constructing := by
  have named : state.named child.pid = some (some handle) := by rw [Processes.named, found, ← names]; rfl
  rw [Right] at right
  rcases stage : state.ongoing.lookup other with _ | _ | source <;> rw [stage] at right
  · refine ⟨fun unrecorded => ?_, nofun⟩
    have mine := right.2 unrecorded
    rw [named] at mine
    exact apart (Option.some.inj (Option.some.inj mine)).symm
  · have mine := right.2
    rw [found] at mine
    rcases recorded : state.recorded child with _ | status <;> rw [recorded] at mine
    · cases mine
    · cases mine
      cases names
  · obtain ⟨-, -, -, -, -, mine⟩ := right
    refine ⟨fun unrecorded => ?_, nofun⟩
    have mine := mine unrecorded
    rw [named] at mine
    rw [stage, ← Option.some.inj (Option.some.inj mine)] at unmoved
    exact unmoved rfl

private theorem destroy_tracked (tracked : Tracked state) (ran : state.destroy handle = some after) : Tracked after := by
  rw [destroy] at ran
  split at ran
  next held found =>
    split at ran
    next => cases ran
    next free =>
      cases ran
      have unused : state.busy handle = false := by simpa using free
      refine tracked.released unused rfl rfl rfl (fun other apart => ?_) ?_ fun other held' child apart found' has => ?_
      · rw [FiniteMap.lookup_erase, if_neg apart]
      · rintro child ⟨held', found', -⟩
        rw [FiniteMap.lookup_erase, if_pos rfl] at found'
        cases found'
      · dsimp only
        split
        next own hasOwn =>
          split
          next record recordFound =>
            split
            next names =>
              by_cases same : child.pid = own.pid
              · rw [← same] at recordFound
                exact .inr ((tracked.right other held' child found' has).other_record recordFound names apart
                  ((not_busy unused).2 other))
              · refine .inl ?_
                split
                · rw [FiniteMap.lookup_erase, if_neg same]
                · rw [FiniteMap.lookup_insert, if_neg same]
            next => exact .inl rfl
          next => exact .inl rfl
        next => exact .inl rfl
  next => cases ran

/-- An address without a handle is not at work. -/
theorem Tracked.fresh (tracked : Tracked state) (absent : state.handles.lookup handle = none) : state.busy handle = false := by
  simp only [busy, Bool.or_eq_false_iff, Option.isSome_eq_false_iff, Option.isNone_iff_eq_none, List.any_eq_false]
  constructor
  · rw [Option.eq_none_iff_forall_ne_some]
    intro operation stage
    obtain ⟨child, held, found, -⟩ := tracked.ongoing handle operation stage
    rw [absent] at found
    cases found
  · intro operation member moving
    obtain ⟨target, stage⟩ := FiniteMap.mem_values.mp member
    obtain rfl : operation = .moving handle := by simpa using moving
    obtain ⟨child, held, found, has⟩ := tracked.ongoing target _ stage
    have right := tracked.right target held child found has
    rw [Right, stage] at right
    obtain ⟨source, present, -⟩ := right
    rw [absent] at present
    cases present

private theorem construct_tracked (tracked : Tracked state) (ran : state.construct handle = some after) : Tracked after := by
  rw [construct] at ran
  split at ran
  next absent =>
    cases ran
    refine tracked.released (tracked.fresh (Option.isNone_iff_eq_none.mp absent)) rfl rfl rfl (fun other apart => ?_) ?_
      fun _ _ _ _ _ _ => .inl rfl
    · rw [FiniteMap.lookup_insert, if_neg apart]
    · rintro child ⟨held, found, has⟩
      rw [FiniteMap.lookup_insert, if_pos rfl] at found
      cases found
      cases has
  next => cases ran

/-- The end of a construction or of a move. -/
theorem Tracked.settle (tracked : Tracked state) {operation : Ongoing} {status : Option UInt8}
    (stage : state.ongoing.lookup handle = some operation) (children : after.children = state.children)
    (reaper : after.reaper = state.reaper) (ongoing : after.ongoing = state.ongoing.erase handle)
    (others : ∀ other, other ≠ handle → after.handles.lookup other = state.handles.lookup other)
    (own : after.handles.lookup handle = some ⟨some child, status⟩) (designates : Designates state handle child)
    (table : ∀ other held child, other ≠ handle → state.handles.lookup other = some held → held.child = some child →
      after.processTable.lookup child.pid = state.processTable.lookup child.pid ∨
        (state.recorded child ≠ none ∧ state.ongoing.lookup other ≠ some .constructing))
    (right : Right after handle ⟨some child, status⟩ child) : Tracked after := by
  have left (other) : after.ongoing.lookup other = if other = handle then none else state.ongoing.lookup other := by
    rw [ongoing, FiniteMap.lookup_erase]
  have remains {other operation} (found : after.ongoing.lookup other = some operation) :
      other ≠ handle ∧ state.ongoing.lookup other = some operation := by
    rw [left] at found
    split at found
    next => cases found
    next apart => exact ⟨apart, found⟩
  have before {other child'} (has : Designates after other child') : Designates state other child' := by
    by_cases here : other = handle
    · subst here
      obtain ⟨held, found, has⟩ := has
      rw [own] at found
      cases found
      cases has
      exact designates
    · obtain ⟨held, found, has⟩ := has
      exact ⟨held, (others other here).symm.trans found, has⟩
  have carried : Carried state after id :=
    { children, reaper
      carried := fun other child has => before has
      apart := fun _ _ _ _ _ same => same
      constructing := fun other found => (remains found).2 }
  refine tracked.carried carried (fun other operation found => ?_) (fun first second source found found' => ?_)
    fun other held child' found has => ?_
  · obtain ⟨apart, stage⟩ := remains found
    obtain ⟨child, held, present, has⟩ := tracked.ongoing other operation stage
    exact ⟨child, held, (others other apart).trans present, has⟩
  · exact tracked.sources first second source (remains found).2 (remains found').2
  · by_cases here : other = handle
    · subst here
      rw [own] at found
      cases found
      cases has
      exact right
    · rw [others other here] at found
      have earlier := tracked.right other held child' found has
      refine earlier.elsewhere (carried.recorded child') ((left other).trans (if_neg here))
        (table other held child' here found has) fun source moving => ?_
      have apart : source ≠ handle := by
        rintro rfl
        rw [Right, moving] at earlier
        obtain ⟨-, -, -, free, -⟩ := earlier
        rw [stage] at free
        cases free
      exact ⟨others source apart, (left source).trans (if_neg apart)⟩

private theorem register_cases (ran : state.register handle = some after) : ∃ child before,
    state.ongoing.lookup handle = some .constructing ∧ state.handles.lookup handle = some ⟨some child, before⟩ ∧
    SameChildren state after ∧ after.ongoing = state.ongoing.erase handle ∧
    ((∃ record, state.processTable.lookup child.pid = some record ∧
      after.handles = state.handles.insert handle ⟨some child, some record.exitStatus⟩ ∧
      after.processTable = state.processTable.erase child.pid) ∨
    (state.processTable.lookup child.pid = none ∧ after.handles = state.handles ∧
      after.processTable = state.processTable.insert child.pid { handle := some handle })) := by
  rw [register] at ran
  split at ran
  next child before stage found =>
    refine ⟨child, before, stage, found, ?_⟩
    cases ran
    split
    next record present =>
      rw [setExitStatus]
      dsimp only
      rw [found]
      exact ⟨⟨rfl, rfl, rfl⟩, rfl, .inl ⟨record, present, rfl, rfl⟩⟩
    next absent => exact ⟨⟨rfl, rfl, rfl⟩, rfl, .inr ⟨absent, rfl, rfl⟩⟩
  next => cases ran

private theorem register_tracked (tracked : Tracked state) (ran : state.register handle = some after) : Tracked after := by
  obtain ⟨child, before, stage, found, same, ongoing, result⟩ := register_cases ran
  have designates : Designates state handle child := ⟨_, found, rfl⟩
  have right := tracked.right handle _ child found rfl
  rw [Right, stage] at right
  obtain ⟨blank, record⟩ := right
  have settled : after.ongoing.lookup handle = none := by rw [ongoing, FiniteMap.lookup_erase, if_pos rfl]
  -- A child that needs the place in the table is the one whose handle is constructed.
  have taken (other held child') (apart : other ≠ handle) (found' : state.handles.lookup other = some held)
      (has : held.child = some child') (alike : child'.pid = child.pid) :
      state.recorded child' ≠ none ∧ state.ongoing.lookup other ≠ some .constructing := by
    have designates' : Designates state other child' := ⟨held, found', has⟩
    by_contra needs
    rw [not_and_or, not_not, not_not] at needs
    obtain rfl := tracked.alone designates' designates needs (.inr stage) alike
    exact apart (tracked.single other handle child' designates' designates)
  rcases result with ⟨known, present, handles, table⟩ | ⟨absent, handles, table⟩
  · have written : state.recorded child = some known.exitStatus := by
      rw [present] at record
      rcases recorded : state.recorded child with _ | status <;> rw [recorded] at record <;> cases record
      rfl
    have own : after.handles.lookup handle = some ⟨some child, some known.exitStatus⟩ := by
      rw [handles, FiniteMap.lookup_insert, if_pos rfl]
    refine tracked.settle stage same.children same.reaper ongoing (fun other apart => ?_) own designates
      (fun other held child' apart found' has => ?_) ?_
    · rw [handles, FiniteMap.lookup_insert, if_neg apart]
    · by_cases alike : child'.pid = child.pid
      · exact .inr (taken other held child' apart found' has alike)
      · exact .inl (by rw [table, FiniteMap.lookup_erase, if_neg alike])
    · rw [Right, settled]
      dsimp only
      rw [same.recorded, written]
      exact ⟨rfl, nofun⟩
  · have unwritten : state.recorded child = none := by
      rw [absent] at record
      rcases recorded : state.recorded child with _ | status
      · rfl
      · rw [recorded] at record
        cases record
    refine tracked.settle stage same.children same.reaper ongoing (fun other apart => by rw [handles])
      (by rw [handles, found]) designates (fun other held child' apart found' has => ?_) ?_
    · by_cases alike : child'.pid = child.pid
      · exact .inr (taken other held child' apart found' has alike)
      · exact .inl (by rw [table, FiniteMap.lookup_insert, if_neg alike])
    · rw [Right, settled]
      dsimp only
      rw [same.recorded, unwritten]
      refine ⟨blank, fun _ => ?_⟩
      rw [named, table, FiniteMap.lookup_insert, if_pos rfl]
      rfl

private theorem updateRecord_cases (ran : state.updateRecord handle = some after) : ∃ other child before,
    state.ongoing.lookup handle = some (.moving other) ∧ state.handles.lookup handle = some ⟨some child, before⟩ ∧
    SameChildren state after ∧ after.ongoing = state.ongoing.erase handle ∧
    ∀ record source, state.processTable.lookup child.pid = some record → state.handles.lookup other = some source →
      after.handles = state.handles.insert handle ⟨some child, source.exitStatus⟩ ∧
      after.processTable = state.processTable.insert child.pid
        { record with handle := if record.handle = some other then some handle else record.handle } := by
  rw [updateRecord] at ran
  split at ran
  next other child before stage found =>
    refine ⟨other, child, before, stage, found, ?_⟩
    cases ran
    split
    next record source present there =>
      refine ⟨⟨rfl, rfl, rfl⟩, rfl, fun record' source' present' there' => ?_⟩
      cases present.symm.trans present'
      cases there.symm.trans there'
      exact ⟨rfl, rfl⟩
    next missing => exact ⟨⟨rfl, rfl, rfl⟩, rfl, fun record source present there => absurd there (missing record source present)⟩
  next => cases ran

private theorem updateRecord_tracked (tracked : Tracked state) (harmless : Harmless (.updateRecord handle) state)
    (ran : state.updateRecord handle = some after) : Tracked after := by
  obtain ⟨other, child, before, stage, found, same, ongoing, result⟩ := updateRecord_cases ran
  have designates : Designates state handle child := ⟨_, found, rfl⟩
  have right := tracked.right handle _ child found rfl
  rw [Right, stage] at right
  obtain ⟨source, there, bare, free, status, names⟩ := right
  obtain ⟨record, present⟩ := Option.ne_none_iff_exists'.mp (harmless _ child found rfl)
  obtain ⟨handles, table⟩ := result record source present there
  have own : after.handles.lookup handle = some ⟨some child, source.exitStatus⟩ := by
    rw [handles, FiniteMap.lookup_insert, if_pos rfl]
  refine tracked.settle stage same.children same.reaper ongoing (fun third apart => ?_) own designates
    (fun third held child' apart found' has => ?_) ?_
  · rw [handles, FiniteMap.lookup_insert, if_neg apart]
  · rw [table, FiniteMap.lookup_insert]
    by_cases alike : child'.pid = child.pid
    · rw [if_pos alike, alike, present]
      by_cases named : record.handle = some other
      · refine .inr ((tracked.right third held child' found' has).other_record (alike ▸ present) named ?_ ?_)
        · rintro rfl
          rw [there] at found'
          cases found'
          rw [bare] at has
          cases has
        · exact fun moving => apart (tracked.sources third handle other moving stage)
      · exact .inl (by rw [if_neg named])
    · exact .inl (if_neg alike)
  · rw [Right, ongoing, FiniteMap.lookup_erase, if_pos rfl]
    dsimp only
    rw [same.recorded]
    refine ⟨status, fun unrecorded => ?_⟩
    have named := names unrecorded
    rw [Processes.named, present] at named
    rw [Processes.named, table, FiniteMap.lookup_insert, if_pos rfl]
    exact congrArg some (if_pos (Option.some.inj named))

private theorem lookup_passChild {source : ProcessHandle} {before : Option UInt8} (third : Address) :
    (state.passChild handle other source before).handles.lookup third =
      if third = handle then some ⟨source.child, before⟩
      else if third = other then some { source with child := none } else state.handles.lookup third := by
  rw [passChild, FiniteMap.lookup_insert, FiniteMap.lookup_insert]

private theorem ongoing_passChild {source : ProcessHandle} {before : Option UInt8} {third : Address}
    (elsewhere : third ≠ handle) :
    (state.passChild handle other source before).ongoing.lookup third = state.ongoing.lookup third := by
  rw [passChild]
  dsimp only
  split
  · rw [FiniteMap.lookup_insert, if_neg elsewhere]
  · rfl

/-- A handle that takes a child is at work with the move, and the others are at what they were. -/
private theorem passChild_stages {source : ProcessHandle} {before : Option UInt8} {third : Address} {operation : Ongoing}
    (settled : state.ongoing.lookup handle = none) (settled' : state.ongoing.lookup other = none)
    (stage : (state.passChild handle other source before).ongoing.lookup third = some operation) :
    (third = handle ∧ operation = .moving other ∧ source.child.isSome) ∨
      (third ≠ handle ∧ third ≠ other ∧ state.ongoing.lookup third = some operation) := by
  have apart : state.ongoing.lookup third = some operation → third ≠ handle ∧ third ≠ other := by
    intro known
    constructor
    · rintro rfl
      rw [settled] at known
      cases known
    · rintro rfl
      rw [settled'] at known
      cases known
  rw [passChild] at stage
  dsimp only at stage
  split at stage
  next some =>
    rw [FiniteMap.lookup_insert] at stage
    split at stage
    next here => exact .inl ⟨here, (Option.some.inj stage).symm, some⟩
    next => exact .inr ⟨(apart stage).1, (apart stage).2, stage⟩
  next => exact .inr ⟨(apart stage).1, (apart stage).2, stage⟩

private theorem passChild_designates {source : ProcessHandle} {before : Option UInt8} {third : Address} {child : ChildId}
    (designates : Designates (state.passChild handle other source before) third child) :
    (third = handle ∧ source.child = some child) ∨ (third ≠ handle ∧ third ≠ other ∧ Designates state third child) := by
  obtain ⟨held, present, has⟩ := designates
  rw [lookup_passChild] at present
  split at present
  next here =>
    cases present
    exact .inl ⟨here, has⟩
  next elsewhere =>
    split at present
    next =>
      cases present
      cases has
    next away => exact .inr ⟨elsewhere, away, held, present, has⟩

private theorem passChild_carried {source : ProcessHandle} {before : Option UInt8}
    (settled : state.ongoing.lookup handle = none) (settled' : state.ongoing.lookup other = none)
    (found : state.handles.lookup other = some source) :
    Carried state (state.passChild handle other source before) fun third => if third = handle then other else third where
  children := rfl
  reaper := rfl
  carried third child designates := by
    rcases passChild_designates designates with ⟨here, has⟩ | ⟨elsewhere, -, designates⟩
    · rw [if_pos here]
      exact ⟨source, found, has⟩
    · rwa [if_neg elsewhere]
  apart first second child designates designates' same := by
    rcases passChild_designates designates with ⟨here, -⟩ | ⟨elsewhere, away, -⟩ <;>
      rcases passChild_designates designates' with ⟨here', -⟩ | ⟨elsewhere', away', -⟩
    · exact here.trans here'.symm
    · rw [if_pos here, if_neg elsewhere'] at same
      exact absurd same.symm away'
    · rw [if_neg elsewhere, if_pos here'] at same
      exact absurd same away
    · rwa [if_neg elsewhere, if_neg elsewhere'] at same
  constructing third stage := by
    rcases passChild_stages settled settled' stage with ⟨-, moving, -⟩ | ⟨elsewhere, -, stage⟩
    · cases moving
    · rwa [if_neg elsewhere]

private theorem passChild_tracked {source : ProcessHandle} {before : Option UInt8} (tracked : Tracked state)
    (apart : handle ≠ other) (free : state.busy handle = false) (unused : state.busy other = false)
    (found : state.handles.lookup other = some source) : Tracked (state.passChild handle other source before) := by
  obtain ⟨settled, unmoved⟩ := not_busy free
  obtain ⟨settled', unmoved'⟩ := not_busy unused
  refine tracked.carried (passChild_carried settled settled' found) (fun third operation stage => ?_)
    (fun first second third stage stage' => ?_) fun third held child present has => ?_
  · rcases passChild_stages settled settled' stage with ⟨here, -, some⟩ | ⟨elsewhere, away, stage⟩
    · obtain ⟨child, has⟩ := Option.isSome_iff_exists.mp some
      exact ⟨child, _, (lookup_passChild third).trans (if_pos here), has⟩
    · obtain ⟨child, held, present, has⟩ := tracked.ongoing third operation stage
      exact ⟨child, held, ((lookup_passChild third).trans (if_neg elsewhere)).trans ((if_neg away).trans present), has⟩
  · rcases passChild_stages settled settled' stage with ⟨here, moving, -⟩ | ⟨-, -, stage⟩ <;>
      rcases passChild_stages settled settled' stage' with ⟨here', moving', -⟩ | ⟨-, -, stage'⟩
    · exact here.trans here'.symm
    · cases moving
      exact absurd stage' (unmoved' second)
    · cases moving'
      exact absurd stage (unmoved' first)
    · exact tracked.sources first second third stage stage'
  · rcases passChild_designates ⟨held, present, has⟩ with ⟨here, own⟩ | ⟨elsewhere, away, held', found', has'⟩
    · subst here
      have right := tracked.right other source child found own
      rw [Right, settled'] at right
      have stage : (state.passChild third other source before).ongoing.lookup third = some (.moving other) := by
        rw [passChild]
        dsimp only
        rw [own, Option.isSome_some, if_pos rfl, FiniteMap.lookup_insert, if_pos rfl]
      have still : (state.passChild third other source before).ongoing.lookup other = none :=
        (ongoing_passChild apart.symm).trans settled'
      rw [Right, stage]
      exact ⟨{ source with child := none }, by rw [lookup_passChild, if_neg apart.symm, if_pos rfl], rfl, still,
        right.1, right.2⟩
    · rw [lookup_passChild, if_neg elsewhere, if_neg away, found'] at present
      cases present
      refine (tracked.right third _ child found' has').elsewhere rfl (ongoing_passChild elsewhere) (.inl rfl)
        fun fourth moving => ?_
      have notHandle : fourth ≠ handle := by
        rintro rfl
        exact unmoved third moving
      have notOther : fourth ≠ other := by
        rintro rfl
        exact unmoved' third moving
      exact ⟨by rw [lookup_passChild, if_neg notHandle, if_neg notOther], ongoing_passChild notHandle⟩

private theorem moveConstruct_tracked {left : Option UInt8} (tracked : Tracked state)
    (ran : state.moveConstruct handle other left = some after) : Tracked after := by
  rw [moveConstruct] at ran
  split at ran
  next source absent found =>
    split at ran
    next => cases ran
    next unused =>
      cases ran
      refine passChild_tracked tracked ?_ (tracked.fresh absent) (by simpa using unused) found
      rintro rfl
      rw [absent] at found
      cases found
  next => cases ran

private theorem moveAssign_tracked (tracked : Tracked state) (ran : state.moveAssign handle other = some after) : Tracked after := by
  rw [moveAssign] at ran
  split at ran
  next target source present found =>
    split at ran
    next => cases ran
    next free =>
      rw [Bool.or_eq_true, not_or, Bool.not_eq_true, Bool.not_eq_true] at free
      split at ran
      next =>
        cases ran
        exact tracked
      next apart =>
        cases ran
        exact passChild_tracked tracked apart free.1 free.2 found
  next => cases ran

theorem untaken {pid : Nat} (untaken : state.taken pid = false) {life : Life}
    (found : state.children.lookup child = some life) (same : child.pid = pid) : life.isReaped = true := by
  rw [taken, List.any_eq_false] at untaken
  have here := untaken (child, life) (FiniteMap.mem_pairs.mpr found)
  simpa [same] using here

private theorem fork_cases (ran : state.fork child handle = some after) : state.children.lookup child = none ∧
    state.taken child.pid = false ∧ state.handles.lookup handle = none ∧
    after = { state with
      children := state.children.insert child .running
      handles := state.handles.insert handle { child := some child }
      ongoing := state.ongoing.insert handle .constructing } := by
  rw [fork] at ran
  split at ran
  next possible =>
    simp only [Bool.and_eq_true, Option.isNone_iff_eq_none, Bool.not_eq_true'] at possible
    exact ⟨possible.1.1, possible.1.2, possible.2, (Option.some.inj ran).symm⟩
  next => cases ran

private theorem fork_recorded (unknown : state.children.lookup child = none)
    (children : after.children = state.children.insert child .running) (reaper : after.reaper = state.reaper)
    (third : ChildId) : after.recorded third = state.recorded third := by
  rw [Processes.recorded, Processes.recorded, children, reaper, FiniteMap.lookup_insert]
  split
  next here =>
    subst here
    rw [unknown]
    rfl
  next => rfl

private theorem fork_noticed (noticed : Noticed state) (ran : state.fork child handle = some after) : Noticed after := by
  obtain ⟨unknown, -, -, rfl⟩ := fork_cases ran
  refine ⟨noticed.flagged, fun third ending exited => ?_, fun third ending recording => ?_⟩
  · rw [FiniteMap.lookup_insert] at exited
    split at exited
    next => cases exited
    next => exact noticed.signaled third ending exited
  · obtain ⟨signaled, found⟩ := noticed.recording third ending recording
    rw [FiniteMap.lookup_insert, if_neg]
    · exact ⟨signaled, found⟩
    · rintro rfl
      rw [unknown] at found
      cases found

/-- The PID of a new child is not one that the table has or will have a record of. -/
theorem fork_alone (tracked : Tracked state) (harmless : Harmless (.fork child handle) state)
    (free : state.taken child.pid = false) {third : ChildId} (held : Held state third) : third.pid ≠ child.pid := by
  intro same
  obtain ⟨blank, unwritten⟩ := harmless
  obtain ⟨life, found⟩ := Option.isSome_iff_exists.mp held.1
  have reaped := untaken free found same
  have written : state.recorded third ≠ none := by
    rw [Processes.recorded, found]
    rcases life with _ | _ | ⟨ending, signaled⟩
    · cases reaped
    · cases reaped
    · rw [recordedLife, if_neg]
      · nofun
      · exact fun recording => unwritten third ending recording same
  rcases held.2 with unrecorded | ⟨other, stage, held', found', has⟩
  · exact written unrecorded
  · have right := tracked.right other held' third found' has
    rw [Right, stage, same, blank] at right
    have record := right.2
    obtain ⟨status, recorded⟩ := Option.ne_none_iff_exists'.mp written
    rw [recorded] at record
    cases record

private theorem fork_tracked (tracked : Tracked state) (harmless : Harmless (.fork child handle) state)
    (ran : state.fork child handle = some after) : Tracked after := by
  obtain ⟨unknown, free, absent, same⟩ := fork_cases ran
  obtain ⟨settled, unmoved⟩ := not_busy (tracked.fresh absent)
  have recorded := fork_recorded unknown (show after.children = _ by rw [same]) (show after.reaper = state.reaper by rw [same])
  have known (third) : (after.children.lookup third).isSome = true ↔ third = child ∨ (state.children.lookup third).isSome = true := by
    rw [same, FiniteMap.lookup_insert]
    by_cases here : third = child <;> simp [here]
  have handles (other) : after.handles.lookup other =
      if other = handle then some { child := some child } else state.handles.lookup other := by
    rw [same, FiniteMap.lookup_insert]
  have ongoing (other) : after.ongoing.lookup other =
      if other = handle then some .constructing else state.ongoing.lookup other := by
    rw [same, FiniteMap.lookup_insert]
  have table : after.processTable = state.processTable := by rw [same]
  have designated {other third} (designates : Designates after other third) :
      (other = handle ∧ third = child) ∨ (other ≠ handle ∧ Designates state other third) := by
    obtain ⟨held, found, has⟩ := designates
    rw [handles] at found
    split at found
    next here =>
      cases found
      cases has
      exact .inl ⟨here, rfl⟩
    next elsewhere => exact .inr ⟨elsewhere, held, found, has⟩
  have new {other} : ¬ Designates state other child := fun designates => by
    have impossible := tracked.known other child designates
    rw [unknown] at impossible
    cases impossible
  have before {third} (held : Held after third) : third = child ∨ Held state third := by
    rcases (known third).mp held.1 with here | was
    · exact .inl here
    · rcases held.2 with unrecorded | ⟨other, stage, designates⟩
      · exact .inr ⟨was, .inl ((recorded third).symm.trans unrecorded)⟩
      · rcases designated designates with ⟨-, here⟩ | ⟨elsewhere, designates⟩
        · exact .inl here
        · rw [ongoing, if_neg elsewhere] at stage
          exact .inr ⟨was, .inr ⟨other, stage, designates⟩⟩
  constructor
  · intro other third designates
    rw [known]
    exact (designated designates).imp (fun own => own.2) fun earlier => tracked.known other third earlier.2
  · intro first second third designates designates'
    rcases designated designates with ⟨here, rfl⟩ | ⟨-, designates⟩ <;>
      rcases designated designates' with ⟨here', same⟩ | ⟨-, designates'⟩
    · exact here.trans here'.symm
    · exact absurd designates' new
    · exact absurd (same ▸ designates) new
    · exact tracked.single first second third designates designates'
  · intro first second held held' alike
    rcases before held with rfl | held <;> rcases before held' with rfl | held'
    · rfl
    · exact absurd alike.symm (fork_alone tracked harmless free held')
    · exact absurd alike (fork_alone tracked harmless free held)
    · exact tracked.pids first second held held' alike
  · intro other operation stage
    rw [ongoing] at stage
    by_cases here : other = handle
    · exact ⟨child, _, (handles other).trans (if_pos here), rfl⟩
    · rw [if_neg here] at stage
      obtain ⟨third, held, found, has⟩ := tracked.ongoing other operation stage
      exact ⟨third, held, ((handles other).trans (if_neg here)).trans found, has⟩
  · intro first second source stage stage'
    rw [ongoing] at stage stage'
    split at stage
    next => cases stage
    next =>
      split at stage'
      next => cases stage'
      next => exact tracked.sources first second source stage stage'
  · intro other held third found has
    rcases designated ⟨held, found, has⟩ with ⟨here, rfl⟩ | ⟨elsewhere, -⟩
    · rw [handles, if_pos here] at found
      cases found
      rw [Right, ongoing, if_pos here, table, recorded, Processes.recorded, unknown]
      exact ⟨rfl, harmless.1⟩
    · rw [handles, if_neg elsewhere] at found
      refine (tracked.right other held third found has).elsewhere (recorded third) ((ongoing other).trans (if_neg elsewhere))
        (.inl (by rw [table])) fun source moving => ?_
      have apart : source ≠ handle := by
        rintro rfl
        exact unmoved other moving
      exact ⟨(handles source).trans (if_neg apart), (ongoing source).trans (if_neg apart)⟩

/-- What the reaper writes goes to the record of the child, or to the handle that it names. -/
def StatusWritten (state after : Processes) (child : ChildId) (ending : Ending) : Prop :=
  (∃ record, state.processTable.lookup child.pid = some record ∧
      after.processTable = state.processTable.erase child.pid ∧
      ∀ handle, after.handles.lookup handle = if record.handle = some handle then
        (state.handles.lookup handle).map fun held => { held with exitStatus := some ending.exitStatus }
        else state.handles.lookup handle) ∨
    (state.processTable.lookup child.pid = none ∧ after.handles = state.handles ∧
      after.processTable = state.processTable.insert child.pid { exitStatus := ending.exitStatus })

private theorem recordStatus_cases (ran : state.recordStatus = some after) : ∃ child ending,
    state.reaper = .recording child ending ∧ after.children = state.children ∧ after.reapFlag = state.reapFlag ∧
    after.reaper = .waiting ∧ after.ongoing = state.ongoing ∧
    StatusWritten state after child ending := by
  rw [recordStatus] at ran
  split at ran
  next child ending recording =>
    refine ⟨child, ending, recording, ?_⟩
    cases ran
    dsimp only
    split
    next record present =>
      rcases named : record.handle with _ | handle
      · exact ⟨rfl, rfl, rfl, rfl, .inl ⟨record, present, rfl, fun handle => by rw [if_neg (by simp [named])]⟩⟩
      · dsimp only
        rw [setExitStatus]
        split
        next held found =>
          refine ⟨rfl, rfl, rfl, rfl, .inl ⟨record, present, rfl, fun other => ?_⟩⟩
          rw [named, FiniteMap.lookup_insert]
          by_cases here : other = handle
          · subst here
            rw [if_pos rfl, if_pos rfl, found]
            rfl
          · rw [if_neg here, if_neg fun same => here (Option.some.inj same).symm]
        next missing =>
          refine ⟨rfl, rfl, rfl, rfl, .inl ⟨record, present, rfl, fun other => ?_⟩⟩
          rw [named]
          split
          next same =>
            cases same
            rw [missing]
            rfl
          next => rfl
    next absent => exact ⟨rfl, rfl, rfl, rfl, .inr ⟨absent, rfl, rfl⟩⟩
  next => cases ran

private theorem recordStatus_noticed (noticed : Noticed state) (ran : state.recordStatus = some after) : Noticed after := by
  obtain ⟨child, ending, recording, children, flag, reaper, -⟩ := recordStatus_cases ran
  constructor
  · intro _
    rw [flag]
    exact noticed.flagged (by simp [recording])
  · intro other ending' exited
    rw [children] at exited
    rw [flag, reaper]
    exact ⟨(noticed.signaled other ending' exited).1, nofun⟩
  · intro other ending' recording'
    rw [reaper] at recording'
    cases recording'

/-- The child's own handle gets the status, at whatever stage it is. -/
theorem Right.written {old : ProcessHandle} {ending : Ending} (right : Right state handle old child)
    (before : state.handles.lookup handle = some old) (found : after.handles.lookup handle = some held)
    (ongoing : after.ongoing = state.ongoing) (unwritten : state.recorded child = none)
    (written : after.recorded child = some ending.exitStatus)
    (result : StatusWritten state after child ending) :
    Right after handle held child := by
  have names {owner} (named : state.named child.pid = some (some owner)) :
      after.handles.lookup owner =
        (state.handles.lookup owner).map fun held => { held with exitStatus := some ending.exitStatus } := by
    rw [Processes.named] at named
    rcases result with ⟨record, present, -, handles⟩ | ⟨absent, -⟩
    · rw [present] at named
      rw [handles, if_pos (Option.some.inj named)]
    · rw [absent] at named
      cases named
  rw [Right, ongoing, written]
  rw [Right] at right
  rcases stage : state.ongoing.lookup handle with _ | _ | source <;> rw [stage] at right
  · have own := names (right.2 unwritten)
    rw [found, before] at own
    cases own
    exact ⟨rfl, nofun⟩
  · obtain ⟨blank, record⟩ := right
    rw [unwritten] at record
    rcases result with ⟨_, present, -⟩ | ⟨-, handles, table⟩
    · rw [present] at record
      cases record
    · rw [handles, before] at found
      cases found
      refine ⟨blank, ?_⟩
      rw [table, FiniteMap.lookup_insert, if_pos rfl]
      rfl
  · obtain ⟨last, there, bare, free, -, named⟩ := right
    have own := names (named unwritten)
    rw [there] at own
    exact ⟨_, own, bare, ongoing ▸ free, rfl, nofun⟩

private theorem recordStatus_tracked (tracked : Tracked state) (noticed : Noticed state)
    (harmless : Harmless .recordStatus state) (ran : state.recordStatus = some after) : Tracked after := by
  obtain ⟨child, ending, recording, children, flag, reaper, ongoing, result⟩ := recordStatus_cases ran
  obtain ⟨signaled, reaped⟩ := noticed.recording child ending recording
  have unwritten : state.recorded child = none := by
    rw [Processes.recorded, reaped]
    exact if_pos recording
  have written : after.recorded child = some ending.exitStatus := by
    rw [Processes.recorded, children, reaped, reaper, recordedLife, if_neg (by simp)]
  have others {other} (apart : other ≠ child) : after.recorded other = state.recorded other := by
    rw [Processes.recorded, Processes.recorded, children, reaper, recording]
    rcases state.children.lookup other with _ | _ | _ | ⟨ending', signaled'⟩
    · rfl
    · rfl
    · rfl
    · rw [recordedLife, recordedLife, if_neg (by simp), if_neg]
      simp [Ne.symm apart]
  have earlier {handle other} (designates : Designates after handle other) : Designates state handle other := by
    obtain ⟨held, found, has⟩ := designates
    rcases result with ⟨record, -, -, handles⟩ | ⟨-, handles, -⟩
    · rw [handles] at found
      split at found
      next =>
        obtain ⟨old, present, rfl⟩ := Option.map_eq_some_iff.mp found
        exact ⟨old, present, has⟩
      next => exact ⟨held, found, has⟩
    · exact ⟨held, handles ▸ found, has⟩
  have later {handle other} (designates : Designates state handle other) : Designates after handle other := by
    obtain ⟨held, found, has⟩ := designates
    rcases result with ⟨record, -, -, handles⟩ | ⟨-, handles, -⟩
    · by_cases named : record.handle = some handle
      · exact ⟨{ held with exitStatus := some ending.exitStatus }, by rw [handles, if_pos named, found]; rfl, has⟩
      · exact ⟨held, by rw [handles, if_neg named, found], has⟩
    · exact ⟨held, handles.symm ▸ found, has⟩
  have needed {other} (held : Held after other) : Held state other := by
    refine ⟨children ▸ held.1, held.2.imp (fun unrecorded => ?_) fun ⟨handle, stage, designates⟩ => ?_⟩
    · rwa [others] at unrecorded
      rintro rfl
      rw [written] at unrecorded
      cases unrecorded
    · exact ⟨handle, ongoing ▸ stage, earlier designates⟩
  have place {handle other} (designates : Designates state handle other) (apart : other ≠ child) :
      after.processTable.lookup other.pid = state.processTable.lookup other.pid ∨
        (state.recorded other ≠ none ∧ state.ongoing.lookup handle ≠ some .constructing) := by
    by_cases alike : other.pid = child.pid
    · refine .inr ?_
      by_contra needs
      rw [not_and_or, not_not, not_not] at needs
      refine apart (tracked.pids other child ⟨tracked.known handle other designates, ?_⟩ ⟨by rw [reaped]; rfl, .inl unwritten⟩ alike)
      exact needs.imp id fun stage => ⟨handle, stage, designates⟩
    · refine .inl ?_
      rcases result with ⟨record, -, table, -⟩ | ⟨-, -, table⟩
      · rw [table, FiniteMap.lookup_erase, if_neg alike]
      · rw [table, FiniteMap.lookup_insert, if_neg alike]
  refine ⟨fun handle other designates => ?_, fun first second other designates designates' => ?_,
    fun first second held held' => ?_, fun handle operation stage => ?_, ?_, fun handle held other found has => ?_⟩
  · rw [children]
    exact tracked.known handle other (earlier designates)
  · exact tracked.single first second other (earlier designates) (earlier designates')
  · exact tracked.pids first second (needed held) (needed held')
  · obtain ⟨other, designates⟩ := tracked.ongoing handle operation (ongoing ▸ stage)
    exact ⟨other, later designates⟩
  · rw [ongoing]
    exact tracked.sources
  · obtain ⟨old, found', has'⟩ := earlier ⟨held, found, has⟩
    have right := tracked.right handle old other found' has'
    by_cases own : other = child
    · subst own
      exact right.written found' found ongoing unwritten written result
    · have kept : after.handles.lookup handle = state.handles.lookup handle := by
        rcases result with ⟨record, present, -, handles⟩ | ⟨-, handles, -⟩
        · rw [handles, if_neg]
          intro named
          exact own ((harmless child ending record handle recording present named).1 old other found' has')
        · rw [handles]
      rw [kept, found'] at found
      cases found
      refine right.elsewhere (others own) (by rw [ongoing]) (place ⟨_, found', has'⟩ own) fun source moving => ⟨?_, by rw [ongoing]⟩
      rcases result with ⟨record, present, -, handles⟩ | ⟨-, handles, -⟩
      · rw [handles, if_neg]
        intro named
        exact own ((harmless child ending record source recording present named).2 handle _ other moving found' has')
      · rw [handles]

/-- One action that loses no exit. -/
theorem perform_keeps {action : ProcessAction} (harmless : Harmless action state) (ran : action.perform state = some after)
    (kept : Noticed state ∧ Tracked state) : Noticed after ∧ Tracked after := by
  obtain ⟨noticed, tracked⟩ := kept
  cases action with
  | fork child handle => exact ⟨fork_noticed noticed ran, fork_tracked tracked harmless ran⟩
  | exit child ending => exact ⟨exit_noticed noticed ran, tracked.unseen (exit_unseen ran)⟩
  | handleSIGCHLD child =>
    exact ⟨handleSIGCHLD_noticed noticed harmless ran, tracked.unseen (handleSIGCHLD_unseen ran)⟩
  | checkFlag => exact ⟨checkFlag_noticed noticed ran, tracked.unseen (checkFlag_unseen ran)⟩
  | waitpid found => exact ⟨waitpid_noticed noticed ran, tracked.unseen (waitpid_unseen ran)⟩
  | recordStatus => exact ⟨recordStatus_noticed noticed ran, recordStatus_tracked tracked noticed harmless ran⟩
  | clearFlag => exact ⟨clearFlag_noticed noticed ran, tracked.unseen (clearFlag_unseen ran)⟩
  | register handle =>
    obtain ⟨-, -, -, -, same, -⟩ := register_cases ran
    exact ⟨noticed.same same, register_tracked tracked ran⟩
  | construct handle => exact ⟨noticed.same (construct_same ran), construct_tracked tracked ran⟩
  | moveConstruct handle other left => exact ⟨noticed.same (moveConstruct_same ran), moveConstruct_tracked tracked ran⟩
  | moveAssign handle other => exact ⟨noticed.same (moveAssign_same ran), moveAssign_tracked tracked ran⟩
  | updateRecord handle =>
    obtain ⟨-, -, -, -, -, same, -⟩ := updateRecord_cases ran
    exact ⟨noticed.same same, updateRecord_tracked tracked harmless ran⟩
  | detach handle => exact ⟨noticed.same (detach_same ran), detach_tracked tracked ran⟩
  | destroy handle => exact ⟨noticed.same (destroy_same ran), destroy_tracked tracked ran⟩

/-- In every run of harmless actions, no child that has exited is left unreaped after its
signal, and every handle that is in use tells the status of its own child from when the
reaper has recorded it, and none before. -/
theorem exits_kept : ∀ state, Reached ProcessAction.perform Harmless {} state → NoLostExit state ∧ StatusesRight state := by
  intro state reached
  have kept : Noticed state ∧ Tracked state := reached.keeps ⟨noticed_start, tracked_start⟩
    fun _ _ _ harmless ran kept => perform_keeps harmless ran kept
  exact ⟨kept.1.noLostExit, kept.2.statusesRight⟩

def firstChild : ChildId := ⟨100, 0⟩

def secondChild : ChildId := ⟨101, 1⟩

def runProcesses (actions : List ProcessAction) : Option Processes :=
  actions.foldlM (fun state action => action.perform state) {}

def oneExit : List ProcessAction :=
  [.fork firstChild 1, .register 1, .moveConstruct 2 1 none, .updateRecord 2, .exit firstChild (.exited 3),
    .handleSIGCHLD firstChild, .checkFlag, .waitpid (some firstChild), .recordStatus, .waitpid none, .clearFlag]

theorem harmless_step (reached : Reached ProcessAction.perform Harmless {} state) (action : ProcessAction)
    (harmless : Harmless action state) (ran : action.perform state = some after) :
    Reached ProcessAction.perform Harmless {} after :=
  reached.step action harmless ran

private theorem oneExit_reached : ∃ state, runProcesses oneExit = some state ∧ Reached ProcessAction.perform Harmless {} state := by
  have forked := harmless_step .start (.fork firstChild 1) ⟨rfl, nofun⟩ rfl
  have registered := harmless_step forked (.register 1) trivial rfl
  have moving := harmless_step registered (.moveConstruct 2 1 none) trivial rfl
  have moved := harmless_step moving (.updateRecord 2) (by
    rintro held child found has
    cases found
    cases has
    nofun) rfl
  have exited := harmless_step moved (.exit firstChild (.exited 3)) trivial rfl
  have signaled := harmless_step exited (.handleSIGCHLD firstChild) nofun rfl
  have checked := harmless_step signaled .checkFlag trivial rfl
  have waited := harmless_step checked (.waitpid (some firstChild)) trivial rfl
  have recorded := harmless_step waited .recordStatus (by
    rintro child ending record handle recording found named
    cases recording
    cases found
    cases named
    refine ⟨fun held other found has => ?_, fun target held other stage => ?_⟩
    · cases found
      cases has
      rfl
    · cases stage) rfl
  have none := harmless_step recorded (.waitpid none) trivial rfl
  have cleared := harmless_step none .clearFlag trivial rfl
  exact ⟨_, rfl, cleared⟩

/-- A child whose handle is moved, and that is reaped after that. -/
theorem exits_kept_once : ∃ state, runProcesses oneExit = some state ∧ (NoLostExit state ∧ StatusesRight state) ∧
    state.handles.lookup 2 = some ⟨some firstChild, some 3⟩ := by
  obtain ⟨state, ran, reached⟩ := oneExit_reached
  refine ⟨state, ran, exits_kept state reached, ?_⟩
  cases ran
  rfl

/-- The second child exits between the last call to waitpid and the clearing of the flag. -/
def exitUnseen : List ProcessAction :=
  [.fork firstChild 1, .register 1, .fork secondChild 2, .register 2, .exit firstChild (.exited 3),
    .handleSIGCHLD firstChild, .checkFlag, .waitpid (some firstChild), .recordStatus, .waitpid none,
    .exit secondChild (.exited 4), .handleSIGCHLD secondChild, .clearFlag]

/-- A handle is moved after its child was reaped. -/
def movedLate : List ProcessAction :=
  [.fork firstChild 1, .register 1, .exit firstChild (.exited 3), .handleSIGCHLD firstChild, .checkFlag,
    .waitpid (some firstChild), .recordStatus, .moveConstruct 2 1 none, .updateRecord 2]

/-- A handle is assigned another child while the record of its own still names it. -/
def assignedOver : List ProcessAction :=
  [.fork firstChild 1, .register 1, .fork secondChild 2, .register 2, .moveAssign 1 2, .updateRecord 1,
    .exit firstChild (.exited 3), .handleSIGCHLD firstChild, .checkFlag, .waitpid (some firstChild), .recordStatus]

/-- The PID of a child is given out again before the reaper has recorded its status. -/
def pidAgain : List ProcessAction :=
  [.fork firstChild 1, .register 1, .exit firstChild (.exited 3), .handleSIGCHLD firstChild, .checkFlag,
    .waitpid (some firstChild), .fork ⟨100, 1⟩ 2, .register 2]

theorem exits_lost : (¬ ∀ state, Reached ProcessAction.perform (fun _ _ => True) {} state →
      NoLostExit state ∧ StatusesRight state) ∧
    (∃ state, runProcesses exitUnseen = some state ∧ ¬ NoLostExit state) ∧
    (∃ state, runProcesses movedLate = some state ∧ ¬ StatusesRight state) ∧
    (∃ state, runProcesses assignedOver = some state ∧ ¬ StatusesRight state) ∧
    ∃ state, runProcesses pidAgain = some state ∧ ¬ StatusesRight state := by
  have unseen : ∃ state, runProcesses exitUnseen = some state ∧ ¬ NoLostExit state :=
    ⟨_, rfl, fun none => none ⟨secondChild, .exited 4, rfl, rfl, .inl rfl⟩⟩
  refine ⟨fun right => ?_, unseen, ⟨_, rfl, fun right => ?_⟩, ⟨_, rfl, fun right => ?_⟩, _, rfl, fun right => ?_⟩
  · obtain ⟨state, ran, lost⟩ := unseen
    exact lost (right state (Reached.start.of_run exitUnseen ran)).1
  · exact absurd (right 2 _ firstChild rfl rfl rfl) nofun
  · exact absurd (right 1 _ secondChild rfl rfl rfl) nofun
  · exact absurd (right 2 _ ⟨100, 1⟩ rfl rfl rfl) nofun

end Slate
