import Slate.Extraction
import Slate.Library.FileTrees

/-! What is known of a path that has been resolved: none of the entries that lead along it
is a link, up to the first that does not exist. -/

namespace Slate
open Library

section
variable {σ : Type} (os : OperatingSystem σ) (files : σ)

def render (names : List Bytes) : Bytes := (names.map (slash :: ·)).flatten

structure EntryName (name : Bytes) : Prop where
  some_ : name ≠ []
  plain : slash ∉ name
  dot : name ≠ [0x2E]
  dots : name ≠ [0x2E, 0x2E]
  closed : 0 ∉ name

/-- Each of the names was found to be that of something that is no link. -/
structure Traced (names : List Bytes) : Prop where
  clean : ∀ name ∈ names, EntryName name
  present : ∀ earlier name, earlier ++ [name] <+: names → os.readlink (render (earlier ++ [name])) files = .error EINVAL

def Absent (names : List Bytes) (name : Bytes) : Prop :=
  EntryName name ∧ os.readlink (render (names ++ [name])) files = .error ENOENT

/-- A path that was resolved. Behind an entry that does not exist anything may follow. -/
inductive ResolvedPath : Bytes → Prop
  | present {names : List Bytes} (traced : Traced os files names) (some_ : names ≠ []) : ResolvedPath (render names)
  | directory {names : List Bytes} (traced : Traced os files names) : ResolvedPath (render names ++ [slash])
  | missing {names : List Bytes} {name : Bytes} (traced : Traced os files names) (absent : Absent os files names name) :
    ResolvedPath (render (names ++ [name]))
  | beyond {names : List Bytes} {name : Bytes} (traced : Traced os files names) (absent : Absent os files names name)
    (rest : Bytes) (closed : 0 ∉ rest) : ResolvedPath (render (names ++ [name]) ++ slash :: rest)

inductive Accumulated : List PathComponent → Prop
  | traced {names : List Bytes} (traced : Traced os files names) : Accumulated (names.map fun name => ⟨name, false⟩)
  | beyond {names : List Bytes} {name : Bytes} {others : List PathComponent} (traced : Traced os files names)
    (absent : Absent os files names name) (closed : ∀ other ∈ others, 0 ∉ other.name) :
    Accumulated (names.map (fun name => ⟨name, false⟩) ++ ⟨name, true⟩ :: others)

/-- What is true of a path between two of its components. -/
structure Underway (state : Resolution) : Prop where
  closed : 0 ∉ state.orig
  accumulated : Accumulated os files state.components
  position : state.components.any PathComponent.hypothetical = true ∨ state.last = state.pos

end

@[simp] theorem render_nil : render [] = [] := rfl

theorem render_snoc (names : List Bytes) (name : Bytes) : render (names ++ [name]) = render names ++ slash :: name := by
  simp [render]

private theorem render_closed {names : List Bytes} (closed : ∀ name ∈ names, 0 ∉ name) : 0 ∉ render names := by
  intro member
  obtain ⟨part, inside, among⟩ := List.mem_flatten.mp member
  obtain ⟨name, present, rfl⟩ := List.mem_map.mp inside
  rcases List.mem_cons.mp among with same | among
  · cases same
  · exact closed name present among

theorem assemble_traced {names : List Bytes} (some_ : names ≠ []) :
    assemble (names.map fun name => ⟨name, false⟩) = render names := by
  rw [assemble, if_neg (by simpa using some_), List.map_map]
  rfl

theorem assemble_append (names : List Bytes) (others : List PathComponent) (some_ : others ≠ []) :
    assemble (names.map (fun name => ⟨name, false⟩) ++ others) = render names ++ assemble others := by
  rw [assemble, if_neg (by simp [some_]), assemble, if_neg some_, List.map_append, List.flatten_append, List.map_map]
  rfl

theorem cString_closed {path : Bytes} (closed : 0 ∉ path) : cString path = path := by
  apply List.takeWhile_eq_self_iff.mpr
  intro byte member
  simpa using fun zero : byte = 0 => closed (zero ▸ member)

variable {σ : Type} {os : OperatingSystem σ} {files : σ}

theorem Traced.nil : Traced os files [] :=
  ⟨fun _ member => absurd member List.not_mem_nil, fun earlier _ begins => absurd (List.prefix_nil.mp begins) (by simp)⟩

theorem Traced.closed {names : List Bytes} (traced : Traced os files names) : 0 ∉ render names :=
  render_closed fun name member => (traced.clean name member).closed

theorem Traced.begin {names more : List Bytes} (traced : Traced os files names) (begins : more <+: names) : Traced os files more :=
  ⟨fun name member => traced.clean name (begins.mem member), fun earlier name within => traced.present earlier name (within.trans begins)⟩

theorem Traced.snoc {names : List Bytes} {name : Bytes} (traced : Traced os files names) (clean : EntryName name)
    (present : os.readlink (render (names ++ [name])) files = .error EINVAL) : Traced os files (names ++ [name]) := by
  refine ⟨?_, ?_⟩
  · intro other member
    rcases List.mem_append.mp member with inside | last
    · exact traced.clean other inside
    · exact List.mem_singleton.mp last ▸ clean
  · intro earlier other begins
    rcases List.prefix_concat_iff.mp begins with same | within
    · rw [same]
      exact present
    · exact traced.present earlier other within

theorem Traced.closed_snoc {names : List Bytes} {name : Bytes} (traced : Traced os files names) (closed : 0 ∉ name) :
    0 ∉ render (names ++ [name]) := by
  apply render_closed
  intro other member
  rcases List.mem_append.mp member with inside | last
  · exact (traced.clean other inside).closed
  · exact List.mem_singleton.mp last ▸ closed

theorem ResolvedPath.closed {path : Bytes} (resolved : ResolvedPath os files path) : 0 ∉ path := by
  cases resolved with
  | present traced _ => exact traced.closed
  | directory traced => simpa [slash] using traced.closed
  | missing traced absent => exact traced.closed_snoc absent.1.closed
  | beyond traced absent rest closed =>
    intro member
    rcases List.mem_append.mp member with front | back
    · exact traced.closed_snoc absent.1.closed front
    · rcases List.mem_cons.mp back with same | inside
      · cases same
      · exact closed inside

theorem ResolvedPath.absolute {path : Bytes} (resolved : ResolvedPath os files path) : path.head? = some slash := by
  have rendered (names : List Bytes) (some_ : names ≠ []) (rest : Bytes) : (render names ++ rest).head? = some slash := by
    cases names with
    | nil => exact absurd rfl some_
    | cons name names => rfl
  cases resolved with
  | present traced some_ => simpa using rendered _ some_ []
  | @directory names traced =>
    cases names with
    | nil => rfl
    | cons name names => rfl
  | missing traced absent => simpa using rendered _ (by simp) []
  | beyond traced absent rest closed => exact rendered _ (by simp) _

private theorem components_closed {components : List PathComponent} (closed : ∀ c ∈ components, 0 ∉ c.name) :
    0 ∉ (components.map fun c => slash :: c.name).flatten := by
  intro member
  obtain ⟨part, inside, among⟩ := List.mem_flatten.mp member
  obtain ⟨c, present, rfl⟩ := List.mem_map.mp inside
  rcases List.mem_cons.mp among with same | among
  · cases same
  · exact closed c present among

theorem Accumulated.dropLast {components : List PathComponent} (accumulated : Accumulated os files components) :
    Accumulated os files components.dropLast := by
  cases accumulated with
  | traced traced =>
    rw [← List.map_dropLast]
    exact .traced (traced.begin (List.dropLast_prefix _))
  | @beyond names name others traced absent closed =>
    rcases List.eq_nil_or_concat others with rfl | ⟨others, last, rfl⟩
    · rw [List.dropLast_concat]
      exact .traced traced
    · rw [List.concat_eq_append, ← List.cons_append, ← List.append_assoc, List.dropLast_concat]
      apply Accumulated.beyond traced absent
      intro other member
      exact closed other (by rw [List.concat_eq_append]; exact List.mem_append_left _ member)

theorem Accumulated.hypothetical {components : List PathComponent} (accumulated : Accumulated os files components)
    (some_ : components.any PathComponent.hypothetical = true) {component : Bytes} (closed : 0 ∉ component) :
    Accumulated os files (components ++ [⟨component, true⟩]) := by
  cases accumulated with
  | traced traced => simp at some_
  | beyond traced absent others =>
    rw [List.append_assoc, List.cons_append]
    apply Accumulated.beyond traced absent
    intro other member
    rcases List.mem_append.mp member with inside | last
    · exact others other inside
    · obtain rfl := List.mem_singleton.mp last
      exact closed

/-- Without a component that does not exist, all of them were found. -/
theorem Accumulated.names {components : List PathComponent} (accumulated : Accumulated os files components)
    (none_ : components.any PathComponent.hypothetical = false) :
    ∃ names, components = names.map (fun name => ⟨name, false⟩) ∧ Traced os files names := by
  cases accumulated with
  | traced traced => exact ⟨_, rfl, traced⟩
  | beyond traced absent closed => simp at none_

/-- The components that have been accumulated make a resolved path. -/
theorem Accumulated.resolved {components : List PathComponent} (accumulated : Accumulated os files components) :
    ResolvedPath os files (assemble components) := by
  cases accumulated with
  | @traced names traced =>
    by_cases none_ : names = []
    · subst none_
      exact .directory .nil
    · rw [assemble_traced none_]
      exact .present traced none_
  | @beyond names name others traced absent closed =>
    rw [assemble_append _ _ (List.cons_ne_nil _ _), assemble, if_neg (List.cons_ne_nil _ _), List.map_cons, List.flatten_cons,
      ← List.append_assoc, ← render_snoc]
    cases others with
    | nil =>
      rw [List.map_nil, List.flatten_nil, List.append_nil]
      exact .missing traced absent
    | cons other others =>
      rw [List.map_cons, List.flatten_cons, List.cons_append]
      apply ResolvedPath.beyond traced absent
      intro member
      rcases List.mem_append.mp member with first | later
      · exact closed other (.head _) first
      · exact components_closed (fun c inside => closed c (.tail _ inside)) later

theorem FileM.bind_ok {α β : Type} {program : FileM σ α} {next : α → FileM σ β} {value : β} {last : σ}
    (done : (program >>= next) files = .ok value last) :
    ∃ middle after, program files = .ok middle after ∧ next middle after = .ok value last := by
  change EStateM.bind program next files = .ok value last at done
  rw [EStateM.bind] at done
  cases ran : program files with
  | ok middle after =>
    rw [ran] at done
    exact ⟨middle, after, rfl, done⟩
  | error thrown after =>
    rw [ran] at done
    cases done

/-- What an examination found out. -/
inductive Finds (os : OperatingSystem σ) (files : σ) (path : Bytes) : Examined → Prop
  | present (found : os.readlink path files = .error EINVAL) : Finds os files path .present
  | missing (found : os.readlink path files = .error ENOENT) : Finds os files path .missing
  | symlink {linkPath : Bytes} (found : os.readlink path files = .ok linkPath) : Finds os files path (.symlink (linkPath.take 4096))

theorem examine_finds {path : Bytes} {examined : Examined} {after : σ} (closed : 0 ∉ path)
    (done : examine os path files = .ok examined after) : after = files ∧ Finds os files path examined := by
  rw [examine] at done
  obtain ⟨state, middle, ran, done⟩ := FileM.bind_ok done
  cases ran
  rw [cString_closed closed] at done
  cases found : os.readlink path files with
  | ok linkPath =>
    rw [found] at done
    cases done
    exact ⟨rfl, .symlink found⟩
  | error err =>
    rw [found] at done
    dsimp only at done
    split at done
    next => cases done
    split at done
    next same =>
      cases done
      exact ⟨rfl, .present (same ▸ found)⟩
    split at done
    next => cases done
    split at done
    next => cases done
    split at done
    next same =>
      cases done
      exact ⟨rfl, .missing (same ▸ found)⟩
    next => cases done

theorem Finds.closed {path linkPath : Bytes} (targets : ∀ target, os.readlink path files = .ok target → 0 ∉ target)
    (finds : Finds os files path (.symlink linkPath)) : 0 ∉ linkPath := by
  cases finds with
  | symlink found => exact fun member => targets _ found (List.mem_of_mem_take member)

/-- A component that is not the last one has no slash in it, and is not empty, unless it comes
behind one that does not exist. -/
theorem processComponent_underway {state after : Resolution} {pos : Nat} {component : Bytes} {last : σ}
    (targets : ∀ path target, os.readlink path files = .ok target → 0 ∉ target) (underway : Underway os files state)
    (closed : 0 ∉ component) (named : state.last = state.pos → component ≠ [] ∧ slash ∉ component)
    (done : processComponent os state (some pos) component files = .ok after last) : last = files ∧ Underway os files after := by
  rw [processComponent] at done
  split at done
  next =>
    cases done
    exact ⟨rfl, underway.closed, underway.accumulated, .inr rfl⟩
  next dot =>
  split at done
  next =>
    cases done
    exact ⟨rfl, underway.closed, underway.accumulated.dropLast, .inr rfl⟩
  next dots =>
  split at done
  next some_ =>
    cases done
    exact ⟨rfl, underway.closed, underway.accumulated.hypothetical some_ closed, .inl (by simp)⟩
  next none_ =>
  obtain ⟨names, same, traced⟩ := underway.accumulated.names (Bool.eq_false_of_not_eq_true none_)
  have position : state.last = state.pos := underway.position.resolve_left none_
  have clean : EntryName component := ⟨(named position).1, (named position).2, dot, dots, closed⟩
  have path : assemble (state.components ++ [⟨component, false⟩]) = render (names ++ [component]) := by
    have list : names.map (fun name => (⟨name, false⟩ : PathComponent)) ++ [⟨component, false⟩] =
        (names ++ [component]).map fun name => ⟨name, false⟩ := by simp
    rw [same, list]
    exact assemble_traced (by simp)
  obtain ⟨examined, middle, ran, done⟩ := FileM.bind_ok done
  rw [path] at ran
  obtain ⟨rfl, finds⟩ := examine_finds (traced.closed_snoc closed) ran
  cases finds with
  | present found =>
    cases done
    refine ⟨rfl, underway.closed, ?_, .inr rfl⟩
    have longer := Accumulated.traced (traced.snoc clean found)
    rwa [List.map_append, ← same] at longer
  | missing found =>
    cases done
    refine ⟨rfl, underway.closed, ?_, .inl (by simp)⟩
    have longer : Accumulated os _ (names.map (fun name => ⟨name, false⟩) ++ [⟨component, true⟩]) :=
      .beyond traced ⟨clean, found⟩ fun _ member => absurd member List.not_mem_nil
    rwa [← same] at longer
  | @symlink linkPath found =>
    have target : 0 ∉ linkPath.take 4096 := (Finds.symlink found).closed (targets _)
    obtain ⟨rest, middle, ran, done⟩ := FileM.bind_ok done
    cases ran
    have behind : 0 ∉ state.orig.drop pos := fun member => underway.closed (List.mem_of_mem_drop member)
    split at done
    next =>
      cases done
      refine ⟨rfl, ?_, .traced .nil, .inr rfl⟩
      intro member
      rcases List.mem_append.mp member with front | back
      · exact target front
      · exact behind back
    next =>
      cases done
      refine ⟨rfl, ?_, underway.accumulated, .inr rfl⟩
      intro member
      rcases List.mem_append.mp member with front | back
      · rcases List.mem_append.mp front with before | within
        · exact underway.closed (List.mem_of_mem_take before)
        · exact target within
      · exact behind back

/-- The last component is empty when the path ends in a slash. -/
theorem processComponent_resolved {state after : Resolution} {component : Bytes} {last : σ}
    (underway : Underway os files state) (closed : 0 ∉ component) (named : state.last = state.pos → slash ∉ component)
    (done : processComponent os state none component files = .ok after last) :
    last = files ∧ ResolvedPath os files (assemble after.components) := by
  rw [processComponent] at done
  split at done
  next =>
    cases done
    exact ⟨rfl, underway.accumulated.resolved⟩
  next dot =>
  split at done
  next =>
    cases done
    exact ⟨rfl, underway.accumulated.dropLast.resolved⟩
  next dots =>
  split at done
  next some_ =>
    cases done
    exact ⟨rfl, (underway.accumulated.hypothetical some_ closed).resolved⟩
  next none_ =>
  obtain ⟨names, same, traced⟩ := underway.accumulated.names (Bool.eq_false_of_not_eq_true none_)
  have position : state.last = state.pos := underway.position.resolve_left none_
  have path (hypothetical : Bool) :
      assemble (state.components ++ [⟨component, hypothetical⟩]) = render (names ++ [component]) := by
    rw [same, assemble_append _ _ (List.cons_ne_nil _ _), render_snoc]
    simp [assemble]
  obtain ⟨examined, middle, ran, done⟩ := FileM.bind_ok done
  rw [path] at ran
  obtain ⟨rfl, finds⟩ := examine_finds (traced.closed_snoc closed) ran
  have trailing (empty : component = []) : ResolvedPath os middle (render (names ++ [component])) := by
    rw [empty, render_snoc]
    exact .directory traced
  have clean (some_ : component ≠ []) : EntryName component := ⟨some_, named position, dot, dots, closed⟩
  cases finds with
  | present found =>
    cases done
    rw [path]
    by_cases empty : component = []
    · exact ⟨rfl, trailing empty⟩
    · exact ⟨rfl, .present (traced.snoc (clean empty) found) (by simp)⟩
  | missing found =>
    cases done
    rw [path]
    by_cases empty : component = []
    · exact ⟨rfl, trailing empty⟩
    · exact ⟨rfl, .missing traced ⟨clean empty, found⟩⟩
  | symlink found =>
    obtain ⟨rest, middle, ran, done⟩ := FileM.bind_ok done
    cases ran

/-- The slash that is found, and what is before it. -/
theorem findSlash_some {path : Bytes} {start pos : Nat} (found : findSlash path start = some pos) :
    start ≤ pos ∧ path.drop pos = slash :: path.drop (pos + 1) ∧ slash ∉ (path.drop start).take (pos - start) := by
  obtain ⟨index, first, rfl⟩ := Option.map_eq_some_iff.mp found
  obtain ⟨inside, here, before⟩ := List.findIdx?_eq_some_iff_getElem.mp first
  rw [List.length_drop] at inside
  have there : start + index < path.length := by omega
  refine ⟨Nat.le_add_right .., ?_, ?_⟩
  · rw [List.getElem_drop] at here
    rw [List.drop_eq_getElem_cons there, beq_iff_eq.mp here]
  · rw [Nat.add_sub_cancel_left]
    intro member
    obtain ⟨i, short, same⟩ := List.mem_iff_getElem.mp member
    rw [List.getElem_take] at same
    have other := before i (by rw [List.length_take] at short; omega)
    rw [same] at other
    exact other rfl

theorem findSlash_none {path : Bytes} {start : Nat} (none_ : findSlash path start = none) : slash ∉ path.drop start := by
  have every := List.findIdx?_eq_none_iff.mp (Option.map_eq_none_iff.mp none_)
  intro member
  have other := every slash member
  simp at other

/-- A resolution comes to a resolved path, and changes nothing. -/
theorem resolve_resolved (targets : ∀ path target, os.readlink path files = .ok target → 0 ∉ target) {left : Nat}
    {state : Resolution} {path : Bytes} {last : σ} (underway : Underway os files state)
    (done : resolve os left state files = .ok path last) : last = files ∧ ResolvedPath os files path := by
  induction left generalizing state with
  | zero => cases done
  | succ left induction =>
    rw [resolve] at done
    cases found : findSlash state.orig (state.pos + 1) with
    | none =>
      rw [found] at done
      obtain ⟨after, middle, ran, done⟩ := FileM.bind_ok done
      cases done
      apply processComponent_resolved underway _ _ ran
      · exact fun member => underway.closed (List.mem_of_mem_drop member)
      · intro same
        rw [same]
        exact findSlash_none found
    | some pos =>
      rw [found] at done
      dsimp only at done
      split at done
      next =>
        have later : Underway os files { state with pos, last := pos } := ⟨underway.closed, underway.accumulated, .inr rfl⟩
        exact induction later done
      next distinct =>
        obtain ⟨after, middle, ran, rest⟩ := FileM.bind_ok done
        have named : state.last = state.pos →
            (state.orig.drop (state.last + 1)).take (pos - state.last - 1) ≠ [] ∧
              slash ∉ (state.orig.drop (state.last + 1)).take (pos - state.last - 1) := by
          intro same
          obtain ⟨-, there, free⟩ := findSlash_some found
          have length := congrArg List.length there
          rw [List.length_cons, List.length_drop, List.length_drop] at length
          rw [Nat.sub_sub, same]
          refine ⟨?_, free⟩
          apply List.ne_nil_of_length_pos
          rw [List.length_take, List.length_drop]
          omega
        obtain ⟨rfl, later⟩ := processComponent_underway targets underway
          (fun member => underway.closed (List.mem_of_mem_drop (List.mem_of_mem_take member))) named ran
        exact induction later rest

theorem realpathHyp_resolved (kept : ∀ path target, os.readlink path files = .ok target → 0 ∉ target)
    (place : ∀ cwd, os.getcwd files = .ok cwd → 0 ∉ cwd) {orig path : Bytes} {last : σ} (closed : 0 ∉ orig)
    (done : realpathHyp os orig files = .ok path last) : last = files ∧ ResolvedPath os files path := by
  have start (orig : Bytes) (closed : 0 ∉ orig) : Underway os files { orig } := ⟨closed, .traced .nil, .inr rfl⟩
  rw [realpathHyp] at done
  split at done
  next => exact resolve_resolved kept (start orig closed) done
  next =>
    obtain ⟨state, middle, ran, done⟩ := FileM.bind_ok done
    cases ran
    cases there : os.getcwd files with
    | error err =>
      rw [there] at done
      cases done
    | ok rawPath =>
      rw [there] at done
      apply resolve_resolved kept (start _ _) done
      intro member
      rcases List.mem_append.mp member with front | back
      · rcases List.mem_append.mp front with cwd | same
        · exact place rawPath there cwd
        · exact absurd same (by decide)
      · exact closed back

end Slate
