import Slate.Proofs.Confinement

/-! A path that the operating system can walk is resolved to where it leads. -/

namespace Slate
open Library

variable {σ : Type} {os : OperatingSystem σ} {links : Nat} {tree : σ → FileTree Bytes Bytes Bytes} {files : σ}

/-- Documented behaviour of links that are read: what is read is the whole text of one. -/
structure LinkKernel (os : OperatingSystem σ) (links : Nat) (tree : σ → FileTree Bytes Bytes Bytes) : Prop
    extends Kernel os links tree where
  link : ∀ {files path text}, path.head? = some slash → os.readlink path files = .ok text → text.length ≤ 4096 ∧
    ∃ place, locate links (tree files) false path = .ok place ∧ tree files place = some (.link text)

/-- What is left of a path is walked on from a place, past any number of links. -/
def Reaches (tree : FileTree Bytes Bytes Bytes) (place : List Bytes) (steps : List (PathStep Bytes)) (goal : List Bytes) : Prop :=
  ∃ links, FileTree.walk linkRoute tree true links place steps = .ok goal

section
variable {tree : FileTree Bytes Bytes Bytes} {place goal : List Bytes} {step : PathStep Bytes} {rest : List (PathStep Bytes)} {name : Bytes}

theorem Reaches.directory (reaches : Reaches tree place (step :: rest) goal) : tree place = some .directory := by
  obtain ⟨links, walked⟩ := reaches
  obtain ⟨jump, same⟩ := @FileTree.walk_eq _ _ _ linkRoute tree true links
  rw [same] at walked
  exact FileTree.walkWith_directory walked

theorem Reaches.here (reaches : Reaches tree place (.here :: rest) goal) : Reaches tree place rest goal := by
  have directory := reaches.directory
  obtain ⟨links, walked⟩ := reaches
  obtain ⟨jump, same⟩ := @FileTree.walk_eq _ _ _ linkRoute tree true links
  rw [same, FileTree.walkWith_here directory] at walked
  exact ⟨links, by rw [same, walked]⟩

theorem Reaches.up (reaches : Reaches tree place (.up :: rest) goal) : Reaches tree place.dropLast rest goal := by
  have directory := reaches.directory
  obtain ⟨links, walked⟩ := reaches
  obtain ⟨jump, same⟩ := @FileTree.walk_eq _ _ _ linkRoute tree true links
  rw [same] at walked
  simp only [FileTree.walkWith, directory] at walked
  exact ⟨links, by rw [same, walked]⟩

theorem Reaches.entry (reaches : Reaches tree place (.entry name :: rest) goal) {node : Node Bytes Bytes}
    (there : tree (place ++ [name]) = some node) (plain : ¬ node.IsLink) : Reaches tree (place ++ [name]) rest goal := by
  have directory := reaches.directory
  obtain ⟨links, walked⟩ := reaches
  obtain ⟨jump, same⟩ := @FileTree.walk_eq _ _ _ linkRoute tree true links
  rw [same, FileTree.walkWith_entry there plain directory] at walked
  exact ⟨links, by rw [same, walked]⟩

/-- Only the last entry may be missing. -/
theorem Reaches.missing (reaches : Reaches tree place (.entry name :: rest) goal) (none_ : tree (place ++ [name]) = none) :
    rest = [] ∧ goal = place ++ [name] := by
  have directory := reaches.directory
  obtain ⟨links, walked⟩ := reaches
  obtain ⟨jump, same⟩ := @FileTree.walk_eq _ _ _ linkRoute tree true links
  rw [same] at walked
  cases rest with
  | nil =>
    simp only [FileTree.walkWith, directory, none_] at walked
    cases walked
    exact ⟨rfl, rfl⟩
  | cons step rest => exact absurd walked (FileTree.walkWith_missing none_ goal)

theorem Reaches.link (reaches : Reaches tree place (.entry name :: rest) goal) {text : Bytes}
    (there : tree (place ++ [name]) = some (.link text)) :
    Reaches tree (if (linkRoute text).1 then [] else place) ((linkRoute text).2 ++ rest) goal := by
  have directory := reaches.directory
  obtain ⟨links, walked⟩ := reaches
  cases links with
  | zero => simp [FileTree.walk, FileTree.walkWith, directory, there] at walked
  | succ links =>
    simp only [FileTree.walk, FileTree.walkWith, directory, there, Bool.not_true, Bool.and_false, Bool.false_eq_true, if_false] at walked
    exact ⟨links, walked⟩

theorem Reaches.nil (reaches : Reaches tree place [] goal) : goal = place := by
  obtain ⟨links, walked⟩ := reaches
  obtain ⟨jump, same⟩ := @FileTree.walk_eq _ _ _ linkRoute tree true links
  rw [same, FileTree.walkWith] at walked
  exact (Except.ok.inj walked).symm

end

section
variable {names goal : List Bytes} {name : Bytes}

/-- Entries that were found lead to the last of them, if that is a directory. -/
theorem Traced.enters (kernel : Kernel os links tree) (traced : Traced os files names) (directory : tree files names = some .directory)
    (follow : Bool) (more : Bytes) :
    ∃ jump, locate links (tree files) follow (render names ++ slash :: more) =
      FileTree.walkWith (tree files) jump follow names (pathSteps more) := by
  rcases List.eq_nil_or_concat names with rfl | ⟨front, last, rfl⟩
  · obtain ⟨jump, same⟩ := @FileTree.walk_eq _ _ _ linkRoute (tree files) follow links
    refine ⟨jump, ?_⟩
    have steps : pathSteps (render [] ++ slash :: more) = .here :: pathSteps more := pathSteps_slash [] more
    rw [locate, same, steps, FileTree.walkWith_here directory]
  · rw [List.concat_eq_append] at traced directory ⊢
    have before := traced.begin (List.prefix_append front [last])
    obtain ⟨place, node, found, -, -⟩ := kernel.present (render_absolute front last) (traced.present front last List.prefix_rfl)
    rw [render_snoc] at found
    obtain ⟨jump, walked⟩ := locate_enters before.clean (before.located kernel) found follow (last ++ slash :: more)
    have path : render (front ++ [last]) ++ slash :: more = render front ++ slash :: (last ++ slash :: more) := by simp [render_snoc]
    have above := locate_directory before.clean (before.located kernel) found
    have clean := traced.clean last (List.mem_append_right _ (.head _))
    refine ⟨jump, ?_⟩
    rw [path, walked, pathSteps_slash, pathSteps_name clean, List.singleton_append,
      FileTree.walkWith_entry directory (fun link => link) above]

theorem Traced.entry (kernel : Kernel os links tree) (traced : Traced os files names) (directory : tree files names = some .directory)
    (clean : EntryName name) : locate links (tree files) false (render (names ++ [name])) = .ok (names ++ [name]) := by
  obtain ⟨jump, walked⟩ := traced.enters kernel directory false name
  rw [render_snoc, walked, pathSteps_name clean]
  exact FileTree.walkWith_entry_last directory

private theorem Traced.found_present (kernel : Kernel os links tree) (traced : Traced os files names)
    (directory : tree files names = some .directory) (clean : EntryName name)
    (found : os.readlink (render (names ++ [name])) files = .error EINVAL) :
    ∃ node, tree files (names ++ [name]) = some node ∧ ¬ node.IsLink := by
  obtain ⟨place, node, led, there, plain⟩ := kernel.present (render_absolute names name) found
  rw [traced.entry kernel directory clean] at led
  cases led
  exact ⟨node, there, plain⟩

private theorem Traced.found_missing (kernel : Kernel os links tree) (traced : Traced os files names)
    (directory : tree files names = some .directory) (clean : EntryName name)
    (found : os.readlink (render (names ++ [name])) files = .error ENOENT) : tree files (names ++ [name]) = none :=
  kernel.absent (render_absolute names name) found (traced.entry kernel directory clean)

private theorem Traced.found_link (kernel : LinkKernel os links tree) (traced : Traced os files names)
    (directory : tree files names = some .directory) (clean : EntryName name) {text : Bytes}
    (found : os.readlink (render (names ++ [name])) files = .ok text) :
    text.length ≤ 4096 ∧ tree files (names ++ [name]) = some (.link text) := by
  obtain ⟨short, place, led, there⟩ := kernel.link (render_absolute names name) found
  rw [traced.entry kernel.toKernel directory clean] at led
  cases led
  exact ⟨short, there⟩

end

/-- A path that has been resolved to some names so far, and leads on from there to the goal. -/
structure OnCourse (os : OperatingSystem σ) (tree : σ → FileTree Bytes Bytes Bytes) (files : σ) (goal : List Bytes)
    (state : Resolution) (names : List Bytes) : Prop where
  root : tree files [] = some .directory
  components : state.components = names.map fun name => ⟨name, false⟩
  traced : Traced os files names
  position : state.last = state.pos
  reaches : Reaches (tree files) names (pathSteps (state.orig.drop (state.last + 1))) goal

/-- What a path comes to that leads to the goal. A slash at its end stays. -/
def ComesTo (tree : FileTree Bytes Bytes Bytes) (goal : List Bytes) (path : Bytes) : Prop :=
  path = render goal ∨ (path = render goal ++ [slash] ∧ tree goal = some .directory)

private theorem comesTo_assemble {tree : FileTree Bytes Bytes Bytes} (root : tree [] = some .directory) (names : List Bytes) :
    ComesTo tree names (assemble (names.map fun name => ⟨name, false⟩)) := by
  by_cases none_ : names = []
  · subst none_
    exact .inr ⟨rfl, root⟩
  · exact .inl (assemble_traced none_)

section
variable {goal names : List Bytes} {state after : Resolution} {component : Bytes} {last : σ}

private theorem OnCourse.none_missing (course : OnCourse os tree files goal state names) :
    ¬ state.components.any PathComponent.hypothetical = true := by
  rw [course.components]
  simp

theorem OnCourse.longer (course : OnCourse os tree files goal state names) (hypothetical : Bool) :
    assemble (state.components ++ [⟨component, hypothetical⟩]) = render (names ++ [component]) := by
  rw [course.components, assemble_append _ _ (List.cons_ne_nil _ _), render_snoc]
  simp [assemble]

theorem OnCourse.underway (course : OnCourse os tree files goal state names) (closed : 0 ∉ state.orig) : Underway os files state :=
  ⟨closed, course.components ▸ .traced course.traced, .inr course.position⟩

private theorem pathSteps_one (free : slash ∉ component) : pathSteps component = [pathStep component] := by
  rw [pathSteps, List.splitOn_eq_singleton free]
  rfl

/-- A component with more behind it leads on towards the goal. -/
theorem processComponent_onCourse (kernel : LinkKernel os links tree) {pos : Nat} (closed : 0 ∉ state.orig)
    (course : OnCourse os tree files goal state names) (some_ : component ≠ []) (free : slash ∉ component)
    (slice : state.orig.drop (state.last + 1) = component ++ state.orig.drop pos)
    (cut : state.orig.drop pos = slash :: state.orig.drop (pos + 1))
    (done : processComponent os state (some pos) component files = .ok after last) :
    last = files ∧ 0 ∉ after.orig ∧ ∃ names, OnCourse os tree files goal after names := by
  have within : 0 ∉ component := by
    intro member
    exact closed (List.mem_of_mem_drop (slice ▸ List.mem_append_left _ member))
  obtain ⟨rfl, underway⟩ := processComponent_underway (fun path target => kernel.target) (course.underway closed) within
    (fun _ => ⟨some_, free⟩) done
  refine ⟨rfl, underway.closed, ?_⟩
  have reaches := course.reaches
  rw [slice, cut, pathSteps_slash, pathSteps_one free, List.singleton_append] at reaches
  have directory := reaches.directory
  rw [processComponent] at done
  split at done
  next dot =>
    cases done
    refine ⟨names, course.root, course.components, course.traced, rfl, ?_⟩
    rw [dot] at reaches
    exact reaches.here
  next dot =>
  split at done
  next dots =>
    cases done
    refine ⟨names.dropLast, course.root, ?_, course.traced.begin (List.dropLast_prefix _), rfl, ?_⟩
    · exact (congrArg List.dropLast course.components).trans (List.map_dropLast ..).symm
    · rw [dots] at reaches
      exact reaches.up
  next dots =>
  rw [if_neg course.none_missing] at done
  have clean : EntryName component := ⟨some_, free, dot, dots, within⟩
  have step : pathStep component = .entry component := by simp [pathStep, some_, dot, dots]
  rw [step] at reaches
  obtain ⟨examined, middle, ran, rest⟩ := FileM.bind_ok done
  rw [course.longer] at ran
  obtain ⟨rfl, finds⟩ := examine_finds (course.traced.closed_snoc within) ran
  cases finds with
  | present found =>
    cases rest
    obtain ⟨node, there, plain⟩ := course.traced.found_present kernel.toKernel directory clean found
    refine ⟨names ++ [component], course.root, ?_, course.traced.snoc clean found, rfl, reaches.entry there plain⟩
    rw [course.components]
    simp
  | missing found =>
    have none_ := course.traced.found_missing kernel.toKernel directory clean found
    exact absurd (reaches.missing none_).1 (pathSteps_ne_nil _)
  | @symlink text found =>
    obtain ⟨short, there⟩ := course.traced.found_link kernel directory clean found
    rw [List.take_of_length_le short] at rest
    have onward := reaches.link there
    obtain ⟨behind, middle, ran, rest⟩ := FileM.bind_ok rest
    cases ran
    rw [cut] at rest
    split at rest
    next absolute =>
      cases rest
      refine ⟨[], course.root, rfl, .nil, rfl, ?_⟩
      obtain ⟨tail, rfl⟩ := List.head?_eq_some_iff.mp absolute
      have steps : pathSteps (slash :: tail) = .here :: pathSteps tail := pathSteps_slash [] tail
      simp only [linkRoute, List.head?_cons, BEq.rfl, if_true, steps] at onward
      change Reaches _ _ (pathSteps (tail ++ slash :: state.orig.drop (pos + 1))) _
      rw [pathSteps_slash]
      exact onward.here
    next relative =>
      cases rest
      refine ⟨names, course.root, course.components, course.traced, rfl, ?_⟩
      have inside : state.last + 1 ≤ state.orig.length := by
        have length := congrArg List.length slice
        rw [cut, List.length_append, List.length_cons, List.length_drop] at length
        omega
      have behind : (state.orig.take (state.last + 1) ++ text ++ slash :: state.orig.drop (pos + 1)).drop (state.last + 1) =
          text ++ slash :: state.orig.drop (pos + 1) := by
        rw [List.append_assoc]
        exact List.drop_left' (List.length_take_of_le inside)
      rw [behind, pathSteps_slash]
      have route : (linkRoute text).1 = false := by simpa [linkRoute] using relative
      rw [route, if_neg Bool.false_ne_true] at onward
      exact onward

/-- The last component leads to the goal. -/
theorem processComponent_comesTo (kernel : LinkKernel os links tree) (closed : 0 ∉ state.orig)
    (course : OnCourse os tree files goal state names) (free : slash ∉ component)
    (slice : state.orig.drop (state.last + 1) = component) (done : processComponent os state none component files = .ok after last) :
    ComesTo (tree files) goal (assemble after.components) := by
  have within : 0 ∉ component := fun member => closed (List.mem_of_mem_drop (slice ▸ member))
  have reaches := course.reaches
  rw [slice, pathSteps_one free] at reaches
  have directory := reaches.directory
  rw [processComponent] at done
  split at done
  next dot =>
    cases done
    rw [dot] at reaches
    cases reaches.here.nil
    exact course.components ▸ comesTo_assemble course.root _
  next dot =>
  split at done
  next dots =>
    cases done
    rw [dots] at reaches
    cases reaches.up.nil
    have components : state.components.dropLast = names.dropLast.map fun name => ⟨name, false⟩ :=
      (congrArg List.dropLast course.components).trans (List.map_dropLast ..).symm
    exact components ▸ comesTo_assemble course.root _
  next dots =>
  rw [if_neg course.none_missing] at done
  obtain ⟨examined, middle, ran, rest⟩ := FileM.bind_ok done
  rw [course.longer] at ran
  obtain ⟨rfl, finds⟩ := examine_finds (course.traced.closed_snoc within) ran
  by_cases empty : component = []
  · rw [empty] at reaches
    cases reaches.here.nil
    have whole : ComesTo (tree middle) goal (render (goal ++ [component])) :=
      .inr ⟨by rw [empty, render_snoc], directory⟩
    cases finds with
    | present found =>
      cases rest
      exact (course.longer false).symm ▸ whole
    | missing found =>
      cases rest
      exact (course.longer true).symm ▸ whole
    | symlink found =>
      obtain ⟨behind, middle, ran, rest⟩ := FileM.bind_ok rest
      cases ran
  · have clean : EntryName component := ⟨empty, free, dot, dots, within⟩
    have step : pathStep component = .entry component := by simp [pathStep, empty, dot, dots]
    rw [step] at reaches
    cases finds with
    | present found =>
      cases rest
      obtain ⟨node, there, plain⟩ := course.traced.found_present kernel.toKernel directory clean found
      cases (reaches.entry there plain).nil
      exact .inl (course.longer false)
    | missing found =>
      cases rest
      cases (reaches.missing (course.traced.found_missing kernel.toKernel directory clean found)).2
      exact .inl (course.longer true)
    | symlink found =>
      obtain ⟨behind, middle, ran, rest⟩ := FileM.bind_ok rest
      cases ran

private theorem resolve_comesTo (kernel : LinkKernel os links tree) {left : Nat} {path : Bytes} (closed : 0 ∉ state.orig)
    (course : OnCourse os tree files goal state names) (done : resolve os left state files = .ok path last) :
    ComesTo (tree files) goal path := by
  induction left generalizing state names with
  | zero => cases done
  | succ left induction =>
    rw [resolve] at done
    cases found : findSlash state.orig (state.pos + 1) with
    | none =>
      rw [found] at done
      obtain ⟨after, middle, ran, rest⟩ := FileM.bind_ok done
      cases rest
      apply processComponent_comesTo kernel closed course _ rfl ran
      rw [course.position]
      exact findSlash_none found
    | some pos =>
      rw [found] at done
      dsimp only at done
      obtain ⟨later, there, free⟩ := findSlash_some found
      rw [← course.position] at later free
      split at done
      next near =>
        have next : pos = state.last + 1 := by omega
        have reaches := course.reaches
        have steps : pathSteps (slash :: state.orig.drop (pos + 1)) = .here :: pathSteps (state.orig.drop (pos + 1)) :=
          pathSteps_slash [] _
        rw [← next, there, steps] at reaches
        have course : OnCourse os tree files goal { state with pos, last := pos } names :=
          ⟨course.root, course.components, course.traced, rfl, reaches.here⟩
        exact induction (show 0 ∉ ({ state with pos, last := pos } : Resolution).orig from closed) course done
      next far =>
        obtain ⟨after, middle, ran, rest⟩ := FileM.bind_ok done
        rw [Nat.sub_sub] at ran
        have slice : state.orig.drop (state.last + 1) =
            (state.orig.drop (state.last + 1)).take (pos - (state.last + 1)) ++ state.orig.drop pos := by
          have parts := (List.take_append_drop (pos - (state.last + 1)) (state.orig.drop (state.last + 1))).symm
          rwa [List.drop_drop, Nat.add_sub_cancel' later] at parts
        have some_ : (state.orig.drop (state.last + 1)).take (pos - (state.last + 1)) ≠ [] := by
          have length := congrArg List.length there
          rw [List.length_cons, List.length_drop, List.length_drop] at length
          apply List.ne_nil_of_length_pos
          rw [List.length_take, List.length_drop]
          omega
        obtain ⟨rfl, closed, names, course⟩ := processComponent_onCourse kernel closed course some_ free slice there ran
        exact induction closed course rest

end

/-- A path that does not begin with a slash is one of the current directory. -/
def fullPath (os : OperatingSystem σ) (files : σ) (orig : Bytes) : Except Nat Bytes :=
  if orig.head? = some slash then .ok orig else (os.getcwd files).map fun cwd => cwd ++ [slash] ++ orig

/-- What is resolved from a path that leads to some place is the path of that place, without any links,
whether or not there is something at the place. -/
theorem realpathHyp_comesTo (kernel : LinkKernel os links tree) {orig full path : Bytes} {place : List Bytes} {after : σ}
    (closed : 0 ∉ orig) (whole : fullPath os files orig = .ok full) (absolute : full.head? = some slash)
    (leads : locate links (tree files) true full = .ok place) (resolved : realpathHyp os orig files = .ok path after) :
    after = files ∧ ComesTo (tree files) place path := by
  obtain ⟨rfl, -⟩ := realpathHyp_resolved (fun path target => kernel.target) (fun cwd => kernel.getcwd) closed resolved
  refine ⟨rfl, ?_⟩
  obtain ⟨tail, rfl⟩ := List.head?_eq_some_iff.mp absolute
  have reaches : Reaches (tree after) [] (.here :: pathSteps tail) place := ⟨links, leads⟩
  have course : OnCourse os tree after place { orig := slash :: tail } [] := ⟨reaches.directory, rfl, .nil, rfl, reaches.here⟩
  rw [fullPath] at whole
  rw [realpathHyp] at resolved
  split at whole
  next already =>
    cases whole
    rw [if_pos already] at resolved
    exact resolve_comesTo kernel closed course resolved
  next relative =>
    rw [if_neg relative] at resolved
    obtain ⟨state, middle, ran, resolved⟩ := FileM.bind_ok resolved
    cases ran
    cases there : os.getcwd after with
    | error err =>
      rw [there] at whole
      cases whole
    | ok cwd =>
      rw [there] at whole resolved
      have joined : cwd ++ [slash] ++ orig = slash :: tail := Except.ok.inj whole
      change resolve os 1025 { orig := cwd ++ [slash] ++ orig } after = .ok path after at resolved
      rw [joined] at resolved
      apply resolve_comesTo kernel _ course resolved
      rw [← joined]
      intro member
      rcases List.mem_append.mp member with front | back
      · rcases List.mem_append.mp front with inside | same
        · exact kernel.getcwd there inside
        · exact absurd same (by decide)
      · exact closed back

private theorem treeSystem_links : LinkKernel treeSystem 40 id where
  toKernel := treeSystem_kernel
  link {files path text} _ given := by
    dsimp only [treeSystem] at given
    split at given
    next => cases given
    next place found =>
      split at given
      next => cases given
      next there =>
        split at given
        next => cases given
        next sound =>
          cases given
          exact ⟨by omega, place, found, there⟩
      next => cases given

def resolvedTo (files : FileTree Bytes Bytes Bytes) (orig : Bytes) : Option Bytes :=
  match realpathHyp treeSystem orig files with
  | .ok path _ => some path
  | .error _ _ => none

/-- A link to a directory in which nothing is yet, in the middle of a relative path. -/
theorem realpathHyp_comesTo_linked : ∃ after, realpathHyp treeSystem (textBytes "l//../l/a") linkedTree = .ok (textBytes "/d/a") after ∧
    after = linkedTree ∧ ComesTo linkedTree [textBytes "d", textBytes "a"] (textBytes "/d/a") := by
  have there : resolvedTo linkedTree (textBytes "l//../l/a") = some (textBytes "/d/a") := by decide +kernel
  unfold resolvedTo at there
  cases resolved : realpathHyp treeSystem (textBytes "l//../l/a") linkedTree with
  | ok path after =>
    rw [resolved] at there
    cases there
    exact ⟨after, rfl, realpathHyp_comesTo treeSystem_links (by decide) rfl (by decide) (by decide +kernel) resolved⟩
  | error thrown after =>
    rw [resolved] at there
    cases there

end Slate
