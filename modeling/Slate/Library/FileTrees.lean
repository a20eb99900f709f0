import Mathlib.Data.List.Basic

/-! Trees of files with links, and how a path is walked through one. The names of entries,
the contents of files and the texts of links are of any type. -/

namespace Slate.Library

inductive PathStep (ν : Type) where
  | here
  | up
  | entry (name : ν)
  deriving DecidableEq, Repr

inductive Node (β τ : Type) where
  | directory
  | file (contents : β)
  | link (target : τ)
  deriving DecidableEq, Repr

def Node.IsLink {β τ : Type} : Node β τ → Prop
  | .link _ => True
  | _ => False

inductive WalkError where
  | noEntry
  | notDirectory
  | tooManyLinks
  deriving DecidableEq, Repr

/-- What there is at each place. A place is the list of names that leads there from the root. -/
abbrev FileTree (ν β τ : Type) := List ν → Option (Node β τ)

namespace FileTree

variable {ν β τ : Type}

/-- A tree in which only one place differs. -/
def put [DecidableEq ν] (tree : FileTree ν β τ) (place : List ν) (node : Node β τ) : FileTree ν β τ :=
  fun other => if other = place then some node else tree other

/-- Walks on from a place, where the rest of a path behind a link is handed over. Every step is
taken from a directory. The last entry need not exist, and is only followed on request. -/
def walkWith (tree : FileTree ν β τ) (jump : List ν → τ → List (PathStep ν) → Except WalkError (List ν)) (follow : Bool) :
    List ν → List (PathStep ν) → Except WalkError (List ν)
  | place, [] => .ok place
  | place, step :: rest =>
    match tree place with
    | none => .error .noEntry
    | some .directory =>
      match step with
      | .here => walkWith tree jump follow place rest
      | .up => walkWith tree jump follow place.dropLast rest
      | .entry name =>
        match tree (place ++ [name]) with
        | none => if rest.isEmpty then .ok (place ++ [name]) else .error .noEntry
        | some (.link target) => if rest.isEmpty && !follow then .ok (place ++ [name]) else jump place target rest
        | some _ => walkWith tree jump follow (place ++ [name]) rest
    | some _ => .error .notDirectory

-- How the text of a link is read: whether it starts from the root, and its steps.
variable (route : τ → Bool × List (PathStep ν))

def walk (tree : FileTree ν β τ) (follow : Bool) : Nat → List ν → List (PathStep ν) → Except WalkError (List ν)
  | 0 => walkWith tree (fun _ _ _ => .error .tooManyLinks) follow
  | links + 1 => walkWith tree (fun place target rest =>
      walk tree follow links (if (route target).1 then [] else place) ((route target).2 ++ rest)) follow

variable {route} {tree : FileTree ν β τ} {jump : List ν → τ → List (PathStep ν) → Except WalkError (List ν)} {follow : Bool}
  {place reached : List ν} {rest : List (PathStep ν)}

theorem walkWith_directory {step : PathStep ν} (walked : walkWith tree jump follow place (step :: rest) = .ok reached) :
    tree place = some .directory := by
  cases there : tree place with
  | none => simp [walkWith, there] at walked
  | some node =>
    cases node with
    | directory => rfl
    | file => simp [walkWith, there] at walked
    | link => simp [walkWith, there] at walked

/-- An entry that is no link is just entered. -/
theorem walkWith_entry {name : ν} {node : Node β τ} (there : tree (place ++ [name]) = some node) (plain : ¬ node.IsLink)
    (directory : tree place = some .directory) :
    walkWith tree jump follow place (.entry name :: rest) = walkWith tree jump follow (place ++ [name]) rest := by
  simp only [walkWith, directory, there]
  cases node with
  | directory => rfl
  | file => rfl
  | link => exact absurd trivial plain

theorem walkWith_missing {name : ν} {step : PathStep ν} (missing : tree (place ++ [name]) = none) :
    ∀ reached, walkWith tree jump follow place (.entry name :: step :: rest) ≠ .ok reached := by
  intro reached walked
  have directory := walkWith_directory walked
  simp [walkWith, directory, missing] at walked

/-- All these entries exist, and none of them is a link. -/
def Plain (tree : FileTree ν β τ) (place : List ν) (names : List ν) : Prop :=
  ∀ earlier name, earlier ++ [name] <+: names → ∃ node, tree (place ++ earlier ++ [name]) = some node ∧ ¬ node.IsLink

theorem Plain.nil : Plain tree place [] := by
  intro earlier name begins
  exact absurd (List.prefix_nil.mp begins) (by simp)

theorem Plain.cons_iff {name : ν} {names : List ν} : Plain tree place (name :: names) ↔
    (∃ node, tree (place ++ [name]) = some node ∧ ¬ node.IsLink) ∧ Plain tree (place ++ [name]) names := by
  constructor
  · intro plain
    refine ⟨?_, ?_⟩
    · have first := plain [] name (by simp)
      rwa [List.append_nil] at first
    · intro earlier other begins
      have next := plain (name :: earlier) other ((List.cons_prefix_cons).mpr ⟨rfl, begins⟩)
      rwa [List.append_cons place name earlier] at next
  · rintro ⟨first, plain⟩ earlier other begins
    cases earlier with
    | nil =>
      obtain rfl := (List.cons_prefix_cons.mp begins).1
      rwa [List.append_nil]
    | cons head earlier =>
      obtain rfl := (List.cons_prefix_cons.mp begins).1
      rw [List.append_cons place head earlier]
      exact plain earlier other (List.cons_prefix_cons.mp begins).2

theorem Plain.snoc {names : List ν} {name : ν} {node : Node β τ} (plain : Plain tree place names)
    (there : tree (place ++ names ++ [name]) = some node) (noLink : ¬ node.IsLink) : Plain tree place (names ++ [name]) := by
  intro earlier other begins
  rcases List.prefix_concat_iff.mp begins with same | within
  · obtain ⟨rfl, last⟩ := List.append_inj' same rfl
    obtain rfl := List.singleton_inj.mp last
    exact ⟨node, there, noLink⟩
  · exact plain earlier other within

/-- A walk over entries none of which is a link goes where they lead, whatever follows them. -/
theorem walkWith_plain {names : List ν} (plain : Plain tree place names)
    (walked : walkWith tree jump follow place (names.map .entry ++ rest) = .ok reached)
    (other : List ν → τ → List (PathStep ν) → Except WalkError (List ν)) (following : Bool) (more : List (PathStep ν)) :
    walkWith tree other following place (names.map .entry ++ more) = walkWith tree other following (place ++ names) more := by
  induction names generalizing place with
  | nil => rw [List.append_nil, List.map_nil, List.nil_append]
  | cons name names induction =>
    obtain ⟨⟨node, there, noLink⟩, plain⟩ := Plain.cons_iff.mp plain
    rw [List.map_cons, List.cons_append] at walked
    have directory := walkWith_directory walked
    rw [walkWith_entry there noLink directory] at walked
    rw [List.map_cons, List.cons_append, walkWith_entry there noLink directory,
      List.append_cons place name names]
    exact induction plain walked

theorem walkWith_here (directory : tree place = some .directory) :
    walkWith tree jump follow place (.here :: rest) = walkWith tree jump follow place rest := by
  simp only [walkWith, directory]

/-- Without following the last entry, a path of one entry leads to it, be it there or not. -/
theorem walkWith_entry_last {name : ν} (directory : tree place = some .directory) :
    walkWith tree jump false place [.entry name] = .ok (place ++ [name]) := by
  simp only [walkWith, directory]
  cases tree (place ++ [name]) with
  | none => rfl
  | some node => cases node <;> rfl

theorem walk_eq (tree : FileTree ν β τ) (follow : Bool) (links : Nat) :
    ∃ jump, walk route tree follow links = walkWith tree jump follow := by
  cases links with
  | zero => exact ⟨_, rfl⟩
  | succ links => exact ⟨_, rfl⟩

end FileTree
end Slate.Library
