import Slate.Applications

/-! What permission to use applications means, and how sets of names represent it. -/

namespace Slate

/-- The applications that a group may use on a cluster: all, or those with certain names. -/
inductive Allowance where
  | universal
  | specific (names : Finset String)
  deriving DecidableEq

/-- The name stands for all applications. -/
def Wild (name : String) : Prop := name = wildcard ∨ name = wildcardName

instance (name : String) : Decidable (Wild name) := inferInstanceAs (Decidable (_ ∨ _))

namespace Allowance

def Permits : Allowance → String → Prop
  | universal, _ => True
  | specific names, name => name ∈ names

/-- A specific permission is added to others, but replaces a universal one. -/
def allow (allowance : Allowance) (name : String) : Allowance :=
  if Wild name then universal
  else match allowance with
    | universal => specific {name}
    | specific names => specific (insert name names)

/-- There is no denying one application while all are allowed, nor one that is not. -/
def deny (allowance : Allowance) (name : String) : Option Allowance :=
  if Wild name then some (specific ∅)
  else match allowance with
    | universal => none
    | specific names => if name ∈ names then some (specific (names.erase name)) else none

def ofNames (names : Finset String) : Allowance := if wildcardName ∈ names then universal else specific names

/-- Allowing the application has the same effect as if nothing had been allowed before. -/
def Replaceable : Allowance → String → Prop
  | universal, _ => True
  | specific names, name => names ⊆ {name}

end Allowance

/-- The permission that the table holds for a group and a cluster. -/
def Database.allowance (database : Database) (groupID cID : String) : Allowance :=
  .ofNames (applicationsOfItem (database.applications.lookup (cID, applicationsKey groupID cID)))

theorem noneMarker_not_mem_item (row : Option (Finset String)) : noneMarker ∉ applicationsOfItem row := by
  unfold applicationsOfItem
  cases row with
  | none => decide
  | some applications =>
    dsimp only
    split
    next => simp
    next absent => exact absent

theorem applicationsOfItem_some {names : Finset String} (plain : noneMarker ∉ names) :
    applicationsOfItem (some names) = names := if_neg plain

theorem applicationsOfItem_markEmpty {names : Finset String} (plain : noneMarker ∉ names) :
    applicationsOfItem (some (markEmpty names)) = names := by
  unfold markEmpty
  split
  next empty =>
    rw [empty]
    decide
  next => exact applicationsOfItem_some plain

theorem applicationNamed_wild {name : String} (wild : Wild name) : applicationNamed name = wildcardName := by
  unfold applicationNamed
  rcases wild with rfl | rfl
  · exact if_pos rfl
  · exact ite_self _

theorem applicationNamed_plain {name : String} (plain : ¬ Wild name) :
    applicationNamed name = name ∧ name ≠ wildcardName := by
  have first : name ≠ wildcard := fun same => plain (.inl same)
  exact ⟨if_neg first, fun same => plain (.inr same)⟩

/-- What is stored represents what the header describes. -/
theorem ofNames_allowApplication (names : Finset String) (name : String) :
    Allowance.ofNames (allowApplication names (applicationNamed name)) = (Allowance.ofNames names).allow name := by
  unfold Allowance.allow
  split
  next wild => simp [applicationNamed_wild wild, allowApplication, Allowance.ofNames]
  next plain =>
    obtain ⟨named, other⟩ := applicationNamed_plain plain
    unfold allowApplication Allowance.ofNames
    rw [named, if_neg other]
    by_cases universal : wildcardName ∈ names
    · simp [universal, Ne.symm other]
    · simp [universal, Ne.symm other]

theorem ofNames_denyApplication (names : Finset String) (name : String) :
    (denyApplication names (applicationNamed name)).map Allowance.ofNames = (Allowance.ofNames names).deny name := by
  unfold Allowance.deny
  split
  next wild => simp [applicationNamed_wild wild, denyApplication, Allowance.ofNames]
  next plain =>
    obtain ⟨named, other⟩ := applicationNamed_plain plain
    unfold denyApplication Allowance.ofNames
    rw [named, if_neg other]
    by_cases universal : wildcardName ∈ names
    · simp [universal]
    · by_cases present : name ∈ names
      · simp [universal, present]
      · simp [universal, present]

theorem noneMarker_not_wild : ¬ Wild noneMarker := by decide

/-- The set that is stored has the marker just when the marker itself is allowed. -/
theorem noneMarker_mem_allowApplication {names : Finset String} (plain : noneMarker ∉ names) (name : String) :
    noneMarker ∈ allowApplication names (applicationNamed name) ↔ name = noneMarker := by
  by_cases wild : Wild name
  · rw [applicationNamed_wild wild]
    refine iff_of_false ?_ fun same => noneMarker_not_wild (same ▸ wild)
    simp only [allowApplication, if_true, Finset.mem_singleton]
    decide
  · obtain ⟨named, other⟩ := applicationNamed_plain wild
    unfold allowApplication
    rw [named, if_neg other]
    by_cases universal : wildcardName ∈ names
    · simp [universal, eq_comm]
    · simp [universal, plain, eq_comm]

theorem noneMarker_not_mem_denied {names left : Finset String} {name : String} (plain : noneMarker ∉ names)
    (denied : denyApplication names name = some left) : noneMarker ∉ left := by
  unfold denyApplication at denied
  split at denied
  next =>
    cases denied
    simp
  next =>
    split at denied
    next => cases denied
    next =>
      split at denied
      next =>
        cases denied
        exact fun member => plain (Finset.mem_of_mem_erase member)
      next => cases denied

theorem allow_specific {names : Finset String} {name : String} (plain : ¬ Wild name) :
    (Allowance.specific names).allow name = .specific (insert name names) := if_neg plain

/-- Allowing an application as if nothing had been allowed is right only where that makes
no difference. -/
theorem allow_nothing_iff {allowance : Allowance} {name : String} (plain : ¬ Wild name) :
    (Allowance.specific ∅).allow name = allowance.allow name ↔ allowance.Replaceable name := by
  cases allowance with
  | universal => simp [Allowance.allow, plain, Allowance.Replaceable]
  | specific names =>
    rw [allow_specific plain, allow_specific plain, Allowance.specific.injEq]
    constructor
    · intro same member present
      have inside : member ∈ insert name names := Finset.mem_insert_of_mem present
      rw [← same] at inside
      simpa using inside
    · intro within
      ext member
      simp only [Finset.mem_insert, Finset.notMem_empty, or_false]
      exact ⟨.inl, fun either => either.elim id fun present => Finset.mem_singleton.mp (within present)⟩

theorem ofNames_empty : Allowance.ofNames ∅ = .specific ∅ := if_neg (Finset.notMem_empty _)

/-- When the set that is stored is the one that the header describes, given what could be
read of the set that was held. -/
theorem stored_allow_iff {names held : Finset String} {readable : Bool} (appName : String)
    (plain : noneMarker ∉ names) (read : names = if readable then held else ∅) :
    Allowance.ofNames (applicationsOfItem (some (allowApplication names (applicationNamed appName)))) =
        (Allowance.ofNames held).allow appName ↔
      Wild appName ∨ appName ≠ noneMarker ∧ (readable = true ∨ (Allowance.ofNames held).Replaceable appName) := by
  by_cases marker : appName = noneMarker
  · -- the marker empties the set that it is put into
    subst marker
    have inside := (noneMarker_mem_allowApplication plain noneMarker).mpr rfl
    have emptied : applicationsOfItem (some (allowApplication names (applicationNamed noneMarker))) = ∅ := if_pos inside
    rw [emptied, ofNames_empty]
    refine iff_of_false ?_ ?_
    · cases Allowance.ofNames held with
      | universal => simp [Allowance.allow, noneMarker_not_wild]
      | specific others =>
        rw [allow_specific noneMarker_not_wild, Allowance.specific.injEq]
        exact (Finset.insert_ne_empty _ _).symm
    · rintro (wild | ⟨other, -⟩)
      · exact noneMarker_not_wild wild
      · exact other rfl
  · have outside : noneMarker ∉ allowApplication names (applicationNamed appName) := by
      rw [noneMarker_mem_allowApplication plain]
      exact marker
    rw [applicationsOfItem_some outside, ofNames_allowApplication]
    by_cases wild : Wild appName
    · exact iff_of_true (by simp [Allowance.allow, wild]) (.inl wild)
    · rw [or_iff_right wild, and_iff_right marker, read]
      cases readable with
      | true => simp
      | false => simpa [ofNames_empty] using allow_nothing_iff wild

private theorem deny_wild {allowance : Allowance} {name : String} (wild : Wild name) : allowance.deny name = some (.specific ∅) :=
  if_pos wild

/-- A set that is left is always the one that the header describes. -/
theorem denied_deny {names held left : Finset String} {readable : Bool} {appName : String}
    (read : names = if readable then held else ∅) (denied : denyApplication names (applicationNamed appName) = some left) :
    (Allowance.ofNames held).deny appName = some (.ofNames left) := by
  have meaning := ofNames_denyApplication names appName
  rw [denied, Option.map_some] at meaning
  by_cases wild : Wild appName
  · rw [meaning, deny_wild wild, deny_wild wild]
  · cases readable with
    | true =>
      obtain rfl : names = held := read
      exact meaning.symm
    | false =>
      obtain rfl : names = ∅ := read
      rw [ofNames_empty] at meaning
      simp [Allowance.deny, wild] at meaning

end Slate
