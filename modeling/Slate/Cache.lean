import Slate.Library.FiniteMap

/-! Expiring records and the multimap that groups them by category. Values
which compare equal share an identity; a category holds one record for each
identity and carries an expiration time of its own. -/

namespace Slate
open Library

universe u v w

/-- A reading of the steady clock, counted in nanoseconds from its epoch. -/
abbrev Time := Nat

abbrev CuckooHashMap (κ : Type u) (α : Type v) := FiniteMap κ α

structure CacheRecord (α : Type u) where
  record : α
  expirationTime : Time
  deriving DecidableEq, Repr

/-- Every record of a cache is kept under its own key and is one of the good ones. -/
def Keeps {κ : Type u} [DecidableEq κ] {α : Type v} (cache : CuckooHashMap κ (CacheRecord α)) (key : α → κ)
    (good : α → Prop) : Prop :=
  ∀ name entry, cache.lookup name = some entry → key entry.record = name ∧ good entry.record

namespace Keeps

variable {κ : Type u} [DecidableEq κ] {α : Type v} {cache : CuckooHashMap κ (CacheRecord α)} {key : α → κ}
  {good better : α → Prop}

theorem empty : Keeps (∅ : CuckooHashMap κ (CacheRecord α)) key good := by
  intro name entry found
  rw [FiniteMap.lookup_empty] at found
  cases found

theorem mono (keeps : Keeps cache key good) (implies : ∀ value, good value → better value) :
    Keeps cache key better :=
  fun name entry found => (keeps name entry found).imp id (implies _)

/-- Only records under other keys than the new one have to stay good. -/
theorem insert (keeps : Keeps cache key good) {record : CacheRecord α} (fresh : better record.record)
    (implies : ∀ value, key value ≠ key record.record → good value → better value) :
    Keeps (AList.insert (key record.record) record cache) key better := by
  intro name entry found
  rw [FiniteMap.lookup_insert] at found
  split at found
  next same =>
    cases found
    exact ⟨same.symm, fresh⟩
  next different =>
    obtain ⟨same, held⟩ := keeps name entry found
    exact ⟨same, implies _ (same ▸ different) held⟩

theorem erase (keeps : Keeps cache key good) {erased : κ}
    (implies : ∀ value, key value ≠ erased → good value → better value) :
    Keeps (AList.erase erased cache) key better := by
  intro name entry found
  rw [FiniteMap.lookup_erase] at found
  split at found
  next => cases found
  next different =>
    obtain ⟨same, held⟩ := keeps name entry found
    exact ⟨same, implies _ (same ▸ different) held⟩

end Keeps

/-- What the equality operator of a type compares. -/
class Identified (α : Type u) (ι : outParam (Type v)) where
  ident : α → ι

export Identified (ident)

instance : Identified String String := ⟨id⟩

@[simp] theorem ident_string (text : String) : ident text = text := rfl

/-- The values a key maps to, with their expiration as a whole. Records are
stored by the identity of what they hold. -/
structure Category (α : Type u) {ι : Type v} [Identified α ι] [DecidableEq ι] where
  items : FiniteMap ι (CacheRecord α)
  expiration : Time
  keyed : ∀ name entry, items.lookup name = some entry → ident entry.record = name

namespace Category

variable {α : Type u} {ι : Type v} [Identified α ι] [DecidableEq ι]

/-- The category a lookup reports for a key which is not present. Its
expiration is the epoch of the clock, which no reading precedes. -/
def absent : Category α := ⟨∅, 0, by simp⟩

/-- Adds the record, in place of one that compares equal to it. -/
def assign (category : Category α) (entry : CacheRecord α) : Category α where
  items := category.items.insert (ident entry.record) entry
  expiration := category.expiration
  keyed := by
    intro name found present
    rw [FiniteMap.lookup_insert] at present
    split at present
    next same => cases present; exact same.symm
    next => exact category.keyed name found present

def erase (category : Category α) (value : α) : Category α where
  items := AList.erase (ident value) category.items
  expiration := category.expiration
  keyed := by
    intro name found present
    rw [FiniteMap.lookup_erase] at present
    split at present
    next => cases present
    next => exact category.keyed name found present

def single (entry : CacheRecord α) (expiration : Time) : Category α :=
  { (absent.assign entry) with expiration }

def find (category : Category α) (value : α) : Option (CacheRecord α) := category.items.lookup (ident value)

def isEmpty (category : Category α) : Bool := category.items.entries.isEmpty

/-- The records of the category in the unspecified order of its set. -/
def members (category : Category α) : List (CacheRecord α) := category.items.values

theorem mem_members {category : Category α} {entry : CacheRecord α} :
    entry ∈ category.members ↔ category.find entry.record = some entry := by
  rw [members, FiniteMap.mem_values]
  constructor
  · rintro ⟨name, found⟩
    rw [find, category.keyed name entry found]
    exact found
  · exact fun found => ⟨_, found⟩

theorem members_ident_nodup (category : Category α) :
    (category.members.map fun entry => ident entry.record).Nodup := by
  have same : category.members.map (fun entry => ident entry.record) = category.items.pairs.map Prod.fst := by
    rw [members, FiniteMap.values, List.map_map]
    apply List.map_congr_left
    rintro ⟨name, entry⟩ member
    exact category.keyed name entry (FiniteMap.mem_pairs.mp member)
  rw [same]
  exact category.items.pairs_keys_nodup

end Category

abbrev ConcurrentMultimap (κ : Type u) (α : Type v) {ι : Type w} [Identified α ι] [DecidableEq ι] :=
  FiniteMap κ (Category α)

namespace ConcurrentMultimap

variable {κ : Type u} [DecidableEq κ] {α : Type v} {ι : Type w} [Identified α ι] [DecidableEq ι]

/-- Erases the key; returns how many items it mapped to. -/
def erase (map : ConcurrentMultimap κ α) (key : κ) : Nat × ConcurrentMultimap κ α :=
  match map.lookup key with
  | some category => (category.members.length, AList.erase key map)
  | none => (0, map)

/-- Erases one value under the key, and the whole category only if that leaves
it empty. -/
def eraseValue (map : ConcurrentMultimap κ α) (key : κ) (value : α) : Nat × ConcurrentMultimap κ α :=
  match map.lookup key with
  | some category =>
      let erased := if (category.find value).isSome then 1 else 0
      let rest := category.erase value
      (erased, if rest.isEmpty then AList.erase key map else map.insert key rest)
  | none => (0, map)

def find (map : ConcurrentMultimap κ α) (key : κ) : Category α := (map.lookup key).getD .absent

/-- The record stored under the key which compares equal to the value. -/
def findValue (map : ConcurrentMultimap κ α) (key : κ) (value : α) : Option (CacheRecord α) :=
  (map.find key).find value

/-- `now` is the clock reading that becomes the expiration of a category which
has to be created. -/
def insertOrAssign (map : ConcurrentMultimap κ α) (key : κ) (entry : CacheRecord α) (now : Time) :
    Bool × ConcurrentMultimap κ α :=
  match map.lookup key with
  | some category => ((category.find entry.record).isNone, map.insert key (category.assign entry))
  | none => (true, map.insert key (.single entry now))

def updateExpiration (map : ConcurrentMultimap κ α) (key : κ) (time : Time) : Bool × ConcurrentMultimap κ α :=
  match map.lookup key with
  | some category => (true, map.insert key { category with expiration := time })
  | none => (false, map)

def entryOf (map : ConcurrentMultimap κ α) (key : κ) (name : ι) : Option (CacheRecord α) :=
  (map.find key).items.lookup name

def Holds (map : ConcurrentMultimap κ α) (key : κ) (entry : CacheRecord α) : Prop :=
  map.findValue key entry.record = some entry

def stamp (map : ConcurrentMultimap κ α) (key : κ) : Time := (map.find key).expiration

theorem find_insert (map : ConcurrentMultimap κ α) (key other : κ) (category : Category α) :
    find (AList.insert key category map) other = if other = key then category else map.find other := by
  rw [find, FiniteMap.lookup_insert]
  split <;> rfl

theorem find_erase (map : ConcurrentMultimap κ α) (key other : κ) :
    find (AList.erase key map) other = if other = key then .absent else map.find other := by
  rw [find, FiniteMap.lookup_erase]
  split <;> rfl

theorem find_none {map : ConcurrentMultimap κ α} {key : κ} (missing : map.lookup key = none) :
    map.find key = .absent := by
  rw [find, missing]
  rfl

theorem find_some {map : ConcurrentMultimap κ α} {key : κ} {category : Category α}
    (present : map.lookup key = some category) : map.find key = category := by
  rw [find, present]
  rfl

theorem findValue_eq (map : ConcurrentMultimap κ α) (key : κ) (value : α) :
    map.findValue key value = map.entryOf key (ident value) := rfl

theorem entryOf_none {map : ConcurrentMultimap κ α} {key : κ} (missing : map.lookup key = none) (name : ι) :
    map.entryOf key name = none := by
  rw [entryOf, find_none missing]
  exact FiniteMap.lookup_empty _

theorem entryOf_some {map : ConcurrentMultimap κ α} {key : κ} {category : Category α}
    (present : map.lookup key = some category) (name : ι) : map.entryOf key name = category.items.lookup name := by
  rw [entryOf, find_some present]

@[simp] theorem entryOf_empty (key : κ) (name : ι) : entryOf (∅ : ConcurrentMultimap κ α) key name = none :=
  entryOf_none (FiniteMap.lookup_empty key) name

@[simp] theorem stamp_empty (key : κ) : stamp (∅ : ConcurrentMultimap κ α) key = 0 := by
  rw [stamp, find_none (FiniteMap.lookup_empty key)]
  rfl

theorem mem_find_members {map : ConcurrentMultimap κ α} {key : κ} {entry : CacheRecord α} :
    entry ∈ (map.find key).members ↔ map.Holds key entry := Category.mem_members

theorem ident_of_findValue {map : ConcurrentMultimap κ α} {key : κ} {value : α} {entry : CacheRecord α}
    (found : map.findValue key value = some entry) : ident entry.record = ident value :=
  (map.find key).keyed _ _ found

theorem holds_of_findValue {map : ConcurrentMultimap κ α} {key : κ} {value : α} {entry : CacheRecord α}
    (found : map.findValue key value = some entry) : map.Holds key entry := by
  have same := ident_of_findValue found
  rw [Holds, findValue_eq, same]
  exact found

theorem entryOf_insertOrAssign (map : ConcurrentMultimap κ α) (key other : κ) (entry : CacheRecord α) (now : Time)
    (name : ι) :
    (map.insertOrAssign key entry now).2.entryOf other name =
      if other = key ∧ name = ident entry.record then some entry else map.entryOf other name := by
  have found : (map.insertOrAssign key entry now).2.find other =
      if other = key then (map.insertOrAssign key entry now).2.find key else map.find other := by
    unfold insertOrAssign
    cases map.lookup key <;> simp only [find_insert, if_true]
  rw [entryOf, found]
  by_cases same : other = key
  · subst same
    simp only [if_true, true_and]
    unfold insertOrAssign
    cases present : map.lookup other with
    | some category =>
      simp only [find_insert, if_true, Category.assign, FiniteMap.lookup_insert, entryOf_some present]
    | none =>
      simp only [find_insert, if_true, Category.single, Category.assign, FiniteMap.lookup_insert, entryOf,
        find_none present]
  · simp only [same, if_false, false_and]
    rfl

theorem entryOf_eraseValue (map : ConcurrentMultimap κ α) (key other : κ) (erased : α) (name : ι) :
    (map.eraseValue key erased).2.entryOf other name =
      if other = key ∧ name = ident erased then none else map.entryOf other name := by
  unfold eraseValue
  cases present : map.lookup key with
  | none =>
    dsimp only
    split
    next same =>
      obtain ⟨rfl, -⟩ := same
      exact entryOf_none present name
    next => rfl
  | some category =>
    have kept : (category.erase erased).items.lookup name =
        if name = ident erased then none else category.items.lookup name := FiniteMap.lookup_erase _ _ _
    dsimp only
    split
    next empty =>
      have nothing : (category.erase erased).items.lookup name = none := by
        have entries : (category.erase erased).items.entries = [] := List.isEmpty_iff.mp empty
        have bare : (category.erase erased).items = ∅ := AList.ext entries
        rw [bare, FiniteMap.lookup_empty]
      rw [entryOf, find_erase]
      by_cases same : other = key
      · subst same
        rw [if_pos rfl]
        simp only [true_and]
        split
        next => exact FiniteMap.lookup_empty _
        next different =>
          rw [kept, if_neg different] at nothing
          rw [entryOf_some present, nothing]
          exact FiniteMap.lookup_empty _
      · simp only [same, if_false, false_and]
        rfl
    next =>
      rw [entryOf, find_insert]
      by_cases same : other = key
      · subst same
        simp only [if_true, true_and, kept, entryOf_some present]
      · simp only [same, if_false, false_and]
        rfl

theorem entryOf_erase (map : ConcurrentMultimap κ α) (key other : κ) (name : ι) :
    (map.erase key).2.entryOf other name = if other = key then none else map.entryOf other name := by
  unfold erase
  cases present : map.lookup key with
  | none =>
    dsimp only
    split
    next same =>
      subst same
      exact entryOf_none present name
    next => rfl
  | some category =>
    dsimp only
    rw [entryOf, find_erase]
    split
    next => exact FiniteMap.lookup_empty _
    next => rfl

theorem entryOf_updateExpiration (map : ConcurrentMultimap κ α) (key other : κ) (time : Time) (name : ι) :
    (map.updateExpiration key time).2.entryOf other name = map.entryOf other name := by
  unfold updateExpiration
  cases present : map.lookup key with
  | none => rfl
  | some category =>
    dsimp only
    rw [entryOf, find_insert]
    split
    next same =>
      subst same
      rw [entryOf_some present]
    next => rfl

theorem stamp_insertOrAssign (map : ConcurrentMultimap κ α) (key other : κ) (entry : CacheRecord α) (now : Time) :
    (map.insertOrAssign key entry now).2.stamp other =
      if other = key ∧ map.lookup key = none then now else map.stamp other := by
  unfold insertOrAssign
  cases present : map.lookup key with
  | none =>
    dsimp only
    rw [stamp, find_insert]
    simp only [and_true]
    split <;> rfl
  | some category =>
    dsimp only
    rw [stamp, find_insert]
    simp only [reduceCtorEq, and_false, if_false]
    split
    next same =>
      subst same
      rw [stamp, find_some present]
      rfl
    next => rfl

theorem stamp_eraseValue (map : ConcurrentMultimap κ α) (key other : κ) (erased : α) :
    (map.eraseValue key erased).2.stamp other = map.stamp other ∨ (map.eraseValue key erased).2.stamp other = 0 := by
  unfold eraseValue
  cases present : map.lookup key with
  | none => exact .inl rfl
  | some category =>
    dsimp only
    split
    next =>
      rw [stamp, find_erase]
      split
      next => exact .inr rfl
      next => exact .inl rfl
    next =>
      rw [stamp, find_insert]
      split
      next same =>
        subst same
        left
        rw [stamp, find_some present]
        rfl
      next => exact .inl rfl

theorem stamp_erase (map : ConcurrentMultimap κ α) (key other : κ) :
    (map.erase key).2.stamp other = if other = key then 0 else map.stamp other := by
  unfold erase
  cases present : map.lookup key with
  | none =>
    dsimp only
    split
    next same =>
      subst same
      rw [stamp, find_none present]
      rfl
    next => rfl
  | some category =>
    dsimp only
    rw [stamp, find_erase]
    split <;> rfl

theorem stamp_updateExpiration (map : ConcurrentMultimap κ α) (key other : κ) (time : Time) :
    (map.updateExpiration key time).2.stamp other =
      if other = key ∧ (map.lookup key).isSome then time else map.stamp other := by
  unfold updateExpiration
  cases present : map.lookup key with
  | none => simp
  | some category =>
    dsimp only
    rw [stamp, find_insert]
    simp only [Option.isSome_some, and_true]
    split <;> rfl

/-- Gives the same expiration to the categories of several keys. -/
def updateExpirations (map : ConcurrentMultimap κ α) (keys : List κ) (time : Time) : ConcurrentMultimap κ α :=
  keys.foldl (fun current key => (current.updateExpiration key time).2) map

theorem entryOf_updateExpirations (map : ConcurrentMultimap κ α) (keys : List κ) (time : Time) (other : κ) (name : ι) :
    (map.updateExpirations keys time).entryOf other name = map.entryOf other name := by
  induction keys generalizing map with
  | nil => rfl
  | cons key keys ih =>
    calc
      _ = (map.updateExpiration key time).2.entryOf other name := ih _
      _ = map.entryOf other name := entryOf_updateExpiration ..

end ConcurrentMultimap
end Slate
