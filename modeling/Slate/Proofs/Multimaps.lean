import Mathlib.Data.Set.Card
import Slate.Multimap

/-! The multimap is a finite relation between keys and values, with an expiration for each key. -/

namespace Slate
open Library

universe u v w

variable {κ : Type u} [DecidableEq κ] {α : Type v} {ι : Type w} [Identified α ι] [DecidableEq ι]

/-- A finite relation that holds at most one of any values that compare equal under each key. -/
structure ExpiringRelation (κ : Type u) (α : Type v) {ι : Type w} [Identified α ι] where
  pairs : Set (κ × CacheRecord α)
  expires : κ → Time
  finite : pairs.Finite
  single : ∀ key entry other, (key, entry) ∈ pairs → (key, other) ∈ pairs →
    ident entry.record = ident other.record → entry = other

namespace ExpiringRelation

omit [DecidableEq κ] [DecidableEq ι] in
theorem ext {relation other : ExpiringRelation κ α} (pairs : relation.pairs = other.pairs)
    (expires : relation.expires = other.expires) : relation = other := by
  cases relation
  cases other
  cases pairs
  cases expires
  rfl

def values (relation : ExpiringRelation κ α) (key : κ) : Set (CacheRecord α) := {entry | (key, entry) ∈ relation.pairs}

def empty : ExpiringRelation κ α := ⟨∅, fun _ => 0, Set.finite_empty, by simp⟩

open Classical in
/-- The value under the key that compares equal to the given one. -/
noncomputable def held (relation : ExpiringRelation κ α) (key : κ) (value : α) : Option (CacheRecord α) :=
  if present : ∃ entry ∈ relation.values key, ident entry.record = ident value then some present.choose else none

open Classical in
/-- Leaves some of the pairs. A key with none of them has no expiration any more. -/
noncomputable def keep (relation : ExpiringRelation κ α) (kept : κ → CacheRecord α → Prop) : ExpiringRelation κ α where
  pairs := {pair ∈ relation.pairs | kept pair.1 pair.2}
  expires key := if ∃ entry ∈ relation.values key, kept key entry then relation.expires key else 0
  finite := relation.finite.subset fun _ member => member.1
  single key entry other first second same := relation.single key entry other first.1 second.1 same

open Classical in
/-- Adds a pair in place of one that compares equal to it. A key that had none gets the expiration. -/
noncomputable def put (relation : ExpiringRelation κ α) (key : κ) (entry : CacheRecord α) (now : Time) :
    ExpiringRelation κ α where
  pairs := {pair ∈ relation.pairs | ¬(pair.1 = key ∧ ident pair.2.record = ident entry.record)} ∪ {(key, entry)}
  expires other := if other = key ∧ relation.values key = ∅ then now else relation.expires other
  finite := (relation.finite.subset fun _ member => member.1).union (Set.finite_singleton _)
  single other first second member member' same := by
    simp only [Set.mem_union, Set.mem_ofPred_eq, Set.mem_singleton_iff, Prod.mk.injEq] at member member'
    rcases member with ⟨old, different⟩ | ⟨rfl, rfl⟩
    · rcases member' with ⟨old', -⟩ | ⟨rfl, rfl⟩
      · exact relation.single other first second old old' same
      · exact absurd ⟨rfl, same⟩ different
    · rcases member' with ⟨-, different⟩ | ⟨-, rfl⟩
      · exact absurd ⟨rfl, same.symm⟩ different
      · rfl

open Classical in
/-- What each operation is to do to the relation, and to return. -/
noncomputable def step (relation : ExpiringRelation κ α) :
    MultimapOperation κ α → MultimapResponse (Set (CacheRecord α)) α × ExpiringRelation κ α
  | .insert key entry now =>
    if (relation.held key entry.record).isSome then (.flag false, relation) else (.flag true, relation.put key entry now)
  | .insertOrAssign key entry now => (.flag (relation.held key entry.record).isNone, relation.put key entry now)
  | .update key entry =>
    if (relation.held key entry.record).isSome then (.flag true, relation.put key entry 0) else (.flag false, relation)
  | .erase key => (.erased (relation.values key).ncard, relation.keep fun other _ => other ≠ key)
  | .eraseValue key value =>
    (.erased (if (relation.held key value).isSome then 1 else 0),
      relation.keep fun other entry => ¬(other = key ∧ ident entry.record = ident value))
  | .updateExpiration key time =>
    if relation.values key = ∅ then (.flag false, relation)
    else (.flag true, { relation with expires := fun other => if other = key then time else relation.expires other })
  | .find key => (.category (relation.values key) (relation.expires key), relation)
  | .findValue key value => (.value (relation.held key value), relation)
  | .contains key => (.flag (decide (relation.values key ≠ ∅)), relation)
  | .containsValue key value => (.flag (relation.held key value).isSome, relation)

noncomputable def run : List (MultimapOperation κ α) → ExpiringRelation κ α →
    List (MultimapResponse (Set (CacheRecord α)) α) × ExpiringRelation κ α
  | [], relation => ([], relation)
  | operation :: operations, relation =>
    let stepped := relation.step operation
    let others := run operations stepped.2
    (stepped.1 :: others.1, others.2)

end ExpiringRelation

namespace ConcurrentMultimap

variable {map : ConcurrentMultimap κ α} {key : κ}

theorem holds_iff {entry : CacheRecord α} : map.Holds key entry ↔ map.entryOf key (ident entry.record) = some entry := Iff.rfl

/-- What is held is among the records of the category. -/
theorem member_of_holds {entry : CacheRecord α} (held : map.Holds key entry) :
    ∃ category, (key, category) ∈ FiniteMap.pairs map ∧ entry ∈ category.members := by
  cases present : map.lookup key with
  | none =>
    rw [holds_iff, entryOf_none present] at held
    cases held
  | some category =>
    have member := mem_find_members.mpr held
    rw [find_some present] at member
    exact ⟨category, FiniteMap.mem_pairs.mpr present, member⟩

def relation (map : ConcurrentMultimap κ α) : ExpiringRelation κ α where
  pairs := {pair | map.Holds pair.1 pair.2}
  expires := map.stamp
  finite := by
    let listed := (FiniteMap.pairs map).flatMap fun pair => pair.2.members.map fun entry => (pair.1, entry)
    apply (List.finite_toSet listed).subset
    rintro ⟨key, entry⟩ held
    obtain ⟨category, present, member⟩ := member_of_holds held
    exact List.mem_flatMap.mpr ⟨(key, category), present, List.mem_map_of_mem member⟩
  single key entry other first second same := by
    have found : map.entryOf key (ident entry.record) = some entry := first
    have found' : map.entryOf key (ident other.record) = some other := second
    rw [same, found'] at found
    exact (Option.some.inj found).symm

theorem mem_values {entry : CacheRecord α} : entry ∈ map.relation.values key ↔ map.Holds key entry := Iff.rfl

theorem held_relation (value : α) : map.relation.held key value = map.findValue key value := by
  unfold ExpiringRelation.held
  cases found : map.findValue key value with
  | none =>
    rw [dif_neg]
    rintro ⟨entry, held, same⟩
    have held : map.findValue key entry.record = some entry := held
    rw [findValue_eq, same, ← findValue_eq, found] at held
    cases held
  | some entry =>
    have present : ∃ entry ∈ map.relation.values key, ident entry.record = ident value :=
      ⟨entry, holds_of_findValue found, ident_of_findValue found⟩
    rw [dif_pos present]
    obtain ⟨held, same⟩ := present.choose_spec
    have chosen : map.findValue key present.choose.record = some present.choose := held
    rw [findValue_eq, same, ← findValue_eq, found] at chosen
    exact chosen.symm

def Filled (map : ConcurrentMultimap κ α) : Prop :=
  ∀ key category, map.lookup key = some category → ∃ entry, entry ∈ category.members

private theorem filled_empty : Filled (∅ : ConcurrentMultimap κ α) := by
  intro key category present
  rw [FiniteMap.lookup_empty] at present
  cases present

theorem filled_insert (filled : Filled map) {category : Category α} (some : ∃ entry, entry ∈ category.members) :
    Filled (AList.insert key category map) := by
  intro other found present
  rw [FiniteMap.lookup_insert] at present
  split at present
  next =>
    cases present
    exact some
  next => exact filled other found present

private theorem filled_erase (filled : Filled map) : Filled (AList.erase key map) := by
  intro other found present
  rw [FiniteMap.lookup_erase] at present
  split at present
  next => cases present
  next => exact filled other found present

/-- In such a multimap a key without values is none of the table. -/
theorem values_eq_empty (filled : Filled map) (key : κ) : map.relation.values key = ∅ ↔ map.lookup key = none := by
  constructor
  · intro nothing
    cases present : map.lookup key with
    | none => rfl
    | some category =>
      obtain ⟨entry, member⟩ := filled key category present
      have held : entry ∈ map.relation.values key := by
        rw [mem_values, ← mem_find_members, find_some present]
        exact member
      rw [nothing] at held
      cases held
  · intro missing
    ext entry
    rw [mem_values, holds_iff, entryOf_none missing]
    simp

private theorem member_assign (category : Category α) (entry : CacheRecord α) : entry ∈ (category.assign entry).members :=
  Category.mem_members.mpr (AList.lookup_insert category.items)

private theorem member_single (entry : CacheRecord α) (now : Time) : entry ∈ (Category.single entry now).members :=
  member_assign .absent entry

theorem filled_insertOrAssign (filled : Filled map) (key : κ) (entry : CacheRecord α) (now : Time) :
    Filled (map.insertOrAssign key entry now).2 := by
  unfold insertOrAssign
  cases map.lookup key with
  | none => exact filled_insert filled ⟨entry, member_single entry now⟩
  | some category => exact filled_insert filled ⟨entry, member_assign category entry⟩

private theorem filled_eraseValue (filled : Filled map) (key : κ) (value : α) : Filled (map.eraseValue key value).2 := by
  unfold eraseValue
  cases map.lookup key with
  | none => exact filled
  | some category =>
    dsimp only
    split
    next => exact filled_erase filled
    next some =>
      apply filled_insert filled
      apply List.exists_mem_of_ne_nil
      intro none
      rw [Category.members, FiniteMap.values, FiniteMap.pairs, List.map_map, List.map_eq_nil_iff] at none
      exact some (List.isEmpty_iff.mpr none)

/-- The insertion is the replacing one where nothing compares equal to the record. -/
theorem insert_eq (map : ConcurrentMultimap κ α) (key : κ) (entry : CacheRecord α) (now : Time) :
    map.insert key entry now =
      if (map.findValue key entry.record).isSome then (false, map) else (true, (map.insertOrAssign key entry now).2) := by
  unfold insert insertOrAssign findValue
  cases present : map.lookup key with
  | none =>
    rw [find_none present, Category.find, Category.absent, FiniteMap.lookup_empty]
    rfl
  | some category => rw [find_some present]

/-- The update is the replacing insertion where something compares equal to the record. -/
theorem update_eq (map : ConcurrentMultimap κ α) (key : κ) (entry : CacheRecord α) (now : Time) :
    map.update key entry =
      if (map.findValue key entry.record).isSome then (true, (map.insertOrAssign key entry now).2) else (false, map) := by
  unfold update insertOrAssign findValue
  cases present : map.lookup key with
  | none =>
    rw [find_none present, Category.find, Category.absent, FiniteMap.lookup_empty]
    rfl
  | some category => rw [find_some present]

private theorem insertOrAssign_fst (map : ConcurrentMultimap κ α) (key : κ) (entry : CacheRecord α) (now : Time) :
    (map.insertOrAssign key entry now).1 = (map.findValue key entry.record).isNone := by
  unfold insertOrAssign findValue
  cases present : map.lookup key with
  | none =>
    rw [find_none present, Category.find, Category.absent, FiniteMap.lookup_empty]
    rfl
  | some category => rw [find_some present]

theorem relation_insertOrAssign (filled : Filled map) (key : κ) (entry : CacheRecord α) (now : Time) :
    (map.insertOrAssign key entry now).2.relation = map.relation.put key entry now := by
  apply ExpiringRelation.ext
  · ext ⟨other, found⟩
    change (map.insertOrAssign key entry now).2.entryOf other (ident found.record) = some found ↔ _
    rw [entryOf_insertOrAssign]
    simp only [ExpiringRelation.put, Set.mem_union, Set.mem_ofPred_eq, Set.mem_singleton_iff, Prod.mk.injEq]
    by_cases here : other = key ∧ ident found.record = ident entry.record
    · rw [if_pos here, Option.some.injEq]
      constructor
      · rintro rfl
        exact .inr ⟨here.1, rfl⟩
      · rintro (⟨-, different⟩ | ⟨-, rfl⟩)
        · exact absurd here different
        · rfl
    · rw [if_neg here]
      constructor
      · exact fun held => .inl ⟨held, here⟩
      · rintro (⟨held, -⟩ | ⟨rfl, rfl⟩)
        · exact held
        · exact absurd ⟨rfl, rfl⟩ here
  · funext other
    change (map.insertOrAssign key entry now).2.stamp other = _
    rw [stamp_insertOrAssign, ExpiringRelation.put]
    simp only [values_eq_empty filled]
    rfl

private theorem stamp_of_missing {other : κ} (missing : map.lookup other = none) : map.stamp other = 0 := by
  rw [stamp, find_none missing]
  rfl

/-- What is left of a relation, where a key that is still in the table keeps its expiration. -/
theorem relation_keep {after : ConcurrentMultimap κ α} (filled : Filled after) {kept : κ → CacheRecord α → Prop}
    (holds : ∀ key entry, after.Holds key entry ↔ map.Holds key entry ∧ kept key entry)
    (stamps : ∀ key, after.lookup key ≠ none → after.stamp key = map.stamp key) :
    after.relation = map.relation.keep kept := by
  apply ExpiringRelation.ext
  · ext ⟨key, entry⟩
    exact holds key entry
  · funext key
    change after.stamp key = _
    simp only [ExpiringRelation.keep]
    have some : (∃ entry ∈ map.relation.values key, kept key entry) ↔ after.lookup key ≠ none := by
      rw [ne_eq, ← values_eq_empty filled, ← ne_eq, ← Set.nonempty_iff_ne_empty]
      exact exists_congr fun entry => (holds key entry).symm
    split
    next present => exact stamps key (some.mp present)
    next missing =>
      apply stamp_of_missing
      by_contra present
      exact missing (some.mpr present)

private theorem filled_eraseKey (filled : Filled map) (key : κ) : Filled (map.erase key).2 := by
  unfold erase
  cases map.lookup key with
  | none => exact filled
  | some category => exact filled_erase filled

private theorem relation_erase (filled : Filled map) (key : κ) :
    (map.erase key).2.relation = map.relation.keep fun other _ => other ≠ key := by
  apply relation_keep (filled_eraseKey filled key)
  · intro other entry
    rw [holds_iff, holds_iff, entryOf_erase]
    split
    next same => simp [same]
    next different => simp [different]
  · intro other present
    rw [stamp_erase]
    split
    next same =>
      subst same
      refine absurd ?_ present
      unfold erase
      cases missing : map.lookup other with
      | none => exact missing
      | some category => exact AList.lookup_erase other map
    next => rfl

private theorem relation_eraseValue (filled : Filled map) (key : κ) (value : α) :
    (map.eraseValue key value).2.relation =
      map.relation.keep fun other entry => ¬(other = key ∧ ident entry.record = ident value) := by
  apply relation_keep (filled_eraseValue filled key value)
  · intro other entry
    rw [holds_iff, holds_iff, entryOf_eraseValue]
    split
    next same => simp [same]
    next different => simp [different]
  · intro other present
    unfold eraseValue at present ⊢
    cases here : map.lookup key with
    | none => rfl
    | some category =>
      rw [here] at present
      dsimp only at present ⊢
      split at present
      next empty =>
        rw [FiniteMap.lookup_erase] at present
        rw [if_pos empty, stamp, find_erase]
        split
        next same => exact absurd (if_pos same) present
        next => rfl
      next some =>
        rw [if_neg some, stamp, find_insert]
        split
        next same =>
          subst same
          rw [stamp, find_some here]
          rfl
        next => rfl

private theorem erase_fst (map : ConcurrentMultimap κ α) (key : κ) : (map.erase key).1 = (map.relation.values key).ncard := by
  classical
  unfold erase
  cases present : map.lookup key with
  | none =>
    have nothing : map.relation.values key = ∅ := by
      ext entry
      rw [mem_values, holds_iff, entryOf_none present]
      simp
    rw [nothing, Set.ncard_empty]
  | some category =>
    have listed : map.relation.values key = (category.members.toFinset : Set (CacheRecord α)) := by
      ext entry
      rw [mem_values, ← mem_find_members, find_some present]
      simp
    have distinct : category.members.Nodup := category.members_ident_nodup.of_map
    rw [listed, Set.ncard_coe_finset, List.toFinset_card_of_nodup distinct]

private theorem eraseValue_fst (map : ConcurrentMultimap κ α) (key : κ) (value : α) :
    (map.eraseValue key value).1 = if (map.findValue key value).isSome then 1 else 0 := by
  unfold eraseValue findValue
  cases present : map.lookup key with
  | none =>
    rw [find_none present, Category.find, Category.absent, FiniteMap.lookup_empty]
    rfl
  | some category => rw [find_some present]

private theorem updateExpiration_fst (map : ConcurrentMultimap κ α) (key : κ) (time : Time) :
    (map.updateExpiration key time).1 = (map.lookup key).isSome := by
  unfold updateExpiration
  cases map.lookup key <;> rfl

private theorem filled_updateExpiration (filled : Filled map) (key : κ) (time : Time) :
    Filled (map.updateExpiration key time).2 := by
  unfold updateExpiration
  cases present : map.lookup key with
  | none => exact filled
  | some category =>
    obtain ⟨entry, member⟩ := filled key category present
    exact filled_insert filled ⟨entry, member⟩

private theorem relation_updateExpiration (key : κ) (time : Time) (present : map.lookup key ≠ none) :
    (map.updateExpiration key time).2.relation =
      { map.relation with expires := fun other => if other = key then time else map.relation.expires other } := by
  apply ExpiringRelation.ext
  · ext ⟨other, entry⟩
    change (map.updateExpiration key time).2.entryOf other (ident entry.record) = some entry ↔ _
    rw [entryOf_updateExpiration]
    rfl
  · funext other
    change (map.updateExpiration key time).2.stamp other = _
    rw [stamp_updateExpiration]
    simp only [Option.isSome_iff_ne_none.mpr present, and_true]
    rfl

end ConcurrentMultimap

def MultimapResponse.asSet (response : MultimapResponse (List (CacheRecord α)) α) :
    MultimapResponse (Set (CacheRecord α)) α :=
  match response with
  | flag result => .flag result
  | erased count => .erased count
  | category members expiration => .category {entry | entry ∈ members} expiration
  | value found => .value found

namespace MultimapOperation

def key : MultimapOperation κ α → κ
  | insert key _ _ | insertOrAssign key _ _ | update key _ | erase key | eraseValue key _
  | updateExpiration key _ | find key | findValue key _ | contains key | containsValue key _ => key

/-- The reading of the clock that an operation may give to a category. -/
def now : MultimapOperation κ α → Option Time
  | insert _ _ now | insertOrAssign _ _ now => some now
  | _ => none

def Refreshes (operation : MultimapOperation κ α) (key : κ) : Prop := ∃ time, operation = updateExpiration key time

end MultimapOperation

namespace ConcurrentMultimap

variable {map : ConcurrentMultimap κ α} {key : κ}

private theorem filled_step (filled : Filled map) (operation : MultimapOperation κ α) : Filled (map.step operation).2 := by
  cases operation with
  | insert key entry now =>
    simp only [step, insert_eq]
    split
    next => exact filled
    next => exact filled_insertOrAssign filled key entry now
  | insertOrAssign key entry now => exact filled_insertOrAssign filled key entry now
  | update key entry =>
    simp only [step, update_eq map key entry 0]
    split
    next => exact filled_insertOrAssign filled key entry 0
    next => exact filled
  | erase key => exact filled_eraseKey filled key
  | eraseValue key value => exact filled_eraseValue filled key value
  | updateExpiration key time => exact filled_updateExpiration filled key time
  | find key => exact filled
  | findValue key value => exact filled
  | contains key => exact filled
  | containsValue key value => exact filled

/-- Each operation does to the relation, and returns, what the relation's operation does. -/
theorem step_refines (filled : Filled map) (operation : MultimapOperation κ α) :
    ((map.step operation).1.asSet, (map.step operation).2.relation) = map.relation.step operation := by
  cases operation with
  | insert key entry now =>
    simp only [step, ExpiringRelation.step, insert_eq, held_relation]
    split
    next => rfl
    next => exact Prod.ext rfl (relation_insertOrAssign filled key entry now)
  | insertOrAssign key entry now =>
    simp only [step, ExpiringRelation.step, held_relation, ← insertOrAssign_fst map key entry now]
    exact Prod.ext rfl (relation_insertOrAssign filled key entry now)
  | update key entry =>
    simp only [step, ExpiringRelation.step, update_eq map key entry 0, held_relation]
    split
    next => exact Prod.ext rfl (relation_insertOrAssign filled key entry 0)
    next => rfl
  | erase key =>
    simp only [step, ExpiringRelation.step, ← erase_fst]
    exact Prod.ext rfl (relation_erase filled key)
  | eraseValue key value =>
    simp only [step, ExpiringRelation.step, held_relation, ← eraseValue_fst]
    exact Prod.ext rfl (relation_eraseValue filled key value)
  | updateExpiration key time =>
    simp only [step, ExpiringRelation.step, values_eq_empty filled]
    split
    next missing =>
      have unchanged : map.updateExpiration key time = (false, map) := by rw [updateExpiration, missing]
      rw [unchanged]
      rfl
    next present =>
      have done : (map.updateExpiration key time).1 = true := by
        rw [updateExpiration_fst]
        exact Option.isSome_iff_ne_none.mpr present
      exact Prod.ext (congrArg MultimapResponse.flag done) (relation_updateExpiration key time present)
  | find key =>
    have same : {entry | entry ∈ (map.find key).members} = map.relation.values key := by
      ext entry
      exact mem_find_members
    exact Prod.ext (congrArg (MultimapResponse.category · _) same) rfl
  | findValue key value =>
    simp only [step, ExpiringRelation.step, held_relation]
    rfl
  | contains key =>
    have same : map.contains key = decide (map.relation.values key ≠ ∅) := by
      rw [contains, Bool.eq_iff_iff, Option.isSome_iff_ne_none, decide_eq_true_eq, ne_eq, ne_eq, values_eq_empty filled]
    simp only [step, ExpiringRelation.step, same]
    exact Prod.ext (congrArg MultimapResponse.flag (decide_eq_decide.mpr Iff.rfl)) rfl
  | containsValue key value =>
    simp only [step, ExpiringRelation.step, held_relation]
    rfl

private theorem filled_run (filled : Filled map) (operations : List (MultimapOperation κ α)) : Filled (run operations map).2 := by
  induction operations generalizing map with
  | nil => exact filled
  | cons operation operations ih => exact ih (filled_step filled operation)

private theorem run_refines (filled : Filled map) (operations : List (MultimapOperation κ α)) :
    ((run operations map).1.map MultimapResponse.asSet, (run operations map).2.relation) =
      ExpiringRelation.run operations map.relation := by
  induction operations generalizing map with
  | nil => rfl
  | cons operation operations ih =>
    have others := ih (filled_step filled operation)
    rw [ExpiringRelation.run, ← step_refines filled operation]
    simp only [← others]
    rfl

private theorem relation_empty : relation (∅ : ConcurrentMultimap κ α) = .empty := by
  apply ExpiringRelation.ext
  · ext ⟨key, entry⟩
    change entryOf _ key (ident entry.record) = some entry ↔ _
    rw [entryOf_empty]
    simp [ExpiringRelation.empty]
  · funext key
    have nothing : stamp (∅ : ConcurrentMultimap κ α) key = 0 := stamp_empty key
    exact nothing

theorem run_append (map : ConcurrentMultimap κ α) (first second : List (MultimapOperation κ α)) :
    (run (first ++ second) map).2 = (run second (run first map).2).2 := by
  induction first generalizing map with
  | nil => rfl
  | cons operation first ih => exact ih (map.step operation).2

theorem find_insertOrAssign_of_ne {other : κ} (different : other ≠ key) (entry : CacheRecord α) (now : Time) :
    (map.insertOrAssign key entry now).2.find other = map.find other := by
  unfold insertOrAssign
  cases map.lookup key <;> exact (find_insert ..).trans (if_neg different)

/-- An operation leaves the values and the expiration of every other key as they were. -/
theorem find_step_of_ne (map : ConcurrentMultimap κ α) (operation : MultimapOperation κ α) {other : κ}
    (different : other ≠ operation.key) : (map.step operation).2.find other = map.find other := by
  cases operation with
  | insert key entry now =>
    simp only [step, insert_eq]
    split
    next => rfl
    next => exact find_insertOrAssign_of_ne different entry now
  | insertOrAssign key entry now => exact find_insertOrAssign_of_ne different entry now
  | update key entry =>
    simp only [step, update_eq map key entry 0]
    split
    next => exact find_insertOrAssign_of_ne different entry 0
    next => rfl
  | erase key =>
    change (map.erase key).2.find other = _
    unfold erase
    cases map.lookup key with
    | none => rfl
    | some category => exact (find_erase ..).trans (if_neg different)
  | eraseValue key value =>
    change (map.eraseValue key value).2.find other = _
    unfold eraseValue
    cases map.lookup key with
    | none => rfl
    | some category =>
      dsimp only
      split
      next => exact (find_erase ..).trans (if_neg different)
      next => exact (find_insert ..).trans (if_neg different)
  | updateExpiration key time =>
    change (map.updateExpiration key time).2.find other = _
    unfold updateExpiration
    cases map.lookup key with
    | none => rfl
    | some category => exact (find_insert ..).trans (if_neg different)
  | find key => rfl
  | findValue key value => rfl
  | contains key => rfl
  | containsValue key value => rfl

theorem stamp_insertOrAssign_le {other : κ} {time now : Time} (old : map.stamp other ≤ time) (read : now ≤ time)
    (key : κ) (entry : CacheRecord α) : (map.insertOrAssign key entry now).2.stamp other ≤ time := by
  rw [stamp_insertOrAssign]
  split
  next => exact read
  next => exact old

/-- Without a refreshment the expiration of a key stays at or below what the clock reads. -/
theorem stamp_step_le (map : ConcurrentMultimap κ α) {operation : MultimapOperation κ α} {other : κ} {time : Time}
    (old : map.stamp other ≤ time) (unrefreshed : ¬ operation.Refreshes other)
    (read : ∀ now, operation.now = some now → now ≤ time) : (map.step operation).2.stamp other ≤ time := by
  cases operation with
  | insert key entry now =>
    simp only [step, insert_eq]
    split
    next => exact old
    next => exact stamp_insertOrAssign_le old (read now rfl) key entry
  | insertOrAssign key entry now => exact stamp_insertOrAssign_le old (read now rfl) key entry
  | update key entry =>
    simp only [step, update_eq map key entry 0]
    split
    next => exact stamp_insertOrAssign_le old (Nat.zero_le time) key entry
    next => exact old
  | erase key =>
    change (map.erase key).2.stamp other ≤ time
    rw [stamp_erase]
    split
    next => exact Nat.zero_le time
    next => exact old
  | eraseValue key value =>
    change (map.eraseValue key value).2.stamp other ≤ time
    rcases stamp_eraseValue map key other value with same | none
    · exact same ▸ old
    · exact none ▸ Nat.zero_le time
  | updateExpiration key given =>
    change (map.updateExpiration key given).2.stamp other ≤ time
    rw [stamp_updateExpiration, if_neg]
    · exact old
    · rintro ⟨rfl, -⟩
      exact unrefreshed ⟨given, rfl⟩
  | find key => exact old
  | findValue key value => exact old
  | contains key => exact old
  | containsValue key value => exact old

private theorem stamp_run_le (map : ConcurrentMultimap κ α) {operations : List (MultimapOperation κ α)} {key : κ} {time : Time}
    (old : map.stamp key ≤ time) (unrefreshed : ∀ operation ∈ operations, ¬ operation.Refreshes key)
    (read : ∀ operation ∈ operations, ∀ now, operation.now = some now → now ≤ time) :
    (run operations map).2.stamp key ≤ time := by
  induction operations generalizing map with
  | nil => exact old
  | cons operation operations ih =>
    exact ih _ (stamp_step_le map old (unrefreshed operation (.head _)) (read operation (.head _)))
      (fun other member => unrefreshed other (.tail _ member)) fun other member => read other (.tail _ member)

end ConcurrentMultimap

structure ImplementsRelation (κ : Type u) [DecidableEq κ] (α : Type v) {ι : Type w} [Identified α ι] [DecidableEq ι] :
    Prop where
  /-- The responses, the pairs and the expirations are those of the relation. -/
  refines : ∀ operations : List (MultimapOperation κ α),
    ((ConcurrentMultimap.run operations ∅).1.map MultimapResponse.asSet, (ConcurrentMultimap.run operations ∅).2.relation) =
      ExpiringRelation.run operations .empty
  filled : ∀ (operations : List (MultimapOperation κ α)) key,
    (ConcurrentMultimap.run operations ∅).2.contains key = true ↔
      ∃ entry, (ConcurrentMultimap.run operations ∅).2.Holds key entry
  others : ∀ (operations : List (MultimapOperation κ α)) operation key, key ≠ operation.key →
    ((ConcurrentMultimap.run operations ∅).2.step operation).2.find key = (ConcurrentMultimap.run operations ∅).2.find key
  /-- No reading of the clock finds a category unexpired that has been erased and not refreshed since. -/
  recreated : ∀ (before since : List (MultimapOperation κ α)) key time,
    (ConcurrentMultimap.run before ∅).2.contains key = false → (∀ operation ∈ since, ¬ operation.Refreshes key) →
      (∀ operation ∈ since, ∀ now, operation.now = some now → now ≤ time) →
        ¬ time < ((ConcurrentMultimap.run (before ++ since) ∅).2.find key).expiration

/-- A concurrent multimap is a finite relation with an expiration for each of its keys. -/
theorem multimap_implementsRelation (κ : Type u) [DecidableEq κ] (α : Type v) {ι : Type w} [Identified α ι] [DecidableEq ι] :
    ImplementsRelation κ α := by
  constructor
  · intro operations
    rw [ConcurrentMultimap.run_refines ConcurrentMultimap.filled_empty, ConcurrentMultimap.relation_empty]
  · intro operations key
    have filled := ConcurrentMultimap.filled_run (ConcurrentMultimap.filled_empty (κ := κ) (α := α)) operations
    have values := ConcurrentMultimap.values_eq_empty filled key
    rw [ConcurrentMultimap.contains, Option.isSome_iff_ne_none, ne_eq, ← values, ← ne_eq, ← Set.nonempty_iff_ne_empty]
    exact Iff.rfl
  · intro operations operation key different
    exact ConcurrentMultimap.find_step_of_ne _ operation different
  · intro before since key time absent unrefreshed read
    have missing : (ConcurrentMultimap.run before ∅).2.lookup key = none := by
      rwa [ConcurrentMultimap.contains, Option.isSome_eq_false_iff, Option.isNone_iff_eq_none] at absent
    have none := ConcurrentMultimap.stamp_of_missing missing
    have bound := ConcurrentMultimap.stamp_run_le _ (none ▸ Nat.zero_le time) unrefreshed read
    rw [ConcurrentMultimap.run_append]
    exact Nat.not_lt.mpr bound

end Slate
