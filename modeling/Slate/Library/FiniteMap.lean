import Mathlib.Data.List.AList

/-! Finite maps that can be looked up and enumerated. They are Mathlib's
association lists at a constant type of values; the lemmas here say what each
update does to a lookup at any key, and relate lookups to enumeration. -/

namespace Slate.Library

universe u v

abbrev FiniteMap (κ : Type u) (α : Type v) := AList fun _ : κ => α

namespace FiniteMap

variable {κ : Type u} {α : Type v} [DecidableEq κ]

theorem lookup_insert (map : FiniteMap κ α) (key other : κ) (value : α) :
    (map.insert key value).lookup other = if other = key then some value else map.lookup other := by
  split
  next same => subst same; exact AList.lookup_insert map
  next different => exact AList.lookup_insert_ne different

theorem lookup_erase (map : FiniteMap κ α) (key other : κ) :
    (map.erase key).lookup other = if other = key then none else map.lookup other := by
  split
  next same => subst same; exact AList.lookup_erase _ map
  next different => exact AList.lookup_erase_ne different

@[simp] theorem lookup_empty (key : κ) : (∅ : FiniteMap κ α).lookup key = none :=
  AList.lookup_empty key

/-- The entries of a map, in the unspecified order of its representation. -/
def pairs (map : FiniteMap κ α) : List (κ × α) := map.entries.map fun entry => (entry.1, entry.2)

def values (map : FiniteMap κ α) : List α := map.pairs.map Prod.snd

theorem mem_pairs {map : FiniteMap κ α} {key : κ} {value : α} :
    (key, value) ∈ map.pairs ↔ map.lookup key = some value := by
  rw [← Option.mem_def, AList.mem_lookup_iff, pairs, List.mem_map]
  constructor
  · rintro ⟨⟨otherKey, otherValue⟩, member, same⟩
    cases same
    exact member
  · exact fun member => ⟨⟨key, value⟩, member, rfl⟩

theorem mem_values {map : FiniteMap κ α} {value : α} :
    value ∈ map.values ↔ ∃ key, map.lookup key = some value := by
  simp only [values, List.mem_map, Prod.exists, exists_eq_right, mem_pairs]

omit [DecidableEq κ] in
theorem pairs_keys_nodup (map : FiniteMap κ α) : (map.pairs.map Prod.fst).Nodup := by
  have keys : map.pairs.map Prod.fst = map.entries.keys := by
    simp only [pairs, List.map_map, List.keys]
    rfl
  rw [keys]
  exact map.nodupKeys

def select (map : FiniteMap κ α) (wanted : κ → α → Bool) : List (κ × α) :=
  map.pairs.filter fun entry => wanted entry.1 entry.2

theorem mem_select {map : FiniteMap κ α} {wanted : κ → α → Bool} {key : κ} {value : α} :
    (key, value) ∈ map.select wanted ↔ map.lookup key = some value ∧ wanted key value = true := by
  simp only [select, List.mem_filter, mem_pairs]

omit [DecidableEq κ] in
theorem select_keys_nodup (map : FiniteMap κ α) (wanted : κ → α → Bool) :
    ((map.select wanted).map Prod.fst).Nodup :=
  map.pairs_keys_nodup.sublist (List.filter_sublist.map _)

/-- A query that at most one key can satisfy selects nothing or one entry. -/
theorem select_cases (map : FiniteMap κ α) (wanted : κ → α → Bool)
    (unique : ∀ key value key' value', map.lookup key = some value → wanted key value = true →
      map.lookup key' = some value' → wanted key' value' = true → key = key') :
    (map.select wanted = [] ∧ ∀ key value, map.lookup key = some value → ¬ wanted key value = true) ∨
      ∃ key value, map.select wanted = [(key, value)] ∧ map.lookup key = some value ∧ wanted key value = true := by
  have distinct := select_keys_nodup map wanted
  have member : ∀ entry ∈ map.select wanted, map.lookup entry.1 = some entry.2 ∧ wanted entry.1 entry.2 = true :=
    fun _ found => mem_select.mp found
  cases selected : map.select wanted with
  | nil =>
    refine .inl ⟨rfl, fun key value found chosen => ?_⟩
    have inside := mem_select.mpr ⟨found, chosen⟩
    rw [selected] at inside
    exact List.not_mem_nil inside
  | cons first rest =>
    rw [selected] at distinct member
    cases rest with
    | nil =>
      obtain ⟨found, chosen⟩ := member first (by simp)
      exact .inr ⟨first.1, first.2, rfl, found, chosen⟩
    | cons second rest =>
      obtain ⟨found, chosen⟩ := member first (by simp)
      obtain ⟨found', chosen'⟩ := member second (by simp)
      have same := unique _ _ _ _ found chosen found' chosen'
      simp [same] at distinct

theorem isEmpty_iff {map : FiniteMap κ α} : map.pairs = [] ↔ ∀ key, map.lookup key = none := by
  constructor
  · intro empty key
    cases found : map.lookup key with
    | none => rfl
    | some value =>
      have member := mem_pairs.mpr found
      rw [empty] at member
      exact absurd member List.not_mem_nil
  · intro absent
    apply List.eq_nil_iff_forall_not_mem.mpr
    rintro ⟨key, value⟩ member
    have found := mem_pairs.mp member
    rw [absent key] at found
    cases found

end FiniteMap
end Slate.Library
