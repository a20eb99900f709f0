import Slate.Listings
import Slate.Proofs.Lookups

/-! A table with a main cache of its rows and caches which group the same rows by
a key. Every cached record is a row read from the table, and a category that is
trusted has all rows with its key. -/

namespace Slate
open Library

section
variable {Row α : Type} [Identified α String]

/-- Every cached record is the reading of a row, and the cache has all rows
whenever it is trusted as a whole. -/
structure CacheAgrees (server : Server) (table : FiniteMap String Row) (reading : Row → α → Prop)
    (main : CuckooHashMap String (CacheRecord α)) (expiration : Time) : Prop where
  faithful : ∀ name entry, main.lookup name = some entry →
    ident entry.record = name ∧ ∃ row, table.lookup name = some row ∧ reading row entry.record
  complete : Trusted server expiration → ∀ name row, table.lookup name = some row → (main.lookup name).isSome = true

/-- Every record in the index is the reading of a row, under the key of that row,
and is in the main cache; a trusted category has all rows with its key. -/
structure IndexAgrees (server : Server) (table : FiniteMap String Row) (reading : Row → α → Prop) (key : Row → String)
    (main : CuckooHashMap String (CacheRecord α)) (index : ConcurrentMultimap String α) : Prop where
  faithful : ∀ category name entry, index.entryOf category name = some entry →
    ∃ row, table.lookup name = some row ∧ reading row entry.record ∧ key row = category
  cached : ∀ category name, (index.entryOf category name).isSome = true → (main.lookup name).isSome = true
  complete : ∀ category, Trusted server (index.stamp category) → ∀ name row, table.lookup name = some row →
    key row = category → (index.entryOf category name).isSome = true

/-- The table has this row, and is otherwise as before; the row is new, or it
was there already. -/
structure Puts (before after : FiniteMap String Row) (name : String) (row : Row) : Prop where
  present : after.lookup name = some row
  others : ∀ other, other ≠ name → after.lookup other = before.lookup other
  before : before.lookup name = none ∨ before.lookup name = some row

theorem Puts.insert {table : FiniteMap String Row} {name : String} {row : Row} (fresh : table.lookup name = none) :
    Puts table (AList.insert name row table) name row where
  present := by rw [FiniteMap.lookup_insert, if_pos rfl]
  others := fun other different => by rw [FiniteMap.lookup_insert, if_neg different]
  before := .inl fresh

theorem Puts.present_already {table : FiniteMap String Row} {name : String} {row : Row}
    (found : table.lookup name = some row) : Puts table table name row := ⟨found, fun _ _ => rfl, .inr found⟩

theorem Puts.kept {before after : FiniteMap String Row} {name other : String} {row old : Row}
    (puts : Puts before after name row) (found : before.lookup other = some old) : after.lookup other = some old := by
  by_cases same : other = name
  · subst same
    obtain absent | present := puts.before
    · rw [absent] at found
      cases found
    · rw [puts.present, ← present, found]
  · rw [puts.others other same, found]

variable {before after : Server} {table table' : FiniteMap String Row} {reading : Row → α → Prop} {key : Row → String}
  {main main' : CuckooHashMap String (CacheRecord α)} {index : ConcurrentMultimap String α} {expiration : Time}

/-- What is in a category stays there when another record enters. -/
theorem isSome_insertOrAssign {category : String} {name : String} (entered : String) (record : CacheRecord α)
    (created : Time) (present : (index.entryOf category name).isSome = true) :
    ((index.insertOrAssign entered record created).2.entryOf category name).isSome = true := by
  rw [ConcurrentMultimap.entryOf_insertOrAssign]
  split
  next => rfl
  next => exact present

theorem isSome_insertOrAssign_self (entered : String) (record : CacheRecord α) (created : Time) :
    ((index.insertOrAssign entered record created).2.entryOf entered (ident record.record)).isSome = true := by
  rw [ConcurrentMultimap.entryOf_insertOrAssign, if_pos ⟨rfl, rfl⟩]
  rfl

namespace CacheAgrees

theorem empty (server : Server) (table : FiniteMap String Row) (reading : Row → α → Prop) :
    CacheAgrees server table reading ∅ 0 where
  faithful := by simp
  complete := fun trusted => absurd trusted (not_trusted_zero server)

theorem later (agrees : CacheAgrees before table reading main expiration) (later : Later before after) :
    CacheAgrees after table reading main expiration :=
  ⟨agrees.faithful, fun trusted => agrees.complete (later.trusted trusted)⟩

theorem put (agrees : CacheAgrees before table reading main expiration) (later : Later before after) {row : Row}
    {record : CacheRecord α} (puts : Puts table table' (ident record.record) row) (read : reading row record.record) :
    CacheAgrees after table' reading (AList.insert (ident record.record) record main) expiration where
  faithful := by
    intro name entry found
    rw [FiniteMap.lookup_insert] at found
    split at found
    next same =>
      cases found
      exact ⟨same.symm, row, same ▸ puts.present, read⟩
    next =>
      obtain ⟨named, old, stored, known⟩ := agrees.faithful name entry found
      exact ⟨named, old, puts.kept stored, known⟩
  complete := by
    intro trusted name old found
    rw [FiniteMap.lookup_insert]
    split
    next => rfl
    next different => exact agrees.complete (later.trusted trusted) name old (puts.others name different ▸ found)

theorem erase (agrees : CacheAgrees before table reading main expiration) (later : Later before after) (name : String) :
    CacheAgrees after (AList.erase name table) reading (AList.erase name main) expiration where
  faithful := by
    intro other entry found
    rw [FiniteMap.lookup_erase] at found ⊢
    split at found
    next => cases found
    next different =>
      rw [if_neg different]
      exact agrees.faithful other entry found
  complete := by
    intro trusted other row found
    rw [FiniteMap.lookup_erase] at found ⊢
    split at found
    next => cases found
    next different =>
      rw [if_neg different]
      exact agrees.complete (later.trusted trusted) other row found

theorem eraseUncached (agrees : CacheAgrees before table reading main expiration) (later : Later before after)
    {name : String} (uncached : main.lookup name = none) :
    CacheAgrees after (AList.erase name table) reading main expiration where
  faithful := by
    intro other entry found
    obtain ⟨named, row, stored, read⟩ := agrees.faithful other entry found
    refine ⟨named, row, ?_, read⟩
    rw [FiniteMap.lookup_erase, if_neg]
    · exact stored
    · rintro rfl
      rw [uncached] at found
      cases found
  complete := by
    intro trusted other row found
    rw [FiniteMap.lookup_erase] at found
    split at found
    next => cases found
    next => exact agrees.complete (later.trusted trusted) other row found

/-- A cache that has every row may be trusted for any time. -/
theorem stamp (agrees : CacheAgrees before table reading main expiration)
    (filled : ∀ name row, table.lookup name = some row → (main.lookup name).isSome = true) (time : Time) :
    CacheAgrees after table reading main time := ⟨agrees.faithful, fun _ => filled⟩

end CacheAgrees

namespace IndexAgrees

theorem empty (server : Server) (table : FiniteMap String Row) (reading : Row → α → Prop) (key : Row → String) :
    IndexAgrees server table reading key ∅ (∅ : ConcurrentMultimap String α) where
  faithful := by simp
  cached := by simp
  complete := by
    intro category trusted
    rw [ConcurrentMultimap.stamp_empty] at trusted
    exact absurd trusted (not_trusted_zero server)

theorem later (agrees : IndexAgrees before table reading key main index) (later : Later before after) :
    IndexAgrees after table reading key main index :=
  ⟨agrees.faithful, agrees.cached, fun category trusted => agrees.complete category (later.trusted trusted)⟩

/-- The main cache may grow on its own. -/
theorem grow (agrees : IndexAgrees before table reading key main index) (name : String) (record : CacheRecord α) :
    IndexAgrees before table reading key (AList.insert name record main) index :=
  ⟨agrees.faithful, fun category other known => isSome_insert _ _ _ _ (agrees.cached category other known),
    agrees.complete⟩

/-- A row and its record enter together. -/
theorem put (agrees : IndexAgrees before table reading key main index) (later : Later before after)
    (steady : Steady after) {row : Row} {record : CacheRecord α} {created : Time}
    (puts : Puts table table' (ident record.record) row) (read : reading row record.record)
    (passed : created ≤ after.clock 0) :
    IndexAgrees after table' reading key (AList.insert (ident record.record) record main)
      (index.insertOrAssign (key row) record created).2 where
  faithful := by
    intro category name entry found
    rw [ConcurrentMultimap.entryOf_insertOrAssign] at found
    split at found
    next same =>
      cases found
      obtain ⟨rfl, rfl⟩ := same
      exact ⟨row, puts.present, read, rfl⟩
    next =>
      obtain ⟨old, stored, known, keyed⟩ := agrees.faithful category name entry found
      exact ⟨old, puts.kept stored, known, keyed⟩
  cached := by
    intro category name known
    rw [ConcurrentMultimap.entryOf_insertOrAssign] at known
    split at known
    next same =>
      rw [FiniteMap.lookup_insert, if_pos same.2]
      rfl
    next => exact isSome_insert _ _ _ _ (agrees.cached category name known)
  complete := by
    intro category trusted name old found keyed
    rw [ConcurrentMultimap.entryOf_insertOrAssign]
    split
    next => rfl
    next different =>
      rw [ConcurrentMultimap.stamp_insertOrAssign] at trusted
      split at trusted
      next => exact absurd trusted (steady.not_trusted passed)
      next =>
        refine agrees.complete category (later.trusted trusted) name old ?_ keyed
        rw [← puts.others name fun same => different ⟨?_, same⟩]
        · exact found
        · subst same
          rw [puts.present] at found
          cases found
          exact keyed.symm

/-- A row leaves the table, and its records the index and the main cache. A
category that is trusted afterwards has lost nothing else. -/
private theorem erased (agrees : IndexAgrees before table reading key main index) (later : Later before after)
    {name : String} {main' : CuckooHashMap String (CacheRecord α)} {index' : ConcurrentMultimap String α}
    (gone : ∀ category, index'.entryOf category name = none)
    (less : ∀ category other entry, index'.entryOf category other = some entry →
      index.entryOf category other = some entry)
    (kept : ∀ category, Trusted after (index'.stamp category) → Trusted after (index.stamp category) ∧
      ∀ other, other ≠ name → index'.entryOf category other = index.entryOf category other)
    (cache : ∀ other, other ≠ name → main'.lookup other = main.lookup other) :
    IndexAgrees after (AList.erase name table) reading key main' index' where
  faithful := by
    intro category other entry found
    obtain ⟨row, stored, read, keyed⟩ := agrees.faithful category other entry (less category other entry found)
    refine ⟨row, ?_, read, keyed⟩
    rw [FiniteMap.lookup_erase, if_neg]
    · exact stored
    · rintro rfl
      rw [gone category] at found
      cases found
  cached := by
    intro category other known
    obtain ⟨entry, found⟩ := Option.isSome_iff_exists.mp known
    rw [cache other]
    · exact agrees.cached category other (Option.isSome_iff_exists.mpr ⟨entry, less category other entry found⟩)
    · rintro rfl
      rw [gone category] at found
      cases found
  complete := by
    intro category trusted other row found keyed
    obtain ⟨still, same⟩ := kept category trusted
    rw [FiniteMap.lookup_erase] at found
    split at found
    next => cases found
    next different =>
      rw [same other different]
      exact agrees.complete category (later.trusted still) other row found keyed

theorem eraseUncached (agrees : IndexAgrees before table reading key main index) (later : Later before after)
    {name : String} (uncached : main.lookup name = none) :
    IndexAgrees after (AList.erase name table) reading key main index := by
  refine agrees.erased later (fun category => ?_) (fun _ _ _ => id) (fun _ trusted => ⟨trusted, fun _ _ => rfl⟩)
    fun _ _ => rfl
  cases found : index.entryOf category name with
  | none => rfl
  | some entry =>
    have cached := agrees.cached category name (Option.isSome_iff_exists.mpr ⟨entry, found⟩)
    rw [uncached] at cached
    cases cached

/-- The records of a row are all in the category of its key. -/
theorem elsewhere (agrees : IndexAgrees before table reading key main index) {name category : String}
    (keyed : ∀ row, table.lookup name = some row → key row = category) {other : String} (different : other ≠ category) :
    index.entryOf other name = none := by
  cases found : index.entryOf other name with
  | none => rfl
  | some entry =>
    obtain ⟨row, stored, -, same⟩ := agrees.faithful other name entry found
    exact absurd (same.symm.trans (keyed row stored)) different

theorem eraseValue (agrees : IndexAgrees before table reading key main index) (later : Later before after)
    {value : α} {category : String} (keyed : ∀ row, table.lookup (ident value) = some row → key row = category) :
    IndexAgrees after (AList.erase (ident value) table) reading key (AList.erase (ident value) main)
      (index.eraseValue category value).2 := by
  refine agrees.erased later (fun other => ?_) (fun other name entry found => ?_) (fun other trusted => ⟨?_, ?_⟩)
    fun other different => by rw [FiniteMap.lookup_erase, if_neg different]
  · rw [ConcurrentMultimap.entryOf_eraseValue]
    split
    next => rfl
    next different => exact agrees.elsewhere keyed fun same => different ⟨same, rfl⟩
  · rw [ConcurrentMultimap.entryOf_eraseValue] at found
    split at found
    next => cases found
    next => exact found
  · obtain same | zero := ConcurrentMultimap.stamp_eraseValue index category other value
    · rwa [same] at trusted
    · rw [zero] at trusted
      exact absurd trusted (not_trusted_zero after)
  · intro name different
    rw [ConcurrentMultimap.entryOf_eraseValue, if_neg fun same => different same.2]

/-- Dropping the whole category of a row also drops its expiration. -/
theorem eraseCategory (agrees : IndexAgrees before table reading key main index) (later : Later before after)
    {name category : String} (keyed : ∀ row, table.lookup name = some row → key row = category) :
    IndexAgrees after (AList.erase name table) reading key (AList.erase name main) (index.erase category).2 := by
  refine agrees.erased later (fun other => ?_) (fun other name entry found => ?_) (fun other trusted => ?_)
    fun other different => by rw [FiniteMap.lookup_erase, if_neg different]
  · rw [ConcurrentMultimap.entryOf_erase]
    split
    next => rfl
    next different => exact agrees.elsewhere keyed different
  · rw [ConcurrentMultimap.entryOf_erase] at found
    split at found
    next => cases found
    next => exact found
  · rw [ConcurrentMultimap.stamp_erase] at trusted
    split at trusted
    next => exact absurd trusted (not_trusted_zero after)
    next different =>
      refine ⟨trusted, fun name _ => ?_⟩
      rw [ConcurrentMultimap.entryOf_erase, if_neg different]

/-- A category that has all its rows may be stamped. -/
theorem stamp (agrees : IndexAgrees before table reading key main index) (later : Later before after)
    {category : String} (time : Time)
    (filled : ∀ name row, table.lookup name = some row → key row = category →
      (index.entryOf category name).isSome = true) :
    IndexAgrees after table reading key main (index.updateExpiration category time).2 where
  faithful := by
    intro other name entry found
    rw [ConcurrentMultimap.entryOf_updateExpiration] at found
    exact agrees.faithful other name entry found
  cached := by
    intro other name known
    rw [ConcurrentMultimap.entryOf_updateExpiration] at known
    exact agrees.cached other name known
  complete := by
    intro other trusted name row found keyed
    rw [ConcurrentMultimap.entryOf_updateExpiration]
    rw [ConcurrentMultimap.stamp_updateExpiration] at trusted
    split at trusted
    next same =>
      rw [same.1] at keyed ⊢
      exact filled name row found keyed
    next => exact agrees.complete other (later.trusted trusted) name row found keyed

/-- Where every row is in its category, all categories may be stamped. -/
theorem stampAll (agrees : IndexAgrees before table reading key main index) (categories : List String) (time : Time)
    (filled : ∀ name row, table.lookup name = some row → (index.entryOf (key row) name).isSome = true) :
    IndexAgrees after table reading key main (index.updateExpirations categories time) where
  faithful := by
    intro other name entry found
    rw [ConcurrentMultimap.entryOf_updateExpirations] at found
    exact agrees.faithful other name entry found
  cached := by
    intro other name known
    rw [ConcurrentMultimap.entryOf_updateExpirations] at known
    exact agrees.cached other name known
  complete := by
    intro other _ name row found keyed
    rw [ConcurrentMultimap.entryOf_updateExpirations, ← keyed]
    exact filled name row found

end IndexAgrees

/-- An answer has exactly the wanted rows, each once. -/
structure Lists (table : FiniteMap String Row) (reading : Row → α → Prop) (wanted : Row → Prop) (answer : List α) :
    Prop where
  nodup : (answer.map ident).Nodup
  sound : ∀ value ∈ answer, ∃ row, table.lookup (ident value) = some row ∧ reading row value ∧ wanted row
  complete : ∀ name row, table.lookup name = some row → wanted row → ∃ value ∈ answer, ident value = name

theorem Lists.congr {wanted wanted' : Row → Prop} {answer : List α} (lists : Lists table reading wanted answer)
    (same : ∀ name row, table.lookup name = some row → (wanted row ↔ wanted' row)) :
    Lists table reading wanted' answer where
  nodup := lists.nodup
  sound := by
    intro value member
    obtain ⟨row, stored, read, chosen⟩ := lists.sound value member
    exact ⟨row, stored, read, (same _ row stored).mp chosen⟩
  complete := fun name row stored chosen => lists.complete name row stored ((same name row stored).mpr chosen)

theorem Lists.nothing {wanted : Row → Prop} (none : ∀ name row, table.lookup name = some row → ¬ wanted row) :
    Lists table reading wanted ([] : List α) where
  nodup := by simp
  sound := by simp
  complete := fun name row stored chosen => absurd chosen (none name row stored)

/-- What a trusted main cache holds is the whole table. -/
theorem CacheAgrees.lists (agrees : CacheAgrees before table reading main expiration)
    (trusted : Trusted before expiration) :
    Lists table reading (fun _ => True) (main.values.map CacheRecord.record) where
  nodup := by
    have same : (main.values.map CacheRecord.record).map ident = main.pairs.map Prod.fst := by
      rw [FiniteMap.values, List.map_map, List.map_map]
      apply List.map_congr_left
      rintro ⟨name, entry⟩ member
      exact (agrees.faithful name entry (FiniteMap.mem_pairs.mp member)).1
    rw [same]
    exact main.pairs_keys_nodup
  sound := by
    intro value member
    obtain ⟨entry, listed, rfl⟩ := List.mem_map.mp member
    obtain ⟨name, found⟩ := FiniteMap.mem_values.mp listed
    obtain ⟨rfl, row, stored, read⟩ := agrees.faithful name entry found
    exact ⟨row, stored, read, trivial⟩
  complete := by
    intro name row stored _
    obtain ⟨entry, found⟩ := Option.isSome_iff_exists.mp (agrees.complete trusted name row stored)
    exact ⟨entry.record, List.mem_map.mpr ⟨entry, FiniteMap.mem_values.mpr ⟨name, found⟩, rfl⟩,
      (agrees.faithful name entry found).1⟩

/-- What a trusted category holds are all rows with its key. -/
theorem IndexAgrees.lists (agrees : IndexAgrees before table reading key main index) {category : String}
    (trusted : Trusted before (index.stamp category)) :
    Lists table reading (fun row => key row = category) ((index.find category).members.map CacheRecord.record) where
  nodup := by
    rw [List.map_map]
    exact (index.find category).members_ident_nodup
  sound := by
    intro value member
    obtain ⟨entry, listed, rfl⟩ := List.mem_map.mp member
    exact agrees.faithful category _ entry (ConcurrentMultimap.mem_find_members.mp listed)
  complete := by
    intro name row stored keyed
    obtain ⟨entry, found⟩ := Option.isSome_iff_exists.mp (agrees.complete category trusted name row stored keyed)
    have named : ident entry.record = name := (index.find category).keyed name entry found
    refine ⟨entry.record, List.mem_map.mpr ⟨entry, ConcurrentMultimap.mem_find_members.mpr ?_, rfl⟩, named⟩
    rw [ConcurrentMultimap.Holds, ConcurrentMultimap.findValue_eq, named]
    exact found

end
end Slate
