import Mathlib.Data.List.Basic
import Mathlib.Algebra.Order.BigOperators.Group.List
import Mathlib.Tactic.Linarith

/-! Lines that are divided into columns, with one item between any two of them. Some of the
items belong to a column, and a line is in order when each of these stands in its own. -/

namespace Slate.Library.Columns

variable {α : Type} (widths : List Nat)

def columnStart (column : Nat) : Nat := (widths.take column).sum + column

/-- The positions of a column. The last one has no end. -/
def InColumn (column position : Nat) : Prop :=
  columnStart widths column ≤ position ∧
    (column + 1 < widths.length → position < columnStart widths column + widths.getD column 0)

def region (column : Nat) (items : List α) : List α :=
  let rest := items.drop (columnStart widths column)
  if column + 1 < widths.length then rest.take (widths.getD column 0) else rest

variable {widths}

theorem columnStart_succ {column : Nat} (inside : column < widths.length) :
    columnStart widths (column + 1) = columnStart widths column + widths.getD column 0 + 1 := by
  have width : widths.getD column 0 = widths[column] := by simp [inside]
  rw [columnStart, columnStart, List.take_succ_eq_append_getElem inside, List.sum_append, List.sum_singleton, width]
  omega

/-- A column ends before the next one starts. -/
theorem columnStart_end {first second : Nat} (before : first < second) (inside : second < widths.length) :
    columnStart widths first + widths.getD first 0 < columnStart widths second := by
  induction second with
  | zero => omega
  | succ second ih =>
    have next := @columnStart_succ widths second (by omega)
    by_cases same : first = second
    · subst same
      omega
    · have earlier := ih (by omega) (by omega)
      omega

theorem InColumn.unique {first second position : Nat} (one : InColumn widths first position)
    (other : InColumn widths second position) (firstInside : first < widths.length)
    (secondInside : second < widths.length) : first = second := by
  rcases Nat.lt_trichotomy first second with before | same | after
  · have apart := columnStart_end before secondInside
    have last := one.2 (by omega)
    have start := other.1
    omega
  · exact same
  · have apart := columnStart_end after firstInside
    have last := other.2 (by omega)
    have start := one.1
    omega

/-- A position is in a column or right before one. -/
theorem inColumn_or_gap (some : widths ≠ []) (position : Nat) : ∃ column < widths.length,
    InColumn widths column position ∨
      column + 1 < widths.length ∧ position = columnStart widths (column + 1) - 1 := by
  have positive := List.length_pos_iff.mpr some
  let started := fun column => columnStart widths column ≤ position ∧ column < widths.length
  have first : started 0 := ⟨Nat.zero_le _, positive⟩
  obtain ⟨starts, inside⟩ : started (Nat.findGreatest started widths.length) :=
    Nat.findGreatest_spec (Nat.zero_le _) first
  refine ⟨_, inside, ?_⟩
  by_cases last : Nat.findGreatest started widths.length + 1 < widths.length
  · have next : ¬ started (Nat.findGreatest started widths.length + 1) :=
      Nat.findGreatest_is_greatest (Nat.lt_succ_self _) last.le
    have step := columnStart_succ inside
    have short : position < columnStart widths (Nat.findGreatest started widths.length + 1) := by
      by_contra long
      exact next ⟨Nat.le_of_not_lt long, last⟩
    by_cases within : position < columnStart widths (Nat.findGreatest started widths.length) +
        widths.getD (Nat.findGreatest started widths.length) 0
    · exact .inl ⟨starts, fun _ => within⟩
    · refine .inr ⟨last, ?_⟩
      omega
  · exact .inl ⟨starts, fun more => absurd more last⟩

theorem mem_region {column : Nat} {items : List α} {item : α} :
    item ∈ region widths column items ↔ ∃ position, InColumn widths column position ∧ items[position]? = some item := by
  simp only [region, InColumn]
  split
  next more =>
    simp only [List.mem_iff_getElem?, List.getElem?_take, List.getElem?_drop]
    constructor
    · rintro ⟨offset, found⟩
      split at found
      next short => exact ⟨_, ⟨Nat.le_add_right _ _, fun _ => by omega⟩, found⟩
      next => cases found
    · rintro ⟨position, ⟨start, stop⟩, found⟩
      have short := stop more
      refine ⟨position - columnStart widths column, ?_⟩
      rw [if_pos (by omega), Nat.add_sub_of_le start]
      exact found
  next last =>
    simp only [List.mem_iff_getElem?, List.getElem?_drop]
    constructor
    · rintro ⟨offset, found⟩
      exact ⟨_, ⟨Nat.le_add_right _ _, fun more => absurd more last⟩, found⟩
    · rintro ⟨position, ⟨start, -⟩, found⟩
      exact ⟨position - columnStart widths column, by rwa [Nat.add_sub_of_le start]⟩

variable (owner : α → Option Nat) (widths) in
/-- Each item that belongs to a column stands in it. -/
def InPlace (items : List α) : Prop :=
  ∀ position item column, items[position]? = some item → owner item = some column → InColumn widths column position

variable {owner : α → Option Nat} {items : List α}

/-- With everything in its place, what is cut out of a line for a column is what belongs to it. -/
theorem InPlace.region_filter (inPlace : InPlace widths owner items) {column : Nat} (inside : column < widths.length)
    (owned : ∀ item ∈ items, ∀ other, owner item = some other → other < widths.length) :
    (region widths column items).filter (fun item => (owner item).isSome) =
      items.filter fun item => owner item == some column := by
  have before : (items.take (columnStart widths column)).filter (fun item => owner item == some column) = [] := by
    rw [List.filter_eq_nil_iff]
    intro item member belongs
    obtain ⟨position, found⟩ := List.mem_iff_getElem?.mp member
    rw [List.getElem?_take] at found
    split at found
    next short =>
      have place := inPlace position item column found (by simpa using belongs)
      have start := place.1
      omega
    next => cases found
  have middle : (region widths column items).filter (fun item => (owner item).isSome) =
      (region widths column items).filter fun item => owner item == some column := by
    apply List.filter_congr
    intro item member
    obtain ⟨position, place, found⟩ := mem_region.mp member
    cases belongs : owner item with
    | none => rfl
    | some other =>
      have same := (inPlace position item other found belongs).unique place
        (owned item (List.mem_of_getElem? found) other belongs) inside
      simp [same]
  rw [middle]
  conv_rhs => rw [← List.take_append_drop (columnStart widths column) items, List.filter_append, before, List.nil_append]
  simp only [region]
  split
  next more =>
    conv_rhs => rw [← List.take_append_drop (widths.getD column 0) (items.drop _), List.filter_append]
    refine (List.append_right_eq_self.mpr ?_).symm
    rw [List.filter_eq_nil_iff]
    intro item member belongs
    obtain ⟨offset, found⟩ := List.mem_iff_getElem?.mp member
    rw [List.getElem?_drop, List.getElem?_drop] at found
    have stop := (inPlace _ item column found (by simpa using belongs)).2 more
    omega
  next => rfl

/-- Nothing that belongs to a column stands right before one. -/
theorem InPlace.gap (inPlace : InPlace widths owner items) {column : Nat} (more : column + 1 < widths.length) {item : α}
    (found : items[columnStart widths (column + 1) - 1]? = some item)
    (owned : ∀ other, owner item = some other → other < widths.length) : owner item = none := by
  cases belongs : owner item with
  | none => rfl
  | some other =>
    exfalso
    have place := inPlace _ item other found belongs
    have start := place.1
    have step := @columnStart_succ widths column (by omega)
    rcases Nat.lt_trichotomy other column with before | same | after
    · have inside : column < widths.length := by omega
      have apart := columnStart_end before inside
      have stop := place.2 (by omega)
      omega
    · subst same
      have stop := place.2 more
      omega
    · have apart : columnStart widths (column + 1) ≤ columnStart widths other := by
        rcases Nat.eq_or_lt_of_le (Nat.succ_le_of_lt after) with same | later
        · rw [← same]
        · rw [Nat.succ_eq_add_one] at later
          have order := columnStart_end later (owned other belongs)
          omega
      omega

/-- A line of which each column is cut out with only its own items, and with nothing right
before a column, has everything in its place. -/
theorem inPlace_of_regions
    (own : ∀ column < widths.length, ∀ item ∈ region widths column items, ∀ other, owner item = some other → other = column)
    (gaps : ∀ column, column + 1 < widths.length →
      ∀ item ∈ items[columnStart widths (column + 1) - 1]?, owner item = none)
    (some : widths ≠ []) : InPlace widths owner items := by
  intro position item column found belongs
  obtain ⟨cut, inside, place | ⟨more, rfl⟩⟩ := inColumn_or_gap some position
  · rw [own cut inside item (mem_region.mpr ⟨position, place, found⟩) column belongs]
    exact place
  · rw [gaps cut more item found] at belongs
    cases belongs

end Slate.Library.Columns
