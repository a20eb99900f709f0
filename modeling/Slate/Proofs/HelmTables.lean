import Slate.Catalogue
import Slate.Library.Separators
import Mathlib.Data.List.DropRight

/-! The tables that `helm search` prints, and what the service reads from them. -/

namespace Slate
open Library

structure HelmRow where
  name : String
  chartVersion : String
  version : String
  description : String
  deriving DecidableEq, Repr

namespace HelmRow

def cells (row : HelmRow) : List String := [row.name, row.chartVersion, row.version, row.description]

def heading : HelmRow := ⟨"NAME", "CHART VERSION", "APP VERSION", "DESCRIPTION"⟩

end HelmRow

/-- The text has neither tabulators nor line breaks. -/
def Undivided (text : String) : Prop := '\t' ∉ text.toList ∧ '\n' ∉ text.toList

/-- How wide a text is, and what takes its place if it is too wide for a column. -/
structure HelmLayout where
  displayWidth : String → Nat
  cut : Nat → String → String
  empty : displayWidth "" = 0
  heading : 0 < displayWidth HelmRow.heading.description
  cut_undivided : ∀ width text, Undivided text → Undivided (cut width text)

namespace HelmLayout

variable (layout : HelmLayout) (width : Nat)

def columnWidth (cells : List String) : Nat := (cells.map fun cell => min width (layout.displayWidth cell)).foldr max 0

/-- Every column is filled up with blanks, the last one as well. -/
def shown (text : String) (column : Nat) : List Char :=
  if layout.displayWidth text ≤ width then
    text.toList ++ List.replicate (column - layout.displayWidth text) ' '
  else (layout.cut width text).toList

def shownCells (table : List HelmRow) (row : HelmRow) : List (List Char) :=
  let inColumn (column : HelmRow → String) := layout.shown width (column row) (layout.columnWidth width (table.map column))
  [inColumn HelmRow.name, inColumn HelmRow.chartVersion, inColumn HelmRow.version, inColumn HelmRow.description]

def line (table : List HelmRow) (row : HelmRow) : List Char := ['\t'].intercalate (layout.shownCells width table row)

def printed (rows : List HelmRow) : String :=
  if rows = [] then noResults ++ "\n"
  else
    let table := HelmRow.heading :: rows
    .ofList ((table.map (layout.line width table)).flatMap fun line => line ++ ['\n'])

/-- What is left of a text once the column around it is trimmed. -/
def read (text : String) : List Char :=
  stringTrim (if layout.displayWidth text ≤ width then text else layout.cut width text).toList

/-- The row is printed so that it can be read again. -/
def Whole (row : HelmRow) : Prop :=
  ∀ cell ∈ row.cells, layout.displayWidth cell ≤ width ∧ stringTrim cell.toList = cell.toList

instance (row : HelmRow) : Decidable (layout.Whole width row) := inferInstanceAs (Decidable (∀ _ ∈ _, _ ∧ _))

end HelmLayout

private theorem stringTrim_padded (text : List Char) (n : Nat) : stringTrim (text ++ List.replicate n ' ') = stringTrim text := by
  have blanks : (List.replicate n ' ').dropWhile isSpace = [] := by
    rw [List.dropWhile_eq_nil_iff]
    intro c member
    rw [List.eq_of_mem_replicate member]
    rfl
  have behind : ∀ front : List Char, (List.replicate n ' ' ++ front).dropWhile isSpace = front.dropWhile isSpace :=
    fun front => List.dropWhile_append_of_pos (List.dropWhile_eq_nil_iff.mp blanks)
  unfold stringTrim
  rw [List.dropWhile_append, blanks]
  split
  next none => rw [List.isEmpty_iff.mp none]
  next => rw [List.reverse_append, List.reverse_replicate, behind]

private theorem stringTrim_stringTrim (text : List Char) : stringTrim (stringTrim text) = stringTrim text := by
  have begins : (text.dropWhile isSpace).rdropWhile isSpace <+: text.dropWhile isSpace := List.rdropWhile_prefix _ _
  have front : ((text.dropWhile isSpace).rdropWhile isSpace).dropWhile isSpace = (text.dropWhile isSpace).rdropWhile isSpace := by
    rw [List.dropWhile_eq_self_iff]
    intro positive
    rw [begins.getElem positive]
    exact List.dropWhile_get_zero_not isSpace text _
  show ((stringTrim text).dropWhile isSpace).rdropWhile isSpace = _
  rw [show stringTrim text = (text.dropWhile isSpace).rdropWhile isSpace from rfl, front, List.rdropWhile_idempotent]

namespace HelmLayout

variable {layout : HelmLayout} {width : Nat} {table : List HelmRow} {row : HelmRow}

private theorem stringTrim_shown (text : String) (column : Nat) :
    stringTrim (layout.shown width text column) = layout.read width text := by
  unfold shown read
  split
  · exact stringTrim_padded _ _
  · rfl

theorem Whole.read (whole : layout.Whole width row) {cell : String} (member : cell ∈ row.cells) :
    layout.read width cell = cell.toList := by
  obtain ⟨fits, trimmed⟩ := whole cell member
  rw [HelmLayout.read, if_pos fits, trimmed]

theorem undivided_shown {text : String} (plain : Undivided text) (column : Nat) :
    '\t' ∉ layout.shown width text column ∧ '\n' ∉ layout.shown width text column := by
  have filled : ∀ c : Char, c ≠ ' ' → c ∉ text.toList →
      c ∉ text.toList ++ List.replicate (column - layout.displayWidth text) ' ' := by
    intro c other none member
    rcases List.mem_append.mp member with inside | behind
    · exact none inside
    · exact other (List.eq_of_mem_replicate behind)
  unfold shown
  split
  · exact ⟨filled _ (by decide) plain.1, filled _ (by decide) plain.2⟩
  · exact layout.cut_undivided width text plain

private theorem undivided_shownCells (plain : ∀ cell ∈ row.cells, Undivided cell) {shown : List Char}
    (member : shown ∈ layout.shownCells width table row) : '\t' ∉ shown ∧ '\n' ∉ shown := by
  simp only [HelmRow.cells, List.mem_cons, List.not_mem_nil, or_false, forall_eq_or_imp, forall_eq] at plain
  obtain ⟨name, chartVersion, version, description⟩ := plain
  simp only [shownCells, List.mem_cons, List.not_mem_nil, or_false] at member
  rcases member with rfl | rfl | rfl | rfl
  · exact undivided_shown name _
  · exact undivided_shown chartVersion _
  · exact undivided_shown version _
  · exact undivided_shown description _

/-- A row is printed on one line. -/
theorem line_unbroken (plain : ∀ cell ∈ row.cells, Undivided cell) : '\n' ∉ layout.line width table row := by
  have unbroken {shown : List Char} (member : shown ∈ layout.shownCells width table row) : '\n' ∉ shown :=
    (undivided_shownCells plain member).2
  have name := unbroken (.head _)
  have chartVersion := unbroken (.tail _ (.head _))
  have version := unbroken (.tail _ (.tail _ (.head _)))
  have description := unbroken (.tail _ (.tail _ (.tail _ (.head _))))
  simp only [line, shownCells, List.intercalate_cons_cons, List.intercalate_singleton, List.mem_append, not_or,
    List.mem_singleton]
  exact ⟨⟨name, by decide⟩, ⟨chartVersion, by decide⟩, ⟨version, by decide⟩, description⟩

private theorem heading_undivided : ∀ cell ∈ HelmRow.heading.cells, Undivided cell := by
  intro cell member
  simp only [HelmRow.cells, HelmRow.heading, List.mem_cons, List.not_mem_nil, or_false] at member
  rcases member with rfl | rfl | rfl | rfl <;> exact ⟨by decide, by decide⟩

/-- The lines under the first one are those of the rows. -/
theorem stringSplitLines_printed {rows : List HelmRow} (plain : ∀ row ∈ rows, ∀ cell ∈ row.cells, Undivided cell) :
    (stringSplitLines (layout.printed width rows)).tail = rows.map (layout.line width (HelmRow.heading :: rows)) := by
  unfold printed
  split
  next none =>
    rw [none, List.map_nil]
    decide
  next =>
    have unbroken : ∀ line ∈ (HelmRow.heading :: rows).map (layout.line width (HelmRow.heading :: rows)), '\n' ∉ line := by
      intro line member
      obtain ⟨row, among, rfl⟩ := List.mem_map.mp member
      rcases List.mem_cons.mp among with rfl | later
      · exact line_unbroken heading_undivided
      · exact line_unbroken (plain row later)
    rw [stringSplitLines, stringSplit, String.toList_ofList, splitOn_ended unbroken, if_pos (List.getLast?_concat ..),
      List.dropLast_concat, List.map_cons, List.tail_cons]

/-- The columns of a line, of which an empty last one is none. -/
theorem stringSplitColumns_line (plain : ∀ cell ∈ row.cells, Undivided cell) :
    stringSplitColumns (layout.line width table row) '\t' true =
      (if (layout.shownCells width table row).getLast? = some [] then (layout.shownCells width table row).dropLast
        else layout.shownCells width table row).map stringTrim := by
  have items : (layout.line width table row).splitOn '\t' = layout.shownCells width table row :=
    List.splitOn_intercalate '\t' (fun shown member => (undivided_shownCells plain member).1) (List.cons_ne_nil _ _)
  rw [stringSplitColumns, stringSplit, items]
  simp only [Bool.or_true, List.filter_true]

private theorem stringSplitColumns_name (plain : ∀ cell ∈ row.cells, Undivided cell) :
    ∃ columns, stringSplitColumns (layout.line width table row) '\t' true = layout.read width row.name :: columns := by
  rw [stringSplitColumns_line plain]
  split
  all_goals
    rw [shownCells]
    simp only [List.dropLast_cons_cons, List.map_cons, stringTrim_shown]
    exact ⟨_, rfl⟩

private theorem le_columnWidth {cells : List String} {cell : String} (member : cell ∈ cells) :
    min width (layout.displayWidth cell) ≤ layout.columnWidth width cells := by
  induction cells with
  | nil => cases member
  | cons first cells ih =>
    rw [columnWidth, List.map_cons, List.foldr_cons]
    rcases List.mem_cons.mp member with rfl | later
    · exact Nat.le_max_left _ _
    · exact Nat.le_trans (ih later) (Nat.le_max_right _ _)

/-- A row that is printed whole is read as it is. -/
theorem Whole.columns (whole : layout.Whole width row) (plain : ∀ cell ∈ row.cells, Undivided cell) (wide : 0 < width)
    (headed : HelmRow.heading ∈ table) :
    stringSplitColumns (layout.line width table row) '\t' true = row.cells.map String.toList := by
  have filled : layout.shown width row.description (layout.columnWidth width (table.map HelmRow.description)) ≠ [] := by
    rw [shown, if_pos (whole row.description (.tail _ (.tail _ (.tail _ (.head _))))).1]
    intro none
    obtain ⟨text, blanks⟩ := List.append_eq_nil_iff.mp none
    have column : min width (layout.displayWidth HelmRow.heading.description) ≤ layout.columnWidth width (table.map HelmRow.description) :=
      le_columnWidth (List.mem_map_of_mem (f := HelmRow.description) headed)
    have heading := layout.heading
    rw [List.replicate_eq_nil_iff, String.toList_injective (text.trans String.toList_empty.symm), layout.empty] at blanks
    omega
  have last : (layout.shownCells width table row).getLast? ≠ some [] := fun last => filled (Option.some.inj last)
  rw [stringSplitColumns_line plain, if_neg last]
  simp only [shownCells, HelmRow.cells, List.map_cons, List.map_nil, stringTrim_shown]
  rw [whole.read (.head _), whole.read (.tail _ (.head _)), whole.read (.tail _ (.tail _ (.head _))),
    whole.read (.tail _ (.tail _ (.tail _ (.head _))))]

private theorem stringTrim_read (text : String) : stringTrim (layout.read width text) = layout.read width text :=
  stringTrim_stringTrim _

/-- The line that is taken is the one of the row with the name, if every row that can be taken for it is printed whole. -/
theorem matchingLine_rows {rows : List HelmRow} {target appName : String} (wide : 0 < width) (headed : HelmRow.heading ∈ table)
    (plain : ∀ row ∈ rows, ∀ cell ∈ row.cells, Undivided cell)
    (whole : ∀ row ∈ rows, row.name = target ∨ layout.read width row.name = target.toList → layout.Whole width row)
    (member : row ∈ rows) (named : row.name = target) (only : ∀ other ∈ rows, other.name = target → other = row) :
    matchingLine target appName (rows.map (layout.line width table)) =
      .ok ⟨true, appName, row.version, row.chartVersion, row.description⟩ := by
  induction rows with
  | nil => cases member
  | cons first rows ih =>
    obtain ⟨columns, split⟩ : ∃ columns, stringSplitColumns (layout.line width table first) '\t' true =
        layout.read width first.name :: columns := stringSplitColumns_name (plain first (.head _))
    rw [List.map_cons, matchingLine, split]
    simp only [stringTrim_read]
    by_cases reads : layout.read width first.name = target.toList
    · have read := whole first (.head _) (.inr reads)
      have name : first.name = target := String.toList_injective ((read.read (.head _)).symm.trans reads)
      have same := read.columns (plain first (.head _)) wide headed
      rw [split] at same
      rw [if_pos reads, same, only first (.head _) name]
      simp only [HelmRow.cells, List.map_cons, applicationOfColumns, String.ofList_toList]
    · rw [if_neg reads]
      refine ih (fun row member => plain row (.tail _ member)) (fun row member => whole row (.tail _ member)) ?_
        fun other member => only other (.tail _ member)
      refine (List.mem_cons.mp member).resolve_left ?_
      rintro rfl
      exact reads (((whole row (.head _) (.inl named)).read (.head _)).trans (congrArg String.toList named))

end HelmLayout

end Slate
