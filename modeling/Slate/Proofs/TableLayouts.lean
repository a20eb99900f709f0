import Slate.Proofs.TableLines
import Slate.Library.Separators

/-! Which tables the client lays out so that every cell can be read off its column. -/

namespace Slate
open Library Columns CellProgress

private theorem widen_getD (widths : List Nat) (row : List Bytes) (column : Nat) :
    (widen widths row).getD column 0 = max (widths.getD column 0) (row.getD column []).length := by
  induction row generalizing widths column with
  | nil => simp [widen]
  | cons cell row ih =>
    cases widths with
    | nil =>
      rw [widen]
      cases column with
      | zero => simp
      | succ column => simpa using ih [] column
    | cons width widths =>
      rw [widen]
      cases column with
      | zero => rfl
      | succ column => exact ih widths column

private theorem widen_length (widths : List Nat) (row : List Bytes) :
    (widen widths row).length = max widths.length row.length := by
  induction row generalizing widths with
  | nil => simp [widen]
  | cons cell row ih =>
    cases widths with
    | nil => simp [widen, ih]
    | cons width widths =>
      simp only [widen, List.length_cons, ih]
      omega

private theorem foldl_widen_length (items : List (List Bytes)) (widths : List Nat) (count : Nat)
    (length : widths.length ≤ count) (rows : ∀ row ∈ items, row.length = count) (some : items ≠ [] ∨ widths.length = count) :
    (items.foldl widen widths).length = count := by
  induction items generalizing widths with
  | nil => exact some.resolve_left fun none => none rfl
  | cons row items ih =>
    have here := rows row (.head _)
    have wide : (widen widths row).length = count := by
      rw [widen_length]
      omega
    exact ih _ wide.le (fun other member => rows other (.tail _ member)) (.inr wide)

private theorem foldl_widen_le (items : List (List Bytes)) (widths : List Nat) (column : Nat) :
    widths.getD column 0 ≤ (items.foldl widen widths).getD column 0 ∧
      ∀ row ∈ items, (row.getD column []).length ≤ (items.foldl widen widths).getD column 0 := by
  induction items generalizing widths with
  | nil => exact ⟨le_rfl, fun row member => absurd member List.not_mem_nil⟩
  | cons row items ih =>
    obtain ⟨start, others⟩ := ih (widen widths row)
    rw [widen_getD] at start
    refine ⟨le_trans (le_max_left _ _) start, fun other member => ?_⟩
    rcases List.mem_cons.mp member with rfl | member
    · exact le_trans (le_max_right _ _) start
    · exact others other member

private theorem foldl_widen_pos {items : List (List Bytes)} {widths : List Nat} {column : Nat}
    (wide : 0 < (items.foldl widen widths).getD column 0) :
    0 < widths.getD column 0 ∨ ∃ row ∈ items, row.getD column [] ≠ [] := by
  induction items generalizing widths with
  | nil => exact .inl wide
  | cons row items ih =>
    rcases ih wide with start | ⟨other, member, some⟩
    · rw [widen_getD] at start
      rcases lt_max_iff.mp start with earlier | here
      · exact .inl earlier
      · exact .inr ⟨row, .head _, List.length_pos_iff.mp here⟩
    · exact .inr ⟨other, .tail _ member, some⟩

/-- Rows of equal length without line breaks, with a description of each column. -/
structure Table where
  columns : List ColumnSpec
  items : List (List Bytes)
  nonempty : items ≠ []
  rectangular : ∀ row ∈ items, row.length = columns.length
  unbroken : ∀ row ∈ items, ∀ cell ∈ row, lineBreak ∉ cell

variable (table : Table)

namespace Table

theorem minColumnWidths_length : (minColumnWidths table.items).length = table.columns.length :=
  foldl_widen_length table.items [] _ (Nat.zero_le _) table.rectangular (.inl table.nonempty)

variable {table} in
theorem cell_le {row : List Bytes} (member : row ∈ table.items) (column : Nat) :
    (row.getD column []).length ≤ (minColumnWidths table.items).getD column 0 :=
  (foldl_widen_le table.items [] column).2 row member

/-- A column has a width exactly when it has some text. -/
theorem minColumnWidths_pos (column : Nat) :
    0 < (minColumnWidths table.items).getD column 0 ↔ ∃ row ∈ table.items, row.getD column [] ≠ [] := by
  constructor
  · intro wide
    rcases foldl_widen_pos wide with start | some
    · simp at start
    · exact some
  · rintro ⟨row, member, some⟩
    exact Nat.lt_of_lt_of_le (List.length_pos_iff.mpr some) (cell_le member column)

end Table

private theorem shorten_length (toSize : ℤ → Nat) (factor : ℚ) (columns : List ColumnSpec) (widths : List Nat) :
    (shorten toSize factor columns widths).length = widths.length := by
  induction widths generalizing columns with
  | nil => cases columns <;> rfl
  | cons width widths ih =>
    cases columns with
    | nil => rfl
    | cons spec columns =>
      rw [shorten, List.length_cons, List.length_cons, ih]

theorem shorten_getD (toSize : ℤ → Nat) (factor : ℚ) {columns : List ColumnSpec} {widths : List Nat} {column : Nat}
    {spec : ColumnSpec} (described : columns[column]? = some spec) (inside : column < widths.length) :
    (shorten toSize factor columns widths).getD column 0 =
      if spec.allowWrap then
        if toSize ⌊(widths.getD column 0 : ℚ) * factor⌋ = 0 then 1 else toSize ⌊(widths.getD column 0 : ℚ) * factor⌋
      else widths.getD column 0 := by
  induction widths generalizing columns column with
  | nil => cases inside
  | cons width widths ih =>
    cases columns with
    | nil => cases described
    | cons first columns =>
      cases column with
      | zero =>
        cases described
        rfl
      | succ column => exact ih described (Nat.lt_of_succ_lt_succ inside)

private theorem shorten_congr {toSize other : ℤ → Nat} {factor : ℚ} (positive : 0 ≤ factor)
    (same : ∀ number, 0 ≤ number → toSize number = other number) (columns : List ColumnSpec) (widths : List Nat) :
    shorten toSize factor columns widths = shorten other factor columns widths := by
  induction widths generalizing columns with
  | nil => cases columns <;> rfl
  | cons width widths ih =>
    cases columns with
    | nil => rfl
    | cons spec columns =>
      have whole : 0 ≤ ⌊(width : ℚ) * factor⌋ := Int.floor_nonneg.mpr (by positivity)
      rw [shorten, shorten, ih, same _ whole]

private theorem wrappableWidth_le (columns : List ColumnSpec) (widths : List Nat) : wrappableWidth columns widths ≤ widths.sum := by
  induction widths generalizing columns with
  | nil => cases columns <;> exact le_rfl
  | cons width widths ih =>
    cases columns with
    | nil => exact Nat.zero_le _
    | cons spec columns =>
      have rest := ih columns
      rw [wrappableWidth, List.sum_cons]
      split <;> omega

private theorem exists_wrappable {columns : List ColumnSpec} {widths : List Nat} (some : 0 < wrappableWidth columns widths) :
    ∃ column spec, columns[column]? = .some spec ∧ spec.allowWrap = true ∧ 0 < widths.getD column 0 := by
  induction widths generalizing columns with
  | nil => cases columns <;> cases some
  | cons width widths ih =>
    cases columns with
    | nil => cases some
    | cons spec columns =>
      rw [wrappableWidth] at some
      by_cases here : spec.allowWrap = true ∧ 0 < width
      · exact ⟨0, spec, rfl, here⟩
      · have rest : 0 < wrappableWidth columns widths := by
          split at some
          next wraps =>
            have none : width = 0 := by
              by_contra wide
              exact here ⟨wraps, Nat.pos_of_ne_zero wide⟩
            omega
          next => omega
        obtain ⟨column, other, described, wraps, wide⟩ := ih rest
        exact ⟨column + 1, other, described, wraps, wide⟩

/-- The factor is not negative exactly when there is room for the columns that are not wrapped. -/
theorem wrapFactor_nonneg {outputWidth total wrappable : Nat} (some : 0 < wrappable) :
    0 ≤ wrapFactor outputWidth total wrappable ↔ total - wrappable ≤ outputWidth := by
  have positive : (0 : ℚ) < wrappable := by exact_mod_cast some
  rw [wrapFactor, le_div_iff₀ positive, zero_mul, sub_nonneg]
  exact_mod_cast Iff.rfl

private theorem wrapFactor_le_one {outputWidth total wrappable : Nat} (wide : outputWidth ≤ total) (some : 0 < wrappable)
    (part : wrappable ≤ total) : wrapFactor outputWidth total wrappable ≤ 1 := by
  have positive : (0 : ℚ) < wrappable := by exact_mod_cast some
  have whole : (outputWidth : ℚ) ≤ total := by exact_mod_cast wide
  rw [wrapFactor, div_le_one positive, Nat.cast_sub part]
  linarith

private theorem columnWidths_length (toSize : ℤ → Nat) (outputWidth : Nat) (columns : List ColumnSpec) (items : List (List Bytes)) :
    (columnWidths toSize outputWidth columns items).length = (minColumnWidths items).length := by
  simp only [columnWidths]
  split
  · rfl
  · split
    · exact shorten_length _ _ _ _
    · rfl

namespace Table

/-- The table is not wider than the output. -/
def Fits (outputWidth : Nat) : Prop := totalWidth (minColumnWidths table.items) ≤ outputWidth

def wrappable : Nat := wrappableWidth table.columns (minColumnWidths table.items)

/-- What the columns that are not wrapped take up, with the blanks between all columns. -/
def fixedWidth : Nat := totalWidth (minColumnWidths table.items) - table.wrappable

def widths (toSize : ℤ → Nat) (outputWidth : Nat) : List Nat :=
  columnWidths toSize outputWidth table.columns table.items

variable {table}

theorem widths_of_fits {outputWidth : Nat} (fits : table.Fits outputWidth) (toSize : ℤ → Nat) :
    table.widths toSize outputWidth = minColumnWidths table.items := if_pos fits

theorem widths_of_narrow {outputWidth : Nat} (narrow : ¬ 2 < table.wrappable) (toSize : ℤ → Nat) :
    table.widths toSize outputWidth = minColumnWidths table.items := by
  simp only [widths, columnWidths]
  split
  · rfl
  · exact if_neg narrow

theorem widths_of_wide {outputWidth : Nat} (wide : ¬ table.Fits outputWidth) (several : 2 < table.wrappable)
    (toSize : ℤ → Nat) : table.widths toSize outputWidth =
      shorten toSize (wrapFactor outputWidth (totalWidth (minColumnWidths table.items)) table.wrappable) table.columns
        (minColumnWidths table.items) := by
  simp only [widths, columnWidths]
  exact (if_neg wide).trans (if_pos several)

private theorem widths_length (toSize : ℤ → Nat) (outputWidth : Nat) :
    (table.widths toSize outputWidth).length = table.columns.length := by
  rw [widths, columnWidths_length, minColumnWidths_length]

/-- A column is left without a width only when it has no text. -/
theorem widths_room {toSize : ℤ → Nat} {outputWidth column : Nat}
    (none : (table.widths toSize outputWidth).getD column 0 = 0) (inside : column < table.columns.length) :
    (minColumnWidths table.items).getD column 0 = 0 := by
  by_cases fits : table.Fits outputWidth
  · rwa [widths_of_fits fits] at none
  · by_cases several : 2 < table.wrappable
    · have described : table.columns[column]? = some table.columns[column] := List.getElem?_eq_getElem inside
      rw [widths_of_wide fits several,
        shorten_getD _ _ described (by rw [minColumnWidths_length]; exact inside)] at none
      split at none
      · split at none <;> omega
      · exact none
    · rwa [widths_of_narrow several] at none

end Table

/-- A conversion of whole numbers to unsigned ones. What it makes of a negative number is
not said. -/
def Converts (toSize : ℤ → Nat) : Prop := ∀ size : Nat, toSize size = size

private theorem Converts.eq_toNat {toSize : ℤ → Nat} (converts : Converts toSize) (number : ℤ) (positive : 0 ≤ number) :
    toSize number = number.toNat := by
  obtain ⟨size, rfl⟩ := Int.eq_ofNat_of_zero_le positive
  exact converts size

/-- Each wrappable column has some width, and not more than its texts need. -/
def WidthsKept (toSize : ℤ → Nat) (outputWidth : Nat) : Prop :=
  ∀ column spec, table.columns[column]? = some spec → spec.allowWrap = true →
    1 ≤ (table.widths toSize outputWidth).getD column 0 ∧
      (table.widths toSize outputWidth).getD column 0 ≤ (minColumnWidths table.items).getD column 0

/-- A table whose wrappable columns all have some text, printed where there is room for the
columns that are not wrapped. -/
structure Roomy (outputWidth : Nat) : Prop where
  texts : ∀ column spec, table.columns[column]? = some spec → spec.allowWrap = true →
    ∃ row ∈ table.items, row.getD column [] ≠ []
  room : ¬ table.Fits outputWidth → 2 < table.wrappable → table.fixedWidth ≤ outputWidth

variable {table}

private theorem Roomy.widths_eq {outputWidth : Nat} (roomy : Roomy table outputWidth) {toSize : ℤ → Nat}
    (converts : Converts toSize) : table.widths toSize outputWidth = table.widths Int.toNat outputWidth := by
  by_cases fits : table.Fits outputWidth
  · rw [Table.widths_of_fits fits, Table.widths_of_fits fits]
  · by_cases several : 2 < table.wrappable
    · rw [Table.widths_of_wide fits several, Table.widths_of_wide fits several]
      exact shorten_congr ((wrapFactor_nonneg (by omega)).mpr (roomy.room fits several)) converts.eq_toNat _ _
    · rw [Table.widths_of_narrow several, Table.widths_of_narrow several]

private theorem Roomy.widthsKept {outputWidth : Nat} (roomy : Roomy table outputWidth) {toSize : ℤ → Nat}
    (converts : Converts toSize) : WidthsKept table toSize outputWidth := by
  intro column spec described wraps
  have natural := (table.minColumnWidths_pos column).mpr (roomy.texts column spec described wraps)
  by_cases fits : table.Fits outputWidth
  · rw [Table.widths_of_fits fits]
    exact ⟨natural, le_rfl⟩
  · by_cases several : 2 < table.wrappable
    · have inside : column < (minColumnWidths table.items).length := by
        rw [table.minColumnWidths_length]
        exact (List.getElem?_eq_some_iff.mp described).1
      have part : table.wrappable ≤ totalWidth (minColumnWidths table.items) :=
        (wrappableWidth_le _ _).trans (Nat.le_add_right _ _)
      have low := (wrapFactor_nonneg (by omega)).mpr (roomy.room fits several)
      have high := wrapFactor_le_one (Nat.le_of_not_le fits) (by omega) part
      rw [Table.widths_of_wide fits several, shorten_getD _ _ described inside, if_pos wraps]
      generalize wrapFactor outputWidth (totalWidth (minColumnWidths table.items)) table.wrappable = factor at low high
      generalize (minColumnWidths table.items).getD column 0 = width at natural
      have less : (width : ℚ) * factor ≤ width := mul_le_of_le_one_right (Nat.cast_nonneg _) high
      have whole : 0 ≤ ⌊(width : ℚ) * factor⌋ := Int.floor_nonneg.mpr (by positivity)
      have bound : ⌊(width : ℚ) * factor⌋ ≤ width := by
        have floor := Int.floor_mono less
        rwa [Int.floor_natCast] at floor
      rw [converts.eq_toNat _ whole]
      split <;> omega
    · rw [Table.widths_of_narrow several]
      exact ⟨natural, le_rfl⟩

/-- A negative factor can be converted to anything, which the widths do not survive. -/
theorem roomy_of_widthsKept {outputWidth : Nat}
    (kept : ∀ toSize, Converts toSize → WidthsKept table toSize outputWidth) : Roomy table outputWidth := by
  refine ⟨fun column spec described wraps => ?_, fun wide several => ?_⟩
  · obtain ⟨some, short⟩ := kept Int.toNat (fun size => rfl) column spec described wraps
    exact (table.minColumnWidths_pos column).mp (some.trans short)
  · by_contra cramped
    obtain ⟨column, spec, described, wraps, natural⟩ :=
      @exists_wrappable table.columns (minColumnWidths table.items) (Nat.lt_trans Nat.two_pos several)
    have inside : column < (minColumnWidths table.items).length := by
      rw [table.minColumnWidths_length]
      exact (List.getElem?_eq_some_iff.mp described).1
    let width := (minColumnWidths table.items).getD column 0
    let toSize : ℤ → Nat := fun number => if number < 0 then width + 1 else number.toNat
    have converts : Converts toSize := fun size => if_neg (by omega)
    have negative : wrapFactor outputWidth (totalWidth (minColumnWidths table.items)) table.wrappable < 0 := by
      by_contra positive
      exact cramped ((wrapFactor_nonneg (by omega)).mp (le_of_not_gt positive))
    have below : ⌊(width : ℚ) * wrapFactor outputWidth (totalWidth (minColumnWidths table.items)) table.wrappable⌋ < 0 := by
      rw [Int.floor_lt, Int.cast_zero]
      exact mul_neg_of_pos_of_neg (by exact_mod_cast natural) negative
    have much := (kept toSize converts column spec described wraps).2
    have made : toSize ⌊(width : ℚ) * wrapFactor outputWidth (totalWidth (minColumnWidths table.items)) table.wrappable⌋ =
        width + 1 := if_pos below
    rw [Table.widths_of_wide wide several, shorten_getD _ _ described inside, if_pos wraps, made,
      if_neg (Nat.succ_ne_zero _)] at much
    exact absurd much (Nat.not_succ_le_self _)

variable {settings : OutputSettings} {headers : Bool} {row : Nat}

private theorem startRow_width {columns : List ColumnSpec} {widths : List Nat} {cells : List Bytes}
    (described : widths.length = columns.length) (filled : cells.length = columns.length) :
    (startRow columns widths cells).map CellProgress.width = widths := by
  induction columns generalizing widths cells with
  | nil => rw [List.eq_nil_of_length_eq_zero described]; rfl
  | cons spec columns ih =>
    obtain ⟨width, widths, rfl⟩ := List.exists_cons_of_length_eq_add_one described
    obtain ⟨cell, cells, rfl⟩ := List.exists_cons_of_length_eq_add_one filled
    rw [startRow, List.map_cons, ih (Nat.succ.inj described) (Nat.succ.inj filled)]

private theorem startRow_text {columns : List ColumnSpec} {widths : List Nat} {cells : List Bytes}
    (described : widths.length = columns.length) (filled : cells.length = columns.length) :
    (startRow columns widths cells).map CellProgress.text = cells := by
  induction columns generalizing widths cells with
  | nil => rw [List.eq_nil_of_length_eq_zero filled]; cases widths <;> rfl
  | cons spec columns ih =>
    obtain ⟨width, widths, rfl⟩ := List.exists_cons_of_length_eq_add_one described
    obtain ⟨cell, cells, rfl⟩ := List.exists_cons_of_length_eq_add_one filled
    rw [startRow, List.map_cons, ih (Nat.succ.inj described) (Nat.succ.inj filled)]

/-- A row starts with nothing printed, with the widths and the texts of its columns. -/
theorem mem_startRow {columns : List ColumnSpec} {widths : List Nat} {cells : List Bytes} {cell : CellProgress}
    (member : cell ∈ startRow columns widths cells) : cell.printed = 0 ∧ cell.done = false ∧
      ∃ column < columns.length, cell.width = widths.getD column 0 ∧ cell.text = cells.getD column [] := by
  induction columns generalizing widths cells with
  | nil => cases member
  | cons spec columns ih =>
    match widths, cells with
    | [], _ => cases member
    | _ :: _, [] => cases member
    | width :: widths, text :: cells =>
      rcases List.mem_cons.mp member with rfl | member
      · exact ⟨rfl, rfl, 0, Nat.succ_pos _, rfl, rfl⟩
      · obtain ⟨start, going, column, inside, same⟩ := ih member
        exact ⟨start, going, column + 1, Nat.succ_lt_succ inside, same⟩

private theorem fresh_startRow (columns : List ColumnSpec) (widths : List Nat) (cells : List Bytes) :
    Fresh (startRow columns widths cells) := by
  intro cell member
  obtain ⟨start, going, -⟩ := mem_startRow member
  exact ⟨start, going⟩

private theorem sound_startRow {columns : List ColumnSpec} {widths : List Nat} {cells : List Bytes}
    (room : ∀ column < columns.length, widths.getD column 0 = 0 → cells.getD column [] = []) :
    ∀ cell ∈ startRow columns widths cells, cell.Sound := by
  intro cell member
  obtain ⟨start, going, column, inside, width, text⟩ := mem_startRow member
  refine ⟨fun none => ?_, .inl start, fun done => ?_⟩
  · rw [text]
    exact room column inside (width ▸ none)
  · rw [going] at done
    cases done

/-- A row of cells that fit is printed as the first line of cells that are not wrapped. -/
theorem printRow_eq (plain : settings.useANSICodes = false) (column : Nat) {widths : List Nat} {cells : List Bytes}
    (fits : List.Forall₂ (fun width (cell : Bytes) => cell.length ≤ width) widths cells) :
    ∃ padding, printRow settings headers row column widths cells =
      (printLine settings headers row column (startRow (cells.map fun _ => ⟨false⟩) widths cells)).1 ++
        List.replicate padding .blank := by
  induction fits generalizing column with
  | nil => exact ⟨0, rfl⟩
  | @cons width cell widths cells short rest ih =>
    obtain ⟨padding, line⟩ := ih (column + 1)
    have whole : (CellProgress.mk width false cell 0 false).toPrint column = cellGlyphs column cell := by
      simp [toPrint, lenToPrint, cellGlyphs, short]
    simp only [List.map_cons, startRow, printRow, inserted_plain plain, plain, Bool.false_and, Bool.false_eq_true,
      if_false, Nat.add_zero, line, printLine_cons plain, CellProgress.field, whole]
    cases rest with
    | nil =>
      refine ⟨padding + (width - (cellGlyphs column cell).length), ?_⟩
      simp only [setw, printLine, startRow, List.map_nil, List.isEmpty_nil, if_true, List.nil_append, List.append_nil,
        List.append_assoc, List.replicate_append_replicate, Nat.add_comm]
    | cons => exact ⟨padding, by simp only [startRow, List.map_cons, List.isEmpty_cons, Bool.false_eq_true, if_false,
        List.append_assoc]⟩

/-- Blanks at the end of a line change nothing. -/
theorem RowKept.padded {widths : List Nat} {cells : List Bytes} {line : Line} (length : cells.length = widths.length)
    (columned : widths ≠ []) (made : MadeOf cells line) (kept : RowKept widths cells [line]) (padding : Nat) :
    RowKept widths cells [line ++ List.replicate padding .blank] := by
  have madePadded : MadeOf cells (line ++ List.replicate padding .blank) := by
    intro glyph member
    rcases List.mem_append.mp member with inside | blank
    · exact made glyph inside
    · exact .inl (List.eq_of_mem_replicate blank)
  rw [rowKept_iff length columned (by simpa using madePadded)]
  rw [rowKept_iff length columned (by simpa using made)] at kept
  obtain ⟨inPlace, shows⟩ := kept
  constructor
  · rw [List.forall_mem_singleton] at inPlace ⊢
    intro position glyph column found belongs
    by_cases inside : position < line.length
    · rw [List.getElem?_append_left inside] at found
      exact inPlace position glyph column found belongs
    · rw [List.getElem?_append_right (Nat.le_of_not_lt inside)] at found
      rw [List.eq_of_mem_replicate (List.mem_of_getElem? found)] at belongs
      cases belongs
  · intro column inside
    have none : (List.replicate padding Glyph.blank).filter (fun glyph => glyph.owner == some column) = [] := by
      rw [List.filter_eq_nil_iff]
      intro glyph member
      rw [List.eq_of_mem_replicate member]
      exact Bool.false_ne_true
    have line := shows column inside
    simp only [collected, List.flatMap_cons, List.flatMap_nil, List.append_nil] at line ⊢
    rw [List.filter_append, none, List.append_nil, line]

private theorem startRow_whole {widths : List Nat} {cells : List Bytes}
    (fits : List.Forall₂ (fun width (cell : Bytes) => cell.length ≤ width) widths cells) :
    ∀ cell ∈ startRow (cells.map fun _ => ⟨false⟩) widths cells, cell.text.length ≤ cell.printed + cell.lenToPrint := by
  induction fits with
  | nil => exact fun cell member => absurd member List.not_mem_nil
  | cons short rest ih =>
    intro cell member
    rcases List.mem_cons.mp member with rfl | member
    · simpa [lenToPrint] using short
    · exact ih cell member

/-- A row of cells that fit is printed on one line. -/
theorem rowKept_printRow (plain : settings.useANSICodes = false) {widths : List Nat} {cells : List Bytes}
    (fits : List.Forall₂ (fun width (cell : Bytes) => cell.length ≤ width) widths cells) :
    RowKept widths cells [printRow settings headers row 0 widths cells] ∧
      MadeOf cells (printRow settings headers row 0 widths cells) := by
  have lengths := fits.length_eq
  have described : widths.length = (cells.map fun _ => ColumnSpec.mk false).length := by rw [List.length_map, lengths]
  have filled : cells.length = (cells.map fun _ => ColumnSpec.mk false).length := by rw [List.length_map]
  have width := startRow_width described filled
  have text := startRow_text described filled
  have whole := startRow_whole fits
  have fresh := fresh_startRow (cells.map fun _ => ⟨false⟩) widths cells
  obtain ⟨padding, line⟩ := @printRow_eq _ headers row plain 0 _ _ fits
  generalize startRow (cells.map fun _ => ⟨false⟩) widths cells = start at width text whole fresh line
  have sound : ∀ cell ∈ start, cell.Sound := by
    intro cell member
    refine ⟨fun none => ?_, .inl (fresh cell member).1, fun _ => whole cell member⟩
    have short := whole cell member
    have bound := lenToPrint_le cell
    rw [(fresh cell member).1] at short
    exact List.eq_nil_of_length_eq_zero (by omega)
  by_cases columned : start = []
  · subst columned
    cases width
    cases text
    rw [line]
    refine ⟨⟨nofun, fun line member glyph inside _ => ?_, nofun⟩, fun glyph inside => .inl (List.eq_of_mem_replicate inside)⟩
    rw [List.mem_singleton.mp member] at inside
    exact List.eq_of_mem_replicate inside
  · have going : start.all CellProgress.done = false := by
      obtain ⟨cell, others, rfl⟩ := List.exists_cons_of_ne_nil columned
      rw [List.all_cons, (fresh cell (.head _)).2]
      rfl
    have finished : (start.map advance).all CellProgress.done = true := by
      rw [List.all_eq_true]
      intro cell member
      obtain ⟨origin, inside, rfl⟩ := List.mem_map.mp member
      rw [CellProgress.advance, if_pos (whole origin inside)]
    have prints : Prints settings headers row start [(printLine settings headers row 0 start).1] := .line going (.done finished)
    have single : ∀ cell ∈ start, cell.pieces = [(cell.text.drop cell.printed).take cell.lenToPrint] := by
      intro cell member
      rw [pieces, if_pos (.inl (whole cell member))]
    have legible : Legible start := by
      refine ⟨fun before cell after split _ => ⟨cell, .head _, fun other member => ?_⟩, fun before cell after split _ => ?_⟩
      · rw [single other member, single cell (split ▸ List.mem_append_right _ (.head _))]
        rfl
      · rw [single cell (split ▸ List.mem_append_right _ (.head _))]
        exact fun piece member => absurd member List.not_mem_nil
    have made := prints.madeOf plain _ (.head _)
    have kept := (rowKept_prints plain prints sound fresh columned).mpr legible
    rw [width, text] at kept
    rw [text] at made
    have nonempty : widths ≠ [] := by
      rintro rfl
      exact columned (List.map_eq_nil_iff.mp width)
    rw [line]
    refine ⟨kept.padded lengths.symm nonempty made padding, fun glyph member => ?_⟩
    rcases List.mem_append.mp member with inside | blank
    · exact made glyph inside
    · exact .inl (List.eq_of_mem_replicate blank)

theorem rows_of_mapM {print : List Bytes × Nat → Option (List Line)} {items : List (List Bytes)} {first : Nat}
    {rows : List (List Line)} (printed : (items.zipIdx first).mapM print = some rows) :
    List.Forall₂ (fun cells lines => ∃ row, print (cells, row) = some lines) items rows := by
  induction items generalizing first rows with
  | nil =>
    cases printed
    exact .nil
  | cons cells items ih =>
    rw [List.zipIdx_cons, List.mapM_cons] at printed
    obtain ⟨lines, here, others⟩ := Option.bind_eq_some_iff.mp printed
    obtain ⟨rest, later, same⟩ := Option.bind_eq_some_iff.mp others
    cases same
    exact .cons ⟨first, here⟩ (ih later)

private theorem mapM_returns {print : List Bytes × Nat → Option (List Line)} {items : List (List Bytes)} (first : Nat)
    (each : ∀ cells ∈ items, ∀ row, ∃ lines, print (cells, row) = some lines) :
    ∃ rows, (items.zipIdx first).mapM print = some rows := by
  induction items generalizing first with
  | nil => exact ⟨[], rfl⟩
  | cons cells items ih =>
    obtain ⟨lines, here⟩ := each cells (.head _) first
    obtain ⟨rest, later⟩ := ih (first + 1) fun other member => each other (.tail _ member)
    refine ⟨lines :: rest, ?_⟩
    rw [List.zipIdx_cons, List.mapM_cons, here, later]
    rfl

private theorem splitOn_printedText {rows : List (List Line)}
    (unbroken : ∀ line ∈ rows.flatten, lineBreak ∉ line.map Glyph.byte) :
    (printedText rows).splitOn lineBreak = rows.flatten.map (List.map Glyph.byte) ++ [[]] := by
  have text : printedText rows = (rows.flatten.map (List.map Glyph.byte)).flatMap fun line => line ++ [lineBreak] := by
    rw [List.flatMap_map]
    rfl
  rw [text]
  refine splitOn_ended fun line member => ?_
  obtain ⟨glyphs, among, rfl⟩ := List.mem_map.mp member
  exact unbroken glyphs among

/-- What is printed is cut into its lines again at the line breaks. -/
theorem MadeOf.unbroken {cells : List Bytes} {line : Line} (made : MadeOf cells line)
    (unbroken : ∀ cell ∈ cells, lineBreak ∉ cell) : lineBreak ∉ line.map Glyph.byte := by
  intro member
  obtain ⟨glyph, inside, same⟩ := List.mem_map.mp member
  rcases made glyph inside with rfl | ⟨cell, present, byte, among, column, bound, place, rfl⟩
  · exact absurd same (by decide)
  · exact unbroken cell present (same ▸ among)

/-- What the layout of a table is for: the columns that are wrapped keep a width within their
own, and each row is put out in lines from which its cells can be read. -/
structure KeepsCells (table : Table) (outputWidth : Nat) (headers : Bool) (toSize : ℤ → Nat) : Prop where
  widths : WidthsKept table toSize outputWidth
  printed : ∃ fuel rows, formatTable ⟨false, outputWidth⟩ headers toSize table.items table.columns fuel = some rows ∧
    (printedText rows).splitOn lineBreak = rows.flatten.map (List.map Glyph.byte) ++ [[]] ∧
    List.Forall₂ (RowKept (table.widths toSize outputWidth)) table.items rows

variable {toSize : ℤ → Nat} {outputWidth : Nat}

/-- A row at its start, in the columns of the table. -/
def Table.start (table : Table) (toSize : ℤ → Nat) (outputWidth : Nat) (cells : List Bytes) : List CellProgress :=
  startRow table.columns (table.widths toSize outputWidth) cells

theorem Table.start_sound {cells : List Bytes} (member : cells ∈ table.items) :
    ∀ cell ∈ table.start toSize outputWidth cells, cell.Sound := by
  apply sound_startRow
  intro column inside none
  have natural := Table.widths_room none inside
  have short := Table.cell_le member column
  exact List.eq_nil_of_length_eq_zero (by omega)

private theorem formatTable_of_fits (fits : table.Fits outputWidth) (headers : Bool) (toSize : ℤ → Nat) (fuel : Nat) :
    formatTable ⟨false, outputWidth⟩ headers toSize table.items table.columns fuel =
      some (table.items.mapIdx fun row cells =>
        [printRow ⟨false, outputWidth⟩ headers row 0 (minColumnWidths table.items) cells]) := if_pos fits

theorem formatTable_of_wide (wide : ¬ table.Fits outputWidth) (headers : Bool) (toSize : ℤ → Nat) (fuel : Nat) :
    formatTable ⟨false, outputWidth⟩ headers toSize table.items table.columns fuel =
      table.items.zipIdx.mapM fun numbered =>
        printLines ⟨false, outputWidth⟩ headers numbered.2 fuel (table.start toSize outputWidth numbered.1) := if_neg wide

/-- A table that fits is always printed so that its cells can be read. -/
theorem printed_of_fits (fits : table.Fits outputWidth) (headers : Bool) (toSize : ℤ → Nat) :
    ∃ fuel rows, formatTable ⟨false, outputWidth⟩ headers toSize table.items table.columns fuel = some rows ∧
      (printedText rows).splitOn lineBreak = rows.flatten.map (List.map Glyph.byte) ++ [[]] ∧
      List.Forall₂ (RowKept (table.widths toSize outputWidth)) table.items rows := by
  have each : ∀ row, ∀ cells ∈ table.items,
      RowKept (minColumnWidths table.items) cells
          [printRow ⟨false, outputWidth⟩ headers row 0 (minColumnWidths table.items) cells] ∧
        MadeOf cells (printRow ⟨false, outputWidth⟩ headers row 0 (minColumnWidths table.items) cells) := by
    intro row cells member
    apply rowKept_printRow rfl
    have length : (minColumnWidths table.items).length = cells.length :=
      table.minColumnWidths_length.trans (table.rectangular cells member).symm
    apply List.forall₂_iff_get.mpr
    refine ⟨length, fun column one other => ?_⟩
    simpa [one, other] using Table.cell_le member column
  refine ⟨0, _, formatTable_of_fits fits headers toSize 0, splitOn_printedText fun line member => ?_, ?_⟩
  · obtain ⟨lines, inside, among⟩ := List.mem_flatten.mp member
    obtain ⟨row, bound, rfl⟩ := List.mem_mapIdx.mp inside
    rw [List.mem_singleton.mp among]
    exact (each row _ (List.getElem_mem bound)).2.unbroken (table.unbroken _ (List.getElem_mem bound))
  · rw [Table.widths_of_fits fits, List.forall₂_iff_get]
    refine ⟨by simp, fun row one other => ?_⟩
    simpa using (each row _ (List.getElem_mem one)).1

/-- The lines of a row of a table that does not fit can be read exactly when it is legible. -/
theorem rowKept_start (wide : ¬ table.Fits outputWidth) {cells : List Bytes} (member : cells ∈ table.items)
    {headers : Bool} {row fuel : Nat} {lines : List Line}
    (printed : printLines ⟨false, outputWidth⟩ headers row fuel (table.start toSize outputWidth cells) = some lines) :
    (RowKept (table.widths toSize outputWidth) cells lines ↔ Legible (table.start toSize outputWidth cells)) ∧
      ∀ line ∈ lines, MadeOf cells line := by
  have described := @Table.widths_length table toSize outputWidth
  have filled := table.rectangular cells member
  have prints := prints_of_printLines (Table.start_sound member) printed
  have width : (table.start toSize outputWidth cells).map CellProgress.width = table.widths toSize outputWidth :=
    startRow_width described filled
  have text : (table.start toSize outputWidth cells).map CellProgress.text = cells := startRow_text described filled
  have columned : table.start toSize outputWidth cells ≠ [] := by
    intro none
    rw [none] at width
    have count := congrArg List.length width
    rw [described] at count
    have natural : minColumnWidths table.items = [] :=
      List.eq_nil_of_length_eq_zero (table.minColumnWidths_length.trans count.symm)
    apply wide
    rw [Table.Fits, natural]
    exact Nat.zero_le _
  have kept := rowKept_prints rfl prints (Table.start_sound member) (fresh_startRow _ _ _) columned
  have made := prints.madeOf rfl
  rw [width, text] at kept
  rw [text] at made
  exact ⟨kept, made⟩

/-- Every cell can be read off the table exactly when the widths work out and no row of a
table that does not fit has text that is printed again or pushed aside. -/
theorem formatTable_keepsCells_iff (table : Table) (outputWidth : Nat) (headers : Bool) :
    (∀ toSize, Converts toSize → KeepsCells table outputWidth headers toSize) ↔
      Roomy table outputWidth ∧
        (¬ table.Fits outputWidth → ∀ cells ∈ table.items, Legible (table.start Int.toNat outputWidth cells)) := by
  constructor
  · intro keeps
    refine ⟨roomy_of_widthsKept fun toSize converts => (keeps toSize converts).widths, fun wide cells member => ?_⟩
    obtain ⟨fuel, rows, printed, -, kept⟩ := (keeps Int.toNat fun size => rfl).printed
    rw [formatTable_of_wide wide] at printed
    have each := rows_of_mapM printed
    obtain ⟨position, inside, rfl⟩ := List.mem_iff_getElem.mp member
    have bound : position < rows.length := each.length_eq ▸ inside
    obtain ⟨row, here⟩ := (List.forall₂_iff_get.mp each).2 position inside bound
    exact (rowKept_start wide (List.getElem_mem inside) here).1.mp ((List.forall₂_iff_get.mp kept).2 position inside bound)
  · rintro ⟨roomy, legible⟩ toSize converts
    refine ⟨roomy.widthsKept converts, ?_⟩
    by_cases fits : table.Fits outputWidth
    · exact printed_of_fits fits headers toSize
    · have same := roomy.widths_eq converts
      let lefts := table.items.map fun cells => ((table.start toSize outputWidth cells).map left).sum
      obtain ⟨rows, printed⟩ := @mapM_returns (fun numbered =>
        printLines ⟨false, outputWidth⟩ headers numbered.2 lefts.sum (table.start toSize outputWidth numbered.1)) _ 0
        fun cells member row => printLines_returns (Table.start_sound member)
          (List.single_le_sum (fun _ _ => Nat.zero_le _) _ (List.mem_map_of_mem member))
      have each := rows_of_mapM printed
      refine ⟨_, rows, (formatTable_of_wide fits headers toSize _).trans printed, splitOn_printedText fun line member => ?_, ?_⟩
      · obtain ⟨lines, inside, among⟩ := List.mem_flatten.mp member
        obtain ⟨position, bound, rfl⟩ := List.mem_iff_getElem.mp inside
        have within : position < table.items.length := each.length_eq ▸ bound
        obtain ⟨row, here⟩ := (List.forall₂_iff_get.mp each).2 position within bound
        have present := List.getElem_mem within
        exact ((rowKept_start fits present here).2 line among).unbroken (table.unbroken _ present)
      · apply List.forall₂_iff_get.mpr
        refine ⟨each.length_eq, fun position inside bound => ?_⟩
        obtain ⟨row, here⟩ := (List.forall₂_iff_get.mp each).2 position inside bound
        refine (rowKept_start fits (List.getElem_mem inside) here).1.mpr ?_
        rw [Table.start, same]
        exact legible fits _ (List.getElem_mem inside)

def asciiRow (cells : List String) : List Bytes := cells.map fun cell => cell.toList.map Char.toUInt8

def nameTable : Table where
  columns := [⟨true⟩, ⟨false⟩]
  items := [asciiRow ["Name", "ID"], asciiRow ["a-long-name", "x1"]]
  nonempty := List.cons_ne_nil _ _
  rectangular := by decide
  unbroken := by decide +kernel

private theorem nameTable_start : nameTable.start Int.toNat 10 (asciiRow ["a-long-name", "x1"]) =
    (asciiRow ["a-long-name"]).map (⟨7, true, ·, 0, false⟩) ++ (asciiRow ["x1"]).map (⟨2, false, ·, 0, false⟩) := by
  decide +kernel

/-- The identifier is printed again beside the second line of the name. -/
theorem formatTable_repeats : ¬ ∀ toSize, Converts toSize → KeepsCells nameTable 10 true toSize := by
  intro keeps
  have wide : ¬ nameTable.Fits 10 := by
    rw [Table.Fits]
    decide +kernel
  obtain ⟨fuel, rows, printed, -, kept⟩ := (keeps Int.toNat fun size => rfl).printed
  rw [formatTable_of_wide wide] at printed
  have each := rows_of_mapM printed
  cases each with
  | cons _ rest =>
    cases rest with
    | cons second _ =>
      cases kept with
      | cons _ others =>
        cases others with
        | cons here _ =>
          obtain ⟨row, lines⟩ := second
          have legible := (rowKept_start wide (.tail _ (.head _)) lines).1.mp here
          rw [nameTable_start] at legible
          obtain ⟨last, member, most⟩ := legible.ends _ _ [] rfl (by decide +kernel)
          rw [List.mem_singleton.mp member] at most
          exact absurd (most _ (.head _)) (by decide +kernel)

end Slate
