import Slate.Library.Columns
import Slate.TableLayout

/-! Which rows the client prints so that every cell can be read off its column: those in
which no text is printed again after its last line, or pushed aside. -/

namespace Slate
open Library Columns

private theorem lastBreak_le (text : Bytes) (printed width length : Nat) (place : Option Nat) (short : length ≤ width) :
    lastBreak text printed width length place ≤ width := by
  induction length, place using lastBreak.induct text printed width with
  | case1 length =>
    rw [lastBreak]
    exact short
  | case2 length pos within ih =>
    rw [lastBreak, if_pos within]
    exact ih (by omega)
  | case3 length pos beyond =>
    rw [lastBreak, if_neg beyond]
    exact short

private theorem lastBreak_pos (text : Bytes) (printed width length : Nat) (place : Option Nat) (some : 0 < length) :
    0 < lastBreak text printed width length place := by
  induction length, place using lastBreak.induct text printed width with
  | case1 length =>
    rw [lastBreak]
    exact some
  | case2 length pos within ih =>
    rw [lastBreak, if_pos within]
    exact ih (Nat.succ_pos _)
  | case3 length pos beyond =>
    rw [lastBreak, if_neg beyond]
    exact some

namespace CellProgress

variable {cell : CellProgress}

theorem lenToPrint_le (cell : CellProgress) : cell.lenToPrint ≤ cell.width := by
  have bound := lastBreak_le cell.text cell.printed cell.width cell.width (findBreak cell.text cell.printed) le_rfl
  simp only [lenToPrint]
  split
  · split
    · exact le_rfl
    · exact bound
  · exact le_rfl

theorem lenToPrint_pos (wide : 0 < cell.width) : 0 < cell.lenToPrint := by
  have bound := lastBreak_pos cell.text cell.printed cell.width cell.width (findBreak cell.text cell.printed) wide
  simp only [lenToPrint]
  split
  · split
    · exact wide
    · exact bound
  · exact wide

/-- What holds of a cell from the start of its row on. -/
structure Sound (cell : CellProgress) : Prop where
  room : cell.width = 0 → cell.text = []
  started : cell.printed = 0 ∨ cell.printed < cell.text.length
  finished : cell.done = true → cell.text.length ≤ cell.printed + cell.lenToPrint

theorem advance_done (sound : cell.Sound) (done : cell.done = true) : cell.advance = cell := by
  rw [advance, if_pos (sound.finished done), ← done]

@[simp] theorem advance_width : cell.advance.width = cell.width := by
  rw [advance]
  split <;> rfl

@[simp] theorem advance_text : cell.advance.text = cell.text := by
  rw [advance]
  split <;> rfl

theorem Sound.advance (sound : cell.Sound) : cell.advance.Sound := by
  by_cases last : cell.text.length ≤ cell.printed + cell.lenToPrint
  · rw [CellProgress.advance, if_pos last]
    exact ⟨sound.room, sound.started, fun _ => last⟩
  · rw [CellProgress.advance, if_neg last]
    refine ⟨sound.room, .inr (Nat.lt_of_not_le last), fun done => ?_⟩
    exact absurd (sound.finished done) last

/-- A cell that has text gets on with it in every line. -/
theorem Sound.lenToPrint_pos (sound : cell.Sound) (some : cell.text ≠ []) : 0 < cell.lenToPrint := by
  apply CellProgress.lenToPrint_pos
  rcases Nat.eq_zero_or_pos cell.width with none | wide
  · exact absurd (sound.room none) some
  · exact wide

/-- The pieces into which what is left of a text is broken. -/
def pieces (cell : CellProgress) : List Bytes :=
  (cell.text.drop cell.printed).take cell.lenToPrint ::
    if cell.text.length ≤ cell.printed + cell.lenToPrint ∨ cell.lenToPrint = 0 then []
    else pieces { cell with printed := cell.printed + cell.lenToPrint }
termination_by cell.text.length - cell.printed

def left (cell : CellProgress) : Nat := if cell.done then 0 else cell.pieces.length

theorem pieces_advance (sound : cell.Sound) (going : cell.done = false) : cell.pieces =
    (cell.text.drop cell.printed).take cell.lenToPrint :: if cell.advance.done then [] else cell.advance.pieces := by
  rw [pieces]
  by_cases last : cell.text.length ≤ cell.printed + cell.lenToPrint
  · simp only [advance, last, true_or, if_true]
  · have some : cell.text ≠ [] := by
      intro none
      rw [none] at last
      exact last (Nat.zero_le _)
    have progress := sound.lenToPrint_pos some
    simp only [advance, last, Nat.ne_of_gt progress, or_self, if_false, going, Bool.false_eq_true]

theorem left_advance (sound : cell.Sound) : cell.advance.left = cell.left - 1 := by
  cases going : cell.done with
  | true =>
    rw [advance_done sound going]
    simp [left, going]
  | false =>
    simp only [left, going, pieces_advance sound going]
    cases cell.advance.done <;> simp

private theorem left_done (done : cell.done = true) : cell.left = 0 := by
  rw [left, done, if_pos rfl]

theorem left_pos (going : cell.done = false) : 0 < cell.left := by
  rw [left, going, pieces]
  exact Nat.succ_pos _

def remaining (column : Nat) (cell : CellProgress) : Line :=
  if cell.done then [] else (cellGlyphs column cell.text).drop cell.printed

def shown (column : Nat) (cell : CellProgress) (cells : List CellProgress) : Line :=
  if cell.done && !(cell :: cells).all done then [] else cell.toPrint column

def field (column : Nat) (cell : CellProgress) (cells : List CellProgress) : Line :=
  if cell.done && !(cell :: cells).all done then setw cell.width [.blank]
  else if cells.isEmpty then cell.toPrint column
  else setw cell.width (cell.toPrint column)

/-- How wide the field of a cell is with a cell behind it that is not done. -/
def span (cell : CellProgress) : Nat := if cell.done then max cell.width 1 else cell.width

theorem toPrint_length (column : Nat) (cell : CellProgress) :
    (cell.toPrint column).length = min cell.lenToPrint (cell.text.length - cell.printed) := by
  simp [toPrint, cellGlyphs]

private theorem owner_cellGlyphs {column : Nat} {text : Bytes} {glyph : Glyph} (member : glyph ∈ cellGlyphs column text) :
    glyph.owner = some column := by
  obtain ⟨place, inside, rfl⟩ := List.mem_mapIdx.mp member
  rfl

theorem owner_toPrint {column : Nat} {glyph : Glyph} (member : glyph ∈ cell.toPrint column) :
    glyph.owner = some column :=
  owner_cellGlyphs (List.mem_of_mem_drop (List.mem_of_mem_take member))

private theorem remaining_advance (column : Nat) (going : cell.done = false) :
    cell.remaining column = cell.toPrint column ++ cell.advance.remaining column := by
  simp only [remaining, toPrint, going, Bool.false_eq_true, if_false]
  by_cases last : cell.text.length ≤ cell.printed + cell.lenToPrint
  · rw [advance, if_pos last, if_pos rfl, List.append_nil, List.take_of_length_le]
    simp only [cellGlyphs, List.length_drop, List.length_mapIdx]
    omega
  · rw [advance, if_neg last]
    simp only [going, Bool.false_eq_true, if_false]
    rw [← List.drop_drop, List.take_append_drop]

/-- A cell with text shows some of it whenever it is printed. -/
theorem toPrint_ne_nil (column : Nat) (sound : cell.Sound) (some : cell.text ≠ []) : cell.toPrint column ≠ [] := by
  have progress := sound.lenToPrint_pos some
  have length := List.length_pos_iff.mpr some
  have started := sound.started
  apply List.length_pos_iff.mp
  rw [toPrint_length]
  omega

private theorem toPrint_eq_nil (column : Nat) (none : cell.text = []) : cell.toPrint column = [] := by
  simp [toPrint, cellGlyphs, none]

end CellProgress

open CellProgress

private theorem setw_length (width : Nat) (text : Line) : (setw width text).length = max width text.length := by
  rw [setw, List.length_append, List.length_replicate]
  omega

theorem filter_setw (width column : Nat) (text : Line) :
    (setw width text).filter (fun glyph => glyph.owner == some column) =
      text.filter fun glyph => glyph.owner == some column := by
  rw [setw, List.filter_append, List.append_right_eq_self, List.filter_eq_nil_iff]
  intro glyph member
  rw [List.eq_of_mem_replicate member]
  exact Bool.false_ne_true

private theorem filter_toPrint (column : Nat) (cell : CellProgress) :
    (cell.toPrint column).filter (fun glyph => glyph.owner == some column) = cell.toPrint column := by
  apply List.filter_eq_self.mpr
  intro glyph member
  rw [owner_toPrint member]
  exact beq_self_eq_true _

private theorem filter_toPrint_other {column other : Nat} (cell : CellProgress) (apart : column ≠ other) :
    (cell.toPrint column).filter (fun glyph => glyph.owner == some other) = [] := by
  apply List.filter_eq_nil_iff.mpr
  intro glyph member
  rw [owner_toPrint member]
  simpa using apart

private theorem filter_field (column : Nat) (cell : CellProgress) (cells : List CellProgress) :
    (cell.field column cells).filter (fun glyph => glyph.owner == some column) = cell.shown column cells := by
  simp only [CellProgress.field, shown]
  split
  · exact filter_setw _ _ _
  · split
    · exact filter_toPrint _ _
    · rw [filter_setw]
      exact filter_toPrint _ _

theorem filter_field_other {column other : Nat} (cell : CellProgress) (cells : List CellProgress) (apart : column ≠ other) :
    (cell.field column cells).filter (fun glyph => glyph.owner == some other) = [] := by
  simp only [CellProgress.field]
  split
  · exact filter_setw _ _ _
  · split
    · exact filter_toPrint_other cell apart
    · rw [filter_setw]
      exact filter_toPrint_other cell apart

theorem filter_separator (column other : Nat) :
    (separator column).filter (fun glyph => glyph.owner == some other) = [] := by
  rw [separator]
  split <;> rfl

variable {settings : OutputSettings} {headers : Bool} {row : Nat}

theorem inserted_plain (plain : settings.useANSICodes = false) (text : Line) :
    inserted settings headers row text = text := by
  simp [inserted, OutputSettings.underline, plain]

theorem printLine_cons (plain : settings.useANSICodes = false) (column : Nat) (cell : CellProgress)
    (cells : List CellProgress) : (printLine settings headers row column (cell :: cells)).1 =
      separator column ++ cell.field column cells ++ (printLine settings headers row (column + 1) cells).1 := by
  simp only [printLine, CellProgress.field, inserted_plain plain, plain, Bool.false_and, Bool.false_eq_true, if_false,
    Nat.add_zero]
  split <;> rfl

private theorem printLine_rest (column : Nat) {cells : List CellProgress} (sound : ∀ cell ∈ cells, cell.Sound) :
    (printLine settings headers row column cells).2 = cells.map advance := by
  induction cells generalizing column with
  | nil => rfl
  | cons cell cells ih =>
    have others := ih (column + 1) fun other member => sound other (.tail _ member)
    simp only [printLine, List.map_cons]
    split
    next skipped =>
      have finished : cell.done = true := (Bool.and_eq_true_iff.mp skipped).1
      rw [others, advance_done (sound cell (.head _)) finished]
    next => rw [others]

private theorem filter_printLine_before (plain : settings.useANSICodes = false) {column other : Nat} (before : other < column)
    (cells : List CellProgress) :
    (printLine settings headers row column cells).1.filter (fun glyph => glyph.owner == some other) = [] := by
  induction cells generalizing column with
  | nil => rfl
  | cons cell cells ih =>
    rw [printLine_cons plain, List.filter_append, List.filter_append, filter_separator,
      filter_field_other cell cells (Nat.ne_of_gt before), ih (Nat.lt_succ_of_lt before)]
    rfl

private theorem filter_printLine (plain : settings.useANSICodes = false) (column : Nat) (before : List CellProgress)
    (cell : CellProgress) (after : List CellProgress) :
    (printLine settings headers row column (before ++ cell :: after)).1.filter
      (fun glyph => glyph.owner == some (column + before.length)) = cell.shown (column + before.length) after := by
  induction before generalizing column with
  | nil =>
    rw [List.nil_append, printLine_cons plain, List.filter_append, List.filter_append, filter_separator,
      List.length_nil, Nat.add_zero, filter_field, filter_printLine_before plain (Nat.lt_succ_self _)]
    exact List.append_nil _
  | cons first before ih =>
    have same : column + (first :: before).length = column + 1 + before.length := by
      rw [List.length_cons]
      omega
    rw [List.cons_append, printLine_cons plain, List.filter_append, List.filter_append, filter_separator,
      filter_field_other first _ (by rw [same]; omega), same, ih]
    rfl

inductive Prints (settings : OutputSettings) (headers : Bool) (row : Nat) : List CellProgress → List Line → Prop
  | done {cells : List CellProgress} (finished : cells.all CellProgress.done = true) :
    Prints settings headers row cells []
  | line {cells : List CellProgress} {lines : List Line} (going : cells.all CellProgress.done = false)
    (rest : Prints settings headers row (cells.map advance) lines) :
    Prints settings headers row cells ((printLine settings headers row 0 cells).1 :: lines)

def collected (column : Nat) (lines : List Line) : Line :=
  lines.flatMap fun line => line.filter fun glyph => glyph.owner == some column

theorem sound_advance {cells : List CellProgress} (sound : ∀ cell ∈ cells, cell.Sound) :
    ∀ cell ∈ cells.map advance, cell.Sound := by
  intro cell member
  obtain ⟨earlier, inside, rfl⟩ := List.mem_map.mp member
  exact (sound earlier inside).advance

theorem prints_of_printLines {fuel : Nat} {cells : List CellProgress} {lines : List Line}
    (sound : ∀ cell ∈ cells, cell.Sound) (printed : printLines settings headers row fuel cells = some lines) :
    Prints settings headers row cells lines := by
  induction fuel generalizing cells lines with
  | zero =>
    rw [printLines] at printed
    split at printed
    next finished =>
      cases printed
      exact .done finished
    next => cases printed
  | succ fuel ih =>
    rw [printLines] at printed
    split at printed
    next finished =>
      cases printed
      exact .done finished
    next going =>
      change (printLines settings headers row fuel (printLine settings headers row 0 cells).2).map _ = _ at printed
      rw [printLine_rest 0 sound] at printed
      obtain ⟨rest, later, rfl⟩ := Option.map_eq_some_iff.mp printed
      exact .line (Bool.eq_false_of_not_eq_true going) (ih (sound_advance sound) later)

private theorem sum_left_advance {cells : List CellProgress} (sound : ∀ cell ∈ cells, cell.Sound) :
    ((cells.map advance).map left).sum ≤ (cells.map left).sum ∧
      (cells.all CellProgress.done = false → ((cells.map advance).map left).sum < (cells.map left).sum) := by
  induction cells with
  | nil => exact ⟨le_rfl, Bool.noConfusion⟩
  | cons cell cells ih =>
    obtain ⟨less, fewer⟩ := ih fun other member => sound other (.tail _ member)
    have step := left_advance (sound cell (.head _))
    simp only [List.map_cons, List.sum_cons, step]
    refine ⟨by omega, fun going => ?_⟩
    cases done : cell.done with
    | true =>
      rw [List.all_cons, done, Bool.true_and] at going
      have strictly := fewer going
      omega
    | false =>
      have positive := left_pos done
      omega

/-- The lines of a row come to an end, with any fuel from some amount on. -/
theorem printLines_returns {cells : List CellProgress} (sound : ∀ cell ∈ cells, cell.Sound) {fuel : Nat}
    (enough : (cells.map left).sum ≤ fuel) : ∃ lines, printLines settings headers row fuel cells = some lines := by
  induction fuel generalizing cells with
  | zero =>
    rw [printLines]
    cases finished : cells.all CellProgress.done with
    | true => exact ⟨[], rfl⟩
    | false =>
      have fewer := (sum_left_advance sound).2 finished
      omega
  | succ fuel ih =>
    rw [printLines]
    cases finished : cells.all CellProgress.done with
    | true => exact ⟨[], rfl⟩
    | false =>
      have fewer := (sum_left_advance sound).2 finished
      obtain ⟨lines, later⟩ := ih (sound_advance sound) (by omega)
      refine ⟨(printLine settings headers row 0 cells).1 :: lines, ?_⟩
      simp only [Bool.false_eq_true, if_false, printLine_rest 0 sound, later, Option.map_some]

/-- Each cell with text, or one behind it, takes as many more lines as any cell of the row. -/
def EndsLast (cells : List CellProgress) : Prop :=
  ∀ before cell after, cells = before ++ cell :: after → cell.text ≠ [] →
    ∃ last ∈ cell :: after, ∀ other ∈ cells, other.left ≤ last.left

theorem split_map_advance {cells before after : List CellProgress} {cell : CellProgress}
    (split : cells.map advance = before ++ cell :: after) : ∃ earlier first later,
      cells = earlier ++ first :: later ∧ earlier.map advance = before ∧ first.advance = cell ∧
        later.map advance = after := by
  obtain ⟨earlier, others, rfl, front, back⟩ := List.map_eq_append_iff.mp split
  obtain ⟨first, later, rfl, same, rest⟩ := List.map_eq_cons_iff.mp back
  exact ⟨earlier, first, later, rfl, front, same, rest⟩

theorem EndsLast.advance {cells : List CellProgress} (sound : ∀ cell ∈ cells, cell.Sound) (ends : EndsLast cells) :
    EndsLast (cells.map advance) := by
  intro before cell after split some
  obtain ⟨earlier, first, later, rfl, -, rfl, rfl⟩ := split_map_advance split
  rw [advance_text] at some
  obtain ⟨last, member, most⟩ := ends earlier first later rfl some
  refine ⟨last.advance, by simpa using List.mem_map_of_mem (f := CellProgress.advance) member, ?_⟩
  intro other inside
  obtain ⟨origin, present, rfl⟩ := List.mem_map.mp inside
  rw [left_advance (sound origin present), left_advance (sound last (List.mem_append_right _ member))]
  exact Nat.sub_le_sub_right (most origin present) 1

/-- A cell that is done shows nothing on a line that some cell still needs. -/
theorem EndsLast.shown_eq_nil {before after : List CellProgress} {cell : CellProgress}
    (ends : EndsLast (before ++ cell :: after)) (going : (before ++ cell :: after).all CellProgress.done = false)
    (done : cell.done = true) (column : Nat) : cell.shown column after = [] := by
  by_cases some : cell.text = []
  · rw [shown, toPrint_eq_nil column some, ite_self]
  · obtain ⟨last, member, most⟩ := ends before cell after rfl some
    obtain ⟨other, inside, needed⟩ := List.all_eq_false.mp going
    have positive := @left_pos other (by simpa using needed)
    have much := most other inside
    have unfinished : last.done = false := by
      cases finished : last.done with
      | true =>
        rw [left_done finished] at much
        omega
      | false => rfl
    have rest : (cell :: after).all CellProgress.done = false :=
      List.all_eq_false.mpr ⟨last, member, by simp [unfinished]⟩
    rw [shown, done, rest]
    rfl

theorem shown_going (column : Nat) {cell : CellProgress} (cells : List CellProgress) (going : cell.done = false) :
    cell.shown column cells = cell.toPrint column := by
  simp [shown, going]

private theorem collected_line (plain : settings.useANSICodes = false) (before : List CellProgress) (cell : CellProgress)
    (after : List CellProgress) (lines : List Line) :
    collected before.length ((printLine settings headers row 0 (before ++ cell :: after)).1 :: lines) =
      cell.shown before.length after ++ collected before.length lines := by
  have line := @filter_printLine _ headers row plain 0 before cell after
  rw [Nat.zero_add] at line
  rw [collected, List.flatMap_cons, line, collected]

/-- The lines show of each cell what remains of it, once. -/
theorem EndsLast.collected (plain : settings.useANSICodes = false) {cells : List CellProgress} {lines : List Line}
    (prints : Prints settings headers row cells lines) (sound : ∀ cell ∈ cells, cell.Sound) (ends : EndsLast cells)
    (before : List CellProgress) (cell : CellProgress) (after : List CellProgress)
    (split : cells = before ++ cell :: after) :
    collected before.length lines = cell.remaining before.length := by
  induction prints generalizing before cell after with
  | done finished =>
    subst split
    have done : cell.done = true := List.all_eq_true.mp finished cell (List.mem_append_right _ (.head _))
    rw [remaining, done]
    rfl
  | line going rest ih =>
    subst split
    have here : cell.Sound := sound cell (List.mem_append_right _ (.head _))
    have later := ih (sound_advance sound) (ends.advance sound) (before.map CellProgress.advance) cell.advance
      (after.map CellProgress.advance) (by simp)
    rw [List.length_map] at later
    rw [collected_line plain, later]
    cases done : cell.done with
    | true =>
      rw [ends.shown_eq_nil going done, advance_done here done]
      rfl
    | false => rw [shown_going _ _ done, remaining_advance _ done]

/-- Lines that show each cell once are those of a row whose last texts take the most lines. -/
theorem endsLast_of_collected (plain : settings.useANSICodes = false) {cells : List CellProgress} {lines : List Line}
    (prints : Prints settings headers row cells lines) (sound : ∀ cell ∈ cells, cell.Sound)
    (once : ∀ before cell after, cells = before ++ cell :: after →
      collected before.length lines = cell.remaining before.length) : EndsLast cells := by
  induction prints with
  | done finished =>
    intro before cell after split some
    refine ⟨cell, .head _, fun other member => ?_⟩
    have done : other.done = true := List.all_eq_true.mp finished other member
    rw [left_done done]
    exact Nat.zero_le _
  | @line cells lines going rest ih =>
    have apart : ∀ before cell after, cells = before ++ cell :: after →
        (cell.done = true → cell.shown before.length after = []) ∧
          collected before.length lines = cell.advance.remaining before.length := by
      intro before cell after split
      have here : cell.Sound := sound cell (split ▸ List.mem_append_right _ (.head _))
      have whole := once before cell after split
      subst split
      rw [collected_line plain] at whole
      cases done : cell.done with
      | true =>
        rw [remaining, done, if_pos rfl] at whole
        obtain ⟨none, others⟩ := List.append_eq_nil_iff.mp whole
        refine ⟨fun _ => none, ?_⟩
        rw [others, advance_done here done, remaining, done]
        rfl
      | false =>
        rw [shown_going _ _ done, remaining_advance _ done] at whole
        exact ⟨Bool.noConfusion, List.append_cancel_left whole⟩
    have later : EndsLast (cells.map CellProgress.advance) := by
      apply ih (sound_advance sound)
      intro before cell after split
      obtain ⟨earlier, first, others, rfl, rfl, rfl, rfl⟩ := split_map_advance split
      rw [List.length_map]
      exact (apart earlier first others rfl).2
    intro before cell after split some
    have here : cell.Sound := sound cell (split ▸ List.mem_append_right _ (.head _))
    obtain ⟨last, member, most⟩ := later (before.map CellProgress.advance) cell.advance (after.map CellProgress.advance)
      (by rw [split, List.map_append, List.map_cons]) (by rwa [advance_text])
    obtain ⟨origin, inside, rfl⟩ : ∃ origin ∈ cell :: after, origin.advance = last := by
      rw [← List.map_cons] at member
      exact List.mem_map.mp member
    have present : origin ∈ cells := split ▸ List.mem_append_right _ inside
    have bound : ∀ other ∈ cells, other.left - 1 ≤ origin.left - 1 := by
      intro other among
      rw [← left_advance (sound other among), ← left_advance (sound origin present)]
      exact most _ (List.mem_map_of_mem among)
    by_cases several : 1 < origin.left
    · refine ⟨origin, inside, fun other among => ?_⟩
      have less := bound other among
      omega
    · -- on the last line, a cell that is done is not printed again
      have unfinished : ∃ needed ∈ cell :: after, needed.done = false := by
        by_contra finished
        push Not at finished
        have done : cell.done = true := by simpa using finished cell (.head _)
        have all : (cell :: after).all CellProgress.done = true := by
          apply List.all_eq_true.mpr
          intro other among
          simpa using finished other among
        have nothing := (apart before cell after split).1 done
        rw [shown, done, all] at nothing
        exact toPrint_ne_nil _ here some nothing
      obtain ⟨needed, among, open_⟩ := unfinished
      refine ⟨needed, among, fun other inside => ?_⟩
      have less := bound other inside
      have positive := left_pos open_
      omega

private theorem toPrint_length_le (column : Nat) (cell : CellProgress) : (cell.toPrint column).length ≤ cell.width := by
  have short := lenToPrint_le cell
  rw [toPrint_length]
  omega

private theorem separator_succ (column : Nat) : separator (column + 1) = [.blank] := rfl

/-- A cell that is not done is printed behind the fields of those before it. -/
theorem printLine_split (plain : settings.useANSICodes = false) (column : Nat) (before : List CellProgress)
    {cell : CellProgress} (after : List CellProgress) (going : cell.done = false) : ∃ front back,
      (printLine settings headers row column (before ++ cell :: after)).1 =
        front ++ cell.field (column + before.length) after ++ back ∧
      front.length = (before.map span).sum + before.length + (separator column).length := by
  induction before generalizing column with
  | nil =>
    refine ⟨separator column, (printLine settings headers row (column + 1) after).1, ?_, by simp⟩
    rw [List.nil_append, printLine_cons plain]
    rfl
  | cons first before ih =>
    obtain ⟨front, back, line, length⟩ := ih (column + 1)
    have width : (first.field column (before ++ cell :: after)).length = first.span := by
      have short := toPrint_length_le column first
      have unfinished : (first :: (before ++ cell :: after)).all CellProgress.done = false :=
        List.all_eq_false.mpr ⟨cell, List.mem_cons_of_mem _ (List.mem_append_right _ (.head _)), by simp [going]⟩
      have others : (before ++ cell :: after).isEmpty = false := by simp
      rw [CellProgress.field, unfinished, others, span]
      cases first.done with
      | true => exact setw_length _ _
      | false =>
        refine (setw_length _ _).trans ?_
        simp [short]
    refine ⟨separator column ++ first.field column (before ++ cell :: after) ++ front, back, ?_, ?_⟩
    · rw [List.cons_append, printLine_cons plain, line]
      have same : column + (first :: before).length = column + 1 + before.length := by
        rw [List.length_cons]
        omega
      rw [same]
      simp only [List.append_assoc]
    · simp only [List.length_append, width, length, separator_succ, List.map_cons, List.sum_cons, List.length_cons,
        List.length_nil]
      omega

/-- How many blanks too many are printed before a cell, one for each column without a width
that is done. -/
def surplus (before : List CellProgress) : Nat := (before.filter fun cell => cell.done && cell.width == 0).length

private theorem sum_span (before : List CellProgress) :
    (before.map span).sum = (before.map CellProgress.width).sum + surplus before := by
  induction before with
  | nil => rfl
  | cons cell before ih =>
    simp only [surplus, List.map_cons, List.sum_cons, List.filter_cons, span] at ih ⊢
    cases cell.done with
    | false =>
      simp only [Bool.false_and, Bool.false_eq_true, if_false]
      omega
    | true =>
      by_cases none : cell.width = 0
      · simp only [none, beq_self_eq_true, Bool.and_self, if_true, List.length_cons]
        omega
      · have other : (cell.width == 0) = false := beq_false_of_ne none
        simp only [other, Bool.and_false, Bool.false_eq_true, if_false, if_true]
        omega

theorem columnStart_split (before : List CellProgress) (cell : CellProgress) (after : List CellProgress) :
    columnStart ((before ++ cell :: after).map CellProgress.width) before.length =
      (before.map CellProgress.width).sum + before.length := by
  rw [columnStart, List.map_append, List.take_left' (List.length_map _)]

private theorem width_split (before : List CellProgress) (cell : CellProgress) (after : List CellProgress) :
    ((before ++ cell :: after).map CellProgress.width).getD before.length 0 = cell.width := by
  simp

private theorem field_eq (column : Nat) {cell : CellProgress} (cells : List CellProgress) (going : cell.done = false) :
    ∃ padding, cell.field column cells = cell.toPrint column ++ List.replicate padding .blank := by
  simp only [CellProgress.field, going, Bool.false_and, Bool.false_eq_true, if_false]
  split
  · exact ⟨0, (List.append_nil _).symm⟩
  · exact ⟨_, rfl⟩

private theorem owner_printLine (plain : settings.useANSICodes = false) {column : Nat} {cells : List CellProgress} {glyph : Glyph}
    (member : glyph ∈ (printLine settings headers row column cells).1) {other : Nat} (belongs : glyph.owner = some other) :
    other < column + cells.length := by
  induction cells generalizing column with
  | nil => cases member
  | cons cell cells ih =>
    rw [printLine_cons plain, List.mem_append, List.mem_append] at member
    have found : (glyph.owner == some other) = true := by simp [belongs]
    rcases member with (member | member) | member
    · have none := filter_separator column other
      exact absurd found (List.filter_eq_nil_iff.mp none glyph member)
    · by_cases same : column = other
      · rw [List.length_cons]
        omega
      · exact absurd found (List.filter_eq_nil_iff.mp (filter_field_other cell cells same) glyph member)
    · have later := ih member
      rw [List.length_cons]
      omega

/-- A line is in order when no piece is pushed out of its column. -/
theorem inPlace_printLine (plain : settings.useANSICodes = false) {cells : List CellProgress} (ends : EndsLast cells)
    (going : cells.all CellProgress.done = false) :
    InPlace (cells.map CellProgress.width) Glyph.owner (printLine settings headers row 0 cells).1 ↔
      ∀ before cell after, cells = before ++ cell :: after → after ≠ [] → cell.done = false →
        cell.toPrint before.length ≠ [] → (cell.toPrint before.length).length + surplus before ≤ cell.width := by
  constructor
  · rintro inPlace before cell after rfl more open_ some
    obtain ⟨front, back, line, length⟩ := @printLine_split _ headers row plain 0 before _ after open_
    obtain ⟨padding, field⟩ := field_eq (0 + before.length) after open_
    rw [Nat.zero_add] at line field
    obtain ⟨earlier, glyph, piece⟩ : ∃ earlier glyph, cell.toPrint before.length = earlier ++ [glyph] :=
      ⟨_, _, (List.dropLast_append_getLast some).symm⟩
    have belongs : glyph.owner = .some before.length := @owner_toPrint cell _ _ (by rw [piece]; simp)
    have place := inPlace (front.length + earlier.length) glyph before.length (by simp [line, field, piece]) belongs
    have stop := place.2 (by
      have behind := List.length_pos_iff.mpr more
      simp only [List.length_map, List.length_append, List.length_cons]
      omega)
    rw [columnStart_split, width_split, length, sum_span] at stop
    rw [piece, List.length_append, List.length_singleton]
    have none : (separator 0).length = 0 := rfl
    omega
  · intro room position glyph column found belongs
    have member := List.mem_of_getElem? found
    have inside := owner_printLine plain member belongs
    rw [Nat.zero_add] at inside
    obtain ⟨before, cell, after, rfl, rfl⟩ : ∃ before cell after, cells = before ++ cell :: after ∧ before.length = column :=
      ⟨cells.take column, cells[column], cells.drop (column + 1), by simp, List.length_take_of_le inside.le⟩
    have own := @filter_printLine _ headers row plain 0 before cell after
    rw [Nat.zero_add] at own
    have kept : glyph ∈ cell.shown before.length after := by
      rw [← own]
      exact List.mem_filter.mpr ⟨member, by simp [belongs]⟩
    cases open_ : cell.done with
    | true =>
      rw [ends.shown_eq_nil going open_] at kept
      cases kept
    | false =>
      rw [shown_going _ _ open_] at kept own
      obtain ⟨front, back, line, length⟩ := @printLine_split _ headers row plain 0 before _ after open_
      obtain ⟨padding, field⟩ := field_eq (0 + before.length) after open_
      rw [Nat.zero_add] at line field
      have apart : front.filter (fun glyph => glyph.owner == some before.length) = [] ∧
          back.filter (fun glyph => glyph.owner == some before.length) = [] := by
        rw [line, List.filter_append, List.filter_append, filter_field, shown_going _ _ open_] at own
        have lengths := congrArg List.length own
        simp only [List.length_append] at lengths
        constructor <;> (apply List.eq_nil_of_length_eq_zero; omega)
      have first : front.length ≤ position := by
        by_contra early
        rw [line, List.append_assoc, List.getElem?_append_left (Nat.lt_of_not_le early)] at found
        exact List.filter_eq_nil_iff.mp apart.1 glyph (List.mem_of_getElem? found) (by simp [belongs])
      have last : position < front.length + (cell.toPrint before.length).length := by
        by_contra late
        rw [line, field, List.append_assoc, List.getElem?_append_right first, List.append_assoc,
          List.getElem?_append_right (by omega)] at found
        rcases List.mem_append.mp (List.mem_of_getElem? found) with blank | behind
        · rw [List.eq_of_mem_replicate blank] at belongs
          cases belongs
        · exact List.filter_eq_nil_iff.mp apart.2 glyph behind (by simp [belongs])
      have none : (separator 0).length = 0 := rfl
      rw [length, sum_span, none] at first last
      refine ⟨by rw [columnStart_split]; omega, fun more => ?_⟩
      have behind : after ≠ [] := by
        rintro rfl
        simp at more
      have space := room before cell after rfl behind open_ (List.ne_nil_of_mem kept)
      rw [columnStart_split, width_split]
      omega

/-- None of the pieces that are left is pushed out of its column by the columns without a
width. -/
def Unshifted (cells : List CellProgress) : Prop :=
  ∀ before cell after, cells = before ++ cell :: after → after ≠ [] → cell.done = false →
    ∀ piece ∈ cell.pieces, piece.length + (before.filter fun cell => cell.width == 0).length ≤ cell.width

/-- From the second line on, all cells without text are done. -/
def Begun (cells : List CellProgress) : Prop := ∀ cell ∈ cells, cell.text = [] → cell.done = true

private theorem map_width_advance (cells : List CellProgress) :
    (cells.map advance).map CellProgress.width = cells.map CellProgress.width := by
  simp

private theorem surplus_begun {before : List CellProgress} (sound : ∀ cell ∈ before, cell.Sound) (begun : Begun before) :
    surplus before = (before.filter fun cell => cell.width == 0).length := by
  rw [surplus]
  congr 1
  apply List.filter_congr
  intro cell member
  by_cases none : cell.width = 0
  · rw [begun cell member ((sound cell member).room none), Bool.true_and]
  · rw [beq_false_of_ne none, Bool.and_false]

private theorem begun_advance {cells : List CellProgress} : Begun (cells.map advance) := by
  intro cell member none
  obtain ⟨origin, inside, rfl⟩ := List.mem_map.mp member
  rw [advance_text] at none
  rw [CellProgress.advance, if_pos]
  rw [none]
  exact Nat.zero_le _

private theorem toPrint_length_piece (column : Nat) (cell : CellProgress) :
    (cell.toPrint column).length = ((cell.text.drop cell.printed).take cell.lenToPrint).length := by
  rw [toPrint_length, List.length_take, List.length_drop]

theorem filter_map_advance (before : List CellProgress) :
    ((before.map advance).filter fun cell => cell.width == 0).length = (before.filter fun cell => cell.width == 0).length := by
  rw [List.filter_map, List.length_map]
  simp only [Function.comp_def, advance_width]

/-- What has to hold of the pieces that are left, for those of this line and of the lines
after it. -/
theorem unshifted_iff {cells : List CellProgress} (sound : ∀ cell ∈ cells, cell.Sound) (begun : Begun cells) :
    Unshifted cells ↔
      (∀ before cell after, cells = before ++ cell :: after → after ≠ [] → cell.done = false →
        cell.toPrint before.length ≠ [] → (cell.toPrint before.length).length + surplus before ≤ cell.width) ∧
      Unshifted (cells.map advance) := by
  have surplus_eq : ∀ before others, cells = before ++ others →
      surplus before = (before.filter fun cell => cell.width == 0).length := by
    rintro before others rfl
    exact surplus_begun (fun cell member => sound cell (List.mem_append_left _ member))
      fun cell member => begun cell (List.mem_append_left _ member)
  constructor
  · intro unshifted
    refine ⟨fun before cell after split more going _ => ?_, fun before cell after split more going piece member => ?_⟩
    · have here := sound cell (split ▸ List.mem_append_right _ (.head _))
      rw [surplus_eq before _ split, toPrint_length_piece]
      exact unshifted before cell after split more going _ (by rw [pieces_advance here going]; exact .head _)
    · obtain ⟨earlier, first, later, rfl, rfl, rfl, rfl⟩ := split_map_advance split
      have here := sound first (List.mem_append_right _ (.head _))
      have open_ : first.done = false := by
        cases done : first.done with
        | true => rw [advance_done here done, done] at going; cases going
        | false => rfl
      rw [filter_map_advance, advance_width]
      refine unshifted earlier first later rfl (fun none => more (by rw [none]; rfl)) open_ piece ?_
      rw [pieces_advance here open_, going]
      exact .tail _ member
  · rintro ⟨now, next⟩ before cell after split more going piece member
    have here := sound cell (split ▸ List.mem_append_right _ (.head _))
    rw [pieces_advance here going] at member
    rcases List.mem_cons.mp member with rfl | member
    · have some : cell.text ≠ [] := by
        intro none
        have done := begun cell (split ▸ List.mem_append_right _ (.head _)) none
        rw [going] at done
        cases done
      have room := now before cell after split more going (toPrint_ne_nil _ here some)
      rwa [surplus_eq before _ split, toPrint_length_piece] at room
    · cases done : cell.advance.done with
      | true => rw [done] at member; cases member
      | false =>
        rw [done] at member
        have room := next (before.map advance) cell.advance (after.map advance)
          (by rw [split, List.map_append, List.map_cons]) (by simpa using more) done piece member
        rwa [filter_map_advance, advance_width] at room

/-- From the second line on, the lines are in order when no piece is pushed out of its column. -/
theorem inPlace_lines (plain : settings.useANSICodes = false) {cells : List CellProgress} {lines : List Line}
    (prints : Prints settings headers row cells lines) (sound : ∀ cell ∈ cells, cell.Sound) (ends : EndsLast cells)
    (begun : Begun cells) :
    (∀ line ∈ lines, InPlace (cells.map CellProgress.width) Glyph.owner line) ↔ Unshifted cells := by
  induction prints with
  | @done cells finished =>
    refine ⟨fun _ before cell after split _ going => ?_, fun _ line member => absurd member List.not_mem_nil⟩
    rw [List.all_eq_true.mp finished cell (split ▸ List.mem_append_right _ (.head _))] at going
    cases going
  | line going rest ih =>
    have later := ih (sound_advance sound) (ends.advance sound) begun_advance
    rw [map_width_advance] at later
    rw [List.forall_mem_cons, inPlace_printLine plain ends going, later, unshifted_iff sound begun]

def Fresh (cells : List CellProgress) : Prop := ∀ cell ∈ cells, cell.printed = 0 ∧ cell.done = false

/-- The first line is always in order. -/
theorem inPlace_fresh (plain : settings.useANSICodes = false) {cells : List CellProgress} {lines : List Line}
    (prints : Prints settings headers row cells lines) (sound : ∀ cell ∈ cells, cell.Sound) (ends : EndsLast cells)
    (fresh : Fresh cells) :
    (∀ line ∈ lines, InPlace (cells.map CellProgress.width) Glyph.owner line) ↔ Unshifted (cells.map advance) := by
  cases prints with
  | done finished =>
    refine ⟨fun _ before cell after split => ?_, fun _ line member => absurd member List.not_mem_nil⟩
    obtain ⟨earlier, first, later, rfl, -, -, -⟩ := split_map_advance split
    have member : first ∈ earlier ++ first :: later := List.mem_append_right _ (.head _)
    have done := List.all_eq_true.mp finished first member
    rw [(fresh first member).2] at done
    cases done
  | line going rest =>
    have later := inPlace_lines plain rest (sound_advance sound) (ends.advance sound) begun_advance
    rw [map_width_advance] at later
    rw [List.forall_mem_cons, later, and_iff_right_iff_imp]
    refine fun _ => (inPlace_printLine plain ends going).mpr fun before cell after split _ _ _ => ?_
    have none : surplus before = 0 := by
      rw [surplus, List.length_eq_zero_iff, List.filter_eq_nil_iff]
      intro other member
      rw [(fresh other (split ▸ List.mem_append_left _ member)).2]
      exact Bool.false_ne_true
    rw [none]
    exact toPrint_length_le _ _

/-- A row whose cells can be read off their columns: in each column the lines show, one after
the other, the text of its cell and nothing else, and all around it there are blanks. -/
structure RowKept (widths : List Nat) (row : List Bytes) (lines : List Line) : Prop where
  cells : ∀ column (inside : column < row.length),
    (lines.flatMap fun line => (region widths column line).filter fun glyph => glyph.owner.isSome) =
      cellGlyphs column row[column]
  blanks : ∀ line ∈ lines, ∀ glyph ∈ line, glyph.owner = none → glyph = .blank
  gaps : ∀ shown ∈ lines, ∀ column, column + 1 < widths.length →
    ∀ glyph ∈ shown[columnStart widths (column + 1) - 1]?, glyph = .blank

/-- A row of which no text is printed twice or pushed out of its column: what is right of the
last cell with the most lines is empty, and the later pieces of a cell leave room for the
blanks of the columns without a width that are left of it. -/
structure Legible (cells : List CellProgress) : Prop where
  ends : ∀ before cell after, cells = before ++ cell :: after → cell.text ≠ [] →
    ∃ last ∈ cell :: after, ∀ other ∈ cells, other.pieces.length ≤ last.pieces.length
  room : ∀ before cell after, cells = before ++ cell :: after → after ≠ [] → ∀ piece ∈ cell.pieces.tail,
    piece.length + (before.filter fun cell => cell.width == 0).length ≤ cell.width

private theorem legible_iff {cells : List CellProgress} (sound : ∀ cell ∈ cells, cell.Sound) (fresh : Fresh cells) :
    Legible cells ↔ EndsLast cells ∧ Unshifted (cells.map advance) := by
  have left_eq : ∀ cell ∈ cells, cell.left = cell.pieces.length := by
    intro cell member
    rw [left, (fresh cell member).2]
    rfl
  constructor
  · rintro ⟨ends, room⟩
    refine ⟨fun before cell after split some => ?_, fun before cell after split more going piece member => ?_⟩
    · obtain ⟨last, member, most⟩ := ends before cell after split some
      refine ⟨last, member, fun other inside => ?_⟩
      rw [left_eq other inside, left_eq last (split ▸ List.mem_append_right _ member)]
      exact most other inside
    · obtain ⟨earlier, first, later, rfl, rfl, rfl, rfl⟩ := split_map_advance split
      have present : first ∈ earlier ++ first :: later := List.mem_append_right _ (.head _)
      rw [filter_map_advance, advance_width]
      refine room earlier first later rfl (by simpa using more) piece ?_
      rw [pieces_advance (sound first present) (fresh first present).2, going]
      exact member
  · rintro ⟨ends, unshifted⟩
    refine ⟨fun before cell after split some => ?_, fun before cell after split more piece member => ?_⟩
    · obtain ⟨last, member, most⟩ := ends before cell after split some
      refine ⟨last, member, fun other inside => ?_⟩
      rw [← left_eq other inside, ← left_eq last (split ▸ List.mem_append_right _ member)]
      exact most other inside
    · have present : cell ∈ cells := split ▸ List.mem_append_right _ (.head _)
      rw [pieces_advance (sound cell present) (fresh cell present).2] at member
      cases done : cell.advance.done with
      | true => rw [done] at member; cases member
      | false =>
        rw [done] at member
        have space := unshifted (before.map advance) cell.advance (after.map advance)
          (by rw [split, List.map_append, List.map_cons]) (by simpa using more) done piece member
        rwa [filter_map_advance, advance_width] at space

/-- What a line is made of. -/
theorem glyph_printLine (plain : settings.useANSICodes = false) {column : Nat} {cells : List CellProgress} {glyph : Glyph}
    (member : glyph ∈ (printLine settings headers row column cells).1) :
    glyph = .blank ∨ ∃ cell ∈ cells, ∃ other place, ∃ byte ∈ cell.text, glyph = .text other place byte := by
  have setw_member : ∀ width text, glyph ∈ setw width text → glyph ∈ text ∨ glyph = .blank := by
    intro width text inside
    exact (List.mem_append.mp inside).imp_right List.eq_of_mem_replicate
  induction cells generalizing column with
  | nil => cases member
  | cons cell cells ih =>
    have own : glyph ∈ cell.toPrint column → ∃ other place, ∃ byte ∈ cell.text, glyph = .text other place byte := by
      intro inside
      obtain ⟨place, within, rfl⟩ := List.mem_mapIdx.mp (List.mem_of_mem_drop (List.mem_of_mem_take inside))
      exact ⟨column, place, _, List.getElem_mem within, rfl⟩
    rw [printLine_cons plain, List.mem_append, List.mem_append] at member
    rcases member with (member | member) | member
    · rw [separator] at member
      split at member
      · cases member
      · exact .inl (List.mem_singleton.mp member)
    · simp only [CellProgress.field] at member
      split at member
      · rcases setw_member _ _ member with inside | blank
        · exact .inl (List.mem_singleton.mp inside)
        · exact .inl blank
      · split at member
        · exact .inr ⟨cell, .head _, own member⟩
        · rcases setw_member _ _ member with inside | blank
          · exact .inr ⟨cell, .head _, own inside⟩
          · exact .inl blank
    · rcases ih member with blank | ⟨other, inside, from_⟩
      · exact .inl blank
      · exact .inr ⟨other, .tail _ inside, from_⟩

/-- The line is made of characters of the cells and of blanks. -/
def MadeOf (cells : List Bytes) (line : Line) : Prop :=
  ∀ glyph ∈ line, glyph = .blank ∨
    ∃ cell ∈ cells, ∃ byte ∈ cell, ∃ column < cells.length, ∃ place, glyph = .text column place byte

theorem MadeOf.owned {cells : List Bytes} {line : Line} (made : MadeOf cells line) {glyph : Glyph} (inside : glyph ∈ line)
    {column : Nat} (belongs : glyph.owner = some column) : column < cells.length := by
  rcases made glyph inside with rfl | ⟨_, _, _, _, other, bound, _, rfl⟩
  · cases belongs
  · cases belongs
    exact bound

theorem MadeOf.blank {cells : List Bytes} {line : Line} (made : MadeOf cells line) {glyph : Glyph} (inside : glyph ∈ line)
    (none : glyph.owner = none) : glyph = .blank := by
  rcases made glyph inside with blank | ⟨_, _, _, _, _, _, _, rfl⟩
  · exact blank
  · cases none

theorem Prints.madeOf (plain : settings.useANSICodes = false) {cells : List CellProgress} {lines : List Line}
    (prints : Prints settings headers row cells lines) : ∀ line ∈ lines, MadeOf (cells.map CellProgress.text) line := by
  induction prints with
  | done => exact fun line member => absurd member List.not_mem_nil
  | @line cells lines going rest ih =>
    intro line member
    rcases List.mem_cons.mp member with rfl | member
    · intro glyph inside
      rcases glyph_printLine plain inside with blank | ⟨cell, present, other, place, byte, among, rfl⟩
      · exact .inl blank
      · have bound := @owner_printLine _ _ _ plain _ _ _ inside other rfl
        rw [Nat.zero_add] at bound
        exact .inr ⟨_, List.mem_map_of_mem present, byte, among, other, by rwa [List.length_map], place, rfl⟩
    · have same : (cells.map advance).map CellProgress.text = cells.map CellProgress.text := by simp
      exact same ▸ ih line member

/-- Lines of a row are read off exactly when they are in order and show each cell once. -/
theorem rowKept_iff {widths : List Nat} {cells : List Bytes} {lines : List Line} (length : cells.length = widths.length)
    (columned : widths ≠ []) (made : ∀ line ∈ lines, MadeOf cells line) :
    RowKept widths cells lines ↔ (∀ line ∈ lines, InPlace widths Glyph.owner line) ∧
      ∀ column (inside : column < cells.length), collected column lines = cellGlyphs column cells[column] := by
  have owned : ∀ line ∈ lines, ∀ glyph ∈ line, ∀ other, glyph.owner = some other → other < widths.length := by
    intro line member glyph inside other belongs
    exact length ▸ (made line member).owned inside belongs
  have cut : (∀ line ∈ lines, InPlace widths Glyph.owner line) → ∀ column, column < cells.length →
      (lines.flatMap fun line => (region widths column line).filter fun glyph => glyph.owner.isSome) =
        collected column lines := by
    intro inPlace column inside
    apply List.flatMap_congr
    intro line member
    exact (inPlace line member).region_filter (length ▸ inside) (owned line member)
  constructor
  · intro kept
    have inPlace : ∀ line ∈ lines, InPlace widths Glyph.owner line := by
      intro line member
      apply inPlace_of_regions _ _ columned
      · intro column inside glyph within other belongs
        have shows : glyph ∈ lines.flatMap fun line => (region widths column line).filter fun glyph => glyph.owner.isSome :=
          List.mem_flatMap.mpr ⟨line, member, List.mem_filter.mpr ⟨within, by rw [belongs]; rfl⟩⟩
        rw [kept.cells column (length ▸ inside)] at shows
        rw [owner_cellGlyphs shows] at belongs
        exact (Option.some.inj belongs).symm
      · intro column more glyph found
        rw [kept.gaps line member column more glyph found]
        rfl
    exact ⟨inPlace, fun column inside => (cut inPlace column inside).symm.trans (kept.cells column inside)⟩
  · rintro ⟨inPlace, shows⟩
    refine ⟨fun column inside => (cut inPlace column inside).trans (shows column inside),
      fun line member glyph => (made line member).blank, ?_⟩
    intro line member column more glyph found
    have inside := List.mem_of_getElem? found
    exact (made line member).blank inside ((inPlace line member).gap more found (owned line member glyph inside))

/-- A row is read off its columns exactly when it is legible. -/
theorem rowKept_prints (plain : settings.useANSICodes = false) {cells : List CellProgress} {lines : List Line}
    (prints : Prints settings headers row cells lines) (sound : ∀ cell ∈ cells, cell.Sound) (fresh : Fresh cells)
    (columned : cells ≠ []) :
    RowKept (cells.map CellProgress.width) (cells.map CellProgress.text) lines ↔ Legible cells := by
  have remaining_eq : ∀ before cell after, cells = before ++ cell :: after →
      cell.remaining before.length = cellGlyphs before.length cell.text := by
    intro before cell after split
    obtain ⟨start, going⟩ := fresh cell (split ▸ List.mem_append_right _ (.head _))
    rw [remaining, going, start]
    rfl
  rw [rowKept_iff (by simp) (by simpa using columned) (prints.madeOf plain), legible_iff sound fresh]
  constructor
  · rintro ⟨inPlace, shows⟩
    have ends : EndsLast cells := by
      apply endsLast_of_collected plain prints sound
      intro before cell after split
      rw [remaining_eq before cell after split, shows before.length (by simp [split])]
      simp [split]
    exact ⟨ends, (inPlace_fresh plain prints sound ends fresh).mp inPlace⟩
  · rintro ⟨ends, unshifted⟩
    refine ⟨(inPlace_fresh plain prints sound ends fresh).mpr unshifted, fun column inside => ?_⟩
    rw [List.length_map] at inside
    have split : cells = cells.take column ++ cells[column] :: cells.drop (column + 1) := by simp
    have length : (cells.take column).length = column := List.length_take_of_le inside.le
    have shows := ends.collected plain prints sound _ _ _ split
    rw [remaining_eq _ _ _ split, length] at shows
    rw [shows, List.getElem_map]

end Slate
