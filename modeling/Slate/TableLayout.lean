import Mathlib.Data.Rat.Floor
import Slate.Library.Versions

/-! The layout of the tables that the client prints. Each character of the output is kept
with the place it was taken from, so that a cell can be followed through the lines. -/

namespace Slate
open Library

/-- A character of the output: one of a cell's text with its column and its place in the
text, one of an escape sequence, or a blank between the texts. -/
inductive Glyph where
  | text (column place : Nat) (byte : UInt8)
  | escape (byte : UInt8)
  | blank
deriving DecidableEq

namespace Glyph

def byte : Glyph → UInt8
  | text _ _ byte => byte
  | escape byte => byte
  | blank => 32

/-- The column from whose cell a character was taken. -/
def owner : Glyph → Option Nat
  | text column _ _ => column
  | _ => none

end Glyph

abbrev Line := List Glyph

structure ColumnSpec where
  allowWrap : Bool
deriving DecidableEq

structure OutputSettings where
  useANSICodes : Bool
  outputWidth : Nat

def OutputSettings.underline (settings : OutputSettings) (text : Line) : Line :=
  if settings.useANSICodes then
    ([0x1B, 0x5B, 0x34, 0x6D].map .escape) ++ text ++ ([0x1B, 0x5B, 0x32, 0x34, 0x6D].map .escape)
  else text

/-- What is inserted into a left aligned stream with a width set. -/
def setw (width : Nat) (inserted : Line) : Line :=
  inserted ++ List.replicate (width - inserted.length) .blank

def cellGlyphs (column : Nat) (text : Bytes) : Line := text.mapIdx (Glyph.text column)

def widen : List Nat → List Bytes → List Nat
  | widths, [] => widths
  | [], cell :: row => cell.length :: widen [] row
  | width :: widths, cell :: row => max width cell.length :: widen widths row

def minColumnWidths (items : List (List Bytes)) : List Nat := items.foldl widen []

def totalWidth (widths : List Nat) : Nat := widths.sum + (widths.length - 1)

def wrappableWidth : List ColumnSpec → List Nat → Nat
  | spec :: columns, width :: widths => (if spec.allowWrap then width else 0) + wrappableWidth columns widths
  | _, _ => 0

def wrapFactor (outputWidth totalWidth wrappableWidth : Nat) : ℚ :=
  ((outputWidth : ℚ) - (totalWidth - wrappableWidth : Nat)) / wrappableWidth

/-- The wrappable columns shortened by a factor. The conversion of a whole number to an
unsigned one is a parameter, since it is not defined for every number. -/
def shorten (toSize : ℤ → Nat) (factor : ℚ) : List ColumnSpec → List Nat → List Nat
  | spec :: columns, width :: widths =>
    (if spec.allowWrap then
      let short := toSize ⌊width * factor⌋
      if short = 0 then 1 else short
    else width) :: shorten toSize factor columns widths
  | _, widths => widths

def columnWidths (toSize : ℤ → Nat) (outputWidth : Nat) (columns : List ColumnSpec) (items : List (List Bytes)) :
    List Nat :=
  let widths := minColumnWidths items
  let wrappable := wrappableWidth columns widths
  if totalWidth widths ≤ outputWidth then widths
  else if wrappable > 2 then shorten toSize (wrapFactor outputWidth (totalWidth widths) wrappable) columns widths
  else widths

def isBreak (byte : UInt8) : Bool := byte == 32 || byte == 45 || byte == 95

/-- The first place from a position on after which the text can be broken. -/
def findBreak (text : Bytes) (position : Nat) : Option Nat :=
  ((text.drop position).findIdx? isBreak).map (position + ·)

private theorem findBreak_ge {text : Bytes} {position place : Nat} (found : findBreak text position = some place) :
    position ≤ place := by
  obtain ⟨offset, -, rfl⟩ := Option.map_eq_some_iff.mp found
  omega

/-- Goes on from one break to the next for as long as they are within the width. -/
def lastBreak (text : Bytes) (printed width length : Nat) (break_pos : Option Nat) : Nat :=
  match break_pos with
  | none => length
  | some pos =>
    if printed ≤ pos ∧ pos - printed < width then
      lastBreak text printed width (pos - printed + 1) (findBreak text (printed + (pos - printed + 1)))
    else length
termination_by break_pos.elim 0 (printed + width - ·)
decreasing_by
  cases found : findBreak text (printed + (pos - printed + 1)) with
  | none =>
    simp only [Option.elim_none, Option.elim_some]
    omega
  | some next =>
    have later := findBreak_ge found
    simp only [Option.elim_some]
    omega

/-- How far the printing of a cell has come, with the width of its column. -/
structure CellProgress where
  width : Nat
  allowWrap : Bool
  text : Bytes
  printed : Nat
  done : Bool
deriving DecidableEq

namespace CellProgress

def lenToPrint (cell : CellProgress) : Nat :=
  if cell.allowWrap then
    let length := lastBreak cell.text cell.printed cell.width cell.width (findBreak cell.text cell.printed)
    if length * 2 ≤ cell.width then cell.width else length
  else cell.width

def toPrint (column : Nat) (cell : CellProgress) : Line :=
  ((cellGlyphs column cell.text).drop cell.printed).take cell.lenToPrint

def advance (cell : CellProgress) : CellProgress :=
  if cell.text.length ≤ cell.printed + cell.lenToPrint then { cell with done := true }
  else { cell with printed := cell.printed + cell.lenToPrint }

end CellProgress

variable (settings : OutputSettings) (headers : Bool)

/-- The text of a cell as it is inserted, in the row with this number. -/
def inserted (row : Nat) (text : Line) : Line :=
  if (settings.useANSICodes && row != 0) || !headers then text else settings.underline text

def separator (column : Nat) : Line := if column = 0 then [] else [.blank]

def printRow (row : Nat) : Nat → List Nat → List Bytes → Line
  | column, width :: widths, cell :: cells =>
    separator column ++
      setw (width + if settings.useANSICodes && row == 0 && headers then 9 else 0)
        (inserted settings headers row (cellGlyphs column cell)) ++
      printRow row (column + 1) widths cells
  | _, _, _ => []

def printLine (row : Nat) : Nat → List CellProgress → Line × List CellProgress
  | _, [] => ([], [])
  | column, cell :: cells =>
    let (line, rest) := printLine row (column + 1) cells
    if cell.done && !(cell :: cells).all CellProgress.done then
      (separator column ++ setw cell.width [.blank] ++ line, cell :: rest)
    else
      let text := inserted settings headers row (cell.toPrint column)
      let field :=
        if cells.isEmpty then text
        else setw (cell.width + if settings.useANSICodes && row == 0 then 9 else 0) text
      (separator column ++ field ++ line, cell.advance :: rest)

/-- The lines of a row, until all of its cells are done. Without an answer the fuel was
not enough. -/
def printLines (row : Nat) : Nat → List CellProgress → Option (List Line)
  | fuel, cells =>
    if cells.all CellProgress.done then some []
    else match fuel with
      | 0 => none
      | fuel + 1 =>
        let (line, rest) := printLine settings headers row 0 cells
        (printLines row fuel rest).map (line :: ·)

def startRow : List ColumnSpec → List Nat → List Bytes → List CellProgress
  | spec :: columns, width :: widths, cell :: cells =>
    { width, allowWrap := spec.allowWrap, text := cell, printed := 0, done := false } ::
      startRow columns widths cells
  | _, _, _ => []

def formatTable (toSize : ℤ → Nat) (items : List (List Bytes)) (columns : List ColumnSpec) (fuel : Nat) :
    Option (List (List Line)) :=
  let widths := minColumnWidths items
  if totalWidth widths ≤ settings.outputWidth then
    some (items.mapIdx fun row cells => [printRow settings headers row 0 widths cells])
  else
    let widths := columnWidths toSize settings.outputWidth columns items
    items.zipIdx.mapM fun (cells, row) => printLines settings headers row fuel (startRow columns widths cells)

def lineBreak : UInt8 := 10

/-- The rows as they are put out, with a line break behind each line. -/
def printedText (rows : List (List Line)) : Bytes :=
  rows.flatten.flatMap fun line => line.map Glyph.byte ++ [lineBreak]

end Slate
