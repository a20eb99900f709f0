import Slate.Commands
import Slate.Library.Json

/-! How the client prints a response in the format that the user has chosen. -/

namespace Slate
open Library

structure OutputColumn where
  label : List Char
  attr : List Char
  allowWrap : Bool := false
  optional : Bool := false
deriving DecidableEq

/-- An exception, or what the language leaves undefined: an access behind the end of a list, or to
the text of a value that is none. -/
inductive OutputFailure where
  | exception (message : String)
  | undefined
deriving DecidableEq

/-- A text, or the rows of a table that are to be laid out in its columns. -/
inductive Formatted where
  | text (text : List Char)
  | table (columns : List OutputColumn) (headers : Bool) (rows : List (List (List Char)))
deriving DecidableEq

/-- What is used of the library for documents and of the standard library: how a document is
written, what a pointer finds in it, how a number is printed, and an order of the rows in which the
texts in one column ascend. -/
structure OutputLibrary where
  write : Json → List Char
  resolve : List Char → Json → Option Json
  numberText : ℚ → Bool → List Char
  sort : Nat → List (List (List Char)) → List (List (List Char))

abbrev OutputFiles := List Char → Option (List (List Char))

structure OutputClient where
  outputFormat : List Char
  orderBy : List Char

variable (client : OutputClient) (library : OutputLibrary)

def jsonValueToString : Json → Except OutputFailure (List Char)
  | .string value => .ok (value.toList.takeWhile (· ≠ '\x00'))
  | .number value double => .ok (library.numberText value double)
  | .null => .ok "Null".toList
  | .bool value => .ok (if value then "true".toList else "false".toList)
  | _ => throw (.exception "JSON value is not a scalar which can be displayed as a string")

def tableCell (row : Json) (column : OutputColumn) : Except OutputFailure (List Char) :=
  match library.resolve (column.attr.takeWhile (· ≠ '\x00')) row with
  | none => if column.optional then .ok [] else throw (.exception "Given attribute does not exist")
  | some value => jsonValueToString library value

def tableRows (columns : List OutputColumn) : Json → Except OutputFailure (List (List (List Char)))
  | .array items => items.mapM fun row => columns.mapM (tableCell library row)
  | .object members => [Json.object members].mapM fun row => columns.mapM (tableCell library row)
  | _ => .ok []

/-- The column by which the rows are sorted, if there is one of the given label. -/
def sortColumn (columns : List OutputColumn) : Option Nat :=
  if client.orderBy ≠ [] then columns.findIdx? (·.label = client.orderBy) else some 0

/-- The rows in the order of a column, which is looked at where there are two of them to compare. -/
def sortRows (columns : List OutputColumn) (rows : List (List (List Char))) :
    Except OutputFailure (List (List (List Char))) :=
  match sortColumn client columns with
  | none => .ok rows
  | some indexer =>
    if 2 ≤ rows.length ∧ columns.length ≤ indexer then throw .undefined else .ok (library.sort indexer rows)

def jsonListToTable (jdata : Json) (columns : List OutputColumn) (headers : Bool) : Except OutputFailure Formatted := do
  let rows ← tableRows library columns jdata
  let rows ← sortRows client library columns rows
  return .table columns headers ((if headers then [columns.map OutputColumn.label] else []) ++ rows)

/-- An access to the text of a value that has none is an assertion that fails. -/
def readJsonPointer (jdata : Json) (pointer : List Char) : Except OutputFailure Formatted :=
  match library.resolve pointer jdata with
  | none => throw (.exception "The pointer provided to format output is not valid")
  | some value =>
    match value.getCString with
    | none => throw .undefined
    | some result => .ok (.text (result.toList ++ ['\n']))

/-- What is behind the first sign of equality. -/
def formatArgument (outputFormat : List Char) : List Char :=
  outputFormat.drop ((outputFormat.takeWhile (· ≠ '=')).length + 1)

/-- The words of a line, between tabs and spaces. -/
def lineTokens (text : List Char) : List (List Char) :=
  (text.splitOn '\t').flatMap fun item => (item.splitOn ' ').filter (· ≠ [])

/-- Takes the first line with words as the labels and the next one as the attributes. -/
def columnLine (read : List (List Char) × List (List Char)) (text : List Char) :
    Except OutputFailure (List (List Char) × List (List Char)) :=
  if read.1 = [] then .ok (lineTokens text, read.2)
  else if read.2 = [] then .ok (read.1, lineTokens text)
  else throw (.exception "The custom columns file should only include labels and a single attribute for each label")

/-- Each label with the attribute in its place, of which there may be none. -/
def pairColumns (labels data : List (List Char)) : Except OutputFailure (List OutputColumn) :=
  if data.length < labels.length then throw .undefined
  else .ok (labels.zipWith (fun label attr => { label, attr }) data)

def fileColumns (lines : List (List Char)) : Except OutputFailure (List OutputColumn) := do
  let read ← lines.foldlM columnLine ([], [])
  pairColumns read.1 read.2

def missingAttribute : String := "Every label for the table must have an attribute specified with it"

def inlineColumns (cols : List Char) : Except OutputFailure (List OutputColumn) :=
  if _proper : cols = [] then .ok []
  else if ':' ∉ cols then throw (.exception missingAttribute)
  else
    let label := cols.takeWhile (· ≠ ':')
    let behind := cols.drop (label.length + 1)
    if behind = [] then throw (.exception missingAttribute)
    else do
      let attr := behind.takeWhile (· ≠ ',')
      let others ← inlineColumns (behind.drop (attr.length + 1))
      return { label, attr } :: others
termination_by cols.length
decreasing_by
  have := List.length_pos_iff.mpr _proper
  simp only [List.length_drop]
  omega

def customColumnsFileKeyword : List Char := "custom-columns-file".toList
def customColumnsKeyword : List Char := "custom-columns".toList
def jsonPointerFileKeyword : List Char := "jsonpointer-file".toList
def jsonPointerKeyword : List Char := "jsonpointer".toList

/-- The format names the keyword anywhere in its text. -/
def names (outputFormat keyword : List Char) : Bool := (position keyword outputFormat).isSome

/-- What stands behind the sign of equality, which is to be there. -/
def formatOption (outputFormat : List Char) (missing empty : String) : Except OutputFailure (List Char) :=
  if '=' ∉ outputFormat then throw (.exception missing)
  else if formatArgument outputFormat = [] then throw (.exception empty)
  else .ok (formatArgument outputFormat)

def readOutputFile (files : OutputFiles) (file : List Char) (unopened : String) :
    Except OutputFailure (List (List Char)) :=
  match files file with
  | none => throw (.exception unopened)
  | some lines => .ok lines

def clientShouldPrintOnlyJson : Bool := client.outputFormat.take 4 = "json".toList

def formatOutput (files : OutputFiles) (jdata original : Json) (columns : List OutputColumn) :
    Except OutputFailure Formatted :=
  if clientShouldPrintOnlyJson client then .ok (.text (library.write jdata ++ ['\n']))
  else if names client.outputFormat customColumnsFileKeyword then do
    let unspecified := "No file was specified to format output with custom columns"
    let file ← formatOption client.outputFormat unspecified unspecified
    let lines ← readOutputFile files file "The specified file for custom columns was not able to be opened"
    let customColumns ← fileColumns lines
    jsonListToTable client library jdata customColumns true
  else if names client.outputFormat customColumnsKeyword then do
    let unspecified := "No custom columns were specified to format output with"
    let cols ← formatOption client.outputFormat unspecified unspecified
    let customColumns ← inlineColumns cols
    jsonListToTable client library jdata customColumns true
  else if client.outputFormat = "no-headers".toList then jsonListToTable client library jdata columns false
  else if names client.outputFormat jsonPointerFileKeyword then do
    let file ← formatOption client.outputFormat "No json pointer file was specified to be used to format the output"
      "No file was specified to format output with"
    let lines ← readOutputFile files file "The file specified to format output was unable to be opened"
    readJsonPointer library original lines.flatten
  else if names client.outputFormat jsonPointerKeyword then do
    let pointer ← formatOption client.outputFormat "No json pointer format was included to use to format the output"
      "No json pointer was given to format output"
    readJsonPointer library original pointer
  else if client.outputFormat = [] then jsonListToTable client library jdata columns true
  else throw (.exception "Specified output format is not supported")

end Slate
