import ChatBI.Export.Workbook

/-!
# Reading a workbook

What an export is for: the values of the table are read back from the two sheets alone.
-/

namespace ChatBI.Export

open ChatBI.Lib

/-- A value up to the representation of its number. -/
inductive Restored where
  | null
  | bool (b : Bool)
  | number (value : Rat)
  | str (s : String)
  deriving DecidableEq

def Scalar.restored : Scalar → Restored
  | .null => .null
  | .bool b => .bool b
  | .int n => .number n
  | .float x => .number x.value
  | .str s => .str s

def Sheet.get? (sheet : Sheet) (row col : Nat) : Option Content :=
  (sheet.find? (·.1 = (row, col))).map Prod.snd

/-- The text of a cell that holds one. -/
def Sheet.string? (sheet : Sheet) (row col : Nat) : Option String :=
  match sheet.get? row col with
  | some (.string s) => some s
  | _ => none

/-- The value behind the first line with a key. -/
def noteAt (notes : Sheet) (key : String) : Option String :=
  (List.range notes.usedRows).findSome? fun row =>
    if notes.string? row 0 = some key then notes.string? row 1 else none

/-- The text of the value in a note on a value of a type. -/
def original? (jsonType : JsonType) (note : String) : Option (List Char) :=
  let start := (jsonType.value ++ " · ").toList
  if start.isPrefixOf note.toList then some (note.toList.drop start.length) else none

/-- The value of a noted cell, from its text and the note. -/
def restoreNoted (s note : String) : Restored :=
  if (original? .null note).isSome then .null
  else
    match original? .integerText note, original? .numberText note with
    | some digits, _ => .number (readDecimal digits)
    | none, some digits => .number (readDecimal digits)
    | none, none => if original? .string note = some ['"', '"'] then .str "" else .str s

def restoreText (s : String) : Option String → Restored
  | none => .str s
  | some note => restoreNoted s note

def restoreContent (note : Option String) : Content → Option Restored
  | .boolean b => some (.bool b)
  | .number value => some (.number value)
  | .string s => some (restoreText s note)
  | .formula _ | .url _ => none

/-- The value of a cell of the table. -/
def restoreCell (workbook : Workbook) (row col : Nat) : Option Restored :=
  (workbook.data.string? 0 col).bind fun name => (workbook.data.get? row col).bind
    (restoreContent (noteAt workbook.notes (noteKey row col name)))

def Content.isPlain : Content → Bool
  | .string _ | .number _ | .boolean _ => true
  | .formula _ | .url _ => false

/-- The value of the table at a place. -/
def Source.value? (source : Source) (row col : Nat) : Option Scalar :=
  source.rows[row]?.bind fun values => values[col]?

/-- The table is read back in place, its texts are texts, and nothing is a formula or a link. -/
structure Lossless (source : Source) (workbook : Workbook) : Prop where
  usedRows : workbook.data.usedRows = source.rows.length + 1
  usedColumns : workbook.data.usedColumns = source.columns.length
  columns : ∀ col name, source.columns[col]? = some name →
    workbook.data.string? 0 col = some name
  values : ∀ row col value, source.value? row col = some value →
    restoreCell workbook (row + 1) col = some value.restored
  texts : ∀ row col s, source.value? row col = some (.str s) →
    (workbook.data.string? (row + 1) col).isSome = true
  plain : ∀ cell ∈ workbook.data ++ workbook.notes, cell.2.isPlain = true

/-! ### What is exported -/

/-- A text that a cell holds: not too long, and without characters that XML forbids. -/
structure Fits (s : String) : Prop where
  length : utf16Length s ≤ excelMaxCellChars
  controls : s.toList.any isXmlControl = false

/-- The line on a cell, when it needs one. -/
def cellMarkers (columns : List String) (cell : (Nat × Nat) × Scalar) : List NoteRow :=
  match formatCell cell.2 with
  | .ok encoded =>
    if isSpecial encoded.jsonType cell.2 then [markerRow columns cell.1.1 cell.1.2 encoded] else []
  | .error _ => []

def markers (source : Source) : List NoteRow :=
  (cells source.rows).flatMap (cellMarkers source.columns)

/-- A public query snapshot with a column, whose texts and notes fit. JSON has integers of at most
4300 digits, since Python neither reads nor writes longer ones. -/
structure Exportable (source : Source) : Prop where
  columns : source.columns ≠ []
  rows : source.rows.length ≤ queryMaxRows
  rowCount : source.rowCount = source.rows.length
  rectangular : ∀ row ∈ source.rows, row.length = source.columns.length
  integers : ∀ row ∈ source.rows, ∀ n, .int n ∈ row → intDigits n ≤ Events.maxStrDigits
  names : ∀ name ∈ source.columns, Fits name
  texts : ∀ row ∈ source.rows, ∀ s, .str s ∈ row → Fits s
  notes : ∀ note ∈ noteRows source (markers source), Fits note.1 ∧ Fits note.2

end ChatBI.Export
