import ChatBI.Events.Event
import ChatBI.Lib.Check
import ChatBI.Lib.Decimal
import ChatBI.Lib.Letters

/-!
# The workbook of a query snapshot

`create_query_workbook` writes the table of a query to one sheet and what a reader has to know about
it to another one. Values that a cell cannot hold are written as texts, with a note on the cell.
-/

namespace ChatBI.Export

open ChatBI.Lib

/-- A JSON scalar. -/
inductive Scalar where
  | null
  | bool (b : Bool)
  | int (n : Int)
  | float (x : Float64)
  | str (s : String)
  deriving DecidableEq

/-! ### The sheets -/

/-- What a cell holds. -/
inductive Content where
  | string (s : String)
  | number (value : Rat)
  | boolean (b : Bool)
  | formula (s : String)
  | url (s : String)
  deriving DecidableEq

/-- The cells of a sheet in the order in which they are written. Both sheets start in `A1`. -/
abbrev Sheet := List ((Nat × Nat) × Content)

def excelMaxRows : Nat := 1048576

def excelMaxColumns : Nat := 16384

def excelMaxCellChars : Nat := 32767

def queryMaxRows : Nat := 100

/-- A text of a length that a cell holds. -/
def Content.Holds : Content → Prop
  | .string s => s.length ≤ excelMaxCellChars
  | _ => True

/-- What is known of the library that writes the file: a cell within the limits is written, and a
range is named after its last column and row. -/
structure Writer where
  status : Nat → Nat → Content → Int
  column : Nat → List Char
  status_eq : ∀ row col content, row < excelMaxRows → col < excelMaxColumns → content.Holds →
    status row col content = 0
  column_letters : ∀ number, ∀ c ∈ column number, IsLetter c
  column_value : ∀ number, lettersValue (column number) = number

/-- The numbers of rows and columns in use. -/
def Sheet.usedRows (sheet : Sheet) : Nat := sheet.foldl (fun rows cell => max rows (cell.1.1 + 1)) 0

def Sheet.usedColumns (sheet : Sheet) : Nat :=
  sheet.foldl (fun columns cell => max columns (cell.1.2 + 1)) 0

/-- The reference of a cell, from the letters of its column. -/
def reference (column : List Char) (row : Nat) : String :=
  String.ofList (column ++ Nat.toDigits 10 row)

/-- The dimension of a sheet. -/
def Writer.dimension (w : Writer) (sheet : Sheet) : String :=
  if sheet.usedRows = 1 ∧ sheet.usedColumns = 1 then "A1"
  else "A1:" ++ reference (w.column sheet.usedColumns) sheet.usedRows

/-- `_column_name`. -/
def columnName (number : Nat) : List Char := letters number

/-! ### The cells -/

def utf16Length (s : String) : Nat :=
  (s.toList.map fun c => if 0x10000 ≤ c.toNat then 2 else 1).sum

/-- `_XML_CONTROL`. -/
def isXmlControl (c : Char) : Bool :=
  let n := c.toNat
  n ≤ 8 || n = 0x0b || n = 0x0c || (0x0e ≤ n && n ≤ 0x1f) || n = 0xfffe || n = 0xffff

/-- `_text`. -/
def text (value : String) : Except String String := do
  require (utf16Length value ≤ excelMaxCellChars) "导出文字超过 XLSX 单元格长度限制"
  require (value.toList.any isXmlControl = false) "导出文字包含 XLSX 无法表达的字符"
  return value

inductive JsonType where
  | null
  | boolean
  | number
  | integerText
  | numberText
  | string
  deriving DecidableEq

def JsonType.value : JsonType → String
  | .null => "null"
  | .boolean => "boolean"
  | .number => "number"
  | .integerText => "integer-text"
  | .numberText => "number-text"
  | .string => "string"

/-- What is written for a value, with the type and the text of the value. -/
structure Encoded where
  content : Content
  jsonType : JsonType
  original : String
  deriving DecidableEq

def nullMarker : String := "〈NULL〉"

def emptyMarker : String := "〈空字符串〉"

def intText (n : Int) : String := String.ofList (intChars n)

/-- `json.dumps` of a text with `ensure_ascii=False`. -/
def jsonText (s : String) : String := String.ofList (JsonDoc.dumpString s.toList)

/-- The digits of `Decimal(str(value)).normalize()`. -/
def significantDigits (x : Float64) : Nat := x.digitChars.length

/-- Zero, or a magnitude from `2.2251e-308` to `9.99999999999999e307`. -/
def inExcelRange (x : Float64) : Prop :=
  x.digits = 0 ∨ 22251 * (10 : Rat) ^ (-312 : Int) ≤ |x.value| ∧
    |x.value| ≤ 999999999999999 * (10 : Rat) ^ (293 : Int)

instance (x : Float64) : Decidable (inExcelRange x) :=
  inferInstanceAs (Decidable (_ ∨ _ ∧ _))

/-- The number of digits of `str(abs(value))`. -/
def intDigits (n : Int) : Nat := (Nat.toDigits 10 n.natAbs).length

/-- `_format_cell`. -/
def formatCell : Scalar → Except String Encoded
  | .null => .ok ⟨.string nullMarker, .null, "null"⟩
  | .bool b => .ok ⟨.boolean b, .boolean, if b then "true" else "false"⟩
  | .int n => do
    require (intDigits n ≤ Events.maxStrDigits)
      "Exceeds the limit (4300 digits) for integer string conversion"
    return if intDigits n ≤ 15 then ⟨.number n, .number, intText n⟩
      else ⟨.string (intText n), .integerText, intText n⟩
  | .float x =>
    if significantDigits x ≤ 15 ∧ inExcelRange x then .ok ⟨.number x.value, .number, x.repr⟩
    else (text x.repr).map fun repr => ⟨.string repr, .numberText, x.repr⟩
  | .str s =>
    if s = "" then .ok ⟨.string emptyMarker, .string, jsonText s⟩
    else (text s).map fun t => ⟨.string t, .string, jsonText s⟩

/-- A cell that needs a note. -/
def isSpecial (jsonType : JsonType) (value : Scalar) : Prop :=
  jsonType ∉ [JsonType.string, .boolean, .number] ∨ value = .str "" ∨ value = .str nullMarker ∨
    value = .str emptyMarker

instance (jsonType : JsonType) (value : Scalar) : Decidable (isSpecial jsonType value) :=
  inferInstanceAs (Decidable (_ ∨ _ ∨ _ ∨ _))

/-! ### The source -/

structure MetadataColumn where
  name : String
  semanticName : Option String
  definition : Option String
  unitLabel : Option String

structure TimeScope where
  start : String
  endExclusive : String
  timeBasis : String

structure ScopeFilter where
  label : String
  operator : String
  values : List String

structure ScopeGrouping where
  semanticName : String
  kind : String
  columnIndices : List Nat

structure ResultMetadata where
  columns : List MetadataColumn
  time : Option TimeScope
  filters : List ScopeFilter
  grouping : List ScopeGrouping
  warnings : List String

/-- An authorized public query snapshot. -/
structure Source where
  question : Option String
  resultTime : Option String
  savedTime : Option String
  exportTime : Option String
  columns : List String
  rows : List (List Scalar)
  rowCount : Int
  truncated : Bool
  resultMetadata : Option ResultMetadata

/-! ### The notes -/

/-- The lines of the second sheet behind its header: a key and a value. -/
abbrev NoteRow := String × String

/-- `value or default`. -/
def orElse (value : Option String) (default : String) : String :=
  match value with
  | some s => if s = "" then default else s
  | none => default

/-- `if value:` with a text. -/
def nonempty? (value : Option String) : Option String := value.filter (· ≠ "")

def jsonArray (items : List String) : String := "[" ++ ", ".intercalate items ++ "]"

def jsonObject (fields : List (String × String)) : String :=
  "\x7b" ++ ", ".intercalate (fields.map fun field => jsonText field.1 ++ ": " ++ field.2) ++ "\x7d"

def TimeScope.json (time : TimeScope) : String :=
  jsonObject [("end_exclusive", jsonText time.endExclusive), ("start", jsonText time.start),
    ("time_basis", jsonText time.timeBasis)]

def ScopeFilter.json (filter : ScopeFilter) : String :=
  jsonObject [("label", jsonText filter.label), ("operator", jsonText filter.operator),
    ("values", jsonArray (filter.values.map jsonText))]

def ScopeGrouping.json (grouping : ScopeGrouping) : String :=
  jsonObject [("column_indices", jsonArray (grouping.columnIndices.map toString)),
    ("kind", jsonText grouping.kind), ("semantic_name", jsonText grouping.semanticName)]

/-- The line on a part of the scope. -/
def scopeNote (key : String) (items : List String) : List NoteRow :=
  if items = [] then [] else [("查询范围 · " ++ key, jsonArray items)]

def columnNotes (index : Nat) (column : MetadataColumn) : List NoteRow :=
  let label := orElse column.semanticName (orElse (some column.name) s!"第{index + 1}列")
  ((nonempty? column.definition).map fun definition => ("指标定义 · " ++ label, definition)).toList ++
    ((nonempty? column.unitLabel).map fun unit => ("单位 · " ++ label, unit)).toList

/-- `_append_metadata`. -/
def metadataNotes : Option ResultMetadata → List NoteRow
  | none => [("结果说明", "业务口径未确认；保留原始快照值。")]
  | some metadata =>
    (metadata.columns.zipIdx.flatMap fun column => columnNotes column.2 column.1) ++
      (metadata.time.map fun time => ("查询范围 · time", time.json)).toList ++
      scopeNote "filters" (metadata.filters.map ScopeFilter.json) ++
      scopeNote "grouping" (metadata.grouping.map ScopeGrouping.json) ++
      scopeNote "warnings" (metadata.warnings.map jsonText)

/-- The lines in front of those on single cells. -/
def generalNotes (source : Source) : List NoteRow :=
  [("来源问题", orElse source.question "来源问题未保存"),
    ("结果时间", orElse source.resultTime "原结果完成时间未保存")] ++
  ((nonempty? source.savedTime).map fun saved => ("成果保存时间", saved)).toList ++
  [("导出时间", orElse source.exportTime "导出时间未保存"),
    ("展示行数", toString source.rows.length),
    ("结果行数", intText source.rowCount),
    ("数据截断", if source.truncated then "是；文件仅包含当前快照返回行" else "否")] ++
  metadataNotes source.resultMetadata

/-- `f"{cell} · {column}"`. -/
def noteKey (row col : Nat) (column : String) : String :=
  reference (columnName (col + 1)) (row + 1) ++ " · " ++ column

/-- The line on a cell that needs one. -/
def markerRow (columns : List String) (row col : Nat) (encoded : Encoded) : NoteRow :=
  (noteKey row col (columns.getD col ""), encoded.jsonType.value ++ " · " ++ encoded.original)

def noteRows (source : Source) (markers : List NoteRow) : List NoteRow :=
  generalNotes source ++
    (if source.truncated then [("截断提示", "仅包含快照当前返回行，未重新查询或获取全量数据。")] else []) ++
    (if markers = [] then [] else [("特殊单元格", "单元格坐标、原始 JSON 类型、原始 JSON 值")]) ++ markers

/-! ### Writing -/

structure Workbook where
  data : Sheet
  notes : Sheet

/-- The values of the table with their rows and columns, row by row. -/
def cells (rows : List (List Scalar)) : List ((Nat × Nat) × Scalar) :=
  (rows.zipIdx 1).flatMap fun row => row.1.zipIdx.map fun value => ((row.2, value.2), value.1)

/-- Writes one cell, and keeps the line on it. -/
def writeCell (w : Writer) (columns : List String) (written : Sheet × List NoteRow)
    (cell : (Nat × Nat) × Scalar) : Except String (Sheet × List NoteRow) := do
  let encoded ← formatCell cell.2
  require (w.status cell.1.1 cell.1.2 encoded.content = 0) "导出单元格无法完整写入"
  return (written.1 ++ [(cell.1, encoded.content)],
    if isSpecial encoded.jsonType cell.2 then
      written.2 ++ [markerRow columns cell.1.1 cell.1.2 encoded]
    else written.2)

def headerCells (columns : List String) : Sheet :=
  columns.zipIdx.map fun name => ((0, name.2), .string name.1)

/-- The two cells of a line of the notes. -/
def noteCells (note : NoteRow × Nat) : Sheet :=
  [((note.2, 0), .string note.1.1), ((note.2, 1), .string note.1.2)]

def notesHeader : Sheet := [((0, 0), .string "项目"), ((0, 1), .string "内容")]

def writeNote (w : Writer) (notes : Sheet) (note : NoteRow × Nat) : Except String Sheet := do
  let key ← text note.1.1
  let value ← text note.1.2
  require (w.status note.2 0 (.string key) = 0 ∧ w.status note.2 1 (.string value) = 0)
    "结果说明超过 XLSX 可表达限制"
  return notes ++ noteCells ((key, value), note.2)

/-- The shape of a snapshot that is exported. -/
def Source.Shaped (source : Source) : Prop :=
  source.columns ≠ [] ∧ source.columns.length ≤ excelMaxColumns ∧
    source.rows.length ≤ queryMaxRows ∧ source.rows.length ≤ source.rowCount ∧
    (source.rowCount = source.rows.length ∨ source.truncated) ∧
    ∀ row ∈ source.rows, row.length = source.columns.length

instance (source : Source) : Decidable source.Shaped :=
  inferInstanceAs (Decidable (_ ∧ _ ∧ _ ∧ _ ∧ _ ∧ _))

/-- `_verify_workbook`. -/
def verifyWorkbook (w : Writer) (workbook : Workbook) (dataRows dataColumns noteRows : Nat) :
    Except String Unit :=
  require (w.dimension workbook.data = "A1:" ++ reference (columnName dataColumns) dataRows ∧
    w.dimension workbook.notes = "A1:" ++ reference ['B'] noteRows) "XLSX 文件完整性检查失败"

/-- `create_query_workbook`. The file is removed when this raises. -/
def createQueryWorkbook (w : Writer) (source : Source) : Except String Workbook := do
  require source.Shaped "查询结果快照格式无效"
  let cleanColumns ← source.columns.mapM text
  let header := headerCells cleanColumns
  require (∀ cell ∈ header, w.status cell.1.1 cell.1.2 cell.2 = 0) "导出列名无法写入"
  let (data, markers) ← (cells source.rows).foldlM (writeCell w cleanColumns) (header, [])
  let rows := noteRows source markers
  require (rows.length + 1 ≤ excelMaxRows) "结果说明超过 XLSX 行数限制"
  let notes ← (rows.zipIdx 1).foldlM (writeNote w) notesHeader
  verifyWorkbook w ⟨data, notes⟩ (source.rows.length + 1) source.columns.length (rows.length + 1)
  return ⟨data, notes⟩

end ChatBI.Export
