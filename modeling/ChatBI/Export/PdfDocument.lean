import ChatBI.Lib.DateTime
import ChatBI.Snapshot.Codec

/-!
# The document of a PDF export

`export_snapshot` and `prepare` make the document of a stored snapshot, and `_safe_document` checks
it again in the worker and copies what the report shows. The digits of `\d` and `json.dumps` are
parameters.
-/

namespace ChatBI.Export.Pdf

open ChatBI.Lib ChatBI.Snapshot ChatBI.Store

inductive PdfError where
  /-- `ExportRenderFailure`. -/
  | renderFailure (message : String)
  | valueError
  | typeError
  deriving DecidableEq

/-! ### The source of the document -/

/-- The row of a turn, which has its question, or of a saved result, which has none. -/
structure SourceRow where
  title : String
  question : Option String
  completedAt : Option DateTime
  createdAt : Option DateTime

def optionalTime (time : Option DateTime) : Json :=
  match time with
  | some time => .str (String.ofList time.isoformat)
  | none => .null

/-- The question of the row, or else the one of the envelope. -/
def sourceQuestion (envelope : Json) (row : SourceRow) : Json :=
  match row.question with
  | some question => .str question
  | none =>
    let question := envelope.field
      (if (envelope.field "kind").text = "query" then "source_question" else "original_question")
    if question.isString then question else .null

/-- `export_snapshot`. -/
def exportSnapshot (isDecimal : String → Bool) (envelope : Json) (row : SourceRow) :
    Except HistoryError Json := do
  let result ← publicSnapshot isDecimal envelope
  let result := if (envelope.field "kind").text = "query" then
    .obj (result.members.filter fun m => m.1 ≠ "sql") else result
  return .obj [("kind", envelope.field "kind"), ("title", .str row.title),
    ("question", sourceQuestion envelope row), ("result_time", optionalTime row.completedAt),
    ("saved_time", optionalTime row.createdAt), ("result", result)]

/-- The document of `prepare`. -/
def exportDocument (source : Json) (now : DateTime) : Json :=
  .obj (source.members ++ [("export_time", .str (String.ofList now.isoformat))])

/-! ### Values -/

def object (value : Json) (label : String) : Except PdfError Json := do
  require value.isDict (.renderFailure (label ++ "结构无效"))
  return value

def isDisplayable (c : Char) : Bool := 32 ≤ c.toNat || c ∈ ['\n', '\r', '\t']

/-- `_string`: a text of scalar values is always encoded. -/
def string (value : Json) (label : String) : Except PdfError Json := do
  require value.isString (.renderFailure (label ++ "文字无效"))
  require (value.text.toList.all isDisplayable) (.renderFailure (label ++ "文字包含不可显示字符"))
  return value

def strings (value : Json) (label : String) : Except PdfError Json := do
  require value.isList (.renderFailure (label ++ "列表无效"))
  let items ← value.items.mapM fun item => string item label
  return .arr items

/-- `re.fullmatch(r"-?\d+(?:\.\d+)?", text)`. -/
def matchesDecimal (digit : Char → Bool) (text : List Char) : Bool :=
  let unsigned := if text.head? = some '-' then text.drop 1 else text
  let rest := unsigned.dropWhile digit
  unsigned.takeWhile digit ≠ [] &&
    (rest.isEmpty || rest.head? = some '.' && rest.drop 1 ≠ [] && (rest.drop 1).all digit)

-- `digit` are the digits of `\d`
def decimal (digit : Char → Bool) (value : Json) (label : String) : Except PdfError Json := do
  let result ← string value label
  require (matchesDecimal digit result.text.toList) (.renderFailure (label ++ "数值无效"))
  return result

/-- The texts among the fields of an object. -/
def texts (value : Json) (keys : List String) (label : String → String) :
    Except PdfError (List (String × Json)) :=
  (keys.filter fun key => (value.field key).isString).mapM fun key => do
    let text ← string (value.field key) (label key)
    return (key, text)

/-! ### Metadata -/

section Metadata

-- `json.dumps(value, ensure_ascii=False, allow_nan=False)`, `none` for a `ValueError`
variable (dumps : Json → Option String)

def safeColumn (item : Json) : Except PdfError Json := do
  let column ← object item "任务列口径"
  let safe ← texts column ["name", "semantic_name", "definition", "role"] fun key => "任务列 " ++ key
  let index := column.field "index"
  let safe := if index.isInt && 0 ≤ number index && number index < 100000 then
    safe ++ [("index", index)] else safe
  let unit := column.field "unit"
  if unit.isDict && (unit.field "label").isString then
    let label ← string (unit.field "label") "任务列单位"
    return .obj (safe ++ [("unit", .obj [("label", label)])])
  else return .obj safe

def safeValue (value : Json) : Except PdfError Json :=
  if value.isString then string value "任务范围值"
  else match dumps value with
    | some text => .ok (.str text)
    | none => .error .valueError

def safeEntry (item : Json) : Except PdfError Json := do
  let entry ← object item "任务范围项目"
  let clean ← texts entry ["label", "operator", "kind", "semantic_name"] fun _ => "任务范围项目"
  let values := entry.field "values"
  if values.isList then
    let items ← values.items.mapM (safeValue dumps)
    return .obj (clean ++ [("values", .arr items)])
  else return .obj clean

/-- The loop body over `filters` and `grouping`. -/
def safeEntries (scope : Json) (key : String) : Except PdfError (String × Json) := do
  let values := (scope.get? key).getD (.arr [])
  require values.isList (.renderFailure "任务范围列表无效")
  let items ← values.items.mapM (safeEntry dumps)
  return (key, .arr items)

def safePeriod (period : Json) : Except PdfError (List (String × Json)) :=
  if period.isDict then do
    let safe ← texts period ["start", "end_exclusive", "time_basis"] fun _ => "任务时间范围"
    return [("time", .obj safe)]
  else .ok []

def safeScope (metadata : Json) : Except PdfError Json := do
  let scope ← object ((metadata.get? "scope").getD (.obj [])) "任务范围"
  let safe ← texts scope ["status", "time_status"] fun _ => "任务范围"
  let time ← safePeriod (scope.field "time")
  let entries ← ["filters", "grouping"].mapM (safeEntries dumps scope)
  let warnings := (scope.get? "warnings").getD (.arr [])
  require warnings.isList (.renderFailure "任务范围提示无效")
  let items ← (warnings.items.filter Json.isString).mapM fun item => string item "任务范围提示"
  return .obj (safe ++ time ++ entries ++ [("warnings", .arr items)])

def safeMetadata (value : Json) : Except PdfError Json :=
  if value.isNull then .ok .null
  else do
    let metadata ← object value "任务口径"
    let columns := (metadata.get? "columns").getD (.arr [])
    require columns.isList (.renderFailure "任务列口径无效")
    let safeColumns ← columns.items.mapM safeColumn
    let scope ← safeScope dumps metadata
    return .obj [("columns", .arr safeColumns), ("scope", scope)]

end Metadata

/-! ### Attribution -/

section Attribution

-- a digit of `\d`
variable (digit : Char → Bool)

def safeFactor (item : Json) : Except PdfError Json := do
  let factor ← object item "因素归因"
  let name ← string (factor.field "name") "因素名称"
  let amount ← decimal digit (factor.field "amount") "因素贡献"
  let effect ← string (factor.field "effect_on_metric") "因素贡献方向"
  return .obj [("name", name), ("amount", amount), ("effect_on_metric", effect)]

def safeProduct (item : Json) : Except PdfError Json := do
  let product ← object item "产品归因"
  let factors := product.field "factors"
  require factors.isList (.renderFailure "因素归因列表无效")
  let name ← string (product.field "product_name") "产品名称"
  let change ← decimal digit (product.field "change") "产品贡献"
  let classification ← string (product.field "classification") "产品分类"
  let effect ← string (product.field "effect_on_metric") "产品贡献方向"
  let clean ← factors.items.mapM (safeFactor digit)
  return .obj [("product_name", name), ("change", change), ("classification", classification),
    ("effect_on_metric", effect), ("factors", .arr clean)]

/-- A field with the check of its value. -/
def checkedField (check : Json → String → Except PdfError Json) (value : Json)
    (label key : String) : Except PdfError (String × Json) := do
  let clean ← check (value.field key) label
  return (key, clean)

def safeAttribution (value : Json) : Except PdfError Json := do
  let attribution ← object value "分析归因"
  require (isTrue (attribution.field "reconciliation_passed"))
    (.renderFailure "分析归因未通过对账")
  let products := attribution.field "products"
  require products.isList (.renderFailure "产品归因列表无效")
  let cleanProducts ← products.items.mapM (safeProduct digit)
  let omitted := attribution.field "omitted_product_count"
  require (omitted.isInt && 0 ≤ number omitted) (.renderFailure "未返回产品数量无效")
  let names ← ["metric_name", "comparison_period", "current_period", "direction"].mapM
    (checkedField string attribution "归因说明")
  let amounts ← ["comparison_value", "current_value", "total_change"].mapM
    (checkedField (decimal digit) attribution "归因指标值")
  return .obj (names ++ amounts ++
    [("omitted_product_count", omitted), ("products", .arr cleanProducts)])

/-! ### The document -/

def safeIncomplete (item : Json) : Except PdfError Json := do
  let entry ← object item "证据限制"
  let taskId ← string (entry.field "task_id") "证据限制任务"
  let reasons ← strings (entry.field "reasons") "证据限制原因"
  return .obj [("task_id", taskId), ("reasons", reasons)]

/-- The fields of the clean report for an attribution. -/
def safeReportAttribution (report : Json) : Except PdfError (List (String × Json)) :=
  if (report.field "attribution").isNull then .ok []
  else do
    let attribution ← safeAttribution digit (report.field "attribution")
    return [("attribution", attribution)]

def safeReport (report : Json) : Except PdfError Json := do
  let headings ← ["title", "executive_summary", "trend_judgment"].mapM
    (checkedField string report "分析报告")
  let lists ← ["key_findings", "root_causes", "action_suggestions", "evidence_task_ids"].mapM
    (checkedField strings report "分析报告")
  let incomplete := report.field "incomplete_tasks"
  require incomplete.isList (.renderFailure "证据限制列表无效")
  let clean ← incomplete.items.mapM safeIncomplete
  let attribution ← safeReportAttribution digit report
  return .obj (headings ++ lists ++ [("incomplete_tasks", .arr clean)] ++ attribution)

/-- The loop body over the rows of a task. -/
def checkRow (columns : ℕ) (row : Json) : Except PdfError Unit := do
  require (row.isList && row.items.length = columns) (.renderFailure "查询任务行列数不一致")
  require (row.items.all fun cell => !(cell.isList || cell.isDict))
    (.renderFailure "查询任务单元格类型无效")
  require (row.items.all Json.isScalar) (.renderFailure "查询任务包含非有限数值")

def safeError (error : Json) : Except PdfError Json :=
  if error.isNull then .ok .null
  else do
    let error ← object error "查询任务错误"
    string (error.field "message") "查询任务错误"

variable (dumps : Json → Option String)

/-- The tasks that are copied, their identities and the number of their cells. -/
structure Collected where
  tasks : List Json := []
  taskIds : List String := []
  cells : ℕ := 0

def maxPdfTableCells : ℕ := 100000

/-- The loop body over the tasks. -/
def collectTask (collected : Collected) (value : Json) : Except PdfError Collected := do
  let task ← object value "查询任务"
  let taskId ← string (task.field "task_id") "查询任务编号"
  let status := task.field "status"
  -- Membership in a set needs a hash.
  require (!(status.isList || status.isDict)) .typeError
  require (isOneOf ["completed", "failed", "skipped"] status && taskId.text ∉ collected.taskIds)
    (.renderFailure "查询任务身份或状态无效")
  let columns ← strings (task.field "columns") "查询任务列"
  let rows := task.field "rows"
  require (rows.isList && rows.items.length ≤ 100) (.renderFailure "查询任务数据超过已保存范围")
  rows.items.forM (checkRow columns.items.length)
  let rowCount := task.field "row_count"
  let truncated := task.field "truncated"
  require (rowCount.isInt && (rows.items.length : Int) ≤ number rowCount && truncated.isBool &&
      (number rowCount ≤ rows.items.length || isTrue truncated))
    (.renderFailure "查询任务返回范围无效")
  let cells := collected.cells + rows.items.length * columns.items.length
  require (cells ≤ maxPdfTableCells) (.renderFailure "完整证据表格超过 PDF 渲染范围")
  let error ← safeError (task.field "error")
  let metadata ← safeMetadata dumps (task.field "result_metadata")
  return {
    tasks := collected.tasks ++ [.obj [("task_id", taskId), ("status", status),
      ("columns", columns), ("rows", .arr rows.items), ("row_count", rowCount),
      ("truncated", truncated), ("error", error), ("result_metadata", metadata)]]
    taskIds := collected.taskIds ++ [taskId.text]
    cells }

/-- A text of the source, or what is shown in its place. -/
def textOr (source : Json) (key label : String) (missing : Json) : Except PdfError Json :=
  if (source.field key).isString then string (source.field key) label else .ok missing

/-- `_safe_document`. -/
def safeDocument (document : Json) : Except PdfError Json := do
  let source ← object document "导出来源"
  require (isOneOf ["analysis"] (source.field "kind"))
    (.renderFailure "PDF 仅支持经营分析成功快照")
  let result ← object (source.field "result") "分析结果"
  let rawReport ← object (result.field "report") "分析报告"
  let report ← safeReport digit rawReport
  let rawTasks := result.field "task_results"
  require rawTasks.isList (.renderFailure "查询证据列表无效")
  let collected ← rawTasks.items.foldlM (collectTask dumps) {}
  require (collected.tasks.map fun task => (task.field "task_id").text).Nodup
    (.renderFailure "查询任务编号重复")
  require ((report.field "evidence_task_ids").items.all fun id => id.text ∈ collected.taskIds)
    (.renderFailure "报告引用了未保存的查询任务")
  let question ← textOr source "question" "原分析问题" (.str "原分析问题未保存")
  let resultTime ← textOr source "result_time" "报告完成时间" (.str "原报告完成时间未保存")
  let savedTime ← textOr source "saved_time" "成果保存时间" .null
  let exportTime ← string (source.field "export_time") "导出时间"
  return .obj [("kind", .str "analysis"), ("question", question), ("result_time", resultTime),
    ("saved_time", savedTime), ("export_time", exportTime),
    ("result", .obj [("report", report), ("task_results", .arr collected.tasks)])]

end Attribution

end ChatBI.Export.Pdf
