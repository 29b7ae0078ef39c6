import ChatBI.Lib.Check
import ChatBI.Lib.JsonShape
import ChatBI.Lib.Text
import ChatBI.Store.Rows

/-!
# The history codec

The checks of `public_snapshot` on stored JSON. Reading a decimal number from a text is a parameter.
-/

namespace ChatBI.Snapshot

open ChatBI.Lib ChatBI.Store

/-- `_invalid_snapshot`. -/
def invalidSnapshot (message : String) : HistoryError :=
  { code := .historySnapshotUnavailable, message }

def hasExactFields (value : Json) (required optional : List String) : Bool :=
  value.isDict && required.all (fun k => k ∈ value.members.map Prod.fst) &&
    (value.members.map Prod.fst).all fun k => k ∈ required ++ optional

def isNonemptyString (value : Json) : Bool := value.isString && strip value.text ≠ ""

def optionalString (value : Json) : Bool := value.isNull || value.isString

def isStringList (value : Json) : Bool := value.isList && value.items.all Json.isString

/-- `isinstance(value, str)` and `value in names`. -/
def isOneOf (names : List String) (value : Json) : Bool := value.isString && value.text ∈ names

/-- The value of an integer. -/
def number : Json → Int
  | .int n => n
  | _ => 0

/-- `value is True`. -/
def isTrue : Json → Bool
  | .bool b => b
  | _ => false

/-- The truth of `not value` for a truth value. -/
def isFalse : Json → Bool
  | .bool b => !b
  | _ => false

def validRows (value : Json) (columns maximum : ℕ) : Bool :=
  value.isList && value.items.length ≤ maximum && value.items.all fun row =>
    row.isList && row.items.length = columns && row.items.all Json.isScalar

/-! ### Result metadata -/

def metadataFields : List String := ["version", "status", "columns", "scope", "time_axis"]

def metadataColumnFields : List String :=
  ["index", "name", "data_type", "role", "semantic_name", "definition", "unit", "format",
    "certified", "reason_code"]

def scopeFields : List String :=
  ["status", "time", "time_status", "filters", "grouping", "warnings"]

def statuses : List String := ["complete", "partial", "unavailable"]

/-- The loop body over the columns of a result. -/
def validateMetadataColumn (knownVersion : Bool) (column : Json) (index : ℕ) (resultName : String) :
    Except HistoryError Unit := do
  require (hasExactFields column metadataColumnFields []) (invalidSnapshot "结果说明列结构非法")
  let unit := column.field "unit"
  require (unit.isNull || hasExactFields unit ["key", "label"] [] &&
      (unit.field "key").isString && (unit.field "label").isString)
    (invalidSnapshot "结果说明单位非法")
  require ((column.field "index").isInt && number (column.field "index") = index &&
      (column.field "name").isString && (column.field "name").text = resultName &&
      (column.field "data_type").isString && (column.field "role").isString &&
      optionalString (column.field "semantic_name") && optionalString (column.field "definition") &&
      (column.field "format").isString && (column.field "certified").isBool &&
      optionalString (column.field "reason_code"))
    (invalidSnapshot "结果说明列字段非法")
  require (!knownVersion ||
      isOneOf ["number", "string", "boolean", "date", "unknown"] (column.field "data_type") &&
      isOneOf ["metric", "dimension", "identifier", "unknown"] (column.field "role") &&
      isOneOf ["money", "count", "ratio", "number", "raw"] (column.field "format"))
    (invalidSnapshot "结果说明列枚举值非法")

/-- The loop body over the filters of a scope. -/
def validateScopeFilter (knownVersion : Bool) (item : Json) : Except HistoryError Unit := do
  require (hasExactFields item ["label", "operator", "values"] [] && (item.field "label").isString &&
      (item.field "operator").isString && isStringList (item.field "values") &&
      !(item.field "values").items.isEmpty)
    (invalidSnapshot "结果说明筛选结构非法")
  require (!knownVersion || isOneOf ["=", ">", ">=", "<", "<=", "IN"] (item.field "operator"))
    (invalidSnapshot "结果说明筛选操作符非法")

/-- The loop body over the groupings of a scope. -/
def validateScopeGrouping (knownVersion : Bool) (columns : ℕ) (item : Json) :
    Except HistoryError Unit := do
  let indices := item.field "column_indices"
  require (hasExactFields item ["semantic_name", "kind", "column_indices"] [] &&
      (item.field "semantic_name").isString && (item.field "kind").isString && indices.isList &&
      !indices.items.isEmpty &&
      indices.items.all (fun i => i.isInt && 0 ≤ number i && number i < columns) &&
      (indices.items.map number).Nodup)
    (invalidSnapshot "结果说明分组结构非法")
  require (!knownVersion || isOneOf ["time", "category"] (item.field "kind"))
    (invalidSnapshot "结果说明分组类型非法")

def validateScope (knownVersion : Bool) (columns : ℕ) (scope : Json) : Except HistoryError Unit := do
  require (hasExactFields scope scopeFields []) (invalidSnapshot "结果说明范围结构非法")
  require ((scope.field "status").isString && (scope.field "time_status").isString &&
      (scope.field "filters").isList && (scope.field "grouping").isList &&
      isStringList (scope.field "warnings"))
    (invalidSnapshot "结果说明范围字段非法")
  require (!knownVersion || isOneOf statuses (scope.field "status") &&
      isOneOf ["confirmed", "unbounded", "unknown"] (scope.field "time_status"))
    (invalidSnapshot "结果说明范围枚举值非法")
  let time := scope.field "time"
  require (time.isNull || hasExactFields time ["start", "end_exclusive", "time_basis"] [] &&
      ["start", "end_exclusive", "time_basis"].all fun key => (time.field key).isString)
    (invalidSnapshot "结果说明时间范围非法")
  (scope.field "filters").items.forM (validateScopeFilter knownVersion)
  (scope.field "grouping").items.forM (validateScopeGrouping knownVersion columns)

def validateResultMetadata (value : Json) (resultColumns : List String) (rowCount : ℕ) :
    Except HistoryError Unit := do
  require (hasExactFields value metadataFields [] && (value.field "version").isInt &&
      (value.field "status").isString && (value.field "columns").isList &&
      (value.field "columns").items.length = resultColumns.length)
    (invalidSnapshot "结果说明结构非法")
  let knownVersion : Bool := number (value.field "version") = 1
  require (!knownVersion || isOneOf statuses (value.field "status"))
    (invalidSnapshot "结果说明状态非法")
  ((value.field "columns").items.zip resultColumns).zipIdx.forM fun column =>
    validateMetadataColumn knownVersion column.1.1 column.2 column.1.2
  validateScope knownVersion resultColumns.length (value.field "scope")
  let axis := value.field "time_axis"
  require (axis.isNull || hasExactFields axis ["granularity", "keys"] [] &&
      (axis.field "granularity").isString && isStringList (axis.field "keys") &&
      (axis.field "keys").items.length = rowCount)
    (invalidSnapshot "结果说明时间轴非法")
  require (!knownVersion || axis.isNull ||
      isOneOf ["day", "week", "month", "quarter", "year"] (axis.field "granularity"))
    (invalidSnapshot "结果说明时间粒度非法")

/-- The check of the optional `result_metadata` of a table. -/
def validateOptionalMetadata (table : Json) : Except HistoryError Unit :=
  match table.get? "result_metadata" with
  | some value =>
    validateResultMetadata value ((table.field "columns").items.map Json.text)
      (table.field "rows").items.length
  | none => .ok ()

/-! ### Attribution -/

section Decimals

-- whether `Decimal(text)` is a finite number
variable (isDecimal : String → Bool)

def isDecimalText (value : Json) : Bool := value.isString && value.text ≠ "" && isDecimal value.text

def metricEffects : List String :=
  ["increases_target_metric", "decreases_target_metric", "no_change_to_target_metric"]

/-- The loop body over the factors of a product. -/
def validateFactor (factor : Json) : Except HistoryError Unit :=
  require (hasExactFields factor ["name", "amount", "effect_on_metric"] [] &&
      (factor.field "name").isString && isDecimalText isDecimal (factor.field "amount") &&
      isOneOf metricEffects (factor.field "effect_on_metric"))
    (invalidSnapshot "因素归因结构非法")

def productFields : List String :=
  ["product_name", "change", "effect_on_metric", "classification", "factors"]

/-- The loop body over the products of an attribution. -/
def validateProduct (product : Json) : Except HistoryError Unit := do
  require (hasExactFields product productFields []) (invalidSnapshot "产品归因结构非法")
  require ((product.field "product_name").isString && isDecimalText isDecimal (product.field "change") &&
      isOneOf metricEffects (product.field "effect_on_metric") &&
      isOneOf ["continuing", "new_product", "exited_product", "new", "discontinued"]
        (product.field "classification") &&
      (product.field "factors").isList)
    (invalidSnapshot "产品归因字段非法")
  (product.field "factors").items.forM (validateFactor isDecimal)

def attributionFields : List String :=
  ["metric_name", "comparison_period", "current_period", "comparison_value", "current_value",
    "total_change", "direction", "products", "omitted_product_count", "reconciliation_passed"]

def validateAttribution (value : Json) : Except HistoryError Unit := do
  require (hasExactFields value attributionFields []) (invalidSnapshot "分析归因结构非法")
  require (isOneOf ["人民币毛利", "人民币净销售额"] (value.field "metric_name") &&
      isNonemptyString (value.field "comparison_period") &&
      isNonemptyString (value.field "current_period") &&
      ["comparison_value", "current_value", "total_change"].all
        (fun key => isDecimalText isDecimal (value.field key)) &&
      isOneOf ["increase", "decrease", "unchanged"] (value.field "direction") &&
      (value.field "omitted_product_count").isInt &&
      0 ≤ number (value.field "omitted_product_count") &&
      isTrue (value.field "reconciliation_passed") && (value.field "products").isList)
    (invalidSnapshot "分析归因字段非法")
  (value.field "products").items.forM (validateProduct isDecimal)

/-! ### Results -/

def taskFields : List String :=
  ["task_id", "status", "columns", "rows", "row_count", "truncated", "error"]

def validateAnalysisTask (task : Json) : Except HistoryError Unit := do
  require (hasExactFields task taskFields ["result_metadata"]) (invalidSnapshot "分析任务结构非法")
  let columns := task.field "columns"
  let rows := task.field "rows"
  let rowCount := task.field "row_count"
  let truncated := task.field "truncated"
  require (isNonemptyString (task.field "task_id") &&
      isOneOf ["completed", "failed", "skipped"] (task.field "status") && isStringList columns &&
      validRows rows columns.items.length 100 && rowCount.isInt &&
      (rows.items.length : Int) ≤ number rowCount && truncated.isBool &&
      (isTrue truncated || number rowCount = rows.items.length))
    (invalidSnapshot "分析任务结果非法")
  let error := task.field "error"
  require (error.isNull || hasExactFields error ["code", "message"] [] &&
      isNonemptyString (error.field "code") && (error.field "message").isString)
    (invalidSnapshot "分析任务错误结构非法")
  validateOptionalMetadata task

/-- The identities of the tasks of a result, and of the completed ones. -/
structure TaskIds where
  all : List String := []
  completed : List String := []

/-- The loop body over the tasks of a result. -/
def addTask (ids : TaskIds) (task : Json) : Except HistoryError TaskIds := do
  validateAnalysisTask task
  let taskId := (task.field "task_id").text
  require (taskId ∉ ids.all) (invalidSnapshot "分析任务身份重复")
  return {
    all := ids.all ++ [taskId]
    completed :=
      if (task.field "status").text = "completed" then ids.completed ++ [taskId] else ids.completed }

def reportFields : List String :=
  ["title", "executive_summary", "key_findings", "trend_judgment", "root_causes",
    "action_suggestions", "evidence_task_ids", "incomplete_tasks"]

/-- The loop body over the incomplete tasks of a report. -/
def addIncomplete (taskIds : List String) (incompleteIds : List String) (item : Json) :
    Except HistoryError (List String) := do
  require (hasExactFields item ["task_id", "reasons"] [] && isNonemptyString (item.field "task_id") &&
      (item.field "task_id").text ∈ taskIds && (item.field "task_id").text ∉ incompleteIds &&
      isStringList (item.field "reasons") && !(item.field "reasons").items.isEmpty &&
      (item.field "reasons").items.all (isOneOf ["failed", "skipped", "empty_result", "truncated"]))
    (invalidSnapshot "分析报告不完整任务非法")
  return incompleteIds ++ [(item.field "task_id").text]

def validateAnalysisReport (report : Json) (ids : TaskIds) : Except HistoryError Unit := do
  require (hasExactFields report reportFields ["attribution"]) (invalidSnapshot "分析报告结构非法")
  require (["title", "executive_summary", "trend_judgment"].all
        (fun key => isNonemptyString (report.field key)) &&
      ["key_findings", "root_causes", "action_suggestions", "evidence_task_ids"].all
        fun key => isStringList (report.field key))
    (invalidSnapshot "分析报告字段非法")
  let evidenceIds := (report.field "evidence_task_ids").items.map Json.text
  require (evidenceIds.Nodup ∧ ∀ taskId ∈ evidenceIds, taskId ∈ ids.completed)
    (invalidSnapshot "分析报告证据引用非法")
  require (report.field "incomplete_tasks").isList (invalidSnapshot "分析报告不完整任务非法")
  let _ ← (report.field "incomplete_tasks").items.foldlM (addIncomplete ids.all) []
  match report.get? "attribution" with
  | some attribution => validateAttribution isDecimal attribution
  | none => .ok ()

def queryFields : List String := ["request_id", "sql", "columns", "rows", "row_count", "truncated"]

def analysisFields : List String :=
  ["request_id", "analysis_run_id", "mode", "report", "task_results"]

/-- The first branch of `_validate_public_result`. -/
def validateQueryResult (result : Json) : Except HistoryError Unit := do
  require (hasExactFields result queryFields ["result_metadata"]) (invalidSnapshot "结果快照不可用")
  let columns := result.field "columns"
  let rows := result.field "rows"
  require (isStringList columns && validRows rows columns.items.length 100 &&
      (result.field "row_count").isInt && number (result.field "row_count") = rows.items.length &&
      (result.field "truncated").isBool && (result.field "sql").isString &&
      (result.field "request_id").isString)
    (invalidSnapshot "快照表格内容非法")
  validateOptionalMetadata result

def validatePublicResult (kind : String) (result : Json) : Except HistoryError Unit :=
  if kind = "query" then validateQueryResult result
  else do
    require (hasExactFields result analysisFields [] && isNonemptyString (result.field "request_id") &&
        isNonemptyString (result.field "analysis_run_id") &&
        isOneOf ["analysis"] (result.field "mode") && (result.field "task_results").isList)
      (invalidSnapshot "分析快照公开字段非法")
    let ids ← (result.field "task_results").items.foldlM addTask {}
    validateAnalysisReport isDecimal (result.field "report") ids

/-- The fields of an envelope of the kind. -/
def hasEnvelopeFields (kind : String) (envelope : Json) : Bool :=
  if kind = "query" then
    hasExactFields envelope ["version", "kind", "result", "query_state"] [] ||
      hasExactFields envelope ["version", "kind", "result", "query_state", "source_question"] []
  else hasExactFields envelope ["version", "kind", "result", "original_question"] []

/-- The checks of where the result of an envelope is from. -/
def validateSource (kind : String) (envelope : Json) : Except HistoryError Unit :=
  if kind = "query" then do
    require (envelope.field "query_state").isDict (invalidSnapshot "查询恢复状态非法")
    match envelope.get? "source_question" with
    | some question => require (isNonemptyString question) (invalidSnapshot "查询来源问题非法")
    | none => .ok ()
  else require (isNonemptyString (envelope.field "original_question"))
    (invalidSnapshot "分析来源问题非法")

def publicSnapshot (envelope : Json) : Except HistoryError Json := do
  let kind := envelope.field "kind"
  require (envelope.isDict && (envelope.field "version").isInt &&
      number (envelope.field "version") = 1 && isOneOf ["query", "analysis"] kind &&
      (envelope.field "result").isDict)
    (invalidSnapshot "结果快照版本或内容不可用")
  require (hasEnvelopeFields kind.text envelope) (invalidSnapshot "快照来源字段非法")
  validateSource kind.text envelope
  validatePublicResult isDecimal kind.text (envelope.field "result")
  return envelope.field "result"

end Decimals

end ChatBI.Snapshot
