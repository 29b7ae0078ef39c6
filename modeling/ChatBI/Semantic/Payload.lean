import ChatBI.Lib.Dict
import ChatBI.Lib.JsonShape
import ChatBI.Semantic.Dates
import ChatBI.Semantic.NumericLiterals
import Mathlib.Data.List.Sort
import Mathlib.Data.String.Basic

/-!
# Queries from JSON

`candidate_from_payload` and `conditions_from_payload`: the structured query and the conditions that
a JSON object stands for. The decimal digits of other scripts are a parameter.
-/

namespace ChatBI.Semantic

open ChatBI.Lib

/-- The value of a member of the enumeration. -/
def QueryType.value : QueryType → String
  | entityLookup => "entity_lookup"
  | metricAnalysis => "metric_analysis"
  | unknown => "unknown"

def FilterOperator.value : FilterOperator → String
  | equals => "equals"
  | .in => "in"
  | gt => "gt"
  | gte => "gte"
  | lt => "lt"
  | lte => "lte"

def queryTypes : Dict String QueryType :=
  [QueryType.entityLookup, .metricAnalysis, .unknown].map fun t => (t.value, t)

def timeGranularities : Dict String TimeGranularity :=
  [TimeGranularity.day, .week, .month, .quarter, .year].map fun g => (granularityValue g, g)

def filterOperators : Dict String FilterOperator :=
  [FilterOperator.equals, .in, .gt, .gte, .lt, .lte].map fun o => (o.value, o)

/-! ### Conditions -/

/-- An object with exactly the keys. -/
def hasKeys (value : Json) (keys : List String) : Bool :=
  value.isDict && keys.all (fun k => k ∈ value.members.map Prod.fst) &&
    (value.members.map Prod.fst).all fun k => k ∈ keys

def conditionObject (value : Json) (keys : List String) : Except RestorationConditionError Unit :=
  require (hasKeys value keys) ⟨"恢复条件字段不完整或包含未知字段"⟩

def maxConditionItems : ℕ := 100

def conditionArray (value : Json) : Except RestorationConditionError (List Json) := do
  require (value.isList ∧ value.items.length ≤ maxConditionItems) ⟨"恢复条件必须为有界数组"⟩
  return value.items

def conditionText (value : Json) : Except RestorationConditionError String :=
  if value.isString then boundedText value.text else .error ⟨"业务身份必须为有效文本"⟩

def conditionChoice (value : Json) (choices : List String) :
    Except RestorationConditionError String := do
  require (value.isString ∧ value.text ∈ choices) ⟨"恢复条件枚举非法"⟩
  return value.text

def targetKinds : List String := ["metric", "dimension", "entity_field", "time"]

def directions : List String := ["asc", "desc"]

def nullPlacements : List String := ["first", "last"]

/-- The loop body over the orders. -/
def orderFromPayload (item : Json) : Except RestorationConditionError BusinessOrder := do
  conditionObject item ["target_kind", "target", "direction", "nulls"]
  let targetKind ← conditionChoice (item.field "target_kind") targetKinds
  let target ← conditionText (item.field "target")
  let direction ← conditionChoice (item.field "direction") directions
  let nulls ← conditionChoice (item.field "nulls") nullPlacements
  return { targetKind, target, direction, nulls }

def BusinessOrder.identity (item : BusinessOrder) : String × String := (item.targetKind, item.target)

def aggregateOperators : List String := ["equals", "in", "gt", "gte", "lt", "lte"]

/-- `2**63 - 1`. -/
def maxRowLimit : Int := 9223372036854775807

/-- The check of `row_limit`. -/
def limitFromPayload (value : Json) : Except RestorationConditionError (Option Int) :=
  match value with
  | .null => .ok none
  | .int n => do
    require (1 ≤ n ∧ n ≤ maxRowLimit) ⟨"业务数量必须为正整数"⟩
    return some n
  | _ => .error ⟨"业务数量必须为正整数"⟩

/-- The check of `selection`. -/
def selectionFromPayload (value : Json) :
    Except RestorationConditionError (Option EntitySelection) :=
  if value.isNull then .ok none
  else do
    conditionObject value ["fields", "distinct"]
    let fields ← (← conditionArray (value.field "fields")).mapM conditionText
    require (fields ≠ [] ∧ fields.Nodup ∧ (value.field "distinct").isBool) ⟨"实体选择非法"⟩
    return some { fields, distinct := value.field "distinct" matches .bool true }

section Decimals

variable (digit : Char → Option Nat)

def conditionDecimal (value : Json) : Except RestorationConditionError String :=
  if value.isString then NumericText.text <$> decimal digit value.text
  else .error ⟨"业务身份必须为有效文本"⟩

/-- The loop body over the filters on aggregates. -/
def aggregateFromPayload (item : Json) : Except RestorationConditionError AggregateFilter := do
  conditionObject item ["metric", "operator", "values"]
  let operator ← conditionChoice (item.field "operator") aggregateOperators
  let values ← (← conditionArray (item.field "values")).mapM (conditionDecimal digit)
  require (values ≠ [] ∧ (operator = "in" ∨ values.length = 1)) ⟨"聚合筛选值数量非法"⟩
  let metric ← conditionText (item.field "metric")
  return { metric, operator, values }

def conditionsFromPayload (payload : Json) :
    Except RestorationConditionError RestorationConditions := do
  conditionObject payload ["order_by", "row_limit", "aggregate_filters", "selection"]
  let rowLimit ← limitFromPayload (payload.field "row_limit")
  let orderBy ← (← conditionArray (payload.field "order_by")).mapM orderFromPayload
  require (orderBy.map BusinessOrder.identity).Nodup ⟨"排序对象不能重复"⟩
  let aggregateFilters ←
    (← conditionArray (payload.field "aggregate_filters")).mapM (aggregateFromPayload digit)
  require (aggregateFilters.map AggregateFilter.metric).Nodup ⟨"聚合筛选指标不能重复"⟩
  let selection ← selectionFromPayload (payload.field "selection")
  return { orderBy, rowLimit, aggregateFilters, selection }

end Decimals

/-! ### Candidates -/

def invalidStructure (message reason : String) : SemanticQueryValidationError :=
  .structureError message reason

/-- The names of missing or of further fields, in order. -/
def listed (names : List String) : String := "、".intercalate (names.insertionSort (· ≤ ·))

/-- The missing fields are complained about before the further ones. -/
def checkFields (value : Json) (required : List String)
    (missing extra : List String → SemanticQueryValidationError) :
    Except SemanticQueryValidationError Unit := do
  let fields := value.members.map Prod.fst
  require (required.filter (· ∉ fields) = []) (missing (required.filter (· ∉ fields)))
  require (fields.filter (· ∉ required) = []) (extra (fields.filter (· ∉ required)))

def requiredText (value : Json) (field : String) : Except SemanticQueryValidationError String := do
  require (value.isString ∧ strip value.text ≠ "")
    (invalidStructure s!"{field} 必须是非空字符串" "TEXT_INVALID")
  return strip value.text

def stringList (value : Json) (field : String) :
    Except SemanticQueryValidationError (List String) := do
  require value.isList (invalidStructure s!"{field} 必须是字符串数组" "STRING_LIST_INVALID")
  value.items.mapM (requiredText · field)

def enumValue {α : Type} (members : Dict String α) (value : Json) (field : String) :
    Except SemanticQueryValidationError α := do
  require value.isString (invalidStructure s!"{field} 必须是字符串" "ENUM_TYPE_INVALID")
  match Dict.get? members value.text with
  | some member => .ok member
  | none => .error (invalidStructure s!"{field} 的值不在允许范围内" "ENUM_VALUE_INVALID")

def timeFields : List String := ["text", "granularity"]

def timeCandidate (value : Json) : Except SemanticQueryValidationError (Option TimeCandidate) :=
  if value.isNull then .ok none
  else do
    require value.isDict (invalidStructure "time 必须是对象或 null" "TIME_TYPE_INVALID")
    checkFields value timeFields
      (fun _ => invalidStructure "time 缺少必要字段" "TIME_FIELD_MISSING")
      (fun _ => invalidStructure "time 包含未允许字段" "TIME_FIELD_EXTRA")
    let text ← requiredText (value.field "text") "time.text"
    let granularity ← enumValue timeGranularities (value.field "granularity") "time.granularity"
    return some { text, granularity }

def filterFields : List String := ["field_text", "operator", "values"]

/-- The loop body over the filters; they are counted from one. -/
def filterCandidate (item : Json) (index : ℕ) :
    Except SemanticQueryValidationError FilterCandidate := do
  require item.isDict (invalidStructure s!"第 {index} 个 filter 必须是对象" "FILTER_TYPE_INVALID")
  checkFields item filterFields
    (fun _ => invalidStructure s!"第 {index} 个 filter 缺少必要字段" "FILTER_FIELD_MISSING")
    (fun _ => invalidStructure s!"第 {index} 个 filter 包含未允许字段" "FILTER_FIELD_EXTRA")
  let fieldText ← requiredText (item.field "field_text") "filter.field_text"
  let operator ← enumValue filterOperators (item.field "operator") "filter.operator"
  let values ← stringList (item.field "values") "filter.values"
  require (values ≠ [])
    (invalidStructure s!"第 {index} 个 filter 的 values 不能为空" "FILTER_VALUES_EMPTY")
  require (operator = .in ∨ values.length = 1)
    (invalidStructure s!"操作符 {operator.value} 必须恰好包含一个值"
      "FILTER_VALUE_CARDINALITY_INVALID")
  return { fieldText, operator, values }

def filterCandidates (value : Json) : Except SemanticQueryValidationError (List FilterCandidate) := do
  require value.isList (invalidStructure "filters 必须是数组" "FILTERS_TYPE_INVALID")
  value.items.zipIdx.mapM fun item => filterCandidate item.1 (item.2 + 1)

def candidateFields : List String :=
  ["query_type", "subjects", "metrics", "dimensions", "time", "filters"]

variable (digit : Char → Option Nat)

/-- The conditions of a candidate that can be restored. -/
def restorableConditions (payload : Json) :
    Except SemanticQueryValidationError RestorationConditions :=
  (conditionsFromPayload digit (payload.field "conditions")).mapError fun e =>
    invalidStructure e.message "RESTORATION_CONDITIONS_INVALID"

def candidateFromPayload (payload : Json) (requireRestorable : Bool) :
    Except SemanticQueryValidationError SemanticQueryCandidate := do
  require payload.isDict (invalidStructure "结构化查询必须是 JSON 对象" "CANDIDATE_NOT_OBJECT")
  checkFields payload
    (if requireRestorable then candidateFields ++ ["conditions"] else candidateFields)
    (fun names => invalidStructure s!"结构化查询缺少字段：{listed names}" "CANDIDATE_FIELD_MISSING")
    (fun names => invalidStructure s!"结构化查询包含未允许字段：{listed names}" "CANDIDATE_FIELD_EXTRA")
  let queryType ← enumValue queryTypes (payload.field "query_type") "query_type"
  let subjects ← stringList (payload.field "subjects") "subjects"
  let metrics ← stringList (payload.field "metrics") "metrics"
  let dimensions ← stringList (payload.field "dimensions") "dimensions"
  let time ← timeCandidate (payload.field "time")
  let filters ← filterCandidates (payload.field "filters")
  let restorationConditions ←
    if requireRestorable then some <$> restorableConditions digit payload else .ok none
  return { queryType, subjects, metrics, dimensions, time, filters, restorationConditions }

end ChatBI.Semantic
