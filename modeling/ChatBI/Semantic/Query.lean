import ChatBI.Lib.Check
import ChatBI.Lib.Text

/-!
# Semantic queries

The structured query of `query_understanding`: what a model proposes (a candidate) and what the
deterministic validation makes of it. Resolving a time expression is a parameter.
-/

namespace ChatBI.Semantic

open ChatBI.Lib

inductive QueryType where
  | entityLookup
  | metricAnalysis
  | unknown
  deriving DecidableEq

inductive TimeGranularity where
  | day
  | week
  | month
  | quarter
  | year
  deriving DecidableEq

inductive FilterOperator where
  | equals
  | in
  | gt
  | gte
  | lt
  | lte
  deriving DecidableEq

structure TimeCandidate where
  text : String
  granularity : TimeGranularity
  deriving DecidableEq

structure FilterCandidate where
  fieldText : String
  operator : FilterOperator
  values : List String
  deriving DecidableEq

/-- A point in time with its distance from UTC, `none` for a naive one. -/
structure DateTime where
  wall : Int
  utcoffset : Option Int
  deriving DecidableEq

structure ValidatedTime where
  text : String
  granularity : TimeGranularity
  start : DateTime
  stop : DateTime
  deriving DecidableEq

structure ValidatedFilter where
  fieldText : String
  operator : FilterOperator
  values : List String
  deriving DecidableEq

structure BusinessOrder where
  targetKind : String
  target : String
  direction : String
  nulls : String
  deriving DecidableEq

structure AggregateFilter where
  metric : String
  operator : String
  values : List String
  deriving DecidableEq

structure EntitySelection where
  fields : List String
  distinct : Bool
  deriving DecidableEq

structure RestorationConditions where
  orderBy : List BusinessOrder
  rowLimit : Option Int
  aggregateFilters : List AggregateFilter
  selection : Option EntitySelection
  deriving DecidableEq

structure SemanticQueryCandidate where
  queryType : QueryType
  subjects : List String
  metrics : List String
  dimensions : List String
  time : Option TimeCandidate
  filters : List FilterCandidate
  restorationConditions : Option RestorationConditions := none
  deriving DecidableEq

structure ValidatedSemanticQuery where
  queryType : QueryType
  subjects : List String
  metrics : List String
  dimensions : List String
  time : Option ValidatedTime
  filters : List ValidatedFilter
  originalQuestion : String
  restorationConditions : Option RestorationConditions := none
  deriving DecidableEq

/-- `SemanticQueryStructureError` and `SemanticQueryCannotAnswer`. -/
inductive SemanticQueryValidationError where
  | structureError (message reason : String)
  | cannotAnswer (message reason : String)
  deriving DecidableEq

def maxRequestMetrics : Nat := 5

/-- A text without its whitespace. -/
def compact (s : String) : String := String.ofList (s.toList.filter (fun c => !isSpace c))

/-- A model may put a word for the present into the time slot: it is no time filter. -/
def isCurrentContextTime (candidate : TimeCandidate) : Bool :=
  compact (strip candidate.text) ∈ ["当前", "目前", "现在"]

def ValidatedFilter.ofCandidate (item : FilterCandidate) : ValidatedFilter where
  fieldText := item.fieldText
  operator := item.operator
  values := item.values

section

variable (validateTime : TimeCandidate → Except SemanticQueryValidationError ValidatedTime)

def validatedTime (time : Option TimeCandidate) :
    Except SemanticQueryValidationError (Option ValidatedTime) :=
  match time with
  | none => .ok none
  | some t => if isCurrentContextTime t then .ok none else some <$> validateTime t

/-- The slots that each type of query needs. -/
def checkSlots (candidate : SemanticQueryCandidate) : Except SemanticQueryValidationError Unit :=
  match candidate.queryType with
  | .unknown => .error (.cannotAnswer "无法确定查询类型" "QUERY_TYPE_UNKNOWN")
  | .entityLookup => do
    require (candidate.subjects ≠ []) (.cannotAnswer "实体查询缺少业务主题" "SUBJECT_REQUIRED")
    require (candidate.metrics = [])
      (.cannotAnswer "实体查询不能同时携带指标" "ENTITY_METRICS_CONFLICT")
  | .metricAnalysis =>
    require (candidate.metrics ≠ []) (.cannotAnswer "指标分析查询缺少指标" "METRIC_REQUIRED")

def validateCandidate (candidate : SemanticQueryCandidate) (originalQuestion : String) :
    Except SemanticQueryValidationError ValidatedSemanticQuery := do
  require (strip originalQuestion ≠ "")
    (.structureError "原始查询问题不能为空" "ORIGINAL_QUESTION_INVALID")
  checkSlots candidate
  require (candidate.metrics.length ≤ maxRequestMetrics)
    (.cannotAnswer s!"单次查询最多支持 {maxRequestMetrics} 个指标" "METRIC_LIMIT_EXCEEDED")
  let time ← validatedTime validateTime candidate.time
  return {
    queryType := candidate.queryType
    subjects := candidate.subjects
    metrics := candidate.metrics
    dimensions := candidate.dimensions
    time
    filters := candidate.filters.map ValidatedFilter.ofCandidate
    originalQuestion := strip originalQuestion
    restorationConditions := candidate.restorationConditions }

variable {validateTime} {candidate : SemanticQueryCandidate} {question : String}
  {query : ValidatedSemanticQuery}

/-- What is kept of a candidate that passes. -/
theorem validateCandidate_ok
    (h : validateCandidate validateTime candidate question = .ok query) :
    query = {
      queryType := candidate.queryType
      subjects := candidate.subjects
      metrics := candidate.metrics
      dimensions := candidate.dimensions
      time := query.time
      filters := candidate.filters.map ValidatedFilter.ofCandidate
      originalQuestion := strip question
      restorationConditions := candidate.restorationConditions } := by
  simp only [validateCandidate, except_bind_ok, except_pure_ok] at h
  obtain ⟨_, -, _, -, _, -, time, -, rfl⟩ := h
  rfl

end

end ChatBI.Semantic
