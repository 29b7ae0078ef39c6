import ChatBI.Semantic.Query
import Mathlib.Data.Rat.Defs

/-!
# Business analysis

The requests, plans and task results of `business_analysis`.
-/

namespace ChatBI.Analysis

open ChatBI.Semantic

structure AnalysisTimeRange where
  text : String
  granularity : TimeGranularity
  deriving DecidableEq

/-- What the model extracts from a question. -/
structure AnalysisRequestCandidate where
  metricText : String
  currentPeriod : Option AnalysisTimeRange
  comparisonPeriod : Option AnalysisTimeRange
  deriving DecidableEq

structure AnalysisRequest where
  metricName : String
  currentPeriod : AnalysisTimeRange
  comparisonPeriod : AnalysisTimeRange
  deriving DecidableEq

inductive AnalysisTaskType where
  | baseline
  | trend
  | breakdown
  | comparison
  deriving DecidableEq

structure AnalysisFilter where
  fieldText : String
  operator : FilterOperator
  values : List String
  deriving DecidableEq

structure AnalysisTask where
  taskId : String
  taskType : AnalysisTaskType
  description : String
  metrics : List String
  dimensions : List String
  timeRange : Option AnalysisTimeRange
  filters : List AnalysisFilter
  dependsOn : List String
  expectedOutput : String
  deriving DecidableEq

structure AnalysisPlan where
  tasks : List AnalysisTask
  deriving DecidableEq

/-- A value of a result row. A number is the one that `Decimal(str(value))` gives; `nan` stands for
the numbers that are not finite, `other` for values whose text is no number. -/
inductive Value where
  | none
  | bool (b : Bool)
  | text (s : String)
  | number (q : ℚ)
  | nan
  | other
  deriving DecidableEq

inductive TaskStatus where
  | completed
  | failed
  | skipped
  deriving DecidableEq

structure TaskError where
  code : String
  message : String
  internalReason : Option String
  deriving DecidableEq

structure TaskResult where
  taskId : String
  status : TaskStatus
  columns : List String := []
  rows : List (List Value) := []
  rowCount : Nat := 0
  truncated : Bool := false
  error : Option TaskError := none
  deriving DecidableEq

/-- An error with its message and its reason. -/
structure AnalysisError where
  message : String
  reason : String
  deriving DecidableEq

end ChatBI.Analysis
