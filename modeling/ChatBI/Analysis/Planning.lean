import ChatBI.Analysis.Attribution
import ChatBI.Lib.Raises

/-!
# Planning

The semantic catalog, and the fixed plan that `build_comparison_plan` makes of a request. Case
folding and the decimal digits of the regular expressions are parameters.
-/

namespace ChatBI.Analysis

open ChatBI.Lib ChatBI.Semantic

/-- The functions outside the repository. `decimal` is `none` for a text that is no number, and
`some none` for a number that is not finite. -/
structure Texts where
  casefold : String → String
  isDigit : Char → Bool
  decimal : String → Option (Option ℚ)

def plainTexts : Texts := ⟨id, Char.isDigit, fun _ => none⟩

inductive PlanErrorKind where
  | structural
  | cannotAnswer
  | clarification
  deriving DecidableEq

structure AnalysisPlanError where
  kind : PlanErrorKind
  message : String
  reason : String
  deriving DecidableEq

/-- The names behind the lookup keys. A set of names is a list without repetitions. -/
structure AnalysisSemanticCatalog where
  metricMatches : Dict String (List String)
  dimensionMatches : Dict String (List String)
  deriving DecidableEq

structure MetricRecord where
  name : String
  aliases : List String
  deriving DecidableEq

structure AnalysisDecompositionContext where
  metricRecords : List MetricRecord
  dimensions : List String
  deriving DecidableEq

/-- `str.split()`. -/
def splitText (cs : List Char) : List (List Char) :=
  (cs.splitBy fun a b => isSpace a = isSpace b).filter fun word => !word.any isSpace

/-- `part in text`. -/
def occursIn (part text : List Char) : Bool := text.tails.any part.isPrefixOf

def requiredText (value field : String) : Except AnalysisPlanError String :=
  if strip value = "" then .error ⟨.structural, s!"{field} 必须是非空字符串", "TEXT_REQUIRED"⟩
  else .ok (strip value)

section Matching

variable (texts : Texts)

/-- `_lookup_key`. -/
def lookupKey (value : String) : String :=
  String.ofList ([' '].intercalate (splitText (texts.casefold (strip value)).toList))

/-- `"".join(_lookup_key(value).split())`. -/
def joinedKey (value : String) : List Char := (splitText (lookupKey texts value).toList).flatten

/-- `matches.setdefault(key, set()).add(name)`. -/
def addMatch (matches_ : Dict String (List String)) (key name : String) :
    Dict String (List String) :=
  Dict.set matches_ key (((Dict.get? matches_ key).getD []).insert name)

def addRecord (matches_ : Dict String (List String)) (record : MetricRecord) :
    Except AnalysisPlanError (Dict String (List String)) := do
  let name ← requiredText record.name "metric.name"
  (name :: record.aliases).foldlM (fun matches_ value => do
    let alias_ ← requiredText value "metric.alias"
    return addMatch matches_ (lookupKey texts alias_) name) matches_

def addDimension (matches_ : Dict String (List String)) (dimension : String) :
    Except AnalysisPlanError (Dict String (List String)) := do
  let name ← requiredText dimension "dimension"
  return addMatch matches_ (lookupKey texts name) name

/-- `AnalysisSemanticCatalog.from_records`. -/
def fromRecords (context : AnalysisDecompositionContext) :
    Except AnalysisPlanError AnalysisSemanticCatalog := do
  let metricMatches ← context.metricRecords.foldlM (addRecord texts) []
  let dimensionMatches ← context.dimensions.foldlM (addDimension texts) []
  return ⟨metricMatches, dimensionMatches⟩

/-- The year and the month of `(\d{4})年\d{1,2}月`. -/
def yearMonth? : List Char → Option (List Char × List Char)
  | [a, b, c, d, '年', x, '月'] =>
    if [a, b, c, d, x].all texts.isDigit then some ([a, b, c, d, '年'], [x, '月']) else none
  | [a, b, c, d, '年', x, y, '月'] =>
    if [a, b, c, d, x, y].all texts.isDigit then some ([a, b, c, d, '年'], [x, y, '月']) else none
  | _ => none

/-- `_period_is_grounded`. -/
def periodIsGrounded (period : AnalysisTimeRange) (question : String) : Bool :=
  let normalizedQuestion := joinedKey texts question
  let normalizedPeriod := joinedKey texts period.text
  if occursIn normalizedPeriod normalizedQuestion then true
  else if period.granularity = .month then
    (yearMonth? texts normalizedPeriod).any fun (year, month) =>
      occursIn year normalizedQuestion && occursIn month normalizedQuestion
  else false

/-- `_requested_unsupported_dimensions`. -/
def requestedUnsupportedDimensions (catalog : AnalysisSemanticCatalog) (question : String) :
    List String :=
  ((catalog.dimensionMatches.flatMap Prod.snd).filter fun dimension =>
    dimension ≠ "产品" &&
      occursIn (joinedKey texts dimension) (joinedKey texts question)).dedup.insertionSort (· ≤ ·)

end Matching

def comparisonTask (taskId description : String) (metrics dimensions : List String)
    (period : AnalysisTimeRange) (expectedOutput : String) : AnalysisTask where
  taskId := taskId
  taskType := .comparison
  description := description
  metrics := metrics
  dimensions := dimensions
  timeRange := some period
  filters := []
  dependsOn := []
  expectedOutput := expectedOutput

/-- The metrics that are queried by product. -/
def productMetrics (metricName : String) : List String :=
  if metricName = grossProfitMetric then [netSalesMetric, quantityMetric, salesCostMetric]
  else [netSalesMetric, quantityMetric]

/-- The four tasks of a request. -/
def comparisonPlan (request : AnalysisRequest) : AnalysisPlan :=
  let metricName := request.metricName
  let comparisonLabel := request.comparisonPeriod.text
  let currentLabel := request.currentPeriod.text
  ⟨[comparisonTask "comparison-overall" s!"查询比较时期 {comparisonLabel} 的{metricName}"
      [metricName] [] request.comparisonPeriod "整体指标基准值",
    comparisonTask "current-overall" s!"查询当前时期 {currentLabel} 的{metricName}"
      [metricName] [] request.currentPeriod "整体指标当前值",
    comparisonTask "comparison-products" s!"按产品查询比较时期 {comparisonLabel} 的归因指标"
      (productMetrics metricName) ["产品"] request.comparisonPeriod "各产品的指标归因输入",
    comparisonTask "current-products" s!"按产品查询当前时期 {currentLabel} 的归因指标"
      (productMetrics metricName) ["产品"] request.currentPeriod "各产品的指标归因输入"]⟩

def cannotAnswer (message reason : String) : AnalysisPlanError := ⟨.cannotAnswer, message, reason⟩

def clarification (message reason : String) : AnalysisPlanError := ⟨.clarification, message, reason⟩

section Building

variable (texts : Texts)

/-- The target metric of a candidate. -/
def resolveMetric (candidate : AnalysisRequestCandidate) (catalog : AnalysisSemanticCatalog)
    (question : String) : Except AnalysisPlanError String :=
  match (Dict.get? catalog.metricMatches (lookupKey texts candidate.metricText)).getD [] with
  | [metricName] => do
    require (metricName ∈ [grossProfitMetric, netSalesMetric])
      (cannotAnswer "当前经营分析只支持毛利和人民币净销售额" "METRIC_UNSUPPORTED")
    require (occursIn (lookupKey texts candidate.metricText).toList (lookupKey texts question).toList)
      (clarification "目标指标与用户问题不一致" "METRIC_NOT_IN_QUESTION")
    return metricName
  | _ => .error (clarification "目标指标无法唯一确定" "METRIC_NOT_UNIQUE")

/-- The two periods of a candidate. -/
def resolvePeriods (candidate : AnalysisRequestCandidate) (question : String) :
    Except AnalysisPlanError (AnalysisTimeRange × AnalysisTimeRange) :=
  match candidate.currentPeriod, candidate.comparisonPeriod with
  | some current, some comparison => do
    require (current.granularity = comparison.granularity)
      (clarification "两个比较时期的时间粒度必须一致" "COMPARISON_GRANULARITY_MISMATCH")
    require (lookupKey texts current.text ≠ lookupKey texts comparison.text)
      (clarification "当前时期和比较时期不能相同" "COMPARISON_PERIOD_DUPLICATE")
    require (periodIsGrounded texts current question ∧ periodIsGrounded texts comparison question)
      (clarification "比较时期无法从用户问题中确认" "COMPARISON_PERIOD_NOT_IN_QUESTION")
    return (current, comparison)
  | _, _ => .error (clarification "必须明确当前时期和比较时期" "COMPARISON_PERIOD_REQUIRED")

def buildComparisonPlan (candidate : AnalysisRequestCandidate) (catalog : AnalysisSemanticCatalog)
    (question : String) : Except AnalysisPlanError (AnalysisRequest × AnalysisPlan) := do
  let metricName ← resolveMetric texts candidate catalog question
  let unsupported := requestedUnsupportedDimensions texts catalog question
  let unsupportedText := "、".intercalate unsupported
  require (unsupported = [])
    (cannotAnswer s!"当前经营分析仅支持按产品归因，不支持按{unsupportedText}拆解" "DIMENSION_UNSUPPORTED")
  let (current, comparison) ← resolvePeriods texts candidate question
  let request : AnalysisRequest := ⟨metricName, current, comparison⟩
  let missing := (productMetrics metricName).filter fun name =>
    Dict.get? catalog.metricMatches (lookupKey texts name) ≠ some [name]
  let missingText := "、".intercalate missing
  require (missing = []) (cannotAnswer s!"经营分析缺少必要指标：{missingText}" "REQUIRED_METRIC_NOT_FOUND")
  require (Dict.get? catalog.dimensionMatches (lookupKey texts "产品") = some ["产品"])
    (cannotAnswer "经营分析语义目录缺少产品维度" "PRODUCT_DIMENSION_NOT_FOUND")
  return (request, comparisonPlan request)

end Building

/-- The checks that a candidate passes on the way to its request. -/
structure Admitted (texts : Texts) (candidate : AnalysisRequestCandidate)
    (catalog : AnalysisSemanticCatalog) (question : String) (request : AnalysisRequest) : Prop where
  unique : (Dict.get? catalog.metricMatches (lookupKey texts candidate.metricText)).getD [] =
    [request.metricName]
  supported : request.metricName ∈ [grossProfitMetric, netSalesMetric]
  named : occursIn (lookupKey texts candidate.metricText).toList (lookupKey texts question).toList
  byProduct : requestedUnsupportedDimensions texts catalog question = []
  currentPeriod : candidate.currentPeriod = some request.currentPeriod
  comparisonPeriod : candidate.comparisonPeriod = some request.comparisonPeriod
  granularity : request.currentPeriod.granularity = request.comparisonPeriod.granularity
  keys : lookupKey texts request.currentPeriod.text ≠ lookupKey texts request.comparisonPeriod.text
  grounded : periodIsGrounded texts request.currentPeriod question ∧
    periodIsGrounded texts request.comparisonPeriod question
  measured : ∀ name ∈ productMetrics request.metricName,
    Dict.get? catalog.metricMatches (lookupKey texts name) = some [name]
  dimension : Dict.get? catalog.dimensionMatches (lookupKey texts "产品") = some ["产品"]

section Admission

variable {texts : Texts} {candidate : AnalysisRequestCandidate} {catalog : AnalysisSemanticCatalog}
  {question metricName : String} {current comparison : AnalysisTimeRange}
  {request : AnalysisRequest} {plan : AnalysisPlan}

lemma resolveMetric_ok_iff : resolveMetric texts candidate catalog question = .ok metricName ↔
    (Dict.get? catalog.metricMatches (lookupKey texts candidate.metricText)).getD [] =
        [metricName] ∧
      metricName ∈ [grossProfitMetric, netSalesMetric] ∧
      occursIn (lookupKey texts candidate.metricText).toList (lookupKey texts question).toList := by
  unfold resolveMetric
  split
  · next found hfound =>
    simp only [except_bind_ok, except_pure_ok, exists_checked, require_ok, hfound, List.cons.injEq,
      and_true]
    constructor
    · rintro ⟨hsupported, hnamed, rfl⟩
      exact ⟨rfl, hsupported, hnamed⟩
    · rintro ⟨rfl, hsupported, hnamed⟩
      exact ⟨hsupported, hnamed, rfl⟩
  · next hnone =>
    apply iff_of_false fun h => by cases h
    rintro ⟨hunique, -⟩
    exact hnone _ hunique

lemma resolvePeriods_ok_iff :
    resolvePeriods texts candidate question = .ok (current, comparison) ↔
      candidate.currentPeriod = some current ∧ candidate.comparisonPeriod = some comparison ∧
      current.granularity = comparison.granularity ∧
      lookupKey texts current.text ≠ lookupKey texts comparison.text ∧
      periodIsGrounded texts current question ∧ periodIsGrounded texts comparison question := by
  unfold resolvePeriods
  split
  · next current' comparison' hcurrent hcomparison =>
    simp only [except_bind_ok, except_pure_ok, exists_checked, require_ok, hcurrent, hcomparison,
      Option.some.injEq, Prod.mk.injEq]
    constructor
    · rintro ⟨hgranularity, hkeys, hgrounded, rfl, rfl⟩
      exact ⟨rfl, rfl, hgranularity, hkeys, hgrounded⟩
    · rintro ⟨rfl, rfl, hgranularity, hkeys, hgrounded⟩
      exact ⟨hgranularity, hkeys, hgrounded, rfl, rfl⟩
  · next hnone =>
    apply iff_of_false fun h => by cases h
    rintro ⟨hcurrent, hcomparison, -⟩
    exact hnone _ _ hcurrent hcomparison

/-- A candidate has a request and a plan exactly when it passes the checks. -/
theorem buildComparisonPlan_ok_iff :
    buildComparisonPlan texts candidate catalog question = .ok (request, plan) ↔
      Admitted texts candidate catalog question request ∧ plan = comparisonPlan request := by
  unfold buildComparisonPlan
  simp only [except_bind_ok, except_pure_ok, exists_checked, require_ok, Prod.exists, Prod.mk.injEq,
    resolveMetric_ok_iff, resolvePeriods_ok_iff, List.filter_eq_nil_iff, decide_eq_true_eq, ne_eq,
    not_not]
  constructor
  · rintro ⟨metricName, ⟨hunique, hsupported, hnamed⟩, hdimensions, current, comparison,
      ⟨hcurrent, hcomparison, hgranularity, hkeys, hgrounded⟩, hmeasured, hdimension, rfl, rfl⟩
    exact ⟨⟨hunique, hsupported, hnamed, hdimensions, hcurrent, hcomparison, hgranularity, hkeys,
      hgrounded, hmeasured, hdimension⟩, rfl⟩
  · rintro ⟨h, rfl⟩
    exact ⟨request.metricName, ⟨h.unique, h.supported, h.named⟩, h.byProduct, request.currentPeriod,
      request.comparisonPeriod, ⟨h.currentPeriod, h.comparisonPeriod, h.granularity, h.keys,
        h.grounded⟩, h.measured, h.dimension, rfl, rfl⟩

/-- The plan of a request that has been built. -/
lemma buildComparisonPlan_ok
    (h : buildComparisonPlan texts candidate catalog question = .ok (request, plan)) :
    plan = comparisonPlan request := (buildComparisonPlan_ok_iff.mp h).2

end Admission

lemma comparisonPlan_taskIds (request : AnalysisRequest) :
    (comparisonPlan request).tasks.map AnalysisTask.taskId =
      ["comparison-overall", "current-overall", "comparison-products", "current-products"] := rfl

lemma comparisonPlan_nodup (request : AnalysisRequest) :
    ((comparisonPlan request).tasks.map AnalysisTask.taskId).Nodup := by
  rw [comparisonPlan_taskIds]
  decide

end ChatBI.Analysis
