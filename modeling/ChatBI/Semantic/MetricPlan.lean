import ChatBI.Lib.Dict
import ChatBI.Semantic.Query
import Mathlib.Algebra.Order.Field.Rat
import Mathlib.Data.List.Dedup
import Mathlib.Data.List.Sort

/-!
# Planning the metrics of a query

`plan_retrieved_metrics` matches every requested text with the metrics that were retrieved for it.
Before a query is restored, `prepare_restoration_state` certifies the same texts against the planned
metrics. Case folding, the class of a character and the parser of fixed filters are parameters.
-/

namespace ChatBI.Semantic

open ChatBI.Lib

/-- The published facts on a metric. A missing text is empty, and names are stripped when they are
published. -/
structure MetricMetadata where
  metricName : String
  aliases : List String
  formula : String
  dataSource : String
  timeField : String
  filters : List String
  dependsOn : List String
  stripped : strip metricName = metricName
  deriving DecidableEq

structure MetricHit where
  documentId : String
  score : Rat
  metadata : MetricMetadata
  deriving DecidableEq

structure MetricMention where
  requestedText : String
  start : Nat
  stop : Nat
  documentId : String
  metricName : String
  deriving DecidableEq

structure MetricConstraint where
  ordinal : Nat
  requestedText : String
  documentId : String
  metricName : String
  formula : String
  dataSource : String
  timeField : String
  filters : List String
  dependsOn : List String
  deriving DecidableEq

inductive MetricPlanStatus where
  | success
  | ambiguous
  | noMetric
  | tooMany
  | unsupportedCombination
  | invalidAsset
  deriving DecidableEq

structure MetricRequestPlan where
  status : MetricPlanStatus
  mentions : List MetricMention
  constraints : List MetricConstraint
  reason : String
  deriving DecidableEq

/-- The labels of a metric: its name and its aliases. -/
def MetricMetadata.labels (metadata : MetricMetadata) : List String :=
  metadata.metricName :: metadata.aliases

section Parameters

variable (casefold : String → String) (isAlnum : Char → Bool)

/-- `_normalize`. -/
def normalize (value : String) : List Char :=
  (casefold value).toList.filter fun c => isAlnum c || ('一' ≤ c && c ≤ '\u9fff')

/-- A label of the metric is the requested text up to the normalisation. -/
def MetricHit.Matches (requestedText : String) (hit : MetricHit) : Prop :=
  ∃ label ∈ hit.metadata.labels,
    normalize casefold isAlnum requestedText = normalize casefold isAlnum label

instance (requestedText : String) (hit : MetricHit) :
    Decidable (hit.Matches casefold isAlnum requestedText) :=
  inferInstanceAs (Decidable (∃ label ∈ hit.metadata.labels, _))

/-- The best hit of every document. -/
def bestHits (hits : List MetricHit) : Dict String MetricHit :=
  hits.foldl (fun best hit =>
    match Dict.get? best hit.documentId with
    | none => Dict.set best hit.documentId hit
    | some previous =>
      if previous.score < hit.score then Dict.set best hit.documentId hit else best) []

/-- `(-item.score, item.document_id)`. -/
def rankedHits (best : Dict String MetricHit) : List MetricHit :=
  (best.map Prod.snd).insertionSort fun a b =>
    b.score < a.score ∨ a.score = b.score ∧ a.documentId ≤ b.documentId

/-- `_matching_hits`. -/
def matchingHits (requestedText : String) (metricHits : List MetricHit) : List MetricHit :=
  rankedHits (bestHits (metricHits.filter (MetricHit.Matches casefold isAlnum requestedText)))

/-- `merge_metric_hits`. -/
def mergeMetricHits (metricHitsByQuery : List (List MetricHit)) : List MetricHit :=
  rankedHits (bestHits metricHitsByQuery.flatten)

def maxPlanMetrics : Nat := 5

def mentionOf (requestedText : String) (index : Nat) (selected : MetricHit) : MetricMention where
  requestedText := requestedText
  start := index
  stop := index + requestedText.length
  documentId := selected.documentId
  metricName := selected.metadata.metricName

/-- What a text selects among its hits. -/
def selectHit (requestedText : String) (hits : List MetricHit) :
    Except (MetricPlanStatus × String) MetricHit :=
  match matchingHits casefold isAlnum requestedText hits with
  | [] =>
    if 1 < (hits.map MetricHit.documentId).dedup.length then
      .error (.ambiguous, s!"指标候选存在歧义：{requestedText}")
    else .error (.noMetric, s!"指标无法映射到唯一权威候选：{requestedText}")
  | [selected] => .ok selected
  | _ => .error (.ambiguous, s!"指标候选存在歧义：{requestedText}")

/-- What the texts select, in order. The third part is what was selected in front of an error. -/
def selectHits (index : Nat) (selected : List (MetricMention × MetricHit)) :
    List (String × List MetricHit) →
      Except (MetricPlanStatus × String × List MetricMention) (List (MetricMention × MetricHit))
  | [] => .ok selected
  | (requestedText, hits) :: rest =>
    match selectHit casefold isAlnum requestedText hits with
    | .error (status, reason) => .error (status, reason, selected.map Prod.fst)
    | .ok hit =>
      selectHits (index + 1) (selected ++ [(mentionOf requestedText index hit, hit)]) rest

/-- The first selection of every document. -/
def uniqueSelections (selected : List (MetricMention × MetricHit)) :
    List (MetricMention × MetricHit) :=
  selected.foldl (fun unique item =>
    if item.1.documentId ∈ unique.map fun other => other.1.documentId then unique
    else unique ++ [item]) []

def requiredMetadataText (hit : MetricHit) (key value : String) : Except String String := do
  let documentId := hit.documentId
  require (strip value ≠ "") s!"指标 {documentId} 缺少有效 {key}"
  return strip value

def metadataStrings (hit : MetricHit) (key : String) (values : List String) :
    Except String (List String) := do
  let documentId := hit.documentId
  require (∀ item ∈ values, strip item ≠ "") s!"指标 {documentId} 的 {key} 格式无效"
  return values.map strip

/-- `_constraint_from_hit`. -/
def constraintFromHit (ordinal : Nat) (hit : MetricHit) (requestedText : String) :
    Except String MetricConstraint := do
  let formula ← requiredMetadataText hit "formula" hit.metadata.formula
  let dataSource ← requiredMetadataText hit "data_source" hit.metadata.dataSource
  let timeField ← requiredMetadataText hit "time_field" hit.metadata.timeField
  let filters ← metadataStrings hit "filters" hit.metadata.filters
  let dependsOn ← metadataStrings hit "depends_on" hit.metadata.dependsOn
  return ⟨ordinal, requestedText, hit.documentId, hit.metadata.metricName, formula, dataSource,
    timeField, filters, dependsOn⟩

variable (parseFilter : String → Except String (List String))

/-- `_canonical_filters`: the conditions of all filters as a sorted set. -/
def canonicalFilters (filters : List String) : Except String (List String) := do
  let conditions ← filters.mapM parseFilter
  return conditions.flatten.dedup.insertionSort (· ≤ ·)

/-- `_compatible`. -/
def compatible (constraints : List MetricConstraint) : Except String Bool := do
  let filters ← constraints.mapM fun constraint => canonicalFilters parseFilter constraint.filters
  let dataSources := constraints.map fun constraint => casefold (strip constraint.dataSource)
  let timeFields := constraints.map fun constraint => casefold (compact constraint.timeField)
  return dataSources.dedup.length = 1 ∧ timeFields.dedup.length = 1 ∧ filters.dedup.length = 1

/-- A plan that is refused. -/
def refused (status : MetricPlanStatus) (reason : String) (mentions : List MetricMention)
    (constraints : List MetricConstraint) : MetricRequestPlan :=
  ⟨status, mentions, constraints, reason⟩

/-- The plan of what the texts have selected. -/
def planSelections (selected : List (MetricMention × MetricHit)) : MetricRequestPlan :=
  let mentions := selected.map Prod.fst
  let unique := uniqueSelections selected
  if maxPlanMetrics < unique.length then
    refused .tooMany s!"去重后的请求指标超过 V1 上限 {maxPlanMetrics} 个" mentions []
  else
    match (unique.zipIdx 1).mapM fun item =>
        constraintFromHit item.2 item.1.2 item.1.1.requestedText with
    | .error reason => refused .invalidAsset reason mentions []
    | .ok constraints =>
      match compatible casefold parseFilter constraints with
      | .error reason => refused .invalidAsset reason mentions constraints
      | .ok false =>
        refused .unsupportedCombination "请求指标的数据来源、日期口径或固定过滤条件不一致" mentions
          constraints
      | .ok true => ⟨.success, mentions, constraints, ""⟩

/-- `plan_retrieved_metrics`. -/
def planRetrievedMetrics (query : Option ValidatedSemanticQuery)
    (metricHitsByQuery : List (List MetricHit)) : MetricRequestPlan :=
  match query with
  | none => refused .invalidAsset "RetrievalRequest 缺少 ValidatedSemanticQuery" [] []
  | some query =>
    if maxPlanMetrics < query.metrics.length then
      refused .tooMany s!"请求指标超过 V1 上限 {maxPlanMetrics} 个" [] []
    else if metricHitsByQuery.length ≠ query.metrics.length then
      refused .noMetric "本次 METRIC 检索结果与请求指标数量不一致" [] []
    else
      match selectHits casefold isAlnum 0 [] (query.metrics.zip metricHitsByQuery) with
      | .error (status, reason, mentions) => refused status reason mentions []
      | .ok selected => planSelections casefold parseFilter selected

end Parameters

/-- The facts on the planned metrics: the hits of the constraints among the merged hits. -/
def plannedFacts (metricHitsByQuery : List (List MetricHit)) (constraints : List MetricConstraint) :
    Option (List MetricMetadata) :=
  constraints.mapM fun constraint =>
    ((mergeMetricHits metricHitsByQuery).find? (·.documentId = constraint.documentId)).map
      MetricHit.metadata

/-- The metric that `prepare_restoration_state` certifies for a requested text. -/
def certifyMetric (available : List MetricMetadata) (requested : String) :
    Except String MetricMetadata :=
  match available.filter (requested ∈ ·.labels) with
  | [record] => .ok record
  | _ => .error "指标无法唯一认证"

end ChatBI.Semantic
