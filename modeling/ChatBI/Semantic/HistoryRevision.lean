import ChatBI.Semantic.Revision
import Mathlib.Data.List.Dedup
import Mathlib.Data.List.Infix

/-!
# Revising a restored query

`revise_history_semantic_query`: a follow-up question to a query with complete conditions. The
model proposes a delta of the basic slots and an operation for each condition slot; the rest is
deterministic. What the model answers is a parameter.
-/

namespace ChatBI.Semantic

open ChatBI.Lib

/-- `(operation, value)` of a condition slot. -/
inductive SlotOperation (α : Type) where
  | keep
  | set (value : α)
  | clear
  deriving DecidableEq

/-- The slot of the new conditions. -/
def SlotOperation.apply {α : Type} (kept cleared : α) : SlotOperation α → α
  | keep => kept
  | set value => value
  | clear => cleared

structure RevisionOperations where
  orderBy : SlotOperation (List BusinessOrder)
  rowLimit : SlotOperation (Option Int)
  aggregateFilters : SlotOperation (List AggregateFilter)
  selection : SlotOperation (Option EntitySelection)
  deriving DecidableEq

inductive RevisionResponse where
  | clarificationRequired
  | delta (candidate : SemanticQueryCandidate) (operations : RevisionOperations)
  deriving DecidableEq

inductive RevisionErrorCode where
  | clarificationRequired
  | unsupportedAnalysis
  | llmError
  deriving DecidableEq

/-- `SemanticRevisionError`, and `ExecutionStopped`. -/
inductive RevisionError where
  | revision (message : String) (errorCode : RevisionErrorCode) (reason : String)
  | stopped
  deriving DecidableEq

def clarification (message : String) : RevisionError :=
  .revision message .clarificationRequired "HISTORY_DELTA_AMBIGUOUS"

section Question

def unsupportedAnalysisTerms : List String :=
  ["同比", "环比", "趋势", "原因", "为什么", "为何", "归因", "对比", "比较", "经营分析", "商业分析",
    "多查询", "多次查询", "多条查询"]

/-- `re.search` of a pattern: it matches at some position. -/
def searches (matchesAt : List Char → Bool) (text : List Char) : Bool := text.tails.any matchesAt

/-- The rests of a text behind the words that it starts with. -/
def behindWords (words : List String) (text : List Char) : List (List Char) :=
  words.filterMap fun word =>
    if word.toList.isPrefixOf text then some (text.drop word.length) else none

def containsUnsupportedAnalysis (question : String) : Bool :=
  unsupportedAnalysisTerms.any fun term =>
    searches term.toList.isPrefixOf (compact question).toList

def dimensionWords : List String := ["分组维度", "分组", "维度"]

def replacementWords : List String := ["改成", "改为", "换成", "替换为", "替换成"]

/-- `_DIMENSION_REPLACEMENT` at the start of a text. -/
def replacementAt (text : List Char) : Bool :=
  (behindWords dimensionWords text).any fun rest =>
    !(behindWords replacementWords (rest.dropWhile isSpace)).isEmpty

/-- `_DIMENSION_APPEND` at the start of a text. -/
def appendAt (text : List Char) : Bool :=
  !(behindWords ["再加", "再增加", "增加", "追加", "加上"] text).isEmpty

/-- `_DIMENSION_REPLACEMENT_NEGATION` at the start of a text. -/
def negationAt (text : List Char) : Bool :=
  (behindWords ["不是", "不要", "别", "并非"] text).any fun rest =>
    match rest.dropWhile isSpace with
    | '把' :: rest => replacementAt (rest.dropWhile isSpace)
    | rest => replacementAt rest

inductive DimensionOperation where
  | clarify
  | replace
  | append
  deriving DecidableEq

def dimensionOperation (question : String) : DimensionOperation :=
  let text := question.toList
  if searches negationAt text ∨ searches replacementAt text ∧ searches appendAt text then .clarify
  else if searches replacementAt text then .replace
  else .append

end Question

def hasSemanticDelta (candidate : SemanticQueryCandidate) : Prop :=
  candidate.subjects ≠ [] ∨ candidate.metrics ≠ [] ∨ candidate.dimensions ≠ [] ∨
    candidate.time ≠ none ∨ candidate.filters ≠ []

instance (candidate : SemanticQueryCandidate) : Decidable (hasSemanticDelta candidate) :=
  inferInstanceAs (Decidable (_ ∨ _))

def RevisionOperations.AllKeep (operations : RevisionOperations) : Prop :=
  operations.orderBy = .keep ∧ operations.rowLimit = .keep ∧
    operations.aggregateFilters = .keep ∧ operations.selection = .keep

instance (operations : RevisionOperations) : Decidable operations.AllKeep :=
  inferInstanceAs (Decidable (_ ∧ _))

/-- The conditions with every operation carried out. -/
def RevisionOperations.applied (operations : RevisionOperations)
    (conditions : RestorationConditions) : RestorationConditions where
  orderBy := operations.orderBy.apply conditions.orderBy []
  rowLimit := operations.rowLimit.apply conditions.rowLimit none
  aggregateFilters := operations.aggregateFilters.apply conditions.aggregateFilters []
  selection := operations.selection.apply conditions.selection none

def metricKind : String := "metric"

/-- An order by a metric is one by another metric. -/
def BusinessOrder.retarget (metric : String) (item : BusinessOrder) : BusinessOrder :=
  if item.targetKind = metricKind then { item with target := metric } else item

/-- The metrics of an order that the query has not. -/
def missingMetrics (orderBy : List BusinessOrder) (metrics : List String) : List String :=
  ((orderBy.filter fun item => item.targetKind = metricKind ∧ item.target ∉ metrics).map
    BusinessOrder.target).dedup

/-- A kept order after a change of the metrics: the order of a single metric follows it. -/
def retargeted (previous merged : List String) (orderBy : List BusinessOrder) :
    Except RevisionError (List BusinessOrder) :=
  if missingMetrics orderBy merged = [] then .ok orderBy
  else match previous, merged, missingMetrics orderBy merged with
    | [_], [metric], [_] => .ok (orderBy.map (BusinessOrder.retarget metric))
    | _, _, _ => .error (clarification "请明确新指标对应的排序")

/-- The order with the operations carried out, for the metrics of the merged query. -/
def revisedOrder (previous merged : List String) (operations : RevisionOperations)
    (orderBy : List BusinessOrder) : Except RevisionError (List BusinessOrder) :=
  if operations.orderBy = .keep ∧ merged ≠ previous then retargeted previous merged orderBy
  else .ok orderBy

/-- The fields that an order may have besides metrics. -/
def orderedFields (dimensions : List String) (selection : Option EntitySelection) : List String :=
  dimensions ++ (selection.map EntitySelection.fields).getD []

section

variable (casefold : String → String)
  (validateTime : TimeCandidate → Except SemanticQueryValidationError ValidatedTime)

/-- The conditions of a merged query. -/
def revisedConditions (previous merged : ValidatedSemanticQuery)
    (conditions : RestorationConditions) (operations : RevisionOperations) :
    Except RevisionError RestorationConditions := do
  let values := operations.applied conditions
  require (values.rowLimit = none ∨ values.orderBy ≠ [])
    (clarification "排名需要明确排序依据；取消排序时请同时取消排名数量")
  let orderBy ← revisedOrder previous.metrics merged.metrics operations values.orderBy
  require (∀ item ∈ orderBy, item.targetKind = metricKind ∨
      item.target ∈ orderedFields merged.dimensions values.selection)
    (clarification "分组或选择已改变，请明确新的排序条件")
  return { values with orderBy }

def reviseHistorySemanticQuery (previous : ValidatedSemanticQuery) (question : String)
    (response : Except RevisionError RevisionResponse) :
    Except RevisionError ValidatedSemanticQuery := do
  require (containsUnsupportedAnalysis question = false)
    (.revision "当前问题超出单条查询修订范围" .unsupportedAnalysis "UNSUPPORTED_ANALYSIS_SCOPE")
  require (dimensionOperation question ≠ .clarify) (clarification "请明确增加还是替换分组维度")
  match response with
  | .error .stopped => .error .stopped
  | .error _ => .error (.revision "暂时无法理解追问" .llmError "HISTORY_REVISION_FAILED")
  | .ok .clarificationRequired => .error (clarification "请明确要修改的业务条件")
  | .ok (.delta candidate operations) =>
    require (hasSemanticDelta candidate ∨ ¬operations.AllKeep)
      (clarification "请明确需要新增或修改的查询条件")
    require (dimensionOperation question ≠ .replace ∨ candidate.dimensions ≠ [])
      (clarification "请明确新的分组维度")
    match mergeAndValidate casefold validateTime previous candidate question
        (dimensionOperation question = .replace) with
    | .error _ => .error (clarification "当前条件无法确定唯一查询")
    | .ok merged =>
      match previous.restorationConditions with
      | none => .error (clarification "历史缺少完整查询条件")
      | some conditions => do
        let revised ← revisedConditions previous merged conditions operations
        return { merged with restorationConditions := some revised }

end

/-- The slots that the delta does not mention are those of the previous query. -/
structure KeepsUnmentioned (previous query : ValidatedSemanticQuery)
    (candidate : SemanticQueryCandidate) : Prop where
  time : candidate.time = none → query.time = previous.time
  dimensions : candidate.dimensions = [] → query.dimensions = previous.dimensions
  subjects : candidate.subjects = [] → query.subjects = previous.subjects
  metrics : candidate.metrics = [] → query.metrics = previous.metrics

/-- The conditions of a revised query, by those of the previous one and the operations. -/
structure RevisedConditions (previous query : ValidatedSemanticQuery)
    (operations : RevisionOperations) (conditions revised : RestorationConditions) : Prop where
  limit : revised.rowLimit ≠ none → revised.orderBy ≠ []
  fields : ∀ item ∈ revised.orderBy, item.targetKind ≠ metricKind →
    item.target ∈ query.dimensions ∨ ∃ s ∈ revised.selection, item.target ∈ s.fields
  metrics : operations.orderBy = .keep → query.metrics ≠ previous.metrics →
    ∀ item ∈ revised.orderBy, item.targetKind = metricKind → item.target ∈ query.metrics
  rowLimit : revised.rowLimit = operations.rowLimit.apply conditions.rowLimit none
  aggregateFilters :
    revised.aggregateFilters = operations.aggregateFilters.apply conditions.aggregateFilters []
  selection : revised.selection = operations.selection.apply conditions.selection none
  orderBy : revised.orderBy = operations.orderBy.apply conditions.orderBy [] ∨
    operations.orderBy = .keep ∧ previous.metrics.length = 1 ∧
      ∃ metric, query.metrics = [metric] ∧
        revised.orderBy = conditions.orderBy.map (BusinessOrder.retarget metric)

/-- A revised query keeps what is not mentioned, and its conditions go together. -/
structure Revised (previous query : ValidatedSemanticQuery) (candidate : SemanticQueryCandidate)
    (operations : RevisionOperations) : Prop where
  slots : KeepsUnmentioned previous query candidate
  conditions : ∃ conditions revised, previous.restorationConditions = some conditions ∧
    query.restorationConditions = some revised ∧
      RevisedConditions previous query operations conditions revised

section Orders

variable {orderBy orderBy' : List BusinessOrder} {item : BusinessOrder}
  {previous merged metrics : List String} {metric : String}

lemma retarget_kind : (item.retarget metric).targetKind = item.targetKind := by
  unfold BusinessOrder.retarget
  split <;> rfl

lemma target_retarget (h : item.targetKind = metricKind) :
    (item.retarget metric).target = metric := by
  rw [BusinessOrder.retarget, if_pos h]

lemma mem_missingMetrics {name : String} :
    name ∈ missingMetrics orderBy metrics ↔
      ∃ item ∈ orderBy, (item.targetKind = metricKind ∧ item.target ∉ metrics) ∧
        item.target = name := by
  unfold missingMetrics
  rw [List.mem_dedup, List.mem_map]
  apply exists_congr
  intro item
  rw [List.mem_filter, decide_eq_true_iff, and_assoc]

/-- The order of a query with other metrics has the metrics of that query only. -/
lemma retargeted_metrics (h : retargeted previous merged orderBy = .ok orderBy') :
    ∀ item ∈ orderBy', item.targetKind = metricKind → item.target ∈ merged := by
  intro item hitem hkind
  unfold retargeted at h
  split at h
  · next hnone =>
    cases h
    by_contra hnot
    have hmissing : item.target ∈ missingMetrics orderBy merged :=
      mem_missingMetrics.mpr ⟨item, hitem, ⟨hkind, hnot⟩, rfl⟩
    rw [hnone] at hmissing
    cases hmissing
  · split at h
    · next metric _ _ _ =>
      cases h
      obtain ⟨old, hold, rfl⟩ := List.mem_map.mp hitem
      rw [retarget_kind] at hkind
      rw [target_retarget hkind]
      exact List.mem_singleton_self metric
    · cases h

/-- A kept order is as it was, or follows the single metric. -/
lemma retargeted_cases (h : retargeted previous merged orderBy = .ok orderBy') :
    orderBy' = orderBy ∨ previous.length = 1 ∧
      ∃ metric, merged = [metric] ∧ orderBy' = orderBy.map (BusinessOrder.retarget metric) := by
  unfold retargeted at h
  split at h
  · cases h
    exact .inl rfl
  · split at h
    · next metric _ _ _ =>
      cases h
      exact .inr ⟨rfl, metric, rfl, rfl⟩
    · cases h

end Orders

section Revisions

variable {casefold : String → String}
  {validateTime : TimeCandidate → Except SemanticQueryValidationError ValidatedTime}
  {previous merged query : ValidatedSemanticQuery} {candidate : SemanticQueryCandidate}
  {operations : RevisionOperations} {conditions revised : RestorationConditions}
  {question : String} {replaceDimensions : Bool}

/-- Merging leaves the slots that the delta does not mention. -/
lemma mergeAndValidate_keeps
    (h : mergeAndValidate casefold validateTime previous candidate question replaceDimensions =
      .ok merged)
    (hreplace : replaceDimensions = true → candidate.dimensions ≠ []) :
    KeepsUnmentioned previous merged candidate := by
  simp only [mergeAndValidate, except_bind_ok, except_pure_ok] at h
  obtain ⟨validated, hvalidated, hmerged⟩ := h
  have hslots := validateCandidate_ok hvalidated
  have hsame : merged.dimensions = validated.dimensions ∧ merged.subjects = validated.subjects ∧
      merged.metrics = validated.metrics := by
    rw [← hmerged]
    split <;> exact ⟨rfl, rfl, rfl⟩
  obtain ⟨hdimensions, hsubjects, hmetrics⟩ := hsame
  refine ⟨?_, ?_, ?_, ?_⟩
  · intro htime
    rw [← hmerged, if_pos htime]
  · intro hnone
    have happend : replaceDimensions = false := by
      by_contra hnot
      exact hreplace (Bool.not_eq_false _ ▸ hnot) hnone
    rw [hdimensions, hslots]
    simp [happend, hnone, appendUnique]
  · intro hnone
    rw [hsubjects, hslots]
    simp [hnone]
  · intro hnone
    rw [hmetrics, hslots]
    simp [hnone]

lemma mem_orderedFields {dimensions : List String} {selection : Option EntitySelection}
    {field : String} :
    field ∈ orderedFields dimensions selection ↔
      field ∈ dimensions ∨ ∃ s ∈ selection, field ∈ s.fields := by
  cases selection <;> simp [orderedFields]

/-- What the checks of the conditions leave. -/
lemma revisedConditions_ok
    (h : revisedConditions previous merged conditions operations = .ok revised) :
    RevisedConditions previous merged operations conditions revised := by
  simp only [revisedConditions, except_bind_ok, except_pure_ok] at h
  obtain ⟨_, hlimit, orderBy, horder, _, hfields, rfl⟩ := h
  rw [require_ok] at hlimit hfields
  have hcases : orderBy = (operations.applied conditions).orderBy ∨
      operations.orderBy = .keep ∧ previous.metrics.length = 1 ∧
        ∃ metric, merged.metrics = [metric] ∧
          orderBy = conditions.orderBy.map (BusinessOrder.retarget metric) := by
    unfold revisedOrder at horder
    split at horder
    · next hkept =>
      have happlied : (operations.applied conditions).orderBy = conditions.orderBy := by
        rw [RevisionOperations.applied, hkept.1]
        rfl
      rw [happlied] at horder ⊢
      rcases retargeted_cases horder with hsame | ⟨hsingle, metric, hmetric, hmap⟩
      · exact .inl hsame
      · exact .inr ⟨hkept.1, hsingle, metric, hmetric, hmap⟩
    · cases horder
      exact .inl rfl
  refine ⟨?_, ?_, ?_, rfl, rfl, rfl, hcases⟩
  · intro hsome
    have hordered := hlimit.resolve_left hsome
    rcases hcases with hsame | ⟨hkept, -, metric, -, hmap⟩
    · rw [hsame]
      exact hordered
    · rw [hmap]
      rw [RevisionOperations.applied, hkept] at hordered
      exact fun hnil => hordered (List.map_eq_nil_iff.mp hnil)
  · intro item hitem hkind
    exact mem_orderedFields.mp ((hfields item hitem).resolve_left hkind)
  · intro hkept hchanged
    rw [revisedOrder, if_pos ⟨hkept, hchanged⟩] at horder
    exact retargeted_metrics horder

/-- Net sales, the three best first. -/
def rankedQuery : ValidatedSemanticQuery :=
  { salesQuery [] with
    dimensions := ["产品"]
    restorationConditions := some ⟨[⟨metricKind, "net sales", "desc", "last"⟩], some 3, [], none⟩ }

end Revisions

end ChatBI.Semantic
