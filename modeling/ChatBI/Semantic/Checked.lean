import ChatBI.Semantic.Recertified
import ChatBI.Semantic.Restorable

/-!
# Checked queries

What the checks of a candidate promise of a query, apart from its metrics, and what the names of its
metrics add for the certified query to be read back.
-/

namespace ChatBI.Semantic

open ChatBI.Lib

structure BusinessOrder.Checked (item : BusinessOrder) : Prop where
  targetKind : item.targetKind ∈ targetKinds
  target : item.targetKind ≠ "metric" → IsBounded item.target
  direction : item.direction ∈ directions
  nulls : item.nulls ∈ nullPlacements

structure AggregateFilter.Checked (digit : Char → Option Nat) (item : AggregateFilter) : Prop where
  operator : item.operator ∈ aggregateOperators
  count : item.values.length ≤ maxConditionItems
  values : ∀ v ∈ item.values, IsBounded v ∧ IsNumeric digit v
  cardinality : item.values ≠ [] ∧ (item.operator = "in" ∨ item.values.length = 1)

structure RestorationConditions.Checked (digit : Char → Option Nat)
    (conditions : RestorationConditions) : Prop where
  rowLimit : ∀ n ∈ conditions.rowLimit, 1 ≤ n ∧ n ≤ maxRowLimit
  orderCount : conditions.orderBy.length ≤ maxConditionItems
  orderBy : ∀ item ∈ conditions.orderBy, item.Checked
  aggregateCount : conditions.aggregateFilters.length ≤ maxConditionItems
  aggregateFilters : ∀ item ∈ conditions.aggregateFilters, item.Checked digit
  selection : ∀ selection ∈ conditions.selection, selection.Restorable

structure ValidatedSemanticQuery.Checked (digit : Char → Option Nat) (q : ValidatedSemanticQuery) :
    Prop where
  slots : checkSlots q.timeless = .ok ()
  count : q.metrics.length ≤ maxRequestMetrics
  subjects : ∀ s ∈ q.subjects, IsText s
  dimensions : ∀ s ∈ q.dimensions, IsText s
  filters : ∀ f ∈ q.filters, f.Restorable
  conditions : ∀ c ∈ q.restorationConditions, c.Checked digit

/-- The labels that conditions refer to metrics by. -/
def RestorationConditions.metricLabels (conditions : RestorationConditions) : List String :=
  (conditions.orderBy.filter (·.targetKind = "metric")).map BusinessOrder.target ++
    conditions.aggregateFilters.map AggregateFilter.metric

/-- The metrics that are referred to have names, those of conditions no long ones, and no two orders
and no two filters on aggregates are on the same metric. -/
structure NamesFit (available : List MetricMetadata) (q : ValidatedSemanticQuery)
    (conditions : RestorationConditions) : Prop where
  nonempty : ∀ label ∈ q.metrics ++ conditions.metricLabels, metricNameOf available label ≠ ""
  bounded : ∀ label ∈ conditions.metricLabels, (metricNameOf available label).length ≤ 200
  orders : (conditions.orderBy.map fun item => (item.named available).identity).Nodup
  aggregates : (conditions.aggregateFilters.map fun item =>
    metricNameOf available item.metric).Nodup

section Names

variable {digit : Char → Option Nat} {available : List MetricMetadata} {item : BusinessOrder}
  {conditions : RestorationConditions}

lemma named_kind : (item.named available).targetKind = item.targetKind := by
  unfold BusinessOrder.named
  split <;> rfl

/-- An order on a metric passes exactly when the name of the metric fits. -/
lemma order_named_iff (h : item.Checked)
    (hstrip : item.targetKind = "metric" → strip (item.named available).target =
      (item.named available).target) :
    (item.named available).Restorable ↔ (item.targetKind = "metric" →
      metricNameOf available item.target ≠ "" ∧ (metricNameOf available item.target).length ≤ 200) := by
  obtain ⟨hkind, htarget, hdirection, hnulls⟩ := h
  by_cases hmetric : item.targetKind = "metric"
  · have hnamed : item.named available = { item with target := metricNameOf available item.target } :=
      if_pos hmetric
    rw [hnamed] at hstrip ⊢
    constructor
    · rintro ⟨-, ⟨⟨-, hne⟩, hlength⟩, -, -⟩ _
      exact ⟨hne, hlength⟩
    · intro hfits
      obtain ⟨hne, hlength⟩ := hfits hmetric
      exact ⟨hkind, ⟨⟨hstrip hmetric, hne⟩, hlength⟩, hdirection, hnulls⟩
  · have hnamed : item.named available = item := if_neg hmetric
    rw [hnamed]
    exact ⟨fun _ h => absurd h hmetric, fun _ => ⟨hkind, htarget hmetric, hdirection, hnulls⟩⟩

lemma aggregate_named_iff {item : AggregateFilter} (h : item.Checked digit)
    (hstrip : strip (metricNameOf available item.metric) = metricNameOf available item.metric) :
    (item.named available).Restorable digit ↔
      metricNameOf available item.metric ≠ "" ∧ (metricNameOf available item.metric).length ≤ 200 := by
  obtain ⟨hoperator, hcount, hvalues, hcardinality⟩ := h
  constructor
  · rintro ⟨⟨⟨-, hne⟩, hlength⟩, -, -, -, -⟩
    exact ⟨hne, hlength⟩
  · rintro ⟨hne, hlength⟩
    exact ⟨⟨⟨hstrip, hne⟩, hlength⟩, hoperator, hcount, hvalues, hcardinality⟩

/-- Conditions by the names of the metrics pass exactly when the names fit. -/
lemma conditions_named_iff (h : conditions.Checked digit)
    (horders : ∀ item ∈ (conditions.named available).orderBy, item.targetKind = "metric" →
      strip item.target = item.target)
    (haggregates : ∀ item ∈ (conditions.named available).aggregateFilters,
      strip item.metric = item.metric) :
    (conditions.named available).Restorable digit ↔
      (∀ label ∈ conditions.metricLabels,
        metricNameOf available label ≠ "" ∧ (metricNameOf available label).length ≤ 200) ∧
      (conditions.orderBy.map fun item => (item.named available).identity).Nodup ∧
      (conditions.aggregateFilters.map fun item => metricNameOf available item.metric).Nodup := by
  have horder : ∀ item ∈ conditions.orderBy, ((item.named available).Restorable ↔
      (item.targetKind = "metric" → metricNameOf available item.target ≠ "" ∧
        (metricNameOf available item.target).length ≤ 200)) := by
    intro item hitem
    apply order_named_iff (h.orderBy item hitem)
    intro hkind
    exact horders _ (List.mem_map_of_mem hitem) (named_kind.trans hkind)
  have haggregate : ∀ item ∈ conditions.aggregateFilters, ((item.named available).Restorable digit ↔
      metricNameOf available item.metric ≠ "" ∧
        (metricNameOf available item.metric).length ≤ 200) := by
    intro item hitem
    exact aggregate_named_iff (h.aggregateFilters item hitem)
      (haggregates (item.named available) (List.mem_map_of_mem hitem))
  have hidentities : (conditions.named available).orderBy.map BusinessOrder.identity =
      conditions.orderBy.map fun item => (item.named available).identity := List.map_map ..
  have hmetrics : (conditions.named available).aggregateFilters.map AggregateFilter.metric =
      conditions.aggregateFilters.map fun item => metricNameOf available item.metric :=
    List.map_map ..
  constructor
  · intro hread
    have hnodup := hread.orders
    have hnodup' := hread.aggregates
    rw [hidentities] at hnodup
    rw [hmetrics] at hnodup'
    refine ⟨?_, hnodup, hnodup'⟩
    intro label hlabel
    rcases List.mem_append.mp hlabel with hlabel | hlabel
    · obtain ⟨item, hitem, rfl⟩ := List.mem_map.mp hlabel
      obtain ⟨hitem, hkind⟩ := List.mem_filter.mp hitem
      exact (horder item hitem).mp (hread.orderBy _ (List.mem_map_of_mem hitem)) (of_decide_eq_true hkind)
    · obtain ⟨item, hitem, rfl⟩ := List.mem_map.mp hlabel
      exact (haggregate item hitem).mp (hread.aggregateFilters _ (List.mem_map_of_mem hitem))
  · rintro ⟨hfits, hnodup, hnodup'⟩
    rw [← hidentities] at hnodup
    rw [← hmetrics] at hnodup'
    refine ⟨h.rowLimit, ?_, ?_, hnodup, ?_, ?_, hnodup', h.selection⟩
    · rw [RestorationConditions.named, List.length_map]
      exact h.orderCount
    · intro _ hmem
      obtain ⟨item, hitem, rfl⟩ := List.mem_map.mp hmem
      apply (horder item hitem).mpr
      intro hkind
      apply hfits
      exact List.mem_append_left _
        (List.mem_map_of_mem (List.mem_filter.mpr ⟨hitem, decide_eq_true hkind⟩))
    · rw [RestorationConditions.named, List.length_map]
      exact h.aggregateCount
    · intro _ hmem
      obtain ⟨item, hitem, rfl⟩ := List.mem_map.mp hmem
      apply (haggregate item hitem).mpr
      apply hfits
      exact List.mem_append_right _ (List.mem_map_of_mem hitem)

end Names

/-! ### What is read from JSON is checked -/

section Reading

variable {digit : Char → Option Nat} {v payload : Json} {s field : String} {index : ℕ}

lemma boundedText_sound {text : String} (h : boundedText text = .ok s) : IsBounded s := by
  unfold boundedText at h
  split at h
  · cases h
  · next hbound =>
    obtain ⟨hne, hlength⟩ := not_or.mp hbound
    rw [← Except.ok.inj h]
    have hle := length_strip_le text
    exact ⟨⟨strip_strip text, hne⟩, by omega⟩

lemma conditionText_sound (h : conditionText v = .ok s) : IsBounded s := by
  unfold conditionText at h
  split at h
  · exact boundedText_sound h
  · cases h

lemma conditionDecimal_sound (h : conditionDecimal digit v = .ok s) :
    IsBounded s ∧ IsNumeric digit s := by
  unfold conditionDecimal at h
  split at h
  · obtain ⟨literal, hliteral, rfl⟩ := except_map_ok.mp h
    exact ⟨boundedText_sound (decimal_ok_iff.mp hliteral), literal, rfl⟩
  · cases h

lemma conditionChoice_sound {choices : List String} (h : conditionChoice v choices = .ok s) :
    s ∈ choices := by
  unfold conditionChoice at h
  rw [checked_bind_ok, require_ok, except_pure_ok] at h
  rw [← h.2]
  exact h.1.2

lemma conditionArray_sound {items : List Json} (h : conditionArray v = .ok items) :
    items.length ≤ maxConditionItems := by
  unfold conditionArray at h
  rw [checked_bind_ok, require_ok, except_pure_ok] at h
  rw [← h.2]
  exact h.1.2

lemma length_of_mapM {ε α β : Type} {f : α → Except ε β} {xs : List α} {ys : List β}
    (h : xs.mapM f = .ok ys) : ys.length = xs.length := (mapM_ok h).length_eq.symm

lemma orderFromPayload_sound {item : BusinessOrder} (h : orderFromPayload v = .ok item) :
    item.Restorable := by
  unfold orderFromPayload at h
  obtain ⟨_, -, h⟩ := except_bind_ok.mp h
  obtain ⟨kind, hkind, h⟩ := except_bind_ok.mp h
  obtain ⟨target, htarget, h⟩ := except_bind_ok.mp h
  obtain ⟨direction, hdirection, h⟩ := except_bind_ok.mp h
  obtain ⟨nulls, hnulls, h⟩ := except_bind_ok.mp h
  rw [← except_pure_ok.mp h]
  exact ⟨conditionChoice_sound hkind, conditionText_sound htarget, conditionChoice_sound hdirection,
    conditionChoice_sound hnulls⟩

lemma aggregateFromPayload_sound {item : AggregateFilter}
    (h : aggregateFromPayload digit v = .ok item) : item.Restorable digit := by
  unfold aggregateFromPayload at h
  obtain ⟨_, -, h⟩ := except_bind_ok.mp h
  obtain ⟨operator, hoperator, h⟩ := except_bind_ok.mp h
  obtain ⟨items, hitems, h⟩ := except_bind_ok.mp h
  obtain ⟨values, hvalues, h⟩ := except_bind_ok.mp h
  obtain ⟨_, hcardinality, h⟩ := except_bind_ok.mp h
  obtain ⟨metric, hmetric, h⟩ := except_bind_ok.mp h
  rw [← except_pure_ok.mp h]
  refine ⟨conditionText_sound hmetric, conditionChoice_sound hoperator, ?_,
    forall_of_mapM hvalues fun _ _ _ hv => conditionDecimal_sound hv, require_ok.mp hcardinality⟩
  rw [length_of_mapM hvalues]
  exact conditionArray_sound hitems

lemma selectionFromPayload_sound {selection : Option EntitySelection}
    (h : selectionFromPayload v = .ok selection) : ∀ s ∈ selection, s.Restorable := by
  intro s hs
  unfold selectionFromPayload at h
  split at h
  · rw [← Except.ok.inj h] at hs
    cases hs
  · obtain ⟨_, -, h⟩ := except_bind_ok.mp h
    obtain ⟨items, hitems, h⟩ := except_bind_ok.mp h
    obtain ⟨fields, hfields, h⟩ := except_bind_ok.mp h
    obtain ⟨_, hchecked, h⟩ := except_bind_ok.mp h
    obtain ⟨hnonempty, hnodup, -⟩ := require_ok.mp hchecked
    rw [← except_pure_ok.mp h] at hs
    rw [← Option.some.inj hs]
    refine ⟨?_, forall_of_mapM hfields fun _ _ _ hf => conditionText_sound hf, hnonempty, hnodup⟩
    rw [length_of_mapM hfields]
    exact conditionArray_sound hitems

lemma limitFromPayload_sound {limit : Option Int} (h : limitFromPayload v = .ok limit) :
    ∀ n ∈ limit, 1 ≤ n ∧ n ≤ maxRowLimit := by
  intro n hn
  unfold limitFromPayload at h
  split at h
  · rw [← Except.ok.inj h] at hn
    cases hn
  · obtain ⟨_, hrange, h⟩ := except_bind_ok.mp h
    rw [← except_pure_ok.mp h] at hn
    rw [← Option.some.inj hn]
    exact require_ok.mp hrange
  · cases h

/-- The conditions that are read from JSON pass. -/
theorem conditionsFromPayload_sound {conditions : RestorationConditions}
    (h : conditionsFromPayload digit payload = .ok conditions) : conditions.Restorable digit := by
  unfold conditionsFromPayload at h
  obtain ⟨_, -, h⟩ := except_bind_ok.mp h
  obtain ⟨limit, hlimit, h⟩ := except_bind_ok.mp h
  obtain ⟨items, hitems, h⟩ := except_bind_ok.mp h
  obtain ⟨orderBy, horders, h⟩ := except_bind_ok.mp h
  obtain ⟨_, hidentities, h⟩ := except_bind_ok.mp h
  obtain ⟨items', hitems', h⟩ := except_bind_ok.mp h
  obtain ⟨aggregateFilters, haggregates, h⟩ := except_bind_ok.mp h
  obtain ⟨_, hmetrics, h⟩ := except_bind_ok.mp h
  obtain ⟨selection, hselection, h⟩ := except_bind_ok.mp h
  rw [← except_pure_ok.mp h]
  refine ⟨limitFromPayload_sound hlimit, ?_,
    forall_of_mapM horders fun _ _ _ ho => orderFromPayload_sound ho, require_ok.mp hidentities, ?_,
    forall_of_mapM haggregates fun _ _ _ ha => aggregateFromPayload_sound ha, require_ok.mp hmetrics,
    selectionFromPayload_sound hselection⟩
  · rw [length_of_mapM horders]
    exact conditionArray_sound hitems
  · rw [length_of_mapM haggregates]
    exact conditionArray_sound hitems'

/-- Conditions that pass are checked. -/
lemma RestorationConditions.Restorable.checked {conditions : RestorationConditions}
    (h : conditions.Restorable digit) : conditions.Checked digit where
  rowLimit := h.rowLimit
  orderCount := h.orderCount
  orderBy item hitem := by
    obtain ⟨hkind, htarget, hdirection, hnulls⟩ := h.orderBy item hitem
    exact ⟨hkind, fun _ => htarget, hdirection, hnulls⟩
  aggregateCount := h.aggregateCount
  aggregateFilters item hitem := by
    obtain ⟨-, hoperator, hcount, hvalues, hcardinality⟩ := h.aggregateFilters item hitem
    exact ⟨hoperator, hcount, hvalues, hcardinality⟩
  selection := h.selection

lemma requiredText_sound (h : requiredText v field = .ok s) : IsText s := by
  unfold requiredText at h
  rw [checked_bind_ok, require_ok, except_pure_ok] at h
  rw [← h.2]
  exact ⟨strip_strip _, h.1.2⟩

lemma stringList_sound {texts : List String} (h : stringList v field = .ok texts) :
    ∀ s ∈ texts, IsText s := by
  unfold stringList at h
  rw [checked_bind_ok] at h
  exact forall_of_mapM h.2 fun _ _ _ hs => requiredText_sound hs

lemma filterCandidate_sound {item : FilterCandidate} (h : filterCandidate v index = .ok item) :
    (ValidatedFilter.ofCandidate item).Restorable := by
  unfold filterCandidate at h
  obtain ⟨_, -, h⟩ := except_bind_ok.mp h
  obtain ⟨_, -, h⟩ := except_bind_ok.mp h
  obtain ⟨fieldText, htext, h⟩ := except_bind_ok.mp h
  obtain ⟨operator, -, h⟩ := except_bind_ok.mp h
  obtain ⟨values, hvalues, h⟩ := except_bind_ok.mp h
  obtain ⟨_, hnonempty, h⟩ := except_bind_ok.mp h
  obtain ⟨_, hcardinality, h⟩ := except_bind_ok.mp h
  rw [← except_pure_ok.mp h]
  exact ⟨requiredText_sound htext, stringList_sound hvalues, require_ok.mp hnonempty,
    require_ok.mp hcardinality⟩

/-- A query that is validated from JSON is checked. -/
theorem checked_of_payload
    {validateTime : TimeCandidate → Except SemanticQueryValidationError ValidatedTime}
    {candidate : SemanticQueryCandidate} {question : String} {query : ValidatedSemanticQuery}
    (hcandidate : candidateFromPayload digit payload true = .ok candidate)
    (hquery : validateCandidate validateTime candidate question = .ok query) :
    query.Checked digit := by
  unfold candidateFromPayload at hcandidate
  obtain ⟨_, -, h⟩ := except_bind_ok.mp hcandidate
  obtain ⟨_, -, h⟩ := except_bind_ok.mp h
  obtain ⟨queryType, -, h⟩ := except_bind_ok.mp h
  obtain ⟨subjects, hsubjects, h⟩ := except_bind_ok.mp h
  obtain ⟨metrics, -, h⟩ := except_bind_ok.mp h
  obtain ⟨dimensions, hdimensions, h⟩ := except_bind_ok.mp h
  obtain ⟨time, -, h⟩ := except_bind_ok.mp h
  obtain ⟨filters, hfilters, h⟩ := except_bind_ok.mp h
  obtain ⟨restorationConditions, hconditions, h⟩ := except_bind_ok.mp h
  obtain rfl := except_pure_ok.mp h
  obtain ⟨conditions, hread, rfl⟩ := except_map_ok.mp hconditions
  unfold filterCandidates at hfilters
  rw [checked_bind_ok] at hfilters
  unfold validateCandidate at hquery
  obtain ⟨_, -, h⟩ := except_bind_ok.mp hquery
  obtain ⟨_, hslots, h⟩ := except_bind_ok.mp h
  obtain ⟨_, hcount, h⟩ := except_bind_ok.mp h
  obtain ⟨time, -, h⟩ := except_bind_ok.mp h
  rw [← except_pure_ok.mp h]
  refine ⟨?_, require_ok.mp hcount, stringList_sound hsubjects, stringList_sound hdimensions, ?_, ?_⟩
  · rw [checkSlots_iff] at hslots ⊢
    exact hslots
  · intro f hf
    obtain ⟨item, hitem, rfl⟩ := List.mem_map.mp hf
    exact forall_of_mapM hfilters.2 (fun _ _ _ hc => filterCandidate_sound hc) item hitem
  · intro c hc
    obtain rfl := Option.some.inj hc
    exact (conditionsFromPayload_sound (mapError_iff.mp hread)).checked

end Reading

end ChatBI.Semantic
