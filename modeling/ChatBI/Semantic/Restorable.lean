import ChatBI.Lib.Raises
import ChatBI.Semantic.Revision
import ChatBI.Semantic.Writing

/-!
# What can be restored

Conditions and queries whose JSON is read back as they are. Each reader gives back what its writer
wrote exactly when the value passes the checks of the reader and nothing is stripped from its texts.
-/

namespace ChatBI.Semantic

open ChatBI.Lib

/-- Nothing is stripped from the text, and something is there. -/
def IsText (s : String) : Prop := strip s = s ∧ s ≠ ""

/-- A text that a condition can hold. -/
def IsBounded (s : String) : Prop := IsText s ∧ s.length ≤ 200

structure BusinessOrder.Restorable (item : BusinessOrder) : Prop where
  targetKind : item.targetKind ∈ targetKinds
  target : IsBounded item.target
  direction : item.direction ∈ directions
  nulls : item.nulls ∈ nullPlacements

/-- The text is that of a finite number. -/
def IsNumeric (digit : Char → Option Nat) (text : String) : Prop :=
  ∃ literal : NumericText digit, literal.text = text

structure AggregateFilter.Restorable (digit : Char → Option Nat) (item : AggregateFilter) : Prop where
  metric : IsBounded item.metric
  operator : item.operator ∈ aggregateOperators
  count : item.values.length ≤ maxConditionItems
  values : ∀ v ∈ item.values, IsBounded v ∧ IsNumeric digit v
  cardinality : item.values ≠ [] ∧ (item.operator = "in" ∨ item.values.length = 1)

structure EntitySelection.Restorable (selection : EntitySelection) : Prop where
  count : selection.fields.length ≤ maxConditionItems
  fields : ∀ f ∈ selection.fields, IsBounded f
  nonempty : selection.fields ≠ []
  nodup : selection.fields.Nodup

structure RestorationConditions.Restorable (digit : Char → Option Nat)
    (conditions : RestorationConditions) : Prop where
  rowLimit : ∀ n ∈ conditions.rowLimit, 1 ≤ n ∧ n ≤ maxRowLimit
  orderCount : conditions.orderBy.length ≤ maxConditionItems
  orderBy : ∀ item ∈ conditions.orderBy, item.Restorable
  orders : (conditions.orderBy.map BusinessOrder.identity).Nodup
  aggregateCount : conditions.aggregateFilters.length ≤ maxConditionItems
  aggregateFilters : ∀ item ∈ conditions.aggregateFilters, item.Restorable digit
  aggregates : (conditions.aggregateFilters.map AggregateFilter.metric).Nodup
  selection : ∀ selection ∈ conditions.selection, selection.Restorable

section Texts

variable {s t : String} {items xs : List Json} {choices : List String} {digit : Char → Option Nat}

lemma boundedText_iff : boundedText s = .ok s ↔ IsBounded s := by
  unfold boundedText
  constructor
  · intro h
    split at h
    · cases h
    · next hbound =>
      rw [not_or] at hbound
      have hstrip := Except.ok.inj h
      exact ⟨⟨hstrip, fun hs => hbound.1 (hstrip.trans hs)⟩, by omega⟩
  · rintro ⟨⟨hstrip, hne⟩, hlength⟩
    rw [if_neg, hstrip]
    rw [hstrip, not_or]
    exact ⟨hne, by omega⟩

lemma conditionText_iff : conditionText (.str s) = .ok s ↔ IsBounded s := boundedText_iff

lemma conditionDecimal_iff :
    conditionDecimal digit (.str s) = .ok s ↔ IsBounded s ∧ IsNumeric digit s := by
  have hread : conditionDecimal digit (.str s) = NumericText.text <$> decimal digit s := rfl
  rw [hread, except_map_ok]
  constructor
  · rintro ⟨literal, hliteral, rfl⟩
    rw [decimal_ok_iff] at hliteral
    exact ⟨boundedText_iff.mp hliteral, literal, rfl⟩
  · rintro ⟨hbounded, literal, rfl⟩
    exact ⟨literal, decimal_ok_iff.mpr (boundedText_iff.mpr hbounded), rfl⟩

lemma conditionArray_iff :
    conditionArray (.arr items) = .ok xs ↔ items.length ≤ maxConditionItems ∧ items = xs := by
  unfold conditionArray
  rw [checked_bind_ok, require_ok, except_pure_ok]
  exact ⟨fun h => ⟨h.1.2, h.2⟩, fun h => ⟨⟨rfl, h.1⟩, h.2⟩⟩

lemma conditionChoice_iff : conditionChoice (.str s) choices = .ok t ↔ s ∈ choices ∧ s = t := by
  unfold conditionChoice
  rw [checked_bind_ok, require_ok, except_pure_ok]
  exact ⟨fun h => ⟨h.1.2, h.2⟩, fun h => ⟨⟨rfl, h.1⟩, h.2⟩⟩

end Texts

section Conditions

variable {digit : Char → Option Nat}

/-- An order is read back exactly when it passes. -/
lemma orderFromPayload_iff {item : BusinessOrder} :
    orderFromPayload item.toPayload = .ok item ↔ item.Restorable := by
  obtain ⟨targetKind, target, direction, nulls⟩ := item
  simp only [orderFromPayload, conditionObject, BusinessOrder.toPayload, Json.field_cons,
    except_bind_ok, exists_checked, except_pure_ok, conditionChoice_iff, BusinessOrder.mk.injEq,
    String.reduceEq, if_true, if_false]
  constructor
  · rintro ⟨-, _, ⟨hkind, rfl⟩, _, htarget, _, ⟨hdirection, rfl⟩, _, ⟨hnulls, rfl⟩, -, rfl, -, -⟩
    exact ⟨hkind, conditionText_iff.mp htarget, hdirection, hnulls⟩
  · rintro ⟨hkind, htarget, hdirection, hnulls⟩
    refine ⟨?_, _, ⟨hkind, rfl⟩, _, conditionText_iff.mpr htarget, _, ⟨hdirection, rfl⟩, _,
      ⟨hnulls, rfl⟩, rfl, rfl, rfl, rfl⟩
    simp [hasKeys, Json.members, Json.isDict]

/-- A filter on an aggregate is read back exactly when it passes. -/
lemma aggregateFromPayload_iff {item : AggregateFilter} :
    aggregateFromPayload digit item.toPayload = .ok item ↔ item.Restorable digit := by
  obtain ⟨metric, operator, values⟩ := item
  simp only [aggregateFromPayload, conditionObject, AggregateFilter.toPayload, textsJson,
    Json.field_cons, except_bind_ok, exists_checked, except_pure_ok, require_ok,
    conditionChoice_iff, conditionArray_iff, AggregateFilter.mk.injEq, String.reduceEq, if_true,
    if_false]
  have hvalues : (values.map Json.str).mapM (conditionDecimal digit) = .ok values ↔
      ∀ v ∈ values, IsBounded v ∧ IsNumeric digit v := by
    rw [mapM_map_ok_iff]
    simp only [conditionDecimal_iff]
  constructor
  · rintro ⟨-, _, ⟨hoperator, rfl⟩, _, ⟨hcount, rfl⟩, _, hread, hcardinality, _, hmetric, rfl, -, rfl⟩
    rw [List.length_map] at hcount
    exact ⟨conditionText_iff.mp hmetric, hoperator, hcount, hvalues.mp hread, hcardinality⟩
  · rintro ⟨hmetric, hoperator, hcount, hall, hcardinality⟩
    refine ⟨?_, _, ⟨hoperator, rfl⟩, _, ⟨by rwa [List.length_map], rfl⟩, _, hvalues.mpr hall,
      hcardinality, _, conditionText_iff.mpr hmetric, rfl, rfl, rfl⟩
    simp [hasKeys, Json.members, Json.isDict]

/-- A selection is read back exactly when it passes. -/
lemma selectionFromPayload_iff {selection : Option EntitySelection} :
    selectionFromPayload (optionalJson EntitySelection.toPayload selection) = .ok selection ↔
      ∀ s ∈ selection, s.Restorable := by
  cases selection with
  | none => simp [selectionFromPayload, optionalJson, Json.isNull]
  | some selection =>
    obtain ⟨fields, distinct⟩ := selection
    have hnull : (EntitySelection.toPayload ⟨fields, distinct⟩).isNull = false := rfl
    have hfields : (fields.map Json.str).mapM conditionText = .ok fields ↔
        ∀ f ∈ fields, IsBounded f := by
      rw [mapM_map_ok_iff]
      simp only [conditionText_iff]
    rw [selectionFromPayload, optionalJson, hnull, if_neg Bool.false_ne_true]
    simp only [conditionObject, EntitySelection.toPayload, textsJson, Json.field_cons,
      except_bind_ok, exists_checked, except_pure_ok, require_ok, conditionArray_iff,
      EntitySelection.mk.injEq, String.reduceEq, if_true, if_false, Option.some.injEq,
      Option.mem_some_iff, forall_eq']
    constructor
    · rintro ⟨-, _, ⟨hcount, rfl⟩, _, hread, ⟨hnonempty, hnodup, -⟩, rfl, -⟩
      rw [List.length_map] at hcount
      exact ⟨hcount, hfields.mp hread, hnonempty, hnodup⟩
    · rintro ⟨hcount, hall, hnonempty, hnodup⟩
      refine ⟨?_, _, ⟨by rwa [List.length_map], rfl⟩, _, hfields.mpr hall, ⟨hnonempty, hnodup, rfl⟩,
        rfl, ?_⟩
      · simp [hasKeys, Json.members, Json.isDict]
      · cases distinct <;> rfl

/-- A bound on the number of rows is read back exactly when it is in range. -/
lemma limitFromPayload_iff {limit : Option Int} :
    limitFromPayload (optionalJson .int limit) = .ok limit ↔
      ∀ n ∈ limit, 1 ≤ n ∧ n ≤ maxRowLimit := by
  cases limit with
  | none => simp [limitFromPayload, optionalJson]
  | some n =>
    rw [optionalJson, limitFromPayload, checked_bind_ok, require_ok]
    simp [Pure.pure, Except.pure]

/-- Conditions are read back exactly when they pass. -/
theorem conditionsFromPayload_iff {conditions : RestorationConditions} :
    conditionsFromPayload digit conditions.toPayload = .ok conditions ↔
      conditions.Restorable digit := by
  obtain ⟨orderBy, rowLimit, aggregateFilters, selection⟩ := conditions
  simp only [conditionsFromPayload, conditionObject, RestorationConditions.toPayload,
    Json.field_cons, except_bind_ok, exists_checked, except_pure_ok, require_ok,
    conditionArray_iff, RestorationConditions.mk.injEq, String.reduceEq, if_true, if_false]
  have horders : (orderBy.map BusinessOrder.toPayload).mapM orderFromPayload = .ok orderBy ↔
      ∀ item ∈ orderBy, item.Restorable := by
    rw [mapM_map_ok_iff]
    simp only [orderFromPayload_iff]
  have haggregates : (aggregateFilters.map AggregateFilter.toPayload).mapM
      (aggregateFromPayload digit) = .ok aggregateFilters ↔
        ∀ item ∈ aggregateFilters, item.Restorable digit := by
    rw [mapM_map_ok_iff]
    simp only [aggregateFromPayload_iff]
  constructor
  · rintro ⟨-, _, hlimit, _, ⟨hcount, rfl⟩, _, hread, hnodup, _, ⟨hcount', rfl⟩, _, hread', hnodup',
      _, hselection, rfl, rfl, rfl, rfl⟩
    rw [List.length_map] at hcount hcount'
    exact ⟨limitFromPayload_iff.mp hlimit, hcount, horders.mp hread, hnodup, hcount',
      haggregates.mp hread', hnodup', selectionFromPayload_iff.mp hselection⟩
  · rintro ⟨hlimit, hcount, hall, hnodup, hcount', hall', hnodup', hselection⟩
    refine ⟨?_, _, limitFromPayload_iff.mpr hlimit, _, ⟨by rwa [List.length_map], rfl⟩, _,
      horders.mpr hall, hnodup, _, ⟨by rwa [List.length_map], rfl⟩, _, haggregates.mpr hall',
      hnodup', _, selectionFromPayload_iff.mpr hselection, rfl, rfl, rfl, rfl⟩
    simp [hasKeys, Json.members, Json.isDict]

end Conditions

/-! ### Queries -/

structure ValidatedFilter.Restorable (item : ValidatedFilter) : Prop where
  fieldText : IsText item.fieldText
  values : ∀ v ∈ item.values, IsText v
  nonempty : item.values ≠ []
  cardinality : item.operator = .in ∨ item.values.length = 1

/-- The candidate that a query without its time is made of. -/
def ValidatedSemanticQuery.timeless (q : ValidatedSemanticQuery) : SemanticQueryCandidate where
  queryType := q.queryType
  subjects := q.subjects
  metrics := q.metrics
  dimensions := q.dimensions
  time := none
  filters := q.filters.map ValidatedFilter.toCandidate
  restorationConditions := q.restorationConditions

section Queries

variable {s field : String} {texts : List String} {digit : Char → Option Nat}

lemma requiredText_iff : requiredText (.str s) field = .ok s ↔ IsText s := by
  unfold requiredText
  rw [checked_bind_ok, require_ok, except_pure_ok]
  constructor
  · rintro ⟨⟨-, hne⟩, hstrip⟩
    have hstrip : strip s = s := hstrip
    exact ⟨hstrip, fun hs => hne (hstrip.trans hs)⟩
  · rintro ⟨hstrip, hne⟩
    exact ⟨⟨rfl, fun hs => hne (hstrip.symm.trans hs)⟩, hstrip⟩

lemma stringList_iff : stringList (textsJson texts) field = .ok texts ↔ ∀ s ∈ texts, IsText s := by
  unfold stringList
  rw [checked_bind_ok, require_ok]
  have hread : (textsJson texts).items.mapM (requiredText · field) = .ok texts ↔
      ∀ s ∈ texts, IsText s := by
    have hitems : (textsJson texts).items = texts.map .str := rfl
    rw [hitems, mapM_map_ok_iff]
    simp only [requiredText_iff]
  exact ⟨fun h => hread.mp h.2, fun h => ⟨rfl, hread.mpr h⟩⟩

lemma enumValue_queryType (t : QueryType) : enumValue queryTypes (.str t.value) field = .ok t := by
  cases t <;> rfl

lemma enumValue_operator (o : FilterOperator) :
    enumValue filterOperators (.str o.value) field = .ok o := by
  cases o <;> rfl

/-- A filter is read back exactly when it passes. -/
lemma filterCandidate_iff {item : ValidatedFilter} {index : ℕ} :
    filterCandidate item.json index = .ok item.toCandidate ↔ item.Restorable := by
  obtain ⟨fieldText, operator, values⟩ := item
  unfold filterCandidate
  simp only [ValidatedFilter.json, Json.field_cons, except_bind_ok, exists_checked, except_pure_ok,
    require_ok, enumValue_operator, ValidatedFilter.toCandidate, FilterCandidate.mk.injEq,
    String.reduceEq, if_true, if_false, Except.ok.injEq]
  constructor
  · rintro ⟨-, -, _, htext, _, rfl, _, hvalues, hnonempty, hcardinality, rfl, -, rfl⟩
    exact ⟨requiredText_iff.mp htext, stringList_iff.mp hvalues, hnonempty, hcardinality⟩
  · rintro ⟨htext, hvalues, hnonempty, hcardinality⟩
    exact ⟨rfl, rfl, _, requiredText_iff.mpr htext, _, rfl, _, stringList_iff.mpr hvalues, hnonempty,
      hcardinality, rfl, rfl, rfl⟩

lemma filterCandidates_iff {filters : List ValidatedFilter} :
    filterCandidates (.arr (filters.map ValidatedFilter.json)) =
      .ok (filters.map ValidatedFilter.toCandidate) ↔ ∀ f ∈ filters, f.Restorable := by
  unfold filterCandidates
  rw [checked_bind_ok, require_ok]
  have hread := mapM_zipIdx_iff @filterCandidate_iff filters 0
  exact ⟨fun h => hread.mp h.2, fun h => ⟨rfl, hread.mpr h⟩⟩

/-- The texts of the slots and the filters of a query, and its conditions. -/
structure ValidatedSemanticQuery.Readable (digit : Char → Option Nat) (q : ValidatedSemanticQuery) :
    Prop where
  subjects : ∀ s ∈ q.subjects, IsText s
  metrics : ∀ s ∈ q.metrics, IsText s
  dimensions : ∀ s ∈ q.dimensions, IsText s
  filters : ∀ f ∈ q.filters, f.Restorable
  conditions : ∃ c ∈ q.restorationConditions, c.Restorable digit

/-- The object of a query without its time. -/
def ValidatedSemanticQuery.timelessJson (q : ValidatedSemanticQuery)
    (conditions : RestorationConditions) : Json :=
  .obj [("query_type", .str q.queryType.value), ("subjects", textsJson q.subjects),
    ("metrics", textsJson q.metrics), ("dimensions", textsJson q.dimensions), ("time", .null),
    ("filters", .arr (q.filters.map ValidatedFilter.json)), ("conditions", conditions.toPayload)]

lemma checkSlots_iff {candidate : SemanticQueryCandidate} : checkSlots candidate = .ok () ↔
    candidate.queryType = .entityLookup ∧ candidate.subjects ≠ [] ∧ candidate.metrics = [] ∨
      candidate.queryType = .metricAnalysis ∧ candidate.metrics ≠ [] := by
  unfold checkSlots
  cases candidate.queryType with
  | unknown => simp
  | entityLookup =>
    rw [checked_bind_ok, require_ok, require_ok]
    simp
  | metricAnalysis =>
    rw [require_ok]
    simp

lemma mapError_iff {ε ε' α : Type} {x : Except ε α} {f : ε → ε'} {a : α} :
    x.mapError f = .ok a ↔ x = .ok a := by
  cases x <;> simp [Except.mapError]

/-- How the object of a query without its time is read. -/
lemma candidateFromPayload_timeless {q : ValidatedSemanticQuery}
    {conditions : RestorationConditions} :
    candidateFromPayload digit (q.timelessJson conditions) true = (do
      let queryType ← enumValue queryTypes (.str q.queryType.value) "query_type"
      let subjects ← stringList (textsJson q.subjects) "subjects"
      let metrics ← stringList (textsJson q.metrics) "metrics"
      let dimensions ← stringList (textsJson q.dimensions) "dimensions"
      let filters ← filterCandidates (.arr (q.filters.map ValidatedFilter.json))
      let restorationConditions ← some <$> restorableConditions digit (q.timelessJson conditions)
      return {
        queryType, subjects, metrics, dimensions, time := none, filters, restorationConditions }) := by
  have hfields : ∀ missing extra, checkFields (q.timelessJson conditions)
      (candidateFields ++ ["conditions"]) missing extra = .ok () := by
    intro missing extra
    rw [checkFields, checked_bind_ok, require_ok, require_ok]
    simp [candidateFields, ValidatedSemanticQuery.timelessJson, Json.members]
  unfold candidateFromPayload
  rw [if_pos rfl, hfields]
  rfl

/-- The candidate of a query is read back exactly when its texts and conditions are. -/
theorem candidateFromPayload_iff {q : ValidatedSemanticQuery} {conditions : RestorationConditions}
    (hconditions : q.restorationConditions = some conditions) :
    candidateFromPayload digit (q.timelessJson conditions) true = .ok q.timeless ↔
      q.Readable digit := by
  have hrestorable : restorableConditions digit (q.timelessJson conditions) = .ok conditions ↔
      conditions.Restorable digit := by
    rw [restorableConditions, mapError_iff]
    exact conditionsFromPayload_iff
  rw [candidateFromPayload_timeless]
  simp only [enumValue_queryType, except_bind_ok, except_pure_ok, except_map_ok, Except.ok.injEq,
    ValidatedSemanticQuery.timeless, SemanticQueryCandidate.mk.injEq, hconditions]
  constructor
  · rintro ⟨_, rfl, _, hsubjects, _, hmetrics, _, hdimensions, _, hfilters, _, ⟨_, hread, rfl⟩, -,
      rfl, rfl, rfl, -, rfl, hsome⟩
    obtain rfl := Option.some.inj hsome
    exact ⟨stringList_iff.mp hsubjects, stringList_iff.mp hmetrics, stringList_iff.mp hdimensions,
      filterCandidates_iff.mp hfilters, _, hconditions, hrestorable.mp hread⟩
  · rintro ⟨hsubjects, hmetrics, hdimensions, hfilters, _, hsome, hread⟩
    obtain rfl := Option.some.inj (hconditions.symm.trans hsome)
    exact ⟨_, rfl, _, stringList_iff.mpr hsubjects, _, stringList_iff.mpr hmetrics, _,
      stringList_iff.mpr hdimensions, _, filterCandidates_iff.mpr hfilters, _,
      ⟨_, hrestorable.mpr hread, rfl⟩, rfl, rfl, rfl, rfl, trivial, rfl, rfl⟩

end Queries

end ChatBI.Semantic
