import ChatBI.Lib.Slots
import ChatBI.Semantic.Query

/-!
# Revising a semantic query

The deterministic merge of a previous query with the delta of a follow-up question. Filters are
merged by their field. `casefold` is the case folding of texts; it stays a parameter.
-/

namespace ChatBI.Semantic

open ChatBI.Lib

section

variable (casefold : String → String)

def textKey (value : String) : String := casefold (compact value)

def filterKey (value : String) : String := textKey casefold value

def FilterCandidate.key (item : FilterCandidate) : String := filterKey casefold item.fieldText

def ValidatedFilter.toCandidate (item : ValidatedFilter) : FilterCandidate where
  fieldText := item.fieldText
  operator := item.operator
  values := item.values

def mergeFilters (previous : List ValidatedFilter) (current : List FilterCandidate) :
    List FilterCandidate :=
  (current.foldl (Slots.put (FilterCandidate.key casefold))
    (Slots.ofList (FilterCandidate.key casefold)
      (previous.map ValidatedFilter.toCandidate))).items

def appendUnique (previous current : List String) : List String :=
  current.foldl
    (fun result item =>
      if textKey casefold item ∈ result.map (textKey casefold) then result else result ++ [item])
    previous

variable (validateTime : TimeCandidate → Except SemanticQueryValidationError ValidatedTime)

def mergeAndValidate (previous : ValidatedSemanticQuery) (candidate : SemanticQueryCandidate)
    (question : String) (replaceDimensions : Bool) :
    Except SemanticQueryValidationError ValidatedSemanticQuery := do
  let validated ← validateCandidate validateTime {
      queryType :=
        if candidate.queryType = .unknown then previous.queryType else candidate.queryType
      subjects := if candidate.subjects = [] then previous.subjects else candidate.subjects
      metrics := if candidate.metrics = [] then previous.metrics else candidate.metrics
      dimensions :=
        if replaceDimensions then candidate.dimensions
        else appendUnique casefold previous.dimensions candidate.dimensions
      time := candidate.time
      filters := mergeFilters casefold previous.filters candidate.filters }
    question
  -- a delta without a time keeps the absolute time that was confirmed before
  return if candidate.time = none then { validated with time := previous.time } else validated

end

/-- The filters of a list on one field. -/
def filtersOn (casefold : String → String) (filters : List FilterCandidate) (field : String) :
    List FilterCandidate :=
  Slots.on (FilterCandidate.key casefold) filters field

/-- Field by field, the merged filters are those of the delta where it mentions the field and
those of the previous query elsewhere. -/
def MergedByField (casefold : String → String) (previous delta merged : List FilterCandidate) :
    Prop :=
  ∀ field, filtersOn casefold merged field =
    if filtersOn casefold delta field = [] then filtersOn casefold previous field
    else filtersOn casefold delta field

/-- On every field that the delta mentions, both lists have the same filters before their last
one. -/
def LastFiltersDiffer (casefold : String → String) (previous delta : List FilterCandidate) :
    Prop :=
  ∀ field, filtersOn casefold delta field ≠ [] →
    (filtersOn casefold previous field).dropLast = (filtersOn casefold delta field).dropLast

variable {casefold : String → String}
  {validateTime : TimeCandidate → Except SemanticQueryValidationError ValidatedTime}
  {previous merged : ValidatedSemanticQuery} {delta : SemanticQueryCandidate} {question : String}
  {replaceDimensions : Bool}

/-- What merging does to one field: the last filter of the delta takes the place of the last
one that was there. -/
theorem filtersOn_mergeFilters (filters : List ValidatedFilter) (current : List FilterCandidate)
    (field : String) :
    filtersOn casefold (mergeFilters casefold filters current) field =
      (filtersOn casefold current field).getLast?.elim
        (filtersOn casefold (filters.map ValidatedFilter.toCandidate) field)
        (fun item =>
          (filtersOn casefold (filters.map ValidatedFilter.toCandidate) field).dropLast ++
            [item]) := by
  have hindexed : (Slots.ofList (FilterCandidate.key casefold)
      (filters.map ValidatedFilter.toCandidate)).Indexed (FilterCandidate.key casefold) :=
    Slots.indexed_ofList
  have h : filtersOn casefold (mergeFilters casefold filters current) field = _ :=
    hindexed.on_foldl_put field
  rw [Slots.items_ofList] at h
  exact h

theorem mergedByField_mergeFilters_iff (filters : List ValidatedFilter)
    (current : List FilterCandidate) :
    MergedByField casefold (filters.map ValidatedFilter.toCandidate) current
        (mergeFilters casefold filters current) ↔
      LastFiltersDiffer casefold (filters.map ValidatedFilter.toCandidate) current := by
  apply forall_congr'
  intro field
  rw [filtersOn_mergeFilters]
  by_cases hd : filtersOn casefold current field = []
  · simp [hd]
  · have hlast := List.dropLast_concat_getLast hd
    rw [List.getLast?_eq_some_getLast hd, if_neg hd]
    constructor
    · intro h _
      have hsplit := h.trans hlast.symm
      exact (List.append_inj' hsplit rfl).1
    · intro h
      rw [h hd]
      exact hlast

/-- The filters of a merged query are the merged filters. -/
theorem mergeAndValidate_filters
    (h : mergeAndValidate casefold validateTime previous delta question replaceDimensions =
      .ok merged) :
    merged.filters.map ValidatedFilter.toCandidate =
      mergeFilters casefold previous.filters delta.filters := by
  simp only [mergeAndValidate, except_bind_ok, except_pure_ok] at h
  obtain ⟨validated, hv, hm⟩ := h
  have hf := congrArg ValidatedSemanticQuery.filters (validateCandidate_ok hv)
  have hmerged : merged.filters = validated.filters := by
    rw [← hm]
    split <;> rfl
  rw [hmerged, hf, List.map_map]
  exact List.map_id _

/-- Merging keeps the filters of the delta and no stale one exactly when each field that the
delta mentions has the same filters in both lists up to the last one; and the filters of a merged
query are the merged filters. -/
theorem mergeFilters_mergedByField_iff (casefold : String → String)
    (validateTime : TimeCandidate → Except SemanticQueryValidationError ValidatedTime)
    (previous : ValidatedSemanticQuery) (delta : SemanticQueryCandidate) (question : String)
    (replaceDimensions : Bool) :
    (MergedByField casefold (previous.filters.map ValidatedFilter.toCandidate) delta.filters
        (mergeFilters casefold previous.filters delta.filters) ↔
      LastFiltersDiffer casefold (previous.filters.map ValidatedFilter.toCandidate)
        delta.filters) ∧
      ∀ merged,
        mergeAndValidate casefold validateTime previous delta question replaceDimensions =
          .ok merged →
        merged.filters.map ValidatedFilter.toCandidate =
          mergeFilters casefold previous.filters delta.filters :=
  ⟨mergedByField_mergeFilters_iff previous.filters delta.filters,
    fun _ h => mergeAndValidate_filters h⟩

def asciiCasefold (s : String) : String := String.ofList (s.toList.map Char.toLower)

def salesQuery (filters : List ValidatedFilter) : ValidatedSemanticQuery where
  queryType := .metricAnalysis
  subjects := []
  metrics := ["net sales"]
  dimensions := []
  time := none
  filters
  originalQuestion := "net sales"

def filterDelta (filters : List FilterCandidate) : SemanticQueryCandidate where
  queryType := .unknown
  subjects := []
  metrics := []
  dimensions := []
  time := none
  filters

def noTime (_ : TimeCandidate) : Except SemanticQueryValidationError ValidatedTime :=
  .error (.cannotAnswer "日期表达无法标准化" "DATE_NOT_NORMALIZABLE")

/-- One bound replaced under another spelling of the field. -/
theorem mergeFilters_mergedByField_iff_replaced :
    let previous := salesQuery [⟨"Amount", .gte, ["10"]⟩, ⟨"region", .equals, ["east"]⟩]
    let delta := filterDelta [⟨"a mount", .lt, ["20"]⟩]
    mergeFilters asciiCasefold previous.filters delta.filters =
        [⟨"a mount", .lt, ["20"]⟩, ⟨"region", .equals, ["east"]⟩] ∧
      ((MergedByField asciiCasefold (previous.filters.map ValidatedFilter.toCandidate)
          delta.filters (mergeFilters asciiCasefold previous.filters delta.filters) ↔
        LastFiltersDiffer asciiCasefold (previous.filters.map ValidatedFilter.toCandidate)
          delta.filters) ∧
      ∀ merged, mergeAndValidate asciiCasefold noTime previous delta "below 20" false =
          .ok merged →
        merged.filters.map ValidatedFilter.toCandidate =
          mergeFilters asciiCasefold previous.filters delta.filters) :=
  ⟨by decide +kernel, mergeFilters_mergedByField_iff asciiCasefold noTime _ _ _ _⟩

/-- A range in the delta loses its lower bound. -/
theorem merge_loses_lower_bound :
    ∃ merged, mergeAndValidate asciiCasefold noTime (salesQuery [])
        (filterDelta [⟨"amount", .gte, ["10"]⟩, ⟨"amount", .lt, ["20"]⟩]) "from 10 to 20" false =
          .ok merged ∧
      merged.filters = [⟨"amount", .lt, ["20"]⟩] ∧
      ¬ MergedByField asciiCasefold [] [⟨"amount", .gte, ["10"]⟩, ⟨"amount", .lt, ["20"]⟩]
        (merged.filters.map ValidatedFilter.toCandidate) := by
  refine ⟨{ salesQuery [⟨"amount", .lt, ["20"]⟩] with originalQuestion := "from 10 to 20" },
    by decide +kernel, rfl, ?_⟩
  intro h
  have hamount := h "amount"
  revert hamount
  decide +kernel

end ChatBI.Semantic
