import ChatBI.Lib.Tally
import ChatBI.Semantic.MetricNames
import Mathlib.Data.String.Basic

/-!
# What a plan of metrics promises

A plan that succeeds selects one document for every requested text, lists the documents in the order
in which they are mentioned first, and only combines metrics of one source, one time field and one
set of filters. The order in which the hits of a text were retrieved does not change the plan.
-/

namespace ChatBI.Semantic

open ChatBI.Lib

/-! ### The order of the hits -/

section Hits

lemma bestHits_append_new {hits : List MetricHit} {last : MetricHit}
    (h : Dict.get? (bestHits hits) last.documentId = none) :
    bestHits (hits ++ [last]) = Dict.set (bestHits hits) last.documentId last := by
  unfold bestHits at h ⊢
  rw [List.foldl_append, List.foldl_cons, List.foldl_nil, h]

lemma bestHits_append_known {hits : List MetricHit} {last previous : MetricHit}
    (h : Dict.get? (bestHits hits) last.documentId = some previous) :
    bestHits (hits ++ [last]) =
      if previous.score < last.score then Dict.set (bestHits hits) last.documentId last
      else bestHits hits := by
  unfold bestHits at h ⊢
  rw [List.foldl_append, List.foldl_cons, List.foldl_nil, h]

/-- A hit of one document leaves the best hits of the others. -/
lemma bestHits_append_of_ne {hits : List MetricHit} {last : MetricHit} {document : String}
    (h : last.documentId ≠ document) :
    Dict.get? (bestHits (hits ++ [last])) document = Dict.get? (bestHits hits) document := by
  cases hprevious : Dict.get? (bestHits hits) last.documentId with
  | none => rw [bestHits_append_new hprevious, Dict.get?_set_of_ne h]
  | some previous =>
    rw [bestHits_append_known hprevious]
    split
    · rw [Dict.get?_set_of_ne h]
    · rfl

/-- The best hit of a document has the highest score. -/
lemma score_le_best {hits : List MetricHit} {document : String} {best : MetricHit}
    (h : Dict.get? (bestHits hits) document = some best) :
    ∀ hit ∈ hits, hit.documentId = document → hit.score ≤ best.score := by
  induction hits using List.reverseRecOn generalizing document best with
  | nil => exact fun _ hhit => absurd hhit List.not_mem_nil
  | append_singleton hits last ih =>
    intro hit hhit hdocument
    by_cases hlast : last.documentId = document
    · subst hlast
      cases hprevious : Dict.get? (bestHits hits) last.documentId with
      | none =>
        rw [bestHits_append_new hprevious] at h
        obtain rfl : last = best := Option.some.inj (Dict.get?_set_self.symm.trans h)
        rcases List.mem_append.mp hhit with hold | hnew
        · have hcovers := (bests_bestHits hits).covers hit hold
          rw [hdocument] at hcovers
          exact absurd hprevious hcovers
        · rw [List.mem_singleton.mp hnew]
      | some previous =>
        have hbefore : ∀ other ∈ hits, other.documentId = last.documentId →
            other.score ≤ previous.score := ih hprevious
        rw [bestHits_append_known hprevious] at h
        split at h
        · next hhigher =>
          obtain rfl : last = best := Option.some.inj (Dict.get?_set_self.symm.trans h)
          rcases List.mem_append.mp hhit with hold | hnew
          · exact (hbefore hit hold hdocument).trans (le_of_lt hhigher)
          · rw [List.mem_singleton.mp hnew]
        · next hlower =>
          obtain rfl : previous = best := Option.some.inj (hprevious.symm.trans h)
          rcases List.mem_append.mp hhit with hold | hnew
          · exact hbefore hit hold hdocument
          · rw [List.mem_singleton.mp hnew]
            exact not_lt.mp hlower
    · rw [bestHits_append_of_ne hlast] at h
      rcases List.mem_append.mp hhit with hold | hnew
      · exact ih h hit hold hdocument
      · rw [List.mem_singleton.mp hnew] at hdocument
        exact absurd hdocument hlast

lemma best_mem {hits : List MetricHit} {document : String} {best : MetricHit}
    (h : Dict.get? (bestHits hits) document = some best) :
    best ∈ hits ∧ best.documentId = document := by
  obtain ⟨hmem, hkey⟩ := (bests_bestHits hits).entries _ (Dict.mem_of_get? h)
  exact ⟨hmem, hkey.symm⟩

/-- Hits of a catalog are told by their document and their score. -/
lemma hit_ext {catalog : String → MetricMetadata} {hit hit' : MetricHit}
    (hfrom : hit.metadata = catalog hit.documentId) (hfrom' : hit'.metadata = catalog hit'.documentId)
    (hdocument : hit.documentId = hit'.documentId) (hscore : hit.score = hit'.score) : hit = hit' := by
  have hmetadata : hit.metadata = hit'.metadata := by
    rw [hfrom, hfrom', hdocument]
  cases hit
  cases hit'
  simp_all

/-- `(-item.score, item.document_id)` is not above that of the other. -/
def MetricHit.Ranked (a b : MetricHit) : Prop :=
  b.score < a.score ∨ a.score = b.score ∧ a.documentId ≤ b.documentId

instance : DecidableRel MetricHit.Ranked := fun a b =>
  inferInstanceAs (Decidable (b.score < a.score ∨ a.score = b.score ∧ a.documentId ≤ b.documentId))

instance : Std.Total MetricHit.Ranked where
  total a b := by
    rcases lt_trichotomy a.score b.score with hlt | heq | hgt
    · exact .inr (.inl hlt)
    · rcases le_total a.documentId b.documentId with hle | hge
      · exact .inl (.inr ⟨heq, hle⟩)
      · exact .inr (.inr ⟨heq.symm, hge⟩)
    · exact .inl (.inl hgt)

instance : IsTrans MetricHit MetricHit.Ranked where
  trans a b c := by
    rintro (hab | ⟨hab, hdocument⟩) (hbc | ⟨hbc, hdocument'⟩)
    · exact .inl (hbc.trans hab)
    · exact .inl (lt_of_eq_of_lt hbc.symm hab)
    · exact .inl (lt_of_lt_of_eq hbc hab.symm)
    · exact .inr ⟨hab.trans hbc, hdocument.trans hdocument'⟩

lemma ranked_rankedHits (best : Dict String MetricHit) :
    (rankedHits best).Pairwise MetricHit.Ranked := List.pairwise_insertionSort _ _

variable {catalog : String → MetricMetadata} {hits hits' : List MetricHit}
  (hcatalog : ∀ hit ∈ hits, hit.metadata = catalog hit.documentId) (hperm : hits.Perm hits')
include hcatalog hperm

lemma get?_bestHits_congr (document : String) :
    Dict.get? (bestHits hits) document = Dict.get? (bestHits hits') document := by
  have hnone : Dict.get? (bestHits hits) document = none ↔
      Dict.get? (bestHits hits') document = none := by
    constructor
    · intro h
      by_contra h'
      obtain ⟨best, hbest⟩ := Option.ne_none_iff_exists'.mp h'
      obtain ⟨hmem, hdocument⟩ := best_mem hbest
      have hcovers := (bests_bestHits hits).covers best (hperm.mem_iff.mpr hmem)
      rw [hdocument] at hcovers
      exact hcovers h
    · intro h'
      by_contra h
      obtain ⟨best, hbest⟩ := Option.ne_none_iff_exists'.mp h
      obtain ⟨hmem, hdocument⟩ := best_mem hbest
      have hcovers := (bests_bestHits hits').covers best (hperm.mem_iff.mp hmem)
      rw [hdocument] at hcovers
      exact hcovers h'
  cases hbest : Dict.get? (bestHits hits) document with
  | none => exact (hnone.mp hbest).symm
  | some best =>
    cases hbest' : Dict.get? (bestHits hits') document with
    | none =>
      rw [hnone.mpr hbest'] at hbest
      cases hbest
    | some best' =>
      obtain ⟨hmem, hdocument⟩ := best_mem hbest
      obtain ⟨hmem', hdocument'⟩ := best_mem hbest'
      have hle : best.score ≤ best'.score :=
        score_le_best hbest' best (hperm.mem_iff.mp hmem) hdocument
      have hge : best'.score ≤ best.score :=
        score_le_best hbest best' (hperm.mem_iff.mpr hmem') hdocument'
      rw [hit_ext (hcatalog best hmem) (hcatalog best' (hperm.mem_iff.mpr hmem'))
        (hdocument.trans hdocument'.symm) (le_antisymm hle hge)]

lemma rankedHits_congr : rankedHits (bestHits hits) = rankedHits (bestHits hits') := by
  have hbest : (bestHits hits).Perm (bestHits hits') :=
    Dict.perm_of_get?_eq (bests_bestHits hits).nodup (bests_bestHits hits').nodup
      (get?_bestHits_congr hcatalog hperm)
  have hranked : (rankedHits (bestHits hits)).Perm (rankedHits (bestHits hits')) :=
    (perm_rankedHits _).trans ((hbest.map Prod.snd).trans (perm_rankedHits _).symm)
  apply hranked.eq_of_pairwise _ (ranked_rankedHits _) (ranked_rankedHits _)
  intro a b ha hb hab hba
  have hfromA : a.metadata = catalog a.documentId := hcatalog a (mem_of_mem_ranked ha)
  have hfromB : b.metadata = catalog b.documentId :=
    hcatalog b (hperm.mem_iff.mpr (mem_of_mem_ranked hb))
  rcases hab with hlt | ⟨hscore, hdocument⟩
  · rcases hba with hlt' | ⟨hscore', -⟩
    · exact absurd hlt (lt_asymm hlt')
    · exact absurd hscore' hlt.ne
  · rcases hba with hlt' | ⟨-, hdocument'⟩
    · exact absurd hscore hlt'.ne
    · exact hit_ext hfromA hfromB (le_antisymm hdocument hdocument') hscore

end Hits

section Plans

variable {casefold : String → String} {isAlnum : Char → Bool}
  {parseFilter : String → Except String (List String)} {catalog : String → MetricMetadata}

lemma selectHit_congr (requestedText : String) {hits hits' : List MetricHit}
    (hcatalog : ∀ hit ∈ hits, hit.metadata = catalog hit.documentId) (hperm : hits.Perm hits') :
    selectHit casefold isAlnum requestedText hits = selectHit casefold isAlnum requestedText hits' := by
  have hmatching : matchingHits casefold isAlnum requestedText hits =
      matchingHits casefold isAlnum requestedText hits' := by
    have hmatches : ∀ hit ∈ hits.filter (MetricHit.Matches casefold isAlnum requestedText),
        hit.metadata = catalog hit.documentId :=
      fun hit hhit => hcatalog hit (List.mem_of_mem_filter hhit)
    exact rankedHits_congr hmatches (hperm.filter _)
  have hdocuments : (hits.map MetricHit.documentId).dedup.length =
      (hits'.map MetricHit.documentId).dedup.length :=
    (hperm.map MetricHit.documentId).dedup.length_eq
  unfold selectHit
  rw [hmatching, hdocuments]

lemma selectHits_congr {metricHitsByQuery metricHitsByQuery' : List (List MetricHit)}
    (hperm : List.Forall₂ List.Perm metricHitsByQuery metricHitsByQuery')
    (hcatalog : FromCatalog catalog metricHitsByQuery) (metrics : List String) (index : ℕ)
    (selected : List (MetricMention × MetricHit)) :
    selectHits casefold isAlnum index selected (metrics.zip metricHitsByQuery) =
      selectHits casefold isAlnum index selected (metrics.zip metricHitsByQuery') := by
  induction hperm generalizing metrics index selected with
  | nil => rfl
  | @cons hits hits' rest rest' hhits hrest ih =>
    cases metrics with
    | nil => rfl
    | cons text metrics =>
      have hselect : selectHit casefold isAlnum text hits = selectHit casefold isAlnum text hits' :=
        selectHit_congr text (hcatalog hits List.mem_cons_self) hhits
      have hcatalog' : FromCatalog catalog rest :=
        fun others hothers => hcatalog others (List.mem_cons_of_mem hits hothers)
      rw [List.zip_cons_cons, List.zip_cons_cons]
      unfold selectHits
      rw [← hselect]
      cases selectHit casefold isAlnum text hits with
      | error e => rfl
      | ok hit => exact ih hcatalog' metrics (index + 1) _

/-- The order in which the hits of a text were retrieved does not change the plan. -/
lemma planRetrievedMetrics_congr (query : Option ValidatedSemanticQuery)
    {metricHitsByQuery metricHitsByQuery' : List (List MetricHit)}
    (hperm : List.Forall₂ List.Perm metricHitsByQuery metricHitsByQuery')
    (hcatalog : FromCatalog catalog metricHitsByQuery) :
    planRetrievedMetrics casefold isAlnum parseFilter query metricHitsByQuery =
      planRetrievedMetrics casefold isAlnum parseFilter query metricHitsByQuery' := by
  cases query with
  | none => rfl
  | some query =>
    unfold planRetrievedMetrics
    dsimp only
    rw [hperm.length_eq, selectHits_congr hperm hcatalog]

/-! ### A plan that succeeds -/

/-- The first selections have the documents in the order of their first mentions. -/
lemma documents_uniqueSelections (selected : List (MetricMention × MetricHit)) :
    (uniqueSelections selected).map (fun item => item.1.documentId) =
      (selected.map fun item => item.1.documentId).eraseDups := by
  induction selected using List.reverseRecOn with
  | nil => rfl
  | append_singleton selected item ih =>
    have hstep : uniqueSelections (selected ++ [item]) =
        if item.1.documentId ∈ (uniqueSelections selected).map fun other => other.1.documentId then
          uniqueSelections selected
        else uniqueSelections selected ++ [item] := by
      unfold uniqueSelections
      rw [List.foldl_append]
      rfl
    rw [hstep, List.map_append, List.eraseDups_append]
    by_cases hmem : item.1.documentId ∈ (uniqueSelections selected).map fun other => other.1.documentId
    · rw [if_pos hmem, ih]
      rw [ih, List.mem_eraseDups] at hmem
      simp [List.removeAll, hmem]
    · rw [if_neg hmem, List.map_append, ih]
      rw [ih, List.mem_eraseDups] at hmem
      simp [List.removeAll, hmem, List.eraseDups_cons]

/-- The constraints agree on the source, the time field and the set of filters. -/
def Combinable (casefold : String → String) (parseFilter : String → Except String (List String))
    (c d : MetricConstraint) : Prop :=
  casefold (strip c.dataSource) = casefold (strip d.dataSource) ∧
    casefold (compact c.timeField) = casefold (compact d.timeField) ∧
      ∃ filters, canonicalFilters parseFilter c.filters = .ok filters ∧
        canonicalFilters parseFilter d.filters = .ok filters

lemma combinable_of_compatible {constraints : List MetricConstraint}
    (h : compatible casefold parseFilter constraints = .ok true) :
    ∀ c ∈ constraints, ∀ d ∈ constraints, Combinable casefold parseFilter c d := by
  unfold compatible at h
  obtain ⟨filters, hfilters, h⟩ := except_bind_ok.mp h
  have hall : (constraints.map fun constraint => casefold (strip constraint.dataSource)).dedup.length = 1 ∧
      (constraints.map fun constraint => casefold (compact constraint.timeField)).dedup.length = 1 ∧
        filters.dedup.length = 1 := by
    simpa using h
  obtain ⟨hsources, htimes, hsame⟩ := hall
  have hforall := mapM_ok hfilters
  intro c hc d hd
  obtain ⟨cFilters, hcMem, hcFilters⟩ := exists_right hforall hc
  obtain ⟨dFilters, hdMem, hdFilters⟩ := exists_right hforall hd
  have heq : cFilters = dFilters := by
    rw [← List.map_id filters] at hsame
    exact eq_of_dedup_length hsame hcMem hdMem
  refine ⟨eq_of_dedup_length hsources hc hd, eq_of_dedup_length htimes hc hd, cFilters, hcFilters, ?_⟩
  rw [heq]
  exact hdFilters

/-- A plan that succeeds has the mentions of the selections and one constraint for each of the first
selections. -/
lemma planSelections_of_success {selected : List (MetricMention × MetricHit)}
    (h : (planSelections casefold parseFilter selected).status = .success) :
    ∃ constraints, planSelections casefold parseFilter selected =
        ⟨.success, selected.map Prod.fst, constraints, ""⟩ ∧
      List.Forall₂ (fun item constraint =>
        constraintFromHit item.2 item.1.2 item.1.1.requestedText = .ok constraint)
        ((uniqueSelections selected).zipIdx 1) constraints ∧
      compatible casefold parseFilter constraints = .ok true := by
  unfold planSelections at h ⊢
  dsimp only at h ⊢
  split at h
  · cases h
  · next hcount =>
    rw [if_neg hcount]
    split at h
    · cases h
    · next constraints hconstraints =>
      split at h
      · cases h
      · cases h
      · next hcompatible => exact ⟨constraints, rfl, mapM_ok hconstraints, hcompatible⟩

/-- What a plan that succeeds promises. -/
structure Promises (casefold : String → String) (isAlnum : Char → Bool)
    (parseFilter : String → Except String (List String)) (metrics : List String)
    (metricHitsByQuery : List (List MetricHit)) (plan : MetricRequestPlan) : Prop where
  complete : metricHitsByQuery.length = metrics.length
  mentioned : List.Forall₂ (fun request mention => mention.requestedText = request.1 ∧
    ∃ hit, Selects casefold isAlnum request.1 request.2 hit ∧ mention.documentId = hit.documentId)
    (metrics.zip metricHitsByQuery) plan.mentions
  inOrder : plan.constraints.map MetricConstraint.documentId =
    (plan.mentions.map MetricMention.documentId).eraseDups
  distinct : (plan.constraints.map MetricConstraint.documentId).Nodup
  covered : ∀ mention ∈ plan.mentions,
    mention.documentId ∈ plan.constraints.map MetricConstraint.documentId
  certified : ∀ c ∈ plan.constraints, ∃ hits ∈ metricHitsByQuery, ∃ hit ∈ hits,
    hit.documentId = c.documentId ∧ constraintFromHit c.ordinal hit c.requestedText = .ok c
  combinable : ∀ c ∈ plan.constraints, ∀ d ∈ plan.constraints, Combinable casefold parseFilter c d

lemma constraintFromHit_eq {ordinal : ℕ} {hit : MetricHit} {requestedText : String}
    {constraint : MetricConstraint}
    (h : constraintFromHit ordinal hit requestedText = .ok constraint) :
    constraint.ordinal = ordinal ∧ constraint.requestedText = requestedText := by
  unfold constraintFromHit at h
  simp only [except_bind_ok, except_pure_ok] at h
  obtain ⟨_, -, _, -, _, -, _, -, _, -, rfl⟩ := h
  exact ⟨rfl, rfl⟩

/-- A plan that succeeds is the plan of its selections. -/
lemma planRetrievedMetrics_of_success {query : ValidatedSemanticQuery}
    {metricHitsByQuery : List (List MetricHit)}
    (h : (planRetrievedMetrics casefold isAlnum parseFilter (some query)
      metricHitsByQuery).status = .success) :
    metricHitsByQuery.length = query.metrics.length ∧ ∃ selected,
      List.Forall₂ (Selected casefold isAlnum) (query.metrics.zip metricHitsByQuery) selected ∧
        planRetrievedMetrics casefold isAlnum parseFilter (some query) metricHitsByQuery =
          planSelections casefold parseFilter selected := by
  unfold planRetrievedMetrics at h ⊢
  dsimp only at h ⊢
  split at h
  · cases h
  · next hcount =>
    rw [if_neg hcount]
    split at h
    · cases h
    · next hlength =>
      rw [if_neg hlength]
      split at h
      · next hselected => exact absurd h (selectHits_ne_success hselected)
      · next selected hselected =>
        obtain ⟨tail, htail, hselections⟩ := selected_of_selectHits hselected
        rw [List.nil_append] at htail
        subst htail
        exact ⟨not_not.mp hlength, selected, hselections, rfl⟩

lemma promises_of_success {query : ValidatedSemanticQuery} {metricHitsByQuery : List (List MetricHit)}
    (h : (planRetrievedMetrics casefold isAlnum parseFilter (some query)
      metricHitsByQuery).status = .success) :
    Promises casefold isAlnum parseFilter query.metrics metricHitsByQuery
      (planRetrievedMetrics casefold isAlnum parseFilter (some query) metricHitsByQuery) := by
  obtain ⟨hlength, selected, hselections, hplan⟩ := planRetrievedMetrics_of_success h
  rw [hplan] at h ⊢
  obtain ⟨constraints, heq, hconstraints, hcompatible⟩ := planSelections_of_success h
  have hchosen := (planSelections_success h).2
  rw [heq] at hchosen ⊢
  have hunique := firsts_uniqueSelections selected
  have hdocuments : constraints.map MetricConstraint.documentId =
      (uniqueSelections selected).map fun item => item.1.documentId := by
    rw [show constraints.map MetricConstraint.documentId = _ from hchosen]
    apply List.map_congr_left
    intro item hitem
    obtain ⟨request, -, hrequest⟩ := exists_left hselections (hunique.subset item hitem)
    exact hrequest.document.symm
  have hmentions : (selected.map Prod.fst).map MetricMention.documentId =
      selected.map fun item => item.1.documentId := List.map_map
  constructor
  case complete => exact hlength
  case mentioned =>
    change List.Forall₂ _ _ (selected.map Prod.fst)
    rw [List.forall₂_map_right_iff]
    apply hselections.imp
    intro request item hrequest
    exact ⟨hrequest.text, item.2, hrequest.selects, hrequest.document⟩
  case inOrder => rw [hdocuments, hmentions, documents_uniqueSelections]
  case distinct =>
    rw [hdocuments]
    exact hunique.nodup
  case covered =>
    intro mention hmention
    obtain ⟨item, hitem, rfl⟩ := List.mem_map.mp hmention
    obtain ⟨first, hfirst, hdocument⟩ := hunique.covers item hitem
    rw [hdocuments, ← hdocument]
    exact List.mem_map_of_mem hfirst
  case certified =>
    intro c hc
    obtain ⟨⟨item, ordinal⟩, hitem, hok⟩ := exists_left hconstraints hc
    have hmem : item ∈ uniqueSelections selected := List.fst_mem_of_mem_zipIdx hitem
    obtain ⟨request, hrequest, hselected⟩ := exists_left hselections (hunique.subset item hmem)
    obtain ⟨hordinal, htext⟩ := constraintFromHit_eq hok
    refine ⟨request.2, mem_hits_of_zip hrequest, item.2, hselected.selects.mem, ?_, ?_⟩
    · exact (constraintFromHit_documentId hok).symm
    · rw [hordinal, htext]
      exact hok
  case combinable => exact combinable_of_compatible hcompatible

/-- A plan that succeeds keeps its promises, and no plan depends on the order of the hits. -/
theorem plan_promises_and_ignores_order (catalog : String → MetricMetadata)
    (query : Option ValidatedSemanticQuery) (metricHitsByQuery : List (List MetricHit))
    (hcatalog : FromCatalog catalog metricHitsByQuery) :
    (∀ plan, planRetrievedMetrics casefold isAlnum parseFilter query metricHitsByQuery = plan →
      plan.status = .success → ∃ q, query = some q ∧
        Promises casefold isAlnum parseFilter q.metrics metricHitsByQuery plan) ∧
      ∀ metricHitsByQuery', List.Forall₂ List.Perm metricHitsByQuery metricHitsByQuery' →
        planRetrievedMetrics casefold isAlnum parseFilter query metricHitsByQuery' =
          planRetrievedMetrics casefold isAlnum parseFilter query metricHitsByQuery := by
  constructor
  · rintro plan rfl hsuccess
    cases query with
    | none => cases hsuccess
    | some query => exact ⟨query, rfl, promises_of_success hsuccess⟩
  · intro metricHitsByQuery' hperm
    exact (planRetrievedMetrics_congr query hperm hcatalog).symm

end Plans

/-- The facts on the gross profit, which shares an alias with the net sales. -/
def grossProfit : MetricMetadata where
  metricName := "人民币毛利"
  aliases := ["毛利", "销售额"]
  formula := "SUM(gross_profit_amount_cny)"
  dataSource := "mart_sales.fct_sales_order_line"
  timeField := "completion_date_key"
  filters := ["order_status = 'completed'"]
  dependsOn := []
  stripped := by decide +kernel

def grossProfitHit : MetricHit := ⟨"metric:人民币毛利", 4 / 5, grossProfit⟩

def profitCatalog (documentId : String) : MetricMetadata :=
  if documentId = "metric:人民币毛利" then grossProfit else netSales

/-- What is retrieved for two texts: the net sales twice, and both metrics for either text. -/
def profitHits : List (List MetricHit) :=
  [[netSalesHit, grossProfitHit, { netSalesHit with score := 7 / 10 }],
    [netSalesHit, grossProfitHit]]

lemma fromCatalog_profit : FromCatalog profitCatalog profitHits := by
  have hgross : profitCatalog grossProfitHit.documentId = grossProfit := if_pos rfl
  have hnet : profitCatalog netSalesHit.documentId = netSales := if_neg (by decide +kernel)
  intro hits hhits hit hhit
  simp only [profitHits, List.mem_cons, List.not_mem_nil, or_false] at hhits
  rcases hhits with rfl | rfl <;>
    simp only [List.mem_cons, List.not_mem_nil, or_false] at hhit
  · rcases hhit with rfl | rfl | rfl
    · exact hnet.symm
    · exact hgross.symm
    · exact hnet.symm
  · rcases hhit with rfl | rfl
    · exact hnet.symm
    · exact hgross.symm

/-- Two texts that both metrics are retrieved for, and the same hits in another order. -/
theorem plan_promises_and_ignores_order_profit :
    Promises id Char.isAlphanum (fun filter => .ok [filter]) ["净销售额", "毛利"] profitHits
        (planRetrievedMetrics id Char.isAlphanum (fun filter => .ok [filter])
          (some (metricQuery ["净销售额", "毛利"])) profitHits) ∧
      planRetrievedMetrics id Char.isAlphanum (fun filter => .ok [filter])
          (some (metricQuery ["净销售额", "毛利"])) (profitHits.map List.reverse) =
        planRetrievedMetrics id Char.isAlphanum (fun filter => .ok [filter])
          (some (metricQuery ["净销售额", "毛利"])) profitHits := by
  obtain ⟨hpromises, horder⟩ := @plan_promises_and_ignores_order id Char.isAlphanum
    (fun filter => .ok [filter]) profitCatalog (some (metricQuery ["净销售额", "毛利"])) profitHits
    fromCatalog_profit
  constructor
  · obtain ⟨query, hquery, hplan⟩ := hpromises _ rfl (by decide +kernel)
    obtain rfl : metricQuery ["净销售额", "毛利"] = query := Option.some.inj hquery
    exact hplan
  · apply horder
    rw [List.forall₂_map_right_iff, List.forall₂_same]
    exact fun hits _ => (List.reverse_perm hits).symm

end ChatBI.Semantic
