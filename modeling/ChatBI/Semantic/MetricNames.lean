import ChatBI.Lib.Raises
import ChatBI.Semantic.MetricPlan
import Mathlib.Data.List.Induction

/-!
# Two ways to resolve the name of a metric

The plan compares names up to their normalisation, the certification compares them as they are. When
both find the same metric for every requested text.
-/

namespace ChatBI.Semantic

open ChatBI.Lib

/-! ### The best hits -/

section Hits

variable {hits : List MetricHit} {best : Dict String MetricHit}

/-- The entries of the best hits: each is a hit under its document. -/
structure Bests (hits : List MetricHit) (best : Dict String MetricHit) : Prop where
  entries : ∀ entry ∈ best, entry.2 ∈ hits ∧ entry.1 = entry.2.documentId
  covers : ∀ hit ∈ hits, Dict.get? best hit.documentId ≠ none
  nodup : (best.map Prod.fst).Nodup

lemma get?_set_ne_none {d : Dict String MetricHit} {key key' : String} {hit : MetricHit}
    (h : Dict.get? d key' ≠ none) : Dict.get? (Dict.set d key hit) key' ≠ none := by
  by_cases hkey : key = key'
  · subst hkey
    rw [Dict.get?_set_self]
    exact Option.some_ne_none hit
  · rwa [Dict.get?_set_of_ne hkey]

lemma Bests.put (h : Bests hits best) (hit : MetricHit) :
    Bests (hits ++ [hit]) (Dict.set best hit.documentId hit) := by
  refine ⟨?_, ?_, Dict.nodup_set h.nodup⟩
  · intro entry hentry
    rcases Dict.mem_set hentry with hold | rfl
    · obtain ⟨hmem, hkey⟩ := h.entries entry hold
      exact ⟨List.mem_append_left _ hmem, hkey⟩
    · exact ⟨List.mem_append_right _ List.mem_cons_self, rfl⟩
  · intro other hother
    rcases List.mem_append.mp hother with hother | hother
    · exact get?_set_ne_none (h.covers other hother)
    · rw [List.mem_singleton.mp hother, Dict.get?_set_self]
      exact Option.some_ne_none hit

lemma Bests.keep (h : Bests hits best) {hit : MetricHit}
    (hget : Dict.get? best hit.documentId ≠ none) : Bests (hits ++ [hit]) best := by
  refine ⟨?_, ?_, h.nodup⟩
  · intro entry hentry
    obtain ⟨hmem, hkey⟩ := h.entries entry hentry
    exact ⟨List.mem_append_left _ hmem, hkey⟩
  · intro other hother
    rcases List.mem_append.mp hother with hother | hother
    · exact h.covers other hother
    · rwa [List.mem_singleton.mp hother]

lemma bests_bestHits (hits : List MetricHit) : Bests hits (bestHits hits) := by
  induction hits using List.reverseRecOn with
  | nil =>
    exact ⟨fun _ h => absurd h List.not_mem_nil, fun _ h => absurd h List.not_mem_nil,
      List.nodup_nil⟩
  | append_singleton hits hit ih =>
    unfold bestHits at ih ⊢
    rw [List.foldl_append, List.foldl_cons, List.foldl_nil]
    split
    · exact ih.put hit
    · rename_i previous hget
      split
      · exact ih.put hit
      · apply ih.keep
        rw [hget]
        exact Option.some_ne_none previous

lemma perm_rankedHits (best : Dict String MetricHit) :
    (rankedHits best).Perm (best.map Prod.snd) := List.perm_insertionSort _ _

lemma mem_of_mem_ranked {hit : MetricHit} (h : hit ∈ rankedHits (bestHits hits)) : hit ∈ hits := by
  obtain ⟨entry, hentry, rfl⟩ := List.mem_map.mp ((perm_rankedHits _).mem_iff.mp h)
  exact ((bests_bestHits hits).entries entry hentry).1

/-- Every document that was hit is ranked. -/
lemma exists_ranked {hit : MetricHit} (h : hit ∈ hits) :
    ∃ other ∈ rankedHits (bestHits hits), other.documentId = hit.documentId := by
  have hbests := bests_bestHits hits
  have hkey := Dict.mem_map_fst_iff.mpr (hbests.covers hit h)
  obtain ⟨entry, hentry, heq⟩ := List.mem_map.mp hkey
  refine ⟨entry.2, (perm_rankedHits _).mem_iff.mpr (List.mem_map_of_mem hentry), ?_⟩
  rw [← (hbests.entries entry hentry).2, heq]

end Hits

/-! ### The selections -/

section Selections

variable {casefold : String → String} {isAlnum : Char → Bool}

/-- A text selects a metric when all its hits with the name are on one document. -/
structure Selects (casefold : String → String) (isAlnum : Char → Bool) (requestedText : String)
    (hits : List MetricHit) (hit : MetricHit) : Prop where
  mem : hit ∈ hits
  named : hit.Matches casefold isAlnum requestedText
  only : ∀ other ∈ hits, other.Matches casefold isAlnum requestedText →
    other.documentId = hit.documentId

lemma selects_of_selectHit {requestedText : String} {hits : List MetricHit} {hit : MetricHit}
    (h : selectHit casefold isAlnum requestedText hits = .ok hit) :
    Selects casefold isAlnum requestedText hits hit := by
  unfold selectHit at h
  split at h
  · split at h <;> cases h
  · rename_i selected hmatching
    cases h
    have hfirst : hit ∈ matchingHits casefold isAlnum requestedText hits := by
      rw [hmatching]
      exact List.mem_cons_self
    obtain ⟨hmem, hnamed⟩ := List.mem_filter.mp (mem_of_mem_ranked hfirst)
    refine ⟨hmem, of_decide_eq_true hnamed, ?_⟩
    intro other hother hmatches
    have hfiltered : other ∈ hits.filter (MetricHit.Matches casefold isAlnum requestedText) :=
      List.mem_filter.mpr ⟨hother, decide_eq_true hmatches⟩
    obtain ⟨best, hbest, hdocument⟩ := exists_ranked hfiltered
    change best ∈ matchingHits casefold isAlnum requestedText hits at hbest
    rw [hmatching, List.mem_singleton] at hbest
    rw [← hdocument, hbest]
  · cases h

/-- A refusal is not a success. -/
lemma selectHits_ne_success {requests : List (String × List MetricHit)} {index : Nat}
    {selected : List (MetricMention × MetricHit)} {status : MetricPlanStatus} {reason : String}
    {mentions : List MetricMention} (h : selectHits casefold isAlnum index selected requests =
      .error (status, reason, mentions)) : status ≠ .success := by
  induction requests generalizing index selected with
  | nil => cases h
  | cons request rest ih =>
    obtain ⟨requestedText, hits⟩ := request
    unfold selectHits at h
    cases hselect : selectHit casefold isAlnum requestedText hits with
    | error error =>
      rw [hselect] at h
      cases h
      unfold selectHit at hselect
      split at hselect
      · split at hselect <;> cases hselect <;> exact MetricPlanStatus.noConfusion
      · cases hselect
      · cases hselect
        exact MetricPlanStatus.noConfusion
    | ok hit =>
      rw [hselect] at h
      exact ih h

/-- A selection that a text has made. -/
structure Selected (casefold : String → String) (isAlnum : Char → Bool)
    (request : String × List MetricHit) (item : MetricMention × MetricHit) : Prop where
  text : item.1.requestedText = request.1
  document : item.1.documentId = item.2.documentId
  selects : Selects casefold isAlnum request.1 request.2 item.2

lemma selected_of_selectHits {requests : List (String × List MetricHit)} {index : Nat}
    {selected result : List (MetricMention × MetricHit)}
    (h : selectHits casefold isAlnum index selected requests = .ok result) :
    ∃ tail, result = selected ++ tail ∧
      List.Forall₂ (Selected casefold isAlnum) requests tail := by
  induction requests generalizing index selected with
  | nil =>
    cases h
    exact ⟨[], (List.append_nil _).symm, .nil⟩
  | cons request rest ih =>
    obtain ⟨requestedText, hits⟩ := request
    unfold selectHits at h
    cases hselect : selectHit casefold isAlnum requestedText hits with
    | error error =>
      rw [hselect] at h
      cases h
    | ok hit =>
      rw [hselect] at h
      obtain ⟨tail, rfl, htail⟩ := ih h
      refine ⟨(mentionOf requestedText index hit, hit) :: tail, ?_, ?_⟩
      · rw [List.append_assoc]
        rfl
      · exact .cons ⟨rfl, rfl, selects_of_selectHit hselect⟩ htail

/-- The first selections: some of all selections, one for each document. -/
structure Firsts (selected unique : List (MetricMention × MetricHit)) : Prop where
  subset : ∀ item ∈ unique, item ∈ selected
  covers : ∀ item ∈ selected, ∃ other ∈ unique, other.1.documentId = item.1.documentId
  nodup : (unique.map fun item => item.1.documentId).Nodup

lemma firsts_uniqueSelections (selected : List (MetricMention × MetricHit)) :
    Firsts selected (uniqueSelections selected) := by
  induction selected using List.reverseRecOn with
  | nil =>
    exact ⟨fun _ h => absurd h List.not_mem_nil, fun _ h => absurd h List.not_mem_nil,
      List.nodup_nil⟩
  | append_singleton selected item ih =>
    have hstep : uniqueSelections (selected ++ [item]) =
        if item.1.documentId ∈ (uniqueSelections selected).map fun other => other.1.documentId then
          uniqueSelections selected
        else uniqueSelections selected ++ [item] := by
      unfold uniqueSelections
      rw [List.foldl_append]
      rfl
    rw [hstep]
    split
    · rename_i hmem
      refine ⟨fun other hother => List.mem_append_left _ (ih.subset other hother), ?_, ih.nodup⟩
      intro other hother
      rcases List.mem_append.mp hother with hother | hother
      · exact ih.covers other hother
      · rw [List.mem_singleton.mp hother]
        exact List.mem_map.mp hmem
    · rename_i hnew
      refine ⟨?_, ?_, ?_⟩
      · intro other hother
        rcases List.mem_append.mp hother with hother | hother
        · exact List.mem_append_left _ (ih.subset other hother)
        · exact List.mem_append_right _ hother
      · intro other hother
        rcases List.mem_append.mp hother with hother | hother
        · obtain ⟨first, hfirst, hdocument⟩ := ih.covers other hother
          exact ⟨first, List.mem_append_left _ hfirst, hdocument⟩
        · rw [List.mem_singleton.mp hother]
          exact ⟨item, List.mem_append_right _ List.mem_cons_self, rfl⟩
      · rw [List.map_append]
        apply List.nodup_append.mpr ⟨ih.nodup, List.nodup_singleton _, ?_⟩
        rintro a ha b hb rfl
        rw [List.mem_singleton.mp hb] at ha
        exact hnew ha

lemma constraintFromHit_documentId {ordinal : Nat} {hit : MetricHit} {requestedText : String}
    {constraint : MetricConstraint}
    (h : constraintFromHit ordinal hit requestedText = .ok constraint) :
    constraint.documentId = hit.documentId := by
  unfold constraintFromHit at h
  simp only [except_bind_ok, except_pure_ok] at h
  obtain ⟨_, -, _, -, _, -, _, -, _, -, rfl⟩ := h
  rfl

variable {parseFilter : String → Except String (List String)}

/-- A plan that succeeds has the mentions of all selections and the constraints of the first ones. -/
lemma planSelections_success {selected : List (MetricMention × MetricHit)}
    (h : (planSelections casefold parseFilter selected).status = .success) :
    (planSelections casefold parseFilter selected).mentions = selected.map Prod.fst ∧
      (planSelections casefold parseFilter selected).constraints.map MetricConstraint.documentId =
        (uniqueSelections selected).map fun item => item.2.documentId := by
  unfold planSelections at h ⊢
  dsimp only at h ⊢
  split at h
  · cases h
  · rename_i hcount
    rw [if_neg hcount]
    split at h
    · cases h
    · rename_i constraints hconstraints
      split at h
      · cases h
      · cases h
      · refine ⟨rfl, ?_⟩
        have hall := mapM_ok hconstraints
        have hdocuments : ∀ {items : List ((MetricMention × MetricHit) × Nat)}
            {constraints : List MetricConstraint}, List.Forall₂ (fun item constraint =>
              constraintFromHit item.2 item.1.2 item.1.1.requestedText = .ok constraint)
                items constraints →
            constraints.map MetricConstraint.documentId =
              (items.map Prod.fst).map fun item => item.2.documentId := by
          intro items constraints hitems
          induction hitems with
          | nil => rfl
          | cons hhead _ ih =>
            rw [List.map_cons, List.map_cons, List.map_cons, ih, constraintFromHit_documentId hhead]
        rw [hdocuments hall, List.zipIdx_map_fst]

end Selections

/-! ### The certification -/

section Certification

variable {catalog : String → MetricMetadata} {documents : List String} {requested : String}

/-- Among the facts on different documents a text is certified to the only metric that has it. -/
lemma certifyMetric_eq_iff (hnodup : documents.Nodup) {document : String}
    (hmem : document ∈ documents) :
    certifyMetric (documents.map catalog) requested = .ok (catalog document) ↔
      requested ∈ (catalog document).labels ∧
        ∀ other ∈ documents, requested ∈ (catalog other).labels → other = document := by
  have hfilter : (documents.map catalog).filter (requested ∈ ·.labels) =
      (documents.filter fun other => requested ∈ (catalog other).labels).map catalog := by
    rw [List.filter_map]
    rfl
  have hcertify : certifyMetric (documents.map catalog) requested = .ok (catalog document) ↔
      ∃ only, (documents.filter fun other => requested ∈ (catalog other).labels) = [only] ∧
        catalog only = catalog document := by
    unfold certifyMetric
    rw [hfilter]
    constructor
    · intro h
      split at h
      · rename_i record hrecord
        obtain ⟨only, honly, hcatalog⟩ := List.map_eq_singleton_iff.mp hrecord
        exact ⟨only, honly, hcatalog.trans (Except.ok.inj h)⟩
      · cases h
    · rintro ⟨only, honly, hcatalog⟩
      rw [honly, ← hcatalog]
      rfl
  rw [hcertify]
  constructor
  · rintro ⟨only, honly, hcatalog⟩
    have hlabel : requested ∈ (catalog only).labels := by
      have hin : only ∈ documents.filter fun other => requested ∈ (catalog other).labels := by
        rw [honly]
        exact List.mem_cons_self
      exact of_decide_eq_true (List.mem_filter.mp hin).2
    have hsame : ∀ other ∈ documents, requested ∈ (catalog other).labels → other = only := by
      intro other hother hlabelled
      have hin : other ∈ documents.filter fun other => requested ∈ (catalog other).labels :=
        List.mem_filter.mpr ⟨hother, decide_eq_true hlabelled⟩
      rw [honly] at hin
      exact List.mem_singleton.mp hin
    rw [hcatalog] at hlabel
    have hdocument := hsame document hmem hlabel
    refine ⟨hlabel, ?_⟩
    intro other hother hlabelled
    rw [hdocument]
    exact hsame other hother hlabelled
  · rintro ⟨hlabel, honly⟩
    refine ⟨document, ?_, rfl⟩
    have hin : document ∈ documents.filter fun other => requested ∈ (catalog other).labels :=
      List.mem_filter.mpr ⟨hmem, decide_eq_true hlabel⟩
    apply List.perm_singleton.mp
    apply (List.perm_ext_iff_of_nodup (hnodup.filter _) (List.nodup_singleton _)).mpr
    intro other
    rw [List.mem_singleton]
    constructor
    · intro hother
      obtain ⟨hother, hlabelled⟩ := List.mem_filter.mp hother
      exact honly other hother (of_decide_eq_true hlabelled)
    · rintro rfl
      exact hin

end Certification

/-! ### Agreement -/

section Agreement

variable {casefold : String → String} {isAlnum : Char → Bool}
  {parseFilter : String → Except String (List String)} {query : ValidatedSemanticQuery}
  {metricHitsByQuery : List (List MetricHit)} {catalog : String → MetricMetadata}

/-- The hits are documents of one collection. -/
def FromCatalog (catalog : String → MetricMetadata) (metricHitsByQuery : List (List MetricHit)) :
    Prop :=
  ∀ hits ∈ metricHitsByQuery, ∀ hit ∈ hits, hit.metadata = catalog hit.documentId

/-- Every requested text is written like a label of one of its own hits, and a metric that another
text has selected does not have it as a label, unless it is among these hits as well. -/
structure Spelled (casefold : String → String) (isAlnum : Char → Bool) (metrics : List String)
    (metricHitsByQuery : List (List MetricHit)) : Prop where
  labelled : ∀ request ∈ metrics.zip metricHitsByQuery,
    ∃ hit ∈ request.2, request.1 ∈ hit.metadata.labels
  unshared : ∀ request ∈ metrics.zip metricHitsByQuery,
    ∀ other ∈ metrics.zip metricHitsByQuery, ∀ hit ∈ other.2,
      hit.Matches casefold isAlnum other.1 → request.1 ∈ hit.metadata.labels →
        ∃ own ∈ request.2, own.documentId = hit.documentId

/-- The parts of a plan that succeeds. -/
structure Planned (casefold : String → String) (isAlnum : Char → Bool)
    (query : ValidatedSemanticQuery) (metricHitsByQuery : List (List MetricHit))
    (plan : MetricRequestPlan) (selected : List (MetricMention × MetricHit)) : Prop where
  length : metricHitsByQuery.length = query.metrics.length
  selections : List.Forall₂ (Selected casefold isAlnum) (query.metrics.zip metricHitsByQuery)
    selected
  mentions : plan.mentions = selected.map Prod.fst
  documents : plan.constraints.map MetricConstraint.documentId =
    (uniqueSelections selected).map fun item => item.2.documentId

lemma planned_of_success
    (h : (planRetrievedMetrics casefold isAlnum parseFilter (some query)
      metricHitsByQuery).status = .success) :
    ∃ selected, Planned casefold isAlnum query metricHitsByQuery
      (planRetrievedMetrics casefold isAlnum parseFilter (some query) metricHitsByQuery)
      selected := by
  unfold planRetrievedMetrics at h ⊢
  dsimp only at h ⊢
  split at h
  · cases h
  · rename_i hcount
    rw [if_neg hcount]
    split at h
    · cases h
    · rename_i hlength
      rw [if_neg hlength]
      split at h
      · rename_i hselected
        exact absurd h (selectHits_ne_success hselected)
      · rename_i selected hselected
        obtain ⟨tail, htail, hselections⟩ := selected_of_selectHits hselected
        rw [List.nil_append] at htail
        subst htail
        obtain ⟨hmentions, hdocuments⟩ := planSelections_success h
        exact ⟨selected, not_not.mp hlength, hselections, hmentions, hdocuments⟩

variable {plan : MetricRequestPlan} {selected : List (MetricMention × MetricHit)}

lemma exists_left {α β : Type} {R : α → β → Prop} {xs : List α} {ys : List β}
    (h : List.Forall₂ R xs ys) {y : β} (hy : y ∈ ys) : ∃ x ∈ xs, R x y := by
  induction h with
  | nil => cases hy
  | @cons x y' xs ys hxy _ ih =>
    rcases List.mem_cons.mp hy with rfl | hy
    · exact ⟨x, List.mem_cons_self, hxy⟩
    · obtain ⟨x', hx', hR⟩ := ih hy
      exact ⟨x', List.mem_cons_of_mem x hx', hR⟩

lemma forall₂_and {α β : Type} {R S : α → β → Prop} {xs : List α} {ys : List β}
    (h : List.Forall₂ R xs ys) (h' : List.Forall₂ S xs ys) :
    List.Forall₂ (fun x y => R x y ∧ S x y) xs ys := by
  induction h with
  | nil => exact .nil
  | cons hxy _ ih =>
    cases h' with
    | cons hxy' h' => exact .cons ⟨hxy, hxy'⟩ (ih h')

lemma forall₂_of_mem {α β : Type} {R S : α → β → Prop} {xs : List α} {ys : List β}
    (h : List.Forall₂ R xs ys) (hS : ∀ x ∈ xs, ∀ y ∈ ys, R x y → S x y) :
    List.Forall₂ S xs ys := by
  induction h with
  | nil => exact .nil
  | @cons x y xs ys hxy _ ih =>
    refine .cons (hS x List.mem_cons_self y List.mem_cons_self hxy) (ih ?_)
    intro x' hx' y' hy'
    exact hS x' (List.mem_cons_of_mem x hx') y' (List.mem_cons_of_mem y hy')

lemma mapM_eq_some {α β : Type} {f : α → Option β} {g : α → β} {xs : List α}
    (h : ∀ x ∈ xs, f x = some (g x)) : xs.mapM f = some (xs.map g) := by
  induction xs with
  | nil => rfl
  | cons x xs ih =>
    rw [List.mapM_cons, h x List.mem_cons_self, ih fun y hy => h y (List.mem_cons_of_mem x hy)]
    rfl

lemma exists_right {α β : Type} {R : α → β → Prop} {xs : List α} {ys : List β}
    (h : List.Forall₂ R xs ys) {x : α} (hx : x ∈ xs) : ∃ y ∈ ys, R x y := by
  obtain ⟨y, hy, hR⟩ := exists_left h.flip hx
  exact ⟨y, hy, hR⟩

/-- A hit of a request is a hit. -/
lemma mem_hits_of_zip {metrics : List String} {request : String × List MetricHit}
    (h : request ∈ metrics.zip metricHitsByQuery) : request.2 ∈ metricHitsByQuery :=
  (List.of_mem_zip (a := request.1) (b := request.2) h).2

/-- The facts on a hit are those of its document. -/
lemma metadata_eq (hcatalog : FromCatalog catalog metricHitsByQuery) {metrics : List String}
    {request : String × List MetricHit} (hrequest : request ∈ metrics.zip metricHitsByQuery)
    {hit : MetricHit} (hhit : hit ∈ request.2) : hit.metadata = catalog hit.documentId :=
  hcatalog request.2 (mem_hits_of_zip hrequest) hit hhit

section Facts

variable (h : Planned casefold isAlnum query metricHitsByQuery plan selected)
  (hcatalog : FromCatalog catalog metricHitsByQuery)
include h

/-- The documents of the constraints are those of the selections, each once. -/
lemma Planned.documents_eq : plan.constraints.map MetricConstraint.documentId =
    (uniqueSelections selected).map fun item => item.1.documentId := by
  rw [h.documents]
  apply List.map_congr_left
  intro item hitem
  obtain ⟨request, -, hrequest⟩ :=
    exists_left h.selections ((firsts_uniqueSelections selected).subset item hitem)
  exact hrequest.document.symm

lemma Planned.nodup : (plan.constraints.map MetricConstraint.documentId).Nodup := by
  rw [h.documents_eq]
  exact (firsts_uniqueSelections selected).nodup

lemma Planned.mem_documents {item : MetricMention × MetricHit} (hitem : item ∈ selected) :
    item.1.documentId ∈ plan.constraints.map MetricConstraint.documentId := by
  obtain ⟨first, hfirst, hdocument⟩ := (firsts_uniqueSelections selected).covers item hitem
  rw [h.documents_eq, ← hdocument]
  exact List.mem_map_of_mem hfirst

/-- A planned document has been selected. -/
lemma Planned.exists_selected {document : String}
    (hdocument : document ∈ plan.constraints.map MetricConstraint.documentId) :
    ∃ item ∈ selected, item.1.documentId = document := by
  rw [h.documents_eq] at hdocument
  obtain ⟨item, hitem, hdocument⟩ := List.mem_map.mp hdocument
  exact ⟨item, (firsts_uniqueSelections selected).subset item hitem, hdocument⟩

include hcatalog

/-- The facts on the planned metrics are those of the catalog. -/
lemma Planned.facts : plannedFacts metricHitsByQuery plan.constraints =
    some ((plan.constraints.map MetricConstraint.documentId).map catalog) := by
  have hfact : ∀ constraint ∈ plan.constraints,
      ((mergeMetricHits metricHitsByQuery).find? (·.documentId = constraint.documentId)).map
        MetricHit.metadata = some (catalog constraint.documentId) := by
    intro constraint hconstraint
    obtain ⟨item, hitem, hdocument⟩ := h.exists_selected (List.mem_map_of_mem hconstraint)
    obtain ⟨request, hrequest, hselected⟩ := exists_left h.selections hitem
    have hhits := mem_hits_of_zip hrequest
    have hmem : item.2 ∈ metricHitsByQuery.flatten :=
      List.mem_flatten.mpr ⟨request.2, hhits, hselected.selects.mem⟩
    obtain ⟨merged, hmerged, hsame⟩ := exists_ranked hmem
    have hid : merged.documentId = constraint.documentId := by
      rw [hsame, ← hselected.document, hdocument]
    cases hfind : (mergeMetricHits metricHitsByQuery).find?
        (·.documentId = constraint.documentId) with
    | none =>
      rw [List.find?_eq_none] at hfind
      have hnot := hfind merged hmerged
      simp [hid] at hnot
    | some found =>
      have hfound : found.documentId = constraint.documentId := by
        simpa using List.find?_some hfind
      obtain ⟨hits, hhits', hin⟩ :=
        List.mem_flatten.mp (mem_of_mem_ranked (List.mem_of_find?_eq_some hfind))
      rw [Option.map_some, hcatalog hits hhits' found hin, hfound]
  have hplanned := mapM_eq_some hfact
  unfold plannedFacts
  rw [hplanned, List.map_map]
  rfl

/-- The certification of a text that has been selected. -/
lemma Planned.certifies_iff {request : String × List MetricHit} {item : MetricMention × MetricHit}
    (hrequest : request ∈ query.metrics.zip metricHitsByQuery) (hitem : item ∈ selected)
    (hselected : Selected casefold isAlnum request item) :
    certifyMetric ((plan.constraints.map MetricConstraint.documentId).map catalog) request.1 =
        .ok (catalog item.1.documentId) ↔
      (∃ hit ∈ request.2, request.1 ∈ hit.metadata.labels) ∧
      ∀ other ∈ query.metrics.zip metricHitsByQuery, ∀ hit ∈ other.2,
        hit.Matches casefold isAlnum other.1 → request.1 ∈ hit.metadata.labels →
          ∃ own ∈ request.2, own.documentId = hit.documentId := by
  rw [certifyMetric_eq_iff h.nodup (h.mem_documents hitem)]
  have hown : item.2.metadata = catalog item.1.documentId := by
    rw [metadata_eq hcatalog hrequest hselected.selects.mem, hselected.document]
  constructor
  · rintro ⟨hlabel, honly⟩
    refine ⟨⟨item.2, hselected.selects.mem, by rw [hown]; exact hlabel⟩, ?_⟩
    intro other hother hit hhit hmatches hlabelled
    obtain ⟨item', hitem', hselected'⟩ := exists_right h.selections hother
    have hdocument : hit.documentId = item'.1.documentId := by
      rw [hselected'.document]
      exact hselected'.selects.only hit hhit hmatches
    rw [metadata_eq hcatalog hother hhit, hdocument] at hlabelled
    have hsame := honly _ (h.mem_documents hitem') hlabelled
    exact ⟨item.2, hselected.selects.mem, by rw [hdocument, hsame, hselected.document]⟩
  · rintro ⟨⟨hit, hhit, hlabel⟩, hunshared⟩
    have hdocument : hit.documentId = item.1.documentId := by
      rw [hselected.document]
      exact hselected.selects.only hit hhit ⟨request.1, hlabel, rfl⟩
    rw [metadata_eq hcatalog hrequest hhit, hdocument] at hlabel
    refine ⟨hlabel, ?_⟩
    intro document hdocument' hlabelled
    obtain ⟨item', hitem', rfl⟩ := h.exists_selected hdocument'
    obtain ⟨other, hother, hselected'⟩ := exists_left h.selections hitem'
    have hmetadata : item'.2.metadata = catalog item'.1.documentId := by
      rw [metadata_eq hcatalog hother hselected'.selects.mem, hselected'.document]
    rw [← hmetadata] at hlabelled
    obtain ⟨own, hmem, hsame⟩ :=
      hunshared other hother item'.2 hselected'.selects.mem hselected'.selects.named hlabelled
    -- the metric is among the own hits, where only the selected one has the name
    rw [hmetadata, hselected'.document, ← hsame, ← metadata_eq hcatalog hrequest hmem] at hlabelled
    rw [hselected.document, hselected'.document, ← hsame]
    exact hselected.selects.only own hmem ⟨request.1, hlabelled, rfl⟩

end Facts

/-- A plan that succeeds and the certification agree on all requested texts exactly when these are
spelled like the labels of the planned metrics. -/
theorem certifies_iff_spelled (catalog : String → MetricMetadata)
    (hcatalog : FromCatalog catalog metricHitsByQuery)
    (hplan : (planRetrievedMetrics casefold isAlnum parseFilter (some query)
      metricHitsByQuery).status = .success) :
    (∃ facts, plannedFacts metricHitsByQuery (planRetrievedMetrics casefold isAlnum parseFilter
        (some query) metricHitsByQuery).constraints = some facts ∧
      List.Forall₂ (fun requested mention =>
        certifyMetric facts requested = .ok (catalog mention.documentId)) query.metrics
        (planRetrievedMetrics casefold isAlnum parseFilter (some query)
          metricHitsByQuery).mentions) ↔
      Spelled casefold isAlnum query.metrics metricHitsByQuery := by
  obtain ⟨selected, h⟩ := planned_of_success hplan
  have hfacts := h.facts hcatalog
  have hmetrics : query.metrics = (query.metrics.zip metricHitsByQuery).map Prod.fst :=
    (List.map_fst_zip (Nat.le_of_eq h.length.symm)).symm
  rw [h.mentions]
  constructor
  · rintro ⟨facts, hplanned, hcertified⟩
    cases hfacts.symm.trans hplanned
    rw [hmetrics, List.forall₂_map_left_iff, List.forall₂_map_right_iff] at hcertified
    have hall := forall₂_and h.selections hcertified
    refine ⟨?_, ?_⟩
    · intro request hrequest
      obtain ⟨item, hitem, hselected, hcertify⟩ := exists_right hall hrequest
      exact ((h.certifies_iff hcatalog hrequest hitem hselected).mp hcertify).1
    · intro request hrequest
      obtain ⟨item, hitem, hselected, hcertify⟩ := exists_right hall hrequest
      exact ((h.certifies_iff hcatalog hrequest hitem hselected).mp hcertify).2
  · intro hspelled
    refine ⟨_, hfacts, ?_⟩
    have hcertified : List.Forall₂ (fun request item => certifyMetric
        (((planRetrievedMetrics casefold isAlnum parseFilter (some query)
          metricHitsByQuery).constraints.map MetricConstraint.documentId).map catalog) request.1 =
            .ok (catalog item.1.documentId)) (query.metrics.zip metricHitsByQuery) selected := by
      apply forall₂_of_mem h.selections
      intro request hrequest item hitem hselected
      exact (h.certifies_iff hcatalog hrequest hitem hselected).mpr
        ⟨hspelled.labelled request hrequest, hspelled.unshared request hrequest⟩
    rw [hmetrics, List.forall₂_map_left_iff, List.forall₂_map_right_iff]
    exact hcertified

end Agreement

/-- The facts on the net sales. -/
def netSales : MetricMetadata where
  metricName := "人民币净销售额"
  aliases := ["销售额", "净销售额"]
  formula := "SUM(net_sales_amount_cny)"
  dataSource := "mart_sales.fct_sales_order_line"
  timeField := "completion_date_key"
  filters := ["order_status = 'completed'"]
  dependsOn := []
  stripped := by decide +kernel

def netSalesHit : MetricHit := ⟨"metric:人民币净销售额", 9 / 10, netSales⟩

/-- A query that asks for a metric. -/
def metricQuery (metrics : List String) : ValidatedSemanticQuery where
  queryType := .metricAnalysis
  subjects := []
  metrics := metrics
  dimensions := []
  time := none
  filters := []
  originalQuestion := "净销售额"

lemma fromCatalog_netSales : FromCatalog (fun _ => netSales) [[netSalesHit]] := by
  intro hits hhits hit hhit
  rw [List.mem_singleton.mp hhits, List.mem_singleton] at hhit
  rw [hhit]
  rfl

/-- A text that is written like an alias. -/
theorem certifies_iff_spelled_alias :
    ∃ facts, plannedFacts [[netSalesHit]] (planRetrievedMetrics id Char.isAlphanum
        (fun filter => .ok [filter]) (some (metricQuery ["净销售额"])) [[netSalesHit]]).constraints =
          some facts ∧
      List.Forall₂ (fun requested mention =>
        certifyMetric facts requested = .ok ((fun _ => netSales) mention.documentId)) ["净销售额"]
        (planRetrievedMetrics id Char.isAlphanum (fun filter => .ok [filter])
          (some (metricQuery ["净销售额"])) [[netSalesHit]]).mentions := by
  apply (certifies_iff_spelled (fun _ => netSales) fromCatalog_netSales (by decide +kernel)).mpr
  refine ⟨?_, ?_⟩
  · intro request hrequest
    have heq : request = ("净销售额", [netSalesHit]) := by simpa [metricQuery] using hrequest
    subst heq
    exact ⟨netSalesHit, List.mem_cons_self, by decide⟩
  · intro request hrequest other hother hit hhit _ _
    have heq : request = ("净销售额", [netSalesHit]) := by simpa [metricQuery] using hrequest
    have heq' : other = ("净销售额", [netSalesHit]) := by simpa [metricQuery] using hother
    subst heq heq'
    exact ⟨hit, hhit, rfl⟩

/-- A text with a space in it is planned and then not certified. -/
theorem spaced_alias_refused :
    (planRetrievedMetrics id Char.isAlphanum (fun filter => .ok [filter])
        (some (metricQuery ["净 销售额"])) [[netSalesHit]]).status = .success ∧
      FromCatalog (fun _ => netSales) [[netSalesHit]] ∧
      ¬∃ facts, plannedFacts [[netSalesHit]] (planRetrievedMetrics id Char.isAlphanum
          (fun filter => .ok [filter]) (some (metricQuery ["净 销售额"]))
            [[netSalesHit]]).constraints = some facts ∧
        List.Forall₂ (fun requested mention =>
          certifyMetric facts requested = .ok ((fun _ => netSales) mention.documentId))
          ["净 销售额"] (planRetrievedMetrics id Char.isAlphanum (fun filter => .ok [filter])
            (some (metricQuery ["净 销售额"])) [[netSalesHit]]).mentions := by
  refine ⟨by decide +kernel, fromCatalog_netSales, ?_⟩
  rintro ⟨facts, hfacts, hcertified⟩
  have hplanned : plannedFacts [[netSalesHit]] (planRetrievedMetrics id Char.isAlphanum
      (fun filter => .ok [filter]) (some (metricQuery ["净 销售额"])) [[netSalesHit]]).constraints =
        some [netSales] := by decide +kernel
  cases hplanned.symm.trans hfacts
  obtain ⟨mention, -, hcertify⟩ := exists_right hcertified List.mem_cons_self
  have herror : certifyMetric [netSales] "净 销售额" = .error "指标无法唯一认证" := by decide +kernel
  rw [herror] at hcertify
  cases hcertify

end ChatBI.Semantic
