import ChatBI.Semantic.Relevance

/-!
# Certifying a certified query

A certified query names its metrics by their names. Where each label identifies one metric, it is
certified again with the same certificate.
-/

namespace ChatBI.Semantic

open ChatBI.Lib

/-- Each label of a metric is a label of this metric alone. -/
def LabelsIdentify (available : List MetricMetadata) : Prop :=
  ∀ r ∈ available, ∀ label ∈ r.labels, available.filter (label ∈ ·.labels) = [r]

/-- The name of the metric that a label identifies. -/
def metricNameOf (available : List MetricMetadata) (label : String) : String :=
  ((available.find? (label ∈ ·.labels)).map MetricMetadata.metricName).getD label

/-- An order on a metric by its name. -/
def BusinessOrder.named (available : List MetricMetadata) (item : BusinessOrder) : BusinessOrder :=
  if item.targetKind = "metric" then { item with target := metricNameOf available item.target }
  else item

/-- A filter on an aggregate of a metric by its name. -/
def AggregateFilter.named (available : List MetricMetadata) (item : AggregateFilter) :
    AggregateFilter :=
  { item with metric := metricNameOf available item.metric }

/-- Conditions that refer to metrics by their names. -/
def RestorationConditions.named (available : List MetricMetadata)
    (conditions : RestorationConditions) : RestorationConditions :=
  { conditions with
    orderBy := conditions.orderBy.map (BusinessOrder.named available)
    aggregateFilters := conditions.aggregateFilters.map (AggregateFilter.named available) }

section Labels

variable {available selected : List MetricMetadata} {record : MetricMetadata} {label name : String}
  {outside : Surroundings}

lemma metricName_mem_labels (record : MetricMetadata) : record.metricName ∈ record.labels :=
  List.mem_cons_self

/-- A label of a metric identifies the metric. -/
lemma LabelsIdentify.unique (h : LabelsIdentify available) {r : MetricMetadata} (hr : r ∈ available)
    (hlabel : label ∈ r.labels) (hrecord : record ∈ available) (hlabel' : label ∈ record.labels) :
    r = record :=
  List.cons.inj ((h r hr label hlabel).symm.trans (h record hrecord label hlabel')) |>.1

lemma LabelsIdentify.metricNameOf_eq (h : LabelsIdentify available) (hrecord : record ∈ available)
    (hlabel : label ∈ record.labels) : metricNameOf available label = record.metricName := by
  have hfound : available.find? (label ∈ ·.labels) = some record := by
    rw [← List.head?_filter, h record hrecord label hlabel]
    rfl
  rw [metricNameOf, hfound]
  rfl

/-- A label and the name of its metric select the same. -/
lemma LabelsIdentify.filter_name (h : LabelsIdentify available) (hsub : selected ⊆ available)
    (hrecord : record ∈ available) (hlabel : label ∈ record.labels) :
    selected.filter (record.metricName ∈ ·.labels) = selected.filter (label ∈ ·.labels) := by
  apply List.filter_congr
  intro r hr
  have hname := metricName_mem_labels record
  rw [decide_eq_decide]
  constructor
  · intro hmem
    rw [h.unique (hsub hr) hmem hrecord hname]
    exact hlabel
  · intro hmem
    rw [h.unique (hsub hr) hmem hrecord hlabel]
    exact hname

/-- A selected metric is selected by its name. -/
lemma selectMetric_name (h : LabelsIdentify available) {metric : CertifiedMetric}
    (hselect : selectMetric outside available label = .ok (record, metric)) :
    record ∈ available ∧ label ∈ record.labels ∧ metric.name = record.metricName ∧
      selectMetric outside available record.metricName = .ok (record, metric) := by
  unfold selectMetric at hselect
  obtain ⟨found, hfound, hselect⟩ := except_bind_ok.mp hselect
  obtain ⟨certified, hcertified, hpair⟩ := except_bind_ok.mp hselect
  obtain ⟨rfl, rfl⟩ := Prod.mk.inj (except_pure_ok.mp hpair)
  have hcertify : certifyMetric available label = .ok found := by
    cases hc : certifyMetric available label with
    | error e =>
      rw [hc] at hfound
      cases hfound
    | ok r =>
      rw [hc] at hfound
      exact congrArg Except.ok (Except.ok.inj hfound)
  obtain ⟨hrecord, hlabel⟩ := certifyMetric_ok hcertify
  have hagain : certifyMetric available found.metricName = .ok found := by
    unfold certifyMetric
    rw [h found hrecord _ (metricName_mem_labels found)]
  have hname : certified.name = found.metricName := by
    unfold certifiedRecord at hcertified
    simp only [except_bind_ok, except_pure_ok] at hcertified
    obtain ⟨_, -, _, -, _, -, rfl⟩ := hcertified
    rfl
  refine ⟨hrecord, hlabel, hname, ?_⟩
  unfold selectMetric
  rw [hagain]
  exact except_bind_ok.mpr ⟨found, rfl, except_bind_ok.mpr ⟨certified, hcertified, rfl⟩⟩

/-- The name of a selected metric selects it again. -/
lemma selectedMetricName_named (h : LabelsIdentify available) (hsub : selected ⊆ available)
    (hselect : selectedMetricName selected label = .ok name) :
    name = metricNameOf available label ∧ selectedMetricName selected name = .ok name := by
  unfold selectedMetricName at hselect
  split at hselect
  · next record hsingle =>
    obtain rfl := Except.ok.inj hselect
    have hmem : record ∈ selected.filter (label ∈ ·.labels) := by
      rw [hsingle]
      exact List.mem_singleton_self _
    obtain ⟨hselected, hlabel⟩ := List.mem_filter.mp hmem
    have hlabel := of_decide_eq_true hlabel
    refine ⟨(h.metricNameOf_eq (hsub hselected) hlabel).symm, ?_⟩
    unfold selectedMetricName
    rw [h.filter_name hsub (hsub hselected) hlabel, hsingle]
  · cases hselect

lemma canonicalOrder_named (h : LabelsIdentify available) (hsub : selected ⊆ available)
    {item item' : BusinessOrder} (hitem : canonicalOrder selected item = .ok item') :
    item' = item.named available ∧ canonicalOrder selected item' = .ok item' := by
  unfold canonicalOrder at hitem
  split at hitem
  · next hkind =>
    obtain ⟨name, hname, hitem⟩ := except_bind_ok.mp hitem
    obtain rfl := except_pure_ok.mp hitem
    obtain ⟨heq, hagain⟩ := selectedMetricName_named h hsub hname
    constructor
    · rw [BusinessOrder.named, if_pos hkind, heq]
    · unfold canonicalOrder
      rw [if_pos hkind, hagain]
      rfl
  · next hkind =>
    obtain rfl := Except.ok.inj hitem
    constructor
    · rw [BusinessOrder.named, if_neg hkind]
    · rw [canonicalOrder, if_neg hkind]

lemma canonicalAggregate_named (h : LabelsIdentify available) (hsub : selected ⊆ available)
    {item item' : AggregateFilter} (hitem : canonicalAggregate selected item = .ok item') :
    item' = item.named available ∧ canonicalAggregate selected item' = .ok item' := by
  unfold canonicalAggregate at hitem
  obtain ⟨name, hname, hitem⟩ := except_bind_ok.mp hitem
  obtain rfl := except_pure_ok.mp hitem
  obtain ⟨heq, hagain⟩ := selectedMetricName_named h hsub hname
  constructor
  · rw [AggregateFilter.named, heq]
  · unfold canonicalAggregate
    rw [hagain]
    rfl

/-- What a computation makes of a list, and that it leaves it as it is. -/
lemma mapM_fixed {ε α : Type} {f : α → Except ε α} {g : α → α} {xs ys : List α}
    (hf : ∀ {x y}, f x = .ok y → y = g x ∧ f y = .ok y) (h : xs.mapM f = .ok ys) :
    ys = xs.map g ∧ ys.mapM f = .ok ys := by
  have hall := mapM_ok h
  clear h
  induction hall with
  | nil => exact ⟨rfl, rfl⟩
  | cons hx _ ih =>
    obtain ⟨hg, hfixed⟩ := hf hx
    refine ⟨?_, ?_⟩
    · rw [List.map_cons, ← hg, ← ih.1]
    · rw [List.mapM_cons, hfixed, ih.2]
      rfl

/-- Canonical conditions refer to metrics by their names, and are canonical. -/
lemma canonicalConditions_named (h : LabelsIdentify available) (hsub : selected ⊆ available)
    {conditions conditions' : RestorationConditions}
    (hcanonical : canonicalConditions selected conditions = .ok conditions') :
    conditions' = conditions.named available ∧
      canonicalConditions selected conditions' = .ok conditions' := by
  unfold canonicalConditions at hcanonical
  obtain ⟨orderBy, horders, hcanonical⟩ := except_bind_ok.mp hcanonical
  obtain ⟨aggregateFilters, haggregates, hcanonical⟩ := except_bind_ok.mp hcanonical
  obtain rfl := except_pure_ok.mp hcanonical
  obtain ⟨horders, horders'⟩ := mapM_fixed (canonicalOrder_named h hsub) horders
  obtain ⟨haggregates, haggregates'⟩ := mapM_fixed (canonicalAggregate_named h hsub) haggregates
  constructor
  · rw [RestorationConditions.named, horders, haggregates]
  · unfold canonicalConditions
    rw [horders', haggregates']
    rfl

lemma strip_of_selected (h : selectedMetricName selected label = .ok name) : strip name = name := by
  unfold selectedMetricName at h
  split at h
  · next record _ =>
    rw [← Except.ok.inj h]
    exact record.stripped
  · cases h

/-- The names in canonical conditions. -/
lemma strip_of_canonical {conditions : RestorationConditions}
    (h : canonicalConditions selected conditions = .ok conditions) :
    (∀ item ∈ conditions.orderBy, item.targetKind = "metric" → strip item.target = item.target) ∧
      ∀ item ∈ conditions.aggregateFilters, strip item.metric = item.metric := by
  have hself : ∀ {α : Type} {f : α → Except CertificationError α} {xs : List α},
      xs.mapM f = .ok xs → ∀ x ∈ xs, f x = .ok x := by
    intro α f xs hxs
    rw [← List.map_id xs] at hxs
    exact mapM_map_ok_iff.mp (hxs.trans (by rw [List.map_id]))
  unfold canonicalConditions at h
  obtain ⟨orderBy, horders, h⟩ := except_bind_ok.mp h
  obtain ⟨aggregateFilters, haggregates, h⟩ := except_bind_ok.mp h
  have heq := except_pure_ok.mp h
  have horderBy : orderBy = conditions.orderBy := congrArg RestorationConditions.orderBy heq
  have haggregateFilters : aggregateFilters = conditions.aggregateFilters :=
    congrArg RestorationConditions.aggregateFilters heq
  rw [horderBy] at horders
  rw [haggregateFilters] at haggregates
  constructor
  · intro item hitem hkind
    have hfixed := hself horders item hitem
    rw [canonicalOrder, if_pos hkind] at hfixed
    obtain ⟨name, hname, hfixed⟩ := except_bind_ok.mp hfixed
    have htarget : name = item.target := congrArg BusinessOrder.target (except_pure_ok.mp hfixed)
    rw [← htarget]
    exact strip_of_selected hname
  · intro item hitem
    have hfixed := hself haggregates item hitem
    unfold canonicalAggregate at hfixed
    obtain ⟨name, hname, hfixed⟩ := except_bind_ok.mp hfixed
    have hmetric : name = item.metric := congrArg AggregateFilter.metric (except_pure_ok.mp hfixed)
    rw [← hmetric]
    exact strip_of_selected hname

/-- The requested metrics, by their names, are selected again. -/
lemma selectMetrics_name (h : LabelsIdentify available) {labels : List String}
    {pairs : List (MetricMetadata × CertifiedMetric)}
    (hselect : labels.mapM (selectMetric outside available) = .ok pairs) :
    (pairs.map Prod.snd).map CertifiedMetric.name = labels.map (metricNameOf available) ∧
      ((pairs.map Prod.snd).map CertifiedMetric.name).mapM (selectMetric outside available) =
        .ok pairs ∧
      pairs.map Prod.fst ⊆ available ∧
      ∀ name ∈ (pairs.map Prod.snd).map CertifiedMetric.name, strip name = name := by
  have hall := mapM_ok hselect
  clear hselect
  induction hall with
  | nil => exact ⟨rfl, rfl, List.nil_subset _, fun _ h => absurd h List.not_mem_nil⟩
  | @cons label pair labels pairs hpair _ ih =>
    obtain ⟨record, metric⟩ := pair
    obtain ⟨hrecord, hlabel, hname, hagain⟩ := selectMetric_name h hpair
    obtain ⟨hnames, hselected, hsub, hstrip⟩ := ih
    refine ⟨?_, ?_, List.cons_subset.mpr ⟨hrecord, hsub⟩, List.forall_mem_cons.mpr ⟨?_, hstrip⟩⟩
    · rw [List.map_cons, List.map_cons, hnames, List.map_cons, hname,
        h.metricNameOf_eq hrecord hlabel]
    · rw [List.map_cons, List.map_cons, List.mapM_cons, hname, hagain, hselected]
      rfl
    · rw [hname]
      exact record.stripped

end Labels

/-- A certified query, by the facts of the context. -/
structure Certified (outside : Surroundings) (context : QueryContext) (facts : SemanticFacts)
    (conditions : RestorationConditions) (semantic certified : ValidatedSemanticQuery)
    (certificate : Certificate) : Prop where
  query : certified = { semantic with
    metrics := semantic.metrics.map (metricNameOf facts.metrics)
    restorationConditions := some (conditions.named facts.metrics) }
  payload : certificate.semanticQuery = certified.payload
  version : certificate.stateVersion = 1
  metrics : ∀ name ∈ certified.metrics, strip name = name
  orders : ∀ item ∈ (conditions.named facts.metrics).orderBy, item.targetKind = "metric" →
    strip item.target = item.target
  aggregates : ∀ item ∈ (conditions.named facts.metrics).aggregateFilters,
    strip item.metric = item.metric
  again : ∀ question, prepareRestorationState outside
    { certified with originalQuestion := question } context =
      .ok ({ certified with originalQuestion := question }, certificate)

section Again

variable {outside : Surroundings} {context : QueryContext} {facts : SemanticFacts}
  {conditions : RestorationConditions} {semantic certified : ValidatedSemanticQuery}
  {certificate : Certificate}

/-- A selection of another question. -/
def Selection.asked (selection : Selection) (question : String) : Selection :=
  { selection with semantic := { selection.semantic with originalQuestion := question } }

/-- The selection of a query names its metrics, and is the selection of the query it names. -/
lemma selectFacts_again {available : List MetricMetadata} {selection : Selection}
    (hlabels : LabelsIdentify available)
    (h : selectFacts outside available semantic conditions = .ok selection) :
    selection.semantic = { semantic with
        metrics := semantic.metrics.map (metricNameOf available)
        restorationConditions := some (conditions.named available) } ∧
      (∀ name ∈ selection.semantic.metrics, strip name = name) ∧
      (∀ item ∈ (conditions.named available).orderBy, item.targetKind = "metric" →
        strip item.target = item.target) ∧
      (∀ item ∈ (conditions.named available).aggregateFilters, strip item.metric = item.metric) ∧
      ∀ question, selectFacts outside available (selection.asked question).semantic
        (conditions.named available) = .ok (selection.asked question) := by
  unfold selectFacts at h
  obtain ⟨pairs, hpairs, h⟩ := except_bind_ok.mp h
  obtain ⟨hnames, hpairs', hsub, hstrip⟩ := selectMetrics_name hlabels hpairs
  obtain ⟨canonical, hcanonical, h⟩ := except_bind_ok.mp h
  obtain ⟨rfl, hcanonical'⟩ := canonicalConditions_named hlabels hsub hcanonical
  obtain ⟨horders, haggregates⟩ := strip_of_canonical hcanonical'
  obtain ⟨targets, htargets, h⟩ := except_bind_ok.mp h
  obtain ⟨bindings, hbindings, h⟩ := except_bind_ok.mp h
  obtain ⟨_, hchecked, h⟩ := except_bind_ok.mp h
  obtain ⟨columns, hcolumns, h⟩ := except_bind_ok.mp h
  have heq := except_pure_ok.mp h
  rw [← heq]
  refine ⟨?_, hstrip, horders, haggregates, ?_⟩
  · rw [hnames]
  · intro question
    exact except_bind_ok.mpr ⟨pairs, hpairs', except_bind_ok.mpr ⟨_, hcanonical',
      except_bind_ok.mpr ⟨targets, htargets, except_bind_ok.mpr ⟨bindings, hbindings,
        except_bind_ok.mpr ⟨_, hchecked, except_bind_ok.mpr ⟨columns, hcolumns, rfl⟩⟩⟩⟩⟩⟩

/-- The certificate of a selection does not hold its question. -/
lemma closeSelection_asked {selection : Selection}
    (h : closeSelection outside context facts selection = .ok (certified, certificate)) :
    certified = selection.semantic ∧ certificate.semanticQuery = certified.payload ∧
      certificate.stateVersion = 1 ∧ ∀ question,
        closeSelection outside context facts (selection.asked question) =
          .ok ((selection.asked question).semantic, certificate) := by
  unfold closeSelection at h
  obtain ⟨_, hchecked, h⟩ := except_bind_ok.mp h
  obtain ⟨_, htables, h⟩ := except_bind_ok.mp h
  obtain ⟨_, hjoins, h⟩ := except_bind_ok.mp h
  obtain ⟨rfl, rfl⟩ := Prod.mk.inj (except_pure_ok.mp h)
  refine ⟨rfl, rfl, rfl, ?_⟩
  intro question
  exact except_bind_ok.mpr ⟨_, hchecked, except_bind_ok.mpr ⟨_, htables,
    except_bind_ok.mpr ⟨_, hjoins, rfl⟩⟩⟩

/-- A query that is certified names its metrics, and is certified again. -/
theorem prepare_certified (hfacts : context.semanticFacts = some facts)
    (hconditions : semantic.restorationConditions = some conditions)
    (hlabels : LabelsIdentify facts.metrics)
    (h : prepareRestorationState outside semantic context = .ok (certified, certificate)) :
    Certified outside context facts conditions semantic certified certificate := by
  unfold prepareRestorationState at h
  rw [hconditions, hfacts] at h
  obtain ⟨selection, hselection, hclose⟩ := except_bind_ok.mp h
  obtain ⟨hquery, hstrip, horders, haggregates, hagain⟩ := selectFacts_again hlabels hselection
  obtain ⟨rfl, hpayload, hversion, hclosed⟩ := closeSelection_asked hclose
  refine ⟨hquery, hpayload, hversion, hstrip, horders, haggregates, ?_⟩
  intro question
  have hnamed : (selection.asked question).semantic.restorationConditions =
      some (conditions.named facts.metrics) :=
    congrArg ValidatedSemanticQuery.restorationConditions hquery
  change prepareRestorationState outside (selection.asked question).semantic context = _
  unfold prepareRestorationState
  rw [hnamed, hfacts]
  exact except_bind_ok.mpr ⟨_, hagain question, hclosed question⟩

end Again

end ChatBI.Semantic
