import ChatBI.Lib.Raises
import ChatBI.Semantic.Certification
import ChatBI.Semantic.MetricNames

/-!
# What a certificate depends on

Two contexts that agree on what a query selects give the same certificate, or the same refusal,
whatever else they hold and in whatever order.
-/

namespace ChatBI.Semantic

open ChatBI.Lib ChatBI.Lib.AsciiJson

/-! ### Metrics -/

/-- The definition of the name is a part of the certified definition of the record. -/
inductive Needs (available : List MetricMetadata) : MetricMetadata → String → Prop where
  | direct {record : MetricMetadata} {name : String} (h : name ∈ record.dependsOn) :
      Needs available record name
  | through {record dependency : MetricMetadata} {name : String} (hmem : dependency ∈ available)
      (hdirect : dependency.metricName ∈ record.dependsOn)
      (h : Needs available dependency name) : Needs available record name

/-- The records that a text selects are the same. -/
def SameSelected (available available' : List MetricMetadata) (requested : String) : Prop :=
  (available.filter (requested ∈ ·.labels)).Perm (available'.filter (requested ∈ ·.labels))

/-- The records of a name are the same. -/
def SameNamed (available available' : List MetricMetadata) (name : String) : Prop :=
  (available.filter (·.metricName = name)).Perm (available'.filter (·.metricName = name))

/-- The facts agree on the selected metrics and on the definitions that these depend on. -/
structure MetricsAgree (requested : List String) (available available' : List MetricMetadata) :
    Prop where
  selected : ∀ text ∈ requested, SameSelected available available' text
  needed : ∀ text ∈ requested, ∀ record ∈ available, text ∈ record.labels →
    ∀ name, Needs available record name → SameNamed available available' name

lemma MetricsAgree.refl (requested : List String) (available : List MetricMetadata) :
    MetricsAgree requested available available :=
  ⟨fun _ _ => List.Perm.refl _, fun _ _ _ _ _ _ _ => List.Perm.refl _⟩

/-- A single record is found in both lists, or in none of them. -/
lemma eq_singleton_iff_of_perm {α : Type} {xs ys : List α} (h : xs.Perm ys) (x : α) :
    xs = [x] ↔ ys = [x] := by
  constructor
  · intro hx
    rw [hx] at h
    exact List.perm_singleton.mp h.symm
  · intro hy
    rw [hy] at h
    exact List.perm_singleton.mp h

/-- The definitions, without the facts on which their termination rests. -/
lemma dependencyDefinitions_eq (outside : Surroundings) (available : List MetricMetadata)
    (record : MetricMetadata) (path : List String) :
    dependencyDefinitions outside available record path =
      (sorted record.dependsOn.dedup).mapM fun name =>
        match available.filter (·.metricName = name) with
        | [dependency] =>
          if name ∈ path then .error (.certification "指标依赖定义缺失或循环")
          else do
            let formula ← parsed (outside.normalSql dependency.formula)
            let filters ← dependency.filters.mapM fun text => parsed (outside.normalSql text)
            let dependencies ← dependencyDefinitions outside available dependency (name :: path)
            return (name, .mk formula dependency.dataSource dependency.timeField (sorted filters)
              dependencies)
        | _ => .error (.certification "指标依赖定义缺失或循环") := by
  rw [dependencyDefinitions]
  apply mapM_congr
  intro name _
  split
  · next dependency hsingle =>
    rw [hsingle]
    rfl
  · next hnone =>
    split
    · next dependency hsingle => exact absurd hsingle (hnone dependency)
    · rfl

lemma mem_of_filter_eq_singleton {available : List MetricMetadata} {name : String}
    {dependency : MetricMetadata} (h : available.filter (·.metricName = name) = [dependency]) :
    dependency ∈ available ∧ dependency.metricName = name := by
  have hmem : dependency ∈ available.filter (·.metricName = name) := by
    rw [h]
    exact List.mem_singleton_self _
  simpa using hmem

lemma dependencyDefinitions_congr (outside : Surroundings) {available available' : List MetricMetadata}
    (record : MetricMetadata) (path : List String)
    (h : ∀ name, Needs available record name → SameNamed available available' name) :
    dependencyDefinitions outside available record path =
      dependencyDefinitions outside available' record path := by
  -- The names off the path become fewer from one definition to those it depends on.
  induction hsize : (available.filter (·.metricName ∉ path)).length using Nat.strong_induction_on
    generalizing record path with
  | _ size ih =>
    rw [dependencyDefinitions_eq outside available, dependencyDefinitions_eq outside available']
    apply mapM_congr
    intro name hname
    have hdirect : name ∈ record.dependsOn := by
      simpa [sorted] using hname
    have hsame : SameNamed available available' name := h name (.direct hdirect)
    by_cases hsingle : ∃ dependency, available.filter (·.metricName = name) = [dependency]
    · obtain ⟨dependency, hleft⟩ := hsingle
      have hright : available'.filter (·.metricName = name) = [dependency] :=
        (eq_singleton_iff_of_perm hsame dependency).mp hleft
      obtain ⟨hmem, hnamed⟩ := mem_of_filter_eq_singleton hleft
      rw [hleft, hright]
      by_cases hpath : name ∈ path
      · simp only [if_pos hpath]
      · have hrest : dependencyDefinitions outside available dependency (name :: path) =
            dependencyDefinitions outside available' dependency (name :: path) := by
          apply ih _ _ dependency (name :: path) _ rfl
          · rw [← hsize]
            exact length_unvisited_lt hleft hpath
          · intro other hother
            apply h
            apply Needs.through hmem _ hother
            rw [hnamed]
            exact hdirect
        simp only [hrest]
    · -- Neither of the lists defines the name.
      split
      · next dependency hleft => exact absurd ⟨dependency, hleft⟩ hsingle
      · split
        · next dependency hright =>
          exact absurd ⟨dependency, (eq_singleton_iff_of_perm hsame dependency).mpr hright⟩ hsingle
        · rfl

lemma certifyMetric_congr {available available' : List MetricMetadata} {requested : String}
    (h : SameSelected available available' requested) :
    certifyMetric available requested = certifyMetric available' requested := by
  unfold certifyMetric
  split
  · next record hleft =>
    rw [(eq_singleton_iff_of_perm h record).mp hleft]
  · next hnone =>
    split
    · next record hright =>
      exact absurd ((eq_singleton_iff_of_perm h record).mpr hright) (hnone record)
    · rfl

lemma certifyMetric_ok {available : List MetricMetadata} {requested : String}
    {record : MetricMetadata} (h : certifyMetric available requested = .ok record) :
    record ∈ available ∧ requested ∈ record.labels := by
  unfold certifyMetric at h
  split at h
  · next found hsingle =>
    obtain rfl : found = record := Except.ok.inj h
    have hmem : found ∈ available.filter (requested ∈ ·.labels) := by
      rw [hsingle]
      exact List.mem_singleton_self _
    simpa using hmem
  · cases h

lemma selectMetric_congr (outside : Surroundings) {available available' : List MetricMetadata}
    {requested : List String} (h : MetricsAgree requested available available') {text : String}
    (htext : text ∈ requested) :
    selectMetric outside available text = selectMetric outside available' text := by
  unfold selectMetric
  rw [← certifyMetric_congr (h.selected text htext)]
  cases hcertified : certifyMetric available text with
  | error message => rfl
  | ok record =>
    obtain ⟨hmem, hlabel⟩ := certifyMetric_ok hcertified
    have hdefinitions : dependencyDefinitions outside available record [record.metricName] =
        dependencyDefinitions outside available' record [record.metricName] := by
      apply dependencyDefinitions_congr
      exact h.needed text htext record hmem hlabel
    have hrecord : certifiedRecord outside available record =
        certifiedRecord outside available' record := by
      unfold certifiedRecord
      rw [hdefinitions]
    change (certifiedRecord outside available record >>= _) = (certifiedRecord outside available' record >>= _)
    rw [hrecord]

lemma selectFacts_congr (outside : Surroundings) {available available' : List MetricMetadata}
    {semantic : ValidatedSemanticQuery} (conditions : RestorationConditions)
    (h : MetricsAgree semantic.metrics available available') :
    selectFacts outside available semantic conditions =
      selectFacts outside available' semantic conditions := by
  have hselected : semantic.metrics.mapM (selectMetric outside available) =
      semantic.metrics.mapM (selectMetric outside available') :=
    mapM_congr fun text htext => selectMetric_congr outside h htext
  unfold selectFacts
  rw [hselected]

/-! ### Joins -/

lemma selfDelimiting_member {α : Type} {f : α → List Char} (hf : SelfDelimiting f) (key : String)
    {a b : α} {r s : List Char} (h : jsonMember key (f a) r = jsonMember key (f b) s) :
    a = b ∧ r = s := by
  unfold jsonMember at h
  exact hf (List.cons_injective (List.cons_injective (List.append_cancel_left h)))

/-- The text of a join tells the join. -/
lemma JoinConstraint.text_injective : Function.Injective JoinConstraint.text := by
  intro c d h
  unfold JoinConstraint.text at h
  obtain ⟨hdirection, h⟩ := selfDelimiting_member selfDelimiting_dumpString _ (List.cons_injective h)
  obtain ⟨hsourceColumns, h⟩ := selfDelimiting_member selfDelimiting_dumpStrings _
    (List.cons_injective (List.cons_injective h))
  obtain ⟨hsource, h⟩ := selfDelimiting_member selfDelimiting_dumpString _
    (List.cons_injective (List.cons_injective h))
  obtain ⟨htargetColumns, h⟩ := selfDelimiting_member selfDelimiting_dumpStrings _
    (List.cons_injective (List.cons_injective h))
  obtain ⟨htarget, h⟩ := selfDelimiting_member selfDelimiting_dumpString _
    (List.cons_injective (List.cons_injective h))
  obtain ⟨hbasis, -⟩ := selfDelimiting_member selfDelimiting_dumpString _
    (List.cons_injective (List.cons_injective h))
  cases c
  cases d
  simp_all

/-- Sorting by the text forgets the order. -/
lemma sortedJoins_congr {joins joins' : List JoinConstraint} (h : joins.Perm joins') :
    (joins.mergeSort fun c d => c.text ≤ d.text) = joins'.mergeSort fun c d => c.text ≤ d.text := by
  have hsorted : ∀ items : List JoinConstraint,
      (items.mergeSort fun c d => c.text ≤ d.text).Pairwise fun c d => c.text ≤ d.text := by
    intro items
    have htrans : ∀ a b c : JoinConstraint, decide (a.text ≤ b.text) = true →
        decide (b.text ≤ c.text) = true → decide (a.text ≤ c.text) = true := by
      intro a b c hab hbc
      exact decide_eq_true (le_trans (of_decide_eq_true hab) (of_decide_eq_true hbc))
    have htotal : ∀ a b : JoinConstraint,
        (decide (a.text ≤ b.text) || decide (b.text ≤ a.text)) = true := by
      intro a b
      rw [Bool.or_eq_true, decide_eq_true_eq, decide_eq_true_eq]
      exact le_total _ _
    exact (List.pairwise_mergeSort htrans htotal items).imp fun hcd => of_decide_eq_true hcd
  have hperm : (joins.mergeSort fun c d => c.text ≤ d.text).Perm
      (joins'.mergeSort fun c d => c.text ≤ d.text) :=
    (List.mergeSort_perm _ _).trans (h.trans (List.mergeSort_perm _ _).symm)
  apply hperm.eq_of_pairwise _ (hsorted joins) (hsorted joins')
  intro c d _ _ hcd hdc
  exact JoinConstraint.text_injective (le_antisymm hcd hdc)

/-! ### Physical references -/

/-- The contexts agree on the types and the allowance of the used columns and on the joins among
the used tables. -/
structure SameReferences (selection : Selection) (context context' : QueryContext)
    (facts facts' : SemanticFacts) : Prop where
  allowance : ∀ q ∈ selection.usedColumns, ∀ table column, splitColumn q = some (table, column) →
    (context.Allows table column ↔ context'.Allows table column)
  types : ∀ q ∈ selection.usedColumns,
    columnType facts.columns q = columnType facts'.columns q
  joins : (context.joinsAmong selection.usedTables).Perm (context'.joinsAmong selection.usedTables)
  joinTypes : ∀ c ∈ context.joinsAmong selection.usedTables, ∀ q ∈ c.columns,
    columnType facts.columns q = columnType facts'.columns q

/-- The contexts agree on the allowance of the tables that the metrics take their data from. -/
def SameSources (selection : Selection) (context context' : QueryContext) : Prop :=
  ∀ metric ∈ selection.metrics,
    metric.dataSource ∈ context.allowedTables ↔ metric.dataSource ∈ context'.allowedTables

section References

variable {selection : Selection} {context context' : QueryContext} {facts facts' : SemanticFacts}

lemma checkColumn_congr (h : SameReferences selection context context' facts facts') {q : String}
    (hq : q ∈ selection.usedColumns) : checkColumn context facts q = checkColumn context' facts' q := by
  unfold checkColumn
  cases hsplit : splitColumn q with
  | none => rfl
  | some parts =>
    apply require_congr
    rw [h.allowance q hq parts.1 parts.2 hsplit, h.types q hq]

lemma checkColumn_ok {q table column : String} (hsplit : splitColumn q = some (table, column))
    (h : checkColumn context facts q = .ok ()) : context.Allows table column := by
  unfold checkColumn at h
  rw [hsplit] at h
  exact (require_ok.mp h).1

/-- Where the used columns are certified, the contexts allow the same used tables. -/
lemma tables_allowed_iff (h : SameReferences selection context context' facts facts')
    (hsources : SameSources selection context context')
    (hcolumns : ∀ q ∈ selection.usedColumns, checkColumn context facts q = .ok ()) :
    (∀ table ∈ selection.usedTables, table ∈ context.allowedTables) ↔
      ∀ table ∈ selection.usedTables, table ∈ context'.allowedTables := by
  apply forall₂_congr
  intro table htable
  rcases List.mem_append.mp htable with hcolumn | hsource
  · obtain ⟨q, hq, hparts⟩ := List.mem_filterMap.mp hcolumn
    obtain ⟨parts, hsplit, rfl⟩ := Option.map_eq_some_iff.mp hparts
    have hallows : context.Allows parts.1 parts.2 := checkColumn_ok hsplit (hcolumns q hq)
    have hallows' : context'.Allows parts.1 parts.2 :=
      (h.allowance q hq parts.1 parts.2 hsplit).mp hallows
    exact ⟨fun _ => hallows'.1, fun _ => hallows.1⟩
  · obtain ⟨metric, hmetric, rfl⟩ := List.mem_map.mp hsource
    exact hsources metric hmetric

lemma joins_known_iff (h : SameReferences selection context context' facts facts') :
    (∀ c ∈ context.joinsAmong selection.usedTables, ∀ q ∈ c.columns,
        IsKnown (columnType facts.columns q)) ↔
      ∀ c ∈ context'.joinsAmong selection.usedTables, ∀ q ∈ c.columns,
        IsKnown (columnType facts'.columns q) := by
  constructor
  · intro hknown c hc q hq
    have hmem := h.joins.mem_iff.mpr hc
    rw [← h.joinTypes c hmem q hq]
    exact hknown c hmem q hq
  · intro hknown c hc q hq
    rw [h.joinTypes c hc q hq]
    exact hknown c (h.joins.mem_iff.mp hc) q hq

lemma sorted_congr {xs ys : List String} (h : xs.Perm ys) : sorted xs = sorted ys := by
  have hperm : (sorted xs).Perm (sorted ys) :=
    (List.perm_insertionSort _ xs).trans (h.trans (List.perm_insertionSort _ ys).symm)
  exact hperm.eq_of_pairwise (fun _ _ _ _ hab hba => le_antisymm hab hba)
    (List.pairwise_insertionSort _ xs) (List.pairwise_insertionSort _ ys)

/-- The certified columns and their types are the same. -/
lemma certifiedColumns_congr (h : SameReferences selection context context' facts facts') :
    (sorted (selection.usedColumns ++
        (context.joinsAmong selection.usedTables).flatMap JoinConstraint.columns).dedup).map
      (fun q => (q, (columnType facts.columns q).getD "")) =
    (sorted (selection.usedColumns ++
        (context'.joinsAmong selection.usedTables).flatMap JoinConstraint.columns).dedup).map
      fun q => (q, (columnType facts'.columns q).getD "") := by
  have hcolumns := (h.joins.flatMap_right JoinConstraint.columns).append_left selection.usedColumns
  rw [← sorted_congr hcolumns.dedup]
  apply List.map_congr_left
  intro q hq
  have hmem : q ∈ selection.usedColumns ++
      (context.joinsAmong selection.usedTables).flatMap JoinConstraint.columns := by
    simpa [sorted] using hq
  have htype : columnType facts.columns q = columnType facts'.columns q := by
    rcases List.mem_append.mp hmem with hused | hjoin
    · exact h.types q hused
    · obtain ⟨c, hc, hqc⟩ := List.mem_flatMap.mp hjoin
      exact h.joinTypes c hc q hqc
  rw [htype]

lemma closeSelection_congr (outside : Surroundings)
    (h : SameReferences selection context context' facts facts')
    (hsources : SameSources selection context context') :
    closeSelection outside context facts selection =
      closeSelection outside context' facts' selection := by
  have hforM : (outside.iterate selection.usedColumns).forM (checkColumn context facts) =
      (outside.iterate selection.usedColumns).forM (checkColumn context' facts') :=
    forM_congr fun q hq => checkColumn_congr h (outside.mem_iterate.mp hq)
  unfold closeSelection
  rw [← hforM]
  cases hchecked : (outside.iterate selection.usedColumns).forM (checkColumn context facts) with
  | error e => rfl
  | ok _ =>
    have hcolumns : ∀ q ∈ selection.usedColumns, checkColumn context facts q = .ok () := by
      intro q hq
      exact forM_ok_iff.mp hchecked q (outside.mem_iterate.mpr hq)
    simp only [require_congr (tables_allowed_iff h hsources hcolumns),
      require_congr (joins_known_iff h), certifiedColumns_congr h, sortedJoins_congr h.joins]

end References

/-! ### Contexts -/

/-- The contexts agree on what the query selects: on the metrics with the definitions they depend
on, and on the references of the selection. -/
inductive ContextsAgree (outside : Surroundings) (semantic : ValidatedSemanticQuery)
    (context context' : QueryContext) : Prop where
  | unpublished (h : context.semanticFacts = none) (h' : context'.semanticFacts = none)
  | published {facts facts' : SemanticFacts} (h : context.semanticFacts = some facts)
      (h' : context'.semanticFacts = some facts')
      (metrics : MetricsAgree semantic.metrics facts.metrics facts'.metrics)
      (references : ∀ conditions selection, semantic.restorationConditions = some conditions →
        selectFacts outside facts.metrics semantic conditions = .ok selection →
          SameReferences selection context context' facts facts')

/-- The contexts agree on the allowance of the tables of the selected metrics. -/
def SourcesAgree (outside : Surroundings) (semantic : ValidatedSemanticQuery)
    (context context' : QueryContext) : Prop :=
  ∀ facts conditions selection, context.semanticFacts = some facts →
    semantic.restorationConditions = some conditions →
      selectFacts outside facts.metrics semantic conditions = .ok selection →
        SameSources selection context context'

/-- A query gets the same certificate, or the same refusal, in contexts that agree on what it
selects. -/
theorem certificate_relevant (outside : Surroundings) (semantic : ValidatedSemanticQuery)
    (context context' : QueryContext) (h : ContextsAgree outside semantic context context')
    (hsources : SourcesAgree outside semantic context context') :
    prepareRestorationState outside semantic context =
      prepareRestorationState outside semantic context' := by
  unfold prepareRestorationState
  cases hconditions : semantic.restorationConditions with
  | none => rfl
  | some conditions =>
    cases h with
    | unpublished hnone hnone' => rw [hnone, hnone']
    | @published facts facts' hfacts hfacts' hmetrics hreferences =>
      rw [hfacts, hfacts']
      change (selectFacts outside facts.metrics semantic conditions >>= _) =
        (selectFacts outside facts'.metrics semantic conditions >>= _)
      rw [← selectFacts_congr outside conditions hmetrics]
      cases hselection : selectFacts outside facts.metrics semantic conditions with
      | error e => rfl
      | ok selection =>
        exact closeSelection_congr outside (hreferences conditions selection hconditions hselection)
          (hsources facts conditions selection hfacts hconditions hselection)

/-- Metrics that no requested text names and that no selected metric depends on change nothing, and
neither does the order of the metrics. -/
lemma MetricsAgree.of_perm_append {requested : List String}
    {available available' extra : List MetricMetadata} (hperm : (available ++ extra).Perm available')
    (hlabels : ∀ m ∈ extra, ∀ text ∈ requested, text ∉ m.labels)
    (hnames : ∀ m ∈ extra, ∀ record ∈ available, (∃ text ∈ requested, text ∈ record.labels) →
      ¬Needs available record m.metricName) :
    MetricsAgree requested available available' := by
  have hfilter : ∀ p : MetricMetadata → Bool, (∀ m ∈ extra, ¬p m) →
      (available.filter p).Perm (available'.filter p) := by
    intro p hnone
    have happend : (available ++ extra).filter p = available.filter p := by
      rw [List.filter_append, List.filter_eq_nil_iff.mpr hnone, List.append_nil]
    rw [← happend]
    exact hperm.filter p
  constructor
  · intro text htext
    apply hfilter
    intro m hm
    simpa using hlabels m hm text htext
  · intro text htext record hrecord hlabel name hneeds
    apply hfilter
    intro m hm hname
    obtain rfl : m.metricName = name := by simpa using hname
    exact hnames m hm record hrecord ⟨text, htext, hlabel⟩ hneeds

lemma dependencyDefinitions_of_independent (outside : Surroundings)
    (available : List MetricMetadata) {record : MetricMetadata} (h : record.dependsOn = [])
    (path : List String) : dependencyDefinitions outside available record path = .ok [] := by
  rw [dependencyDefinitions, h]
  rfl

/-! ### The number of order lines -/

/-- The facts on the number of order lines. -/
def lineCount : MetricMetadata where
  metricName := "订单行数"
  aliases := []
  formula := "COUNT(*)"
  dataSource := "mart_sales.fct_sales_order_line"
  timeField := "completion_date_key"
  filters := []
  dependsOn := []
  stripped := by decide +kernel

/-- A query for the number of order lines, with its conditions. -/
def lineCountQuery : ValidatedSemanticQuery where
  queryType := .metricAnalysis
  subjects := []
  metrics := ["订单行数"]
  dimensions := []
  time := none
  filters := []
  originalQuestion := "订单行数"
  restorationConditions := some ⟨[], none, [], none⟩

/-- Surroundings that leave a formula as it is and find no column in it. -/
def plainSurroundings : Surroundings where
  normalSql := some
  columnNames := fun _ => some []
  digest := id
  iterate := List.dedup
  config := ⟨[], [], []⟩
  iterates := fun _ => List.Perm.refl _

def lineCountContext (allowedTables : List String) (metrics : List MetricMetadata) : QueryContext where
  allowedTables := allowedTables
  allowedColumns := []
  joinConstraints := []
  semanticFacts := some ⟨metrics, []⟩

/-- What the query selects: a table, and no column. -/
def lineCountSelection : Selection where
  semantic := lineCountQuery
  metrics := [⟨"订单行数", "COUNT(*)", "mart_sales.fct_sales_order_line", "completion_date_key", [], [], []⟩]
  bindings := []
  usedColumns := []

lemma selectFacts_lineCount :
    selectFacts plainSurroundings [lineCount] lineCountQuery ⟨[], none, [], none⟩ =
      .ok lineCountSelection := by
  have hdefinitions : dependencyDefinitions plainSurroundings [lineCount] lineCount ["订单行数"] =
      .ok [] := dependencyDefinitions_of_independent _ _ rfl _
  have hselect : selectMetric plainSurroundings [lineCount] "订单行数" = .ok (lineCount,
      ⟨"订单行数", "COUNT(*)", "mart_sales.fct_sales_order_line", "completion_date_key", [], [], []⟩) := by
    unfold selectMetric certifiedRecord
    change (dependencyDefinitions plainSurroundings [lineCount] lineCount ["订单行数"] >>= _) >>= _ = _
    rw [hdefinitions]
    rfl
  unfold selectFacts
  change (selectMetric plainSurroundings [lineCount] "订单行数" >>= _) >>= _ = _
  rw [hselect]
  rfl

/-- Published contexts for the query agree where their metrics and their joins on the table do. -/
lemma contextsAgree_lineCount {context context' : QueryContext} {columns columns' : List ColumnFact}
    {metrics' : List MetricMetadata} (h : context.semanticFacts = some ⟨[lineCount], columns⟩)
    (h' : context'.semanticFacts = some ⟨metrics', columns'⟩)
    (hmetrics : MetricsAgree ["订单行数"] [lineCount] metrics')
    (hjoins : context.joinsAmong lineCountSelection.usedTables = [])
    (hjoins' : context'.joinsAmong lineCountSelection.usedTables = []) :
    ContextsAgree plainSurroundings lineCountQuery context context' := by
  apply ContextsAgree.published h h' hmetrics
  intro conditions selection hconditions hselection
  obtain rfl : ⟨[], none, [], none⟩ = conditions := Option.some.inj hconditions
  obtain rfl : lineCountSelection = selection :=
    Except.ok.inj (selectFacts_lineCount.symm.trans hselection)
  constructor
  · intro q hq
    exact absurd hq List.not_mem_nil
  · intro q hq
    exact absurd hq List.not_mem_nil
  · rw [hjoins, hjoins']
  · intro c hc
    rw [hjoins] at hc
    exact absurd hc List.not_mem_nil

/-- The context that retrieval finds with another metric, another table and its column in front. -/
def rankedContext : QueryContext where
  allowedTables := ["mart_sales.dim_product", "mart_sales.fct_sales_order_line"]
  allowedColumns := [("mart_sales.dim_product", ["product_name"])]
  joinConstraints := [⟨"mart_sales.fct_sales_order_line", ["product_key"], "mart_sales.dim_product",
    ["product_key"], "primary_key", "many_to_one"⟩]
  semanticFacts := some ⟨[netSales, lineCount], [⟨"mart_sales", "dim_product", "product_name", "text"⟩]⟩

/-- The number of order lines, with and without the other metric. -/
theorem certificate_relevant_ranked :
    prepareRestorationState plainSurroundings lineCountQuery
        (lineCountContext ["mart_sales.fct_sales_order_line"] [lineCount]) =
      prepareRestorationState plainSurroundings lineCountQuery rankedContext := by
  apply certificate_relevant
  · apply contextsAgree_lineCount rfl rfl _ (by decide +kernel) (by decide +kernel)
    apply @MetricsAgree.of_perm_append _ _ _ [netSales] (List.Perm.swap _ _ _)
    · decide +kernel
    · intro m hm record hrecord _ hneeds
      rw [List.mem_singleton.mp hrecord] at hneeds
      cases hneeds with
      | direct h => exact absurd h List.not_mem_nil
      | through hmem hdirect h => exact absurd hdirect List.not_mem_nil
  · intro facts conditions selection hfacts hconditions hselection metric hmetric
    obtain rfl : ⟨[lineCount], []⟩ = facts := Option.some.inj hfacts
    obtain rfl : ⟨[], none, [], none⟩ = conditions := Option.some.inj hconditions
    obtain rfl : lineCountSelection = selection :=
      Except.ok.inj (selectFacts_lineCount.symm.trans hselection)
    rw [List.mem_singleton.mp hmetric]
    decide +kernel

/-- The number of rows uses no column of its table, and the table decides on the certificate. -/
theorem unused_table_decides :
    ContextsAgree plainSurroundings lineCountQuery
        (lineCountContext ["mart_sales.fct_sales_order_line"] [lineCount])
        (lineCountContext [] [lineCount]) ∧
      prepareRestorationState plainSurroundings lineCountQuery
          (lineCountContext ["mart_sales.fct_sales_order_line"] [lineCount]) ≠
        prepareRestorationState plainSurroundings lineCountQuery (lineCountContext [] [lineCount]) := by
  constructor
  · exact contextsAgree_lineCount rfl rfl (MetricsAgree.refl _ _) rfl rfl
  · have hprepare : ∀ allowedTables, prepareRestorationState plainSurroundings lineCountQuery
        (lineCountContext allowedTables [lineCount]) = closeSelection plainSurroundings
          (lineCountContext allowedTables [lineCount]) ⟨[lineCount], []⟩ lineCountSelection := by
      intro allowedTables
      change (selectFacts plainSurroundings [lineCount] lineCountQuery ⟨[], none, [], none⟩ >>= _) = _
      rw [selectFacts_lineCount]
      rfl
    rw [hprepare, hprepare]
    intro h
    have hrefused : closeSelection plainSurroundings (lineCountContext [] [lineCount])
        ⟨[lineCount], []⟩ lineCountSelection = .error (.certification "指标来源不在当前认证闭包") := rfl
    rw [hrefused] at h
    cases h

end ChatBI.Semantic
