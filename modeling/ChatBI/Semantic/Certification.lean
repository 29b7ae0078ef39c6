import ChatBI.Lib.AsciiJson
import ChatBI.Semantic.MetricPlan
import Mathlib.Data.String.Basic

/-!
# Certifying a query

`prepare_restoration_state` certifies the conditions of a query against the facts of a retrieval
context. The SQL parser, the digest of a text and the order in which a set is iterated are
parameters.
-/

namespace ChatBI.Semantic

open ChatBI.Lib

/-- `SemanticCertificationError`, `SemanticConditionClarificationError`, and every exception of
another type. -/
inductive CertificationError where
  | certification (message : String)
  | clarification (message : String)
  | unexpected
  deriving DecidableEq

structure ColumnFact where
  schemaName : String
  tableName : String
  columnName : String
  dataType : String
  deriving DecidableEq

structure SemanticFacts where
  metrics : List MetricMetadata
  columns : List ColumnFact
  deriving DecidableEq

structure JoinConstraint where
  sourceTable : String
  sourceColumns : List String
  targetTable : String
  targetColumns : List String
  uniquenessBasis : String
  direction : String
  deriving DecidableEq

structure QueryContext where
  allowedTables : List String
  allowedColumns : Dict String (List String)
  joinConstraints : List JoinConstraint
  semanticFacts : Option SemanticFacts
  deriving DecidableEq

/-- A binding of a business field to a column. -/
structure Binding where
  column : String
  subject : Option String := none
  valueAliases : List (String × String) := []
  deriving DecidableEq

/-- `load_query_bindings`. -/
structure QueryBindings where
  dimensions : Dict String Binding
  entityFields : Dict String Binding
  filters : Dict String Binding

/-- The bindings of all kinds: the later ones replace the earlier ones. -/
def QueryBindings.get? (config : QueryBindings) (name : String) : Option Binding :=
  (Dict.get? config.filters name).or
    ((Dict.get? config.entityFields name).or (Dict.get? config.dimensions name))

inductive UsedBinding where
  | time (granularity : String)
  | field (binding : Binding)
  deriving DecidableEq

def UsedBinding.column : UsedBinding → String
  | time _ => "mart_sales.dim_date.full_date"
  | field binding => binding.column

/-- The definition of a dependency, with those of its own dependencies. -/
inductive DependencyDefinition where
  | mk (formula dataSource timeField : String) (filters : List String)
      (dependencies : List (String × DependencyDefinition))

structure CertifiedMetric where
  name : String
  formula : String
  dataSource : String
  timeField : String
  filters : List String
  dependsOn : List String
  dependencyDefinitions : List (String × DependencyDefinition)

structure Provenance where
  metrics : List CertifiedMetric
  bindings : List (String × UsedBinding)
  columns : List (String × String)
  joins : List JoinConstraint

/-- The members of the semantic query of a certificate: all of it but the question. -/
structure SemanticPayload where
  queryType : QueryType
  subjects : List String
  metrics : List String
  dimensions : List String
  time : Option ValidatedTime
  filters : List ValidatedFilter
  conditions : Option RestorationConditions

def ValidatedSemanticQuery.payload (q : ValidatedSemanticQuery) : SemanticPayload where
  queryType := q.queryType
  subjects := q.subjects
  metrics := q.metrics
  dimensions := q.dimensions
  time := q.time
  filters := q.filters
  conditions := q.restorationConditions

structure Certificate where
  stateVersion : ℕ := 1
  semanticQuery : SemanticPayload
  provenance : Provenance

/-- What the certification uses from outside: `parse_one(…).sql(normalize=True)` and the names of
the columns of an expression, none where the parser raises; the first digits of a digest; the
elements of a set in the order of its iteration. -/
structure Surroundings where
  normalSql : String → Option String
  columnNames : String → Option (List String)
  digest : String → String
  iterate : List String → List String
  config : QueryBindings
  iterates : ∀ texts, (iterate texts).Perm texts.dedup

lemma Surroundings.mem_iterate (outside : Surroundings) {texts : List String} {text : String} :
    text ∈ outside.iterate texts ↔ text ∈ texts := by
  rw [(outside.iterates texts).mem_iff, List.mem_dedup]

def timeNames : Dict String String := [("年份", "year"), ("季度", "quarter"), ("月份", "month")]

def subjectAliases : Dict String String :=
  [("客户", "客户"), ("产品", "产品"), ("订单", "销售订单"), ("销售订单", "销售订单")]

def timeColumns : List String :=
  ["mart_sales.fct_sales_order_line.completion_date_key", "mart_sales.dim_date.date_key",
    "mart_sales.dim_date.full_date"]

def sorted (texts : List String) : List String := texts.insertionSort (· ≤ ·)

/-- A name that is put on the path leaves fewer records beside it. -/
lemma length_unvisited_lt {available : List MetricMetadata} {dependency : MetricMetadata}
    {name : String} {path : List String}
    (h : available.filter (·.metricName = name) = [dependency]) (hpath : name ∉ path) :
    (available.filter (·.metricName ∉ name :: path)).length <
      (available.filter (·.metricName ∉ path)).length := by
  have hdependency : dependency ∈ available ∧ dependency.metricName = name := by
    have hmem : dependency ∈ available.filter (·.metricName = name) := by
      rw [h]
      exact List.mem_singleton_self _
    simpa using hmem
  have hnested : available.filter (·.metricName ∉ name :: path) =
      (available.filter (·.metricName ∉ path)).filter (·.metricName ∉ name :: path) := by
    rw [List.filter_filter]
    apply List.filter_congr
    intro r _
    simp only [List.mem_cons, not_or, Bool.decide_and]
    cases decide (r.metricName = name) <;> simp
  rw [hnested, List.length_filter_lt_length_iff_exists]
  refine ⟨dependency, ?_, ?_⟩
  · simp [hdependency, hpath]
  · simp [hdependency]

section Metrics

variable (outside : Surroundings) (available : List MetricMetadata)

/-- What the parser returns. -/
def parsed {α : Type} : Option α → Except CertificationError α
  | some value => .ok value
  | none => .error .unexpected

/-- `_dependency_definitions`, along the path of the names that lead to the record. A name that
stands twice among the dependencies is defined once. -/
def dependencyDefinitions (record : MetricMetadata) (path : List String) :
    Except CertificationError (List (String × DependencyDefinition)) :=
  (sorted record.dependsOn.dedup).mapM fun name =>
    match _h : available.filter (·.metricName = name) with
    | [dependency] =>
      if _hpath : name ∈ path then .error (.certification "指标依赖定义缺失或循环")
      else do
        let formula ← parsed (outside.normalSql dependency.formula)
        let filters ← dependency.filters.mapM fun text => parsed (outside.normalSql text)
        let dependencies ← dependencyDefinitions dependency (name :: path)
        return (name, .mk formula dependency.dataSource dependency.timeField (sorted filters)
          dependencies)
    | _ => .error (.certification "指标依赖定义缺失或循环")
termination_by (available.filter (·.metricName ∉ path)).length
decreasing_by exact length_unvisited_lt _h _hpath

/-- The certified definition of a selected record. -/
def certifiedRecord (record : MetricMetadata) : Except CertificationError CertifiedMetric := do
  let formula ← parsed (outside.normalSql record.formula)
  let filters ← record.filters.mapM fun text => parsed (outside.normalSql text)
  let dependencies ← dependencyDefinitions outside available record [record.metricName]
  return {
    name := record.metricName
    formula
    dataSource := record.dataSource
    timeField := record.timeField
    filters := sorted filters
    dependsOn := sorted record.dependsOn
    dependencyDefinitions := dependencies }

/-- The loop body over the requested metrics. -/
def selectMetric (requested : String) :
    Except CertificationError (MetricMetadata × CertifiedMetric) := do
  let record ← (certifyMetric available requested).mapError .certification
  return (record, ← certifiedRecord outside available record)

end Metrics

/-! ### Conditions -/

def selectedMetricName (selected : List MetricMetadata) (requested : String) :
    Except CertificationError String :=
  match selected.filter (requested ∈ ·.labels) with
  | [record] => .ok record.metricName
  | _ => .error (.clarification "指标条件未指向当前已认证指标")

def canonicalOrder (selected : List MetricMetadata) (item : BusinessOrder) :
    Except CertificationError BusinessOrder :=
  if item.targetKind = "metric" then do
    return { item with target := ← selectedMetricName selected item.target }
  else .ok item

def canonicalAggregate (selected : List MetricMetadata) (item : AggregateFilter) :
    Except CertificationError AggregateFilter := do
  return { item with metric := ← selectedMetricName selected item.metric }

def canonicalConditions (selected : List MetricMetadata) (conditions : RestorationConditions) :
    Except CertificationError RestorationConditions := do
  let orderBy ← conditions.orderBy.mapM (canonicalOrder selected)
  let aggregateFilters ← conditions.aggregateFilters.mapM (canonicalAggregate selected)
  return { conditions with orderBy, aggregateFilters }

/-- What the query groups by or selects. -/
def queryTargets (config : QueryBindings) (semantic : ValidatedSemanticQuery)
    (conditions : RestorationConditions) (metricCount : ℕ) : Except CertificationError (List String) :=
  if semantic.queryType = .entityLookup then
    match conditions.selection with
    | some selection => do
      require (conditions.aggregateFilters = []) (.certification "实体选择不完整")
      let subjects := semantic.subjects.map (Dict.get? subjectAliases)
      require (none ∉ subjects ∧ subjects ≠ []) (.certification "实体主题无法认证")
      require (∀ name ∈ selection.fields,
          ((Dict.get? config.entityFields name).bind Binding.subject) ∈ subjects)
        (.certification "实体字段不属于所选主题")
      return selection.fields
    | none => .error (.certification "实体选择不完整")
  else do
    require (conditions.selection = none) (.certification "指标查询不能携带实体选择")
    require (¬(2 ≤ metricCount ∧ conditions.aggregateFilters ≠ []))
      (.certification "多指标不支持聚合后筛选")
    return semantic.dimensions

def usedBinding (outside : Surroundings) (name : String) :
    Except CertificationError (String × UsedBinding) :=
  match Dict.get? timeNames name, outside.config.get? name with
  | some granularity, _ => .ok (name, .time granularity)
  | none, some binding => .ok (name, .field binding)
  | none, none => .error (.certification ("业务字段没有认证映射:" ++ outside.digest name))

def expectedKind (canonicalMetrics : List String) (conditions : RestorationConditions)
    (target : String) : String :=
  if target ∈ canonicalMetrics then "metric"
  else if Dict.get? timeNames target ≠ none then "time"
  else if conditions.selection ≠ none then "entity_field"
  else "dimension"

def checkOrders (targets canonicalMetrics : List String) (conditions : RestorationConditions) :
    Except CertificationError Unit := do
  require (∀ item ∈ conditions.aggregateFilters, item.metric ∈ canonicalMetrics)
    (.certification "聚合筛选指标未选择")
  require (¬(conditions.rowLimit ≠ none ∧ conditions.orderBy = []))
    (.certification "排名条件缺少明确排序依据")
  require (∀ item ∈ conditions.orderBy, item.target ∈ targets ++ canonicalMetrics)
    (.certification "排序对象不在业务输出中")
  require (∀ item ∈ conditions.orderBy,
      item.targetKind = expectedKind canonicalMetrics conditions item.target)
    (.certification "排序对象类型不符")

/-- The columns of the formula and the filters of a metric. -/
def metricColumns (outside : Surroundings) (metric : CertifiedMetric) :
    Except CertificationError (List String) := do
  let formula ← parsed (outside.columnNames metric.formula)
  let filters ← metric.filters.mapM fun text => parsed (outside.columnNames text)
  return (formula ++ filters.flatten).map (metric.dataSource ++ "." ++ ·)

/-- What a query selects, before its physical references are certified. -/
structure Selection where
  semantic : ValidatedSemanticQuery
  metrics : List CertifiedMetric
  bindings : List (String × UsedBinding)
  usedColumns : List String

def selectFacts (outside : Surroundings) (available : List MetricMetadata)
    (semantic : ValidatedSemanticQuery) (conditions : RestorationConditions) :
    Except CertificationError Selection := do
  let selected ← semantic.metrics.mapM (selectMetric outside available)
  let metrics := selected.map Prod.snd
  let canonicalMetrics := metrics.map CertifiedMetric.name
  let conditions ← canonicalConditions (selected.map Prod.fst) conditions
  let semantic :=
    { semantic with metrics := canonicalMetrics, restorationConditions := some conditions }
  let targets ← queryTargets outside.config semantic conditions metrics.length
  let bindings ← (outside.iterate (targets ++ semantic.filters.map ValidatedFilter.fieldText)).mapM
    (usedBinding outside)
  checkOrders targets canonicalMetrics conditions
  let columns ← metrics.mapM (metricColumns outside)
  return {
    semantic
    metrics
    bindings
    usedColumns := bindings.map (fun b => b.2.column) ++ columns.flatten ++
      if semantic.time ≠ none ∨ ∃ name ∈ targets, Dict.get? timeNames name ≠ none then timeColumns
      else [] }

/-! ### Physical references -/

def ColumnFact.qualified (c : ColumnFact) : String :=
  c.schemaName ++ "." ++ c.tableName ++ "." ++ c.columnName

/-- The type of a column in `column_facts`: the last fact counts. -/
def columnType (columns : List ColumnFact) (qualified : String) : Option String :=
  (columns.reverse.find? (·.qualified = qualified)).map ColumnFact.dataType

/-- `qualified.rsplit(".", 1)`. -/
def splitColumn (qualified : String) : Option (String × String) :=
  let reversed := qualified.toList.reverse
  if '.' ∈ reversed then
    some (String.ofList ((reversed.dropWhile (· ≠ '.')).drop 1).reverse,
      String.ofList (reversed.takeWhile (· ≠ '.')).reverse)
  else none

/-- The table and the column are among those that are allowed. -/
def QueryContext.Allows (context : QueryContext) (table column : String) : Prop :=
  table ∈ context.allowedTables ∧
    column ∈ (Dict.get? context.allowedColumns table).getD []

instance (context : QueryContext) (table column : String) : Decidable (context.Allows table column) :=
  inferInstanceAs (Decidable (_ ∧ _))

/-- A type that is known. -/
def IsKnown (dataType : Option String) : Prop := dataType ≠ none ∧ dataType ≠ some "UNKNOWN"

instance (dataType : Option String) : Decidable (IsKnown dataType) :=
  inferInstanceAs (Decidable (_ ∧ _))

def checkColumn (context : QueryContext) (facts : SemanticFacts) (qualified : String) :
    Except CertificationError Unit :=
  match splitColumn qualified with
  | none => .error .unexpected
  | some (table, column) =>
    require (context.Allows table column ∧ IsKnown (columnType facts.columns qualified))
      (.certification "物理引用不在当前认证闭包")

/-- The tables of the used columns and of the metrics. -/
def Selection.usedTables (selection : Selection) : List String :=
  selection.usedColumns.filterMap (fun q => (splitColumn q).map Prod.fst) ++
    selection.metrics.map CertifiedMetric.dataSource

/-- The columns of both sides of a join. -/
def JoinConstraint.columns (c : JoinConstraint) : List String :=
  c.sourceColumns.map (c.sourceTable ++ "." ++ ·) ++ c.targetColumns.map (c.targetTable ++ "." ++ ·)

/-- A member of an object, and what follows it. -/
def jsonMember (key : String) (value rest : List Char) : List Char :=
  AsciiJson.dumpString key ++ ':' :: ' ' :: (value ++ rest)

/-- `json.dumps(item, sort_keys=True)`. -/
def JoinConstraint.text (c : JoinConstraint) : List Char :=
  '\x7b' :: jsonMember "direction" (AsciiJson.dumpString c.direction)
    (',' :: ' ' :: jsonMember "source_columns" (AsciiJson.dumpStrings c.sourceColumns)
      (',' :: ' ' :: jsonMember "source_table" (AsciiJson.dumpString c.sourceTable)
        (',' :: ' ' :: jsonMember "target_columns" (AsciiJson.dumpStrings c.targetColumns)
          (',' :: ' ' :: jsonMember "target_table" (AsciiJson.dumpString c.targetTable)
            (',' :: ' ' :: jsonMember "uniqueness_basis" (AsciiJson.dumpString c.uniquenessBasis)
              ['\x7d'])))))

/-- The joins among the used tables. -/
def QueryContext.joinsAmong (context : QueryContext) (tables : List String) : List JoinConstraint :=
  context.joinConstraints.filter fun c => c.sourceTable ∈ tables ∧ c.targetTable ∈ tables

/-- The certificate of a selection whose physical references are certified. -/
def closeSelection (outside : Surroundings) (context : QueryContext) (facts : SemanticFacts)
    (selection : Selection) : Except CertificationError (ValidatedSemanticQuery × Certificate) := do
  (outside.iterate selection.usedColumns).forM (checkColumn context facts)
  require (∀ table ∈ selection.usedTables, table ∈ context.allowedTables)
    (.certification "指标来源不在当前认证闭包")
  let joins := context.joinsAmong selection.usedTables
  require (∀ c ∈ joins, ∀ q ∈ c.columns, IsKnown (columnType facts.columns q))
    (.certification "连接字段无法认证")
  let usedColumns := selection.usedColumns ++ joins.flatMap JoinConstraint.columns
  return (selection.semantic, {
    semanticQuery := selection.semantic.payload
    provenance := {
      metrics := selection.metrics
      bindings := selection.bindings
      columns := (sorted usedColumns.dedup).map fun q => (q, (columnType facts.columns q).getD "")
      joins := joins.mergeSort fun c d => c.text ≤ d.text } })

def prepareRestorationState (outside : Surroundings) (semantic : ValidatedSemanticQuery)
    (context : QueryContext) : Except CertificationError (ValidatedSemanticQuery × Certificate) :=
  match semantic.restorationConditions, context.semanticFacts with
  | some conditions, some facts => do
    closeSelection outside context facts
      (← selectFacts outside facts.metrics semantic conditions)
  | _, _ => .error (.certification "缺少完整业务条件或当前发布事实")

end ChatBI.Semantic
