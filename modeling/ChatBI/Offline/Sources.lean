import ChatBI.Lib.JsonShape
import ChatBI.Lib.Raises
import ChatBI.Lib.Text
import Mathlib.Data.List.Dedup
import Mathlib.Data.List.Sort

/-!
# The sources of the offline build

`load_facts` normalizes the records of the four source files and checks them against each other.
The records come from the parsed files. An error is the message of a `SourceLoadError`.
-/

namespace ChatBI.Offline

open ChatBI.Lib

structure TableRecord where
  schemaName : String
  tableName : String
  tableType : String
  description : String
  deriving DecidableEq

structure ColumnRecord where
  schemaName : String
  tableName : String
  columnName : String
  dataType : String
  description : String
  nullable : Option Bool
  isPrimaryKey : Option Bool
  isForeignKey : Option Bool
  valueExamples : List String
  deriving DecidableEq

structure MetricRecord where
  name : String
  aliases : List String
  level : String
  definition : String
  formula : String
  dataSource : String
  dependsOn : List String
  filters : List String
  notes : String
  timeField : String
  deriving DecidableEq

structure Facts where
  tables : List TableRecord
  columns : List ColumnRecord
  relationships : List Json
  metrics : List MetricRecord

/-- `_table_key` of a table. -/
def TableRecord.key (t : TableRecord) : String := s!"{t.schemaName}.{t.tableName}"

/-- `_table_key` of a column: the table it is in. -/
def ColumnRecord.tableKey (c : ColumnRecord) : String := s!"{c.schemaName}.{c.tableName}"

def ColumnRecord.key (c : ColumnRecord) : String :=
  s!"{c.schemaName}.{c.tableName}.{c.columnName}"

section Fields

/-- `_required_text`. -/
def requiredText (record : Json) (field label : String) (index : Nat) : Except String String :=
  match record.field field with
  | .str value =>
    if strip value = "" then .error s!"{label} 第 {index} 条缺少有效的 {field}" else .ok (strip value)
  | _ => .error s!"{label} 第 {index} 条缺少有效的 {field}"

/-- `_optional_text`. -/
def optionalText (record : Json) (field : String) : Except String String :=
  match record.field field with
  | .null => .ok ""
  | .str value => .ok (strip value)
  | _ => .error s!"{field} 必须是字符串"

/-- `_optional_bool`. -/
def optionalBool (record : Json) (field : String) (default : Option Bool) :
    Except String (Option Bool) :=
  match record.field field with
  | .null => .ok default
  | .bool value => .ok (some value)
  | _ => .error s!"{field} 必须是布尔值"

/-- An element of `_optional_strings`. -/
def stringItem (field label : String) (index : Nat) : Json → Except String String
  | .str value =>
    if strip value = "" then .error s!"{label} 第 {index} 条的 {field} 不能包含空值"
    else .ok (strip value)
  | _ => .error s!"{label} 第 {index} 条的 {field} 不能包含空值"

/-- `_optional_strings`. -/
def optionalStrings (record : Json) (field label : String) (index : Nat) :
    Except String (List String) :=
  match record.get? field with
  | none => .ok []
  | some (.arr values) => do
    let normalized ← values.mapM (stringItem field label index)
    require normalized.Nodup s!"{label} 第 {index} 条的 {field} 不能包含重复值"
    return normalized
  | some _ => .error s!"{label} 第 {index} 条的 {field} 必须是字符串数组"

end Fields

section Records

/-- Reads records one after another, each after those in front of it. -/
def readRecords {α : Type} (read : List α → Json → Nat → Except String α) (records : List Json) :
    Except String (List α) :=
  (records.zipIdx 1).foldlM (fun normalized p => do
    let record ← read normalized p.1 p.2
    return normalized ++ [record]) []

/-- A record of `_normalize_tables`. -/
def readTable (normalized : List TableRecord) (record : Json) (index : Nat) :
    Except String TableRecord := do
  let schema ← requiredText record "schema_name" "tables" index
  let table ← requiredText record "table_name" "tables" index
  let key := s!"{schema}.{table}"
  require (key ∉ normalized.map TableRecord.key) s!"tables 存在重复表：{key}"
  let tableType ← optionalText record "table_type"
  let description ← optionalText record "description"
  return ⟨schema, table, if tableType = "" then "BASE TABLE" else tableType, description⟩

/-- A record of `_normalize_columns`. -/
def readColumn (tables : List TableRecord) (normalized : List ColumnRecord) (record : Json)
    (index : Nat) : Except String ColumnRecord := do
  let schema ← requiredText record "schema_name" "columns" index
  let table ← requiredText record "table_name" "columns" index
  let column ← requiredText record "column_name" "columns" index
  require (s!"{schema}.{table}" ∈ tables.map TableRecord.key)
    s!"columns 第 {index} 条引用了不存在的表：{schema}.{table}"
  let key := s!"{schema}.{table}.{column}"
  require (key ∉ normalized.map ColumnRecord.key) s!"columns 存在重复字段：{key}"
  let dataType ← requiredText record "data_type" "columns" index
  let description ← optionalText record "description"
  let nullable ← optionalBool record "nullable" none
  let isPrimaryKey ← optionalBool record "is_primary_key" (some false)
  let isForeignKey ← optionalBool record "is_foreign_key" (some false)
  let valueExamples ← optionalStrings record "value_examples" "columns" index
  return ⟨schema, table, column, dataType, description, nullable, isPrimaryKey, isForeignKey,
    valueExamples⟩

/-- `_resolve_table_reference`. -/
def resolveTableReference (reference : String) : Except String (Option String × String) :=
  match split (strip reference) "." with
  | [schema, table] => .ok (some schema, table)
  | [table] => .ok (none, table)
  | _ => .error s!"无法解析的表引用：{reference}"

/-- A table has the name, and the schema when one is given. -/
def TableRecord.Named (t : TableRecord) (schema : Option String) (tableName : String) : Prop :=
  t.tableName = tableName ∧ (schema = none ∨ schema = some t.schemaName)

instance (t : TableRecord) (schema : Option String) (tableName : String) :
    Decidable (t.Named schema tableName) :=
  inferInstanceAs (Decidable (_ ∧ _))

/-- `_table_exists`. -/
def tableExists (reference : Option String × String) (tables : List TableRecord) : Bool :=
  tables.any fun t => t.Named reference.1 reference.2

/-- `_resolve_column_reference`. -/
def resolveColumnReference (reference : String) (tables : List TableRecord)
    (columns : List ColumnRecord) : Option (String × String) :=
  let resolve (schema : Option String) (tableName columnName : String) :=
    match tables.filter fun t => t.Named schema tableName with
    | [table] =>
      if columnName ∈ (columns.filter fun c => c.tableKey = table.key).map ColumnRecord.columnName
      then some (table.key, columnName) else none
    | _ => none
  match split reference "." with
  | [tableName, columnName] => resolve none tableName columnName
  | [schema, tableName, columnName] => resolve (some schema) tableName columnName
  | _ => none

/-- `_validate_metric_references`. -/
def validateMetricReferences (metric : MetricRecord) (tables : List TableRecord)
    (columns : List ColumnRecord) (index : Nat) : Except String Unit := do
  if metric.dataSource ≠ "" then
    let sourceTable ← resolveTableReference metric.dataSource
    require (tableExists sourceTable tables)
      s!"metrics 第 {index} 条指标 {metric.name} 引用了不存在的表：{metric.dataSource}"
  if metric.timeField ≠ "" then
    (split metric.timeField "->").forM fun rawRef =>
      require (strip rawRef = "" ∨ (resolveColumnReference (strip rawRef) tables columns).isSome)
        s!"metrics 第 {index} 条指标 {metric.name} 时间字段引用了不存在的表或字段：{strip rawRef}"

/-- A record of the first loop of `_normalize_metrics`. -/
def readMetric (tables : List TableRecord) (columns : List ColumnRecord)
    (normalized : List MetricRecord) (record : Json) (index : Nat) :
    Except String MetricRecord := do
  let name ← requiredText record "name" "metrics" index
  require (name ∉ normalized.map MetricRecord.name) s!"metrics 存在重复指标名：{name}"
  let aliases ← optionalStrings record "aliases" "metrics" index
  let level ← optionalText record "level"
  let definition ← optionalText record "definition"
  let formula ← optionalText record "formula"
  let dataSource ← optionalText record "data_source"
  let dependsOn ← optionalStrings record "depends_on" "metrics" index
  let filters ← optionalStrings record "filters" "metrics" index
  let notes ← optionalText record "notes"
  let timeField ← optionalText record "time_field"
  let metric : MetricRecord :=
    ⟨name, aliases, level, definition, formula, dataSource, dependsOn, filters, notes, timeField⟩
  validateMetricReferences metric tables columns index
  return metric

/-- `sorted(set(metric["depends_on"]) - metric_names)`. -/
def unknownDependencies (names : List String) (metric : MetricRecord) : List String :=
  (metric.dependsOn.dedup.filter fun name => name ∉ names).insertionSort (· ≤ ·)

/-- `_normalize_metrics`. -/
def normalizeMetrics (records : List Json) (tables : List TableRecord)
    (columns : List ColumnRecord) : Except String (List MetricRecord) := do
  let normalized ← readRecords (readMetric tables columns) records
  normalized.forM fun metric =>
    let unknown := unknownDependencies (normalized.map MetricRecord.name) metric
    require (unknown = [])
      (s!"metrics 指标 {metric.name} 依赖不存在的指标：" ++ "、".intercalate unknown)
  return normalized

end Records

section Loading

/-- The records of a parsed file: `_read_records_with_hash` after `json.loads`. -/
def recordsOf (content : Json) (label : String) : Except String (List Json) :=
  match content with
  | .arr [] => .error s!"{label} 必须是非空 JSON 数组"
  | .arr records => do
    require (records.all Json.isDict) s!"{label} 的每条记录必须是 JSON 对象"
    return records
  | _ => .error s!"{label} 必须是非空 JSON 数组"

/-- The contents of the four source files. -/
structure SourceFiles where
  tables : Json
  columns : Json
  relationships : Json
  metrics : Json

/-- `load_facts`. -/
def loadFacts (files : SourceFiles) : Except String Facts := do
  let tablesRecords ← recordsOf files.tables "tables"
  let columnsRecords ← recordsOf files.columns "columns"
  let relationships ← recordsOf files.relationships "relationships"
  let metricsRecords ← recordsOf files.metrics "metrics"
  let tables ← readRecords readTable tablesRecords
  let columns ← readRecords (readColumn tables) columnsRecords
  let metrics ← normalizeMetrics metricsRecords tables columns
  return ⟨tables, columns, relationships, metrics⟩

end Loading

section Loaded

/-- A text as it is stored: stripped and not empty. -/
def IsName (s : String) : Prop := s ≠ "" ∧ strip s = s

variable {record : Json} {field label value : String} {index : Nat}

lemma isName_requiredText (h : requiredText record field label index = .ok value) : IsName value := by
  unfold requiredText at h
  split at h
  · split at h
    · cases h
    · cases h
      rename_i hne
      exact ⟨hne, strip_strip _⟩
  · cases h

lemma isName_stringItem {item : Json} (h : stringItem field label index item = .ok value) :
    IsName value := by
  unfold stringItem at h
  split at h
  · split at h
    · cases h
    · cases h
      rename_i hne
      exact ⟨hne, strip_strip _⟩
  · cases h

/-- What holds of every record that is read after those in front of it holds of all of them. -/
lemma readRecords_invariant {α : Type} {read : List α → Json → Nat → Except String α}
    {I : List α → Prop} (hnil : I [])
    (hread : ∀ normalized record index r, I normalized → read normalized record index = .ok r →
      I (normalized ++ [r]))
    {records : List Json} {rs : List α} (h : readRecords read records = .ok rs) : I rs := by
  have hfold : ∀ (ps : List (Json × Nat)) (start : List α), I start →
      ps.foldlM (fun normalized p => do
        let record ← read normalized p.1 p.2
        return normalized ++ [record]) start = .ok rs → I rs := by
    intro ps
    induction ps with
    | nil =>
      intro start hstart h
      cases h
      exact hstart
    | cons p ps ih =>
      intro start hstart h
      rw [List.foldlM_cons, except_bind_ok] at h
      obtain ⟨next, hnext, hrest⟩ := h
      obtain ⟨r, hr, hn⟩ := except_bind_ok.mp hnext
      rw [except_pure_ok] at hn
      subst hn
      exact ih _ (hread _ _ _ _ hstart hr) hrest
  exact hfold _ [] hnil h

lemma recordsOf_ne_nil {content : Json} {records : List Json}
    (h : recordsOf content label = .ok records) : records ≠ [] := by
  unfold recordsOf at h
  split at h
  · cases h
  · rename_i records' hne
    obtain ⟨-, h⟩ := checked_bind_ok.mp h
    rw [except_pure_ok] at h
    rw [← h]
    exact fun hnil => hne (by rw [hnil])
  · cases h

lemma readRecords_ne_nil {α : Type} {read : List α → Json → Nat → Except String α}
    {records : List Json} {rs : List α} (h : readRecords read records = .ok rs)
    (hne : records ≠ []) : rs ≠ [] := by
  cases records with
  | nil => exact absurd rfl hne
  | cons record records =>
    unfold readRecords at h
    rw [List.zipIdx_cons, List.foldlM_cons, except_bind_ok] at h
    obtain ⟨start, hstart, hrest⟩ := h
    obtain ⟨r, -, hs⟩ := except_bind_ok.mp hstart
    rw [except_pure_ok] at hs
    have hgrow : ∀ (ps : List (Json × Nat)) (start : List α), start ≠ [] →
        ps.foldlM (fun normalized p => do
          let record ← read normalized p.1 p.2
          return normalized ++ [record]) start = .ok rs → rs ≠ [] := by
      intro ps
      induction ps with
      | nil =>
        intro start hstart h
        cases h
        exact hstart
      | cons p ps ih =>
        intro start _ h
        rw [List.foldlM_cons, except_bind_ok] at h
        obtain ⟨next, hnext, hrest⟩ := h
        obtain ⟨r, -, hn⟩ := except_bind_ok.mp hnext
        rw [except_pure_ok] at hn
        exact ih next (by rw [← hn]; simp) hrest
    exact hgrow _ start (by rw [← hs]; simp) hrest

/-- Records with distinct keys and a property. -/
structure Keyed {α : Type} (key : α → String) (P : α → Prop) (records : List α) : Prop where
  nodup : (records.map key).Nodup
  all : ∀ r ∈ records, P r

lemma Keyed.nil {α : Type} {key : α → String} {P : α → Prop} : Keyed key P [] :=
  ⟨List.nodup_nil, nofun⟩

lemma Keyed.snoc {α : Type} {key : α → String} {P : α → Prop} {records : List α} {r : α}
    (h : Keyed key P records) (hkey : key r ∉ records.map key) (hr : P r) :
    Keyed key P (records ++ [r]) := by
  refine ⟨?_, ?_⟩
  · rw [List.map_append, List.nodup_append]
    refine ⟨h.nodup, List.nodup_singleton _, ?_⟩
    intro k hk k' hk' heq
    rw [List.map_singleton, List.mem_singleton] at hk'
    exact hkey (by rwa [← hk', ← heq])
  · intro r' hr'
    rcases List.mem_append.mp hr' with hin | hin
    · exact h.all r' hin
    · rw [List.mem_singleton.mp hin]
      exact hr

def TableRecord.Loaded (t : TableRecord) : Prop := IsName t.schemaName ∧ IsName t.tableName

def ColumnRecord.Loaded (c : ColumnRecord) : Prop :=
  IsName c.schemaName ∧ IsName c.tableName ∧ IsName c.columnName ∧ IsName c.dataType

/-- What the loader promises of facts: there are tables, columns and metrics, their names are
stripped, and they are told apart by their keys. -/
structure Facts.Loaded (facts : Facts) : Prop where
  nonempty : facts.tables ≠ [] ∧ facts.columns ≠ [] ∧ facts.metrics ≠ []
  tables : Keyed TableRecord.key TableRecord.Loaded facts.tables
  columns : Keyed ColumnRecord.key ColumnRecord.Loaded facts.columns
  metrics : Keyed MetricRecord.name (fun m => IsName m.name) facts.metrics

lemma readTable_ok {normalized : List TableRecord} {t : TableRecord}
    (h : readTable normalized record index = .ok t) :
    t.key ∉ normalized.map TableRecord.key ∧ t.Loaded := by
  obtain ⟨schema, hschema, h⟩ := except_bind_ok.mp h
  obtain ⟨table, htable, h⟩ := except_bind_ok.mp h
  obtain ⟨hnew, h⟩ := checked_bind_ok.mp h
  obtain ⟨tableType, -, h⟩ := except_bind_ok.mp h
  obtain ⟨description, -, h⟩ := except_bind_ok.mp h
  rw [except_pure_ok] at h
  subst h
  exact ⟨require_ok.mp hnew, isName_requiredText hschema, isName_requiredText htable⟩

lemma readColumn_ok {tables : List TableRecord} {normalized : List ColumnRecord} {c : ColumnRecord}
    (h : readColumn tables normalized record index = .ok c) :
    c.key ∉ normalized.map ColumnRecord.key ∧ c.Loaded := by
  obtain ⟨schema, hschema, h⟩ := except_bind_ok.mp h
  obtain ⟨table, htable, h⟩ := except_bind_ok.mp h
  obtain ⟨column, hcolumn, h⟩ := except_bind_ok.mp h
  obtain ⟨-, h⟩ := checked_bind_ok.mp h
  obtain ⟨hnew, h⟩ := checked_bind_ok.mp h
  obtain ⟨dataType, hdataType, h⟩ := except_bind_ok.mp h
  obtain ⟨description, -, h⟩ := except_bind_ok.mp h
  obtain ⟨nullable, -, h⟩ := except_bind_ok.mp h
  obtain ⟨isPrimaryKey, -, h⟩ := except_bind_ok.mp h
  obtain ⟨isForeignKey, -, h⟩ := except_bind_ok.mp h
  obtain ⟨valueExamples, -, h⟩ := except_bind_ok.mp h
  rw [except_pure_ok] at h
  subst h
  exact ⟨require_ok.mp hnew, isName_requiredText hschema, isName_requiredText htable,
    isName_requiredText hcolumn, isName_requiredText hdataType⟩

lemma readMetric_ok {tables : List TableRecord} {columns : List ColumnRecord}
    {normalized : List MetricRecord} {m : MetricRecord}
    (h : readMetric tables columns normalized record index = .ok m) :
    m.name ∉ normalized.map MetricRecord.name ∧ IsName m.name := by
  obtain ⟨name, hname, h⟩ := except_bind_ok.mp h
  obtain ⟨hnew, h⟩ := checked_bind_ok.mp h
  obtain ⟨aliases, -, h⟩ := except_bind_ok.mp h
  obtain ⟨level, -, h⟩ := except_bind_ok.mp h
  obtain ⟨definition, -, h⟩ := except_bind_ok.mp h
  obtain ⟨formula, -, h⟩ := except_bind_ok.mp h
  obtain ⟨dataSource, -, h⟩ := except_bind_ok.mp h
  obtain ⟨dependsOn, -, h⟩ := except_bind_ok.mp h
  obtain ⟨filters, -, h⟩ := except_bind_ok.mp h
  obtain ⟨notes, -, h⟩ := except_bind_ok.mp h
  obtain ⟨timeField, -, h⟩ := except_bind_ok.mp h
  obtain ⟨-, h⟩ := checked_bind_ok.mp h
  rw [except_pure_ok] at h
  subst h
  exact ⟨require_ok.mp hnew, isName_requiredText hname⟩

/-- The loader keeps what it promises. -/
theorem loaded_of_loadFacts {files : SourceFiles} {facts : Facts} (h : loadFacts files = .ok facts) :
    facts.Loaded := by
  obtain ⟨tablesRecords, htablesRecords, h⟩ := except_bind_ok.mp h
  obtain ⟨columnsRecords, hcolumnsRecords, h⟩ := except_bind_ok.mp h
  obtain ⟨relationships, -, h⟩ := except_bind_ok.mp h
  obtain ⟨metricsRecords, hmetricsRecords, h⟩ := except_bind_ok.mp h
  obtain ⟨tables, htables, h⟩ := except_bind_ok.mp h
  obtain ⟨columns, hcolumns, h⟩ := except_bind_ok.mp h
  obtain ⟨metrics, hmetrics, h⟩ := except_bind_ok.mp h
  obtain ⟨read, hread, hmetrics⟩ := except_bind_ok.mp hmetrics
  obtain ⟨-, hmetrics⟩ := checked_bind_ok.mp hmetrics
  rw [except_pure_ok] at h hmetrics
  subst h hmetrics
  refine ⟨⟨?_, ?_, ?_⟩, ?_, ?_, ?_⟩
  · exact readRecords_ne_nil htables (recordsOf_ne_nil htablesRecords)
  · exact readRecords_ne_nil hcolumns (recordsOf_ne_nil hcolumnsRecords)
  · exact readRecords_ne_nil hread (recordsOf_ne_nil hmetricsRecords)
  · exact readRecords_invariant .nil
      (fun _ _ _ _ hI hr => hI.snoc (readTable_ok hr).1 (readTable_ok hr).2) htables
  · exact readRecords_invariant .nil
      (fun _ _ _ _ hI hr => hI.snoc (readColumn_ok hr).1 (readColumn_ok hr).2) hcolumns
  · exact readRecords_invariant .nil
      (fun _ _ _ _ hI hr => hI.snoc (readMetric_ok hr).1 (readMetric_ok hr).2) hread

end Loaded

end ChatBI.Offline
