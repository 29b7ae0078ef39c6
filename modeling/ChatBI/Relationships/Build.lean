import ChatBI.Lib.Alike
import ChatBI.Offline.Sources
import Mathlib.Data.List.Lex
import Mathlib.Data.String.Basic

/-!
# Building the relationship graph

`build_relationship_graph` checks the relationship records of the facts and sorts them into keys,
unique indexes and foreign keys. An error is the message of a `RelationshipGraphError`.
-/

namespace ChatBI.Relationships

open ChatBI.Lib ChatBI.Offline

/-- A primary key or a unique constraint. -/
structure KeyRecord where
  relationshipType : String
  schemaName : String
  tableName : String
  columnNames : List String
  constraintName : String
  deriving DecidableEq

structure IndexRecord where
  schemaName : String
  tableName : String
  indexName : String
  columnNames : List String
  predicate : Json

structure ForeignKeyRecord where
  constraintName : String
  sourceSchema : String
  sourceTable : String
  sourceColumns : List String
  targetSchema : String
  targetTable : String
  targetColumns : List String
  deriving DecidableEq

structure RelationshipGraph where
  nodes : List String
  primaryKeys : List KeyRecord
  uniqueConstraints : List KeyRecord
  uniqueIndexes : List IndexRecord
  foreignKeys : List ForeignKeyRecord

/-- `f"{schema}.{table}"`. -/
def qualified (schema table : String) : String := s!"{schema}.{table}"

section Fields

/-- `_required_text`. -/
def requiredText (record : Json) (field : String) (index : Nat) : Except String String :=
  Offline.requiredText record field "relationships" index

/-- An element of `_string_list`. -/
def stringItem (field : String) (index : Nat) (item : Json) : Except String String :=
  Offline.stringItem field "relationships" index item

/-- `_string_list`. It refuses the empty list, so that `_required_columns` has no check of its
own left. -/
def stringList (record : Json) (index : Nat) (field : String) : Except String (List String) :=
  match record.field field with
  | .arr (v :: values) => (v :: values).mapM (stringItem field index)
  | _ => .error s!"relationships 第 {index} 条的 {field} 必须是字符串数组"

end Fields

section Reading

variable (facts : Facts)

/-- The relationship types of keys that a foreign key may refer to. -/
def keyTypes : List String := ["primary_key", "unique_constraint"]

/-- A record of `_collect_key_constraints`: the table and the columns of a key. -/
def keyConstraint (relationship : Json) (index : Nat) :
    Except String (Option (String × List String)) :=
  match relationship.field "relationship_type" with
  | .str type =>
    if type ∈ keyTypes then
      match relationship.field "schema_name", relationship.field "table_name" with
      | .str schema, .str table => do
        let key := qualified schema table
        require (key ∈ facts.tables.map TableRecord.key)
          s!"relationships 第 {index} 条引用了不存在的表：{key}"
        let columns ← stringList relationship index "column_names"
        return some (key, columns)
      | _, _ => .error s!"relationships 第 {index} 条键约束缺少有效的表身份"
    else .ok none
  -- a list or an object cannot be looked up in a set
  | .arr _ | .obj _ => .error "unhashable type"
  | _ => .ok none

/-- `_collect_key_constraints`. -/
def collectKeyConstraints : Except String (List (String × List String)) := do
  let constraints ← (facts.relationships.zipIdx 1).mapM fun p => keyConstraint facts p.1 p.2
  return constraints.filterMap id

/-- The columns of a table: `_columns_by_table`. -/
def columnsOf (table : String) : List String :=
  (facts.columns.filter fun c => c.tableKey = table).map ColumnRecord.columnName

/-- `_validate_columns_exist`. -/
def validateColumnsExist (table : String) (columnNames : List String) (label : String) :
    Except String Unit :=
  let missing := columnNames.filter fun column => column ∉ columnsOf facts table
  require (missing = []) (s!"{label} 引用 {table} 不存在的字段：" ++ "、".intercalate missing)

/-- `_validate_referenced_key`. -/
def validateReferencedKey (keys : List (String × List String)) (table : String)
    (columns : List String) (index : Nat) : Except String Unit :=
  require ((table, columns) ∈ keys)
    (s!"relationships 第 {index} 条外键目标 {table} 必须匹配主键或唯一约束：" ++
      "、".intercalate columns)

inductive Entry where
  | primaryKey (k : KeyRecord)
  | uniqueConstraint (k : KeyRecord)
  | uniqueIndex (i : IndexRecord)
  | foreignKey (f : ForeignKeyRecord)

/-- The table and the columns that a record is about. -/
def readTableColumns (relationship : Json) (index : Nat) :
    Except String (String × String × List String) := do
  let schema ← requiredText relationship "schema_name" index
  let table ← requiredText relationship "table_name" index
  let key := qualified schema table
  require (key ∈ facts.tables.map TableRecord.key)
    s!"relationships 第 {index} 条引用了不存在的表：{key}"
  let columns ← stringList relationship index "column_names"
  validateColumnsExist facts key columns s!"relationships 第 {index} 条"
  return (schema, table, columns)

/-- The target of a foreign key. -/
def readTarget (keys : List (String × List String)) (relationship : Json) (index : Nat) :
    Except String (String × String × List String) := do
  let schema ← requiredText relationship "referenced_schema" index
  let table ← requiredText relationship "referenced_table" index
  let key := qualified schema table
  require (key ∈ facts.tables.map TableRecord.key)
    s!"relationships 第 {index} 条引用了不存在的表：{key}"
  let columns ← stringList relationship index "referenced_column_names"
  validateColumnsExist facts key columns s!"relationships 第 {index} 条"
  validateReferencedKey keys key columns index
  return (schema, table, columns)

/-- The record of a relationship. -/
def readRelationship (keys : List (String × List String)) (relationship : Json) (index : Nat) :
    Except String Entry := do
  let type ← requiredText relationship "relationship_type" index
  let (schema, table, columns) ← readTableColumns facts relationship index
  if type ∈ keyTypes then
    let name ← requiredText relationship "constraint_name" index
    let record : KeyRecord := ⟨type, schema, table, columns, name⟩
    return if type = "primary_key" then .primaryKey record else .uniqueConstraint record
  else if type = "unique_index" then
    let name ← requiredText relationship "index_name" index
    return .uniqueIndex ⟨schema, table, name, columns, relationship.field "predicate"⟩
  else
    require (type = "foreign_key") s!"relationships 第 {index} 条存在未知类型：{type}"
    let (targetSchema, targetTable, targetColumns) ← readTarget facts keys relationship index
    let name ← requiredText relationship "constraint_name" index
    return .foreignKey ⟨name, schema, table, columns, targetSchema, targetTable, targetColumns⟩

end Reading

section Collecting

def KeyRecord.identity (k : KeyRecord) : String :=
  s!"{qualified k.schemaName k.tableName}:{k.constraintName}"

def IndexRecord.identity (i : IndexRecord) : String :=
  s!"{qualified i.schemaName i.tableName}:{i.indexName}"

def ForeignKeyRecord.identity (f : ForeignKeyRecord) : String :=
  s!"{qualified f.sourceSchema f.sourceTable}:{f.constraintName}"

/-- `_add_unique`: the identities that were seen are those of the records. -/
def addUnique {α : Type} (identity : α → String) (records : List α) (record : α) :
    Except String (List α) := do
  require (identity record ∉ records.map identity) s!"relationships 存在重复关系：{identity record}"
  return records ++ [record]

/-- The graph in the order of the listing. -/
def RelationshipGraph.add (graph : RelationshipGraph) : Entry → Except String RelationshipGraph
  | .primaryKey k => do
    let records ← addUnique KeyRecord.identity graph.primaryKeys k
    return { graph with primaryKeys := records }
  | .uniqueConstraint k => do
    let records ← addUnique KeyRecord.identity graph.uniqueConstraints k
    return { graph with uniqueConstraints := records }
  | .uniqueIndex i => do
    let records ← addUnique IndexRecord.identity graph.uniqueIndexes i
    return { graph with uniqueIndexes := records }
  | .foreignKey f => do
    let records ← addUnique ForeignKeyRecord.identity graph.foreignKeys f
    return { graph with foreignKeys := records }

/-- `_record_sort_key` of a key. -/
def KeyRecord.sortKey (k : KeyRecord) : List String :=
  [k.relationshipType, k.schemaName, k.tableName, k.constraintName, ",".intercalate k.columnNames, "",
    "", ""]

def IndexRecord.sortKey (i : IndexRecord) : List String :=
  ["unique_index", i.schemaName, i.tableName, i.indexName, ",".intercalate i.columnNames, "", "", ""]

def ForeignKeyRecord.sortKey (f : ForeignKeyRecord) : List String :=
  ["foreign_key", f.sourceSchema, f.sourceTable, f.constraintName, ",".intercalate f.sourceColumns,
    f.targetSchema, f.targetTable, ",".intercalate f.targetColumns]

/-- `sorted(records, key=...)`. -/
def sortedBy {α : Type} (key : α → List String) (records : List α) : List α :=
  records.insertionSort fun a b => key a ≤ key b

def RelationshipGraph.sorted (graph : RelationshipGraph) : RelationshipGraph where
  nodes := graph.nodes
  primaryKeys := sortedBy KeyRecord.sortKey graph.primaryKeys
  uniqueConstraints := sortedBy KeyRecord.sortKey graph.uniqueConstraints
  uniqueIndexes := sortedBy IndexRecord.sortKey graph.uniqueIndexes
  foreignKeys := sortedBy ForeignKeyRecord.sortKey graph.foreignKeys

/-- The nodes of the graph: the tables. -/
def nodesOf (facts : Facts) : List String :=
  (facts.tables.map TableRecord.key).dedup.insertionSort (· ≤ ·)

/-- The graph before the first relationship. -/
def emptyGraph (facts : Facts) : RelationshipGraph where
  nodes := nodesOf facts
  primaryKeys := []
  uniqueConstraints := []
  uniqueIndexes := []
  foreignKeys := []

/-- `build_relationship_graph`. -/
def buildRelationshipGraph (facts : Facts) : Except String RelationshipGraph := do
  let keys ← collectKeyConstraints facts
  let graph ← (facts.relationships.zipIdx 1).foldlM (fun graph p => do
    let entry ← readRelationship facts keys p.1 p.2
    graph.add entry) (emptyGraph facts)
  return graph.sorted

end Collecting

section Order

/-- Records with distinct keys are sorted alike, whichever way they were listed. -/
lemma sortedBy_perm {α : Type} {key : α → List String} {l l' : List α} (hperm : l.Perm l')
    (hkey : ∀ a ∈ l, ∀ b ∈ l, key a = key b → a = b) : sortedBy key l = sortedBy key l' := by
  let r : α → α → Prop := fun a b => key a ≤ key b
  have htotal : Std.Total r := ⟨fun a b => le_total (key a) (key b)⟩
  have htrans : IsTrans α r := ⟨fun a b c => @le_trans _ _ (key a) (key b) (key c)⟩
  have hl := List.perm_insertionSort r l
  have hl' := List.perm_insertionSort r l'
  apply @List.Perm.eq_of_pairwise _ r _ _ _ (List.pairwise_insertionSort r l)
    (List.pairwise_insertionSort r l') (hl.trans (hperm.trans hl'.symm))
  intro a b ha hb hab hba
  exact hkey a (hl.subset ha) b (hperm.symm.subset (hl'.subset hb)) (le_antisymm hab hba)

namespace Entry

def primaryKey? : Entry → Option KeyRecord
  | primaryKey k => some k
  | _ => none

def uniqueConstraint? : Entry → Option KeyRecord
  | uniqueConstraint k => some k
  | _ => none

def uniqueIndex? : Entry → Option IndexRecord
  | uniqueIndex i => some i
  | _ => none

def foreignKey? : Entry → Option ForeignKeyRecord
  | foreignKey f => some f
  | _ => none

/-- The set that an identity is looked up in, and the identity. -/
def identity : Entry → Nat × String
  | primaryKey k => (0, k.identity)
  | uniqueConstraint k => (1, k.identity)
  | uniqueIndex i => (2, i.identity)
  | foreignKey f => (3, f.identity)

end Entry

/-- The graph of entries in the order in which they were read. -/
def graphOf (nodes : List String) (entries : List Entry) : RelationshipGraph where
  nodes := nodes
  primaryKeys := entries.filterMap Entry.primaryKey?
  uniqueConstraints := entries.filterMap Entry.uniqueConstraint?
  uniqueIndexes := entries.filterMap Entry.uniqueIndex?
  foreignKeys := entries.filterMap Entry.foreignKey?

variable {nodes : List String} {entries entries' : List Entry} {e : Entry}

/-- The identities of one kind among those of all entries. -/
lemma mem_identity_iff {α : Type} {select : Entry → Option α} {identity : α → String} {kind : Nat}
    (h : ∀ e id, e.identity = (kind, id) ↔ ∃ a, select e = some a ∧ identity a = id) (id : String) :
    id ∈ (entries.filterMap select).map identity ↔ (kind, id) ∈ entries.map Entry.identity := by
  simp only [List.mem_map, List.mem_filterMap]
  constructor
  · rintro ⟨a, ⟨e, he, hselect⟩, hid⟩
    exact ⟨e, he, (h e id).mpr ⟨a, hselect, hid⟩⟩
  · rintro ⟨e, he, hid⟩
    obtain ⟨a, hselect, ha⟩ := (h e id).mp hid
    exact ⟨a, ⟨e, he, hselect⟩, ha⟩

lemma addUnique_ok {α : Type} {identity : α → String} {records : List α} {record : α}
    {update : List α → RelationshipGraph} {graph : RelationshipGraph} :
    (do let records' ← addUnique identity records record; return update records') = .ok graph ↔
      identity record ∉ records.map identity ∧ graph = update (records ++ [record]) := by
  rw [except_bind_ok]
  simp only [addUnique, checked_bind_ok, require_ok, except_pure_ok]
  constructor
  · rintro ⟨_, ⟨hnew, rfl⟩, rfl⟩
    exact ⟨hnew, rfl⟩
  · rintro ⟨hnew, rfl⟩
    exact ⟨_, ⟨hnew, rfl⟩, rfl⟩

@[simp] lemma graphOf_snoc : graphOf nodes (entries ++ [e]) =
    { graphOf nodes entries with
      primaryKeys := (graphOf nodes entries).primaryKeys ++ e.primaryKey?.toList
      uniqueConstraints := (graphOf nodes entries).uniqueConstraints ++ e.uniqueConstraint?.toList
      uniqueIndexes := (graphOf nodes entries).uniqueIndexes ++ e.uniqueIndex?.toList
      foreignKeys := (graphOf nodes entries).foreignKeys ++ e.foreignKey?.toList } := by
  cases e <;> simp [graphOf, Entry.primaryKey?, Entry.uniqueConstraint?, Entry.uniqueIndex?,
    Entry.foreignKey?]

/-- An entry is added when its identity is new among those of its kind. -/
lemma add_graphOf {graph : RelationshipGraph} : (graphOf nodes entries).add e = .ok graph ↔
    e.identity ∉ entries.map Entry.identity ∧ graph = graphOf nodes (entries ++ [e]) := by
  rw [graphOf_snoc]
  cases e with
  | primaryKey k =>
    have hkind := @mem_identity_iff entries _ Entry.primaryKey? KeyRecord.identity 0
      (fun e id => by cases e <;> simp [Entry.identity, Entry.primaryKey?]) k.identity
    rw [RelationshipGraph.add, addUnique_ok]
    simp only [graphOf, hkind, Entry.identity, Entry.primaryKey?, Entry.uniqueConstraint?,
      Entry.uniqueIndex?, Entry.foreignKey?, Option.toList_some, Option.toList_none, List.append_nil]
  | uniqueConstraint k =>
    have hkind := @mem_identity_iff entries _ Entry.uniqueConstraint? KeyRecord.identity 1
      (fun e id => by cases e <;> simp [Entry.identity, Entry.uniqueConstraint?]) k.identity
    rw [RelationshipGraph.add, addUnique_ok]
    simp only [graphOf, hkind, Entry.identity, Entry.primaryKey?, Entry.uniqueConstraint?,
      Entry.uniqueIndex?, Entry.foreignKey?, Option.toList_some, Option.toList_none, List.append_nil]
  | uniqueIndex i =>
    have hkind := @mem_identity_iff entries _ Entry.uniqueIndex? IndexRecord.identity 2
      (fun e id => by cases e <;> simp [Entry.identity, Entry.uniqueIndex?]) i.identity
    rw [RelationshipGraph.add, addUnique_ok]
    simp only [graphOf, hkind, Entry.identity, Entry.primaryKey?, Entry.uniqueConstraint?,
      Entry.uniqueIndex?, Entry.foreignKey?, Option.toList_some, Option.toList_none, List.append_nil]
  | foreignKey f =>
    have hkind := @mem_identity_iff entries _ Entry.foreignKey? ForeignKeyRecord.identity 3
      (fun e id => by cases e <;> simp [Entry.identity, Entry.foreignKey?]) f.identity
    rw [RelationshipGraph.add, addUnique_ok]
    simp only [graphOf, hkind, Entry.identity, Entry.primaryKey?, Entry.uniqueConstraint?,
      Entry.uniqueIndex?, Entry.foreignKey?, Option.toList_some, Option.toList_none, List.append_nil]

lemma nodup_snoc {α : Type} {l : List α} {a : α} : (l ++ [a]).Nodup ↔ l.Nodup ∧ a ∉ l := by
  rw [← List.concat_eq_append, List.nodup_concat, and_comm]

/-- Relationships are read into a graph when each can be read and none has the identity of another
of its kind. -/
lemma foldlM_read_ok {read : Json → Nat → Except String Entry} {ps : List (Json × Nat)}
    {graph : RelationshipGraph} (hnodup : (entries.map Entry.identity).Nodup) :
    ps.foldlM (fun graph p => do let entry ← read p.1 p.2; graph.add entry) (graphOf nodes entries) =
        .ok graph ↔
      ∃ more, ps.mapM (fun p => read p.1 p.2) = .ok more ∧
        ((entries ++ more).map Entry.identity).Nodup ∧ graph = graphOf nodes (entries ++ more) := by
  induction ps generalizing entries with
  | nil =>
    rw [List.foldlM_nil, List.mapM_nil]
    simp only [except_pure_ok, exists_eq_left', List.append_nil]
    exact ⟨fun h => ⟨hnodup, h.symm⟩, fun h => h.2.symm⟩
  | cons p ps ih =>
    rw [List.foldlM_cons, List.mapM_cons]
    simp only [except_bind_ok, except_pure_ok, add_graphOf]
    constructor
    · rintro ⟨_, ⟨e, hread, hnew, rfl⟩, hrest⟩
      have hsnoc : ((entries ++ [e]).map Entry.identity).Nodup := by
        rw [List.map_append, List.map_singleton, nodup_snoc]
        exact ⟨hnodup, hnew⟩
      obtain ⟨more, hmore, hall, rfl⟩ := (ih hsnoc).mp hrest
      rw [List.append_assoc, List.singleton_append] at hall
      exact ⟨e :: more, ⟨e, hread, more, hmore, rfl⟩, hall, by simp⟩
    · rintro ⟨_, ⟨e, hread, more, hmore, rfl⟩, hall, rfl⟩
      have happend : entries ++ e :: more = entries ++ [e] ++ more := by simp
      rw [happend] at hall
      have hsnoc : ((entries ++ [e]).map Entry.identity).Nodup := by
        rw [List.map_append] at hall
        exact (List.nodup_append.mp hall).1
      have hnew : e.identity ∉ entries.map Entry.identity := by
        rw [List.map_append, List.map_singleton, nodup_snoc] at hsnoc
        exact hsnoc.2
      refine ⟨_, ⟨e, hread, hnew, rfl⟩, ?_⟩
      exact (ih hsnoc).mpr ⟨more, hmore, hall, by rw [happend]⟩

/-- The graph of facts: the sorted records of the relationships, with distinct identities. -/
theorem buildRelationshipGraph_ok {facts : Facts} {graph : RelationshipGraph} :
    buildRelationshipGraph facts = .ok graph ↔
      ∃ keys entries, collectKeyConstraints facts = .ok keys ∧
        (facts.relationships.zipIdx 1).mapM (fun p => readRelationship facts keys p.1 p.2) =
          .ok entries ∧
        (entries.map Entry.identity).Nodup ∧ graph = (graphOf (nodesOf facts) entries).sorted := by
  have hempty : emptyGraph facts = graphOf (nodesOf facts) [] := rfl
  have hnone : (([] : List Entry).map Entry.identity).Nodup := List.nodup_nil
  rw [buildRelationshipGraph, hempty]
  simp only [except_bind_ok, except_pure_ok, foldlM_read_ok hnone, List.nil_append]
  constructor
  · rintro ⟨keys, hkeys, _, ⟨entries, hread, hnodup, rfl⟩, rfl⟩
    exact ⟨keys, entries, hkeys, hread, hnodup, rfl⟩
  · rintro ⟨keys, entries, hkeys, hread, hnodup, rfl⟩
    exact ⟨keys, hkeys, _, ⟨entries, hread, hnodup, rfl⟩, rfl⟩

section Listing

variable {facts : Facts} {record : Json} {field : String} {i j : Nat}

/-! The index of a record only stands in messages. -/

lemma requiredText_index {value : String} (h : requiredText record field i = .ok value) :
    requiredText record field j = .ok value := by
  unfold requiredText Offline.requiredText at h ⊢
  split at h
  · split at h
    · cases h
    · rename_i hne
      rw [if_neg hne]
      exact h
  · cases h

lemma stringList_index {columns : List String} (h : stringList record i field = .ok columns) :
    stringList record j field = .ok columns := by
  unfold stringList at h ⊢
  split at h
  · apply mapM_of_forall₂
    refine (mapM_ok h).imp fun item value hitem => ?_
    unfold stringItem Offline.stringItem at hitem ⊢
    split at hitem
    · split at hitem
      · cases hitem
      · rename_i hne
        rw [if_neg hne]
        exact hitem
    · cases hitem
  · cases h

lemma keyConstraint_index {key : Option (String × List String)}
    (h : keyConstraint facts record i = .ok key) : keyConstraint facts record j = .ok key := by
  unfold keyConstraint at h ⊢
  split at h
  · split at h
    · rename_i hin
      rw [if_pos hin]
      split at h
      · obtain ⟨hkey, h⟩ := checked_bind_ok.mp h
        obtain ⟨columns, hcolumns, h⟩ := except_bind_ok.mp h
        rw [checked_bind_ok]
        exact ⟨require_ok.mpr (require_ok.mp hkey),
          except_bind_ok.mpr ⟨columns, stringList_index hcolumns, h⟩⟩
      · cases h
    · rename_i hnot
      rw [if_neg hnot]
      exact h
  · cases h
  · cases h
  · rename_i hstr harr hobj
    cases htype : record.field "relationship_type" with
    | str s => exact absurd htype (hstr s)
    | arr items => exact absurd htype (harr items)
    | obj fields => exact absurd htype (hobj fields)
    | _ => exact h

lemma readTableColumns_index {result : String × String × List String}
    (h : readTableColumns facts record i = .ok result) :
    readTableColumns facts record j = .ok result := by
  simp only [readTableColumns, validateColumnsExist, except_bind_ok, exists_checked, require_ok,
    except_pure_ok] at h ⊢
  obtain ⟨schema, hschema, table, htable, hkey, columns, hcolumns, hexist, hresult⟩ := h
  exact ⟨schema, requiredText_index hschema, table, requiredText_index htable, hkey, columns,
    stringList_index hcolumns, hexist, hresult⟩

lemma readTarget_index {keys keys' : List (String × List String)} (hkeys : ∀ k ∈ keys, k ∈ keys')
    {result : String × String × List String} (h : readTarget facts keys record i = .ok result) :
    readTarget facts keys' record j = .ok result := by
  simp only [readTarget, validateColumnsExist, validateReferencedKey, except_bind_ok, exists_checked,
    require_ok, except_pure_ok] at h ⊢
  obtain ⟨schema, hschema, table, htable, hkey, columns, hcolumns, hexist, href, hresult⟩ := h
  exact ⟨schema, requiredText_index hschema, table, requiredText_index htable, hkey, columns,
    stringList_index hcolumns, hexist, hkeys _ href, hresult⟩

lemma readRelationship_index {keys keys' : List (String × List String)}
    (hkeys : ∀ k ∈ keys, k ∈ keys') {e : Entry} (h : readRelationship facts keys record i = .ok e) :
    readRelationship facts keys' record j = .ok e := by
  unfold readRelationship at h ⊢
  obtain ⟨type, htype, h⟩ := except_bind_ok.mp h
  obtain ⟨⟨schema, table, columns⟩, htable, h⟩ := except_bind_ok.mp h
  refine except_bind_ok.mpr ⟨type, requiredText_index htype,
    except_bind_ok.mpr ⟨_, readTableColumns_index htable, ?_⟩⟩
  simp only at h ⊢
  by_cases hkey : type ∈ keyTypes
  · rw [if_pos hkey] at h ⊢
    obtain ⟨name, hname, h⟩ := except_bind_ok.mp h
    exact except_bind_ok.mpr ⟨name, requiredText_index hname, h⟩
  · rw [if_neg hkey] at h ⊢
    by_cases hindex : type = "unique_index"
    · rw [if_pos hindex] at h ⊢
      obtain ⟨name, hname, h⟩ := except_bind_ok.mp h
      exact except_bind_ok.mpr ⟨name, requiredText_index hname, h⟩
    · rw [if_neg hindex] at h ⊢
      obtain ⟨hforeign, h⟩ := checked_bind_ok.mp h
      obtain ⟨target, htarget, h⟩ := except_bind_ok.mp h
      obtain ⟨name, hname, h⟩ := except_bind_ok.mp h
      exact checked_bind_ok.mpr ⟨require_ok.mpr (require_ok.mp hforeign),
        except_bind_ok.mpr ⟨target, readTarget_index hkeys htarget,
          except_bind_ok.mpr ⟨name, requiredText_index hname, h⟩⟩⟩

/-- Numbered records are read alike when the number does not matter. -/
lemma mapM_zipIdx_ok {β : Type} {f : Json → Nat → Except String β}
    (hf : ∀ r i j y, f r i = .ok y → f r j = .ok y) {records : List Json} {n : Nat} {ys : List β} :
    (records.zipIdx n).mapM (fun p => f p.1 p.2) = .ok ys ↔ records.mapM (f · 0) = .ok ys := by
  induction records generalizing n ys with
  | nil => rfl
  | cons r records ih =>
    rw [List.zipIdx_cons, List.mapM_cons, List.mapM_cons]
    simp only [except_bind_ok, ih]
    constructor
    · rintro ⟨y, hy, hrest⟩
      exact ⟨y, hf _ _ _ _ hy, hrest⟩
    · rintro ⟨y, hy, hrest⟩
      exact ⟨y, hf _ _ _ _ hy, hrest⟩

/-- Records in another order are read to the same results in another order. -/
lemma mapM_zipIdx_perm {β : Type} {f : Json → Nat → Except String β}
    (hf : ∀ r i j y, f r i = .ok y → f r j = .ok y) {records records' : List Json}
    (hperm : records.Perm records') {n : Nat} {ys : List β}
    (h : (records.zipIdx n).mapM (fun p => f p.1 p.2) = .ok ys) :
    ∃ ys', (records'.zipIdx n).mapM (fun p => f p.1 p.2) = .ok ys' ∧ ys.Perm ys' := by
  have halike := Alike.mapM_perm (f · 0) hperm
  rw [mapM_zipIdx_ok hf] at h
  rw [h] at halike
  generalize hright : records'.mapM (f · 0) = right at halike
  cases halike with
  | ok hys => exact ⟨_, (mapM_zipIdx_ok hf).mpr hright, hys⟩

lemma collectKeyConstraints_perm {relationships : List Json}
    (hperm : facts.relationships.Perm relationships) {keys : List (String × List String)}
    (h : collectKeyConstraints facts = .ok keys) :
    ∃ keys', collectKeyConstraints { facts with relationships := relationships } = .ok keys' ∧
      keys.Perm keys' := by
  obtain ⟨constraints, hread, h⟩ := except_bind_ok.mp h
  rw [except_pure_ok] at h
  subst h
  obtain ⟨constraints', hread', hkeys⟩ := @mapM_zipIdx_perm _ (keyConstraint facts)
    (fun _ _ _ _ => keyConstraint_index) _ _ hperm _ _ hread
  exact ⟨_, except_bind_ok.mpr ⟨constraints', hread', rfl⟩, hkeys.filterMap id⟩

/-- The selected records of entries with distinct identities are told apart by their sort keys. -/
lemma sortedBy_filterMap_perm {α : Type} {select : Entry → Option α} {identity : α → String}
    {key : α → List String} {kind : Nat} (hnodup : (entries.map Entry.identity).Nodup)
    (hperm : entries.Perm entries')
    (hselect : ∀ e a, select e = some a → e.identity = (kind, identity a))
    (hkey : ∀ a b, key a = key b → identity a = identity b) :
    sortedBy key (entries.filterMap select) = sortedBy key (entries'.filterMap select) := by
  apply sortedBy_perm (hperm.filterMap select)
  intro a ha b hb hab
  obtain ⟨e, he, hea⟩ := List.mem_filterMap.mp ha
  obtain ⟨e', he', heb⟩ := List.mem_filterMap.mp hb
  have hid : e.identity = e'.identity := by
    rw [hselect e a hea, hselect e' b heb, hkey a b hab]
  have hsame := List.inj_on_of_nodup_map hnodup he he' hid
  rw [hsame, heb, Option.some.injEq] at hea
  exact hea.symm

/-- Entries with distinct identities make the same graph in every order. -/
lemma sorted_graphOf_perm (hnodup : (entries.map Entry.identity).Nodup)
    (hperm : entries.Perm entries') :
    (graphOf nodes entries).sorted = (graphOf nodes entries').sorted := by
  have hprimary := @sortedBy_filterMap_perm _ _ _ Entry.primaryKey? KeyRecord.identity
    KeyRecord.sortKey 0 hnodup hperm (fun e a h => by cases e <;> cases h; rfl)
    (fun a b h => by simp_all [KeyRecord.sortKey, KeyRecord.identity])
  have hunique := @sortedBy_filterMap_perm _ _ _ Entry.uniqueConstraint? KeyRecord.identity
    KeyRecord.sortKey 1 hnodup hperm (fun e a h => by cases e <;> cases h; rfl)
    (fun a b h => by simp_all [KeyRecord.sortKey, KeyRecord.identity])
  have hindex := @sortedBy_filterMap_perm _ _ _ Entry.uniqueIndex? IndexRecord.identity
    IndexRecord.sortKey 2 hnodup hperm (fun e a h => by cases e <;> cases h; rfl)
    (fun a b h => by simp_all [IndexRecord.sortKey, IndexRecord.identity])
  have hforeign := @sortedBy_filterMap_perm _ _ _ Entry.foreignKey? ForeignKeyRecord.identity
    ForeignKeyRecord.sortKey 3 hnodup hperm (fun e a h => by cases e <;> cases h; rfl)
    (fun a b h => by simp_all [ForeignKeyRecord.sortKey, ForeignKeyRecord.identity])
  simp only [RelationshipGraph.sorted, graphOf, hprimary, hunique, hindex, hforeign]

/-- The listing of the relationships in another order is accepted alike and makes the same graph. -/
theorem buildRelationshipGraph_perm {relationships : List Json}
    (hperm : facts.relationships.Perm relationships) {graph : RelationshipGraph} :
    buildRelationshipGraph facts = .ok graph ↔
      buildRelationshipGraph { facts with relationships := relationships } = .ok graph := by
  have hforward : ∀ {facts : Facts} {relationships : List Json},
      facts.relationships.Perm relationships → buildRelationshipGraph facts = .ok graph →
      buildRelationshipGraph { facts with relationships := relationships } = .ok graph := by
    intro facts relationships hperm h
    obtain ⟨keys, entries, hkeys, hread, hnodup, rfl⟩ := buildRelationshipGraph_ok.mp h
    obtain ⟨keys', hkeys', hkeysPerm⟩ := collectKeyConstraints_perm hperm hkeys
    obtain ⟨entries', hread', hentries⟩ := @mapM_zipIdx_perm _ (readRelationship facts keys)
      (fun _ _ _ _ => readRelationship_index fun _ hk => hk) _ _ hperm _ _ hread
    have hreread : (relationships.zipIdx 1).mapM (fun p => readRelationship
        { facts with relationships := relationships } keys' p.1 p.2) = .ok entries' := by
      apply mapM_of_forall₂
      refine (mapM_ok hread').imp fun p e he => ?_
      exact readRelationship_index (fun k hk => hkeysPerm.subset hk) he
    exact buildRelationshipGraph_ok.mpr ⟨keys', entries', hkeys', hreread,
      (hentries.map Entry.identity).nodup_iff.mp hnodup, sorted_graphOf_perm hnodup hentries⟩
  exact ⟨hforward hperm, @hforward { facts with relationships := relationships } _ hperm.symm⟩

end Listing

/-- The primary key of a product. -/
def productKey : Json :=
  .obj [("relationship_type", .str "primary_key"), ("schema_name", .str "mart_sales"),
    ("table_name", .str "dim_product"), ("column_names", .arr [.str "product_key"]),
    ("constraint_name", .str "dim_product_pkey")]

/-- The foreign key from an order line to its product. -/
def productReference : Json :=
  .obj [("relationship_type", .str "foreign_key"), ("schema_name", .str "mart_sales"),
    ("table_name", .str "fact_order"), ("column_names", .arr [.str "product_key"]),
    ("referenced_schema", .str "mart_sales"), ("referenced_table", .str "dim_product"),
    ("referenced_column_names", .arr [.str "product_key"]),
    ("constraint_name", .str "fact_order_product_fkey")]

/-- Two tables, with the reference listed in front of the key it is about. -/
def salesFacts : Facts where
  tables := [⟨"mart_sales", "fact_order", "BASE TABLE", ""⟩,
    ⟨"mart_sales", "dim_product", "BASE TABLE", ""⟩]
  columns := [⟨"mart_sales", "fact_order", "product_key", "bigint", "", none, none, none, []⟩,
    ⟨"mart_sales", "dim_product", "product_key", "bigint", "", none, none, none, []⟩]
  relationships := [productReference, productKey]
  metrics := []

def salesGraph : RelationshipGraph where
  nodes := ["mart_sales.dim_product", "mart_sales.fact_order"]
  primaryKeys := [⟨"primary_key", "mart_sales", "dim_product", ["product_key"], "dim_product_pkey"⟩]
  uniqueConstraints := []
  uniqueIndexes := []
  foreignKeys := [⟨"fact_order_product_fkey", "mart_sales", "fact_order", ["product_key"],
    "mart_sales", "dim_product", ["product_key"]⟩]

lemma buildRelationshipGraph_sales : buildRelationshipGraph salesFacts = .ok salesGraph := by
  have hnodes : (salesFacts.tables.map TableRecord.key).dedup.insertionSort (· ≤ ·) =
      salesGraph.nodes := by decide +kernel
  have hlisted : buildRelationshipGraph salesFacts =
      .ok { salesGraph with
        nodes := (salesFacts.tables.map TableRecord.key).dedup.insertionSort (· ≤ ·) } := rfl
  rw [hlisted, hnodes]

theorem buildRelationshipGraph_perm_sales :
    buildRelationshipGraph { salesFacts with relationships := [productKey, productReference] } =
      .ok salesGraph :=
  (@buildRelationshipGraph_perm salesFacts _ (List.Perm.swap _ _ _) _).mp
    buildRelationshipGraph_sales

end Order

end ChatBI.Relationships
