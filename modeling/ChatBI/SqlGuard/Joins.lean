import ChatBI.Relationships.Joins
import Mathlib.Data.Finset.Image
import Mathlib.Data.Prod.Lex

/-!
# The guard's check of joins

The tables and columns of a parsed SELECT, the resolution of its columns to physical ones, and the
checks that every join is a certified relation. An error is the message of a `SQLRejectedError`.
-/

namespace ChatBI.SqlGuard

open ChatBI.Lib ChatBI.Semantic

section Syntax

/-- An identifier as it is written. -/
structure Identifier where
  text : String
  quoted : Bool
  text_ne : text ≠ ""
  deriving DecidableEq

/-- `exp.Table`. A table function has no name. -/
structure TableNode where
  catalog : Option Identifier
  db : Option Identifier
  name : Option Identifier
  alias_ : Option Identifier
  aliasColumns : List Identifier
  deriving DecidableEq

/-- `exp.Column`. -/
structure ColumnNode where
  catalog : Option Identifier
  db : Option Identifier
  table : Option Identifier
  name : Identifier
  deriving DecidableEq

/-- The sides of a comparison: a column, or an expression of another kind. -/
inductive Operand (ε : Type) where
  | column (c : ColumnNode)
  | other (e : ε)

/-- A condition: conjunctions, parentheses, equations and what is of another kind. -/
inductive Condition (ε : Type) where
  | and (left right : Condition ε)
  | paren (inner : Condition ε)
  | eq (left right : Operand ε)
  | other (e : ε)

/-- What is joined: a table, or something else. -/
inductive Joined where
  | table (t : TableNode)
  | other
  deriving DecidableEq

/-- `exp.Join`, with its side and kind in upper case. -/
structure Join (ε : Type) where
  side : String
  kind : String
  joined : Joined
  on : Option (Condition ε)

/-- `exp.Select`: its FROM clause, its joins, and the tables in other places of it. -/
structure Select (ε : Type) where
  from_ : Option Joined
  joins : List (Join ε)
  nested : List TableNode

variable {ε : Type}

def Joined.tables : Joined → List TableNode
  | .table t => [t]
  | .other => []

/-- `find_all(exp.Table)`. -/
def Select.tables (select : Select ε) : List TableNode :=
  (select.from_.map Joined.tables).getD [] ++ select.joins.flatMap (fun j => j.joined.tables) ++
    select.nested

end Syntax

/-- What is used of Python: `str.casefold`, and the order in which a set is gone through. -/
structure Outside where
  casefold : String → String
  iterate : List String → List String

section Bindings

variable {ε : Type} (outside : Outside)

/-- `_qualified_table_ref`. -/
def qualifiedTableRef (t : TableNode) : Except String String :=
  match t.catalog, t.db, t.name with
  | none, some db, some name => .ok s!"{db.text}.{name.text}"
  | _, _, _ => .error "多指标 SQL 只能引用完整的 mart_sales 表"

/-- The sets of `_table_bindings`, as the pairs of a name and a table. -/
abbrev Bindings := List (String × String)

/-- The bindings of one table: its name, its qualified name and its alias. -/
def bindingsOf (t : TableNode) : Except String Bindings := do
  let qualified ← qualifiedTableRef t
  let names := t.name.toList.map Identifier.text ++ [qualified] ++ t.alias_.toList.map Identifier.text
  return names.map fun name => (outside.casefold name, qualified)

/-- `_table_bindings`. -/
def tableBindings (select : Select ε) : Except String Bindings := do
  let bindings ← select.tables.mapM (bindingsOf outside)
  return bindings.flatten

/-- The tables of a name. -/
def Bindings.get (bindings : Bindings) (name : String) : List String :=
  ((bindings.filter fun b => b.1 = name).map Prod.snd).dedup

/-- All bound tables. -/
def Bindings.all (bindings : Bindings) : List String := (bindings.map Prod.snd).dedup

/-- `_match_table_name`. -/
def matchTableName (value : String) (candidates : List String) : Except String String :=
  match (outside.iterate candidates).find? fun c => outside.casefold c = outside.casefold value with
  | some c => .ok c
  | none => .error "SQL 字段引用了未绑定的表"

/-- The columns that a query may use of a table. -/
def allowedOf (context : QueryContext) (table : String) : List String :=
  (Dict.get? context.allowedColumns table).getD []

/-- The table that a column is of. -/
def physicalTable (context : QueryContext) (bindings : Bindings) (column : ColumnNode) :
    Except String String :=
  match column.db, column.table with
  | some db, some table => matchTableName outside s!"{db.text}.{table.text}" bindings.all
  | none, some table =>
    match bindings.get (outside.casefold table.text) with
    | [t] => .ok t
    | _ => .error "SQL 字段表别名无法唯一解析"
  | _, none =>
    match bindings.all.filter fun t => column.name.text ∈ allowedOf context t with
    | [t] => .ok t
    | _ => .error "SQL 未限定字段无法唯一解析"

/-- `_column_identity`, for a column of the query. -/
def columnIdentity (context : QueryContext) (bindings : Bindings) (column : ColumnNode) :
    Except String (String × String) := do
  let table ← physicalTable outside context bindings column
  require (column.name.text ∈ allowedOf context table) "SQL 字段不在多指标候选范围内"
  return (outside.casefold table, outside.casefold column.name.text)

end Bindings

section Pairs

variable {ε : Type} (outside : Outside)

/-- `_multi_conjuncts` of a condition. -/
def multiConjuncts : Condition ε → List (Condition ε)
  | .and left right => multiConjuncts left ++ multiConjuncts right
  | .paren inner => multiConjuncts inner
  | c => [c]

abbrev Identity := String × String

/-- `tuple(sorted((a, b)))`. -/
def sortedPair (a b : Identity) : Identity × Identity := if toLex a ≤ toLex b then (a, b) else (b, a)

/-- A conjunct of `_join_pairs`. -/
def joinPair (context : QueryContext) (bindings : Bindings) :
    Condition ε → Except String (Identity × Identity)
  | .eq (.column left) (.column right) => do
    let l ← columnIdentity outside context bindings left
    let r ← columnIdentity outside context bindings right
    return sortedPair l r
  | .eq _ _ => .error "多指标 SQL 的 Join 键必须是字段"
  | _ => .error "多指标 SQL 的 Join 只能使用等值键连接"

/-- `_join_pairs`. -/
def joinPairs (context : QueryContext) (bindings : Bindings) (condition : Condition ε) :
    Except String (Finset (Identity × Identity)) := do
  let pairs ← (multiConjuncts condition).mapM (joinPair outside context bindings)
  return pairs.toFinset

/-- `_constraint_pairs`. -/
def constraintPairs (c : JoinConstraint) : Finset (Identity × Identity) :=
  if outside.casefold c.direction ≠ "forward" ∨ c.sourceColumns.length ≠ c.targetColumns.length ∨
      c.sourceColumns = [] then ∅
  else ((c.sourceColumns.zip c.targetColumns).map fun p =>
    sortedPair (outside.casefold c.sourceTable, outside.casefold p.1)
      (outside.casefold c.targetTable, outside.casefold p.2)).toFinset

end Pairs

section Validation

variable {ε : Type} (outside : Outside)

/-- The schema that may be read. -/
def allowedSchema : String := "mart_sales"

/-- A table of `_validate_physical_tables`. -/
def validatePhysicalTable (context : QueryContext) (t : TableNode) : Except String Unit := do
  require (t.catalog = none ∧ t.db.map Identifier.text = some allowedSchema) "只能访问 mart_sales Schema"
  require (allowedSchema ++ "." ++ (t.name.map Identifier.text).getD "" ∈ context.allowedTables)
    "SQL 引用了未知表"

/-- `_validate_scope`, for the tables: those of a single SELECT are all that are in it. -/
def validateTables (context : QueryContext) (select : Select ε) : Except String Unit := do
  let tables := select.tables.filter fun t => t.name ≠ none
  require (tables ≠ []) "SQL 必须读取 mart_sales 物理表"
  tables.forM (validatePhysicalTable context)

/-- The messages of a check of joins. -/
structure JoinMessages where
  side : String
  joined : String
  on : String
  relation : String

/-- The forward constraints. -/
def forwardConstraints (context : QueryContext) : List JoinConstraint :=
  context.joinConstraints.filter fun c => outside.casefold c.direction = "forward"

/-- One join of the loop: the index of the constraint that it uses. -/
def matchJoin (messages : JoinMessages) (context : QueryContext) (bindings : Bindings)
    (used : List Nat) (join : Join ε) : Except String Nat := do
  require (join.side = "LEFT" ∧ join.kind ≠ "CROSS") messages.side
  match join.joined with
  | .other => .error messages.joined
  | .table t => do
    let target ← qualifiedTableRef t
    match join.on with
    | none => .error messages.on
    | some condition => do
      let pairs ← joinPairs outside context bindings condition
      match (forwardConstraints outside context).zipIdx.filter fun p =>
          p.2 ∉ used ∧ outside.casefold p.1.targetTable = outside.casefold target ∧
            pairs = constraintPairs outside p.1 with
      | [p] => .ok p.2
      | _ => .error messages.relation

/-- The loop over the joins. -/
def matchJoins (messages : JoinMessages) (context : QueryContext) (bindings : Bindings) :
    List Nat → List (Join ε) → Except String Unit
  | _, [] => .ok ()
  | used, join :: joins => do
    let index ← matchJoin outside messages context bindings used join
    matchJoins messages context bindings (index :: used) joins

/-- The base table of a SELECT. -/
def baseTable (message : String) (select : Select ε) : Except String TableNode :=
  match select.from_ with
  | some (.table t) => .ok t
  | _ => .error message

/-- `validate_join_constraints`. Its first check of a join asks for a table and a condition at
once. -/
def validateJoinConstraints (context : QueryContext) (select : Select ε) : Except String Unit := do
  require (select.joins ≠ [] ∧ forwardConstraints outside context ≠ [])
    "SQL Join 缺少认证的 Relationship Graph 事实"
  let base ← baseTable "SQL Join 必须从事实表 Anchor 开始" select
  let table ← qualifiedTableRef base
  require (outside.casefold table ∈
      (forwardConstraints outside context).map fun c => outside.casefold c.sourceTable)
    "SQL Join 的主表不是认证事实表 Anchor"
  let bindings ← tableBindings outside select
  let refs ← select.tables.mapM qualifiedTableRef
  require (refs.length = 1 + select.joins.length) "SQL 表必须通过显式认证 Join 连接"
  matchJoins outside ⟨"事实表到维表只允许使用 LEFT JOIN", "SQL Join 必须是带 ON 的物理表连接",
    "SQL Join 必须是带 ON 的物理表连接", "SQL Join 使用了未认证或错误的直接关系"⟩ context bindings []
    select.joins

/-- `_multi_metric_table`. -/
def multiMetricTable (dataSources : List String) : Except String String := do
  let sources := (dataSources.filter fun s => strip s ≠ "").map fun s => outside.casefold (strip s)
  require (sources.dedup.length = 1) "多指标必须共享一个事实表"
  return strip (dataSources.headD "")

/-- `_validate_multi_metric_from`. -/
def validateMultiMetricFrom (context : QueryContext) (metricTable : String) (select : Select ε) :
    Except String Unit := do
  let base ← baseTable "多指标 SQL 必须从共同事实表开始" select
  let table ← qualifiedTableRef base
  require (outside.casefold table = outside.casefold metricTable) "多指标 SQL 必须以共同事实表为主表"
  let refs ← select.tables.mapM qualifiedTableRef
  require refs.Nodup "多指标 SQL 不支持同一物理表的重复引用"
  require ((refs.filter fun t => outside.casefold t = outside.casefold metricTable).length = 1)
    "多指标 SQL 必须只包含一个共同事实表"
  require (∀ t ∈ refs, outside.casefold t = outside.casefold metricTable ∨
      ∃ c ∈ context.joinConstraints, outside.casefold t = outside.casefold c.sourceTable ∨
        outside.casefold t = outside.casefold c.targetTable) "多指标 SQL 引用了未认证的关联表"

/-- `_validate_multi_metric_joins`. -/
def validateMultiMetricJoins (context : QueryContext) (bindings : Bindings) (metricTable : String)
    (select : Select ε) : Except String Unit := do
  let refs ← select.tables.mapM qualifiedTableRef
  require (refs.length = 1 + select.joins.length) "多指标 SQL 的表必须通过显式认证 Join 连接"
  matchJoins outside ⟨"多指标 SQL 只允许使用 LEFT JOIN", "多指标 SQL 只能 Join 物理表",
    "多指标 SQL 的 Join 必须包含认证 ON 条件", "多指标 SQL 使用了未认证或错误的 Join"⟩ context bindings []
    select.joins
  require (∀ t ∈ refs, outside.casefold t = outside.casefold metricTable ∨
      ∃ c ∈ forwardConstraints outside context,
        outside.casefold t = outside.casefold c.targetTable) "多指标 SQL 的 Join 目标不在认证关系中"

/-- The checks of FROM and JOIN in `validate_sql`, for metrics of the data sources. -/
def validateRelations (context : QueryContext) (dataSources : List String) (select : Select ε) :
    Except String Unit := do
  validateTables context select
  if 2 ≤ dataSources.length then
    let metricTable ← multiMetricTable outside dataSources
    let bindings ← tableBindings outside select
    validateMultiMetricFrom outside context metricTable select
    validateMultiMetricJoins outside context bindings metricTable select
  else if select.joins ≠ [] then validateJoinConstraints outside context select

end Validation

end ChatBI.SqlGuard
