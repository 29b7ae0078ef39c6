import ChatBI.Relationships.Build
import ChatBI.Semantic.Certification

/-!
# Resolving joins

The published relationship graph is read again online: its foreign keys become edges, the joins
from an anchor to its targets are resolved to direct edges, and every edge needs the proof that its
target columns are unique.
-/

namespace ChatBI.Relationships

open ChatBI.Lib ChatBI.Offline ChatBI.Semantic

/-- `RelationshipGraphContractError`, `RelationshipGraphAmbiguousError` and
`RelationshipGraphUnreachableError`. -/
inductive GraphError where
  | contract (message : String)
  | ambiguous (message : String)
  | unreachable (message : String)
  deriving DecidableEq

structure JoinEdge where
  edgeId : String
  sourceTable : String
  targetTable : String
  sourceColumns : List String
  targetColumns : List String
  constraintName : String
  direction : String
  deriving DecidableEq

structure JoinPath where
  tables : List String
  edges : List JoinEdge
  deriving DecidableEq

structure JoinResolution where
  anchorTable : String
  paths : List JoinPath
  joins : List JoinEdge
  deriving DecidableEq

section Publishing

def textsJson (texts : List String) : Json := .arr (texts.map .str)

def KeyRecord.toJson (k : KeyRecord) : Json :=
  .obj [("relationship_type", .str k.relationshipType), ("schema_name", .str k.schemaName),
    ("table_name", .str k.tableName), ("column_names", textsJson k.columnNames),
    ("constraint_name", .str k.constraintName)]

def IndexRecord.toJson (i : IndexRecord) : Json :=
  .obj [("relationship_type", .str "unique_index"), ("schema_name", .str i.schemaName),
    ("table_name", .str i.tableName), ("index_name", .str i.indexName),
    ("column_names", textsJson i.columnNames), ("predicate", i.predicate)]

def ForeignKeyRecord.toJson (f : ForeignKeyRecord) : Json :=
  .obj [("relationship_type", .str "foreign_key"), ("constraint_name", .str f.constraintName),
    ("source_schema", .str f.sourceSchema), ("source_table", .str f.sourceTable),
    ("source_columns", textsJson f.sourceColumns), ("target_schema", .str f.targetSchema),
    ("target_table", .str f.targetTable), ("target_columns", textsJson f.targetColumns)]

/-- `RelationshipGraph.to_dict`. -/
def RelationshipGraph.toJson (graph : RelationshipGraph) : Json :=
  .obj [("nodes", textsJson graph.nodes), ("primary_keys", .arr (graph.primaryKeys.map KeyRecord.toJson)),
    ("unique_constraints", .arr (graph.uniqueConstraints.map KeyRecord.toJson)),
    ("unique_indexes", .arr (graph.uniqueIndexes.map IndexRecord.toJson)),
    ("foreign_keys", .arr (graph.foreignKeys.map ForeignKeyRecord.toJson))]

end Publishing

section Parsing

/-- `_text`. -/
def graphText (raw : Json) (key : String) (index : Nat) : Except GraphError String :=
  match raw.field key with
  | .str value =>
    if strip value = "" then .error (.contract s!"Relationship Graph 第 {index} 条边缺少 {key}")
    else .ok (strip value)
  | _ => .error (.contract s!"Relationship Graph 第 {index} 条边缺少 {key}")

/-- `_string_tuple`. -/
def stringTuple (value : Json) (key : String) (index : Nat) : Except GraphError (List String) :=
  let error := GraphError.contract s!"Relationship Graph 第 {index} 条边的 {key} 无效"
  match value with
  | .arr (v :: values) => (v :: values).mapM fun item =>
    match item with
    | .str s => if strip s = "" then .error error else .ok (strip s)
    | _ => .error error
  | _ => .error error

/-- `_qualified_from_graph`. -/
def qualifiedFromGraph (raw : Json) (schemaKey tableKey : String) (index : Nat) :
    Except GraphError String := do
  let schema ← graphText raw schemaKey index
  let table ← graphText raw tableKey index
  return qualified schema table

/-- An edge of `parse_edges`. -/
def parseEdge (raw : Json) (index : Nat) : Except GraphError JoinEdge := do
  require raw.isDict (.contract s!"Relationship Graph 第 {index} 条边格式无效")
  let edgeId ← graphText raw "constraint_name" index
  let sourceTable ← qualifiedFromGraph raw "source_schema" "source_table" index
  let targetTable ← qualifiedFromGraph raw "target_schema" "target_table" index
  let sourceColumns ← stringTuple (raw.field "source_columns") "source_columns" index
  let targetColumns ← stringTuple (raw.field "target_columns") "target_columns" index
  require (sourceColumns.length = targetColumns.length)
    (.contract s!"Relationship Graph 第 {index} 条边键数量不一致")
  return ⟨edgeId, sourceTable, targetTable, sourceColumns, targetColumns, edgeId, "forward"⟩

/-- `sorted(edges, key=lambda edge: edge.edge_id)`. -/
def sortEdges (edges : List JoinEdge) : List JoinEdge :=
  edges.insertionSort fun e e' => e.edgeId ≤ e'.edgeId

def parseEdges (graph : Json) : Except GraphError (List JoinEdge) :=
  match graph.field "foreign_keys" with
  | .arr rawEdges => sortEdges <$> (rawEdges.zipIdx 1).mapM fun p => parseEdge p.1 p.2
  | _ => .error (.contract "Relationship Graph 缺少 foreign_keys")

/-- A record of `_graph_unique_keys`: the table and the columns of a key, and its name. -/
def parseKey (section_ prefix_ : String) (raw : Json) (index : Nat) :
    Except GraphError ((String × List String) × String) := do
  require raw.isDict (.contract s!"Relationship Graph {section_} 第 {index} 条记录格式无效")
  let table ← qualifiedFromGraph raw "schema_name" "table_name" index
  let columns ← stringTuple (raw.field "column_names") "column_names" index
  let constraintName ← graphText raw "constraint_name" index
  return ((table, columns), s!"{prefix_}:{constraintName}")

def parseKeys (graph : Json) (section_ prefix_ : String) :
    Except GraphError (List ((String × List String) × String)) :=
  match graph.field section_ with
  | .arr records => (records.zipIdx 1).mapM fun p => parseKey section_ prefix_ p.1 p.2
  | _ => .error (.contract s!"Relationship Graph 缺少 {section_}")

/-- `_graph_unique_keys`. -/
def graphUniqueKeys (graph : Json) : Except GraphError (Dict (String × List String) String) := do
  let primary ← parseKeys graph "primary_keys" "primary_key"
  let unique ← parseKeys graph "unique_constraints" "unique_constraint"
  return (primary ++ unique).foldl (fun keys k => Dict.set keys k.1 k.2) []

end Parsing

section Resolving

variable (anchor : String) (edges : List JoinEdge) (timeEdge timeTarget : Option String)

/-- The direct edges to a target. The edge of the time field is preferred. -/
def directEdges (target : String) : List JoinEdge :=
  let direct := edges.filter fun e => e.sourceTable = anchor ∧ e.targetTable = target
  let timed := direct.filter fun e => timeEdge = some e.edgeId
  if some target = timeTarget ∧ timeEdge ≠ none ∧ timed ≠ [] then timed else direct

/-- The loop of `resolve_join_paths`: the paths and the targets without one. -/
def resolveTargets : List String → Except GraphError (List JoinPath × List String)
  | [] => .ok ([], [])
  | target :: targets =>
    if target = anchor then resolveTargets targets
    else
      match directEdges anchor edges timeEdge timeTarget target with
      | [] => do
        let (paths, unreachable) ← resolveTargets targets
        return (paths, target :: unreachable)
      | [edge] => do
        let (paths, unreachable) ← resolveTargets targets
        return (⟨[anchor, target], [edge]⟩ :: paths, unreachable)
      | _ => .error (.ambiguous s!"目标表 {target} 存在多条无法唯一裁决的直接关系")

/-- `_dedupe_edges`. -/
def dedupeEdges (edges : List JoinEdge) : List JoinEdge :=
  edges.foldl (fun result e =>
    if (e.edgeId, e.direction) ∈ result.map fun e => (e.edgeId, e.direction) then result
    else result ++ [e]) []

def resolveJoinPaths (targets : List String) : Except GraphError JoinResolution := do
  let (paths, unreachable) ← resolveTargets anchor edges timeEdge timeTarget targets
  require (unreachable = [])
    (.unreachable ("必需表不可达（只支持从事实表沿 Foreign Key（外键）正向展开）：" ++
      "、".intercalate (unreachable.insertionSort (· ≤ ·))))
  return ⟨anchor, paths, dedupeEdges (paths.flatMap JoinPath.edges)⟩

/-- The walk along a path: every edge starts where the one in front of it ended. -/
def checkPath : String → List JoinEdge → Except GraphError Unit
  | _, [] => .ok ()
  | current, edge :: edges =>
    if edge.direction ≠ "forward" ∨ edge.sourceTable ≠ current then
      .error (.unreachable "Join 必须从事实表 Anchor 沿 Foreign Key（外键）正向展开")
    else checkPath edge.targetTable edges

/-- The constraint of an edge whose target columns are a key. -/
def constraintOf (uniqueKeys : Dict (String × List String) String) (edge : JoinEdge) :
    Except GraphError JoinConstraint :=
  match Dict.get? uniqueKeys (edge.targetTable, edge.targetColumns) with
  | none => .error (.unreachable
      ("Join 目标缺少 Primary Key / Unique Constraint（主键/唯一约束）证明：" ++
        edge.targetTable ++ "(" ++ ", ".intercalate edge.targetColumns ++ ")"))
  | some basis => .ok
    { sourceTable := edge.sourceTable
      sourceColumns := edge.sourceColumns
      targetTable := edge.targetTable
      targetColumns := edge.targetColumns
      uniquenessBasis := basis
      direction := "forward" }

def validatedJoinConstraints (resolution : JoinResolution) (graph : Json) :
    Except GraphError (List JoinConstraint) :=
  if resolution.joins = [] then .ok []
  else do
    let uniqueKeys ← graphUniqueKeys graph
    resolution.paths.forM fun path => checkPath anchor path.edges
    resolution.joins.mapM (constraintOf uniqueKeys)

/-- The constraints of the joins from the anchor to the targets. -/
def joinConstraints (graph : Json) (targets : List String) :
    Except GraphError (List JoinConstraint) := do
  let resolution ← resolveJoinPaths anchor edges timeEdge timeTarget targets
  validatedJoinConstraints anchor resolution graph

end Resolving

section Stage

/-- The time field of a metric, before its edge is known. -/
structure TimeField where
  sourceTable : String
  sourceColumn : String
  targetTable : String
  filterColumn : String
  deriving DecidableEq

/-- `validate_time_edge`: the edge of the time field. -/
def validateTimeEdge (timeField : TimeField) (edges : List JoinEdge) : Except GraphError String :=
  match edges.filter fun e => e.sourceTable = timeField.sourceTable ∧
      e.targetTable = timeField.targetTable ∧ e.sourceColumns = [timeField.sourceColumn] with
  | [] => .error (.contract "time_field 无法匹配已验证 Relationship Graph")
  | [edge] => .ok edge.edgeId
  | _ => .error (.ambiguous "time_field 匹配到多条语义不同关系")

/-- `target_tables`. -/
def targetTables (candidateTables : List String) (metricTable : Option String)
    (timeField : Option TimeField) : List String :=
  (candidateTables ++ metricTable.toList ++ (timeField.map TimeField.targetTable).toList).dedup.insertionSort
    (· ≤ ·)

/-- `_resolve_join`: the joins from the anchor to the candidate tables. -/
def resolveJoin (anchor : String) (candidateTables : List String) (metricTable : Option String)
    (timeField : Option TimeField) (graph : Json) : Except GraphError (List JoinConstraint) := do
  let edges ← parseEdges graph
  let timeEdge ← timeField.mapM (validateTimeEdge · edges)
  joinConstraints anchor edges timeEdge (timeField.map TimeField.targetTable) graph
    (targetTables candidateTables metricTable timeField)

end Stage

end ChatBI.Relationships
