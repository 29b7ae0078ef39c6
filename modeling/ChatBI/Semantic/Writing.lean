import ChatBI.Lib.JsonShape
import ChatBI.Semantic.Certification
import ChatBI.Semantic.Payload

/-!
# Queries as JSON

The JSON values of conditions, of the semantic query in a prompt, and of a certificate. How a point
in time is written and read is a parameter.
-/

namespace ChatBI.Semantic

open ChatBI.Lib

/-- `datetime.isoformat`, and `datetime.fromisoformat`, which reads what it writes. -/
structure IsoFormat where
  isoformat : DateTime → String
  fromisoformat : String → Option DateTime
  reads : ∀ d, d.utcoffset ≠ none → fromisoformat (isoformat d) = some d

def textsJson (texts : List String) : Json := .arr (texts.map .str)

def optionalJson {α : Type} (json : α → Json) : Option α → Json
  | some a => json a
  | none => .null

/-! ### Conditions -/

def BusinessOrder.toPayload (item : BusinessOrder) : Json :=
  .obj [("target_kind", .str item.targetKind), ("target", .str item.target),
    ("direction", .str item.direction), ("nulls", .str item.nulls)]

def AggregateFilter.toPayload (item : AggregateFilter) : Json :=
  .obj [("metric", .str item.metric), ("operator", .str item.operator),
    ("values", textsJson item.values)]

def EntitySelection.toPayload (selection : EntitySelection) : Json :=
  .obj [("fields", textsJson selection.fields), ("distinct", .bool selection.distinct)]

def RestorationConditions.toPayload (conditions : RestorationConditions) : Json :=
  .obj [("order_by", .arr (conditions.orderBy.map BusinessOrder.toPayload)),
    ("row_limit", optionalJson .int conditions.rowLimit),
    ("aggregate_filters", .arr (conditions.aggregateFilters.map AggregateFilter.toPayload)),
    ("selection", optionalJson EntitySelection.toPayload conditions.selection)]

/-! ### The semantic query -/

def ValidatedFilter.json (item : ValidatedFilter) : Json :=
  .obj [("field_text", .str item.fieldText), ("operator", .str item.operator.value),
    ("values", textsJson item.values)]

section

variable (format : IsoFormat)

def ValidatedTime.json (time : ValidatedTime) : Json :=
  .obj [("text", .str time.text), ("granularity", .str (granularityValue time.granularity)),
    ("start", .str (format.isoformat time.start)), ("end", .str (format.isoformat time.stop))]

/-- The value of `_semantic_query_json`. -/
def SemanticPayload.json (payload : SemanticPayload) : Json :=
  .obj ([("query_type", .str payload.queryType.value), ("subjects", textsJson payload.subjects),
    ("metrics", textsJson payload.metrics), ("dimensions", textsJson payload.dimensions),
    ("time", optionalJson (ValidatedTime.json format) payload.time),
    ("filters", .arr (payload.filters.map ValidatedFilter.json))] ++
      payload.conditions.elim [] fun conditions => [("conditions", conditions.toPayload)])

end

/-! ### The certificate -/

def UsedBinding.json : UsedBinding → Json
  | time granularity =>
    .obj [("granularity", .str granularity), ("column", .str (UsedBinding.time granularity).column)]
  | field binding =>
    .obj (("column", .str binding.column) ::
      (binding.subject.elim [] fun subject => [("subject", .str subject)]) ++
      if binding.valueAliases = [] then []
      else [("value_aliases", .obj (binding.valueAliases.map fun a => (a.1, .str a.2)))])

mutual

def DependencyDefinition.json : DependencyDefinition → Json
  | .mk formula dataSource timeField filters dependencies =>
    .obj [("formula", .str formula), ("data_source", .str dataSource), ("time_field", .str timeField),
      ("filters", textsJson filters), ("dependencies", .obj (dependenciesJson dependencies))]

def dependenciesJson : List (String × DependencyDefinition) → List (String × Json)
  | [] => []
  | (name, definition) :: dependencies =>
    (name, definition.json) :: dependenciesJson dependencies

end

def CertifiedMetric.json (metric : CertifiedMetric) : Json :=
  .obj [("formula", .str metric.formula), ("data_source", .str metric.dataSource),
    ("time_field", .str metric.timeField), ("filters", textsJson metric.filters),
    ("depends_on", textsJson metric.dependsOn), ("name", .str metric.name),
    ("dependency_definitions", .obj (dependenciesJson metric.dependencyDefinitions))]

def JoinConstraint.json (join : JoinConstraint) : Json :=
  .obj [("source_table", .str join.sourceTable), ("source_columns", textsJson join.sourceColumns),
    ("target_table", .str join.targetTable), ("target_columns", textsJson join.targetColumns),
    ("uniqueness_basis", .str join.uniquenessBasis), ("direction", .str join.direction)]

def Provenance.json (provenance : Provenance) : Json :=
  .obj [("metrics", .arr (provenance.metrics.map CertifiedMetric.json)),
    ("bindings", .obj (provenance.bindings.map fun b => (b.1, b.2.json))),
    ("columns", .obj (provenance.columns.map fun c => (c.1, .str c.2))),
    ("joins", .arr (provenance.joins.map JoinConstraint.json))]

def Certificate.json (format : IsoFormat) (certificate : Certificate) : Json :=
  .obj [("state_version", .int certificate.stateVersion),
    ("semantic_query", certificate.semanticQuery.json format),
    ("provenance", certificate.provenance.json)]

end ChatBI.Semantic
