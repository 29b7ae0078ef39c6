import ChatBI.Lib.JsonText
import ChatBI.Semantic.Payload
import ChatBI.Store.Rows

/-!
# The state of a query

`decode_query_state` checks the structure of a stored state again. Absolute times are kept as they
are; reading one from a text is a parameter.
-/

namespace ChatBI.Snapshot

open ChatBI.Lib ChatBI.Store ChatBI.Semantic

def historyIncompatible : HistoryError :=
  { code := .historyContextIncompatible, message := "历史查询条件不可恢复，请新开对话并补全问题" }

def provenanceFields : List String := ["metrics", "bindings", "columns", "joins"]

/-- The checks of the version and of the provenance. -/
def checkState (state : Json) : Option Unit := do
  guard (hasKeys state ["state_version", "semantic_query", "provenance"])
  guard ((state.field "state_version") matches .int 1)
  let provenance := state.field "provenance"
  guard (hasKeys provenance provenanceFields)
  guard ((provenance.field "metrics").isList ∧ (provenance.field "joins").isList ∧
    (provenance.field "bindings").isDict ∧ (provenance.field "columns").isDict)

/-- A key and its value. -/
def pair? : Json → Option (String × Json)
  | .arr [.str key, value] => some (key, value)
  | _ => none

/-- `dict(value)` of an object or of a list of pairs. Of other values it raises, or has keys that no
query has. -/
def dictOf? : Json → Option (Dict String Json)
  | .obj fields => some fields
  | .arr items => (items.mapM pair?).map Dict.ofPairs
  | _ => none

section

-- the decimal digits of other scripts, and `datetime.fromisoformat`, `none` where it raises
variable (digit : Char → Option Nat) (fromisoformat : String → Option Semantic.DateTime)

/-- The point in time of a text that has a distance from UTC. -/
def instant? (d : Semantic.DateTime) : Option Int := d.utcoffset.map (d.wall - ·)

def timestamp? (value : Json) : Option Semantic.DateTime :=
  if value.isString then fromisoformat value.text else none

/-- The checks of an absolute time. -/
def absoluteTime? (value : Json) : Option ValidatedTime := do
  guard (hasKeys value ["text", "granularity", "start", "end"])
  let text := value.field "text"
  guard (text.isString ∧ strip text.text ≠ "")
  let start ← timestamp? fromisoformat (value.field "start")
  let stop ← timestamp? fromisoformat (value.field "end")
  guard ((← instant? start) < (← instant? stop))
  guard (value.field "granularity").isString
  let granularity ← Dict.get? timeGranularities (value.field "granularity").text
  return { text := text.text, granularity, start, stop }

/-- No relative time is resolved again. -/
def noRelativeTime (_ : TimeCandidate) : Except SemanticQueryValidationError ValidatedTime :=
  .error (.cannotAnswer "日期表达无法标准化" "DATE_NOT_NORMALIZABLE")

/-- The body of `decode_query_state`; `none` where it raises an exception that is caught. -/
def restored? (state : Json) : Option ValidatedSemanticQuery := do
  checkState state
  let payload ← dictOf? (state.field "semantic_query")
  let absolute := (Dict.get? payload "time").getD .null
  let candidate ← (candidateFromPayload digit (.obj (Dict.set payload "time" .null)) true).toOption
  let semantic ← (validateCandidate noRelativeTime candidate "历史结构化查询").toOption
  if absolute.isNull then return semantic
  else return { semantic with time := some (← absoluteTime? fromisoformat absolute) }

def decodeQueryState (state : Json) : Except HistoryError ValidatedSemanticQuery :=
  match restored? digit fromisoformat state with
  | some semantic => .ok semantic
  | none => .error historyIncompatible

end

end ChatBI.Snapshot
