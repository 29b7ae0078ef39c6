import ChatBI.Lib.Check
import ChatBI.Lib.CodePoint
import ChatBI.Lib.Dict
import ChatBI.Lib.JsonDump
import ChatBI.Store.Rows

/-!
# Execution events

The events of one execution as the server writes them and the client reads them: their fields,
their payloads and their JSON.
-/

namespace ChatBI.Events

open ChatBI.Lib ChatBI.Store

inductive ExecutionStage where
  | queryUnderstanding | retrieval | sqlGeneration | sqlValidation | queryExecution
  | analysisUnderstanding | analysisPlanValidation | analysisQueryTasks | analysisAttribution
  | analysisReportGeneration | resultSaving
  deriving DecidableEq

namespace ExecutionStage

def value : ExecutionStage → String
  | queryUnderstanding => "query_understanding"
  | retrieval => "retrieval"
  | sqlGeneration => "sql_generation"
  | sqlValidation => "sql_validation"
  | queryExecution => "query_execution"
  | analysisUnderstanding => "analysis_understanding"
  | analysisPlanValidation => "analysis_plan_validation"
  | analysisQueryTasks => "analysis_query_tasks"
  | analysisAttribution => "analysis_attribution"
  | analysisReportGeneration => "analysis_report_generation"
  | resultSaving => "result_saving"

/-- The stages in the order of the server's enumeration, which is that of the client's `stages`. -/
def all : List ExecutionStage :=
  [queryUnderstanding, retrieval, sqlGeneration, sqlValidation, queryExecution,
    analysisUnderstanding, analysisPlanValidation, analysisQueryTasks, analysisAttribution,
    analysisReportGeneration, resultSaving]

/-- `ExecutionStage(value)`. -/
def ofValue? (value : String) : Option ExecutionStage := all.find? (fun s => s.value = value)

def index (s : ExecutionStage) : Nat := all.idxOf s

end ExecutionStage

def statusValue : ExecutionStatus → String
  | .accepted => "accepted"
  | .running => "running"
  | .stopping => "stopping"
  | .succeeded => "succeeded"
  | .failed => "failed"
  | .cancelled => "cancelled"
  | .timedOut => "timed_out"
  | .unconfirmed => "unconfirmed"

/-- The statuses of an execution that has ended. -/
def isTerminal : ExecutionStatus → Bool
  | .succeeded | .failed | .cancelled | .timedOut | .unconfirmed => true
  | .accepted | .running | .stopping => false

/-- The fields of an execution that its channel reads. -/
structure Execution where
  id : String
  historyId : String
  turnId : String
  status : ExecutionStatus
  stopReason : Option String
  deriving DecidableEq

/-- A draft position: a field and, in a list field, the index of the item. -/
abbrev DraftKey := String × Option Nat

/-- The value of a draft field: a text or the texts of a list. -/
inductive DraftValue where
  | text (t : List Char)
  | lines (ts : List (List Char))
  deriving DecidableEq

abbrev ReportDraft := Dict String DraftValue

/-- The payload of a snapshot. -/
structure Snapshot where
  status : ExecutionStatus
  stage : Option ExecutionStage
  completedTasks : Nat
  totalTasks : Option Nat
  stopReason : Option Text
  draftGeneration : Nat
  draft : Option ReportDraft
  deriving DecidableEq

/-- The payload of a progress event. A field that is left out is `none`. -/
structure Progress where
  status : Option ExecutionStatus := none
  stopReason : Option Text := none
  stage : Option (Option ExecutionStage) := none
  completedTasks : Option Nat := none
  totalTasks : Option (Option Nat) := none
  deriving DecidableEq

/-- The part of an error that may be shown: each field is there when it is a text. -/
structure PublicError where
  errorCode : Option Text
  errorMessage : Option Text
  deriving DecidableEq

inductive Payload where
  | snapshot (s : Snapshot)
  | progress (p : Progress)
  | textDelta (field : String) (index : Option Nat) (offset : Nat) (text : List Char)
  | draftReset (reason : String)
  | terminal (status : ExecutionStatus) (publicError : Option PublicError)
  | authLost
  deriving DecidableEq

/-- An event with its envelope. `auth_lost` has neither history, turn nor generation. -/
structure ExecutionEvent where
  executionId : String
  historyId : Option String
  turnId : Option String
  sequence : Nat
  draftGeneration : Option Nat
  payload : Payload
  deriving DecidableEq

def Payload.type : Payload → String
  | .snapshot _ => "snapshot"
  | .progress _ => "progress"
  | .textDelta .. => "text_delta"
  | .draftReset _ => "draft_reset"
  | .terminal .. => "terminal"
  | .authLost => "auth_lost"

section Json

/-- A field that may be left out. -/
def optionalField (key : String) : Option JsonDoc → List (String × JsonDoc)
  | none => []
  | some v => [(key, v)]

/-- A text that is encoded. -/
def textJson (t : Text) : JsonDoc := .str t.written

def DraftValue.toJson : DraftValue → JsonDoc
  | .text t => .str (String.ofList t)
  | .lines ts => .arr (ts.map fun t => .str (String.ofList t))

def draftJson (draft : ReportDraft) : JsonDoc := .obj (draft.map fun e => (e.1, e.2.toJson))

def stageJson : Option ExecutionStage → JsonDoc :=
  JsonDoc.ofOption fun s => .str s.value

def Snapshot.toJson (s : Snapshot) : JsonDoc :=
  .obj [("status", .str (statusValue s.status)), ("stage", stageJson s.stage),
    ("completed_tasks", JsonDoc.nat s.completedTasks),
    ("total_tasks", JsonDoc.ofOption JsonDoc.nat s.totalTasks),
    ("stop_reason", JsonDoc.ofOption textJson s.stopReason),
    ("draft_generation", JsonDoc.nat s.draftGeneration),
    ("draft", JsonDoc.ofOption draftJson s.draft)]

def Progress.toJson (p : Progress) : JsonDoc :=
  .obj (optionalField "status" (p.status.map fun s => .str (statusValue s)) ++
    optionalField "stop_reason" (p.stopReason.map textJson) ++
    optionalField "stage" (p.stage.map stageJson) ++
    optionalField "completed_tasks" (p.completedTasks.map JsonDoc.nat) ++
    optionalField "total_tasks" (p.totalTasks.map (JsonDoc.ofOption JsonDoc.nat)))

def PublicError.toJson (e : PublicError) : JsonDoc :=
  .obj (optionalField "error_code" (e.errorCode.map textJson) ++
    optionalField "error_message" (e.errorMessage.map textJson))

def Payload.toJson : Payload → JsonDoc
  | .snapshot s => s.toJson
  | .progress p => p.toJson
  | .textDelta field index offset text =>
    .obj [("field", .str field), ("index", JsonDoc.ofOption JsonDoc.nat index),
      ("offset", JsonDoc.nat offset), ("text", .str (String.ofList text))]
  | .draftReset reason => .obj [("reason", .str reason)]
  | .terminal status publicError =>
    .obj ([("status", .str (statusValue status))] ++
      optionalField "public_error" (publicError.map PublicError.toJson))
  | .authLost => .obj []

def ExecutionEvent.toJson (e : ExecutionEvent) : JsonDoc :=
  .obj ([("version", JsonDoc.nat 1), ("execution_id", .str e.executionId)] ++
    optionalField "history_id" (e.historyId.map .str) ++
    optionalField "turn_id" (e.turnId.map .str) ++ [("sequence", JsonDoc.nat e.sequence)] ++
    optionalField "draft_generation" (e.draftGeneration.map JsonDoc.nat) ++
    [("type", .str e.payload.type), ("payload", e.payload.toJson)])

end Json

section Writing

/-- The numbers that a payload writes. -/
def Payload.numbers : Payload → List Nat
  | .snapshot s => [s.completedTasks, s.draftGeneration] ++ s.totalTasks.toList
  | .progress p => p.completedTasks.toList ++ (p.totalTasks.bind id).toList
  | .textDelta _ index offset _ => offset :: index.toList
  | .draftReset _ | .terminal .. | .authLost => []

/-- The texts of a payload that nobody has checked. -/
def Payload.texts : Payload → List Text
  | .snapshot s => s.stopReason.toList
  | .progress p => p.stopReason.toList
  | .terminal _ publicError =>
    publicError.toList.flatMap fun e => e.errorCode.toList ++ e.errorMessage.toList
  | .textDelta .. | .draftReset _ | .authLost => []

/-- The numbers that an event writes. -/
def ExecutionEvent.numbers (e : ExecutionEvent) : List Nat :=
  e.sequence :: e.draftGeneration.toList ++ e.payload.numbers

/-- `str` writes integers of at most 4300 digits. -/
def maxStrDigits : Nat := 4300

/-- The bytes of `json.dumps(event, ensure_ascii=False, separators=(",", ":")).encode()`, as the
text that they encode. An integer that is too long is found first. -/
def ExecutionEvent.text (e : ExecutionEvent) : Except String (List Char) := do
  require (∀ n ∈ e.numbers, (Nat.toDigits 10 n).length ≤ maxStrDigits)
    "Exceeds the limit (4300 digits) for integer string conversion"
  require (∀ t ∈ e.payload.texts, t.Encodable)
    "'utf-8' codec can't encode characters: surrogates not allowed"
  return JsonDoc.dumps e.toJson

/-- Neither `json.dumps` nor `encode` raises on the event. -/
def ExecutionEvent.Writable (e : ExecutionEvent) : Prop :=
  (∀ n ∈ e.numbers, (Nat.toDigits 10 n).length ≤ maxStrDigits) ∧
    ∀ t ∈ e.payload.texts, t.Encodable

instance (e : ExecutionEvent) : Decidable e.Writable := inferInstanceAs (Decidable (_ ∧ _))

variable {e : ExecutionEvent}

lemma text_ok {text : List Char} :
    e.text = .ok text ↔ e.Writable ∧ text = JsonDoc.dumps e.toJson := by
  simp only [ExecutionEvent.text, except_bind_ok, except_pure_ok]
  constructor
  · rintro ⟨_, hnumbers, _, htexts, rfl⟩
    exact ⟨⟨require_ok.mp hnumbers, require_ok.mp htexts⟩, rfl⟩
  · rintro ⟨⟨hnumbers, htexts⟩, rfl⟩
    exact ⟨(), require_ok.mpr hnumbers, (), require_ok.mpr htexts, rfl⟩

lemma text_of_writable (h : e.Writable) : e.text = .ok (JsonDoc.dumps e.toJson) :=
  text_ok.mpr ⟨h, rfl⟩

lemma text_of_not_writable (h : ¬e.Writable) : ∃ message, e.text = .error message := by
  cases htext : e.text with
  | error message => exact ⟨message, rfl⟩
  | ok text => exact absurd (text_ok.mp htext).1 h

lemma length_toDigits_mono {n m : Nat} (h : n ≤ m) :
    (Nat.toDigits 10 n).length ≤ (Nat.toDigits 10 m).length := by
  have hpos : 0 < (Nat.toDigits 10 m).length := Nat.length_toDigits_pos
  rw [Nat.length_toDigits_le_iff (by decide) hpos]
  exact h.trans_lt ((Nat.length_toDigits_le_iff (by decide) hpos).mp (Nat.le_refl _))

end Writing

end ChatBI.Events
