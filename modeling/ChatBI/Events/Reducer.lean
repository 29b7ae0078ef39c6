import ChatBI.Events.Channel

/-!
# The client's reducer

`reduceExecutionEvent` of the browser. Counts and sequence numbers are exact as long as they are
safe integers.
-/

namespace ChatBI.Events

open ChatBI.Lib ChatBI.Store

/-- `ExecutionState`. -/
structure ExecutionState where
  executionId : String
  historyId : String
  turnId : String
  sequence : Nat
  draftGeneration : Nat
  status : ExecutionStatus
  stage : Option ExecutionStage
  completedTasks : Nat
  totalTasks : Option Nat
  stopReason : Option Text
  draft : Option ReportDraft
  publicError : Option PublicError := none
  deriving DecidableEq

/-- `ReducedExecution`. -/
structure Reduced where
  state : Option ExecutionState
  resnapshot : Bool
  authLost : Bool := false
  deriving DecidableEq

def maxSafeInteger : Nat := 2 ^ 53 - 1

def safeCount (n : Nat) : Bool := n ≤ maxSafeInteger

def statusRank : ExecutionStatus → Nat
  | .accepted => 0
  | .running => 1
  | .stopping => 2
  | _ => 3

/-- The bytes of the texts of a draft value. -/
def valueBytes : DraftValue → Nat
  | .text t => Utf8.size t
  | .lines ts => (ts.map Utf8.size).sum

/-- The kind of value that a draft field has. -/
def validDraftField (field : String) : DraftValue → Bool
  | .text _ => field ∈ textDraftFields
  | .lines _ => field ∈ listDraftFields

/-- `reportDraft`: the draft when it is valid, `none` when it throws. -/
def reportDraft : Option ReportDraft → Option (Option ReportDraft)
  | none => some none
  | some draft =>
    if (draft.all fun e => validDraftField e.1 e.2) ∧
        (draft.map fun e => valueBytes e.2).sum ≤ 5 * 1024 * 1024 then some (some draft)
    else none

/-- The counts of a snapshot are ones that the client can hold. -/
def validCounts (s : Snapshot) : Bool :=
  safeCount s.completedTasks &&
    match s.totalTasks with
    | none => true
    | some total => safeCount total && 0 < total && s.completedTasks ≤ total

/-- The stage goes back: from a stage to none or to an earlier one. -/
def stageRegresses (stage next : Option ExecutionStage) : Bool :=
  match stage, next with
  | none, _ => false
  | some _, none => true
  | some s, some s' => s'.index < s.index

/-- A snapshot of the client's generation shows less than the client has. -/
def snapshotRegresses (current : ExecutionState) (s : Snapshot) : Bool :=
  statusRank s.status < statusRank current.status || stageRegresses current.stage s.stage ||
    s.completedTasks < current.completedTasks ||
    (current.totalTasks.isSome && s.totalTasks ≠ current.totalTasks)

def keep (current : Option ExecutionState) : Reduced := ⟨current, false, false⟩

def askAgain (current : Option ExecutionState) : Reduced := ⟨current, true, false⟩

/-- The identity fields of an event that the reducer needs. -/
structure Envelope where
  executionId : String
  historyId : String
  turnId : String
  sequence : Nat
  draftGeneration : Nat
  deriving DecidableEq

/-- The envelope of an event whose ids are there and whose generation is a safe integer. -/
def envelope? (event : ExecutionEvent) : Option Envelope :=
  match event.historyId, event.turnId, event.draftGeneration with
  | some historyId, some turnId, some generation =>
    if historyId ≠ "" ∧ turnId ≠ "" ∧ safeCount generation then
      some ⟨event.executionId, historyId, turnId, event.sequence, generation⟩
    else none
  | _, _, _ => none

def Envelope.Of (e : Envelope) (current : ExecutionState) : Prop :=
  e.executionId = current.executionId ∧ e.historyId = current.historyId ∧
    e.turnId = current.turnId

instance (e : Envelope) (current : ExecutionState) : Decidable (e.Of current) :=
  inferInstanceAs (Decidable (_ ∧ _ ∧ _))

/-- The state that a snapshot gives, when its draft is valid. -/
def fromSnapshot (current : Option ExecutionState) (e : Envelope) (s : Snapshot) : Reduced :=
  match reportDraft s.draft with
  | none => askAgain current
  | some draft => keep (some {
      executionId := e.executionId
      historyId := e.historyId
      turnId := e.turnId
      sequence := e.sequence
      draftGeneration := e.draftGeneration
      status := s.status
      stage := s.stage
      completedTasks := s.completedTasks
      totalTasks := s.totalTasks
      stopReason := s.stopReason
      draft })

def reduceSnapshot (current : Option ExecutionState) (e : Envelope) (s : Snapshot) : Reduced :=
  match current with
  | none => if validCounts s then fromSnapshot none e s else askAgain none
  | some state =>
    if e.draftGeneration < state.draftGeneration then keep current
    else if ¬validCounts s then askAgain current
    else if e.sequence < state.sequence then
      if isTerminal s.status ∧ ¬isTerminal state.status then
        keep (some { state with status := s.status, stopReason := s.stopReason })
      else if isTerminal state.status ∧ s.status ≠ state.status then askAgain current
      else keep current
    else if e.sequence = state.sequence then keep current
    else if isTerminal state.status ∧ s.status ≠ state.status then askAgain current
    else if e.draftGeneration = state.draftGeneration ∧ snapshotRegresses state s then
      askAgain current
    else fromSnapshot current e s

/-- The fields of a payload that progress may change, `none` when the payload has them not. -/
def Payload.progressFields : Payload → Progress
  | .progress p => p
  | .terminal status _ => { status := some status }
  | _ => {}

/-- `String(previous ?? '')`. -/
def previousText (draft : ReportDraft) (field : String) : List Char :=
  match Dict.get? draft field with
  | none => []
  | some (.text t) => t
  | some (.lines ts) => (ts.intersperse [',']).flatten

/-- A text added to a line: a new last line, or more text of an old one. -/
def addLine (lines : List (List Char)) (index : Nat) (text : List Char) : List (List Char) :=
  if index = lines.length then lines ++ [text]
  else lines.set index ((lines[index]?).getD [] ++ text)

/-- The draft with a text delta, `none` when the delta does not continue it. -/
def applyDelta (draft : ReportDraft) (field : String) (index : Option Nat) (offset : Nat)
    (text : List Char) : Option ReportDraft :=
  if field ∈ textDraftFields then
    if (previousText draft field).length = offset then
      some (Dict.set draft field (.text (previousText draft field ++ text)))
    else none
  else match (Dict.get? draft field).getD (.lines []), index with
    | .lines lines, some i =>
      if lines.length < i ∨ ((lines[i]?).getD []).length ≠ offset then none
      else some (Dict.set draft field (.lines (addLine lines i text)))
    | _, _ => none

/-- The draft after an event, `none` when a delta does not continue it. -/
def nextDraft (draft : Option ReportDraft) : Payload → Option (Option ReportDraft)
  | .draftReset _ | .terminal .. => some none
  | .textDelta field index offset text =>
    some <$> applyDelta (draft.getD []) field index offset text
  | _ => some draft

/-- The generation that an event after the given one has. -/
def nextGeneration (generation : Nat) : Payload → Nat
  | .draftReset _ => generation + 1
  | _ => generation

/-- The part of an error that the client keeps. -/
def nextPublicError (current : Option PublicError) : Payload → Option PublicError
  | .terminal _ (some e) => some e
  | _ => current

/-- Progress would go back: the status, the counts or the stage. -/
def progressRegresses (state : ExecutionState) (p : Progress) : Bool :=
  (match p.status with
    | none => false
    | some status => statusRank status < statusRank state.status) ||
  p.completedTasks.getD state.completedTasks < state.completedTasks ||
  (match p.totalTasks.getD state.totalTasks with
    | none => false
    | some total => total < p.completedTasks.getD state.completedTasks) ||
  (state.totalTasks.isSome && p.totalTasks.getD state.totalTasks ≠ state.totalTasks) ||
  stageRegresses state.stage (p.stage.getD state.stage)

/-- An event that is no snapshot, with the current state. -/
def reduceNext (state : ExecutionState) (e : Envelope) (payload : Payload) : Reduced :=
  if e.sequence ≤ state.sequence then keep (some state)
  else if e.sequence ≠ state.sequence + 1 then askAgain (some state)
  else if isTerminal state.status then askAgain (some state)
  else if e.draftGeneration ≠ nextGeneration state.draftGeneration payload then
    askAgain (some state)
  else if progressRegresses state payload.progressFields then askAgain (some state)
  else match nextDraft state.draft payload with
    | none => askAgain (some state)
    | some draft => keep (some { state with
        sequence := e.sequence
        draftGeneration := e.draftGeneration
        status := payload.progressFields.status.getD state.status
        stage := payload.progressFields.stage.getD state.stage
        completedTasks := payload.progressFields.completedTasks.getD state.completedTasks
        totalTasks := payload.progressFields.totalTasks.getD state.totalTasks
        stopReason := payload.progressFields.stopReason.elim state.stopReason some
        draft := draft
        publicError := nextPublicError state.publicError payload })

def reduceExecutionEvent (current : Option ExecutionState) (event : ExecutionEvent) : Reduced :=
  if event.payload = .authLost then ⟨current, false, true⟩
  else match envelope? event with
    | none => askAgain current
    | some e =>
      if ∃ state ∈ current, ¬e.Of state then askAgain current
      else match event.payload, current with
        | .snapshot s, _ => reduceSnapshot current e s
        | _, none => askAgain none
        | payload, some state => reduceNext state e payload

section Decoding

structure ExecutionIdentity where
  executionId : String
  historyId : String
  turnId : String
  deriving DecidableEq

/-- `stopReasons`. -/
def stopReasons : List String :=
  ["user_cancelled", "deadline_exceeded", "authorization_revoked", "authorization_unavailable"]

/-- A total that may be null, and is positive otherwise. -/
def validTotal : Option Nat → Bool
  | none => true
  | some total => safeCount total && 0 < total

def decodeSnapshot (generation : Option Nat) (s : Snapshot) : Bool :=
  validCounts s && s.stopReason.all (·.written ∈ stopReasons) &&
    (s.status ≠ .stopping || s.stopReason.any (·.written ∈ stopReasons)) &&
    (!isTerminal s.status || s.draft.isNone) && generation = some s.draftGeneration &&
    (reportDraft s.draft).isSome

def decodeProgress (p : Progress) : Bool :=
  p.status.all (!isTerminal ·) && p.stopReason.all (·.written ∈ stopReasons) &&
    (p.status ≠ some .stopping || p.stopReason.any (·.written ∈ stopReasons)) &&
    p.completedTasks.all safeCount && p.totalTasks.all validTotal &&
    p.completedTasks.all fun completed =>
      p.totalTasks.all fun total => total.all fun total => completed ≤ total

def decodeTextDelta (field : String) (index : Option Nat) (offset : Nat) (text : List Char) : Bool :=
  field ∈ draftFields && safeCount offset && text ≠ [] && Utf8.size text ≤ 16 * 1024 &&
    (field ∉ textDraftFields || index.isNone) && (field ∉ listDraftFields || index.any safeCount)

/-- The checks of `decodeExecutionEvent` on the values of an event. -/
def decodeExecutionEvent (expected : ExecutionIdentity) (event : ExecutionEvent) : Bool :=
  event.executionId = expected.executionId && safeCount event.sequence &&
    match event.payload with
    | .authLost => event.historyId.isNone && event.turnId.isNone && event.draftGeneration.isNone
    | payload =>
      event.historyId = some expected.historyId && event.turnId = some expected.turnId &&
        event.draftGeneration.any safeCount &&
        match payload with
        | .snapshot s => decodeSnapshot event.draftGeneration s
        | .progress p => decodeProgress p
        | .textDelta field index offset text => decodeTextDelta field index offset text
        | .draftReset reason => reason = "model_retry"
        | .terminal status _ => isTerminal status
        | .authLost => true

end Decoding

end ChatBI.Events
