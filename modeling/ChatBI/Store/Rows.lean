import ChatBI.Lib.JsonShape
import ChatBI.Lib.Table

/-!
# The control database

The rows of `history_records`, `history_turns`, `history_executions`, `saved_results`,
`business_analysis_runs` and the singleton `history_runtime`, with the primary keys of
the migrations, and the transport-independent records that the store returns.
-/

namespace ChatBI.Store

open ChatBI.Lib

abbrev Uuid := ℕ
abbrev Owner := ℕ

/-- A `TIMESTAMPTZ`, in microseconds. -/
abbrev Timestamp := ℕ

/-- A SHA-256 digest, as a number. -/
abbrev Digest := ℕ

inductive HistoryKind
  | query | analysis
  deriving DecidableEq, Repr

inductive TurnStatus
  | accepted | succeeded | failed | unconfirmed
  deriving DecidableEq, Repr

inductive ExecutionStatus
  | accepted | running | stopping | succeeded | failed | cancelled | timedOut | unconfirmed
  deriving DecidableEq, Repr

inductive OperationKind
  | query | analysisResume | historyRequery | savedResultRequery
  deriving DecidableEq, Repr

inductive ExecutionStopReason
  | userCancelled | deadlineExceeded | authorizationRevoked | authorizationUnavailable
  deriving DecidableEq, Repr

inductive AnalysisRunStatus
  | active | completed | expired
  deriving DecidableEq, Repr

/-- The public error codes of the query contract and of the history contract. -/
inductive ErrorCode
  | serviceNotReady | executionLimitReached | invalidRequest | authenticationRequired
  | authorizationDenied | authenticationUnavailable | contextError | llmError | cannotAnswer
  | sqlRejected | databaseError | queryTimeout | conversationUnavailable | clarificationRequired
  | unsupportedAnalysis | conversationConflict
  | historyUnavailable | historyBusy | historyStale | historyStorageUnavailable
  | historySaveUnconfirmed | historyOperationConflict | historyResultNotSavable
  | historyContextIncompatible | historySnapshotUnavailable | historySnapshotTooLarge
  | executionUnavailable | executionFailed | executionCancelled | executionTimeout
  | executionSubscriberLimit
  deriving DecidableEq, Repr

inductive HistoryFailureKind
  | executionRuntimeUnavailable | analysisAlreadyCompleted
  deriving DecidableEq, Repr

structure HistoryError where
  code : ErrorCode
  message : String
  failureKind : Option HistoryFailureKind := none
  historyId : Option Uuid := none
  turnId : Option Uuid := none
  executionId : Option Uuid := none
  deriving DecidableEq, Repr

def unavailable : HistoryError := { code := .historyUnavailable, message := "记录不可用" }
def busy : HistoryError := { code := .historyBusy, message := "当前记录正在执行，请稍后刷新" }
def stale : HistoryError := { code := .historyStale, message := "记录已更新，请刷新后再操作" }
def storageUnavailable : HistoryError :=
  { code := .historyStorageUnavailable, message := "历史存储暂时不可用" }

/-- What a store call can raise: a history error, the stop of the execution, or any
exception of another type. -/
inductive Raised
  | history (error : HistoryError)
  | executionStopped (reason : ExecutionStopReason)
  | unexpected
  deriving DecidableEq, Repr

/-- The `public_error` document of a turn and of an execution. -/
structure PublicError where
  requestId : String
  errorCode : ErrorCode
  errorMessage : String
  deriving DecidableEq, Repr

structure HistoryRow where
  id : Uuid
  ownerUserId : Owner
  kind : HistoryKind
  title : String
  firstQuestion : String
  creationOperationId : Uuid
  creationOperationHash : Digest
  createdAt : Timestamp
  updatedAt : Timestamp
  contextRevision : ℕ := 0
  recordRevision : ℕ := 0
  nextOrdinal : ℕ := 1
  lastSuccessTurnId : Option Uuid := none
  activeTurnId : Option Uuid := none
  executionGeneration : ℕ := 0
  analysisRunId : Option Uuid := none
  deletedAt : Option Timestamp := none

structure TurnRow where
  id : Uuid
  historyId : Uuid
  ordinal : ℕ
  operationId : Uuid
  operationHash : Digest
  question : String
  requestId : String
  status : TurnStatus
  runtimeEpoch : Uuid
  executionGeneration : ℕ
  createdAt : Timestamp
  completedAt : Option Timestamp := none
  publicError : Option PublicError := none
  attemptInput : Option Json := none
  snapshotVersion : Option ℕ := none
  snapshot : Option Json := none

structure ExecutionRow where
  id : Uuid
  ownerUserId : Owner
  historyId : Uuid
  turnId : Uuid
  operationId : Uuid
  requestHash : Digest
  mode : HistoryKind
  operationKind : OperationKind
  status : ExecutionStatus
  stopReason : Option ExecutionStopReason := none
  runtimeEpoch : Uuid
  executionGeneration : ℕ
  createdAt : Timestamp
  startedAt : Option Timestamp := none
  deadlineAt : Timestamp
  stopRequestedAt : Option Timestamp := none
  finishedAt : Option Timestamp := none
  publicError : Option PublicError := none

structure SavedResultRow where
  id : Uuid
  ownerUserId : Owner
  kind : HistoryKind
  title : String
  recordRevision : ℕ := 0
  createdAt : Timestamp
  updatedAt : Timestamp
  sourceHistoryId : Uuid
  sourceTurnId : Uuid
  snapshotVersion : ℕ := 1
  snapshot : Json

structure AnalysisRunRow where
  analysisRunId : Uuid
  ownerSubject : String
  questionSha256 : Digest
  status : AnalysisRunStatus
  expiresAt : Timestamp
  updatedAt : Timestamp

structure Db where
  histories : Table HistoryRow.id := Table.empty
  turns : Table TurnRow.id := Table.empty
  executions : Table ExecutionRow.id := Table.empty
  savedResults : Table SavedResultRow.id := Table.empty
  analysisRuns : Table AnalysisRunRow.analysisRunId := Table.empty
  runtimeEpoch : Option Uuid := none

/-- The states in which an execution still has a worker or may get one. -/
def ExecutionStatus.isOpen : ExecutionStatus → Bool
  | .accepted | .running | .stopping => true
  | _ => false

/-- The states from which a stop may be requested and a result may be stored. -/
def ExecutionStatus.isActive : ExecutionStatus → Bool
  | .accepted | .running => true
  | _ => false

/-! ### Assignments of the update statements -/

def ExecutionRow.run (now : Timestamp) (e : ExecutionRow) : ExecutionRow :=
  { e with status := .running, startedAt := e.startedAt.or (some now) }

def ExecutionRow.requestStop (now : Timestamp) (reason : ExecutionStopReason) (e : ExecutionRow) :
    ExecutionRow :=
  { e with status := .stopping, stopReason := some reason, stopRequestedAt := some now }

def ExecutionRow.finish (now : Timestamp) (status : ExecutionStatus)
    (publicError : Option PublicError) (e : ExecutionRow) : ExecutionRow :=
  { e with status := status, publicError := publicError, finishedAt := some now }

def ExecutionRow.abandon (now : Timestamp) (e : ExecutionRow) : ExecutionRow :=
  { e with status := .unconfirmed, finishedAt := some now }

/-- The status under which an attempt is closed: a stored snapshot is a success. -/
def finishStatus (snapshot : Option Json) : TurnStatus :=
  if snapshot.isSome then .succeeded else .failed

def TurnRow.finish (now : Timestamp) (snapshot : Option Json) (error : Option PublicError)
    (t : TurnRow) : TurnRow :=
  { t with
    status := finishStatus snapshot, snapshot := snapshot
    snapshotVersion := if snapshot.isSome then some 1 else none
    publicError := error, completedAt := some now }

def TurnRow.stop (now : Timestamp) (error : PublicError) (t : TurnRow) : TurnRow :=
  { t with
    status := .failed, snapshot := none, snapshotVersion := none
    publicError := some error, completedAt := some now }

def TurnRow.abandon (now : Timestamp) (t : TurnRow) : TurnRow :=
  { t with status := .unconfirmed, completedAt := some now }

def HistoryRow.begin (now : Timestamp) (turnId : Uuid) (generation : ℕ) (h : HistoryRow) :
    HistoryRow :=
  { h with
    activeTurnId := some turnId, executionGeneration := generation
    nextOrdinal := h.nextOrdinal + 1, recordRevision := h.recordRevision + 1, updatedAt := now }

def HistoryRow.finish (now : Timestamp) (turnId : Uuid) (success : Bool) (h : HistoryRow) :
    HistoryRow :=
  { h with
    activeTurnId := none, recordRevision := h.recordRevision + 1
    contextRevision := h.contextRevision + (if success then 1 else 0)
    lastSuccessTurnId := if success then some turnId else h.lastSuccessTurnId
    updatedAt := now }

def HistoryRow.release (now : Timestamp) (h : HistoryRow) : HistoryRow :=
  { h with activeTurnId := none, recordRevision := h.recordRevision + 1, updatedAt := now }

def HistoryRow.abandon (now : Timestamp) (h : HistoryRow) : HistoryRow :=
  { h with
    activeTurnId := none, executionGeneration := h.executionGeneration + 1
    recordRevision := h.recordRevision + 1, updatedAt := now }

def HistoryRow.rename (now : Timestamp) (title : String) (h : HistoryRow) : HistoryRow :=
  { h with title := title, recordRevision := h.recordRevision + 1, updatedAt := now }

def HistoryRow.erase (now : Timestamp) (h : HistoryRow) : HistoryRow :=
  { h with
    title := "", firstQuestion := "", lastSuccessTurnId := none, activeTurnId := none
    deletedAt := some now, executionGeneration := h.executionGeneration + 1
    recordRevision := h.recordRevision + 1, updatedAt := now }

section Keys

variable (now : Timestamp) (e : ExecutionRow) (t : TurnRow) (h : HistoryRow)

lemma ExecutionRow.run_id : (e.run now).id = e.id := rfl

lemma ExecutionRow.requestStop_id (reason : ExecutionStopReason) :
    (e.requestStop now reason).id = e.id := rfl

lemma ExecutionRow.finish_id (status : ExecutionStatus) (error : Option PublicError) :
    (e.finish now status error).id = e.id := rfl

lemma ExecutionRow.abandon_id : (e.abandon now).id = e.id := rfl

lemma TurnRow.finish_id (snapshot : Option Json) (error : Option PublicError) :
    (t.finish now snapshot error).id = t.id := rfl

lemma TurnRow.stop_id (error : PublicError) : (t.stop now error).id = t.id := rfl

lemma TurnRow.abandon_id : (t.abandon now).id = t.id := rfl

lemma HistoryRow.begin_id (turnId : Uuid) (generation : ℕ) :
    (h.begin now turnId generation).id = h.id := rfl

lemma HistoryRow.finish_id (turnId : Uuid) (success : Bool) :
    (h.finish now turnId success).id = h.id := rfl

lemma HistoryRow.release_id : (h.release now).id = h.id := rfl

lemma HistoryRow.abandon_id : (h.abandon now).id = h.id := rfl

lemma HistoryRow.rename_id (title : String) : (h.rename now title).id = h.id := rfl

lemma HistoryRow.erase_id : (h.erase now).id = h.id := rfl

end Keys

/-! ### Records returned by the store -/

structure HistoryHeader where
  id : Uuid
  kind : HistoryKind
  title : String
  firstQuestion : String
  createdAt : Timestamp
  updatedAt : Timestamp
  contextRevision : ℕ
  recordRevision : ℕ
  lastSuccessTurnId : Option Uuid
  activeTurnId : Option Uuid
  analysisRunId : Option Uuid
  analysisRecoveryAvailable : Bool := true

structure HistoryTurn where
  id : Uuid
  historyId : Uuid
  ordinal : ℕ
  question : String
  status : TurnStatus
  requestId : String
  createdAt : Timestamp
  publicError : Option PublicError
  snapshot : Option Json
  executionId : Option Uuid := none

structure ExecutionRecord where
  id : Uuid
  historyId : Uuid
  turnId : Uuid
  operationId : Uuid
  mode : HistoryKind
  operationKind : OperationKind
  status : ExecutionStatus
  stopReason : Option ExecutionStopReason
  createdAt : Timestamp
  startedAt : Option Timestamp
  deadlineAt : Timestamp
  stopRequestedAt : Option Timestamp
  finishedAt : Option Timestamp
  publicError : Option PublicError
  deriving DecidableEq

structure SavedResultHeader where
  id : Uuid
  kind : HistoryKind
  title : String
  recordRevision : ℕ
  createdAt : Timestamp
  updatedAt : Timestamp
  sourceHistoryId : Uuid
  sourceTurnId : Uuid

structure ExecutionToken where
  historyId : Uuid
  turnId : Uuid
  epoch : Uuid
  generation : ℕ
  deriving DecidableEq, Repr

structure AcceptedAttempt where
  token : Option ExecutionToken
  turn : HistoryTurn
  baseState : Option Json
  sourceSnapshot : Option Json := none

structure ExecutionAcceptance where
  execution : ExecutionRecord
  attempt : Option AcceptedAttempt
  created : Bool

def header (row : HistoryRow) : HistoryHeader where
  id := row.id
  kind := row.kind
  title := row.title
  firstQuestion := row.firstQuestion
  createdAt := row.createdAt
  updatedAt := row.updatedAt
  contextRevision := row.contextRevision
  recordRevision := row.recordRevision
  lastSuccessTurnId := row.lastSuccessTurnId
  activeTurnId := row.activeTurnId
  analysisRunId := row.analysisRunId

def turn (row : TurnRow) (executionId : Option Uuid := none) : HistoryTurn where
  id := row.id
  historyId := row.historyId
  ordinal := row.ordinal
  question := row.question
  status := row.status
  requestId := row.requestId
  createdAt := row.createdAt
  publicError := row.publicError
  snapshot := row.snapshot
  executionId := executionId

def record (row : ExecutionRow) : ExecutionRecord where
  id := row.id
  historyId := row.historyId
  turnId := row.turnId
  operationId := row.operationId
  mode := row.mode
  operationKind := row.operationKind
  status := row.status
  stopReason := row.stopReason
  createdAt := row.createdAt
  startedAt := row.startedAt
  deadlineAt := row.deadlineAt
  stopRequestedAt := row.stopRequestedAt
  finishedAt := row.finishedAt
  publicError := row.publicError

def savedHeader (row : SavedResultRow) : SavedResultHeader where
  id := row.id
  kind := row.kind
  title := row.title
  recordRevision := row.recordRevision
  createdAt := row.createdAt
  updatedAt := row.updatedAt
  sourceHistoryId := row.sourceHistoryId
  sourceTurnId := row.sourceTurnId

/-! ### Digested requests -/

inductive SourceKind
  | history | saved
  deriving DecidableEq, Repr

/-- The JSON documents that the history and the execution layer digest with
`operation_hash`; documents of different constructors have different keys or actions. -/
inductive OperationPayload
  | create (kind : HistoryKind) (firstQuestion : String)
  | attempt (question : String) (contextRevision : ℕ)
  | resume (recordRevision : ℕ)
  | requery (sourceKind : SourceKind) (sourceId : Uuid) (sourceTurnId : Option Uuid)
  | submitExecution (mode : HistoryKind) (historyId : Uuid) (question : Option String)
      (expectedContextRevision expectedRecordRevision : Option ℕ)
  | requeryExecution (sourceKind : SourceKind) (sourceId : Uuid) (sourceTurnId : Option Uuid)
  deriving DecidableEq, Repr

/-- The parts of the store's behaviour that lie outside the database: the digests of
requests and question texts, and the two snapshot checks of the history codec. -/
structure Codec where
  operationHash : OperationPayload → Digest
  questionSha256 : String → Digest
  publicSnapshot : Json → Except Raised Json
  decodeQueryState : Option Json → Except Raised Unit

end ChatBI.Store
