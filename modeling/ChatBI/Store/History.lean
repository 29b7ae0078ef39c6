import ChatBI.Lib.Text
import ChatBI.Store.Execution

/-!
# The history store

The transactions of `PostgresHistoryStore` and the two transactions of `HistoryRuntime`
(the start of a process and the reconciliation of one history).
-/

namespace ChatBI.Store

open ChatBI.Lib

/-- `_owned`: a history of the owner that is not deleted. -/
def owned (owner : Owner) (historyId : Uuid) : Tx HistoryRow := do
  Tx.orRaise (← Tx.read (fun db => db.histories.first (fun h =>
    h.id = historyId && h.ownerUserId = owner && h.deletedAt = none))) unavailable

def ownedSaved (owner : Owner) (resultId : Uuid) : Tx SavedResultRow := do
  Tx.orRaise (← Tx.read (fun db => db.savedResults.first (fun r =>
    r.id = resultId && r.ownerUserId = owner))) unavailable

def saveUnconfirmed (message : String) : HistoryError :=
  { code := .historySaveUnconfirmed, message := message }

def creationConflict : HistoryError :=
  { code := .historyOperationConflict, message := "操作标识与原请求不符" }

def executionConflict : HistoryError :=
  { code := .historyOperationConflict, message := "操作编号已用于其他执行" }

/-! ### Executions -/

def markExecutionRunning (now : Timestamp) (owner : Owner) (executionId : Uuid) : Tx Unit :=
  markRunningInTransaction now owner executionId

/-- `_expire_cancelled_analysis_run`. -/
def expireCancelledAnalysisRun (codec : Codec) (now : Timestamp) (history : HistoryRow)
    (analysisOwnerSubject : Option String) : Tx Unit := do
  let (runId, subject) ← Tx.orRaise
    (match history.analysisRunId, analysisOwnerSubject with
      | some runId, some subject => if subject = "" then none else some (runId, subject)
      | _, _ => none)
    (saveUnconfirmed "分析任务身份不可确认")
  let questionHash := codec.questionSha256 (strip history.firstQuestion)
  match ← Tx.read (fun db => db.analysisRuns.find? runId) with
  | none =>
    let runs ← Tx.orRaise ((← Tx.read Db.analysisRuns).insert? {
      analysisRunId := runId, ownerSubject := subject, questionSha256 := questionHash
      status := .expired, expiresAt := history.createdAt + 24 * 3600 * 1000000
      updatedAt := now }) storageUnavailable
    Tx.write (fun db => { db with analysisRuns := runs })
  | some row =>
    Tx.raiseIf (row.ownerSubject ≠ subject ∨ row.questionSha256 ≠ questionHash)
      (saveUnconfirmed "分析任务归属不可确认")
    updateAnalysisRuns (fun r => r.analysisRunId = runId)
      (fun r => { r with status := .expired, updatedAt := now }) (fun _ => rfl)

def requestExecutionStop (codec : Codec) (now : Timestamp) (owner : Owner) (executionId : Uuid)
    (reason : ExecutionStopReason) (analysisOwnerSubject : Option String) :
    Tx ExecutionRecord := do
  let identity ← Tx.orRaise (← Tx.read (fun db => db.executions.first (fun e =>
    e.id = executionId && e.ownerUserId = owner))) unavailable
  let history ← owned owner identity.historyId
  let execution ← lockedInTransaction owner executionId
  if execution.status.isActive = false then
    return record execution
  let currentEpoch ← Tx.read Db.runtimeEpoch
  Tx.raiseIf (history.activeTurnId ≠ some execution.turnId ∨
      history.executionGeneration ≠ execution.executionGeneration ∨
      currentEpoch ≠ some execution.runtimeEpoch)
    (saveUnconfirmed "执行已改变，请刷新历史")
  if reason = .userCancelled ∧ execution.mode = .analysis then
    expireCancelledAnalysisRun codec now history analysisOwnerSubject
  requestStopInTransaction now execution reason

def finishExecutionStopped (now : Timestamp) (owner : Owner) (token : ExecutionToken)
    (executionId : Uuid) (status : StopStatus) (error : PublicError) : Tx HistoryTurn := do
  let history ← owned owner token.historyId
  let epoch ← Tx.read Db.runtimeEpoch
  Tx.raiseIf (history.activeTurnId ≠ some token.turnId ∨
      history.executionGeneration ≠ token.generation ∨ epoch ≠ some token.epoch)
    (saveUnconfirmed "停止结果未确认，请刷新历史")
  let execution ← lockedInTransaction owner executionId
  Tx.raiseIf (execution.historyId ≠ token.historyId ∨ execution.turnId ≠ token.turnId ∨
      execution.executionGeneration ≠ token.generation ∨ execution.status ≠ .stopping)
    (saveUnconfirmed "停止状态已改变，请刷新历史")
  let rows ← updateTurns
    (fun t => t.id = token.turnId && t.historyId = token.historyId && t.status = .accepted &&
      t.runtimeEpoch = token.epoch && t.executionGeneration = token.generation)
    (TurnRow.stop now error) (fun t => t.stop_id now error)
  let row ← Tx.orRaise rows.head? (saveUnconfirmed "停止轮次已改变，请刷新历史")
  let cleared ← updateHistories
    (fun h => h.id = token.historyId && h.activeTurnId = some token.turnId &&
      h.executionGeneration = token.generation)
    (HistoryRow.release now) (fun h => h.release_id now)
  Tx.raiseIf (cleared.length ≠ 1) (saveUnconfirmed "停止轮次未能释放，请刷新历史")
  finishStopInTransaction now owner executionId status error
  return turn row

/-! ### Attempts -/

/-- The base state that `_begin` reads for a new turn of the history. -/
def readBaseState (codec : Codec) (history : HistoryRow) : Tx (Option Json) := do
  match history.lastSuccessTurnId with
  | none => return none
  | some last =>
    let succeeded ← Tx.orRaise (← Tx.read (fun db => db.turns.first (fun t =>
      t.id = last && t.historyId = history.id && t.status = .succeeded))) storageUnavailable
    match history.kind with
    | .analysis => return none
    | .query =>
      let snapshot := succeeded.snapshot.getD .null
      let _ ← Tx.lift (codec.publicSnapshot snapshot)
      let baseState := snapshot.get? "query_state"
      Tx.lift (codec.decodeQueryState baseState)
      return baseState

/-- `_begin`. A replayed operation gets its finished turn without a token; a new one gets the
next ordinal, a new generation and the query state of the last success. -/
def beginTurn (codec : Codec) (now : Timestamp) (owner : Owner) (historyId : Uuid) (question : String)
    (operationId : Uuid) (revision : ℕ) (requestId : String) (epoch : Uuid) (digest : Digest)
    (turnId : Uuid) (beforeAccept : HistoryKind → Except Raised Unit) : Tx AcceptedAttempt := do
  let history ← owned owner historyId
  match ← Tx.read (fun db => db.turns.first (fun t =>
      t.historyId = historyId && t.operationId = operationId)) with
  | some previous =>
    Tx.raiseIf (previous.operationHash ≠ digest) creationConflict
    Tx.raiseIf (previous.status = .accepted) busy
    Tx.raiseIf (previous.status = .unconfirmed) (saveUnconfirmed "结果未确认，请刷新历史")
    return { token := none, turn := turn previous, baseState := none }
  | none =>
    Tx.raiseIf (history.activeTurnId ≠ none) busy
    Tx.raiseIf (history.contextRevision ≠ revision) stale
    let currentEpoch ← Tx.read Db.runtimeEpoch
    Tx.raiseIf (currentEpoch ≠ some epoch) storageUnavailable
    Tx.lift (beforeAccept history.kind)
    let generation := history.executionGeneration + 1
    let row ← insertTurn {
      id := turnId, historyId := historyId, ordinal := history.nextOrdinal
      operationId := operationId, operationHash := digest, question := question
      requestId := requestId, status := .accepted, runtimeEpoch := epoch
      executionGeneration := generation, createdAt := now }
    let _ ← updateHistories (fun h => h.id = historyId)
      (HistoryRow.begin now turnId generation) (fun h => h.begin_id now _ _)
    let token : ExecutionToken := ⟨historyId, turnId, epoch, generation⟩
    let baseState ← readBaseState codec history
    return { token := some token, turn := turn row, baseState := baseState }

def beginAttempt (codec : Codec) (now : Timestamp) (owner : Owner) (historyId : Uuid)
    (question : String) (operationId : Uuid) (revision : ℕ) (requestId : String) (epoch : Uuid)
    (turnId : Uuid) (beforeAccept : HistoryKind → Except Raised Unit) : Tx AcceptedAttempt :=
  beginTurn codec now owner historyId question operationId revision requestId epoch
    (codec.operationHash (.attempt question revision)) turnId beforeAccept

def beginAnalysisAttempt (codec : Codec) (now : Timestamp) (owner : Owner) (historyId : Uuid)
    (operationId : Uuid) (revision : ℕ) (requestId : String) (epoch : Uuid) (turnId : Uuid)
    (beforeAccept : HistoryKind → Except Raised Unit) : Tx AcceptedAttempt := do
  let history ← owned owner historyId
  let existing ← Tx.read (fun db => db.turns.first (fun t =>
    t.historyId = historyId && t.operationId = operationId))
  Tx.raiseIf (existing.isNone ∧ history.recordRevision ≠ revision) stale
  beginTurn codec now owner historyId history.firstQuestion operationId history.contextRevision
    requestId epoch (codec.operationHash (.resume revision)) turnId beforeAccept

def acceptAlways (_ : HistoryKind) : Except Raised Unit := .ok ()

def beginExecutionAttempt (codec : Codec) (now : Timestamp) (owner : Owner) (historyId : Uuid)
    (question : String) (operationId : Uuid) (requestHash : Digest) (revision : Option ℕ)
    (requestId : String) (epoch : Uuid) (mode : HistoryKind) (operationKind : OperationKind)
    (deadlineSeconds : ℕ) (expectedRecordRevision : Option ℕ) (turnId executionId : Uuid) :
    Tx ExecutionAcceptance := do
  match ← findInTransaction owner operationId requestHash with
  | some existing => return { execution := existing, attempt := none, created := false }
  | none =>
    let history ← owned owner historyId
    Tx.raiseIf (history.kind ≠ mode)
      { code := .invalidRequest, message := "执行模式与历史类型不匹配" }
    let accepted ← match mode with
      | .analysis => do
        let expected ← Tx.orRaise expectedRecordRevision
          { code := .invalidRequest, message := "分析恢复版本缺失" }
        Tx.raiseIf (history.recordRevision ≠ expected) stale
        beginTurn codec now owner historyId history.firstQuestion operationId
          history.contextRevision requestId epoch (codec.operationHash (.resume expected)) turnId
          acceptAlways
      | .query => do
        let revision ← Tx.orRaise revision { code := .invalidRequest, message := "查询版本缺失" }
        beginTurn codec now owner historyId question operationId revision requestId epoch
          (codec.operationHash (.attempt question revision)) turnId acceptAlways
    let token ← Tx.orRaise accepted.token executionConflict
    let execution ← insertInTransaction now executionId owner historyId accepted.turn.id
      operationId requestHash mode operationKind epoch token.generation deadlineSeconds
    return { execution := execution, attempt := some accepted, created := true }

/-- The request of `begin_requery` that is specific to a background execution. -/
structure ExecutionData where
  requestHash : Digest
  operationKind : OperationKind
  deadlineSeconds : ℕ
  analysisRunId : Option Uuid
  executionId : Uuid

structure RequeryAcceptance where
  header : HistoryHeader
  attempt : AcceptedAttempt
  execution : Option ExecutionRecord
  created : Bool

/-- What a re-query copies from its source: kind, question, title and stored snapshot. -/
structure RequerySource where
  kind : HistoryKind
  question : String
  title : Option String
  snapshot : Json

/-- `snapshot.get("source_question") or default`. -/
def sourceQuestion (snapshot : Json) : Except Raised String :=
  match snapshot.get? "source_question" with
  | some (.str s) => .ok (if s = "" then "根据已保存的完整查询条件重新查询" else s)
  | none | some .null => .ok "根据已保存的完整查询条件重新查询"
  | some _ => .error .unexpected

/-- `snapshot["original_question"]`. -/
def originalQuestion (snapshot : Json) : Except Raised String :=
  match snapshot.get? "original_question" with
  | some (.str s) => .ok s
  | _ => .error .unexpected

def requerySource (owner : Owner) (sourceKind : SourceKind) (sourceId : Uuid)
    (sourceTurnId : Option Uuid) : Tx RequerySource := do
  match sourceKind with
  | .history =>
    let source ← owned owner sourceId
    match source.kind with
    | .analysis =>
      return { kind := .analysis, question := source.firstQuestion, title := none
               snapshot := .obj [("original_question", .str source.firstQuestion)] }
    | .query =>
      let row ← Tx.orRaise (← Tx.read (fun db => db.turns.first (fun t =>
          t.historyId = sourceId && some t.id = sourceTurnId && t.status = .succeeded)))
        { code := .historyResultNotSavable, message := "问数来源必须是已保存的成功结果" }
      return { kind := .query, question := row.question, title := none
               snapshot := row.snapshot.getD .null }
  | .saved =>
    let source ← ownedSaved owner sourceId
    let question ← Tx.lift (match source.kind with
      | .query => sourceQuestion source.snapshot
      | .analysis => originalQuestion source.snapshot)
    return { kind := source.kind, question := question, title := some source.title
             snapshot := source.snapshot }

/-- A source that carries a query result must decode. -/
def checkSource (codec : Codec) (sourceKind : SourceKind) (source : RequerySource) : Tx Unit :=
  if source.kind = .query ∨ sourceKind = .saved then
    Tx.lift ((codec.publicSnapshot source.snapshot).map (fun _ => ()))
  else
    pure ()

/-- The history row of a re-query; an analysis gets a run of its own. -/
def requeryHistory (now : Timestamp) (owner : Owner) (operationId : Uuid) (digest : Digest)
    (newId runId : Uuid) (executionData : Option ExecutionData) (source : RequerySource) :
    HistoryRow where
  id := newId
  ownerUserId := owner
  kind := source.kind
  title := match source.title with
    | some title => if title = "" then (source.question.take 120).toString else title
    | none => (source.question.take 120).toString
  firstQuestion := source.question
  creationOperationId := operationId
  creationOperationHash := digest
  createdAt := now
  updatedAt := now
  analysisRunId := match source.kind with
    | .query => none
    | .analysis => (executionData.bind ExecutionData.analysisRunId).or (some runId)

/-- A row that `ON CONFLICT DO NOTHING` did not insert. -/
def checkInserted (owner : Owner) (operationId : Uuid) (digest : Digest) : Bool → Tx Unit
  | true => pure ()
  | false => do
    let taken ← Tx.orRaise (← Tx.read (fun db => db.histories.first (fun h =>
      h.ownerUserId = owner && h.creationOperationId = operationId))) storageUnavailable
    Tx.raiseIf (taken.creationOperationHash ≠ digest) creationConflict
    Tx.raise busy

def insertRequeryExecution (now : Timestamp) (owner : Owner) (historyId turnId operationId : Uuid)
    (mode : HistoryKind) (epoch : Uuid) (generation : ℕ) :
    Option ExecutionData → Tx (Option ExecutionRecord)
  | none => return none
  | some data => do
    let execution ← insertInTransaction now data.executionId owner historyId turnId operationId
      data.requestHash mode data.operationKind epoch generation data.deadlineSeconds
    return some execution

/-- The part of `begin_requery` that copies the source into a new history and begins the
first turn of it. -/
def openRequery (codec : Codec) (now : Timestamp) (owner : Owner) (sourceKind : SourceKind)
    (sourceId : Uuid) (sourceTurnId : Option Uuid) (operationId : Uuid) (requestId : String)
    (epoch : Uuid) (digest : Digest) (newId turnId runId : Uuid)
    (executionData : Option ExecutionData) (beforeAccept : HistoryKind → Except Raised Unit) :
    Tx RequeryAcceptance := do
  let source ← requerySource owner sourceKind sourceId sourceTurnId
  checkSource codec sourceKind source
  Tx.lift (beforeAccept source.kind)
  let inserted ← insertHistory
    (requeryHistory now owner operationId digest newId runId executionData source)
  checkInserted owner operationId digest inserted
  let accepted ← beginTurn codec now owner newId source.question operationId 0 requestId epoch
    digest turnId acceptAlways
  let _ ← updateTurns (fun t => t.id = accepted.turn.id)
    (fun t => { t with attemptInput := some source.snapshot }) (fun _ => rfl)
  let token ← Tx.orRaise accepted.token storageUnavailable
  let execution ← insertRequeryExecution now owner newId accepted.turn.id operationId source.kind
    epoch token.generation executionData
  let history ← owned owner newId
  return { header := header history, execution := execution, created := true
           attempt := { token := some token, turn := accepted.turn
                        baseState := source.snapshot.get? "query_state"
                        sourceSnapshot := some source.snapshot } }

/-- The part of `begin_requery` for an operation without an execution: a re-query that was
finished without one is answered from its turn. -/
def requeryByCreation (codec : Codec) (now : Timestamp) (owner : Owner) (sourceKind : SourceKind)
    (sourceId : Uuid) (sourceTurnId : Option Uuid) (operationId : Uuid) (requestId : String)
    (epoch : Uuid) (newId turnId runId : Uuid) (executionData : Option ExecutionData)
    (beforeAccept : HistoryKind → Except Raised Unit) : Tx RequeryAcceptance := do
  let digest := codec.operationHash (.requery sourceKind sourceId sourceTurnId)
  match ← Tx.read (fun db => db.histories.first (fun h =>
      h.ownerUserId = owner && h.creationOperationId = operationId)) with
  | some existing =>
    Tx.raiseIf executionData.isSome executionConflict
    Tx.raiseIf (existing.creationOperationHash ≠ digest) creationConflict
    Tx.raiseIf (existing.deletedAt ≠ none) unavailable
    let row ← Tx.orRaise (← Tx.read (fun db => db.turns.first (fun t =>
      t.historyId = existing.id && t.operationId = operationId))) storageUnavailable
    Tx.raiseIf (row.status = .accepted) busy
    Tx.raiseIf (row.status = .unconfirmed) (saveUnconfirmed "结果未确认，请刷新历史")
    return { header := header existing, execution := none, created := false
             attempt := { token := none, turn := turn row, baseState := none } }
  | none =>
    openRequery codec now owner sourceKind sourceId sourceTurnId operationId requestId epoch
      digest newId turnId runId executionData beforeAccept

/-- The answer to a re-query whose execution exists. -/
def replayRequery (owner : Owner) (execution : ExecutionRecord) : Tx RequeryAcceptance := do
  let history ← owned owner execution.historyId
  let row ← Tx.orRaise (← Tx.read (fun db => db.turns.first (fun t =>
    t.id = execution.turnId && t.historyId = execution.historyId))) storageUnavailable
  return { header := header history, execution := some execution, created := false
           attempt := { token := none, turn := turn row, baseState := none } }

def beginRequery (codec : Codec) (now : Timestamp) (owner : Owner) (sourceKind : SourceKind)
    (sourceId : Uuid) (sourceTurnId : Option Uuid) (operationId : Uuid) (requestId : String)
    (epoch : Uuid) (newId turnId runId : Uuid) (executionData : Option ExecutionData)
    (beforeAccept : HistoryKind → Except Raised Unit) : Tx RequeryAcceptance := do
  match executionData with
  | none =>
    requeryByCreation codec now owner sourceKind sourceId sourceTurnId operationId requestId
      epoch newId turnId runId none beforeAccept
  | some data =>
    match ← findInTransaction owner operationId data.requestHash with
    | some execution => replayRequery owner execution
    | none =>
      requeryByCreation codec now owner sourceKind sourceId sourceTurnId operationId requestId
        epoch newId turnId runId (some data) beforeAccept

/-- The check of the execution that is finished with its attempt. -/
def checkUnstopped (owner : Owner) : Option Uuid → Tx Unit
  | none => pure ()
  | some executionId => do
    let execution ← lockedInTransaction owner executionId
    if execution.status = .stopping then
      Tx.raiseStopped execution.stopReason
    else
      Tx.raiseIf (execution.status.isActive = false) (saveUnconfirmed "执行状态已改变，请刷新历史")

def finishExecution (now : Timestamp) (owner : Owner) (snapshot : Option Json)
    (error : Option PublicError) : Option Uuid → Tx Unit
  | none => pure ()
  | some executionId =>
    finishInTransaction now owner executionId (if snapshot.isSome then .succeeded else .failed)
      error

def finishAttempt (now : Timestamp) (owner : Owner) (token : ExecutionToken)
    (snapshot : Option Json) (error : Option PublicError) (executionId : Option Uuid) :
    Tx HistoryTurn := do
  let history ← owned owner token.historyId
  checkUnstopped owner executionId
  let epoch ← Tx.read Db.runtimeEpoch
  Tx.raiseIf (history.activeTurnId ≠ some token.turnId ∨
      history.executionGeneration ≠ token.generation ∨ epoch ≠ some token.epoch)
    (saveUnconfirmed "结果未确认，请刷新历史")
  let rows ← updateTurns
    (fun t => t.id = token.turnId && t.historyId = token.historyId && t.status = .accepted &&
      t.runtimeEpoch = token.epoch && t.executionGeneration = token.generation)
    (TurnRow.finish now snapshot error) (fun t => t.finish_id now _ _)
  let row ← Tx.orRaise rows.head? (saveUnconfirmed "结果未确认，请刷新历史")
  let _ ← updateHistories (fun h => h.id = token.historyId)
    (HistoryRow.finish now token.turnId snapshot.isSome) (fun h => h.finish_id now _ _)
  finishExecution now owner snapshot error executionId
  return turn row

/-! ### Histories and saved results -/

def create (codec : Codec) (now : Timestamp) (owner : Owner) (kind : HistoryKind)
    (question : String) (operationId : Uuid) (newId runId : Uuid) : Tx HistoryHeader := do
  let digest := codec.operationHash (.create kind question)
  let _ ← insertHistory {
    id := newId, ownerUserId := owner, kind := kind, title := (question.take 120).toString
    firstQuestion := question, creationOperationId := operationId
    creationOperationHash := digest, createdAt := now, updatedAt := now
    analysisRunId := if kind = .analysis then some runId else none }
  let row ← Tx.orRaise (← Tx.read (fun db => db.histories.first (fun h =>
    h.ownerUserId = owner && h.creationOperationId = operationId))) storageUnavailable
  Tx.raiseIf (row.deletedAt ≠ none) unavailable
  Tx.raiseIf (row.creationOperationHash ≠ digest) creationConflict
  return header row

/-- The failures after which an analysis may be resumed. -/
def resumableErrors : List ErrorCode :=
  [.llmError, .contextError, .databaseError, .queryTimeout, .authenticationUnavailable,
    .historyBusy]

/-- `PostgresHistoryStore.header`: an analysis also reports whether it can be resumed. -/
def historyHeader (now : Timestamp) (owner : Owner) (historyId : Uuid) : Tx HistoryHeader := do
  let row ← owned owner historyId
  match row.kind with
  | .query => return header row
  | .analysis =>
    let run ← Tx.read (fun db => db.analysisRuns.first (fun r =>
      some r.analysisRunId = row.analysisRunId))
    let turns ← Tx.read (fun db => db.turns.select (fun t => t.historyId = historyId))
    let retryable := match turns.getLast? with
      | none => true
      | some latest => latest.status ≠ .failed ||
          (latest.publicError.any (fun e => resumableErrors.contains e.errorCode))
    let alive := match run with
      | none => true
      | some run => run.status ≠ .expired && now < run.expiresAt
    return { header row with analysisRecoveryAvailable := retryable && alive }

/-- `PostgresHistoryStore.turn`. -/
def historyTurn (owner : Owner) (historyId turnId : Uuid) : Tx HistoryTurn := do
  let _ ← owned owner historyId
  let row ← Tx.orRaise (← Tx.read (fun db => db.turns.first (fun t =>
    t.id = turnId && t.historyId = historyId))) unavailable
  let execution ← Tx.read (fun db => db.executions.first (fun e =>
    e.historyId = row.historyId && e.turnId = row.id))
  return turn row (execution.map ExecutionRow.id)

def renameHistory (now : Timestamp) (owner : Owner) (historyId : Uuid) (title : String)
    (revision : ℕ) : Tx HistoryHeader := do
  let history ← owned owner historyId
  Tx.raiseIf (history.recordRevision ≠ revision) stale
  let rows ← updateHistories (fun h => h.id = historyId)
    (HistoryRow.rename now title) (fun h => h.rename_id now title)
  return header (← Tx.orRaise rows.head? storageUnavailable)

/-- `INSERT INTO business_analysis_runs ... ON CONFLICT DO UPDATE`. -/
def expireAnalysisRun (row : AnalysisRunRow) : Tx Unit := do
  match (← Tx.read Db.analysisRuns).insert? row with
  | some runs => Tx.write (fun db => { db with analysisRuns := runs })
  | none =>
    updateAnalysisRuns (fun r => r.analysisRunId = row.analysisRunId)
      (fun r => { r with
        status := .expired, expiresAt := row.expiresAt, updatedAt := row.updatedAt })
      (fun _ => rfl)

/-- The turns of a deleted history go with it and their executions by the foreign key's
`ON DELETE CASCADE`. -/
def deleteHistory (codec : Codec) (now : Timestamp) (owner : Owner) (historyId : Uuid)
    (revision : ℕ) (ownerSubject : String) : Tx Unit := do
  let history ← owned owner historyId
  Tx.raiseIf (history.activeTurnId ≠ none) busy
  Tx.raiseIf (history.recordRevision ≠ revision) stale
  match history.kind with
  | .query => pure ()
  | .analysis =>
    let runId ← Tx.orRaise history.analysisRunId storageUnavailable
    expireAnalysisRun {
      analysisRunId := runId, ownerSubject := ownerSubject
      questionSha256 := codec.questionSha256 history.firstQuestion
      status := .expired, expiresAt := now, updatedAt := now }
  let _ ← updateHistories (fun h => h.id = historyId)
    (HistoryRow.erase now) (fun h => h.erase_id now)
  Tx.write (fun db => { db with
    turns := db.turns.delete (fun t => t.historyId = historyId)
    executions := db.executions.delete (fun e => db.turns.rows.any (fun t =>
      t.historyId = historyId && t.historyId = e.historyId && t.id = e.turnId)) })

def copyResult (codec : Codec) (now : Timestamp) (owner : Owner) (historyId turnId : Uuid)
    (title : String) (newId : Uuid) : Tx SavedResultHeader := do
  let source ← owned owner historyId
  let row ← Tx.read (fun db => db.turns.first (fun t =>
    t.historyId = historyId && t.id = turnId && t.status = .succeeded))
  let snapshot ← Tx.orRaise (row.bind TurnRow.snapshot)
    { code := .historyResultNotSavable, message := "仅已保存的成功结果可另存" }
  let _ ← Tx.lift (codec.publicSnapshot snapshot)
  let saved : SavedResultRow := {
    id := newId, ownerUserId := owner, kind := source.kind, title := title, createdAt := now
    updatedAt := now, sourceHistoryId := historyId, sourceTurnId := turnId, snapshot := snapshot }
  let rows ← Tx.orRaise ((← Tx.read Db.savedResults).insert? saved) storageUnavailable
  Tx.write (fun db => { db with savedResults := rows })
  return savedHeader saved

def savedResult (owner : Owner) (resultId : Uuid) : Tx (SavedResultHeader × Json) := do
  let row ← ownedSaved owner resultId
  return (savedHeader row, row.snapshot)

def renameSavedResult (now : Timestamp) (owner : Owner) (resultId : Uuid) (title : String)
    (revision : ℕ) : Tx SavedResultHeader := do
  let row ← ownedSaved owner resultId
  Tx.raiseIf (row.recordRevision ≠ revision) stale
  updateSavedResults (fun r => r.id = resultId)
    (fun r => { r with title := title, recordRevision := r.recordRevision + 1, updatedAt := now })
    (fun _ => rfl)
  return savedHeader { row with
    title := title, recordRevision := row.recordRevision + 1, updatedAt := now }

def deleteSavedResult (owner : Owner) (resultId : Uuid) (revision : ℕ) : Tx Unit := do
  let row ← ownedSaved owner resultId
  Tx.raiseIf (row.recordRevision ≠ revision) stale
  Tx.write (fun db => { db with savedResults := db.savedResults.delete (fun r => r.id = resultId) })

/-! ### The history runtime -/

/-- The transaction of `HistoryRuntime.__init__`: a new process epoch closes whatever the
previous process left open. -/
def startRuntime (now : Timestamp) (epoch : Uuid) : Tx Unit := do
  Tx.write (fun db => { db with runtimeEpoch := some epoch })
  let _ ← updateTurns (fun t => t.status = .accepted) (TurnRow.abandon now) (fun t => t.abandon_id now)
  let _ ← updateExecutions (fun e => e.status.isOpen) (ExecutionRow.abandon now) (fun e => e.abandon_id now)
  let _ ← updateHistories (fun h => h.activeTurnId ≠ none) (HistoryRow.abandon now)
    (fun h => h.abandon_id now)

/-- The transaction of `HistoryRuntime._reconcile`, taken for a history that no execution of
this process holds. -/
def reconcile (now : Timestamp) (epoch historyId : Uuid) : Tx Unit := do
  match (← Tx.read (fun db => db.histories.find? historyId)).bind HistoryRow.activeTurnId with
  | none => return ()
  | some active =>
    let changed ← updateTurns
      (fun t => t.id = active && t.status = .accepted && t.runtimeEpoch = epoch)
      (TurnRow.abandon now) (fun t => t.abandon_id now)
    Tx.raiseIf (changed.length ≠ 1) storageUnavailable
    let _ ← updateExecutions
      (fun e => e.historyId = historyId && e.turnId = active && e.runtimeEpoch = epoch &&
        e.status.isOpen)
      (ExecutionRow.abandon now) (fun e => e.abandon_id now)
    let _ ← updateHistories (fun h => h.id = historyId) (HistoryRow.abandon now) (fun h => h.abandon_id now)

end ChatBI.Store
