import ChatBI.Store.Tx

/-!
# The execution store

The execution rows of `PostgresExecutionStore`; its writes run inside the history
transaction of the caller.
-/

namespace ChatBI.Store

open ChatBI.Lib

def operationConflict : HistoryError :=
  { code := .historyOperationConflict, message := "操作编号与原请求不匹配" }

def findInTransaction (owner : Owner) (operationId : Uuid) (requestHash : Digest) :
    Tx (Option ExecutionRecord) := do
  match ← Tx.read (fun db => db.executions.first (fun e =>
      e.ownerUserId = owner && e.operationId = operationId)) with
  | none => return none
  | some row =>
    Tx.raiseIf (row.requestHash ≠ requestHash) operationConflict
    return some (record row)

/-- The row of an accepted execution. -/
def newExecution (now : Timestamp) (executionId : Uuid) (owner : Owner)
    (historyId turnId operationId : Uuid) (requestHash : Digest) (mode : HistoryKind)
    (operationKind : OperationKind) (epoch : Uuid) (generation deadlineSeconds : ℕ) :
    ExecutionRow where
  id := executionId
  ownerUserId := owner
  historyId := historyId
  turnId := turnId
  operationId := operationId
  requestHash := requestHash
  mode := mode
  operationKind := operationKind
  status := .accepted
  runtimeEpoch := epoch
  executionGeneration := generation
  createdAt := now
  deadlineAt := now + deadlineSeconds * 1000000

def insertInTransaction (now : Timestamp) (executionId : Uuid) (owner : Owner)
    (historyId turnId operationId : Uuid) (requestHash : Digest) (mode : HistoryKind)
    (operationKind : OperationKind) (epoch : Uuid) (generation deadlineSeconds : ℕ) :
    Tx ExecutionRecord := do
  let row ← insertExecution (newExecution now executionId owner historyId turnId operationId
    requestHash mode operationKind epoch generation deadlineSeconds)
  return record row

/-- The join of `mark_running`: the execution is accepted and its turn is the accepted
active turn of its owner's history in the current runtime epoch. -/
def runnable (db : Db) (owner : Owner) (executionId : Uuid) (e : ExecutionRow) : Bool :=
  e.id = executionId && e.ownerUserId = owner && e.status = .accepted &&
    db.histories.rows.any (fun h => h.id = e.historyId && h.ownerUserId = e.ownerUserId &&
      h.activeTurnId = some e.turnId && h.executionGeneration = e.executionGeneration) &&
    db.turns.rows.any (fun t => t.id = e.turnId && t.historyId = e.historyId &&
      t.status = .accepted && t.runtimeEpoch = e.runtimeEpoch) &&
    db.runtimeEpoch = some e.runtimeEpoch

def markRunningInTransaction (now : Timestamp) (owner : Owner) (executionId : Uuid) : Tx Unit := do
  let db ← Tx.read id
  let changed ← updateExecutions (runnable db owner executionId)
    (ExecutionRow.run now) (fun e => e.run_id now)
  if changed.length = 1 then
    return ()
  let row ← Tx.orRaise (db.executions.first (fun e =>
    e.id = executionId && e.ownerUserId = owner)) unavailable
  if row.status = .stopping then
    Tx.raiseStopped row.stopReason
  else
    Tx.raiseIf (row.status ≠ .running)
      { code := .historySaveUnconfirmed, message := "执行状态已变化，请刷新历史" }

def lockedInTransaction (owner : Owner) (executionId : Uuid) : Tx ExecutionRow := do
  Tx.orRaise (← Tx.read (fun db => db.executions.first (fun e =>
    e.id = executionId && e.ownerUserId = owner))) unavailable

def requestStopInTransaction (now : Timestamp) (row : ExecutionRow) (reason : ExecutionStopReason) :
    Tx ExecutionRecord := do
  if row.status.isActive = false then
    return record row
  let stopped ← updateExecutions (fun e => e.id = row.id && e.status.isActive)
    (ExecutionRow.requestStop now reason) (fun e => e.requestStop_id now reason)
  return record (← Tx.orRaise stopped.head? storageUnavailable)

/-- The final states that a stopped execution is given. -/
inductive StopStatus
  | cancelled | timedOut | failed
  deriving DecidableEq, Repr

def StopStatus.toStatus : StopStatus → ExecutionStatus
  | .cancelled => .cancelled
  | .timedOut => .timedOut
  | .failed => .failed

def finishStopInTransaction (now : Timestamp) (owner : Owner) (executionId : Uuid)
    (status : StopStatus) (publicError : PublicError) : Tx Unit := do
  let changed ← updateExecutions
    (fun e => e.id = executionId && e.ownerUserId = owner && e.status = .stopping)
    (ExecutionRow.finish now status.toStatus (some publicError)) (fun e => e.finish_id now _ _)
  Tx.raiseIf (changed.length ≠ 1)
    { code := .historySaveUnconfirmed, message := "停止结果未确认，请刷新历史" }

def finishInTransaction (now : Timestamp) (owner : Owner) (executionId : Uuid)
    (status : ExecutionStatus) (publicError : Option PublicError) : Tx Unit := do
  let changed ← updateExecutions
    (fun e => e.id = executionId && e.ownerUserId = owner && e.status.isActive)
    (ExecutionRow.finish now status publicError) (fun e => e.finish_id now _ _)
  Tx.raiseIf (changed.length ≠ 1)
    { code := .historySaveUnconfirmed, message := "结果未确认，请刷新历史" }

/-- `PostgresHistoryStore.execution`. -/
def execution (owner : Owner) (executionId : Uuid) : Tx ExecutionRecord := do
  let row ← Tx.orRaise (← Tx.read (fun db => db.executions.first (fun e =>
    e.id = executionId && e.ownerUserId = owner))) unavailable
  return record row

/-- `PostgresHistoryStore.execution_by_operation`. -/
def executionByOperation (owner : Owner) (operationId : Uuid) (requestHash : Option Digest) :
    Tx (Option ExecutionRecord) := do
  match ← Tx.read (fun db => db.executions.first (fun e =>
      e.ownerUserId = owner && e.operationId = operationId)) with
  | none => return none
  | some row =>
    Tx.raiseIf (requestHash.isSome ∧ requestHash ≠ some row.requestHash) operationConflict
    return some (record row)

end ChatBI.Store
