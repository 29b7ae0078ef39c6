import ChatBI.Execution.Runtime
import ChatBI.Lib.Check

/-!
# The execution application

`ExecutionApplication.submit` and `requery` as threads of atomic steps, the workers they
dispatch, history reads that reconcile, and the other transactions of the store, in any
interleaving. Every store call may fail before or after its commit.
-/

namespace ChatBI.Execution

open ChatBI.Lib ChatBI.Store

inductive Request
  | submit (historyId : Uuid) (mode : HistoryKind) (question : Option String)
      (expectedContextRevision expectedRecordRevision : Option ℕ)
  | requery (sourceKind : SourceKind) (sourceId : Uuid) (sourceTurnId : Option Uuid)

/-- The document whose digest identifies the request. -/
def Request.payload : Request → OperationPayload
  | .submit historyId mode question contextRevision recordRevision =>
    .submitExecution mode historyId (if mode = .query then question else none) contextRevision
      recordRevision
  | .requery sourceKind sourceId sourceTurnId => .requeryExecution sourceKind sourceId sourceTurnId

/-- What a request knows before it begins its attempt. -/
structure Target where
  mode : HistoryKind
  historyId : Uuid
  analysisRunId : Option Uuid
  question : String
  deriving DecidableEq

/-- The attempt that a request has begun and has to dispatch. -/
structure Accepted where
  executionId : Uuid
  token : ExecutionToken
  deriving DecidableEq

/-- The execution that a request answers with. -/
structure Viewed where
  executionId : Uuid
  historyId : Uuid
  turnId : Uuid
  deriving DecidableEq

/-- The store calls of `_view`. -/
inductive ViewStage
  | header | reconcile | headerAgain | turn | execution
  deriving DecidableEq, Repr

/-- The next call of a request thread. -/
inductive Pc
  | waiting
  | lookup
  | header
  | reserve (target : Target)
  | reserveHistory (target : Target)
  | reserveAnalysis (target : Target)
  | reserveAdmission (target : Target)
  | begin (target : Target)
  | attach (a : Accepted)
  | read (a : Accepted)
  | bind (a : Accepted)
  | dispatch (a : Accepted)
  | persistFailure (a : Accepted)
  | persistStop (a : Accepted) (reason : ExecutionStopReason)
  | finishStop (a : Accepted) (reason : ExecutionStopReason)
  | view (v : Viewed) (stage : ViewStage)
  | done (answer : Except Raised Uuid)
  deriving DecidableEq

inductive WorkerStatus
  | queued | running | returned
  deriving DecidableEq, Repr

structure Call where
  id : CallId
  owner : Owner
  subject : String
  requestId : String
  operationId : Uuid
  request : Request
  pc : Pc := .waiting
  lease : Option Lease := none
  accepted : Option Accepted := none
  worker : Option WorkerStatus := none

structure Sys where
  store : State := {}
  epoch : Uuid := 0
  runtime : Runtime := {}
  calls : Table Call.id := Table.empty
  nextCall : CallId := 0
  dispatched : List Uuid := []

/-- What becomes of a store call: it is answered, it commits and its answer is lost, it fails
before the commit, or it finds its row locked by another transaction (`NOWAIT`). -/
inductive Fate
  | ok | lost | failed | locked
  deriving DecidableEq, Repr

/-- The outcomes that a step does not determine: the fate of its store call, the outcome of
its other calls, the clock and the identifiers drawn. -/
structure Oracle where
  fate : Fate := .ok
  pass : Bool := true
  rejection : HistoryError := { code := .authorizationDenied, message := "" }
  now : Timestamp := 0
  newId : Uuid := 0
  turnId : Uuid := 0
  executionId : Uuid := 0
  runId : Uuid := 0

/-- The store calls of `work_body` and of the stop control of the worker. -/
inductive WorkerCall
  | markRunning
  | persistStop (reason : ExecutionStopReason) (subject : Option String)
  | finish (snapshot : Option Json) (error : Option PublicError)
  | finishStopped (status : StopStatus) (error : PublicError)

inductive Event
  | call (owner : Owner) (subject requestId : String) (operationId : Uuid) (request : Request)
  | step (callId : CallId) (o : Oracle)
  | workStart (callId : CallId)
  | work (callId : CallId) (w : WorkerCall) (o : Oracle)
  | workReturn (callId : CallId)
  | drop (callId : CallId) (p : Part)
  | read (historyId : Uuid) (o : Oracle)
  | other (op : Op) (fate : Fate)
  | closeAdmission
  | restart (now : Timestamp) (epoch : Uuid)

section Steps

variable (codec : Codec) (s : Sys) (c : Call)

def Call.hash : Digest := codec.operationHash c.request.payload

def Call.view (c : Call) (v : Viewed) : Call := { c with pc := .view v .header }

/-- The answer of a transaction to its caller. -/
def Sys.ask {α : Type} (fate : Fate) (tx : Tx α) : Except Raised α :=
  match fate with
  | .ok => (tx.commit s.store.db).1
  | .lost | .failed => .error (.history storageUnavailable)
  | .locked => .error (.history busy)

/-- The store after a transaction. -/
def Sys.perform (fate : Fate) (op : Op) : State :=
  match fate with
  | .failed | .locked => s.store
  | .ok | .lost => s.store.apply codec op

def Sys.put : Sys := { s with calls := s.calls.set c }

/-- The thread ends: a lease that is still its own is released and the operation lock given
back. -/
def Sys.finish (answer : Except Raised Uuid) : Sys :=
  { s with
    calls := s.calls.set { c with pc := .done answer }
    runtime := { s.runtime with
      operationLocks := s.runtime.operationLocks.erase (c.owner, c.operationId) } }

/-- `except BaseException: lease.release(); raise`. -/
def Sys.fail (e : Raised) : Sys := s.finish { c with lease := c.lease.map Lease.release } (.error e)

/-- The operation lock, then `authorize`. -/
def Sys.enter (o : Oracle) : Option Sys :=
  let key := (c.owner, c.operationId)
  if key ∈ s.runtime.operationLocks then none
  else if o.pass then
    some { s with
      calls := s.calls.set { c with pc := .lookup }
      runtime := { s.runtime with operationLocks := key :: s.runtime.operationLocks } }
  else
    some { s with calls := s.calls.set { c with pc := .done (.error (.history o.rejection)) } }

def viewed (r : ExecutionRecord) : Viewed := ⟨r.id, r.historyId, r.turnId⟩

def Sys.lookup (o : Oracle) : Sys :=
  match s.ask o.fate (executionByOperation c.owner c.operationId (some (c.hash codec))) with
  | .error e => s.fail c e
  | .ok (some r) => s.put (c.view (viewed r))
  | .ok none => s.put { c with pc := .header }

/-- The checks of `submit` on the history it continues. -/
def checkHeader (mode : HistoryKind) (h : HistoryHeader) : Except Raised Unit :=
  if h.kind ≠ mode then
    .error (.history { code := .invalidRequest, message := "执行模式与历史类型不匹配" })
  else if mode = .analysis ∧ h.lastSuccessTurnId ≠ none then
    .error (.history {
      code := .historyResultNotSavable, message := "已完成的分析无需恢复"
      failureKind := some .analysisAlreadyCompleted })
  else if mode = .analysis ∧ h.analysisRecoveryAvailable = false then
    .error (.history {
      code := .historyContextIncompatible, message := "原分析任务已过期或无法恢复，请新建分析" })
  else .ok ()

/-- The history or the saved result that the request starts from. -/
def Sys.target (o : Oracle) : Except Raised Target :=
  match c.request with
  | .submit historyId mode _ _ _ => do
    if o.pass = false then .error (.history storageUnavailable)
    let h ← s.ask o.fate (historyHeader o.now c.owner historyId)
    checkHeader mode h
    return ⟨mode, historyId, if mode = .analysis then h.analysisRunId else none, h.firstQuestion⟩
  | .requery .history sourceId _ => do
    let h ← s.ask o.fate (historyHeader o.now c.owner sourceId)
    return ⟨h.kind, o.newId, if h.kind = .analysis then some o.runId else none, h.firstQuestion⟩
  | .requery .saved sourceId _ => do
    let (h, _) ← s.ask o.fate (savedResult c.owner sourceId)
    return ⟨h.kind, o.newId, if h.kind = .analysis then some o.runId else none, h.title⟩

def Sys.header (o : Oracle) : Sys :=
  match s.target c o with
  | .error e => s.fail c e
  | .ok t => s.put { c with pc := .reserve t }

def notReady : HistoryError :=
  { code := .serviceNotReady, message := "服务暂时不可用，请稍后重试" }

/-- `_reserve` up to the capacity of the account and of the process. -/
def Sys.reserve (t : Target) (o : Oracle) : Sys :=
  if o.pass = false then s.fail c (.history notReady)
  else match s.runtime.reserveOwner c.owner with
    | .error e => s.fail c (.history e)
    | .ok rt =>
      let lease : Lease := { historyId := t.historyId, analysisRunId := t.analysisRunId
                             held := fun p => p = .capacity }
      { s with
        runtime := rt
        calls := s.calls.set { c with pc := .reserveHistory t, lease := some lease } }

/-- A part of the lease that the request gets. -/
def Sys.acquire (rt : Except HistoryError Runtime) (p : Part) (pc : Pc) : Sys :=
  match rt with
  | .error e => s.fail c (.history e)
  | .ok rt =>
    { s with
      runtime := rt
      calls := s.calls.set { c with pc := pc, lease := c.lease.map (fun l => l.acquire p) } }

def Sys.reserveHistory (t : Target) (o : Oracle) : Sys :=
  s.acquire c (s.runtime.reserveHistory o.pass t.historyId) .history (.reserveAnalysis t)

def Sys.reserveAnalysis (t : Target) (o : Oracle) : Sys :=
  match t.analysisRunId with
  | none => s.put { c with pc := .reserveAdmission t }
  | some run =>
    s.acquire c (s.runtime.reserveAnalysis o.pass (c.subject, run)) .analysis (.reserveAdmission t)

def Sys.reserveAdmission (t : Target) : Sys :=
  if s.runtime.accepting then s.put { c with pc := .begin t }
  else s.fail c (.history Runtime.closing)

def Target.deadlineSeconds (t : Target) : ℕ := if t.mode = .query then 180 else 1200

/-- The arguments that `requery` passes for its execution. -/
def Call.executionData (t : Target) (sourceKind : SourceKind) (o : Oracle) : ExecutionData where
  requestHash := c.hash codec
  operationKind := match sourceKind with
    | .history => .historyRequery
    | .saved => .savedResultRequery
  deadlineSeconds := t.deadlineSeconds
  analysisRunId := t.analysisRunId
  executionId := o.executionId

/-- `begin_execution_attempt` or `begin_execution_requery`. -/
def Sys.beginOp (t : Target) (o : Oracle) : Op :=
  match c.request with
  | .submit historyId mode question contextRevision recordRevision =>
    .beginExecutionAttempt o.now c.owner historyId
      (if mode = .query then question.getD "" else t.question) c.operationId (c.hash codec)
      contextRevision c.requestId s.epoch mode
      (if mode = .query then .query else .analysisResume) t.deadlineSeconds recordRevision
      o.turnId o.executionId
  | .requery sourceKind sourceId sourceTurnId =>
    .beginRequery o.now c.owner sourceKind sourceId sourceTurnId c.operationId c.requestId s.epoch
      t.historyId o.turnId o.runId (some (c.executionData codec t sourceKind o)) acceptAlways

/-- The execution that a begin returned, with the token of the attempt when it created it. -/
def Sys.begun (t : Target) (o : Oracle) : Except Raised (ExecutionRecord × Option ExecutionToken) :=
  match c.request with
  | .submit historyId mode question contextRevision recordRevision => do
    let r ← s.ask o.fate (beginExecutionAttempt codec o.now c.owner historyId
      (if mode = .query then question.getD "" else t.question) c.operationId (c.hash codec)
      contextRevision c.requestId s.epoch mode
      (if mode = .query then .query else .analysisResume) t.deadlineSeconds recordRevision
      o.turnId o.executionId)
    return (r.execution, if r.created then r.attempt.bind AcceptedAttempt.token else none)
  | .requery sourceKind sourceId sourceTurnId => do
    let r ← s.ask o.fate (beginRequery codec o.now c.owner sourceKind sourceId sourceTurnId
      c.operationId c.requestId s.epoch t.historyId o.turnId o.runId
      (some (c.executionData codec t sourceKind o)) acceptAlways)
    match r.execution with
    | none => .error .unexpected
    | some execution => return (execution, if r.created then r.attempt.token else none)

def Sys.begin (t : Target) (o : Oracle) : Sys :=
  let s' := { s with store := s.perform codec o.fate (s.beginOp codec c t o) }
  match s.begun codec c t o with
  | .error e => s'.fail c e
  | .ok (r, none) =>
    s'.put ({ c with lease := c.lease.map Lease.release }.view (viewed r))
  | .ok (r, some token) =>
    let a : Accepted := ⟨r.id, token⟩
    s'.put { c with pc := .attach a, accepted := some a }

/-- An error of `_dispatch` before the work was accepted. -/
def Sys.dispatchFailed (a : Accepted) : Sys := s.put { c with pc := .persistFailure a }

def Sys.attach (a : Accepted) (o : Oracle) : Sys :=
  if o.pass = false ∨ s.runtime.channels a.executionId ≠ none then s.dispatchFailed c a
  else
    { s with
      runtime := s.runtime.attach c.id a.executionId
      calls := s.calls.set { c with
        pc := .read a
        lease := c.lease.map (fun l => (l.acquire .channel).bindTo a.executionId) } }

def Sys.read (a : Accepted) (o : Oracle) : Sys :=
  match s.ask o.fate (execution c.owner a.executionId) with
  | .error _ => s.dispatchFailed c a
  | .ok _ => s.put { c with pc := .bind a }

def Sys.bind (a : Accepted) (o : Oracle) : Sys :=
  if o.pass = false then s.dispatchFailed c a
  else { s with
    runtime := s.runtime.bind c.id a.executionId
    calls := s.calls.set { c with
      pc := .dispatch a
      lease := c.lease.map (fun l => l.acquire .control) } }

/-- `runtime.submit(lease, work)`; the executor may refuse the work. -/
def Sys.dispatch (a : Accepted) (o : Oracle) : Sys :=
  if o.pass = false then s.dispatchFailed c a
  else
    let c' := { c with
      lease := c.lease.map Lease.submit, worker := some .queued }
    { s with
      calls := s.calls.set (c'.view ⟨a.executionId, a.token.historyId, a.token.turnId⟩)
      dispatched := s.dispatched ++ [a.executionId] }

def startFailed : HistoryError :=
  { code := .executionUnavailable, message := "执行启动失败，请刷新后查看状态"
    failureKind := some .executionRuntimeUnavailable }

def Call.publicError (code : ErrorCode) (message : String) : PublicError :=
  ⟨c.requestId, code, message⟩

/-- `_persist_worker_failure` of a dispatch that failed. -/
def Sys.persistFailure (a : Accepted) (o : Oracle) : Sys :=
  let error := c.publicError .executionUnavailable "执行启动失败，请刷新后查看状态"
  let s' := { s with
    store := s.perform codec o.fate
      (.finishAttempt o.now c.owner a.token none (some error) (some a.executionId)) }
  match s.ask o.fate (finishAttempt o.now c.owner a.token none (some error) (some a.executionId))
    with
  | .error (.executionStopped reason) => s'.put { c with pc := .persistStop a reason }
  | .error .unexpected => s'.fail c .unexpected
  | .error (.history _) | .ok _ => s'.fail c (.history startFailed)

/-- The request of `_persist_stopped`; the stored reason decides. -/
def Sys.persistStop (a : Accepted) (reason : ExecutionStopReason) (o : Oracle) : Sys :=
  let s' := { s with
    store := s.perform codec o.fate (.requestStop o.now c.owner a.executionId reason none) }
  match s.ask o.fate (requestExecutionStop codec o.now c.owner a.executionId reason none) with
  | .error _ => s'.fail c (.history startFailed)
  | .ok r =>
    if r.status = .stopping then
      s'.put { c with pc := .finishStop a (r.stopReason.getD reason) }
    else s'.fail c (.history startFailed)

/-- The final status, error code and message for a stop reason. -/
def stopOutcome : ExecutionStopReason → StopStatus × ErrorCode × String
  | .userCancelled => (.cancelled, .executionCancelled, "执行已取消")
  | .deadlineExceeded => (.timedOut, .executionTimeout, "执行超过服务端时限")
  | .authorizationRevoked =>
    (.failed, .authorizationDenied, "登录状态或执行权限已失效，执行已停止")
  | .authorizationUnavailable =>
    (.failed, .authenticationUnavailable, "无法确认登录或执行权限，执行已停止")

def Sys.finishStop (a : Accepted) (reason : ExecutionStopReason) (o : Oracle) : Sys :=
  let (status, code, message) := stopOutcome reason
  let s' := { s with
    store := s.perform codec o.fate
      (.finishStopped o.now c.owner a.token a.executionId status (c.publicError code message)) }
  s'.fail c (.history startFailed)

/-- `HistoryRuntime.reconcile`: nothing happens while the history is running in this process
or when the guard check fails. -/
def Sys.reconcile (historyId : Uuid) (o : Oracle) : State :=
  if o.pass = false ∨ historyId ∈ s.runtime.running then s.store
  else s.perform codec o.fate (.reconcile o.now s.epoch historyId)

/-- One call of `_view`; the first and the fourth authorize before they read. -/
def Sys.view (v : Viewed) (o : Oracle) : ViewStage → Sys
  | .header =>
    if o.pass = false then s.fail c (.history o.rejection)
    else match s.ask o.fate (historyHeader o.now c.owner v.historyId) with
      | .error e => s.fail c e
      | .ok _ => s.put { c with pc := .view v .reconcile }
  | .reconcile =>
    -- a storage failure is swallowed, a row lock held by another transaction is not
    if o.pass = true ∧ v.historyId ∉ s.runtime.running ∧ o.fate = .locked then
      s.fail c (.history busy)
    else ({ s with store := s.reconcile codec v.historyId o }).put
      { c with pc := .view v .headerAgain }
  | .headerAgain =>
    match s.ask o.fate (historyHeader o.now c.owner v.historyId) with
    | .error e => s.fail c e
    | .ok _ => s.put { c with pc := .view v .turn }
  | .turn =>
    if o.pass = false then s.fail c (.history o.rejection)
    else match s.ask o.fate (historyTurn c.owner v.historyId v.turnId) with
      | .error e => s.fail c e
      | .ok _ => s.put { c with pc := .view v .execution }
  | .execution =>
    match s.ask o.fate (execution c.owner v.executionId) with
    | .error e => s.fail c e
    | .ok r => s.finish c (.ok r.id)

/-- The next step of a request thread. -/
def Sys.step (o : Oracle) : Option Sys :=
  match c.pc with
  | .waiting => s.enter c o
  | .lookup => some (s.lookup codec c o)
  | .header => some (s.header c o)
  | .reserve t => some (s.reserve c t o)
  | .reserveHistory t => some (s.reserveHistory c t o)
  | .reserveAnalysis t => some (s.reserveAnalysis c t o)
  | .reserveAdmission t => some (s.reserveAdmission c t)
  | .begin t => some (s.begin codec c t o)
  | .attach a => some (s.attach c a o)
  | .read a => some (s.read c a o)
  | .bind a => some (s.bind c a o)
  | .dispatch a => some (s.dispatch c a o)
  | .persistFailure a => some (s.persistFailure codec c a o)
  | .persistStop a reason => some (s.persistStop codec c a reason o)
  | .finishStop a reason => some (s.finishStop codec c a reason o)
  | .view v stage => some (s.view codec c v o stage)
  | .done _ => none

def WorkerCall.op (now : Timestamp) (a : Accepted) : WorkerCall → Op
  | .markRunning => .markRunning now c.owner a.executionId
  | .persistStop reason subject => .requestStop now c.owner a.executionId reason subject
  | .finish snapshot error => .finishAttempt now c.owner a.token snapshot error (some a.executionId)
  | .finishStopped status error =>
    .finishStopped now c.owner a.token a.executionId status error

/-- The work of the request has been accepted and has not returned. -/
def Call.working : Bool := c.worker = some .queued || c.worker = some .running

end Steps

/-- The next state, when the event can happen. -/
def Sys.next (codec : Codec) (s : Sys) : Event → Option Sys
  | .call owner subject requestId operationId request =>
    (s.calls.insert? { id := s.nextCall, owner := owner, subject := subject
                       requestId := requestId, operationId := operationId
                       request := request }).map
      (fun calls => { s with calls := calls, nextCall := s.nextCall + 1 })
  | .step callId o => do s.step codec (← s.calls.find? callId) o
  | .workStart callId => do
    let c ← s.calls.find? callId
    if c.worker = some .queued then some (s.put { c with worker := some .running }) else none
  | .work callId w o => do
    let c ← s.calls.find? callId
    let a ← c.accepted
    if c.worker = some .running then
      some { s with store := s.perform codec o.fate (w.op c o.now a) }
    else none
  | .workReturn callId => do
    let c ← s.calls.find? callId
    if c.worker = some .running then
      some (s.put { c with worker := some .returned, lease := c.lease.map Lease.release })
    else none
  | .drop callId p => do
    let c ← s.calls.find? callId
    let l ← c.lease
    if l.released && l.held p then
      some { s with
        runtime := s.runtime.give callId c.owner c.subject l p
        calls := s.calls.set { c with lease := some (l.drop p) } }
    else none
  | .read historyId o => some { s with store := s.reconcile codec historyId o }
  | .other op fate => if op.isOther then some { s with store := s.perform codec fate op } else none
  | .closeAdmission => some { s with runtime := { s.runtime with accepting := false } }
  | .restart now epoch =>
    some { s with
      store := s.store.apply codec (.restart now epoch), epoch := epoch, calls := Table.empty
      runtime := { maxPerUser := s.runtime.maxPerUser, maxTotal := s.runtime.maxTotal } }

/-- `uuid4` draws unused execution identifiers, and other requests use the store as its
callers do. -/
def Event.WellFormed (s : Sys) : Event → Prop
  | .step _ o => s.store.Unused o.executionId
  | .other op _ => op.WellFormed s.store
  | _ => True

instance (s : Sys) (e : Event) : Decidable (e.WellFormed s) := by
  cases e <;> unfold Event.WellFormed <;> infer_instance

/-- The application with its capacity limits. -/
def system (codec : Codec) : System Sys Event where
  init s := ∃ maxPerUser maxTotal, s = { runtime := { maxPerUser, maxTotal } }
  step s e t := e.WellFormed s ∧ s.next codec e = some t

/-- The state after a list of events, when each of them can happen. -/
def Sys.after (codec : Codec) (s : Sys) (evs : List Event) : Option Sys :=
  System.exec (Sys.next codec) (fun s ev => decide (ev.WellFormed s)) s evs

lemma Sys.after_run {codec : Codec} {s t : Sys} {evs : List Event} (h : s.after codec evs = some t) :
    (system codec).Run s evs t := by
  have hstep : ∀ s ev t, decide (ev.WellFormed s) = true → s.next codec ev = some t →
      (system codec).step s ev t := fun s ev t hok hnext => ⟨of_decide_eq_true hok, hnext⟩
  exact System.exec_run hstep h

lemma Sys.after_reachable {codec : Codec} {t : Sys} {evs : List Event}
    (h : Sys.after codec {} evs = some t) : (system codec).Reachable t :=
  ⟨{}, evs, ⟨1, 4, rfl⟩, Sys.after_run h⟩

end ChatBI.Execution
