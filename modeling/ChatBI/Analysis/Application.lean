import ChatBI.Analysis.Planning

/-!
# The analysis graph

The nodes of the state graph, and an attempt of `analyze` on one analysis run. The state is
checkpointed behind every node and the next attempt starts from the checkpoint. What the other
components answer in an attempt, and where an exception leaves it, is given with the attempt.
-/

namespace ChatBI.Analysis

open ChatBI.Lib

inductive QueryErrorCode where
  | invalidRequest
  | contextError
  | llmError
  | cannotAnswer
  | databaseError
  | queryTimeout
  | clarificationRequired
  | serviceNotReady
  | executionLimitReached
  | authenticationRequired
  | authorizationDenied
  | authenticationUnavailable
  | sqlRejected
  | conversationUnavailable
  | unsupportedAnalysis
  | conversationConflict
  deriving DecidableEq

def QueryErrorCode.value : QueryErrorCode → String
  | .invalidRequest => "INVALID_REQUEST"
  | .contextError => "CONTEXT_ERROR"
  | .llmError => "LLM_ERROR"
  | .cannotAnswer => "CANNOT_ANSWER"
  | .databaseError => "DATABASE_ERROR"
  | .queryTimeout => "QUERY_TIMEOUT"
  | .clarificationRequired => "CLARIFICATION_REQUIRED"
  | .serviceNotReady => "SERVICE_NOT_READY"
  | .executionLimitReached => "EXECUTION_LIMIT_REACHED"
  | .authenticationRequired => "AUTHENTICATION_REQUIRED"
  | .authorizationDenied => "AUTHORIZATION_DENIED"
  | .authenticationUnavailable => "AUTHENTICATION_UNAVAILABLE"
  | .sqlRejected => "SQL_REJECTED"
  | .conversationUnavailable => "CONVERSATION_UNAVAILABLE"
  | .unsupportedAnalysis => "UNSUPPORTED_ANALYSIS"
  | .conversationConflict => "CONVERSATION_CONFLICT"

structure QueryFailure where
  requestId : String
  errorCode : QueryErrorCode
  errorMessage : String
  failureStage : Option String
  internalReason : Option String
  deriving DecidableEq

/-- `_failure`. -/
def failure (requestId : String) (errorCode : QueryErrorCode) (reason : String) : QueryFailure where
  requestId := requestId
  errorCode := errorCode
  errorMessage :=
    match errorCode with
    | .clarificationRequired => "请明确经营分析中的指标或比较时期"
    | .cannotAnswer => "当前经营分析无法安全完成"
    | .contextError => "经营分析上下文暂时不可用"
    | .llmError => "经营分析暂时无法生成，请稍后重试"
    | _ => "暂时无法处理当前经营分析"
  failureStage := some "business_analysis"
  internalReason := some reason

def retryableCodes : List QueryErrorCode := [.contextError, .databaseError, .llmError, .queryTimeout]

/-- `_retryable_task_result`. -/
def TaskResult.retryable (result : TaskResult) : Bool :=
  result.error.any fun error => error.code ∈ retryableCodes.map QueryErrorCode.value

/-- `_retryable_failure`. -/
def retryableFailure (failure : QueryFailure) (taskResults : List TaskResult) : Bool :=
  taskResults.any TaskResult.retryable || failure.errorCode ∈ retryableCodes

/-- `status is COMPLETED and not truncated`. -/
def TaskResult.done (result : TaskResult) : Bool := result.status = .completed && !result.truncated

/-- An exception that leaves a node: a stop, or any other one. -/
inductive Interrupt where
  | stopped
  | crashed
  deriving DecidableEq

/-- What the query service makes of the request of a task. -/
inductive QueryOutcome where
  | semanticInvalid
  | adapterError
  | executionError
  | success (columns : List String) (rows : List (List Value)) (rowCount : Nat) (truncated : Bool)
  | failure (code message : String) (reason : Option String)
  | invalid
  deriving DecidableEq

def failedTask (taskId code message : String) (reason : Option String) : TaskResult where
  taskId := taskId
  status := .failed
  error := some ⟨code, message, reason⟩

/-- `_execute_task`. -/
def executeTask (taskId : String) : QueryOutcome → TaskResult
  | .semanticInvalid => failedTask taskId "TASK_SEMANTIC_INVALID" "Task 语义无法安全校验" none
  | .adapterError => failedTask taskId "TASK_ADAPTER_ERROR" "Task 适配失败" none
  | .executionError => failedTask taskId "TASK_EXECUTION_ERROR" "Task 查询执行失败" none
  | .success columns rows rowCount truncated =>
    { taskId, status := .completed, columns, rows, rowCount, truncated }
  | .failure code message reason => failedTask taskId code message reason
  | .invalid => failedTask taskId "TASK_RESULT_INVALID" "Task 查询返回无效结果" none

lemma executeTask_taskId (taskId : String) (outcome : QueryOutcome) :
    (executeTask taskId outcome).taskId = taskId := by
  cases outcome <;> rfl

inductive Decomposition where
  | extractionError (reason : String)
  | decomposerFailure
  | candidate (candidate : AnalysisRequestCandidate)
  deriving DecidableEq

/-- One visit of the node `execute`. -/
structure Visit where
  bound : Bool
  before : Option Interrupt
  first : Except Interrupt QueryOutcome
  second : Except Interrupt QueryOutcome
  after : Option Interrupt

inductive ClaimOutcome where
  | interrupted (interrupt : Interrupt)
  | conflict (reason : String)
  | unavailable
  | claimed
  deriving DecidableEq

section Graph

-- the reports of the summarizer stay a parameter
variable {Report : Type}

inductive Summary (Report : Type) where
  | reportError (code reason : String)
  | summaryFailure
  | report (report : Report)

/-- The answers of the other components in one attempt. -/
structure Attempt (Report : Type) where
  requestId : String
  question : String
  claim : ClaimOutcome
  context : Except Interrupt (Option AnalysisDecompositionContext)
  decompose : Except Interrupt Decomposition
  validateBefore : Option Interrupt
  validateAfter : Option Interrupt
  visits : Nat → Visit
  attributing : Option Interrupt
  summarize : Except Interrupt (Summary Report)
  finish : Option Interrupt
  markCompleted : Option Interrupt

/-- `AnalysisRunState`. -/
structure Checkpoint (Report : Type) where
  question : String
  catalog : Option AnalysisSemanticCatalog
  candidate : Option AnalysisRequestCandidate
  analysisRequest : Option AnalysisRequest
  plan : Option AnalysisPlan
  taskResults : List TaskResult
  attribution : Option BusinessAnalysisAttribution
  report : Option Report
  failure : Option QueryFailure

def Checkpoint.empty : Checkpoint Report := ⟨"", none, none, none, none, [], none, none, none⟩

/-- The request and its plan are there. -/
def Checkpoint.planned (c : Checkpoint Report) : Bool := c.analysisRequest.isSome && c.plan.isSome

def Checkpoint.fail (c : Checkpoint Report) (failure : QueryFailure) : Checkpoint Report :=
  { c with failure := some failure }

/-- What an attempt does besides changing the state. -/
inductive Event where
  | query (taskId : String)
  | attribution (request : AnalysisRequest) (taskResults : List TaskResult)
  deriving DecidableEq

section Nodes

variable (texts : Texts) (a : Attempt Report) (c : Checkpoint Report)

/-- Runs the rest of a node unless an exception leaves it here. -/
def uninterrupted {α : Type} (interrupt : Option Interrupt) (x : Except Interrupt α) :
    Except Interrupt α :=
  match interrupt with
  | some interrupt => .error interrupt
  | none => x

def extractRequest : Except Interrupt (Checkpoint Report) :=
  if c.planned then .ok { c with failure := none }
  else
    match a.context with
    | .error interrupt => .error interrupt
    | .ok none =>
      .ok (c.fail (failure a.requestId .contextError "ANALYSIS_CONTEXT_UNAVAILABLE"))
    | .ok (some context) =>
      match fromRecords texts context with
      | .error _ =>
        .ok (c.fail (failure a.requestId .contextError "ANALYSIS_CONTEXT_UNAVAILABLE"))
      | .ok catalog =>
        a.decompose.map fun
          | .extractionError reason => c.fail (failure a.requestId .llmError reason)
          | .decomposerFailure => c.fail (failure a.requestId .llmError "DECOMPOSER_FAILURE")
          | .candidate candidate => { c with catalog := some catalog, candidate := some candidate }

/-- The failure that an error of the planning turns into. -/
def planFailure (error : AnalysisPlanError) : QueryFailure :=
  match error.kind with
  | .clarification => failure a.requestId .clarificationRequired error.reason
  | .cannotAnswer => failure a.requestId .cannotAnswer error.reason
  | .structural => failure a.requestId .contextError error.reason

/-- The part of `_validate_request` inside the `try`. A missing candidate is a `KeyError` there. -/
def planRequest : Except Interrupt (Checkpoint Report) :=
  match c.candidate, c.catalog with
  | some candidate, some catalog =>
    match buildComparisonPlan texts candidate catalog c.question with
    | .ok (request, plan) => uninterrupted a.validateAfter
        (.ok { c with analysisRequest := some request, plan := some plan })
    | .error error => .ok (c.fail (planFailure a error))
  | _, _ => .ok (c.fail (failure a.requestId .contextError "PLAN_VALIDATION_FAILURE"))

def validateRequest : Except Interrupt (Checkpoint Report) :=
  if c.failure.isSome then .ok c
  else if c.planned then .ok { c with failure := none }
  else uninterrupted a.validateBefore (planRequest texts a c)

/-- `{result.task_id: result for result in task_results}`: the last result of a task. -/
def previousResult (taskResults : List TaskResult) (taskId : String) : Option TaskResult :=
  taskResults.reverse.find? (·.taskId = taskId)

/-- The first task of the plan without a complete result. -/
def pendingTask (plan : AnalysisPlan) (taskResults : List TaskResult) : Option AnalysisTask :=
  plan.tasks.find? fun task => !(previousResult taskResults task.taskId).any TaskResult.done

/-- The queries for a task, and its result. A failed query is repeated once when that may help. -/
def queryTask (visit : Visit) (taskId : String) : List Event × Except Interrupt TaskResult :=
  match visit.first with
  | .error interrupt => ([.query taskId], .error interrupt)
  | .ok outcome =>
    let result := executeTask taskId outcome
    if result.status = .failed ∧ result.retryable then
      ([.query taskId, .query taskId], visit.second.map (executeTask taskId))
    else ([.query taskId], .ok result)

/-- The state with the result of a task. -/
def recordResult (plan : AnalysisPlan) (result : TaskResult) : Checkpoint Report :=
  let taskResults := plan.tasks.filterMap fun task =>
    if task.taskId = result.taskId then some result else previousResult c.taskResults task.taskId
  if result.done then { c with taskResults := taskResults, failure := none }
  else { c with
    taskResults := taskResults
    failure := some (failure a.requestId .cannotAnswer
      (if result.truncated then "ANALYSIS_TASK_TRUNCATED" else "ANALYSIS_TASK_FAILED")) }

/-- The query of a task that is pending. -/
def executePending (visit : Visit) (plan : AnalysisPlan) (task : AnalysisTask) :
    List Event × Except Interrupt (Checkpoint Report) :=
  match visit.before with
  | some interrupt => ([], .error interrupt)
  | none =>
    let (events, queried) := queryTask visit task.taskId
    (events, queried.bind fun result => uninterrupted visit.after
      (.ok (recordResult a c plan result)))

def executeTasks (visit : Visit) : List Event × Except Interrupt (Checkpoint Report) :=
  if ¬visit.bound then
    ([], .ok (c.fail (failure a.requestId .contextError "ANALYSIS_EXECUTION_FAILURE")))
  else
    match c.plan with
    | none => ([], .error .crashed)
    | some plan =>
      match pendingTask plan c.taskResults with
      | none => ([], uninterrupted visit.before (.ok { c with
          taskResults := plan.tasks.filterMap fun task =>
            previousResult c.taskResults task.taskId }))
      | some task => executePending a c visit plan task

def attributeResults : List Event × Except Interrupt (Checkpoint Report) :=
  match a.attributing, c.analysisRequest with
  | some interrupt, _ => ([], .error interrupt)
  | none, none => ([], .ok (c.fail (failure a.requestId .cannotAnswer "ATTRIBUTION_FAILURE")))
  | none, some request =>
    ([.attribution request c.taskResults],
      match calculateProductAttribution texts.casefold texts.decimal request c.taskResults with
      | .ok attribution => .ok { c with attribution := some attribution }
      | .error error => .ok (c.fail (failure a.requestId .cannotAnswer error.reason)))

def summarizeResults : Except Interrupt (Checkpoint Report) :=
  a.summarize.map fun
    | .reportError code reason => c.fail (failure a.requestId
        (if code = QueryErrorCode.llmError.value then .llmError else .cannotAnswer) reason)
    | .summaryFailure => c.fail (failure a.requestId .contextError "ANALYSIS_SUMMARY_FAILURE")
    | .report report => { c with report := some report }

end Nodes

inductive Node where
  | extract
  | validate
  | execute
  | attribution
  | summarize
  deriving DecidableEq

/-- One superstep of the graph. -/
def runNode (texts : Texts) (a : Attempt Report) (visit : Nat) (c : Checkpoint Report) :
    Node → List Event × Except Interrupt (Checkpoint Report)
  | .extract => ([], extractRequest texts a c)
  | .validate => ([], validateRequest texts a c)
  | .execute => executeTasks a c (a.visits visit)
  | .attribution => attributeResults texts a c
  | .summarize => ([], summarizeResults a c)

/-- The node behind a node, `none` at the end of the graph. -/
def route (c : Checkpoint Report) : Node → Option Node
  | .extract => some .validate
  | .validate => if c.failure.isSome then none else some .execute
  | .execute =>
    if c.failure.isSome then none
    else if c.plan.any fun plan => c.taskResults.length = plan.tasks.length then some .attribution
    else some .execute
  | .attribution => if c.failure.isSome then none else some .summarize
  | .summarize => none

/-- What a run of the graph leaves behind. -/
structure Ran (Report : Type) where
  events : List Event
  checkpoint : Checkpoint Report
  interrupt : Option Interrupt

/-- The graph from a node on, with so many supersteps left. -/
def runGraph (texts : Texts) (a : Attempt Report) : Nat → Nat → Node → Checkpoint Report → Ran Report
  | 0, _, _, c => ⟨[], c, some .crashed⟩
  | fuel + 1, visit, node, c =>
    match runNode texts a visit c node with
    | (events, .error interrupt) => ⟨events, c, some interrupt⟩
    | (events, .ok c') =>
      match route c' node with
      | none => ⟨events, c', none⟩
      | some next =>
        let rest := runGraph texts a fuel (visit + 1) next c'
        ⟨events ++ rest.events, rest.checkpoint, rest.interrupt⟩

/-- The supersteps that a run may take. -/
def recursionLimit : Nat := 25

inductive AnalysisRunStatus where
  | active
  | completed
  deriving DecidableEq

/-- The run as the run store and the checkpointer keep it. -/
structure AnalysisRun (Report : Type) where
  status : AnalysisRunStatus
  checkpoint : Checkpoint Report

structure BusinessAnalysisSuccess (Report : Type) where
  requestId : String
  report : Report
  taskResults : List TaskResult
  attribution : BusinessAnalysisAttribution
  plan : Option AnalysisPlan

inductive AnalysisResult (Report : Type) where
  | success (success : BusinessAnalysisSuccess Report)
  | failure (failure : QueryFailure)

/-- The result of an attempt, what it did and what it leaves behind. -/
structure Analyzed (Report : Type) where
  result : Except Interrupt (AnalysisResult Report)
  events : List Event
  run : AnalysisRun Report

section Analyze

variable (texts : Texts) (a : Attempt Report) (r : AnalysisRun Report)

/-- `_completed_result`. -/
def completedResult : AnalysisResult Report :=
  match r.checkpoint.failure, r.checkpoint.report, r.checkpoint.attribution with
  | some failure, _, _ => .failure { failure with requestId := a.requestId }
  | none, some report, some attribution =>
    .success ⟨a.requestId, report, r.checkpoint.taskResults, attribution, r.checkpoint.plan⟩
  | none, _, _ => .failure (failure a.requestId .contextError "ANALYSIS_CHECKPOINT_OUTPUT_INVALID")

/-- The end of an attempt whose graph has left a failure. -/
def finishFailure (c : Checkpoint Report) (failure : QueryFailure) :
    Except Interrupt (AnalysisResult Report) × AnalysisRunStatus :=
  if retryableFailure failure c.taskResults then (.ok (.failure failure), .active)
  else
    match a.markCompleted with
    | some interrupt => (.error interrupt, .active)
    | none => (.ok (.failure failure), .completed)

/-- The end of an attempt whose graph has left no failure. -/
def finishSuccess (c : Checkpoint Report) :
    Except Interrupt (AnalysisResult Report) × AnalysisRunStatus :=
  match c.plan, c.attribution, c.report with
  | some plan, some attribution, some report =>
    match a.markCompleted with
    | some .stopped => (.error .stopped, .active)
    | some .crashed => (.ok (.failure
        (failure a.requestId .contextError "ANALYSIS_RUN_STORE_UNAVAILABLE")), .active)
    | none =>
      (.ok (.success ⟨a.requestId, report, c.taskResults, attribution, some plan⟩), .completed)
  | _, _, _ => (.ok (.failure
      (failure a.requestId .contextError "ANALYSIS_GRAPH_OUTPUT_INVALID")), .active)

/-- What follows the graph. -/
def finish (ran : Ran Report) : Except Interrupt (AnalysisResult Report) × AnalysisRunStatus :=
  match ran.interrupt.or a.finish with
  | some .stopped => (.error .stopped, .active)
  | some .crashed =>
    (.ok (.failure (failure a.requestId .contextError "ANALYSIS_GRAPH_FAILURE")), .active)
  | none =>
    match ran.checkpoint.failure with
    | some failure => finishFailure a ran.checkpoint failure
    | none => finishSuccess a ran.checkpoint

/-- The run of the graph in an attempt. -/
def invoke : Ran Report :=
  runGraph texts a recursionLimit 0 .extract { r.checkpoint with question := a.question }

def analyze : Analyzed Report :=
  match a.claim with
  | .interrupted interrupt => ⟨.error interrupt, [], r⟩
  | .conflict reason => ⟨.ok (.failure (failure a.requestId .cannotAnswer reason)), [], r⟩
  | .unavailable => ⟨.ok (.failure
      (failure a.requestId .contextError "ANALYSIS_RUN_STORE_UNAVAILABLE")), [], r⟩
  | .claimed =>
    match r.status with
    | .completed => ⟨.ok (completedResult a r), [], r⟩
    | .active =>
      let ran := invoke texts a r
      let (result, status) := finish a ran
      ⟨result, ran.events, ⟨status, ran.checkpoint⟩⟩

end Analyze

end Graph

end ChatBI.Analysis
