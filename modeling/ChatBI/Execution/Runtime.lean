import ChatBI.Store.Lifecycle

/-!
# The execution runtime

The shared resources of one API process: the execution capacity, the running histories and
analysis runs, the progress channels, the stop controls and the operation locks. A lease is
the bundle of resources that one request reserves and hands to its worker.
-/

namespace ChatBI.Execution

open ChatBI.Lib ChatBI.Store

/-- A request thread, and the lease and the worker it creates. -/
abbrev CallId := ℕ

/-- The resources of an execution lease. -/
inductive Part
  | capacity | history | analysis | channel | control
  deriving DecidableEq, Repr

structure Lease where
  historyId : Uuid
  analysisRunId : Option Uuid
  held : Part → Bool
  executionId : Option Uuid := none
  submitted : Bool := false
  released : Bool := false

def Lease.acquire (l : Lease) (p : Part) : Lease :=
  { l with held := Function.update l.held p true }

/-- The lease serves this execution from now on. -/
def Lease.bindTo (l : Lease) (executionId : Uuid) : Lease :=
  { l with executionId := some executionId }

def Lease.submit (l : Lease) : Lease := { l with submitted := true }

/-- `ExecutionLease.release`: the flag is taken once; the parts are given back one by one. -/
def Lease.release (l : Lease) : Lease := { l with released := true }

/-- A released lease has given back the part. -/
def Lease.drop (l : Lease) (p : Part) : Lease := { l with held := Function.update l.held p false }

structure Runtime where
  maxPerUser : ℕ := 1
  maxTotal : ℕ := 4
  accepting : Bool := true
  activeByUser : Owner → ℕ := fun _ => 0
  activeTotal : ℕ := 0
  running : List Uuid := []
  analyses : List (String × Uuid) := []
  channels : Uuid → Option CallId := fun _ => none
  controls : Uuid → Option CallId := fun _ => none
  operationLocks : List (Owner × Uuid) := []

namespace Runtime

def limitReached (message : String) : HistoryError :=
  { code := .executionLimitReached, message := message }

def closing : HistoryError :=
  { code := .executionUnavailable, message := "执行服务正在关闭"
    failureKind := some .executionRuntimeUnavailable }

def analysisBusy : HistoryError :=
  { code := .historyBusy, message := "原分析运行仍在执行，请稍后刷新" }

/-- `reserve_owner`. -/
def reserveOwner (rt : Runtime) (owner : Owner) : Except HistoryError Runtime :=
  if rt.accepting = false then .error closing
  else if rt.maxPerUser ≤ rt.activeByUser owner then .error (limitReached "已有执行仍在运行")
  else if rt.maxTotal ≤ rt.activeTotal then .error (limitReached "服务繁忙，请稍后再试")
  else .ok { rt with
    activeByUser := Function.update rt.activeByUser owner (rt.activeByUser owner + 1)
    activeTotal := rt.activeTotal + 1 }

/-- `_release_owner`. -/
def releaseOwner (rt : Runtime) (owner : Owner) : Runtime :=
  { rt with
    activeByUser := Function.update rt.activeByUser owner (rt.activeByUser owner - 1)
    activeTotal := rt.activeTotal - 1 }

/-- `HistoryRuntime.reserve`; `valid` is the outcome of its guard check. -/
def reserveHistory (rt : Runtime) (valid : Bool) (historyId : Uuid) : Except HistoryError Runtime :=
  if valid = false then .error storageUnavailable
  else if historyId ∈ rt.running then .error busy
  else .ok { rt with running := historyId :: rt.running }

/-- `AnalysisExecutionGuard.reserve`; it is not `valid` while it drains. -/
def reserveAnalysis (rt : Runtime) (valid : Bool) (key : String × Uuid) :
    Except HistoryError Runtime :=
  if valid = false ∨ key ∈ rt.analyses then .error analysisBusy
  else .ok { rt with analyses := key :: rt.analyses }

/-- `attach_progress` for an execution without a channel. -/
def attach (rt : Runtime) (callId : CallId) (executionId : Uuid) : Runtime :=
  { rt with channels := Function.update rt.channels executionId (some callId) }

/-- `bind_stop_control`. -/
def bind (rt : Runtime) (callId : CallId) (executionId : Uuid) : Runtime :=
  { rt with controls := Function.update rt.controls executionId (some callId) }

/-- Giving back one part of a lease. A channel or a control that is no longer the lease's own
stays. -/
def give (rt : Runtime) (callId : CallId) (owner : Owner) (subject : String) (l : Lease) :
    Part → Runtime
  | .capacity => rt.releaseOwner owner
  | .history => { rt with running := rt.running.erase l.historyId }
  | .analysis =>
    match l.analysisRunId with
    | none => rt
    | some run => { rt with analyses := rt.analyses.erase (subject, run) }
  | .channel =>
    match l.executionId with
    | none => rt
    | some x =>
      if rt.channels x = some callId then
        { rt with channels := Function.update rt.channels x none }
      else rt
  | .control =>
    match l.executionId with
    | none => rt
    | some x =>
      if rt.controls x = some callId then
        { rt with controls := Function.update rt.controls x none }
      else rt

variable {rt rt' : Runtime} {owner : Owner} {valid : Bool}

lemma reserveOwner_ok (h : rt.reserveOwner owner = .ok rt') :
    rt.activeByUser owner < rt.maxPerUser ∧ rt.activeTotal < rt.maxTotal ∧ rt' = { rt with
      activeByUser := Function.update rt.activeByUser owner (rt.activeByUser owner + 1)
      activeTotal := rt.activeTotal + 1 } := by
  unfold reserveOwner at h
  split_ifs at h with haccepting huser htotal
  cases h
  exact ⟨not_le.mp huser, not_le.mp htotal, rfl⟩

lemma reserveHistory_ok {historyId : Uuid} (h : rt.reserveHistory valid historyId = .ok rt') :
    historyId ∉ rt.running ∧ rt' = { rt with running := historyId :: rt.running } := by
  unfold reserveHistory at h
  split_ifs at h with hvalid hrunning
  cases h
  exact ⟨hrunning, rfl⟩

lemma reserveAnalysis_ok {key : String × Uuid} (h : rt.reserveAnalysis valid key = .ok rt') :
    key ∉ rt.analyses ∧ rt' = { rt with analyses := key :: rt.analyses } := by
  unfold reserveAnalysis at h
  split_ifs at h with hbusy
  cases h
  exact ⟨(not_or.mp hbusy).2, rfl⟩

lemma give_operationLocks (callId : CallId) (subject : String) (l : Lease) (p : Part) :
    (rt.give callId owner subject l p).operationLocks = rt.operationLocks := by
  cases p with
  | capacity => rfl
  | history => rfl
  | analysis =>
    dsimp only [give]
    cases l.analysisRunId <;> rfl
  | channel =>
    dsimp only [give]
    cases l.executionId <;> [rfl; (dsimp only; split_ifs <;> rfl)]
  | control =>
    dsimp only [give]
    cases l.executionId <;> [rfl; (dsimp only; split_ifs <;> rfl)]

end Runtime

end ChatBI.Execution
