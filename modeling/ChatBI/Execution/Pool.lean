import ChatBI.Events.Atomic
import ChatBI.Execution.Runtime
import ChatBI.Store.Cursor

/-!
# The execution capacity

`reserve_owner`, `reserve`, the release of their leases and what is attached to them, one lock at a
time. A row stands for one call that reserves, its leases and their release. `closing` and `lost`
stand for what another component answers.
-/

namespace ChatBI.Execution.Capacity

open ChatBI.Lib ChatBI.Store ChatBI.Events

/-- The provider, the subject and the run of an analysis. -/
abbrev AnalysisKey := String × String × Uuid

/-- Where a call is: in front of an inner step of `reserve`, giving back what it has reserved, or
behind it with a lease. -/
inductive Stage where
  | history
  | analysis
  | admission
  | undoing (rest : List Part)
  | failed
  | issued
  | releasing (rest : List Part)
  | released
  deriving DecidableEq

/-- A call and its leases. `held` tells which of their leases are not released and which of their
entries are registered; a lease of `reserve_owner` has no history. -/
structure Reservation (ω : Type) where
  id : ℕ
  owner : ω
  historyId : Option Uuid := none
  analysisKey : Option AnalysisKey := none
  held : Part → Bool := fun _ => false
  stage : Stage
  executionId : Option Uuid := none
  channel : Option Channel := none
  submitted : Bool := false

abbrev Reservations (ω : Type) := Table (Reservation.id : Reservation ω → ℕ)

structure Pool (ω : Type) where
  maxPerUser : ℕ
  maxTotal : ℕ
  accepting : Bool := true
  activeByUser : ω → ℕ := fun _ => 0
  activeTotal : ℕ := 0
  valid : Bool := true
  running : List Uuid := []
  analyses : List AnalysisKey := []
  channels : Uuid → Option ℕ := fun _ => none
  controls : Uuid → Option ℕ := fun _ => none
  rows : Reservations ω := .empty
  doubleRelease : Bool := false

def stopReasonValue : ExecutionStopReason → String
  | .userCancelled => "user_cancelled"
  | .deadlineExceeded => "deadline_exceeded"
  | .authorizationRevoked => "authorization_revoked"
  | .authorizationUnavailable => "authorization_unavailable"

/-- The fields that `attach_progress` reads of an execution. -/
structure Admitted where
  id : Uuid
  historyId : Uuid
  turnId : Uuid
  status : ExecutionStatus
  stopReason : Option ExecutionStopReason

/-- The execution that the channel reads. -/
def Admitted.execution (e : Admitted) : Events.Execution where
  id := String.ofList (Listing.uuidText e.id)
  historyId := String.ofList (Listing.uuidText e.historyId)
  turnId := String.ofList (Listing.uuidText e.turnId)
  status := e.status
  stopReason := e.stopReason.map stopReasonValue

/-- `operate` is a call of the worker or of a subscriber on the channel of a lease, and `stopping`
the reason of an execution that is being stopped. -/
inductive Label (ω : Type) where
  | reserveOwner (id : ℕ) (owner : ω)
  | reserve (id : ℕ) (owner : ω) (historyId : Uuid) (analysisKey : Option AnalysisKey)
  | history (id : ℕ) (lost closing : Bool)
  | analysis (id : ℕ) (unbound closing : Bool)
  | admission (id : ℕ)
  | giveBack (id : ℕ)
  | release (id : ℕ)
  | attachProgress (id : ℕ) (execution : Admitted)
  | bindStopControl (id : ℕ) (stopping : Option ExecutionStopReason)
  | operate (id : ℕ) (a : ChannelAction)
  | submit (id : ℕ)
  | submitFailed (id : ℕ)
  | closeAdmission

variable {ω : Type}

namespace Reservation

def take (r : Reservation ω) (p : Part) : Reservation ω :=
  { r with held := Function.update r.held p true }

def drop (r : Reservation ω) (p : Part) : Reservation ω :=
  { r with held := Function.update r.held p false }

/-- The parts that the `except` of `reserve` gives back. -/
def undoOrder : List Part := [.analysis, .history, .capacity]

/-- The `except` of `reserve`. -/
def undo (r : Reservation ω) : Reservation ω := { r with stage := .undoing undoOrder }

/-- The order in which a release gives the parts back. -/
def releaseOrder (r : Reservation ω) : List Part :=
  if r.historyId = none then [.capacity] else [.channel, .control, .analysis, .history, .capacity]

/-- A call whose capacity is not given back. -/
def unreleased (r : Reservation ω) : Bool :=
  match r.stage with
  | .history | .analysis | .admission | .issued => true
  | .undoing rest | .releasing rest => decide (.capacity ∈ rest)
  | .failed | .released => false

def historyKey (r : Reservation ω) : Option Uuid :=
  if r.held .history then r.historyId else none

def runKey (r : Reservation ω) : Option AnalysisKey :=
  if r.held .analysis then r.analysisKey else none

/-- `channel.finish("unconfirmed")` where the channel has not ended. -/
def finishChannel (r : Reservation ω) : Except String Unit × Reservation ω :=
  match r.channel with
  | none => (.ok (), r)
  | some c =>
    if c.terminal then (.ok (), r)
    else ((c.finish .unconfirmed none).1,
      { r with channel := some (c.finish .unconfirmed none).2 })

/-- `signal` of a new stop control. -/
def signal (r : Reservation ω) (stopping : Option ExecutionStopReason) :
    Except String Unit × Reservation ω :=
  match stopping, r.channel with
  | some reason, some c =>
    ((c.setStatus .stopping (some (Text.ofString (stopReasonValue reason)))).1, { r with
      channel := some (c.setStatus .stopping (some (Text.ofString (stopReasonValue reason)))).2 })
  | _, _ => (.ok (), r)

end Reservation

namespace Pool

variable [DecidableEq ω]

def put (s : Pool ω) (r : Reservation ω) : Pool ω := { s with rows := s.rows.set r }

/-- `reserve_owner`, `none` where it raises. -/
def reserveOwner (s : Pool ω) (r : Reservation ω) : Option (Pool ω) :=
  if s.accepting = false then none
  else if s.maxPerUser ≤ s.activeByUser r.owner then none
  else if s.maxTotal ≤ s.activeTotal then none
  else (s.rows.insert? (r.take .capacity)).map fun rows => { s with
    activeByUser := Function.update s.activeByUser r.owner (s.activeByUser r.owner + 1)
    activeTotal := s.activeTotal + 1
    rows }

/-- `_release_owner`. -/
def releaseOwner (s : Pool ω) (owner : ω) : Pool ω :=
  if s.activeByUser owner = 0 ∨ s.activeTotal = 0 then { s with doubleRelease := true }
  else { s with
    activeByUser := Function.update s.activeByUser owner (s.activeByUser owner - 1)
    activeTotal := s.activeTotal - 1 }

/-- A registry without the entry of its holder. -/
def deregister (registry : Uuid → Option ℕ) (id : ℕ) (executionId : Option Uuid) :
    Uuid → Option ℕ := fun x => if executionId = some x ∧ registry x = some id then none else registry x

/-- One part of a reservation is given back. A channel that cannot be finished stays registered. -/
def giveBack (s : Pool ω) (r : Reservation ω) (p : Part) : Pool ω × Reservation ω :=
  if r.held p = false then (s, r)
  else match p with
    | .capacity => (s.releaseOwner r.owner, r.drop .capacity)
    | .history =>
      match r.historyId with
      | none => (s, r)
      | some h => ({ s with running := s.running.erase h }, r.drop .history)
    | .analysis =>
      match r.analysisKey with
      | none => (s, r)
      | some k => ({ s with analyses := s.analyses.erase k }, r.drop .analysis)
    | .channel =>
      match r.finishChannel with
      | (.error _, r') => (s, r')
      | (.ok _, r') =>
        ({ s with channels := deregister s.channels r.id r.executionId }, r'.drop .channel)
    | .control =>
      ({ s with controls := deregister s.controls r.id r.executionId }, r.drop .control)

/-- `HistoryRuntime.reserve`. -/
def reserveHistory (s : Pool ω) (r : Reservation ω) (lost closing : Bool) : Pool ω :=
  if s.valid = false then s.put r.undo
  else if lost then { s with valid := false }.put r.undo
  else match r.historyId with
    | none => s.put r.undo
    | some h =>
      if closing = true ∨ h ∈ s.running then s.put r.undo
      else { s with running := h :: s.running }.put { r.take .history with stage := .analysis }

/-- `AnalysisExecutionGuard.reserve`, for a call with an analysis run. -/
def reserveAnalysis (s : Pool ω) (r : Reservation ω) (unbound closing : Bool) : Pool ω :=
  match r.analysisKey with
  | none => s.put { r with stage := .admission }
  | some k =>
    if unbound = true ∨ closing = true ∨ k ∈ s.analyses then s.put r.undo
    else { s with analyses := k :: s.analyses }.put { r.take .analysis with stage := .admission }

/-- The next part that a call gives back. -/
def giveNext (s : Pool ω) (r : Reservation ω) : Option (Pool ω) :=
  match r.stage with
  | .undoing [] => some (s.put { r with stage := .failed })
  | .undoing (p :: rest) =>
    let given := s.giveBack r p
    some (given.1.put { given.2 with stage := .undoing rest })
  | .releasing [] => some (s.put { r with stage := .released })
  | .releasing (p :: rest) =>
    let given := s.giveBack r p
    some (given.1.put { given.2 with stage := .releasing rest })
  | _ => none

/-- `release`: only the first one gives the parts back. -/
def release (s : Pool ω) (r : Reservation ω) : Option (Pool ω) :=
  match r.stage with
  | .issued => some (s.put { r with stage := .releasing r.releaseOrder })
  | .releasing _ | .released => some s
  | _ => none

/-- `attach_progress` of an `ExecutionLease`; where it raises nothing changes. -/
def attachProgress (s : Pool ω) (r : Reservation ω) (execution : Admitted) : Option (Pool ω) :=
  if r.historyId = none then none
  else match r.stage with
    | .issued =>
      if r.submitted = true ∨ r.executionId ≠ none then some s
      else match Channel.new execution.execution with
        | .error _ => some s
        | .ok c =>
          if s.channels execution.id ≠ none then some s
          else some ({ s with
            channels := Function.update s.channels execution.id (some r.id) }.put
              { r.take .channel with executionId := some execution.id, channel := some c })
    | .releasing _ | .released => some s
    | _ => none

/-- `bind_stop_control` for the execution that was attached. -/
def bindStopControl (s : Pool ω) (r : Reservation ω) (stopping : Option ExecutionStopReason) :
    Option (Pool ω) :=
  match r.stage with
  | .issued =>
    match r.executionId with
    | none => some s
    | some x =>
      if r.submitted = true ∨ r.held .control = true then some s
      else match r.signal stopping with
        | (.error _, r') => some (s.put r')
        | (.ok _, r') => some ({ s with controls := Function.update s.controls x (some r.id) }.put
            (r'.take .control))
  | .releasing _ | .released => some s
  | _ => none

/-- A call on the channel of a lease. -/
def operate (s : Pool ω) (r : Reservation ω) (a : ChannelAction) : Option (Pool ω) :=
  r.channel.map fun c => s.put { r with channel := some (c.operated a) }

/-- One step of a thread, `none` where no thread can take it. -/
def step (s : Pool ω) : Label ω → Option (Pool ω)
  | .reserveOwner id owner => some ((s.reserveOwner { id, owner, stage := .issued }).getD s)
  | .reserve id owner historyId analysisKey => some ((s.reserveOwner
      { id, owner, historyId := some historyId, analysisKey, stage := .history }).getD s)
  | .history id lost closing => (s.rows.find? id).bind fun r =>
      if r.stage = .history then some (s.reserveHistory r lost closing) else none
  | .analysis id unbound closing => (s.rows.find? id).bind fun r =>
      if r.stage = .analysis then some (s.reserveAnalysis r unbound closing) else none
  | .admission id => (s.rows.find? id).bind fun r =>
      if r.stage = .admission then
        some (s.put (if s.accepting then { r with stage := .issued } else r.undo))
      else none
  | .giveBack id => (s.rows.find? id).bind s.giveNext
  | .release id => (s.rows.find? id).bind s.release
  | .attachProgress id execution => (s.rows.find? id).bind (s.attachProgress · execution)
  | .bindStopControl id stopping => (s.rows.find? id).bind (s.bindStopControl · stopping)
  | .operate id a => (s.rows.find? id).bind (s.operate · a)
  | .submit id => (s.rows.find? id).bind fun r =>
      if r.stage = .issued then some (s.put { r with submitted := true }) else none
  | .submitFailed id => (s.rows.find? id).bind fun r =>
      if r.submitted = true then some (s.put { r with submitted := false }) else none
  | .closeAdmission => some { s with accepting := false }

end Pool

/-- The threads of one process. -/
def capacity [DecidableEq ω] : System (Pool ω) (Label ω) where
  init := fun s => ∃ maxPerUser maxTotal, s = { maxPerUser, maxTotal }
  step := fun s e t => s.step e = some t

end ChatBI.Execution.Capacity
