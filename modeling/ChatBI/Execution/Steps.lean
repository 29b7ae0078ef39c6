import ChatBI.Execution.Begun

/-!
# What a step of a request can do

One case for every way in which the step of a request thread changes its call, the shared
resources and the store.
-/

namespace ChatBI.Execution

open ChatBI.Lib ChatBI.Store

/-- The thread holds the lock of its operation. -/
def Pc.active : Pc → Bool
  | .waiting | .done _ => false
  | _ => true

/-- The thread has found no execution of its operation and has not begun one. -/
def Pc.seeking : Pc → Bool
  | .header | .reserve _ | .reserveHistory _ | .reserveAnalysis _ | .reserveAdmission _
  | .begin _ => true
  | _ => false

def Pc.target : Pc → Option Target
  | .reserve t | .reserveHistory t | .reserveAnalysis t | .reserveAdmission t | .begin t => some t
  | _ => none

/-- The attempt that the thread has begun and not yet dispatched. -/
def Pc.pending : Pc → Option Accepted
  | .attach a | .read a | .bind a | .dispatch a => some a
  | _ => none

/-- The attempt that the thread still answers for. -/
def Pc.begun : Pc → Option Accepted
  | .attach a | .read a | .bind a | .dispatch a | .persistFailure a | .persistStop a _
  | .finishStop a _ => some a
  | _ => none

/-- A store call that accepts no execution. -/
inductive Quietly (codec : Codec) (store : State) : State → Prop
  | same : Quietly codec store store
  | op {op : Op} (quiet : op.accepts = false) (wellFormed : op.WellFormed store) :
      Quietly codec store (store.apply codec op)

/-- The steps of a thread that only move it on. -/
inductive Leads (codec : Codec) (s : Sys) (c : Call) : Pc → Prop
  | absent (pc : c.pc = .lookup) (none : ∀ e ∈ s.store.db.executions,
      ¬(e.ownerUserId = c.owner ∧ e.operationId = c.operationId)) : Leads codec s c .header
  | replay {e : ExecutionRow} (pc : c.pc = .lookup) (mem : e ∈ s.store.db.executions)
      (owner : e.ownerUserId = c.owner) (operation : e.operationId = c.operationId)
      (hash : e.requestHash = c.hash codec) : Leads codec s c (.view (viewed (record e)) .header)
  | target {t : Target} (pc : c.pc = .header) (fits : c.request.Fits t) : Leads codec s c (.reserve t)
  | noAnalysis {t : Target} (pc : c.pc = .reserveAnalysis t) (none : t.analysisRunId = none) :
      Leads codec s c (.reserveAdmission t)
  | admitted {t : Target} (pc : c.pc = .reserveAdmission t) : Leads codec s c (.begin t)
  | read {a : Accepted} (pc : c.pc = .read a) : Leads codec s c (.bind a)
  | dispatchFailed {a : Accepted} (pc : c.pc.pending = some a) : Leads codec s c (.persistFailure a)
  | stop {a : Accepted} {reason : ExecutionStopReason} (pc : c.pc = .persistFailure a) :
      Leads codec s c (.persistStop a reason)
  | stopped {a : Accepted} {reason reason' : ExecutionStopReason} (pc : c.pc = .persistStop a reason) :
      Leads codec s c (.finishStop a reason')
  | view {v : Viewed} {stage stage' : ViewStage} (pc : c.pc = .view v stage) :
      Leads codec s c (.view v stage')

/-- The store call of a step that raises. -/
inductive Called (codec : Codec) (s : Sys) (c : Call) (o : Oracle) : State → Prop
  | quiet {store : State} (call : Quietly codec s.store store) : Called codec s c o store
  | begin {t : Target} (pc : c.pc = .begin t) :
      Called codec s c o (s.store.apply codec (s.beginOp codec c t o))

inductive Stepped (codec : Codec) (s : Sys) (c : Call) (o : Oracle) : Sys → Prop
  | enter (pc : c.pc = .waiting)
      (free : (c.owner, c.operationId) ∉ s.runtime.operationLocks) :
      Stepped codec s c o { s with
        calls := s.calls.set { c with pc := .lookup }
        runtime := { s.runtime with
          operationLocks := (c.owner, c.operationId) :: s.runtime.operationLocks } }
  | refuse {e : Raised} (pc : c.pc = .waiting) :
      Stepped codec s c o { s with calls := s.calls.set { c with pc := .done (.error e) } }
  | advance {store : State} {pc : Pc} (leads : Leads codec s c pc)
      (call : Quietly codec s.store store) :
      Stepped codec s c o { s with store := store, calls := s.calls.set { c with pc := pc } }
  | fail {store : State} {e : Raised} (active : c.pc.active = true) (call : Called codec s c o store) :
      Stepped codec s c o (({ s with store := store } : Sys).fail c e)
  | answer {v : Viewed} (pc : c.pc = .view v .execution)
      (mem : ∃ e ∈ s.store.db.executions, e.id = v.executionId) :
      Stepped codec s c o (s.finish c (.ok v.executionId))
  | capacity {t : Target} {rt : Runtime} (pc : c.pc = .reserve t)
      (reserved : s.runtime.reserveOwner c.owner = .ok rt) :
      Stepped codec s c o { s with
        runtime := rt
        calls := s.calls.set { c with
          pc := .reserveHistory t
          lease := some { historyId := t.historyId, analysisRunId := t.analysisRunId
                          held := fun p => p = .capacity } } }
  | history {t : Target} {rt : Runtime} (pc : c.pc = .reserveHistory t)
      (reserved : s.runtime.reserveHistory o.pass t.historyId = .ok rt) :
      Stepped codec s c o { s with
        runtime := rt
        calls := s.calls.set { c with
          pc := .reserveAnalysis t, lease := c.lease.map (fun l => l.acquire .history) } }
  | analysis {t : Target} {run : Uuid} {rt : Runtime} (pc : c.pc = .reserveAnalysis t)
      (some_ : t.analysisRunId = some run)
      (reserved : s.runtime.reserveAnalysis o.pass (c.subject, run) = .ok rt) :
      Stepped codec s c o { s with
        runtime := rt
        calls := s.calls.set { c with
          pc := .reserveAdmission t, lease := c.lease.map (fun l => l.acquire .analysis) } }
  | existing {t : Target} {e : ExecutionRow} (pc : c.pc = .begin t)
      (mem : e ∈ s.store.db.executions) (owner : e.ownerUserId = c.owner)
      (operation : e.operationId = c.operationId) (hash : e.requestHash = c.hash codec) :
      Stepped codec s c o { s with
        calls := s.calls.set { c with
          pc := .view (viewed (record e)) .header, lease := c.lease.map Lease.release } }
  | created {t : Target} {i : Issue} {store : State} (pc : c.pc = .begin t)
      (call : store = s.store.apply codec (s.beginOp codec c t o)) (begun : BegunBy codec c t o i)
      (issued : store.issued = s.store.issued ++ [i]) :
      Stepped codec s c o { s with
        store := store
        calls := s.calls.set { c with
          pc := .attach ⟨o.executionId, i.token⟩, accepted := some ⟨o.executionId, i.token⟩ } }
  | attach {a : Accepted} (pc : c.pc = .attach a) (free : s.runtime.channels a.executionId = none) :
      Stepped codec s c o { s with
        runtime := s.runtime.attach c.id a.executionId
        calls := s.calls.set { c with
          pc := .read a
          lease := c.lease.map (fun l => (l.acquire .channel).bindTo a.executionId) } }
  | bind {a : Accepted} (pc : c.pc = .bind a) :
      Stepped codec s c o { s with
        runtime := s.runtime.bind c.id a.executionId
        calls := s.calls.set { c with
          pc := .dispatch a, lease := c.lease.map (fun l => l.acquire .control) } }
  | dispatch {a : Accepted} (pc : c.pc = .dispatch a) :
      Stepped codec s c o { s with
        calls := s.calls.set { c with
          pc := .view ⟨a.executionId, a.token.historyId, a.token.turnId⟩ .header
          lease := c.lease.map Lease.submit, worker := some .queued }
        dispatched := s.dispatched ++ [a.executionId] }

variable {codec : Codec} {s t' : Sys} {c : Call} {o : Oracle}

lemma Except.bind_ok {α β : Type} {x : Except Raised α} {f : α → Except Raised β} {b : β}
    (h : (x >>= f) = .ok b) : ∃ a, x = .ok a ∧ f a = .ok b := by
  cases x with
  | error e => cases h
  | ok a => exact ⟨a, rfl, h⟩

lemma Sys.perform_quietly {op : Op} (quiet : op.accepts = false) (wf : op.WellFormed s.store)
    (fate : Fate) : Quietly codec s.store (s.perform codec fate op) := by
  cases fate with
  | ok => exact .op quiet wf
  | lost => exact .op quiet wf
  | failed => exact .same
  | locked => exact .same

lemma Sys.reconcile_quietly (historyId : Uuid) :
    Quietly codec s.store (s.reconcile codec historyId o) := by
  unfold Sys.reconcile
  split_ifs
  · exact .same
  · have hwf : Op.WellFormed s.store (.reconcile o.now s.epoch historyId) := trivial
    exact Sys.perform_quietly rfl hwf o.fate

namespace Stepped

lemma goto {pc : Pc} (leads : Leads codec s c pc) : Stepped codec s c o (s.put { c with pc := pc }) :=
  .advance leads .same

lemma raise {e : Raised} (active : c.pc.active = true) : Stepped codec s c o (s.fail c e) :=
  .fail active (.quiet .same)

/-- The lookup finds the execution of the operation, a conflict, or nothing. -/
lemma lookup (pc : c.pc = .lookup) : Stepped codec s c o (s.lookup codec c o) := by
  have hactive : c.pc.active = true := by rw [pc]; rfl
  unfold Sys.lookup
  cases hask : s.ask o.fate (executionByOperation c.owner c.operationId (some (c.hash codec))) with
  | error e => exact raise hactive
  | ok found =>
    obtain ⟨-, db, htx⟩ := Sys.ask_eq_ok hask
    simp only [executionByOperation, Tx.read_bind_ok] at htx
    cases hfirst : s.store.db.executions.first (fun e =>
        e.ownerUserId = c.owner && e.operationId = c.operationId) with
    | none =>
      simp only [hfirst, Tx.pure_ok, Prod.mk.injEq] at htx
      rw [htx.1]
      refine goto (.absent pc (fun e he hkey => ?_))
      have := Table.first_none.mp hfirst e he
      simp [hkey.1, hkey.2] at this
    | some e =>
      simp only [hfirst, Tx.raiseIf_bind_ok, Tx.pure_ok, Prod.mk.injEq, not_and, ne_eq,
        not_not] at htx
      obtain ⟨hmem, hp⟩ := Table.first_some hfirst
      simp only [Bool.and_eq_true, decide_eq_true_eq] at hp
      have hhash := htx.1 rfl
      rw [Option.some.injEq] at hhash
      rw [htx.2.1]
      exact goto (.replay pc hmem hp.1 hp.2 hhash.symm)

/-- A header step ends with a target that fits the request. -/
lemma header (pc : c.pc = .header) : Stepped codec s c o (s.header c o) := by
  have hactive : c.pc.active = true := by rw [pc]; rfl
  unfold Sys.header
  cases htarget : s.target c o with
  | error e => exact raise hactive
  | ok t =>
    refine goto (.target pc ?_)
    unfold Sys.target at htarget
    cases hreq : c.request with
    | requery => trivial
    | submit historyId mode question contextRevision recordRevision =>
      rw [hreq] at htarget
      cases hpass : o.pass with
      | false =>
        rw [hpass] at htarget
        cases htarget
      | true =>
        rw [hpass] at htarget
        obtain ⟨h, -, hcheck⟩ := Except.bind_ok htarget
        obtain ⟨-, -, hreturn⟩ := Except.bind_ok hcheck
        cases hreturn
        exact ⟨rfl, rfl⟩

lemma acquire {rt : Except HistoryError Runtime} {p : Part} {pc : Pc} (active : c.pc.active = true)
    (h : ∀ rt', rt = .ok rt' → Stepped codec s c o { s with
      runtime := rt'
      calls := s.calls.set { c with pc := pc, lease := c.lease.map (fun l => l.acquire p) } }) :
    Stepped codec s c o (s.acquire c rt p pc) := by
  unfold Sys.acquire
  cases rt with
  | error e => exact raise active
  | ok rt' => exact h rt' rfl

/-- A begin whose answer is lost, a begin that fails, and one that is answered. -/
lemma begin {t : Target} (pc : c.pc = .begin t) (fits : c.request.Fits t) :
    Stepped codec s c o (s.begin codec c t o) := by
  have hactive : c.pc.active = true := by rw [pc]; rfl
  have hlost : ∀ e : Raised, o.fate ≠ .ok → s.begun codec c t o = .error e →
      Stepped codec s c o (s.begin codec c t o) := by
    intro e hfate hbegun
    unfold Sys.begin
    rw [hbegun]
    cases hf : o.fate with
    | ok => exact absurd hf hfate
    | lost => exact .fail hactive (.begin pc)
    | failed => exact raise hactive
    | locked => exact raise hactive
  have hunanswered : ∀ {α : Type} (tx : Tx α), o.fate ≠ .ok → ∃ e, s.ask o.fate tx = .error e := by
    intro α tx hfate
    cases hf : o.fate with
    | ok => exact absurd hf hfate
    | lost => exact ⟨_, rfl⟩
    | failed => exact ⟨_, rfl⟩
    | locked => exact ⟨_, rfl⟩
  by_cases hfate : o.fate = .ok
  · have hout := @Sys.begin_outcome codec s c t o fits hfate
    unfold Sys.begin Sys.perform
    rw [hfate]
    dsimp only
    generalize hstore : s.store.apply codec (s.beginOp codec c t o) = store at hout
    cases hbegun : s.begun codec c t o with
    | error e =>
      rw [hbegun] at hout
      cases hout with
      | raised _ same =>
        rw [same]
        exact raise hactive
    | ok r =>
      rw [hbegun] at hout
      cases hout with
      | existing mem owner operation hash same =>
        rw [same]
        exact .existing pc mem owner operation hash
      | created begun id issued =>
        dsimp only
        rw [id]
        exact .created pc hstore.symm begun issued
  · have hbegun : ∃ e, s.begun codec c t o = .error e := by
      unfold Sys.begun
      cases c.request with
      | submit historyId mode question contextRevision recordRevision =>
        obtain ⟨e, he⟩ := hunanswered (beginExecutionAttempt codec o.now c.owner historyId
          (if mode = .query then question.getD "" else t.question) c.operationId (c.hash codec)
          contextRevision c.requestId s.epoch mode
          (if mode = .query then .query else .analysisResume) t.deadlineSeconds recordRevision
          o.turnId o.executionId) hfate
        dsimp only
        rw [he]
        exact ⟨e, rfl⟩
      | requery sourceKind sourceId sourceTurnId =>
        obtain ⟨e, he⟩ := hunanswered (beginRequery codec o.now c.owner sourceKind sourceId
          sourceTurnId c.operationId c.requestId s.epoch t.historyId o.turnId o.runId
          (some (c.executionData codec t sourceKind o)) acceptAlways) hfate
        dsimp only
        rw [he]
        exact ⟨e, rfl⟩
    obtain ⟨e, he⟩ := hbegun
    exact hlost e hfate he

lemma view {v : Viewed} {stage : ViewStage} (pc : c.pc = .view v stage) :
    Stepped codec s c o (s.view codec c v o stage) := by
  have hactive : c.pc.active = true := by rw [pc]; rfl
  have hnext : ∀ stage' store, Quietly codec s.store store → Stepped codec s c o
      { s with store := store, calls := s.calls.set { c with pc := .view v stage' } } :=
    fun stage' store call => .advance (.view pc) call
  cases stage with
  | header =>
    dsimp only [Sys.view]
    split_ifs
    · exact raise hactive
    · split
      · exact raise hactive
      · exact hnext .reconcile s.store .same
  | reconcile =>
    dsimp only [Sys.view]
    split_ifs
    · exact raise hactive
    · exact hnext .headerAgain _ (Sys.reconcile_quietly v.historyId)
  | headerAgain =>
    dsimp only [Sys.view]
    split
    · exact raise hactive
    · exact hnext .turn s.store .same
  | turn =>
    dsimp only [Sys.view]
    split_ifs
    · exact raise hactive
    · split
      · exact raise hactive
      · exact hnext .execution s.store .same
  | execution =>
    dsimp only [Sys.view]
    cases hask : s.ask o.fate (execution c.owner v.executionId) with
    | error e => exact raise hactive
    | ok r =>
      obtain ⟨-, db, htx⟩ := Sys.ask_eq_ok hask
      simp only [Store.execution, Tx.read_bind_ok, Tx.orRaise_bind_ok, Tx.pure_ok,
        Prod.mk.injEq] at htx
      obtain ⟨e, hfirst, hr, -⟩ := htx
      obtain ⟨hmem, hp⟩ := Table.first_some hfirst
      simp only [Bool.and_eq_true, decide_eq_true_eq] at hp
      have hid : r.id = v.executionId := by
        rw [hr, ← hp.1]
        rfl
      dsimp only
      rw [hid]
      exact .answer pc ⟨e, hmem, hp.1⟩

end Stepped

/-- Every step of a request thread is one of the cases. -/
theorem Sys.step_cases (fits : ∀ t, c.pc.target = some t → c.request.Fits t)
    (own : ∀ a, c.pc.begun = some a → OwnExecution s.store.db a.token (some a.executionId))
    (h : s.step codec c o = some t') : Stepped codec s c o t' := by
  unfold Sys.step at h
  cases hpc : c.pc with
  | waiting =>
    simp only [hpc, Sys.enter] at h
    split_ifs at h with hfree hpass <;> cases h
    · exact .enter hpc hfree
    · exact .refuse hpc
  | done => rw [hpc] at h; cases h
  | lookup => rw [hpc] at h; cases h; exact .lookup hpc
  | header => rw [hpc] at h; cases h; exact .header hpc
  | reserve t =>
    rw [hpc] at h
    cases h
    unfold Sys.reserve
    split_ifs
    · exact .raise (by rw [hpc]; rfl)
    · cases hreserve : s.runtime.reserveOwner c.owner with
      | error e => exact .raise (by rw [hpc]; rfl)
      | ok rt => exact .capacity hpc hreserve
  | reserveHistory t =>
    rw [hpc] at h
    cases h
    exact .acquire (by rw [hpc]; rfl) (fun rt' hrt => .history hpc hrt)
  | reserveAnalysis t =>
    rw [hpc] at h
    cases h
    unfold Sys.reserveAnalysis
    cases hrun : t.analysisRunId with
    | none => exact .goto (.noAnalysis hpc hrun)
    | some run => exact .acquire (by rw [hpc]; rfl) (fun rt' hrt => .analysis hpc hrun hrt)
  | reserveAdmission t =>
    rw [hpc] at h
    cases h
    unfold Sys.reserveAdmission
    split_ifs
    · exact .goto (.admitted hpc)
    · exact .raise (by rw [hpc]; rfl)
  | begin t =>
    rw [hpc] at h
    cases h
    exact .begin hpc (fits t (by rw [hpc]; rfl))
  | attach a =>
    rw [hpc] at h
    cases h
    unfold Sys.attach
    split_ifs with hfail
    · exact .goto (.dispatchFailed (by rw [hpc]; rfl))
    · exact .attach hpc (not_not.mp (not_or.mp hfail).2)
  | read a =>
    rw [hpc] at h
    cases h
    unfold Sys.read
    split
    · exact .goto (.dispatchFailed (by rw [hpc]; rfl))
    · exact .goto (.read hpc)
  | bind a =>
    rw [hpc] at h
    cases h
    unfold Sys.bind
    split_ifs
    · exact .goto (.dispatchFailed (by rw [hpc]; rfl))
    · exact .bind hpc
  | dispatch a =>
    rw [hpc] at h
    cases h
    unfold Sys.dispatch
    split_ifs
    · exact .goto (.dispatchFailed (by rw [hpc]; rfl))
    · exact .dispatch hpc
  | persistFailure a =>
    rw [hpc] at h
    cases h
    have hown : Op.WellFormed s.store (.finishAttempt o.now c.owner a.token none
        (some (c.publicError .executionUnavailable "执行启动失败，请刷新后查看状态"))
        (some a.executionId)) := own a (by rw [hpc]; rfl)
    have hcall := @Sys.perform_quietly codec s _ rfl hown o.fate
    dsimp only [Sys.persistFailure]
    split
    · exact .advance (.stop hpc) hcall
    · exact .fail (by rw [hpc]; rfl) (.quiet hcall)
    · exact .fail (by rw [hpc]; rfl) (.quiet hcall)
    · exact .fail (by rw [hpc]; rfl) (.quiet hcall)
  | persistStop a reason =>
    rw [hpc] at h
    cases h
    have hwf : Op.WellFormed s.store (.requestStop o.now c.owner a.executionId reason none) :=
      trivial
    have hcall := @Sys.perform_quietly codec s _ rfl hwf o.fate
    dsimp only [Sys.persistStop]
    split
    · exact .fail (by rw [hpc]; rfl) (.quiet hcall)
    · split_ifs
      · exact .advance (.stopped hpc) hcall
      · exact .fail (by rw [hpc]; rfl) (.quiet hcall)
  | finishStop a reason =>
    rw [hpc] at h
    cases h
    have hwf : ∀ status error, Op.WellFormed s.store
        (.finishStopped o.now c.owner a.token a.executionId status error) :=
      fun _ _ => trivial
    exact .fail (by rw [hpc]; rfl) (.quiet (Sys.perform_quietly rfl (hwf _ _) o.fate))
  | view v stage =>
    rw [hpc] at h
    cases h
    exact .view hpc

/-! ### Events -/

/-- What an event can do. -/
inductive Moved (codec : Codec) (s : Sys) (ev : Event) : Sys → Prop
  | call {c : Call} {calls : Table Call.id} (id : c.id = s.nextCall) (pc : c.pc = .waiting)
      (lease : c.lease = none) (accepted : c.accepted = none) (worker : c.worker = none)
      (rows : calls.rows = s.calls.rows ++ [c]) :
      Moved codec s ev { s with calls := calls, nextCall := s.nextCall + 1 }
  | thread {c : Call} {o : Oracle} {t : Sys} (event : ev = .step c.id o) (mem : c ∈ s.calls)
      (fresh : s.store.Unused o.executionId) (step : Stepped codec s c o t) : Moved codec s ev t
  | store {store : State} (call : Quietly codec s.store store) :
      Moved codec s ev { s with store := store }
  | workStart {c : Call} (mem : c ∈ s.calls) (queued : c.worker = some .queued) :
      Moved codec s ev (s.put { c with worker := some .running })
  | workReturn {c : Call} (mem : c ∈ s.calls) (running : c.worker = some .running) :
      Moved codec s ev (s.put { c with worker := some .returned, lease := c.lease.map Lease.release })
  | drop {c : Call} {l : Lease} {p : Part} (mem : c ∈ s.calls) (lease : c.lease = some l)
      (released : l.released = true) (held : l.held p = true) :
      Moved codec s ev { s with
        runtime := s.runtime.give c.id c.owner c.subject l p
        calls := s.calls.set { c with lease := some (l.drop p) } }
  | close : Moved codec s ev { s with runtime := { s.runtime with accepting := false } }
  | restart (now : Timestamp) (epoch : Uuid) :
      Moved codec s ev { s with
        store := s.store.apply codec (.restart now epoch), epoch := epoch, calls := Table.empty
        runtime := { maxPerUser := s.runtime.maxPerUser, maxTotal := s.runtime.maxTotal } }

/-- What a state must know of its calls for its events to be among the moves. -/
structure Grounded (s : Sys) : Prop where
  fits : ∀ c ∈ s.calls, ∀ t, c.pc.target = some t → c.request.Fits t
  begun : ∀ c ∈ s.calls, ∀ a, c.pc.begun = some a → c.accepted = some a
  own : ∀ c ∈ s.calls, ∀ a, c.accepted = some a →
    OwnExecution s.store.db a.token (some a.executionId)

/-- Every event is a move. -/
theorem Sys.next_cases {e : Event} (g : Grounded s) (wf : e.WellFormed s)
    (h : s.next codec e = some t') : Moved codec s e t' := by
  have hfind : ∀ {callId : CallId} {f : Call → Option Sys},
      (s.calls.find? callId >>= f) = some t' → ∃ c ∈ s.calls, c.id = callId ∧ f c = some t' := by
    intro callId f hbind
    obtain ⟨c, hc, hf⟩ := Option.bind_eq_some_iff.mp hbind
    obtain ⟨hmem, hid⟩ := Table.find?_eq_some_iff.mp hc
    exact ⟨c, hmem, hid, hf⟩
  cases e with
  | call owner subject requestId operationId request =>
    obtain ⟨calls, hinsert, rfl⟩ := Option.map_eq_some_iff.mp h
    exact .call rfl rfl rfl rfl rfl (Table.insert?_some hinsert).1
  | step callId o =>
    obtain ⟨c, hc, hid, hstep⟩ := hfind h
    refine .thread (by rw [hid]) hc wf (Sys.step_cases (g.fits c hc) (fun a ha => ?_) hstep)
    exact g.own c hc a (g.begun c hc a ha)
  | workStart callId =>
    obtain ⟨c, hc, -, hstart⟩ := hfind h
    split_ifs at hstart with hqueued
    cases hstart
    exact .workStart hc hqueued
  | work callId w o =>
    obtain ⟨c, hc, -, hwork⟩ := hfind h
    obtain ⟨a, ha, hcall⟩ := Option.bind_eq_some_iff.mp hwork
    split_ifs at hcall with hrunning
    cases hcall
    have hwf : (w.op c o.now a).WellFormed s.store := by
      cases w with
      | finish => exact g.own c hc a ha
      | markRunning => trivial
      | persistStop => trivial
      | finishStopped => trivial
    have hquiet : (w.op c o.now a).accepts = false := by
      cases w <;> rfl
    exact .store (Sys.perform_quietly hquiet hwf o.fate)
  | workReturn callId =>
    obtain ⟨c, hc, -, hreturn⟩ := hfind h
    split_ifs at hreturn with hrunning
    cases hreturn
    exact .workReturn hc hrunning
  | drop callId p =>
    obtain ⟨c, hc, hid, hdrop⟩ := hfind h
    obtain ⟨l, hl, hgive⟩ := Option.bind_eq_some_iff.mp hdrop
    split_ifs at hgive with hheld
    cases hgive
    obtain ⟨hreleased, hheld⟩ := Bool.and_eq_true_iff.mp hheld
    rw [← hid]
    exact .drop hc hl hreleased hheld
  | read historyId o =>
    cases h
    exact .store (Sys.reconcile_quietly historyId)
  | other op fate =>
    simp only [Sys.next] at h
    split_ifs at h with hother
    cases h
    have hquiet : op.accepts = false := by
      cases op <;> simp_all [Op.isOther, Op.accepts]
    exact .store (Sys.perform_quietly hquiet wf fate)
  | closeAdmission =>
    cases h
    exact .close
  | restart now epoch =>
    cases h
    exact .restart now epoch

end ChatBI.Execution
