import ChatBI.Execution.Application
import ChatBI.Store.Extension

/-!
# What a request begins

The store transactions of a request and of its worker as steps of the store. The begin of a
request either accepts one execution, under the request's operation and digest, or leaves the
store as it was.
-/

namespace ChatBI.Execution

open ChatBI.Lib ChatBI.Store

/-- A request starts from its own history or from a new one. -/
def Request.Fits : Request → Target → Prop
  | .submit historyId mode _ _ _, t => t.historyId = historyId ∧ t.mode = mode
  | .requery .., _ => True

/-- The history that an attempt of the request belongs to. -/
def Request.Opens : Request → Issue → Prop
  | .submit historyId .., i => i.token.historyId = historyId ∧ i.origin = .attempt
  | .requery .., i => i.origin ≠ .attempt

/-- The attempt that the begin of a call issues. -/
structure BegunBy (codec : Codec) (c : Call) (t : Target) (o : Oracle) (i : Issue) : Prop where
  owner : i.owner = c.owner
  operation : i.operationId = c.operationId
  history : i.token.historyId = t.historyId
  opens : c.request.Opens i
  execution : i.execution = some (o.executionId, c.hash codec)

variable {codec : Codec} {s : Sys} {c : Call} {t : Target} {o : Oracle}

/-- The outcomes of the begin of a call that reaches the store: it raises, it finds the
execution of the operation, or it issues one attempt. -/
inductive BeginOutcome (codec : Codec) (store : State) (c : Call) (t : Target) (o : Oracle)
    (store' : State) : Except Raised (ExecutionRecord × Option ExecutionToken) → Prop
  | raised (e : Raised) (same : store' = store) : BeginOutcome codec store c t o store' (.error e)
  | existing {e : ExecutionRow} (mem : e ∈ store.db.executions) (owner : e.ownerUserId = c.owner)
      (operation : e.operationId = c.operationId) (hash : e.requestHash = c.hash codec)
      (same : store' = store) : BeginOutcome codec store c t o store' (.ok (record e, none))
  | created {i : Issue} {r : ExecutionRecord} (begun : BegunBy codec c t o i)
      (id : r.id = o.executionId) (issued : store'.issued = store.issued ++ [i]) :
      BeginOutcome codec store c t o store' (.ok (r, some i.token))

lemma Sys.ask_eq_ok {α : Type} {tx : Tx α} {fate : Fate} {a : α} (h : s.ask fate tx = .ok a) :
    fate = .ok ∧ ∃ db, tx s.store.db = .ok (a, db) := by
  cases fate with
  | ok =>
    refine ⟨rfl, ?_⟩
    rcases Tx.commit_cases tx s.store.db with ⟨b, db, hok, hcommit⟩ | ⟨e, -, hcommit⟩ <;>
      simp only [Sys.ask, hcommit] at h <;> cases h
    exact ⟨db, hok⟩
  | lost => cases h
  | failed => cases h
  | locked => cases h

lemma Sys.ask_ok {α : Type} {tx : Tx α} {a : α} {db : Db} (h : tx s.store.db = .ok (a, db)) :
    s.ask .ok tx = .ok a := by
  simp only [Sys.ask, Tx.commit, h]

lemma Sys.ask_error {α : Type} {tx : Tx α} {e : Raised} (h : tx s.store.db = .error e) :
    s.ask .ok tx = .error e := by
  simp only [Sys.ask, Tx.commit, h]

/-- The begin of a call accepts one execution or changes nothing. -/
theorem Sys.begin_outcome (fits : c.request.Fits t) (hfate : o.fate = .ok) :
    BeginOutcome codec s.store c t o (s.store.apply codec (s.beginOp codec c t o))
      (s.begun codec c t o) := by
  unfold Sys.begun Sys.beginOp
  rw [hfate]
  cases hreq : c.request with
  | submit historyId mode question contextRevision recordRevision =>
    rw [hreq] at fits
    obtain ⟨hhist, -⟩ := fits
    dsimp only
    generalize (if mode = .query then question.getD "" else t.question) = text
    generalize (if mode = .query then OperationKind.query else .analysisResume) = kind
    rcases @State.apply_answer codec s.store (.beginExecutionAttempt o.now c.owner historyId text
        c.operationId (c.hash codec) contextRevision c.requestId s.epoch mode kind
        t.deadlineSeconds recordRevision o.turnId o.executionId) _ _ _ rfl with
      ⟨r, db, hok, happly⟩ | ⟨⟨e, herr⟩, happly⟩
    · rw [Sys.ask_ok hok, happly]
      rcases beginExecutionAttempt_ok hok with ⟨e, he, hhash, rfl, rfl⟩ |
        ⟨-, h, u, e, a, opened, hid, -, -, -, heid, hehash, rfl, htoken, -⟩
      · obtain ⟨hmem, howner, hop⟩ := executionOf_some he
        rw [Option.bind_none, Option.toList_none, List.append_nil]
        exact .existing hmem howner hop hhash rfl
      · simp only [AcceptedAttempt.issue, htoken, Option.bind_some, Option.map_some,
          Option.toList_some]
        have hhistory : u.token.historyId = historyId := opened.opens.history.trans hid
        have hbegun : BegunBy codec c t o ⟨c.owner, c.operationId, u.token, a.baseState, .attempt,
            some ((record e).id, c.hash codec)⟩ := by
          refine ⟨rfl, rfl, hhistory.trans hhist.symm, ?_, congrArg (fun x => some (x, _)) heid⟩
          rw [hreq]
          exact ⟨hhistory, rfl⟩
        show BeginOutcome codec s.store c t o _
          (.ok (record e, a.token))
        rw [htoken]
        exact .created hbegun heid rfl
    · rw [Sys.ask_error herr]
      exact .raised e happly
  | requery sourceKind sourceId sourceTurnId =>
    dsimp only
    rcases @State.apply_answer codec s.store (.beginRequery o.now c.owner sourceKind sourceId
        sourceTurnId c.operationId c.requestId s.epoch t.historyId o.turnId o.runId
        (some (c.executionData codec t sourceKind o)) acceptAlways) _ _ _ rfl with
      ⟨r, db, hok, happly⟩ | ⟨⟨e, herr⟩, happly⟩
    · rw [Sys.ask_ok hok, happly]
      rcases beginRequery_ok hok with ⟨rfl, hcreated, htoken, hexisting⟩ | ⟨-, -, hopen⟩
      · obtain ⟨e, he, hhash, hexec⟩ := hexisting _ rfl
        obtain ⟨hmem, howner, hop⟩ := executionOf_some he
        simp only [AcceptedAttempt.issue, htoken, Option.map_none, Option.toList_none,
          List.append_nil]
        dsimp only [Bind.bind, Except.bind]
        rw [hexec, hcreated]
        exact .existing hmem howner hop hhash rfl
      · obtain ⟨h, histories, u, execution, snapshot, created, opened, -, -, -, hcreated, hexec,
          hsome, hnone, htoken, -, -⟩ := openRequery_ok hopen
        cases execution with
        | none => cases hnone rfl
        | some e =>
          obtain ⟨data, hdata, heid, hehash⟩ := hsome e rfl
          cases hdata
          simp only [AcceptedAttempt.issue, htoken, Option.map_some, Option.toList_some]
          have hbegun : BegunBy codec c t o ⟨c.owner, c.operationId, u.token, r.attempt.baseState,
              .requery (s.store.db.sourceSnapshot sourceKind sourceId sourceTurnId),
              some (o.executionId, c.hash codec)⟩ := by
            refine ⟨rfl, rfl, opened.opens.history.trans created.id, ?_, rfl⟩
            rw [hreq]
            exact Origin.noConfusion
          dsimp only [Bind.bind, Except.bind]
          rw [hexec, hcreated]
          show BeginOutcome codec s.store c t o _ (.ok (record e, r.attempt.token))
          rw [htoken]
          exact .created hbegun heid rfl
    · rw [Sys.ask_error herr]
      exact .raised e happly

end ChatBI.Execution
