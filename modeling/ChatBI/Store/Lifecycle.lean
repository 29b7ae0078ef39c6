import ChatBI.Lib.Transition
import ChatBI.Store.Evolution
import ChatBI.Store.Records

/-!
# The store as a transition system

The serialized transactions of the store and of the history runtime in any order, together
with a record of every attempt that they issued: its token, its execution and the base
state it was given.
-/

namespace ChatBI.Store

open ChatBI.Lib Relation

/-- A transaction with its arguments; the identifiers that `uuid4` draws are arguments. -/
inductive Op
  | create (now : Timestamp) (owner : Owner) (kind : HistoryKind) (question : String)
      (operationId newId runId : Uuid)
  | beginAttempt (now : Timestamp) (owner : Owner) (historyId : Uuid) (question : String)
      (operationId : Uuid) (revision : ℕ) (requestId : String) (epoch turnId : Uuid)
      (beforeAccept : HistoryKind → Except Raised Unit)
  | beginAnalysisAttempt (now : Timestamp) (owner : Owner) (historyId operationId : Uuid)
      (revision : ℕ) (requestId : String) (epoch turnId : Uuid)
      (beforeAccept : HistoryKind → Except Raised Unit)
  | beginExecutionAttempt (now : Timestamp) (owner : Owner) (historyId : Uuid) (question : String)
      (operationId : Uuid) (requestHash : Digest) (revision : Option ℕ) (requestId : String)
      (epoch : Uuid) (mode : HistoryKind) (operationKind : OperationKind) (deadlineSeconds : ℕ)
      (expectedRecordRevision : Option ℕ) (turnId executionId : Uuid)
  | beginRequery (now : Timestamp) (owner : Owner) (sourceKind : SourceKind) (sourceId : Uuid)
      (sourceTurnId : Option Uuid) (operationId : Uuid) (requestId : String)
      (epoch newId turnId runId : Uuid) (executionData : Option ExecutionData)
      (beforeAccept : HistoryKind → Except Raised Unit)
  | markRunning (now : Timestamp) (owner : Owner) (executionId : Uuid)
  | requestStop (now : Timestamp) (owner : Owner) (executionId : Uuid)
      (reason : ExecutionStopReason) (analysisOwnerSubject : Option String)
  | finishAttempt (now : Timestamp) (owner : Owner) (token : ExecutionToken)
      (snapshot : Option Json) (error : Option PublicError) (executionId : Option Uuid)
  | finishStopped (now : Timestamp) (owner : Owner) (token : ExecutionToken) (executionId : Uuid)
      (status : StopStatus) (error : PublicError)
  | reconcile (now : Timestamp) (epoch historyId : Uuid)
  | restart (now : Timestamp) (epoch : Uuid)
  | rename (now : Timestamp) (owner : Owner) (historyId : Uuid) (title : String) (revision : ℕ)
  | delete (now : Timestamp) (owner : Owner) (historyId : Uuid) (revision : ℕ)
      (ownerSubject : String)
  | copyResult (now : Timestamp) (owner : Owner) (historyId turnId : Uuid) (title : String)
      (newId : Uuid)
  | renameSaved (now : Timestamp) (owner : Owner) (resultId : Uuid) (title : String) (revision : ℕ)
  | deleteSaved (owner : Owner) (resultId : Uuid) (revision : ℕ)

/-- Where the base state of an attempt comes from. -/
inductive Origin
  | attempt
  | requery (snapshot : Option Json)

/-- An attempt that a transaction issued. -/
structure Issue where
  owner : Owner
  operationId : Uuid
  token : ExecutionToken
  baseState : Option Json
  origin : Origin
  execution : Option (Uuid × Digest) := none

/-- The issue of an accepted attempt; a replay issues nothing. -/
def AcceptedAttempt.issue (a : AcceptedAttempt) (owner : Owner) (operationId : Uuid)
    (origin : Origin) (execution : Option (Uuid × Digest)) : Option Issue :=
  a.token.map (fun token => ⟨owner, operationId, token, a.baseState, origin, execution⟩)

/-- The transaction that an operation runs, with the attempt it issues. -/
def Op.tx (codec : Codec) (db : Db) : Op → Tx (Option Issue)
  | .create now owner kind question operationId newId runId => do
    let _ ← ChatBI.Store.create codec now owner kind question operationId newId runId
    return none
  | .beginAttempt now owner historyId question operationId revision requestId epoch turnId
      beforeAccept => do
    let a ← ChatBI.Store.beginAttempt codec now owner historyId question operationId revision
      requestId epoch turnId beforeAccept
    return a.issue owner operationId .attempt none
  | .beginAnalysisAttempt now owner historyId operationId revision requestId epoch turnId
      beforeAccept => do
    let a ← ChatBI.Store.beginAnalysisAttempt codec now owner historyId operationId revision
      requestId epoch turnId beforeAccept
    return a.issue owner operationId .attempt none
  | .beginExecutionAttempt now owner historyId question operationId requestHash revision requestId
      epoch mode operationKind deadlineSeconds expectedRecordRevision turnId executionId => do
    let r ← ChatBI.Store.beginExecutionAttempt codec now owner historyId question operationId
      requestHash revision requestId epoch mode operationKind deadlineSeconds
      expectedRecordRevision turnId executionId
    return r.attempt.bind (fun a =>
      a.issue owner operationId .attempt (some (r.execution.id, requestHash)))
  | .beginRequery now owner sourceKind sourceId sourceTurnId operationId requestId epoch newId
      turnId runId executionData beforeAccept => do
    let r ← ChatBI.Store.beginRequery codec now owner sourceKind sourceId sourceTurnId operationId
      requestId epoch newId turnId runId executionData beforeAccept
    return r.attempt.issue owner operationId
      (.requery (db.sourceSnapshot sourceKind sourceId sourceTurnId))
      (executionData.map (fun data => (data.executionId, data.requestHash)))
  | .markRunning now owner executionId => do
    markExecutionRunning now owner executionId
    return none
  | .requestStop now owner executionId reason analysisOwnerSubject => do
    let _ ← requestExecutionStop codec now owner executionId reason analysisOwnerSubject
    return none
  | .finishAttempt now owner token snapshot error executionId => do
    let _ ← ChatBI.Store.finishAttempt now owner token snapshot error executionId
    return none
  | .finishStopped now owner token executionId status error => do
    let _ ← finishExecutionStopped now owner token executionId status error
    return none
  | .reconcile now epoch historyId => do
    ChatBI.Store.reconcile now epoch historyId
    return none
  | .restart now epoch => do
    startRuntime now epoch
    return none
  | .rename now owner historyId title revision => do
    let _ ← renameHistory now owner historyId title revision
    return none
  | .delete now owner historyId revision ownerSubject => do
    deleteHistory codec now owner historyId revision ownerSubject
    return none
  | .copyResult now owner historyId turnId title newId => do
    let _ ← ChatBI.Store.copyResult codec now owner historyId turnId title newId
    return none
  | .renameSaved now owner resultId title revision => do
    let _ ← renameSavedResult now owner resultId title revision
    return none
  | .deleteSaved owner resultId revision => do
    deleteSavedResult owner resultId revision
    return none

/-- The operations that may accept an execution. -/
def Op.accepts : Op → Bool
  | .beginExecutionAttempt .. => true
  | .beginRequery _ _ _ _ _ _ _ _ _ _ _ executionData _ => executionData.isSome
  | _ => false

/-- The operations that accept no execution, reconcile nothing and start no process. -/
def Op.isOther (op : Op) : Bool :=
  match op with
  | .reconcile .. | .restart .. => false
  | _ => !op.accepts

structure State where
  db : Db := {}
  issued : List Issue := []

/-- The state after the commit or the rollback of an operation. -/
def State.apply (codec : Codec) (s : State) (op : Op) : State :=
  match (op.tx codec s.db).commit s.db with
  | (.ok issue, db) => { db := db, issued := s.issued ++ issue.toList }
  | (.error _, db) => { s with db := db }

/-- No execution of this identifier was issued before. -/
def State.Unused (s : State) (executionId : Uuid) : Prop :=
  ∀ i ∈ s.issued, i.execution.map Prod.fst ≠ some executionId

/-- What the callers guarantee: `uuid4` draws an unused execution identifier, and a turn that
has an execution is finished with it. -/
def Op.WellFormed (s : State) : Op → Prop
  | .beginExecutionAttempt _ _ _ _ _ _ _ _ _ _ _ _ _ _ executionId => s.Unused executionId
  | .beginRequery _ _ _ _ _ _ _ _ _ _ _ executionData _ =>
    ∀ data ∈ executionData, s.Unused data.executionId
  | .finishAttempt _ _ token _ _ executionId => OwnExecution s.db token executionId
  | _ => True

instance (s : State) (executionId : Uuid) : Decidable (s.Unused executionId) := by
  unfold State.Unused
  infer_instance

instance (s : State) (op : Op) : Decidable (op.WellFormed s) := by
  cases op <;> unfold Op.WellFormed <;> infer_instance

/-- The store: one committed or rolled back transaction after the other. -/
def system (codec : Codec) : System State Op where
  init s := s = {}
  step s op s' := op.WellFormed s ∧ s' = s.apply codec op

/-! ### What a step can do -/

/-- The issue `i` records the turn `t` and its execution. -/
structure Issue.For (i : Issue) (t : TurnRow) (execution : Option ExecutionRow) : Prop where
  token : i.token = t.token
  execution : i.execution = execution.map (fun e => (e.id, e.requestHash))

/-- The moves of the store: nothing is opened, a history is created, or one turn is opened
and issued, in an existing history or in the one that a re-query creates. -/
inductive Move (s : State) : State → Prop
  | settle {db : Db} (f : Settles s.db db) : Move s { s with db := db }
  | create {owner : Owner} {operationId newId : Uuid} {h : HistoryRow}
      {histories : Table HistoryRow.id} (c : Created s.db owner operationId newId h histories) :
      Move s { s with db := { s.db with histories := histories } }
  | attempt {db : Db} {h : HistoryRow} {t : TurnRow} {execution : Option ExecutionRow} {i : Issue}
      (o : Opened s.db db i.owner i.operationId h t execution) (records : i.For t execution)
      (origin : i.origin = .attempt) (baseState : i.baseState = s.db.baseState h)
      (fresh : ∀ e, execution = some e → s.Unused e.id) :
      Move s { db := db, issued := s.issued ++ [i] }
  | requery {db : Db} {newId : Uuid} {h : HistoryRow} {histories : Table HistoryRow.id}
      {t : TurnRow} {execution : Option ExecutionRow} {i : Issue} {source : Option Json}
      (c : Created s.db i.owner i.operationId newId h histories)
      (o : Opened { s.db with histories := histories } db i.owner i.operationId h t execution)
      (records : i.For t execution) (origin : i.origin = .requery source)
      (baseState : h.kind = .query → i.baseState = source.bind (fun x => x.get? "query_state"))
      (fresh : ∀ e, execution = some e → s.Unused e.id) :
      Move s { db := db, issued := s.issued ++ [i] }

variable {codec : Codec} {s s' : State} {op : Op}

lemma Move.refl (s : State) : Move s s := .settle .refl

/-- A committed operation and a rolled back one. -/
lemma State.apply_cases (codec : Codec) (s : State) (op : Op) :
    (∃ issue db, op.tx codec s.db s.db = .ok (issue, db) ∧
      s.apply codec op = { db := db, issued := s.issued ++ issue.toList }) ∨
    s.apply codec op = s := by
  unfold State.apply
  rcases Tx.commit_cases (op.tx codec s.db) s.db with ⟨issue, db, hok, hcommit⟩ | ⟨e, -, hcommit⟩
  · exact .inl ⟨issue, db, hok, by rw [hcommit]⟩
  · exact .inr (by rw [hcommit])

/-- The transaction of an operation and what it issues from the answer. -/
lemma State.apply_answer {α : Type} {tx : Tx α} {issue : α → Option Issue}
    (htx : op.tx codec s.db = (do let a ← tx; return issue a)) :
    (∃ a db, tx s.db = .ok (a, db) ∧
      s.apply codec op = { db := db, issued := s.issued ++ (issue a).toList }) ∨
    (∃ e, tx s.db = .error e) ∧ s.apply codec op = s := by
  unfold State.apply
  rw [htx]
  cases h : tx s.db with
  | error e =>
    refine .inr ⟨⟨e, rfl⟩, ?_⟩
    simp only [Tx.commit, Bind.bind, StateT.bind, Except.bind, h]
  | ok r =>
    refine .inl ⟨r.1, r.2, rfl, ?_⟩
    simp only [Tx.commit, Bind.bind, StateT.bind, Except.bind, h]
    rfl

/-- An operation that issues nothing and opens nothing. -/
lemma Move.of_settles {α : Type} {tx : Tx α} {issue : Option Issue} {db : Db}
    (hok : (tx >>= fun _ => pure none : Tx (Option Issue)) s.db = .ok (issue, db))
    (settles : ∀ a db', tx s.db = .ok (a, db') → Settles s.db db') :
    Move s { db := db, issued := s.issued ++ issue.toList } := by
  obtain ⟨a, db', htx, hpure⟩ := Tx.bind_ok.mp hok
  simp only [Tx.pure_ok, Prod.mk.injEq] at hpure
  obtain ⟨rfl, rfl⟩ := hpure
  rw [Option.toList_none, List.append_nil]
  exact .settle (settles a db htx)

/-- An attempt without an execution. -/
lemma Move.of_begin {now : Timestamp} {owner : Owner} {historyId : Uuid} {question : String}
    {operationId : Uuid} {revision : ℕ} {requestId : String} {epoch : Uuid} {digest : Digest}
    {turnId : Uuid} {beforeAccept : HistoryKind → Except Raised Unit} {a : AcceptedAttempt}
    {db : Db} (hok : beginTurn codec now owner historyId question operationId revision requestId
      epoch digest turnId beforeAccept s.db = .ok (a, db)) :
    Move s { db := db,
             issued := s.issued ++ (a.issue owner operationId .attempt none).toList } := by
  rcases beginTurn_ok hok with ⟨htoken, rfl⟩ | ⟨h, t, o, -, -, -, htoken, -, hbase, -⟩
  · simp only [AcceptedAttempt.issue, htoken, Option.map_none, Option.toList_none, List.append_nil]
    exact .refl s
  · simp only [AcceptedAttempt.issue, htoken, Option.map_some, Option.toList_some]
    refine .attempt o ⟨rfl, rfl⟩ rfl hbase (fun e he => ?_)
    cases he

/-- Every step of the store from a consistent database is a move. -/
theorem step_move (C : Consistent s.db) (h : (system codec).step s op s') : Move s s' := by
  obtain ⟨hwf, rfl⟩ := h
  rcases s.apply_cases codec op with ⟨issue, db, hok, happly⟩ | happly
  · rw [happly]
    cases op with
    | create now owner kind question operationId newId runId =>
      obtain ⟨a, db', htx, hpure⟩ := Tx.bind_ok.mp hok
      simp only [Tx.pure_ok, Prod.mk.injEq] at hpure
      obtain ⟨rfl, rfl⟩ := hpure
      rw [Option.toList_none, List.append_nil]
      rcases create_ok htx with rfl | ⟨h, histories, c, rfl⟩
      · exact .refl s
      · exact .create c
    | beginAttempt now owner historyId question operationId revision requestId epoch turnId accept =>
      obtain ⟨a, db', htx, hpure⟩ := Tx.bind_ok.mp hok
      simp only [Tx.pure_ok, Prod.mk.injEq] at hpure
      obtain ⟨rfl, rfl⟩ := hpure
      exact .of_begin htx
    | beginAnalysisAttempt now owner historyId operationId revision requestId epoch turnId accept =>
      obtain ⟨a, db', htx, hpure⟩ := Tx.bind_ok.mp hok
      simp only [Tx.pure_ok, Prod.mk.injEq] at hpure
      obtain ⟨rfl, rfl⟩ := hpure
      obtain ⟨_, _, hbegin⟩ := beginAnalysisAttempt_ok htx
      exact .of_begin hbegin
    | beginExecutionAttempt now owner historyId question operationId requestHash revision requestId
        epoch mode operationKind deadlineSeconds expectedRecordRevision turnId executionId =>
      obtain ⟨r, db', htx, hpure⟩ := Tx.bind_ok.mp hok
      simp only [Tx.pure_ok, Prod.mk.injEq] at hpure
      obtain ⟨rfl, rfl⟩ := hpure
      rcases beginExecutionAttempt_ok htx with ⟨e, -, -, rfl, rfl⟩ |
        ⟨-, h, t, e, a, o, -, -, -, -, heid, hehash, rfl, htoken, -, hbase, -⟩
      · rw [Option.bind_none, Option.toList_none, List.append_nil]
        exact .refl s
      · simp only [AcceptedAttempt.issue, htoken, Option.map_some, Option.bind_some,
          Option.toList_some]
        refine .attempt o ⟨rfl, ?_⟩ rfl hbase (fun f hf => ?_)
        · rw [← hehash]
          rfl
        · cases hf
          exact heid.symm ▸ hwf
    | beginRequery now owner sourceKind sourceId sourceTurnId operationId requestId epoch newId
        turnId runId executionData accept =>
      obtain ⟨r, db', htx, hpure⟩ := Tx.bind_ok.mp hok
      simp only [Tx.pure_ok, Prod.mk.injEq] at hpure
      obtain ⟨rfl, rfl⟩ := hpure
      rcases beginRequery_ok htx with ⟨rfl, -, htoken, -⟩ | ⟨-, -, hopen⟩
      · simp only [AcceptedAttempt.issue, htoken, Option.map_none, Option.toList_none,
          List.append_nil]
        exact .refl s
      · obtain ⟨h, histories, t, execution, snapshot, c, o, -, -, hsource, -, -, hsome, hnone,
          htoken, -, hbase⟩ := openRequery_ok hopen
        simp only [AcceptedAttempt.issue, htoken, Option.map_some, Option.toList_some]
        refine .requery c o ⟨rfl, ?_⟩ rfl ?_ ?_
        · cases execution with
          | none => rw [hnone rfl]; rfl
          | some e =>
            obtain ⟨data, rfl, heid, hehash⟩ := hsome e rfl
            simp only [Option.map_some, heid, hehash]
        · intro hkind
          rw [hsource hkind]
          exact hbase
        · intro e he
          obtain ⟨data, rfl, heid, -⟩ := hsome e he
          exact heid.symm ▸ hwf data rfl
    | markRunning now owner executionId =>
      exact .of_settles hok (fun _ _ htx => .single (markExecutionRunning_ok htx).1)
    | requestStop now owner executionId reason subject =>
      exact .of_settles hok (fun _ _ htx => (requestExecutionStop_ok htx).1)
    | finishAttempt now owner token snapshot error executionId =>
      exact .of_settles hok
        (fun _ _ htx => .single (finishAttempt_settle hwf htx))
    | finishStopped now owner token executionId status error =>
      exact .of_settles hok (fun _ _ htx => .single (finishExecutionStopped_settle C htx))
    | reconcile now epoch historyId =>
      exact .of_settles hok (fun _ _ htx => reconcile_settles C htx)
    | restart now epoch =>
      exact .of_settles hok (fun _ _ htx => .single (startRuntime_settle htx))
    | rename now owner historyId title revision =>
      exact .of_settles hok (fun _ _ htx => .single (renameHistory_settle htx))
    | delete now owner historyId revision subject =>
      exact .of_settles hok (fun _ _ htx => deleteHistory_settles htx)
    | copyResult now owner historyId turnId title newId =>
      exact .of_settles hok (fun _ _ htx => .single (copyResult_settle htx))
    | renameSaved now owner resultId title revision =>
      exact .of_settles hok (fun _ _ htx => .single (renameSavedResult_settle htx))
    | deleteSaved owner resultId revision =>
      exact .of_settles hok (fun _ _ htx => .single (deleteSavedResult_settle htx))
  · rw [happly]
    exact .refl s

/-- A move is a sequence of effects. -/
lemma Move.effects (m : Move s s') : Effects s.db s'.db := by
  cases m with
  | settle f => exact f.effects
  | create c => exact .single c.effect
  | attempt o => exact o.effects
  | requery c o => exact .head c.effect o.effects

/-- Every reachable database is consistent. -/
theorem reachable_consistent (h : (system codec).Reachable s) : Consistent s.db := by
  refine h.invariant (I := fun s => Consistent s.db) ?_ ?_
  · rintro _ rfl
    exact .init
  · intro s op s' C hstep
    exact C.effects (step_move C hstep).effects

/-! ### Concrete runs -/

/-- The state after a list of operations. -/
def State.run (codec : Codec) (s : State) (ops : List Op) : State :=
  ops.foldl (State.apply codec) s

/-- Every operation of the list is well formed where it is applied. -/
def State.Runs (codec : Codec) (s : State) : List Op → Prop
  | [] => True
  | op :: ops => op.WellFormed s ∧ (s.apply codec op).Runs codec ops

lemma State.Runs.run {ops : List Op} (h : s.Runs codec ops) :
    (system codec).Run s ops (s.run codec ops) := by
  induction ops generalizing s with
  | nil => exact .nil s
  | cons op ops ih =>
    have hstep : (system codec).step s op (s.apply codec op) := ⟨h.1, rfl⟩
    exact (System.Run.single hstep).append (ih h.2)

lemma State.Runs.reachable {ops : List Op} (h : State.Runs codec {} ops) :
    (system codec).Reachable (State.run codec {} ops) :=
  ⟨{}, ops, rfl, h.run⟩

instance State.Runs.decidable (codec : Codec) (s : State) (ops : List Op) :
    Decidable (s.Runs codec ops) :=
  match ops with
  | [] => .isTrue trivial
  | op :: ops =>
    have := State.Runs.decidable codec (s.apply codec op) ops
    inferInstanceAs (Decidable (_ ∧ _))

end ChatBI.Store
