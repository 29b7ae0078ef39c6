import ChatBI.Store.Rows

/-!
# Effects of transactions

What a committed transaction does to the lifecycle of histories, turns and executions.
Every transaction of the store is a sequence of these effects.
-/

namespace ChatBI.Store

open ChatBI.Lib

/-- What no statement changes in a history row. -/
structure HistoryRow.Same (h h' : HistoryRow) : Prop where
  id : h'.id = h.id
  owner : h'.ownerUserId = h.ownerUserId
  kind : h'.kind = h.kind
  creation : h'.creationOperationId = h.creationOperationId

/-- A history row whose turns are numbered and whose context is read as before. -/
structure HistoryRow.SameContext (h h' : HistoryRow) : Prop extends HistoryRow.Same h h' where
  deletedAt : h'.deletedAt = h.deletedAt
  nextOrdinal : h'.nextOrdinal = h.nextOrdinal
  contextRevision : h'.contextRevision = h.contextRevision
  lastSuccess : h'.lastSuccessTurnId = h.lastSuccessTurnId

/-- A history row whose lifecycle fields are kept. -/
structure HistoryRow.Kept (h h' : HistoryRow) : Prop extends HistoryRow.SameContext h h' where
  active : h'.activeTurnId = h.activeTurnId
  generation : h'.executionGeneration = h.executionGeneration

/-- What no statement changes in a turn row. -/
structure TurnRow.Same (t t' : TurnRow) : Prop where
  id : t'.id = t.id
  history : t'.historyId = t.historyId
  ordinal : t'.ordinal = t.ordinal
  operation : t'.operationId = t.operationId
  epoch : t'.runtimeEpoch = t.runtimeEpoch
  generation : t'.executionGeneration = t.executionGeneration

structure TurnRow.Kept (t t' : TurnRow) : Prop extends TurnRow.Same t t' where
  status : t'.status = t.status
  snapshot : t'.snapshot = t.snapshot

/-- What no statement changes in an execution row. -/
structure ExecutionRow.Same (e e' : ExecutionRow) : Prop where
  id : e'.id = e.id
  owner : e'.ownerUserId = e.ownerUserId
  history : e'.historyId = e.historyId
  turn : e'.turnId = e.turnId
  operation : e'.operationId = e.operationId
  requestHash : e'.requestHash = e.requestHash
  epoch : e'.runtimeEpoch = e.runtimeEpoch
  generation : e'.executionGeneration = e.executionGeneration

/-- The moves of an execution whose turn stays open: none, to running, or to stopping
with a first reason. -/
structure ExecutionRow.Moved (e e' : ExecutionRow) : Prop extends ExecutionRow.Same e e' where
  move : e' = e ∨ e.status.isActive = true ∧
    (e'.status = .running ∧ e'.stopReason = e.stopReason ∨
      e'.status = .stopping ∧ e'.stopReason.isSome = true)

/-- The open executions of a turn. -/
def ExecutionRow.openOn (t : TurnRow) (e : ExecutionRow) : Bool :=
  e.historyId = t.historyId && e.turnId = t.id && e.status.isOpen

lemma HistoryRow.Same.refl (h : HistoryRow) : h.Same h := ⟨rfl, rfl, rfl, rfl⟩

lemma HistoryRow.Kept.refl (h : HistoryRow) : h.Kept h :=
  ⟨⟨.refl h, rfl, rfl, rfl, rfl⟩, rfl, rfl⟩

lemma TurnRow.Same.refl (t : TurnRow) : t.Same t := ⟨rfl, rfl, rfl, rfl, rfl, rfl⟩

lemma TurnRow.Kept.refl (t : TurnRow) : t.Kept t := ⟨.refl t, rfl, rfl⟩

lemma ExecutionRow.Same.refl (e : ExecutionRow) : e.Same e :=
  ⟨rfl, rfl, rfl, rfl, rfl, rfl, rfl, rfl⟩

lemma ExecutionRow.Moved.refl (e : ExecutionRow) : e.Moved e := ⟨.refl e, .inl rfl⟩

lemma ExecutionRow.Same.trans {e e' e'' : ExecutionRow} (h : e.Same e') (h' : e'.Same e'') :
    e.Same e'' :=
  ⟨h'.id.trans h.id, h'.owner.trans h.owner, h'.history.trans h.history, h'.turn.trans h.turn,
    h'.operation.trans h.operation, h'.requestHash.trans h.requestHash, h'.epoch.trans h.epoch,
    h'.generation.trans h.generation⟩

lemma TurnRow.Same.trans {t t' t'' : TurnRow} (h : t.Same t') (h' : t'.Same t'') : t.Same t'' :=
  ⟨h'.id.trans h.id, h'.history.trans h.history, h'.ordinal.trans h.ordinal,
    h'.operation.trans h.operation, h'.epoch.trans h.epoch, h'.generation.trans h.generation⟩

/-- The rows of a history, of its active turn and of the turn's execution before and after
the turn is closed. The context advances exactly when the turn succeeds. -/
structure Closing (h h' : HistoryRow) (t t' : TurnRow) (close : ExecutionRow → ExecutionRow) :
    Prop where
  history : h.Same h'
  deletedAt : h'.deletedAt = h.deletedAt
  nextOrdinal : h'.nextOrdinal = h.nextOrdinal
  inactive : h'.activeTurnId = none
  turn : t.Same t'
  closed : t'.status ≠ .accepted
  contextRevision : h'.contextRevision =
    h.contextRevision + if t'.status = .succeeded then 1 else 0
  lastSuccess : h'.lastSuccessTurnId =
    if t'.status = .succeeded then some t.id else h.lastSuccessTurnId
  execution : ∀ e : ExecutionRow, e.Same (close e)
  stopReason : ∀ e, (close e).stopReason = e.stopReason
  terminal : ∀ e, (close e).status.isOpen = false
  outcome : ∀ e, (close e).status = .succeeded ↔ t'.status = .succeeded

/-- A new history row before its first turn. -/
structure HistoryRow.New (h : HistoryRow) : Prop where
  contextRevision : h.contextRevision = 0
  nextOrdinal : h.nextOrdinal = 1
  lastSuccess : h.lastSuccessTurnId = none
  active : h.activeTurnId = none
  deletedAt : h.deletedAt = none

/-- A turn row that opens the next turn of an idle history in the current epoch. -/
structure TurnRow.Opens (db : Db) (h : HistoryRow) (t : TurnRow) : Prop where
  history : t.historyId = h.id
  alive : h.deletedAt = none
  idle : h.activeTurnId = none
  ordinal : t.ordinal = h.nextOrdinal
  status : t.status = .accepted
  epoch : db.runtimeEpoch = some t.runtimeEpoch
  generation : t.executionGeneration = h.executionGeneration + 1
  fresh : ∀ s ∈ db.turns, s.id ≠ t.id
  operation : ∀ s ∈ db.turns, s.historyId = t.historyId → s.operationId ≠ t.operationId

/-- An execution row accepted for an open turn. -/
structure ExecutionRow.Accepts (executions : Table ExecutionRow.id) (h : HistoryRow) (t : TurnRow)
    (e : ExecutionRow) : Prop where
  turnStatus : t.status = .accepted
  historyId : e.historyId = h.id
  owner : e.ownerUserId = h.ownerUserId
  turnHistory : e.historyId = t.historyId
  turn : e.turnId = t.id
  operation : e.operationId = t.operationId
  epoch : e.runtimeEpoch = t.runtimeEpoch
  generation : e.executionGeneration = t.executionGeneration
  status : e.status = .accepted
  stopReason : e.stopReason = none
  fresh : ∀ f ∈ executions, f.id ≠ e.id
  freshOperation : ∀ f ∈ executions, f.ownerUserId = e.ownerUserId →
    f.operationId ≠ e.operationId
  freshTurn : ∀ f ∈ executions, f.historyId = e.historyId → f.turnId ≠ e.turnId

/-- The effects of the transactions that open no turn: rows are touched, a turn is closed,
a process starts, a history is deleted. -/
inductive Settle (db : Db) : Db → Prop
  | touch {fh : HistoryRow → HistoryRow} {ft : TurnRow → TurnRow} {fe : ExecutionRow → ExecutionRow}
      (hfh : ∀ h, (fh h).id = h.id) (hft : ∀ t, (ft t).id = t.id) (hfe : ∀ e, (fe e).id = e.id)
      (histories : ∀ h ∈ db.histories, h.Kept (fh h)) (turns : ∀ t ∈ db.turns, t.Kept (ft t))
      (executions : ∀ e ∈ db.executions, e.Moved (fe e))
      (saved : Table SavedResultRow.id) (runs : Table AnalysisRunRow.analysisRunId) :
      Settle db { db with
        histories := db.histories.map fh hfh, turns := db.turns.map ft hft
        executions := db.executions.map fe hfe, savedResults := saved, analysisRuns := runs }
  | close {h h' : HistoryRow} {t t' : TurnRow} {fe : ExecutionRow → ExecutionRow}
      (memHistory : h ∈ db.histories) (memTurn : t ∈ db.turns) (active : h.activeTurnId = some t.id)
      (turnHistory : t.historyId = h.id) (accepted : t.status = .accepted)
      (closing : Closing h h' t t' fe)
      (unstopped : t'.status = .succeeded → ∀ e ∈ db.executions, e.openOn t = true →
        e.status ≠ .stopping) :
      Settle db { db with
        histories := db.histories.set h', turns := db.turns.set t'
        executions := db.executions.update (ExecutionRow.openOn t) fe
          (fun e => (closing.execution e).id) }
  | restart (epoch : Uuid) (now : Timestamp) :
      Settle db { db with
        histories := db.histories.update (fun h => h.activeTurnId ≠ none) (HistoryRow.abandon now)
          (fun r => r.abandon_id now)
        turns := db.turns.update (fun t => t.status = .accepted) (TurnRow.abandon now)
          (fun r => r.abandon_id now)
        executions := db.executions.update (fun e => e.status.isOpen) (ExecutionRow.abandon now)
          (fun r => r.abandon_id now)
        runtimeEpoch := some epoch }
  | delete {h h' : HistoryRow} (mem : h ∈ db.histories) (idle : h.activeTurnId = none)
      (same : h.Same h') (deleted : h'.deletedAt ≠ none) (inactive : h'.activeTurnId = none)
      (nextOrdinal : h'.nextOrdinal = h.nextOrdinal) :
      Settle db { db with
        histories := db.histories.set h'
        turns := db.turns.delete (fun t => t.historyId = h.id)
        executions := db.executions.delete (fun e => db.turns.rows.any (fun t =>
          t.historyId = h.id && t.historyId = e.historyId && t.id = e.turnId)) }

/-- The effects of committed transactions. -/
inductive Effect (db : Db) : Db → Prop
  | settle {db' : Db} (s : Settle db db') : Effect db db'
  | create {h : HistoryRow} {histories : Table HistoryRow.id} (new : h.New)
      (rows : histories.rows = db.histories.rows ++ [h]) (fresh : ∀ r ∈ db.histories, r.id ≠ h.id)
      (operation : ∀ r ∈ db.histories, r.ownerUserId = h.ownerUserId →
        r.creationOperationId ≠ h.creationOperationId) :
      Effect db { db with histories := histories }
  | begin {h : HistoryRow} {t : TurnRow} {turns : Table TurnRow.id} (mem : h ∈ db.histories)
      (opens : t.Opens db h) (rows : turns.rows = db.turns.rows ++ [t]) (now : Timestamp) :
      Effect db { db with
        turns := turns, histories := db.histories.set (h.begin now t.id t.executionGeneration) }
  | accept {h : HistoryRow} {t : TurnRow} {e : ExecutionRow} {executions : Table ExecutionRow.id}
      (memHistory : h ∈ db.histories) (memTurn : t ∈ db.turns) (accepts : e.Accepts db.executions h t)
      (rows : executions.rows = db.executions.rows ++ [e]) :
      Effect db { db with executions := executions }

/-- A history inserted for a creation operation of its owner. -/
structure Created (db : Db) (owner : Owner) (operationId newId : Uuid) (h : HistoryRow)
    (histories : Table HistoryRow.id) : Prop where
  new : h.New
  id : h.id = newId
  owned : h.ownerUserId = owner
  operation : h.creationOperationId = operationId
  rows : histories.rows = db.histories.rows ++ [h]
  fresh : ∀ r ∈ db.histories, r.id ≠ h.id
  freshOperation : ∀ r ∈ db.histories, r.ownerUserId = h.ownerUserId →
    r.creationOperationId ≠ h.creationOperationId

lemma Created.effect {owner : Owner} {operationId newId : Uuid} {h : HistoryRow}
    {histories : Table HistoryRow.id} {db : Db} (c : Created db owner operationId newId h histories) :
    Effect db { db with histories := histories } :=
  .create c.new c.rows c.fresh c.freshOperation

namespace Settle

variable {db : Db}

lemma touchHistories {fh : HistoryRow → HistoryRow} {hfh : ∀ h, (fh h).id = h.id}
    (kept : ∀ h ∈ db.histories, h.Kept (fh h)) :
    Settle db { db with histories := db.histories.map fh hfh } := by
  have := @touch db fh id id hfh (fun _ => rfl) (fun _ => rfl) kept
    (fun t _ => .refl t) (fun e _ => .refl e) db.savedResults db.analysisRuns
  simpa using this

lemma touchExecutions {fe : ExecutionRow → ExecutionRow} {hfe : ∀ e, (fe e).id = e.id}
    (moved : ∀ e ∈ db.executions, e.Moved (fe e)) :
    Settle db { db with executions := db.executions.map fe hfe } := by
  have := @touch db id id fe (fun _ => rfl) (fun _ => rfl) hfe
    (fun h _ => .refl h) (fun t _ => .refl t) moved db.savedResults db.analysisRuns
  simpa using this

/-- The tables of saved results and of analysis runs carry no lifecycle. -/
lemma touchOthers (saved : Table SavedResultRow.id) (runs : Table AnalysisRunRow.analysisRunId) :
    Settle db { db with savedResults := saved, analysisRuns := runs } := by
  have := @touch db id id id (fun _ => rfl) (fun _ => rfl)
    (fun _ => rfl) (fun h _ => .refl h) (fun t _ => .refl t) (fun e _ => .refl e) saved runs
  simpa using this

end Settle

end ChatBI.Store
