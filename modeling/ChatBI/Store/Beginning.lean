import ChatBI.Store.Closing

/-!
# Beginning turns and executions

Inversion lemmas for the operations that open a turn: they answer a replay from the stored
rows and leave the database as it was, or they open the next turn of an idle history.
-/

namespace ChatBI.Store

open ChatBI.Lib Relation

variable {db db' : Db}

/-- `snapshot.get("query_state")` of a stored turn. -/
def TurnRow.queryState (t : TurnRow) : Option Json := (t.snapshot.getD .null).get? "query_state"

/-- The token under which a turn was begun. -/
def TurnRow.token (t : TurnRow) : ExecutionToken :=
  ⟨t.historyId, t.id, t.runtimeEpoch, t.executionGeneration⟩

/-- The row that the last success of a history points to. -/
def Db.lastSuccess (db : Db) (h : HistoryRow) : Option TurnRow :=
  h.lastSuccessTurnId.bind (fun i => db.turns.first (fun t =>
    t.id = i && t.historyId = h.id && t.status = .succeeded))

/-- The query state that a new attempt of the history is given. -/
def Db.baseState (db : Db) (h : HistoryRow) : Option Json :=
  match h.kind with
  | .query => (db.lastSuccess h).bind TurnRow.queryState
  | .analysis => none

/-- The new rows of a committed operation that opened the turn `t` of the idle history `h`,
with the execution accepted for it if any. -/
structure Opened (db db' : Db) (owner : Owner) (operationId : Uuid) (h : HistoryRow) (t : TurnRow)
    (execution : Option ExecutionRow) : Prop where
  mem : h ∈ db.histories
  owned : h.ownerUserId = owner
  opens : t.Opens db h
  operation : t.operationId = operationId
  histories : ∃ now, db'.histories = db.histories.set (h.begin now t.id t.executionGeneration)
  turns : db'.turns.rows = db.turns.rows ++ [t]
  runtimeEpoch : db'.runtimeEpoch = db.runtimeEpoch
  savedResults : db'.savedResults = db.savedResults
  analysisRuns : db'.analysisRuns = db.analysisRuns
  unaccepted : execution = none → db'.executions = db.executions
  accepted : ∀ e, execution = some e → db'.executions.rows = db.executions.rows ++ [e] ∧
    ∀ now, e.Accepts db.executions (h.begin now t.id t.executionGeneration) t

/-- Opening a turn is a begin, followed by the acceptance of its execution. -/
theorem Opened.effects {owner : Owner} {operationId : Uuid} {h : HistoryRow} {t : TurnRow}
    {execution : Option ExecutionRow} (o : Opened db db' owner operationId h t execution) :
    Effects db db' := by
  obtain ⟨now, hhs⟩ := o.histories
  have hbegin : Effect db { db with
      turns := db'.turns, histories := db.histories.set (h.begin now t.id t.executionGeneration) } :=
    .begin o.mem o.opens o.turns now
  obtain ⟨histories, turns, executions, savedResults, analysisRuns, runtimeEpoch⟩ := db'
  obtain rfl : histories = _ := hhs
  obtain rfl : runtimeEpoch = _ := o.runtimeEpoch
  obtain rfl : savedResults = _ := o.savedResults
  obtain rfl : analysisRuns = _ := o.analysisRuns
  cases execution with
  | none =>
    obtain rfl : executions = _ := o.unaccepted rfl
    exact .single hbegin
  | some e =>
    obtain ⟨rows, accepts⟩ := o.accepted e rfl
    refine .head hbegin (.single (Effect.accept (t := t) ?_ ?_ (accepts now) rows))
    · exact (Table.mem_set o.mem (HistoryRow.begin_id now h _ _)).mpr (.inl rfl)
    · exact (Table.mem_of_rows_append o.turns).mpr (.inr rfl)

lemma readBaseState_bind_ok {α : Type} {codec : Codec} {h : HistoryRow} {k : Option Json → Tx α}
    {r : α × Db} (hok : (readBaseState codec h >>= k) db = .ok r) :
    k (db.baseState h) db = .ok r := by
  unfold readBaseState at hok
  unfold Db.baseState Db.lastSuccess
  cases hlast : h.lastSuccessTurnId with
  | none =>
    simp only [hlast, Tx.pure_bind_ok] at hok
    cases hkind : h.kind <;> exact hok
  | some last =>
    simp only [hlast, bind_assoc, Tx.read_bind_ok, Tx.orRaise_bind_ok] at hok
    obtain ⟨t, hfirst, hok⟩ := hok
    rw [Option.bind_some, hfirst]
    cases hkind : h.kind with
    | analysis => simpa only [hkind, Tx.pure_bind_ok] using hok
    | query =>
      simp only [hkind, bind_assoc, Tx.lift_bind_ok, Tx.pure_bind_ok] at hok
      obtain ⟨_, -, _, -, hok⟩ := hok
      exact hok

/-- A turn that has not succeeded changes no base state. -/
lemma baseState_append {t : TurnRow} (rows : db'.turns.rows = db.turns.rows ++ [t])
    (ht : t.status ≠ .succeeded) (h : HistoryRow) :
    db'.baseState h = db.baseState h := by
  have hfirst : ∀ i, db'.turns.first (fun t => t.id = i && t.historyId = h.id &&
      t.status = .succeeded) = db.turns.first (fun t => t.id = i && t.historyId = h.id &&
        t.status = .succeeded) := by
    intro i
    unfold Table.first
    rw [rows, List.find?_append, List.find?_singleton]
    simp [ht]
  simp only [Db.baseState, Db.lastSuccess, hfirst]

lemma beginTurn_ok {codec : Codec} {now : Timestamp} {owner : Owner} {historyId : Uuid}
    {question : String} {operationId : Uuid} {revision : ℕ} {requestId : String}
    {epoch : Uuid} {digest : Digest} {turnId : Uuid}
    {beforeAccept : HistoryKind → Except Raised Unit} {a : AcceptedAttempt}
    (hok : beginTurn codec now owner historyId question operationId revision requestId epoch digest
      turnId beforeAccept db = .ok (a, db')) :
    (a.token = none ∧ db' = db) ∨
      ∃ h t, Opened db db' owner operationId h t none ∧ h.id = historyId ∧ t.id = turnId ∧
        t.runtimeEpoch = epoch ∧ a.token = some t.token ∧ a.turn = turn t ∧
        a.baseState = db.baseState h ∧ a.sourceSnapshot = none := by
  unfold beginTurn at hok
  obtain ⟨h, hh, hid, ho, hdel, hok⟩ := owned_bind_ok hok
  simp only [Tx.read_bind_ok] at hok
  cases hprevious : db.turns.first (fun t => t.historyId = historyId && t.operationId = operationId)
    with
  | some previous =>
    simp only [hprevious, Tx.raiseIf_bind_ok, Tx.pure_ok, Prod.mk.injEq] at hok
    obtain ⟨-, -, -, rfl, rfl⟩ := hok
    exact .inl ⟨rfl, rfl⟩
  | none =>
    simp only [hprevious, Tx.raiseIf_bind_ok, Tx.read_bind_ok, Tx.lift_bind_ok, ne_eq,
      not_not] at hok
    obtain ⟨hidle, -, hepoch, -, -, hok⟩ := hok
    obtain ⟨t, _, hinsert, hok⟩ := Tx.bind_ok.mp hok
    obtain ⟨ht, turns, rfl, rows, hfresh, huniq⟩ := insertTurn_ok hinsert
    rw [← ht] at rows
    simp only [updateHistories_bind_ok] at hok
    rw [Table.update_key_eq_set hh hid] at hok
    have hok := readBaseState_bind_ok hok
    simp only [Tx.pure_ok, Prod.mk.injEq] at hok
    obtain ⟨rfl, rfl⟩ := hok
    obtain ⟨hopens, htid, hop, hep⟩ : t.Opens db h ∧ t.id = turnId ∧ t.operationId = operationId ∧
        t.runtimeEpoch = epoch := by
      subst ht
      exact ⟨⟨hid.symm, hdel, hidle, rfl, rfl, hepoch, rfl, hfresh,
        fun s hs he => (huniq s hs he).2⟩, rfl, rfl, rfl⟩
    clear ht
    refine .inr ⟨h, t, ⟨hh, ho, hopens, hop, ⟨now, ?_⟩, rows, rfl, rfl, rfl, fun _ => rfl, ?_⟩,
      hid, htid, hep, ?_, rfl, ?_, rfl⟩
    · rw [htid, hopens.generation]
    · intro e he
      cases he
    · rw [TurnRow.token, hopens.history, hid, htid, hep, hopens.generation]
    · exact baseState_append rows (by rw [hopens.status]; exact TurnStatus.noConfusion) h

lemma beginAnalysisAttempt_ok {codec : Codec} {now : Timestamp} {owner : Owner} {historyId : Uuid}
    {operationId : Uuid} {revision : ℕ} {requestId : String} {epoch turnId : Uuid}
    {beforeAccept : HistoryKind → Except Raised Unit} {a : AcceptedAttempt}
    (hok : beginAnalysisAttempt codec now owner historyId operationId revision requestId epoch turnId
      beforeAccept db = .ok (a, db')) :
    ∃ question contextRevision, beginTurn codec now owner historyId question operationId
      contextRevision requestId epoch (codec.operationHash (.resume revision)) turnId beforeAccept
      db = .ok (a, db') := by
  unfold beginAnalysisAttempt at hok
  obtain ⟨h, -, -, -, -, hok⟩ := owned_bind_ok hok
  simp only [Tx.read_bind_ok, Tx.raiseIf_bind_ok] at hok
  exact ⟨_, _, hok.2⟩

/-! ### Turns with an execution -/

/-- The operation of an owner has an execution. -/
def Db.executionOf (db : Db) (owner : Owner) (operationId : Uuid) : Option ExecutionRow :=
  db.executions.first (fun e => e.ownerUserId = owner && e.operationId = operationId)

lemma executionOf_some {owner : Owner} {operationId : Uuid} {e : ExecutionRow}
    (h : db.executionOf owner operationId = some e) :
    e ∈ db.executions ∧ e.ownerUserId = owner ∧ e.operationId = operationId := by
  obtain ⟨he, hp⟩ := Table.first_some h
  simp only [Bool.and_eq_true, decide_eq_true_eq] at hp
  exact ⟨he, hp⟩

lemma findInTransaction_bind_ok {α : Type} {owner : Owner} {operationId : Uuid}
    {requestHash : Digest} {k : Option ExecutionRecord → Tx α} {r : α × Db}
    (hok : (findInTransaction owner operationId requestHash >>= k) db = .ok r) :
    (db.executionOf owner operationId = none ∧ k none db = .ok r) ∨
      ∃ e, db.executionOf owner operationId = some e ∧ e.requestHash = requestHash ∧
        k (some (record e)) db = .ok r := by
  simp only [findInTransaction, bind_assoc, Tx.read_bind_ok] at hok
  unfold Db.executionOf
  cases hfirst : db.executions.first (fun e => e.ownerUserId = owner && e.operationId = operationId)
    with
  | none =>
    simp only [hfirst, Tx.pure_bind_ok] at hok
    exact .inl ⟨rfl, hok⟩
  | some e =>
    simp only [hfirst, bind_assoc, Tx.raiseIf_bind_ok, Tx.pure_bind_ok, ne_eq, not_not] at hok
    exact .inr ⟨e, rfl, hok.1, hok.2⟩

/-- The execution that is inserted for a turn just opened. -/
lemma Opened.insert {owner : Owner} {operationId : Uuid} {h : HistoryRow} {t : TurnRow}
    {db₁ : Db} (o : Opened db db₁ owner operationId h t none) {now : Timestamp}
    {executionId historyId turnId : Uuid} {requestHash : Digest} {mode : HistoryKind}
    {operationKind : OperationKind} {epoch : Uuid} {generation deadlineSeconds : ℕ}
    {r : ExecutionRecord} (hid : h.id = historyId) (htid : t.id = turnId)
    (hep : t.runtimeEpoch = epoch) (hgen : t.executionGeneration = generation)
    (hok : insertInTransaction now executionId owner historyId turnId operationId requestHash mode
      operationKind epoch generation deadlineSeconds db₁ = .ok (r, db')) :
    ∃ e, Opened db db' owner operationId h t (some e) ∧ e.id = executionId ∧
      e.requestHash = requestHash ∧ r = record e := by
  unfold insertInTransaction at hok
  obtain ⟨e, _, hinsert, hok⟩ := Tx.bind_ok.mp hok
  obtain ⟨he, executions, rfl, rows, hfresh, hop, hturn, -, -⟩ := insertExecution_ok hinsert
  rw [← he] at rows hfresh hop hturn
  simp only [Tx.pure_ok, Prod.mk.injEq] at hok
  obtain ⟨rfl, rfl⟩ := hok
  have hexec : db₁.executions = db.executions := o.unaccepted rfl
  rw [hexec] at rows hfresh hop hturn
  subst hid htid hep hgen
  refine ⟨e, ⟨o.mem, o.owned, o.opens, o.operation, o.histories, o.turns, o.runtimeEpoch,
    o.savedResults, o.analysisRuns, ?_, ?_⟩, by rw [he]; rfl, by rw [he]; rfl, rfl⟩
  · intro hnone
    cases hnone
  · intro f hf
    cases hf
    refine ⟨rows, fun _ => ⟨o.opens.status, ?_, ?_, ?_, ?_, ?_, ?_, ?_, ?_, ?_, hfresh, hop, hturn⟩⟩
    all_goals rw [he]
    · rfl
    · exact o.owned.symm
    · exact o.opens.history.symm
    · rfl
    · exact o.operation.symm
    · rfl
    · rfl
    · rfl
    · rfl

/-- `begin_execution_attempt` returns the execution of the operation, or it opens a turn with
a new execution. -/
lemma beginExecutionAttempt_ok {codec : Codec} {now : Timestamp} {owner : Owner}
    {historyId : Uuid} {question : String} {operationId : Uuid} {requestHash : Digest}
    {revision : Option ℕ} {requestId : String} {epoch : Uuid} {mode : HistoryKind}
    {operationKind : OperationKind} {deadlineSeconds : ℕ} {expectedRecordRevision : Option ℕ}
    {turnId executionId : Uuid} {r : ExecutionAcceptance}
    (hok : beginExecutionAttempt codec now owner historyId question operationId requestHash revision
      requestId epoch mode operationKind deadlineSeconds expectedRecordRevision turnId executionId
      db = .ok (r, db')) :
    (∃ e, db.executionOf owner operationId = some e ∧ e.requestHash = requestHash ∧
      r = ⟨record e, none, false⟩ ∧ db' = db) ∨
    db.executionOf owner operationId = none ∧ ∃ h t e a,
      Opened db db' owner operationId h t (some e) ∧ h.id = historyId ∧ h.kind = mode ∧
      t.id = turnId ∧ t.runtimeEpoch = epoch ∧ e.id = executionId ∧ e.requestHash = requestHash ∧
      r = ⟨record e, some a, true⟩ ∧ a.token = some t.token ∧ a.turn = turn t ∧
      a.baseState = db.baseState h ∧ a.sourceSnapshot = none := by
  unfold beginExecutionAttempt at hok
  rcases findInTransaction_bind_ok hok with ⟨hnone, hok⟩ | ⟨e, he, hhash, hok⟩
  · right
    obtain ⟨h, hh, hid, ho, -, hok⟩ := owned_bind_ok hok
    simp only [Tx.raiseIf_bind_ok, ne_eq, not_not] at hok
    obtain ⟨hmode, hok⟩ := hok
    refine ⟨hnone, ?_⟩
    obtain ⟨a, db₁, hbegin, hok⟩ : ∃ a db₁, (∃ question revision digest, beginTurn codec now owner
        historyId question operationId revision requestId epoch digest turnId acceptAlways db =
        .ok (a, db₁)) ∧ (do
          let token ← Tx.orRaise a.token executionConflict
          let execution ← insertInTransaction now executionId owner historyId a.turn.id
            operationId requestHash mode operationKind epoch token.generation deadlineSeconds
          return { execution := execution, attempt := some a, created := true } :
            Tx ExecutionAcceptance) db₁ = .ok (r, db') := by
      cases mode with
      | analysis =>
        simp only [Tx.orRaise_bind_ok, Tx.raiseIf_bind_ok] at hok
        obtain ⟨expected, -, -, hok⟩ := hok
        obtain ⟨a, db₁, hbegin, hok⟩ := Tx.bind_ok.mp hok
        exact ⟨a, db₁, ⟨_, _, _, hbegin⟩, hok⟩
      | query =>
        simp only [Tx.orRaise_bind_ok] at hok
        obtain ⟨revision, -, hok⟩ := hok
        obtain ⟨a, db₁, hbegin, hok⟩ := Tx.bind_ok.mp hok
        exact ⟨a, db₁, ⟨_, _, _, hbegin⟩, hok⟩
    obtain ⟨_, _, _, hbegin⟩ := hbegin
    simp only [Tx.orRaise_bind_ok] at hok
    obtain ⟨token, htoken, hok⟩ := hok
    rcases beginTurn_ok hbegin with ⟨hnone', -⟩ | ⟨x, t, o, hxid, htid, hep, ha, hturn, hbase, hsource⟩
    · rw [hnone'] at htoken
      cases htoken
    · obtain ⟨execution, _, hinsert, hok⟩ := Tx.bind_ok.mp hok
      have hx := Table.eq_of_key o.mem hh (hxid.trans hid.symm)
      rw [ha] at htoken
      cases htoken
      obtain ⟨e, o', heid, hehash, rfl⟩ := o.insert hxid (by rw [hturn]; rfl) hep rfl hinsert
      simp only [Tx.pure_ok, Prod.mk.injEq] at hok
      obtain ⟨rfl, rfl⟩ := hok
      exact ⟨x, t, e, a, o', hxid, hx ▸ hmode, htid, hep, heid, hehash, rfl, ha, hturn, hbase,
        hsource⟩
  · left
    simp only [Tx.pure_ok, Prod.mk.injEq] at hok
    exact ⟨e, he, hhash, hok.1, hok.2⟩

/-! ### Re-queries -/

/-- The stored snapshot that a re-query starts from. -/
def Db.sourceSnapshot (db : Db) (sourceKind : SourceKind) (sourceId : Uuid)
    (sourceTurnId : Option Uuid) : Option Json :=
  match sourceKind with
  | .history => (db.turns.first (fun t => t.historyId = sourceId && some t.id = sourceTurnId &&
      t.status = .succeeded)).map (fun t => t.snapshot.getD .null)
  | .saved => (db.savedResults.find? sourceId).map SavedResultRow.snapshot

/-- Reading the source changes nothing; the snapshot of a query source is the stored one. -/
lemma requerySource_bind_ok {α : Type} {owner : Owner} {sourceKind : SourceKind} {sourceId : Uuid}
    {sourceTurnId : Option Uuid} {k : RequerySource → Tx α} {r : α × Db}
    (hok : (requerySource owner sourceKind sourceId sourceTurnId >>= k) db = .ok r) :
    ∃ source, (source.kind = .query →
        db.sourceSnapshot sourceKind sourceId sourceTurnId = some source.snapshot) ∧
      k source db = .ok r := by
  cases sourceKind with
  | history =>
    simp only [requerySource, bind_assoc] at hok
    obtain ⟨h, -, -, -, -, hok⟩ := owned_bind_ok hok
    cases hkind : h.kind with
    | analysis =>
      simp only [hkind, Tx.pure_bind_ok] at hok
      exact ⟨_, fun h => HistoryKind.noConfusion h, hok⟩
    | query =>
      simp only [hkind, bind_assoc, Tx.read_bind_ok, Tx.orRaise_bind_ok, Tx.pure_bind_ok] at hok
      obtain ⟨row, hfirst, hok⟩ := hok
      refine ⟨_, fun _ => ?_, hok⟩
      rw [Db.sourceSnapshot, hfirst]
      rfl
  | saved =>
    simp only [requerySource, ownedSaved, bind_assoc, Tx.read_bind_ok, Tx.orRaise_bind_ok,
      Tx.lift_bind_ok, Tx.pure_bind_ok] at hok
    obtain ⟨row, hfirst, _, -, hok⟩ := hok
    obtain ⟨hrow, hp⟩ := Table.first_some hfirst
    simp only [Bool.and_eq_true, decide_eq_true_eq] at hp
    refine ⟨_, fun _ => ?_, hok⟩
    rw [Db.sourceSnapshot, Table.find?_eq_some_iff.mpr ⟨hrow, hp.1⟩]
    rfl

/-- A turn just opened may still be given its input. -/
lemma Opened.annotate {owner : Owner} {operationId : Uuid} {h : HistoryRow} {t : TurnRow}
    (o : Opened db db' owner operationId h t none) (input : Option Json) {turnId : Uuid}
    (htid : turnId = t.id) :
    Opened db { db' with
        turns := db'.turns.update (fun s => s.id = turnId)
          (fun s => { s with attemptInput := input }) (fun _ => rfl) }
      owner operationId h { t with attemptInput := input } none := by
  subst htid
  refine ⟨o.mem, o.owned, ⟨o.opens.1, o.opens.2, o.opens.3, o.opens.4, o.opens.5, o.opens.6,
    o.opens.7, o.opens.8, o.opens.9⟩, o.operation, o.histories, ?_, o.runtimeEpoch,
    o.savedResults, o.analysisRuns, o.unaccepted, ?_⟩
  · show db'.turns.rows.map _ = _
    rw [o.turns, List.map_append, List.map_singleton, if_pos (decide_eq_true rfl)]
    congr 1
    conv_rhs => rw [← List.map_id db.turns.rows]
    refine List.map_congr_left (fun s hs => ?_)
    rw [if_neg (by simpa using o.opens.fresh s hs)]
    rfl
  · intro e he
    cases he

lemma checkSource_bind_ok {α : Type} {codec : Codec} {sourceKind : SourceKind}
    {source : RequerySource} {k : Unit → Tx α} {r : α × Db}
    (hok : (checkSource codec sourceKind source >>= k) db = .ok r) : k () db = .ok r := by
  unfold checkSource at hok
  split_ifs at hok
  · simp only [Tx.lift_bind_ok] at hok
    exact hok.choose_spec.2
  · simpa only [Tx.pure_bind_ok] using hok

lemma checkInserted_bind_ok {α : Type} {owner : Owner} {operationId : Uuid} {digest : Digest}
    {inserted : Bool} {k : Unit → Tx α} {r : α × Db}
    (hok : (checkInserted owner operationId digest inserted >>= k) db = .ok r) :
    inserted = true ∧ k () db = .ok r := by
  cases inserted with
  | true => exact ⟨rfl, hok⟩
  | false =>
    simp only [checkInserted, bind_assoc, Tx.read_bind_ok, Tx.orRaise_bind_ok, Tx.raiseIf_bind_ok,
      Tx.raise_bind_ok, and_false, exists_false] at hok

lemma insertRequery_ok {now : Timestamp} {owner : Owner} {operationId : Uuid}
    {digest : Digest} {newId runId : Uuid} {executionData : Option ExecutionData}
    {source : RequerySource}
    (hok : insertHistory (requeryHistory now owner operationId digest newId runId executionData
      source) db = .ok (true, db')) :
    ∃ histories, db' = { db with histories := histories } ∧ Created db owner operationId newId
      (requeryHistory now owner operationId digest newId runId executionData source) histories := by
  rcases insertHistory_ok hok with ⟨h, -⟩ | ⟨-, histories, rfl, rows, hfresh, hop⟩
  · cases h
  · exact ⟨histories, rfl, ⟨rfl, rfl, rfl, rfl, rfl⟩, rfl, rfl, rfl, rows, hfresh, hop⟩

/-- A re-query creates a history for the copy of its source and opens the first turn of it. -/
lemma openRequery_ok {codec : Codec} {now : Timestamp} {owner : Owner} {sourceKind : SourceKind}
    {sourceId : Uuid} {sourceTurnId : Option Uuid} {operationId : Uuid} {requestId : String}
    {epoch : Uuid} {digest : Digest} {newId turnId runId : Uuid}
    {executionData : Option ExecutionData} {beforeAccept : HistoryKind → Except Raised Unit}
    {r : RequeryAcceptance}
    (hok : openRequery codec now owner sourceKind sourceId sourceTurnId operationId requestId epoch
      digest newId turnId runId executionData beforeAccept db = .ok (r, db')) :
    ∃ h histories t execution snapshot, Created db owner operationId newId h histories ∧
      Opened { db with histories := histories } db' owner operationId h t execution ∧
      t.id = turnId ∧ t.runtimeEpoch = epoch ∧
      (h.kind = .query → db.sourceSnapshot sourceKind sourceId sourceTurnId = some snapshot) ∧
      r.created = true ∧ r.execution = execution.map record ∧
      (∀ e, execution = some e → ∃ data, executionData = some data ∧ e.id = data.executionId ∧
        e.requestHash = data.requestHash) ∧
      (execution = none → executionData = none) ∧
      r.attempt.token = some t.token ∧ r.attempt.turn = turn t ∧
      r.attempt.baseState = snapshot.get? "query_state" := by
  unfold openRequery at hok
  obtain ⟨source, hsnapshot, hsource⟩ := requerySource_bind_ok hok
  obtain ⟨_, -, hinsert⟩ := Tx.lift_bind_ok.mp (checkSource_bind_ok hsource)
  obtain ⟨inserted, _, hcreate, hinserted⟩ := Tx.bind_ok.mp hinsert
  obtain ⟨rfl, haccept⟩ := checkInserted_bind_ok hinserted
  obtain ⟨histories, rfl, c⟩ := insertRequery_ok hcreate
  obtain ⟨a, db₂, hbegin, hinput⟩ := Tx.bind_ok.mp haccept
  obtain ⟨token, htoken, hexecute⟩ := Tx.orRaise_bind_ok.mp (updateTurns_bind_ok.mp hinput)
  obtain ⟨execution, db₃, hexecution, hheader⟩ := Tx.bind_ok.mp hexecute
  obtain ⟨header, -, -, -, -, hreturn⟩ := owned_bind_ok hheader
  simp only [Tx.pure_ok, Prod.mk.injEq] at hreturn
  obtain ⟨rfl, rfl⟩ := hreturn
  rcases beginTurn_ok hbegin with ⟨hnone, -⟩ | ⟨x, t, o, hxid, htid, hep, ha, hturn, -, -⟩
  · rw [hnone] at htoken
    cases htoken
  have hx := Table.eq_of_key o.mem ((Table.mem_of_rows_append c.rows).mpr (.inr rfl))
    (hxid.trans c.id.symm)
  rw [ha] at htoken
  cases htoken
  have haid : a.turn.id = t.id := by rw [hturn]; rfl
  have o' := o.annotate (some source.snapshot) haid
  have hquery : x.kind = .query →
      db.sourceSnapshot sourceKind sourceId sourceTurnId = some source.snapshot := by
    rw [hx]
    exact hsnapshot
  cases executionData with
  | none =>
    simp only [insertRequeryExecution, Tx.pure_ok, Prod.mk.injEq] at hexecution
    obtain ⟨rfl, rfl⟩ := hexecution
    refine ⟨x, histories, _, none, source.snapshot, hx ▸ c, o', htid, hep, hquery, rfl, rfl, ?_,
      fun _ => rfl, rfl, hturn, rfl⟩
    intro e he
    cases he
  | some data =>
    simp only [insertRequeryExecution, Tx.bind_ok, Tx.pure_ok, Prod.mk.injEq] at hexecution
    obtain ⟨_, _, hinsert, rfl, rfl⟩ := hexecution
    obtain ⟨e, o₃, heid, hehash, rfl⟩ := o'.insert hxid haid.symm hep rfl hinsert
    refine ⟨x, histories, _, some e, source.snapshot, hx ▸ c, o₃, htid, hep, hquery, rfl, rfl, ?_,
      ?_, rfl, hturn, rfl⟩
    · intro f hf
      cases hf
      exact ⟨data, rfl, heid, hehash⟩
    · intro hnone
      cases hnone

lemma requeryByCreation_ok {codec : Codec} {now : Timestamp} {owner : Owner}
    {sourceKind : SourceKind} {sourceId : Uuid} {sourceTurnId : Option Uuid} {operationId : Uuid}
    {requestId : String} {epoch newId turnId runId : Uuid} {executionData : Option ExecutionData}
    {beforeAccept : HistoryKind → Except Raised Unit} {r : RequeryAcceptance}
    (hok : requeryByCreation codec now owner sourceKind sourceId sourceTurnId operationId requestId
      epoch newId turnId runId executionData beforeAccept db = .ok (r, db')) :
    (db' = db ∧ executionData = none ∧ r.created = false ∧ r.attempt.token = none) ∨
    (∀ h ∈ db.histories, ¬(h.ownerUserId = owner ∧ h.creationOperationId = operationId)) ∧
      openRequery codec now owner sourceKind sourceId sourceTurnId operationId requestId epoch
        (codec.operationHash (.requery sourceKind sourceId sourceTurnId)) newId turnId runId
        executionData beforeAccept db = .ok (r, db') := by
  simp only [requeryByCreation, Tx.read_bind_ok] at hok
  cases hfirst : db.histories.first (fun h =>
      h.ownerUserId = owner && h.creationOperationId = operationId) with
  | some existing =>
    simp only [hfirst, Tx.raiseIf_bind_ok, Tx.read_bind_ok, Tx.orRaise_bind_ok, Tx.pure_ok,
      Prod.mk.injEq] at hok
    obtain ⟨hdata, -, -, _, -, -, -, rfl, rfl⟩ := hok
    exact .inl ⟨rfl, by simpa using hdata, rfl, rfl⟩
  | none =>
    simp only [hfirst] at hok
    exact .inr ⟨fun h hh => by simpa using Table.first_none.mp hfirst h hh, hok⟩

lemma replayRequery_ok {owner : Owner} {execution : ExecutionRecord} {r : RequeryAcceptance}
    (hok : replayRequery owner execution db = .ok (r, db')) :
    db' = db ∧ r.execution = some execution ∧ r.created = false ∧ r.attempt.token = none := by
  unfold replayRequery at hok
  obtain ⟨h, -, -, -, -, hok⟩ := owned_bind_ok hok
  simp only [Tx.read_bind_ok, Tx.orRaise_bind_ok, Tx.pure_ok, Prod.mk.injEq] at hok
  obtain ⟨_, -, rfl, rfl⟩ := hok
  exact ⟨rfl, rfl, rfl, rfl⟩

/-- `begin_requery` answers a replay from the stored rows, or it opens a new history. -/
lemma beginRequery_ok {codec : Codec} {now : Timestamp} {owner : Owner} {sourceKind : SourceKind}
    {sourceId : Uuid} {sourceTurnId : Option Uuid} {operationId : Uuid} {requestId : String}
    {epoch newId turnId runId : Uuid} {executionData : Option ExecutionData}
    {beforeAccept : HistoryKind → Except Raised Unit} {r : RequeryAcceptance}
    (hok : beginRequery codec now owner sourceKind sourceId sourceTurnId operationId requestId epoch
      newId turnId runId executionData beforeAccept db = .ok (r, db')) :
    (db' = db ∧ r.created = false ∧ r.attempt.token = none ∧
      ∀ data, executionData = some data → ∃ e, db.executionOf owner operationId = some e ∧
        e.requestHash = data.requestHash ∧ r.execution = some (record e)) ∨
    (∀ data, executionData = some data → db.executionOf owner operationId = none) ∧
      (∀ h ∈ db.histories, ¬(h.ownerUserId = owner ∧ h.creationOperationId = operationId)) ∧
      openRequery codec now owner sourceKind sourceId sourceTurnId operationId requestId epoch
        (codec.operationHash (.requery sourceKind sourceId sourceTurnId)) newId turnId runId
        executionData beforeAccept db = .ok (r, db') := by
  unfold beginRequery at hok
  cases executionData with
  | none =>
    rcases requeryByCreation_ok hok with ⟨hdb, -, hcreated, htoken⟩ | ⟨hnew, hopen⟩
    · refine .inl ⟨hdb, hcreated, htoken, fun data h => ?_⟩
      cases h
    · refine .inr ⟨fun data h => ?_, hnew, hopen⟩
      cases h
  | some data =>
    rcases findInTransaction_bind_ok hok with ⟨hnone, hok⟩ | ⟨e, he, hhash, hok⟩
    · rcases requeryByCreation_ok hok with ⟨-, hdata, -, -⟩ | ⟨hnew, hopen⟩
      · cases hdata
      · exact .inr ⟨fun _ _ => hnone, hnew, hopen⟩
    · obtain ⟨hdb, hexec, hcreated, htoken⟩ := replayRequery_ok hok
      refine .inl ⟨hdb, hcreated, htoken, fun data' h => ?_⟩
      cases h
      exact ⟨e, he, hhash, hexec⟩

end ChatBI.Store
