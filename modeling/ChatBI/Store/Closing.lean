import ChatBI.Store.Consistent
import ChatBI.Store.History

/-!
# Running, stopping and closing

One inversion lemma for every operation that moves or closes an open turn: from a committed
call, the rows it read and the effects it had.
-/

namespace ChatBI.Store

open ChatBI.Lib Relation

variable {db db' : Db}

lemma owned_bind_ok {α : Type} {owner : Owner} {historyId : Uuid} {k : HistoryRow → Tx α}
    {r : α × Db} (hok : (owned owner historyId >>= k) db = .ok r) :
    ∃ h ∈ db.histories, h.id = historyId ∧ h.ownerUserId = owner ∧ h.deletedAt = none ∧
      k h db = .ok r := by
  simp only [owned, bind_assoc, Tx.read_bind_ok, Tx.orRaise_bind_ok] at hok
  obtain ⟨h, hfirst, hok⟩ := hok
  obtain ⟨hmem, hp⟩ := Table.first_some hfirst
  simp only [Bool.and_eq_true, decide_eq_true_eq] at hp
  exact ⟨h, hmem, hp.1.1, hp.1.2, hp.2, hok⟩

lemma lockedInTransaction_bind_ok {α : Type} {owner : Owner} {executionId : Uuid}
    {k : ExecutionRow → Tx α} {r : α × Db}
    (hok : (lockedInTransaction owner executionId >>= k) db = .ok r) :
    ∃ e ∈ db.executions, e.id = executionId ∧ e.ownerUserId = owner ∧ k e db = .ok r := by
  simp only [lockedInTransaction, bind_assoc, Tx.read_bind_ok, Tx.orRaise_bind_ok] at hok
  obtain ⟨e, hfirst, hok⟩ := hok
  obtain ⟨hmem, hp⟩ := Table.first_some hfirst
  simp only [Bool.and_eq_true, decide_eq_true_eq] at hp
  exact ⟨e, hmem, hp.1, hp.2, hok⟩

/-! ### Running and stopping -/

lemma runnable_iff {owner : Owner} {executionId : Uuid} {e : ExecutionRow} :
    runnable db owner executionId e = true ↔ e.id = executionId ∧ e.ownerUserId = owner ∧
      e.status = .accepted ∧
      (∃ h ∈ db.histories, h.id = e.historyId ∧ h.ownerUserId = e.ownerUserId ∧
        h.activeTurnId = some e.turnId ∧ h.executionGeneration = e.executionGeneration) ∧
      (∃ t ∈ db.turns, t.id = e.turnId ∧ t.historyId = e.historyId ∧ t.status = .accepted ∧
        t.runtimeEpoch = e.runtimeEpoch) ∧ db.runtimeEpoch = some e.runtimeEpoch := by
  simp only [runnable, Bool.and_eq_true, decide_eq_true_eq, List.any_eq_true, and_assoc]
  rfl

/-- `mark_running` starts the execution when it is runnable; otherwise it returns only for
an execution that is already running. -/
lemma markExecutionRunning_ok {now : Timestamp} {owner : Owner} {executionId : Uuid} {u : Unit}
    (hok : markExecutionRunning now owner executionId db = .ok (u, db')) :
    Settle db db' ∧ ∃ e ∈ db.executions, e.id = executionId ∧ e.ownerUserId = owner ∧
      (runnable db owner executionId e = true ∨ e.status = .running) := by
  simp only [markExecutionRunning, markRunningInTransaction, Tx.read_bind_ok,
    updateExecutions_bind_ok, id] at hok
  have hmoved : ∀ e ∈ db.executions, e.Moved
      (if runnable db owner executionId e then e.run now else e) := by
    intro e _
    split_ifs with hrun
    · have hst := (runnable_iff.mp hrun).2.2.1
      exact ⟨⟨rfl, rfl, rfl, rfl, rfl, rfl, rfl, rfl⟩,
        .inr ⟨by simp [hst, ExecutionStatus.isActive], .inl ⟨rfl, rfl⟩⟩⟩
    · exact .refl e
  split_ifs at hok with hlen
  · simp only [Tx.pure_ok, Prod.mk.injEq] at hok
    have hne : db.executions.select (runnable db owner executionId) ≠ [] := by
      intro hnil
      simp [hnil] at hlen
    obtain ⟨e, he⟩ := List.exists_mem_of_ne_nil _ hne
    obtain ⟨he, hrun⟩ := Table.mem_select.mp he
    rw [hok.2]
    exact ⟨Settle.touchExecutions hmoved, e, he, (runnable_iff.mp hrun).1,
      (runnable_iff.mp hrun).2.1, .inl hrun⟩
  · simp only [Tx.orRaise_bind_ok] at hok
    obtain ⟨row, hfirst, hok⟩ := hok
    obtain ⟨hmem, hp⟩ := Table.first_some hfirst
    simp only [Bool.and_eq_true, decide_eq_true_eq] at hp
    by_cases hst : row.status = .stopping
    · simp only [if_pos hst, Tx.raiseStopped_ok] at hok
    · simp only [if_neg hst, Tx.raiseIf_ok, Prod.mk.injEq, ne_eq, not_not] at hok
      rw [hok.2.2]
      exact ⟨Settle.touchExecutions hmoved, row, hmem, hp.1, hp.2, .inr hok.1⟩

lemma expireCancelledAnalysisRun_ok {codec : Codec} {now : Timestamp} {history : HistoryRow}
    {subject : Option String} {u : Unit}
    (hok : expireCancelledAnalysisRun codec now history subject db = .ok (u, db')) :
    ∃ runs, db' = { db with analysisRuns := runs } := by
  simp only [expireCancelledAnalysisRun, Tx.orRaise_bind_ok, Tx.read_bind_ok] at hok
  obtain ⟨identity, -, hok⟩ := hok
  cases hrun : db.analysisRuns.find? identity.1 with
  | none =>
    simp only [hrun, Tx.orRaise_bind_ok, Tx.read_bind_ok, Tx.write_ok, Prod.mk.injEq] at hok
    obtain ⟨runs, -, -, rfl⟩ := hok
    exact ⟨runs, rfl⟩
  | some row =>
    simp only [hrun, Tx.raiseIf_bind_ok, updateAnalysisRuns_ok, Prod.mk.injEq] at hok
    obtain ⟨-, -, rfl⟩ := hok
    exact ⟨_, rfl⟩

lemma requestStopInTransaction_ok {now : Timestamp} {row : ExecutionRow}
    {reason : ExecutionStopReason} {r : ExecutionRecord}
    (hok : requestStopInTransaction now row reason db = .ok (r, db')) :
    Settle db db' ∧ (row.status.isActive = false → r = record row ∧ db' = db) := by
  simp only [requestStopInTransaction] at hok
  split_ifs at hok with hactive
  · simp only [Tx.pure_ok, Prod.mk.injEq] at hok
    obtain ⟨rfl, rfl⟩ := hok
    exact ⟨Settle.touchOthers db'.savedResults db'.analysisRuns, fun _ => ⟨rfl, rfl⟩⟩
  · simp only [updateExecutions_bind_ok, Tx.orRaise_bind_ok, Tx.pure_ok, Prod.mk.injEq] at hok
    obtain ⟨_, -, -, rfl⟩ := hok
    refine ⟨Settle.touchExecutions (fun e _ => ?_), fun h => absurd h hactive⟩
    split_ifs with he
    · simp only [Bool.and_eq_true, decide_eq_true_eq] at he
      exact ⟨⟨rfl, rfl, rfl, rfl, rfl, rfl, rfl, rfl⟩, .inr ⟨he.2, .inr ⟨rfl, rfl⟩⟩⟩
    · exact .refl e

/-- `request_execution_stop` reads the execution of the owner; it changes nothing unless the
execution is accepted or running. -/
lemma requestExecutionStop_ok {codec : Codec} {now : Timestamp} {owner : Owner}
    {executionId : Uuid} {reason : ExecutionStopReason} {subject : Option String}
    {r : ExecutionRecord}
    (hok : requestExecutionStop codec now owner executionId reason subject db = .ok (r, db')) :
    Settles db db' ∧ ∃ e ∈ db.executions, e.id = executionId ∧ e.ownerUserId = owner ∧
      (e.status.isActive = false → r = record e ∧ db' = db) := by
  simp only [requestExecutionStop, Tx.read_bind_ok, Tx.orRaise_bind_ok] at hok
  obtain ⟨identity, -, hok⟩ := hok
  obtain ⟨history, -, -, -, -, hok⟩ := owned_bind_ok hok
  obtain ⟨e, he, hid, ho, hok⟩ := lockedInTransaction_bind_ok hok
  by_cases hactive : e.status.isActive = false
  · simp only [if_pos hactive, Tx.pure_ok, Prod.mk.injEq] at hok
    obtain ⟨rfl, rfl⟩ := hok
    exact ⟨.refl, e, he, hid, ho, fun _ => ⟨rfl, rfl⟩⟩
  · simp only [if_neg hactive, Tx.read_bind_ok, Tx.raiseIf_bind_ok] at hok
    obtain ⟨-, hok⟩ := hok
    refine ⟨?_, e, he, hid, ho, fun h => absurd h hactive⟩
    split_ifs at hok with hexpire
    · obtain ⟨_, _, hrun, hok⟩ := Tx.bind_ok.mp hok
      obtain ⟨runs, rfl⟩ := expireCancelledAnalysisRun_ok hrun
      exact .head (Settle.touchOthers _ runs) (.single (requestStopInTransaction_ok hok).1)
    · exact .single (requestStopInTransaction_ok hok).1

/-! ### Closing a turn -/

/-- The token names the active turn of a history, its generation and the current epoch. -/
structure Current (db : Db) (token : ExecutionToken) (h : HistoryRow) (t : TurnRow) : Prop where
  memHistory : h ∈ db.histories
  memTurn : t ∈ db.turns
  history : h.id = token.historyId
  turn : t.id = token.turnId
  active : h.activeTurnId = some token.turnId
  generation : h.executionGeneration = token.generation
  epoch : db.runtimeEpoch = some token.epoch
  turnHistory : t.historyId = token.historyId
  accepted : t.status = .accepted

/-- Closing a current turn is one effect when its execution is singled out. -/
lemma Settle.close_current {token : ExecutionToken} {h h' : HistoryRow} {t t' : TurnRow}
    {fe : ExecutionRow → ExecutionRow} {pe : ExecutionRow → Bool} {hfe : ∀ r, (fe r).id = r.id}
    (cur : Current db token h t) (closing : Closing h h' t t' fe)
    (hpe : ∀ e ∈ db.executions, pe e = true ↔ e.openOn t = true)
    (unstopped : t'.status = .succeeded → ∀ e ∈ db.executions, e.openOn t = true →
      e.status ≠ .stopping) :
    Settle db { db with
      histories := db.histories.set h', turns := db.turns.set t'
      executions := db.executions.update pe fe hfe } := by
  have hexec : db.executions.update pe fe hfe = db.executions.update (ExecutionRow.openOn t) fe
      (fun e => (closing.execution e).id) := by
    refine Table.map_congr (fun e he => ?_)
    rw [Bool.eq_iff_iff.mpr (hpe e he)]
  rw [hexec]
  exact .close cur.memHistory cur.memTurn (by rw [cur.active, cur.turn])
    (by rw [cur.turnHistory, cur.history]) cur.accepted closing unstopped

lemma ExecutionRow.openOn_iff {t : TurnRow} {e : ExecutionRow} :
    e.openOn t = true ↔ e.historyId = t.historyId ∧ e.turnId = t.id ∧ e.status.isOpen = true := by
  simp [ExecutionRow.openOn, and_assoc]

/-- A turn is finished with its own execution, or with none when it has none. -/
def OwnExecution (db : Db) (token : ExecutionToken) (executionId : Option Uuid) : Prop :=
  ∀ e ∈ db.executions, executionId = some e.id ↔
    e.historyId = token.historyId ∧ e.turnId = token.turnId

instance (db : Db) (token : ExecutionToken) (executionId : Option Uuid) :
    Decidable (OwnExecution db token executionId) := by
  unfold OwnExecution
  infer_instance

lemma checkUnstopped_bind_ok {α : Type} {owner : Owner} {executionId : Option Uuid}
    {k : Unit → Tx α} {r : α × Db} (hok : (checkUnstopped owner executionId >>= k) db = .ok r) :
    (∀ x, executionId = some x → ∃ e ∈ db.executions, e.id = x ∧ e.ownerUserId = owner ∧
      e.status.isActive = true) ∧ k () db = .ok r := by
  cases executionId with
  | none => exact ⟨nofun, hok⟩
  | some x =>
    simp only [checkUnstopped, bind_assoc] at hok
    obtain ⟨e, he, hid, ho, hok⟩ := lockedInTransaction_bind_ok hok
    by_cases hst : e.status = .stopping
    · simp only [if_pos hst, Tx.raiseStopped_bind_ok] at hok
    · simp only [if_neg hst, Tx.raiseIf_bind_ok, Bool.not_eq_false] at hok
      refine ⟨fun y hy => ?_, hok.2⟩
      cases hy
      exact ⟨e, he, hid, ho, hok.1⟩

/-- The rows that the statement of a closing transaction matched. -/
lemma head?_select_map {p : TurnRow → Bool} {f : TurnRow → TurnRow} {row : TurnRow}
    (h : ((db.turns.select p).map f).head? = some row) :
    ∃ t ∈ db.turns, p t = true ∧ row = f t := by
  have hmem := List.mem_of_mem_head? h
  obtain ⟨t, ht, rfl⟩ := List.mem_map.mp hmem
  exact ⟨t, (Table.mem_select.mp ht).1, (Table.mem_select.mp ht).2, rfl⟩

/-- The executions that a finish operation may close. -/
def finishable (owner : Owner) (executionId : Option Uuid) (e : ExecutionRow) : Bool :=
  executionId = some e.id && e.ownerUserId = owner && e.status.isActive

lemma finishExecution_bind_ok {α : Type} {now : Timestamp} {owner : Owner}
    {snapshot : Option Json} {error : Option PublicError} {executionId : Option Uuid}
    {k : Unit → Tx α} {r : α × Db}
    (hok : (finishExecution now owner snapshot error executionId >>= k) db = .ok r) :
    k () { db with
      executions := db.executions.update (finishable owner executionId)
        (ExecutionRow.finish now (if snapshot.isSome then .succeeded else .failed) error)
        (fun e => e.finish_id now _ _) } = .ok r := by
  cases executionId with
  | none =>
    rw [Table.update_eq_self (fun e _ => by simp [finishable])]
    exact hok
  | some x =>
    simp only [finishExecution, finishInTransaction, bind_assoc, updateExecutions_bind_ok,
      Tx.raiseIf_bind_ok] at hok
    rw [← hok.2]
    congr 3
    funext e
    simp only [finishable, Option.some.injEq, @eq_comm _ x]

/-- A finish operation commits only under a current token and with an execution that is not
being stopped; it then closes the turn, its history and its execution. -/
lemma finishAttempt_ok {now : Timestamp} {owner : Owner} {token : ExecutionToken}
    {snapshot : Option Json} {error : Option PublicError} {executionId : Option Uuid}
    {r : HistoryTurn}
    (hok : finishAttempt now owner token snapshot error executionId db = .ok (r, db')) :
    ∃ h t, Current db token h t ∧ h.ownerUserId = owner ∧ r = turn (t.finish now snapshot error) ∧
      (∀ x, executionId = some x → ∃ e ∈ db.executions, e.id = x ∧ e.ownerUserId = owner ∧
        e.status.isActive = true) ∧
      db' = { db with
        histories := db.histories.set (h.finish now token.turnId snapshot.isSome)
        turns := db.turns.set (t.finish now snapshot error)
        executions := db.executions.update (finishable owner executionId)
          (ExecutionRow.finish now (if snapshot.isSome then .succeeded else .failed) error)
          (fun e => e.finish_id now _ _) } := by
  unfold finishAttempt at hok
  obtain ⟨h, hh, hid, ho, -, hok⟩ := owned_bind_ok hok
  obtain ⟨hexec, hok⟩ := checkUnstopped_bind_ok hok
  simp only [Tx.read_bind_ok, Tx.raiseIf_bind_ok, updateTurns_bind_ok, Tx.orRaise_bind_ok,
    updateHistories_bind_ok, not_or, ne_eq, not_not] at hok
  obtain ⟨⟨hactive, hgen, hepoch⟩, row, hrow, hok⟩ := hok
  obtain ⟨t, ht, hpt, rfl⟩ := head?_select_map hrow
  have hok := finishExecution_bind_ok hok
  simp only [Tx.pure_ok, Prod.mk.injEq] at hok
  obtain ⟨rfl, rfl⟩ := hok
  have honly := hpt
  simp only [Bool.and_eq_true, decide_eq_true_eq] at hpt
  obtain ⟨⟨⟨⟨htid, hthist⟩, hacc⟩, -⟩, -⟩ := hpt
  refine ⟨h, t, ⟨hh, ht, hid, htid, hactive, hgen, hepoch, hthist, hacc⟩, ho, rfl, hexec, ?_⟩
  rw [Table.update_key_eq_set hh hid, Table.update_eq_set ht]
  intro s hs
  constructor
  · intro hps
    simp only [Bool.and_eq_true, decide_eq_true_eq] at hps
    exact Table.eq_of_key hs ht (hps.1.1.1.1.trans htid.symm)
  · rintro rfl
    exact honly

theorem finishAttempt_settle {now : Timestamp} {owner : Owner} {token : ExecutionToken}
    {snapshot : Option Json} {error : Option PublicError} {executionId : Option Uuid}
    {r : HistoryTurn} (own : OwnExecution db token executionId)
    (hok : finishAttempt now owner token snapshot error executionId db = .ok (r, db')) :
    Settle db db' := by
  obtain ⟨h, t, cur, -, -, hexec, rfl⟩ := finishAttempt_ok hok
  have hown : ∀ e ∈ db.executions, e.openOn t = true → executionId = some e.id := by
    intro e he hopen
    obtain ⟨hh, ht, -⟩ := ExecutionRow.openOn_iff.mp hopen
    exact (own e he).mpr ⟨hh.trans cur.turnHistory, ht.trans cur.turn⟩
  refine Settle.close_current cur ?_ ?_ ?_
  · refine ⟨⟨rfl, rfl, rfl, rfl⟩, rfl, rfl, rfl, ⟨rfl, rfl, rfl, rfl, rfl, rfl⟩, ?_, ?_, ?_,
      fun e => ⟨rfl, rfl, rfl, rfl, rfl, rfl, rfl, rfl⟩, fun _ => rfl, ?_, ?_⟩ <;>
      cases snapshot <;> simp [TurnRow.finish, HistoryRow.finish, ExecutionRow.finish, finishStatus,
        ExecutionStatus.isOpen, cur.turn]
  · intro e he
    simp only [finishable, Bool.and_eq_true, decide_eq_true_eq]
    constructor
    · rintro ⟨⟨hid, -⟩, hactive⟩
      obtain ⟨hh, ht⟩ := (own e he).mp hid
      exact ExecutionRow.openOn_iff.mpr ⟨hh.trans cur.turnHistory.symm, ht.trans cur.turn.symm,
        ExecutionStatus.isOpen_of_isActive hactive⟩
    · intro hopen
      obtain ⟨f, hf, hfid, ho, hactive⟩ := hexec _ (hown e he hopen)
      rw [← Table.eq_of_key hf he hfid]
      exact ⟨⟨hfid ▸ hown e he hopen, ho⟩, hactive⟩
  · intro _ e he hopen hst
    obtain ⟨f, hf, hfid, -, hactive⟩ := hexec _ (hown e he hopen)
    rw [Table.eq_of_key hf he hfid, hst] at hactive
    cases hactive

/-- Finishing a stop commits only under a current token whose execution is stopping. -/
lemma finishExecutionStopped_ok {now : Timestamp} {owner : Owner} {token : ExecutionToken}
    {executionId : Uuid} {status : StopStatus} {error : PublicError} {r : HistoryTurn}
    (hok : finishExecutionStopped now owner token executionId status error db = .ok (r, db')) :
    ∃ h t e, Current db token h t ∧ h.ownerUserId = owner ∧ r = turn (t.stop now error) ∧
      e ∈ db.executions ∧ e.id = executionId ∧ e.ownerUserId = owner ∧
      e.historyId = token.historyId ∧ e.turnId = token.turnId ∧ e.status = .stopping ∧
      db' = { db with
        histories := db.histories.set (h.release now)
        turns := db.turns.set (t.stop now error)
        executions := db.executions.update
          (fun e => e.id = executionId && e.ownerUserId = owner && e.status = .stopping)
          (ExecutionRow.finish now status.toStatus (some error)) (fun e => e.finish_id now _ _) } := by
  unfold finishExecutionStopped at hok
  obtain ⟨h, hh, hid, ho, -, hok⟩ := owned_bind_ok hok
  simp only [Tx.read_bind_ok, Tx.raiseIf_bind_ok, not_or, ne_eq, not_not] at hok
  obtain ⟨⟨hactive, hgen, hepoch⟩, hok⟩ := hok
  obtain ⟨e, he, heid, heo, hok⟩ := lockedInTransaction_bind_ok hok
  simp only [Tx.raiseIf_bind_ok, updateTurns_bind_ok, Tx.orRaise_bind_ok,
    updateHistories_bind_ok, finishStopInTransaction, bind_assoc, updateExecutions_bind_ok,
    not_or, ne_eq, not_not, Tx.pure_ok, Prod.mk.injEq] at hok
  obtain ⟨⟨hehist, heturn, -, hest⟩, row, hrow, -, -, rfl, rfl⟩ := hok
  obtain ⟨t, ht, hpt, rfl⟩ := head?_select_map hrow
  have honly := hpt
  simp only [Bool.and_eq_true, decide_eq_true_eq] at hpt
  obtain ⟨⟨⟨⟨htid, hthist⟩, hacc⟩, -⟩, -⟩ := hpt
  refine ⟨h, t, e, ⟨hh, ht, hid, htid, hactive, hgen, hepoch, hthist, hacc⟩, ho, rfl, he, heid,
    heo, hehist, heturn, hest, ?_⟩
  rw [Table.update_eq_set hh, Table.update_eq_set ht]
  · intro s hs
    constructor
    · intro hps
      simp only [Bool.and_eq_true, decide_eq_true_eq] at hps
      exact Table.eq_of_key hs ht (hps.1.1.1.1.trans htid.symm)
    · rintro rfl
      exact honly
  · intro x hx
    constructor
    · intro hpx
      simp only [Bool.and_eq_true, decide_eq_true_eq] at hpx
      exact Table.eq_of_key hx hh (hpx.1.1.trans hid.symm)
    · rintro rfl
      simp [hid, hactive, hgen]

theorem finishExecutionStopped_settle {now : Timestamp} {owner : Owner} {token : ExecutionToken}
    {executionId : Uuid} {status : StopStatus} {error : PublicError} {r : HistoryTurn}
    (C : Consistent db)
    (hok : finishExecutionStopped now owner token executionId status error db = .ok (r, db')) :
    Settle db db' := by
  obtain ⟨h, t, e, cur, -, -, he, hid, ho, hehist, heturn, hest, rfl⟩ :=
    finishExecutionStopped_ok hok
  have hone : ∀ f ∈ db.executions, f.openOn t = true → f = e := by
    intro f hf hopen
    obtain ⟨hfh, hft, -⟩ := ExecutionRow.openOn_iff.mp hopen
    refine C.execution_one f hf e he ?_
    rw [Prod.mk.injEq, hfh, hft, hehist, heturn, cur.turnHistory, cur.turn]
    exact ⟨rfl, rfl⟩
  refine Settle.close_current cur ?_ ?_ ?_
  · refine ⟨⟨rfl, rfl, rfl, rfl⟩, rfl, rfl, rfl, ⟨rfl, rfl, rfl, rfl, rfl, rfl⟩, ?_, ?_, ?_,
      fun e => ⟨rfl, rfl, rfl, rfl, rfl, rfl, rfl, rfl⟩, fun _ => rfl, ?_, ?_⟩ <;>
      cases status <;> simp [TurnRow.stop, HistoryRow.release, ExecutionRow.finish,
        ExecutionStatus.isOpen, StopStatus.toStatus]
  · intro f hf
    simp only [Bool.and_eq_true, decide_eq_true_eq]
    constructor
    · rintro ⟨⟨hfid, -⟩, -⟩
      rw [Table.eq_of_key hf he (hfid.trans hid.symm)]
      exact ExecutionRow.openOn_iff.mpr ⟨hehist.trans cur.turnHistory.symm,
        heturn.trans cur.turn.symm, by simp [hest, ExecutionStatus.isOpen]⟩
    · intro hopen
      rw [hone f hf hopen]
      exact ⟨⟨hid, ho⟩, hest⟩
  · intro hst
    cases hst

/-! ### Recovery -/

lemma reconcile_ok {now : Timestamp} {epoch historyId : Uuid} {u : Unit}
    (hok : reconcile now epoch historyId db = .ok (u, db')) :
    db' = db ∨ ∃ h ∈ db.histories, ∃ t ∈ db.turns, h.id = historyId ∧ h.activeTurnId = some t.id ∧
      t.status = .accepted ∧ t.runtimeEpoch = epoch ∧
      db' = { db with
        histories := db.histories.set (h.abandon now), turns := db.turns.set (t.abandon now)
        executions := db.executions.update
          (fun e => e.historyId = historyId && e.turnId = t.id && e.runtimeEpoch = epoch &&
            e.status.isOpen)
          (ExecutionRow.abandon now) (fun e => e.abandon_id now) } := by
  simp only [reconcile, Tx.read_bind_ok] at hok
  cases hactive : (db.histories.find? historyId).bind HistoryRow.activeTurnId with
  | none =>
    simp only [hactive, Tx.pure_ok, Prod.mk.injEq] at hok
    exact .inl hok.2
  | some i =>
    simp only [hactive, updateTurns_bind_ok, Tx.raiseIf_bind_ok, updateExecutions_bind_ok,
      updateHistories_bind_ok, Tx.pure_ok, Prod.mk.injEq, ne_eq, not_not] at hok
    obtain ⟨hlen, -, rfl⟩ := hok
    obtain ⟨h, hfind, hi⟩ := Option.bind_eq_some_iff.mp hactive
    obtain ⟨hh, hid⟩ := Table.find?_eq_some_iff.mp hfind
    rw [List.length_map] at hlen
    obtain ⟨t, hmatched⟩ := List.length_eq_one_iff.mp hlen
    obtain ⟨ht, hpt⟩ := Table.mem_select.mp (hmatched ▸ List.mem_singleton_self t)
    have honly := hpt
    simp only [Bool.and_eq_true, decide_eq_true_eq] at hpt
    obtain ⟨⟨rfl, hacc⟩, hep⟩ := hpt
    refine .inr ⟨h, hh, t, ht, hid, hi, hacc, hep, ?_⟩
    rw [Table.update_key_eq_set hh hid, Table.update_eq_set ht]
    intro s hs
    constructor
    · intro hps
      simp only [Bool.and_eq_true, decide_eq_true_eq] at hps
      exact Table.eq_of_key hs ht hps.1.1
    · rintro rfl
      exact honly

theorem reconcile_settles {now : Timestamp} {epoch historyId : Uuid} {u : Unit}
    (C : Consistent db) (hok : reconcile now epoch historyId db = .ok (u, db')) :
    Settles db db' := by
  rcases reconcile_ok hok with rfl | ⟨h, hh, t, ht, hid, hactive, hacc, hep, rfl⟩
  · exact .refl
  · obtain ⟨s, hs, hsid, a⟩ := C.active_turn h hh t.id hactive
    have := Table.eq_of_key hs ht hsid
    subst this
    have cur : Current db ⟨historyId, s.id, epoch, h.executionGeneration⟩ h s :=
      ⟨hh, ht, hid, rfl, hactive, rfl, by rw [a.epoch, hep], a.history.trans hid, hacc⟩
    refine .single (Settle.close_current cur ?_ ?_ ?_)
    · refine ⟨⟨rfl, rfl, rfl, rfl⟩, rfl, rfl, rfl, ⟨rfl, rfl, rfl, rfl, rfl, rfl⟩, ?_, ?_, ?_,
        fun e => ⟨rfl, rfl, rfl, rfl, rfl, rfl, rfl, rfl⟩, fun _ => rfl, ?_, ?_⟩ <;>
        simp [TurnRow.abandon, HistoryRow.abandon, ExecutionRow.abandon, ExecutionStatus.isOpen]
    · intro e he
      rw [ExecutionRow.openOn_iff]
      simp only [Bool.and_eq_true, decide_eq_true_eq, and_assoc, cur.turnHistory]
      refine and_congr_right (fun hehist => and_congr_right (fun heturn => ?_))
      rw [← hep, ← (C.on_of_turn he ht heturn).epoch]
      exact and_iff_right rfl
    · intro hst
      cases hst

theorem startRuntime_settle {now : Timestamp} {epoch : Uuid} {u : Unit}
    (hok : startRuntime now epoch db = .ok (u, db')) : Settle db db' := by
  simp only [startRuntime, Tx.write_bind_ok, updateTurns_bind_ok, updateExecutions_bind_ok,
    updateHistories_bind_ok, Tx.pure_ok, Prod.mk.injEq] at hok
  obtain ⟨-, rfl⟩ := hok
  exact .restart epoch now

end ChatBI.Store
