import ChatBI.Store.Linked

/-!
# Executions and their turns

An execution is open exactly while its turn is accepted and succeeds exactly when its turn
does; the operations of an owner and of a history are unique.
-/

namespace ChatBI.Store

open ChatBI.Lib

/-- `e` is the execution of the turn `t`. -/
structure ExecutionRow.On (e : ExecutionRow) (t : TurnRow) : Prop where
  history : t.historyId = e.historyId
  turn : t.id = e.turnId
  operation : t.operationId = e.operationId
  epoch : t.runtimeEpoch = e.runtimeEpoch
  generation : t.executionGeneration = e.executionGeneration
  isOpen : e.status.isOpen = true ↔ t.status = .accepted
  succeeded : e.status = .succeeded ↔ t.status = .succeeded

structure Executed (db : Db) : Prop where
  execution_turn : ∀ e ∈ db.executions, ∃ t ∈ db.turns, e.On t
  execution_history : ∀ e ∈ db.executions, ∃ h ∈ db.histories,
    h.id = e.historyId ∧ h.ownerUserId = e.ownerUserId
  unstopped : ∀ e ∈ db.executions, e.status.isActive = true → e.stopReason = none
  execution_operation : db.executions.UniqueOn (fun e => (e.ownerUserId, e.operationId))
  execution_one : db.executions.UniqueOn (fun e => (e.historyId, e.turnId))
  turn_operation : db.turns.UniqueOn (fun t => (t.historyId, t.operationId))
  history_creation : db.histories.UniqueOn (fun h => (h.ownerUserId, h.creationOperationId))

lemma ExecutionStatus.isOpen_of_isActive {s : ExecutionStatus} (h : s.isActive = true) :
    s.isOpen = true := by
  cases s <;> simp_all [isActive, isOpen]

variable {db : Db}

lemma ExecutionRow.On.same {e e' : ExecutionRow} {t t' : TurnRow} (o : e.On t) (he : e.Same e')
    (ht : t.Same t') (hopen : e'.status.isOpen = true ↔ t'.status = .accepted)
    (hsucc : e'.status = .succeeded ↔ t'.status = .succeeded) : e'.On t' :=
  ⟨by rw [ht.history, he.history, o.history], by rw [ht.id, he.turn, o.turn],
    by rw [ht.operation, he.operation, o.operation], by rw [ht.epoch, he.epoch, o.epoch],
    by rw [ht.generation, he.generation, o.generation], hopen, hsucc⟩

namespace Executed

lemma init : Executed {} where
  execution_turn _ he := absurd he (Table.not_mem_empty _)
  execution_history _ he := absurd he (Table.not_mem_empty _)
  unstopped _ he := absurd he (Table.not_mem_empty _)
  execution_operation := Table.uniqueOn_empty
  execution_one := Table.uniqueOn_empty
  turn_operation := Table.uniqueOn_empty
  history_creation := Table.uniqueOn_empty

/-- The turn of an execution is determined by its key. -/
lemma on_of_turn (X : Executed db) {e : ExecutionRow} {t : TurnRow} (he : e ∈ db.executions)
    (ht : t ∈ db.turns) (hid : e.turnId = t.id) : e.On t := by
  obtain ⟨t₁, ht₁, o⟩ := X.execution_turn e he
  rwa [← Table.eq_of_key ht₁ ht (o.turn.trans hid)]

/-- Rewriting rows keeps executions on their turns when each pair is still in step. -/
lemma rewrite (X : Executed db) {fh : HistoryRow → HistoryRow} {ft : TurnRow → TurnRow}
    {fe : ExecutionRow → ExecutionRow} (hfh : ∀ h, (fh h).id = h.id) (hft : ∀ t, (ft t).id = t.id)
    (hfe : ∀ e, (fe e).id = e.id) (histories : ∀ h ∈ db.histories, h.Same (fh h))
    (turns : ∀ t ∈ db.turns, t.Same (ft t)) (executions : ∀ e ∈ db.executions, e.Same (fe e))
    (step : ∀ e ∈ db.executions, ∀ t ∈ db.turns, e.On t →
      ((fe e).status.isOpen = true ↔ (ft t).status = .accepted) ∧
        ((fe e).status = .succeeded ↔ (ft t).status = .succeeded))
    (unstopped : ∀ e ∈ db.executions, (fe e).status.isActive = true → (fe e).stopReason = none)
    {db' : Db} (hhs : db'.histories = db.histories.map fh hfh)
    (hts : db'.turns = db.turns.map ft hft) (hes : db'.executions = db.executions.map fe hfe) :
    Executed db' := by
  refine ⟨?_, ?_, ?_, ?_, ?_, ?_, ?_⟩
  · rw [hes, hts]
    intro e' he'
    obtain ⟨e, he, rfl⟩ := Table.mem_map.mp he'
    obtain ⟨t, ht, o⟩ := X.execution_turn e he
    obtain ⟨hopen, hsucc⟩ := step e he t ht o
    exact ⟨ft t, Table.mem_map_of_mem ht, o.same (executions e he) (turns t ht) hopen hsucc⟩
  · rw [hes, hhs]
    intro e' he'
    obtain ⟨e, he, rfl⟩ := Table.mem_map.mp he'
    obtain ⟨h, hh, hid, ho⟩ := X.execution_history e he
    exact ⟨fh h, Table.mem_map_of_mem hh,
      by rw [(histories h hh).id, (executions e he).history, hid],
      by rw [(histories h hh).owner, (executions e he).owner, ho]⟩
  · rw [hes]
    intro e' he'
    obtain ⟨e, he, rfl⟩ := Table.mem_map.mp he'
    exact unstopped e he
  · rw [hes]
    exact X.execution_operation.map
      (fun e he => by rw [(executions e he).owner, (executions e he).operation])
  · rw [hes]
    exact X.execution_one.map
      (fun e he => by rw [(executions e he).history, (executions e he).turn])
  · rw [hts]
    exact X.turn_operation.map
      (fun t ht => by rw [(turns t ht).history, (turns t ht).operation])
  · rw [hhs]
    exact X.history_creation.map
      (fun h hh => by rw [(histories h hh).owner, (histories h hh).creation])

lemma touch (X : Executed db) {fh : HistoryRow → HistoryRow} {ft : TurnRow → TurnRow}
    {fe : ExecutionRow → ExecutionRow} (hfh : ∀ h, (fh h).id = h.id) (hft : ∀ t, (ft t).id = t.id)
    (hfe : ∀ e, (fe e).id = e.id) (histories : ∀ h ∈ db.histories, h.Kept (fh h))
    (turns : ∀ t ∈ db.turns, t.Kept (ft t)) (executions : ∀ e ∈ db.executions, e.Moved (fe e))
    {db' : Db} (hhs : db'.histories = db.histories.map fh hfh)
    (hts : db'.turns = db.turns.map ft hft) (hes : db'.executions = db.executions.map fe hfe) :
    Executed db' := by
  refine X.rewrite hfh hft hfe (fun h hh => (histories h hh).toSame)
    (fun t ht => (turns t ht).toSame) (fun e he => (executions e he).toSame) ?_ ?_ hhs hts hes
  · intro e he t ht o
    rw [(turns t ht).status]
    rcases (executions e he).move with hsame | ⟨hactive, hmoved⟩
    · rw [hsame]
      exact ⟨o.isOpen, o.succeeded⟩
    · have hacc := o.isOpen.mp (ExecutionStatus.isOpen_of_isActive hactive)
      rcases hmoved with ⟨hst, -⟩ | ⟨hst, -⟩ <;> simp [hst, hacc, ExecutionStatus.isOpen]
  · intro e he hactive'
    rcases (executions e he).move with hsame | ⟨hactive, ⟨-, hreason⟩ | ⟨hst, -⟩⟩
    · rw [hsame] at hactive' ⊢
      exact X.unstopped e he hactive'
    · rw [hreason, X.unstopped e he hactive]
    · rw [hst] at hactive'
      cases hactive'

lemma create (X : Executed db) {h : HistoryRow} {histories : Table HistoryRow.id}
    (rows : histories.rows = db.histories.rows ++ [h])
    (operation : ∀ r ∈ db.histories, r.ownerUserId = h.ownerUserId →
      r.creationOperationId ≠ h.creationOperationId) :
    Executed { db with histories := histories } := by
  refine ⟨X.execution_turn, ?_, X.unstopped, X.execution_operation, X.execution_one,
    X.turn_operation, X.history_creation.append rows ?_⟩
  · intro e he
    obtain ⟨x, hx, hid⟩ := X.execution_history e he
    exact ⟨x, (Table.mem_of_rows_append rows).mpr (.inl hx), hid⟩
  · intro r hr heq
    rw [Prod.mk.injEq] at heq
    exact operation r hr heq.1 heq.2

lemma begin (X : Executed db) {h h' : HistoryRow} {t : TurnRow} {turns : Table TurnRow.id}
    (mem : h ∈ db.histories) (same : h.Same h') (opens : t.Opens db h)
    (rows : turns.rows = db.turns.rows ++ [t]) :
    Executed { db with turns := turns, histories := db.histories.set h' } := by
  refine ⟨?_, ?_, X.unstopped, X.execution_operation, X.execution_one,
    X.turn_operation.append rows ?_,
    X.history_creation.set mem same.id (by rw [same.owner, same.creation])⟩
  · intro e he
    obtain ⟨s, hs, o⟩ := X.execution_turn e he
    exact ⟨s, (Table.mem_of_rows_append rows).mpr (.inl hs), o⟩
  · intro e he
    obtain ⟨x, hx, hid, ho⟩ := X.execution_history e he
    by_cases hxh : x.id = h'.id
    · have := Table.eq_of_key hx mem (hxh.trans same.id)
      subst this
      exact ⟨h', (Table.mem_set mem same.id).mpr (.inl rfl), by rw [same.id, hid],
        by rw [same.owner, ho]⟩
    · exact ⟨x, (Table.mem_set mem same.id).mpr (.inr ⟨hx, hxh⟩), hid, ho⟩
  · intro s hs heq
    rw [Prod.mk.injEq] at heq
    exact opens.operation s hs heq.1 heq.2

lemma accept (X : Executed db) {h : HistoryRow} {t : TurnRow} {e : ExecutionRow}
    {executions : Table ExecutionRow.id} (memHistory : h ∈ db.histories) (memTurn : t ∈ db.turns)
    (accepts : e.Accepts db.executions h t) (rows : executions.rows = db.executions.rows ++ [e]) :
    Executed { db with executions := executions } := by
  have hmem : ∀ {x}, x ∈ executions ↔ x ∈ db.executions ∨ x = e := Table.mem_of_rows_append rows
  refine ⟨?_, ?_, ?_, X.execution_operation.append rows ?_, X.execution_one.append rows ?_,
    X.turn_operation, X.history_creation⟩
  · intro x hx
    rcases hmem.mp hx with hx | rfl
    · exact X.execution_turn x hx
    · refine ⟨t, memTurn, accepts.turnHistory.symm, accepts.turn.symm, accepts.operation.symm,
        accepts.epoch.symm, accepts.generation.symm, ?_, ?_⟩ <;>
        simp [accepts.status, accepts.turnStatus, ExecutionStatus.isOpen]
  · intro x hx
    rcases hmem.mp hx with hx | rfl
    · exact X.execution_history x hx
    · exact ⟨h, memHistory, accepts.historyId.symm, accepts.owner.symm⟩
  · intro x hx hactive
    rcases hmem.mp hx with hx | rfl
    · exact X.unstopped x hx hactive
    · exact accepts.stopReason
  · intro f hf heq
    rw [Prod.mk.injEq] at heq
    exact accepts.freshOperation f hf heq.1 heq.2
  · intro f hf heq
    rw [Prod.mk.injEq] at heq
    exact accepts.freshTurn f hf heq.1 heq.2

lemma close (X : Executed db) {h h' : HistoryRow} {t t' : TurnRow}
    {fe : ExecutionRow → ExecutionRow} (memHistory : h ∈ db.histories) (memTurn : t ∈ db.turns)
    (accepted : t.status = .accepted) (closing : Closing h h' t t' fe) :
    Executed { db with
      histories := db.histories.set h', turns := db.turns.set t'
      executions := db.executions.update (ExecutionRow.openOn t) fe
        (fun e => (closing.execution e).id) } := by
  refine X.rewrite (fun x => ?_) (fun s => ?_) (fun e => ?_) ?_ ?_ ?_ ?_ ?_ rfl rfl rfl
  · split_ifs with hx
    · exact hx.symm
    · rfl
  · split_ifs with hs
    · exact hs.symm
    · rfl
  · split_ifs
    · exact (closing.execution e).id
    · rfl
  · intro x hx
    split_ifs with hid
    · rw [Table.eq_of_key hx memHistory (hid.trans closing.history.id)]
      exact closing.history
    · exact .refl x
  · intro s hs
    split_ifs with hid
    · rw [Table.eq_of_key hs memTurn (hid.trans closing.turn.id)]
      exact closing.turn
    · exact .refl s
  · intro e _
    split_ifs
    · exact closing.execution e
    · exact .refl e
  · intro e he s hs o
    by_cases hid : s.id = t'.id
    · rw [closing.turn.id] at hid
      have := Table.eq_of_key hs memTurn hid
      subst this
      have hopen : e.openOn s = true := by
        simp [ExecutionRow.openOn, o.history, o.turn, o.isOpen.mpr accepted]
      rw [if_pos hopen, if_pos closing.turn.id.symm]
      refine ⟨?_, closing.outcome e⟩
      rw [closing.terminal e]
      exact iff_of_false Bool.false_ne_true closing.closed
    · have hopen : ¬e.openOn t = true := by
        intro hopen
        simp only [ExecutionRow.openOn, Bool.and_eq_true, decide_eq_true_eq] at hopen
        exact hid (by rw [closing.turn.id, o.turn, hopen.1.2])
      rw [if_neg hopen, if_neg hid]
      exact ⟨o.isOpen, o.succeeded⟩
  · intro e he hactive
    split_ifs at hactive ⊢ with hopen
    · have := ExecutionStatus.isOpen_of_isActive hactive
      rw [closing.terminal e] at this
      cases this
    · exact X.unstopped e he hactive

lemma restart (X : Executed db) (epoch : Uuid) (now : Timestamp) :
    Executed { db with
      histories := db.histories.update (fun h => h.activeTurnId ≠ none) (HistoryRow.abandon now)
        (fun r => r.abandon_id now)
      turns := db.turns.update (fun t => t.status = .accepted) (TurnRow.abandon now)
        (fun r => r.abandon_id now)
      executions := db.executions.update (fun e => e.status.isOpen) (ExecutionRow.abandon now)
        (fun r => r.abandon_id now)
      runtimeEpoch := some epoch } := by
  refine X.rewrite (fun h => ?_) (fun t => ?_) (fun e => ?_) ?_ ?_ ?_ ?_ ?_ rfl rfl rfl
  · split_ifs <;> rfl
  · split_ifs <;> rfl
  · split_ifs <;> rfl
  · intro h _
    split_ifs
    · exact ⟨rfl, rfl, rfl, rfl⟩
    · exact .refl h
  · intro t _
    split_ifs
    · exact ⟨rfl, rfl, rfl, rfl, rfl, rfl⟩
    · exact .refl t
  · intro e _
    split_ifs
    · exact ⟨rfl, rfl, rfl, rfl, rfl, rfl, rfl, rfl⟩
    · exact .refl e
  · intro e _ t _ o
    by_cases hopen : e.status.isOpen = true
    · rw [if_pos hopen, if_pos (decide_eq_true (o.isOpen.mp hopen))]
      simp [TurnRow.abandon, ExecutionRow.abandon, ExecutionStatus.isOpen]
    · have hacc : ¬t.status = .accepted := mt o.isOpen.mpr hopen
      rw [if_neg hopen, if_neg (by simpa using hacc)]
      exact ⟨o.isOpen, o.succeeded⟩
  · intro e he hactive
    split_ifs at hactive ⊢ with hopen
    · cases hactive
    · exact X.unstopped e he hactive

lemma delete (X : Executed db) {h h' : HistoryRow} (mem : h ∈ db.histories) (same : h.Same h') :
    Executed { db with
      histories := db.histories.set h'
      turns := db.turns.delete (fun t => t.historyId = h.id)
      executions := db.executions.delete (fun e => db.turns.rows.any (fun t =>
        t.historyId = h.id && t.historyId = e.historyId && t.id = e.turnId)) } := by
  have hme : ∀ e, e ∈ db.executions.delete (fun e => db.turns.rows.any (fun t =>
      t.historyId = h.id && t.historyId = e.historyId && t.id = e.turnId)) →
      e ∈ db.executions ∧ e.historyId ≠ h.id := by
    intro e he
    obtain ⟨he, hany⟩ := Table.mem_delete.mp he
    refine ⟨he, fun hid => ?_⟩
    obtain ⟨t, ht, o⟩ := X.execution_turn e he
    rw [List.any_eq_false] at hany
    exact hany t ht (by simp [o.history, o.turn, hid])
  refine ⟨?_, ?_, ?_, X.execution_operation.delete _, X.execution_one.delete _,
    X.turn_operation.delete _,
    X.history_creation.set mem same.id (by rw [same.owner, same.creation])⟩
  · intro e he
    obtain ⟨he, hne⟩ := hme e he
    obtain ⟨t, ht, o⟩ := X.execution_turn e he
    exact ⟨t, Table.mem_delete.mpr ⟨ht, decide_eq_false (by rwa [o.history])⟩, o⟩
  · intro e he
    obtain ⟨he, hne⟩ := hme e he
    obtain ⟨x, hx, hid, ho⟩ := X.execution_history e he
    refine ⟨x, (Table.mem_set mem same.id).mpr (.inr ⟨hx, ?_⟩), hid, ho⟩
    rw [same.id, hid]
    exact hne
  · exact fun e he => X.unstopped e (hme e he).1

/-- Every effect keeps executions in step with their turns. -/
theorem effect (X : Executed db) {db' : Db} (f : Effect db db') : Executed db' := by
  cases f with
  | settle s =>
    cases s with
    | touch hfh hft hfe histories turns executions =>
      exact X.touch hfh hft hfe histories turns executions rfl rfl rfl
    | close memHistory memTurn _ _ accepted closing =>
      exact X.close memHistory memTurn accepted closing
    | restart epoch now => exact X.restart epoch now
    | delete mem _ same => exact X.delete mem same
  | create _ rows _ operation => exact X.create rows operation
  | begin mem opens rows => exact X.begin mem ⟨rfl, rfl, rfl, rfl⟩ opens rows
  | accept memHistory memTurn accepts rows => exact X.accept memHistory memTurn accepts rows

end Executed

end ChatBI.Store
