import ChatBI.Store.Extension

/-!
# Laws of the reachable stores

The lifecycle of histories, turns and executions in every reachable state; what a run keeps
of an execution that ended or is being stopped; the query context that attempts build on;
the fencing of attempts that are no longer current.
-/

namespace ChatBI.Store

open ChatBI.Lib Relation

variable {codec : Codec} {s t : State} {ops : List Op}

/-- The cross-table lifecycle of a database. -/
structure Lifecycle (db : Db) : Prop where
  active : ∀ h ∈ db.histories, h.activeTurnId ≠ none ↔
    ∃! t, t ∈ db.turns ∧ t.historyId = h.id ∧ t.status = .accepted
  accepted : ∀ h ∈ db.histories, ∀ t ∈ db.turns, t.historyId = h.id → t.status = .accepted →
    h.activeTurnId = some t.id ∧ t.executionGeneration = h.executionGeneration
  execution_turn : ∀ e ∈ db.executions, ∃ t ∈ db.turns, t.id = e.turnId ∧ t.historyId = e.historyId
  execution_open : ∀ e ∈ db.executions, ∀ t ∈ db.turns, t.id = e.turnId →
    (e.status.isOpen = true ↔ t.status = .accepted)
  execution_succeeded : ∀ e ∈ db.executions, ∀ t ∈ db.turns, t.id = e.turnId →
    (t.status = .succeeded ↔ e.status = .succeeded)
  ordinals : ∀ h ∈ db.histories, h.deletedAt = none →
    (db.turnsOf h.id).map TurnRow.ordinal = List.range' 1 (h.nextOrdinal - 1)

lemma Consistent.lifecycle {db : Db} (C : Consistent db) : Lifecycle db where
  active h hh := by
    constructor
    · intro hactive
      obtain ⟨i, hi⟩ := Option.ne_none_iff_exists'.mp hactive
      obtain ⟨t, ht, -, a⟩ := C.active_turn h hh i hi
      refine ⟨t, ⟨ht, a.history, a.status⟩, ?_⟩
      rintro s ⟨hs, hid, hst⟩
      have := (C.activeOf hh hs hid hst).active
      rw [a.active, Option.some.injEq] at this
      exact Table.eq_of_key hs ht this.symm
    · rintro ⟨t, ⟨ht, hid, hst⟩, -⟩
      rw [(C.activeOf hh ht hid hst).active]
      exact Option.some_ne_none t.id
  accepted h hh t ht hid hst :=
    have a := C.activeOf hh ht hid hst
    ⟨a.active, a.generation⟩
  execution_turn e he :=
    have ⟨t, ht, o⟩ := C.execution_turn e he
    ⟨t, ht, o.turn, o.history⟩
  execution_open e he t ht hid := (C.on_of_turn he ht hid.symm).isOpen
  execution_succeeded e he t ht hid := (C.on_of_turn he ht hid.symm).succeeded.symm
  ordinals := C.ordinals

/-- Over every interleaving of the transactions, every history has at most one accepted turn,
its executions are in step with their turns and its ordinals have no gaps. -/
theorem reachable_lifecycle (h : (system codec).Reachable s) : Lifecycle s.db :=
  (reachable_consistent h).lifecycle

/-- Digests and snapshot checks for concrete runs. -/
def plainCodec : Codec where
  operationHash
    | .create _ q => q.length
    | .attempt _ revision => 100 + revision
    | .resume revision => 200 + revision
    | .requery _ sourceId _ => 300 + sourceId
    | .submitExecution _ historyId _ _ _ => 400 + historyId
    | .requeryExecution _ sourceId _ => 500 + sourceId
  questionSha256 q := q.length
  publicSnapshot s := .ok s
  decodeQueryState _ := .ok ()

/-- A process starts, a query history gets two turns with executions; the first succeeds and
the second runs. -/
def twoTurns : List Op :=
  [.restart 1 70, .create 2 5 .query "q" 10 20 21,
    .beginExecutionAttempt 3 5 20 "q" 11 411 (some 0) "r1" 70 .query .query 60 none 30 40,
    .markRunning 4 5 40,
    .finishAttempt 5 5 ⟨20, 30, 70, 1⟩ (some (.obj [("query_state", .int 1)])) none (some 40),
    .beginExecutionAttempt 6 5 20 "q2" 12 412 (some 1) "r2" 70 .query .query 60 none 31 41,
    .markRunning 7 5 41]

theorem reachable_lifecycle_twoTurns :
    (∃ h ∈ (State.run plainCodec {} twoTurns).db.histories, h.activeTurnId = some 31) ∧
      Lifecycle (State.run plainCodec {} twoTurns).db :=
  ⟨by decide +kernel, reachable_lifecycle (State.Runs.reachable (by decide +kernel))⟩

/-! ### Ended and stopped executions -/

/-- What the state `t` keeps of the execution `e` of an earlier state. -/
structure ExecutionRow.KeptIn (codec : Codec) (e : ExecutionRow) (t : State) : Prop where
  terminal : e.status.isOpen = false → ∀ e' ∈ t.db.executions, e'.id = e.id → e'.status = e.status
  stopReason : ∀ reason, e.stopReason = some reason → ∀ e' ∈ t.db.executions, e'.id = e.id →
    e'.stopReason = some reason
  stopped : e.status = .stopping → ∀ r ∈ t.db.turns, r.id = e.turnId → r.historyId = e.historyId →
    r.status ≠ .succeeded
  context : e.status = .stopping → ∀ op t', (system codec).step t op t' → ∀ h ∈ t.db.histories,
    ∀ h' ∈ t'.db.histories, h.id = e.historyId → h'.id = h.id → h'.deletedAt = none →
    h'.contextRevision = h.contextRevision ∧ h'.lastSuccessTurnId = h.lastSuccessTurnId ∨
      ∃ i, i ≠ e.turnId ∧ h.activeTurnId = some i ∧ h'.lastSuccessTurnId = some i
  unaffected : ∀ r ∈ t.db.turns, r.id = e.turnId → r.historyId = e.historyId →
    r.status = .succeeded → ∀ now owner reason subject,
    ((requestExecutionStop codec now owner e.id reason subject).commit t.db).2 = t.db

/-- The turn of an execution that is being stopped has not succeeded. -/
lemma Extends.not_succeeded (x : Extends s t) (g' : Good t) {e : ExecutionRow}
    (he : e ∈ s.db.executions) (hstop : e.status = .stopping) {r : TurnRow} (hr : r ∈ t.db.turns)
    (hid : r.id = e.turnId) (hhist : r.historyId = e.historyId) : r.status ≠ .succeeded := by
  intro hst
  rcases x.evolves.execution e he with ⟨e', he', v⟩ | hdel
  · have o := g'.consistent.on_of_turn he' hr (v.turn.trans hid.symm)
    have hsucc := o.succeeded.mpr hst
    rcases v.stopping hstop with hstop' | ⟨-, hne⟩
    · rw [hstop'] at hsucc
      cases hsucc
    · exact hne hsucc
  · rw [← hhist] at hdel
    exact g'.consistent.undeleted hr hdel

/-- A stop request for an execution that is not open any more is answered without a change. -/
lemma requestExecutionStop_closed {db : Db} {executionId : Uuid} (closed : ∀ e ∈ db.executions,
      e.id = executionId → e.status.isActive = false) (now : Timestamp) (owner : Owner)
    (reason : ExecutionStopReason) (subject : Option String) :
    ((requestExecutionStop codec now owner executionId reason subject).commit db).2 = db := by
  rcases Tx.commit_cases (requestExecutionStop codec now owner executionId reason subject) db with
    ⟨r, db', hok, hcommit⟩ | ⟨_, -, hcommit⟩
  · obtain ⟨-, e, he, hid, -, hkept⟩ := requestExecutionStop_ok hok
    rw [hcommit]
    exact (hkept (closed e he hid)).2
  · rw [hcommit]

/-- Whatever follows, an ended execution keeps its status, the first stop reason is the only
one, an execution that is being stopped advances no context, and a stop request for a
succeeded one changes nothing. -/
theorem reachable_execution_kept (h : (system codec).Reachable s)
    (run : (system codec).Run s ops t) {e : ExecutionRow} (he : e ∈ s.db.executions) :
    e.KeptIn codec t := by
  have g := reachable_good h
  obtain ⟨g', x⟩ := g.run run
  have hrow : ∀ e' ∈ t.db.executions, e'.id = e.id → e.Evolves e' :=
    fun e' he' hid => x.execution g g' he he' hid
  refine ⟨?_, ?_, ?_, ?_, ?_⟩
  · intro hterm e' he' hid
    rw [(hrow e' he' hid).terminal hterm]
  · intro reason hreason e' he' hid
    exact (hrow e' he' hid).stopReason reason hreason
  · intro hstop r hr hid hhist
    exact x.not_succeeded g' he hstop hr hid hhist
  · intro hstop op t' hstep h hh h' hh' hid hid' halive
    have m := step_move g'.consistent hstep
    have g'' := g'.step hstep
    have x' := m.extends g'.consistent
    by_cases hsucc : ∃ r, r.historyId = h.id ∧ Succeeds t.db t'.db r
    · obtain ⟨r, hrh, y⟩ := hsucc
      obtain ⟨hactive, -, hlast⟩ :=
        m.context_advanced g'.consistent hh hh' hid' halive hrh y
      refine .inr ⟨r.id, fun hturn => ?_, hactive, hlast⟩
      exact (x.trans x').not_succeeded g'' he hstop y.mem hturn (hrh.trans hid) y.succeeded
    · refine .inl (x'.evolves.context_kept g'.consistent g''.consistent hh hh' hid' halive ?_)
      exact fun r hrh y => hsucc ⟨r, hrh, y⟩
  · intro r hr hid hhist hst now owner reason subject
    refine requestExecutionStop_closed (fun e' he' heid => ?_) now owner reason subject
    have hturn := (hrow e' he' heid).turn.trans hid.symm
    rw [(g'.consistent.on_of_turn he' hr hturn).succeeded.mpr hst]
    rfl

/-- The second turn of the history is being stopped when the process restarts. -/
theorem reachable_execution_kept_restart :
    ∃ e ∈ (State.run plainCodec {} (twoTurns ++ [.requestStop 8 5 41 .userCancelled none])).db.executions,
      e.status = .stopping ∧ e.KeptIn plainCodec
        ((State.run plainCodec {} (twoTurns ++ [.requestStop 8 5 41 .userCancelled none])).apply
          plainCodec (.restart 9 71)) := by
  have hreach := @State.Runs.reachable plainCodec
    (twoTurns ++ [.requestStop 8 5 41 .userCancelled none]) (by decide +kernel)
  have hstop : ∃ e ∈ (State.run plainCodec {}
      (twoTurns ++ [.requestStop 8 5 41 .userCancelled none])).db.executions,
        e.status = .stopping := by decide +kernel
  obtain ⟨e, he, hst⟩ := hstop
  have hwf : Op.WellFormed (State.run plainCodec {} (twoTurns ++
      [.requestStop 8 5 41 .userCancelled none])) (.restart 9 71) := trivial
  exact ⟨e, he, hst, reachable_execution_kept hreach (.single ⟨hwf, rfl⟩) he⟩

/-! ### The query context -/

/-- `last` is the succeeded turn of the history with the greatest ordinal, if there is one. -/
def Db.IsLastSuccess (db : Db) (h : HistoryRow) : Option Uuid → Prop
  | none => ∀ r ∈ db.turns, r.succeededOf h.id = false
  | some i => ∃ l ∈ db.turns, l.id = i ∧ l.succeededOf h.id = true ∧
    ∀ r ∈ db.turns, r.succeededOf h.id = true → r.ordinal ≤ l.ordinal

/-- The query state of the succeeded turn that immediately precedes the turn `r`, if there is
one. -/
def Db.IsPrecedingState (db : Db) (r : TurnRow) (baseState : Option Json) : Prop :=
  (∃ p ∈ db.turns, p.succeededOf r.historyId = true ∧ p.ordinal < r.ordinal ∧
    (∀ q ∈ db.turns, q.succeededOf r.historyId = true → q.ordinal < r.ordinal →
      q.ordinal ≤ p.ordinal) ∧ baseState = p.queryState) ∨
  (∀ q ∈ db.turns, q.succeededOf r.historyId = true → ¬q.ordinal < r.ordinal) ∧ baseState = none

/-- The context of every history is that of its succeeded turns, and a turn that succeeds was
given the context that it advances. -/
structure ContextKept (codec : Codec) (s : State) : Prop where
  revision : ∀ h ∈ s.db.histories, h.deletedAt = none →
    h.contextRevision = (s.db.succeededTurns h.id).length
  last : ∀ h ∈ s.db.histories, h.deletedAt = none → s.db.IsLastSuccess h h.lastSuccessTurnId
  base : ∀ op t, (system codec).step s op t → ∀ r, Succeeds s.db t.db r →
    ∀ h ∈ s.db.histories, h.id = r.historyId → h.kind = .query →
    ∃ i ∈ s.issued, (∀ j ∈ s.issued, j.token = r.token ↔ j = i) ∧
      match i.origin with
      | .attempt => s.db.IsPrecedingState r i.baseState
      | .requery snapshot => i.baseState = snapshot.bind (fun x => x.get? "query_state")
  unsuccessful : ∀ op t, (system codec).step s op t → ∀ h ∈ s.db.histories,
    ∀ h' ∈ t.db.histories, h'.id = h.id → h'.deletedAt = none →
    (∀ r, r.historyId = h.id → ¬Succeeds s.db t.db r) →
    h'.contextRevision = h.contextRevision ∧ h'.lastSuccessTurnId = h.lastSuccessTurnId

lemma Consistent.isLastSuccess {db : Db} (C : Consistent db) {h : HistoryRow}
    (hh : h ∈ db.histories) (halive : h.deletedAt = none) :
    db.IsLastSuccess h h.lastSuccessTurnId := by
  cases hlast : h.lastSuccessTurnId with
  | none =>
    intro r hr
    rw [Bool.eq_false_iff]
    intro hsucc
    obtain ⟨l, -, hl, -⟩ := C.last_max h hh halive r hr hsucc
    rw [hlast] at hl
    cases hl
  | some i =>
    obtain ⟨l, hl, rfl, hlsucc⟩ := C.last_mem h hh halive i hlast
    refine ⟨l, hl, rfl, hlsucc, fun r hr hsucc => ?_⟩
    obtain ⟨m, hm, hmid, -, hle⟩ := C.last_max h hh halive r hr hsucc
    rw [hlast, Option.some.injEq] at hmid
    rwa [Table.eq_of_key hm hl hmid.symm] at hle

/-- The active turn of a history comes after all its succeeded turns. -/
lemma Consistent.isPrecedingState {db : Db} (C : Consistent db) {h : HistoryRow} {r : TurnRow}
    (hh : h ∈ db.histories) (hkind : h.kind = .query) (a : r.ActiveOf db h) :
    db.IsPrecedingState r (db.baseState h) := by
  have halive : h.deletedAt = none :=
    C.toLinked.alive hh (by rw [a.active]; exact Option.some_ne_none r.id)
  have hlt : ∀ q ∈ db.turns, q.succeededOf h.id = true → q.ordinal < r.ordinal := by
    intro q hq hsucc
    obtain ⟨hqh, hqst⟩ := TurnRow.succeededOf_iff.mp hsucc
    have hord := C.ordinal_lt hh halive hq hqh
    have hnext := a.ordinal
    have hne : q.ordinal ≠ r.ordinal := by
      intro heq
      obtain ⟨r₀, hr₀, hid, a₀⟩ := C.active_turn h hh r.id a.active
      have hsame := C.ordinal_inj hh halive hq hr₀ hqh a₀.history
        (by have := a₀.ordinal; omega)
      rw [hsame, a₀.status] at hqst
      cases hqst
    omega
  rw [Db.IsPrecedingState, a.history]
  simp only [Db.baseState, hkind, Db.lastSuccess]
  have hlast := C.isLastSuccess hh halive
  cases hsome : h.lastSuccessTurnId with
  | none =>
    rw [hsome] at hlast
    refine .inr ⟨fun q hq hsucc => ?_, rfl⟩
    rw [hlast q hq] at hsucc
    cases hsucc
  | some i =>
    rw [hsome] at hlast
    obtain ⟨l, hl, rfl, hlsucc, hmax⟩ := hlast
    have hfirst : db.turns.first (fun t => t.id = l.id && t.historyId = h.id &&
        t.status = .succeeded) = some l := by
      rw [Table.first_eq_some_iff]
      · obtain ⟨hlh, hlst⟩ := TurnRow.succeededOf_iff.mp hlsucc
        simp [hl, hlh, hlst]
      · intro p _ q _ hp hq
        simp only [Bool.and_eq_true, decide_eq_true_eq] at hp hq
        rw [hp.1.1, hq.1.1]
    refine .inl ⟨l, hl, hlsucc, hlt l hl hlsucc, fun q hq hsucc _ => hmax q hq hsucc, ?_⟩
    rw [Option.bind_some, hfirst, Option.bind_some]

/-- No context update is lost. -/
theorem reachable_context_kept (h : (system codec).Reachable s) : ContextKept codec s := by
  have g := reachable_good h
  have C := g.consistent
  refine ⟨C.context, fun h hh halive => C.isLastSuccess hh halive, ?_, ?_⟩
  · intro op t hstep r x h hh hid hkind
    obtain ⟨h₀, hh₀, r₀, hr₀, a, same⟩ := (step_move C hstep).succeeds_active C x
    obtain rfl := Table.eq_of_key hh₀ hh (a.history.symm.trans (same.history.symm.trans hid.symm))
    obtain ⟨i, hi, hihist, hiturn, based⟩ := g.issued.active h₀ hh₀ r₀.id a.active
    have halive : h₀.deletedAt = none :=
      C.toLinked.alive hh₀ (by rw [a.active]; exact Option.some_ne_none r₀.id)
    obtain ⟨u, hu, hutoken, -⟩ := (g.issued.recorded i hi).alive hh₀ hihist.symm halive
    have huid : u.id = r₀.id := (congrArg ExecutionToken.turnId hutoken).trans hiturn
    have htoken : i.token = r.token := by
      rw [same.token, ← hutoken, Table.eq_of_key hu hr₀ huid]
    refine ⟨i, hi, fun j hj => ⟨fun hjt => ?_, fun hji => by rw [hji, htoken]⟩, ?_⟩
    · have hji : j.token = i.token := hjt.trans htoken.symm
      exact g.issued.unique j hj i hi (by rw [hji]) (.inl (by rw [hji]))
    · have hbase := based hkind
      cases horigin : i.origin with
      | attempt =>
        rw [horigin] at hbase
        have hpre := C.isPrecedingState hh₀ hkind a
        have hsame : i.baseState = s.db.baseState h₀ := hbase
        rw [← hsame] at hpre
        simpa only [Db.IsPrecedingState, same.history, same.ordinal] using hpre
      | requery snapshot =>
        rw [horigin] at hbase
        exact hbase
  · intro op t hstep h hh h' hh' hid halive hnone
    have m := step_move C hstep
    exact (m.extends C).evolves.context_kept C (C.effects m.effects) hh hh' hid halive hnone

theorem reachable_context_kept_twoTurns :
    (∃ h ∈ (State.run plainCodec {} twoTurns).db.histories, h.contextRevision = 1) ∧
      ContextKept plainCodec (State.run plainCodec {} twoTurns) :=
  ⟨by decide +kernel, reachable_context_kept (State.Runs.reachable (by decide +kernel))⟩

/-! ### Fencing -/

/-- The token's turn is no longer the active turn of its history, or its generation or its
epoch is no longer the current one. -/
def Db.Stale (db : Db) (token : ExecutionToken) : Prop :=
  ∀ h ∈ db.histories, h.id = token.historyId → h.activeTurnId ≠ some token.turnId ∨
    h.executionGeneration ≠ token.generation ∨ db.runtimeEpoch ≠ some token.epoch

/-- The transaction raises and is rolled back. -/
def Tx.Rejected {α : Type} (tx : Tx α) (db : Db) : Prop :=
  ∃ e, tx.commit db = (.error e, db)

lemma Tx.rejected_of {α : Type} {tx : Tx α} {db : Db} (h : ∀ a db', tx db ≠ .ok (a, db')) :
    tx.Rejected db := by
  rcases Tx.commit_cases tx db with ⟨a, db', hok, -⟩ | ⟨e, -, hcommit⟩
  · exact absurd hok (h a db')
  · exact ⟨e, hcommit⟩

lemma Current.not_stale {db : Db} {token : ExecutionToken} {h : HistoryRow} {r : TurnRow}
    (cur : Current db token h r) : ¬db.Stale token := by
  intro stale
  rcases stale h cur.memHistory cur.history with hne | hne | hne
  · exact hne cur.active
  · exact hne cur.generation
  · exact hne cur.epoch

/-- An open execution belongs to a token that is not stale. -/
lemma Consistent.not_stale {db : Db} (C : Consistent db) {e : ExecutionRow}
    (he : e ∈ db.executions) (hopen : e.status.isOpen = true) : ¬db.Stale e.token := by
  obtain ⟨h, hh, r, hr, a, o, hid, -⟩ := C.open_active he hopen
  intro stale
  rcases stale h hh hid with hne | hne | hne
  · exact hne (by rw [a.active, o.turn]; rfl)
  · exact hne (by rw [← a.generation, o.generation]; rfl)
  · exact hne (by rw [a.epoch, o.epoch]; rfl)

/-- The operations that an attempt calls with its token are all rejected. -/
structure Fenced (s : State) (token : ExecutionToken) : Prop where
  finish : ∀ now owner snapshot error executionId,
    (finishAttempt now owner token snapshot error executionId).Rejected s.db
  stop : ∀ now owner executionId status error,
    (finishExecutionStopped now owner token executionId status error).Rejected s.db
  running : ∀ i ∈ s.issued, i.token = token → ∀ executionId hash,
    i.execution = some (executionId, hash) → ∀ now owner,
      (markExecutionRunning now owner executionId).Rejected s.db

/-- A stale token changes nothing. -/
theorem reachable_fenced (h : (system codec).Reachable s) {token : ExecutionToken}
    (stale : s.db.Stale token) : Fenced s token := by
  have g := reachable_good h
  refine ⟨?_, ?_, ?_⟩
  · intro now owner snapshot error executionId
    refine Tx.rejected_of (fun r db' hok => ?_)
    obtain ⟨h, r, cur, -⟩ := finishAttempt_ok hok
    exact cur.not_stale stale
  · intro now owner executionId status error
    refine Tx.rejected_of (fun r db' hok => ?_)
    obtain ⟨h, r, _, cur, -⟩ := finishExecutionStopped_ok hok
    exact cur.not_stale stale
  · intro i hi htoken executionId hash hexec now owner
    refine Tx.rejected_of (fun u db' hok => ?_)
    obtain ⟨-, e, he, hid, -, hrun⟩ := markExecutionRunning_ok hok
    obtain ⟨j, hj, o⟩ := g.issued.execution e he
    have hij : i = j := by
      refine g.issued.unique_execution i hi j hj executionId ?_ ?_
      · rw [hexec, Option.map_some]
      · rw [o.execution, Option.map_some, hid]
    have hopen : e.status.isOpen = true := by
      rcases hrun with hrun | hrun
      · rw [(runnable_iff.mp hrun).2.2.1]
        rfl
      · rw [hrun]
        rfl
    refine g.consistent.not_stale he hopen ?_
    rw [o.token, ← hij, htoken]
    exact stale

/-- The first attempt after its turn has succeeded. -/
theorem reachable_fenced_first :
    (State.run plainCodec {} twoTurns).db.Stale ⟨20, 30, 70, 1⟩ ∧
      Fenced (State.run plainCodec {} twoTurns) ⟨20, 30, 70, 1⟩ :=
  ⟨by unfold Db.Stale; decide +kernel,
    reachable_fenced (@State.Runs.reachable plainCodec twoTurns (by decide +kernel))
      (by unfold Db.Stale; decide +kernel)⟩

end ChatBI.Store
