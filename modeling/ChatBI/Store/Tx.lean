import ChatBI.Store.Rows

/-!
# Transactions

A store call runs its statements inside one `engine.begin()` block: a state transformer
of the database that may raise. A raised error rolls every statement back. Row locks are
not modelled because the transactions are taken one after the other.
-/

namespace ChatBI.Store

open ChatBI.Lib

abbrev Tx (α : Type) := StateT Db (Except Raised) α

namespace Tx

/-- The outcome of a transaction and the database after its commit or rollback. -/
def commit {α : Type} (tx : Tx α) (db : Db) : Except Raised α × Db :=
  match tx db with
  | .ok (a, db') => (.ok a, db')
  | .error e => (.error e, db)

def raise {α : Type} (e : HistoryError) : Tx α := fun _ => .error (.history e)

/-- `raise ExecutionStopped(stop_reason)`; a missing reason is no member of the enumeration. -/
def raiseStopped {α : Type} (reason : Option ExecutionStopReason) : Tx α :=
  fun _ => .error (reason.elim .unexpected .executionStopped)

def raiseIf (c : Prop) [Decidable c] (e : HistoryError) : Tx Unit :=
  if c then raise e else pure ()

/-- The value of a `first()` or `scalar_one_or_none()` that must not be missing. -/
def orRaise {α : Type} (o : Option α) (e : HistoryError) : Tx α :=
  match o with
  | some a => pure a
  | none => raise e

/-- A call of code outside the database. -/
def lift {α : Type} (x : Except Raised α) : Tx α := fun db => x.map (fun a => (a, db))

def read {α : Type} (f : Db → α) : Tx α := fun db => .ok (f db, db)

def write (f : Db → Db) : Tx Unit := fun db => .ok ((), f db)

variable {α β : Type}

@[simp] lemma bind_ok {x : Tx α} {f : α → Tx β} {db : Db} {r : β × Db} :
    (x >>= f) db = .ok r ↔ ∃ a db₁, x db = .ok (a, db₁) ∧ f a db₁ = .ok r := by
  simp only [Bind.bind, StateT.bind, Except.bind]
  cases h : x db with
  | error e => simp
  | ok p => simp [Prod.ext_iff, and_assoc]

@[simp] lemma map_ok {x : Tx α} {f : α → β} {db : Db} {r : β × Db} :
    (f <$> x) db = .ok r ↔ ∃ a db₁, x db = .ok (a, db₁) ∧ r = (f a, db₁) := by
  simp only [Functor.map, StateT.map, Bind.bind, Except.bind, Pure.pure, Except.pure]
  cases h : x db with
  | error e => simp
  | ok p => simp [Prod.ext_iff, and_assoc, eq_comm]

@[simp] lemma pure_ok {a : α} {db : Db} {r : α × Db} :
    (pure a : Tx α) db = .ok r ↔ r = (a, db) := by
  show Except.ok (a, db) = .ok r ↔ r = (a, db)
  rw [Except.ok.injEq]
  exact eq_comm

@[simp] lemma raise_ok {e : HistoryError} {db : Db} {r : α × Db} :
    (raise e : Tx α) db = .ok r ↔ False := by simp [raise]

@[simp] lemma raiseStopped_ok {e : Option ExecutionStopReason} {db : Db} {r : α × Db} :
    (raiseStopped e : Tx α) db = .ok r ↔ False := by simp [raiseStopped]

@[simp] lemma raiseIf_ok {c : Prop} [Decidable c] {e : HistoryError} {db : Db} {r : Unit × Db} :
    raiseIf c e db = .ok r ↔ ¬c ∧ r = ((), db) := by
  unfold raiseIf
  split_ifs with h <;> simp [h]

@[simp] lemma orRaise_ok {o : Option α} {e : HistoryError} {db : Db} {r : α × Db} :
    orRaise o e db = .ok r ↔ ∃ a, o = some a ∧ r = (a, db) := by
  unfold orRaise
  cases o <;> simp

@[simp] lemma lift_ok {x : Except Raised α} {db : Db} {r : α × Db} :
    lift x db = .ok r ↔ ∃ a, x = .ok a ∧ r = (a, db) := by
  unfold lift
  cases x with
  | error e => simp [Except.map]
  | ok a => simp [Except.map, eq_comm]

@[simp] lemma read_ok {f : Db → α} {db : Db} {r : α × Db} :
    read f db = .ok r ↔ r = (f db, db) := by
  simp [read, eq_comm]

@[simp] lemma write_ok {f : Db → Db} {db : Db} {r : Unit × Db} :
    write f db = .ok r ↔ r = ((), f db) := by
  simp [write, eq_comm]

/-! The statements of a block one after the other. -/

lemma pure_bind_ok {a : α} {k : α → Tx β} {db : Db} {r : β × Db} :
    (pure a >>= k) db = .ok r ↔ k a db = .ok r := by rw [pure_bind]

lemma read_bind_ok {f : Db → α} {k : α → Tx β} {db : Db} {r : β × Db} :
    (read f >>= k) db = .ok r ↔ k (f db) db = .ok r := Iff.rfl

lemma write_bind_ok {f : Db → Db} {k : Unit → Tx β} {db : Db} {r : β × Db} :
    (write f >>= k) db = .ok r ↔ k () (f db) = .ok r := Iff.rfl

lemma raise_bind_ok {e : HistoryError} {k : α → Tx β} {db : Db} {r : β × Db} :
    (raise e >>= k) db = .ok r ↔ False := by
  simp only [bind_ok, raise_ok, false_and, exists_false]

lemma raiseStopped_bind_ok {e : Option ExecutionStopReason} {k : α → Tx β} {db : Db}
    {r : β × Db} : (raiseStopped e >>= k) db = .ok r ↔ False := by
  simp only [bind_ok, raiseStopped_ok, false_and, exists_false]

lemma raiseIf_bind_ok {c : Prop} [Decidable c] {e : HistoryError} {k : Unit → Tx β} {db : Db}
    {r : β × Db} : (raiseIf c e >>= k) db = .ok r ↔ ¬c ∧ k () db = .ok r := by
  rw [bind_ok]
  simp only [raiseIf_ok, Prod.mk.injEq, true_and, and_assoc]
  exact ⟨fun ⟨_, _, hc, hdb, h⟩ => ⟨hc, hdb ▸ h⟩, fun ⟨hc, h⟩ => ⟨_, _, hc, rfl, h⟩⟩

lemma orRaise_bind_ok {o : Option α} {e : HistoryError} {k : α → Tx β} {db : Db}
    {r : β × Db} : (orRaise o e >>= k) db = .ok r ↔ ∃ a, o = some a ∧ k a db = .ok r := by
  rw [bind_ok]
  simp [and_assoc]

lemma lift_bind_ok {x : Except Raised α} {k : α → Tx β} {db : Db} {r : β × Db} :
    (lift x >>= k) db = .ok r ↔ ∃ a, x = .ok a ∧ k a db = .ok r := by
  rw [bind_ok]
  simp [and_assoc]

/-- A transaction that raises leaves the database as it was. -/
lemma commit_error {tx : Tx α} {db db' : Db} {e : Raised} (h : tx.commit db = (.error e, db')) :
    db' = db := by
  unfold commit at h
  split at h
  · cases h
  · cases h
    rfl

/-- Either the transaction commits its own result or the database is unchanged. -/
lemma commit_cases (tx : Tx α) (db : Db) :
    (∃ a db', tx db = .ok (a, db') ∧ tx.commit db = (.ok a, db')) ∨
      (∃ e, tx db = .error e ∧ tx.commit db = (.error e, db)) := by
  unfold commit
  cases h : tx db with
  | error e => exact .inr ⟨e, rfl, rfl⟩
  | ok p => exact .inl ⟨p.1, p.2, rfl, rfl⟩

end Tx

/-! ### Statements -/

/-- `UPDATE history_records ... RETURNING *`. -/
def updateHistories (p : HistoryRow → Bool) (f : HistoryRow → HistoryRow)
    (hf : ∀ r, (f r).id = r.id) : Tx (List HistoryRow) := do
  let matched ← Tx.read (fun db => db.histories.select p)
  Tx.write (fun db => { db with histories := db.histories.update p f hf })
  return matched.map f

/-- `UPDATE history_turns ... RETURNING *`. -/
def updateTurns (p : TurnRow → Bool) (f : TurnRow → TurnRow)
    (hf : ∀ r, (f r).id = r.id) : Tx (List TurnRow) := do
  let matched ← Tx.read (fun db => db.turns.select p)
  Tx.write (fun db => { db with turns := db.turns.update p f hf })
  return matched.map f

/-- `UPDATE history_executions ... RETURNING *`. -/
def updateExecutions (p : ExecutionRow → Bool) (f : ExecutionRow → ExecutionRow)
    (hf : ∀ r, (f r).id = r.id) : Tx (List ExecutionRow) := do
  let matched ← Tx.read (fun db => db.executions.select p)
  Tx.write (fun db => { db with executions := db.executions.update p f hf })
  return matched.map f

/-- `UPDATE saved_results ...`. -/
def updateSavedResults (p : SavedResultRow → Bool) (f : SavedResultRow → SavedResultRow)
    (hf : ∀ r, (f r).id = r.id) : Tx Unit :=
  Tx.write (fun db => { db with savedResults := db.savedResults.update p f hf })

/-- `UPDATE business_analysis_runs ...`. -/
def updateAnalysisRuns (p : AnalysisRunRow → Bool) (f : AnalysisRunRow → AnalysisRunRow)
    (hf : ∀ r, (f r).analysisRunId = r.analysisRunId) : Tx Unit :=
  Tx.write (fun db => { db with analysisRuns := db.analysisRuns.update p f hf })

variable {db : Db}

@[simp] lemma updateHistories_ok {p : HistoryRow → Bool} {f : HistoryRow → HistoryRow}
    {hf : ∀ r, (f r).id = r.id} {r : List HistoryRow × Db} :
    updateHistories p f hf db = .ok r ↔
      r = ((db.histories.select p).map f, { db with histories := db.histories.update p f hf }) := by
  simp [updateHistories]

@[simp] lemma updateTurns_ok {p : TurnRow → Bool} {f : TurnRow → TurnRow}
    {hf : ∀ r, (f r).id = r.id} {r : List TurnRow × Db} :
    updateTurns p f hf db = .ok r ↔
      r = ((db.turns.select p).map f, { db with turns := db.turns.update p f hf }) := by
  simp [updateTurns]

@[simp] lemma updateExecutions_ok {p : ExecutionRow → Bool} {f : ExecutionRow → ExecutionRow}
    {hf : ∀ r, (f r).id = r.id} {r : List ExecutionRow × Db} :
    updateExecutions p f hf db = .ok r ↔
      r = ((db.executions.select p).map f,
        { db with executions := db.executions.update p f hf }) := by
  simp [updateExecutions]

/-- `INSERT INTO history_turns`; a taken id, ordinal or operation of the history violates a
unique constraint. -/
def insertTurn (row : TurnRow) : Tx TurnRow := do
  let taken ← Tx.read (fun db => db.turns.rows.any (fun t => t.historyId = row.historyId &&
    (t.ordinal = row.ordinal || t.operationId = row.operationId)))
  Tx.raiseIf taken storageUnavailable
  let turns ← Tx.orRaise ((← Tx.read Db.turns).insert? row) storageUnavailable
  Tx.write (fun db => { db with turns := turns })
  return row

/-- `INSERT INTO history_executions`; the owner's operation and the turn are unique and
both foreign keys must resolve. -/
def insertExecution (row : ExecutionRow) : Tx ExecutionRow := do
  let taken ← Tx.read (fun db => db.executions.rows.any (fun e =>
    (e.ownerUserId = row.ownerUserId && e.operationId = row.operationId) ||
      (e.historyId = row.historyId && e.turnId = row.turnId)))
  Tx.raiseIf taken storageUnavailable
  let resolved ← Tx.read (fun db =>
    db.histories.rows.any (fun h => h.id = row.historyId && h.ownerUserId = row.ownerUserId) &&
      db.turns.rows.any (fun t => t.historyId = row.historyId && t.id = row.turnId))
  Tx.raiseIf (resolved = false) storageUnavailable
  let executions ← Tx.orRaise ((← Tx.read Db.executions).insert? row) storageUnavailable
  Tx.write (fun db => { db with executions := executions })
  return row

/-- `INSERT INTO history_records ... ON CONFLICT (owner_user_id, creation_operation_id) DO
NOTHING`: whether the row was inserted. A taken id or analysis run id is an error. -/
def insertHistory (row : HistoryRow) : Tx Bool := do
  let conflict ← Tx.read (fun db => db.histories.rows.any (fun h =>
    h.ownerUserId = row.ownerUserId && h.creationOperationId = row.creationOperationId))
  if conflict then
    return false
  let runTaken ← Tx.read (fun db => db.histories.rows.any (fun h =>
    row.analysisRunId.isSome && h.analysisRunId = row.analysisRunId))
  Tx.raiseIf runTaken storageUnavailable
  let histories ← Tx.orRaise ((← Tx.read Db.histories).insert? row) storageUnavailable
  Tx.write (fun db => { db with histories := histories })
  return true

variable {β : Type} {s : β × Db}

lemma updateHistories_bind_ok {p : HistoryRow → Bool} {f : HistoryRow → HistoryRow}
    {hf : ∀ r, (f r).id = r.id} {k : List HistoryRow → Tx β} :
    (updateHistories p f hf >>= k) db = .ok s ↔
      k ((db.histories.select p).map f)
        { db with histories := db.histories.update p f hf } = .ok s := by
  simp

lemma updateTurns_bind_ok {p : TurnRow → Bool} {f : TurnRow → TurnRow}
    {hf : ∀ r, (f r).id = r.id} {k : List TurnRow → Tx β} :
    (updateTurns p f hf >>= k) db = .ok s ↔
      k ((db.turns.select p).map f) { db with turns := db.turns.update p f hf } = .ok s := by
  simp

lemma updateExecutions_bind_ok {p : ExecutionRow → Bool} {f : ExecutionRow → ExecutionRow}
    {hf : ∀ r, (f r).id = r.id} {k : List ExecutionRow → Tx β} :
    (updateExecutions p f hf >>= k) db = .ok s ↔
      k ((db.executions.select p).map f)
        { db with executions := db.executions.update p f hf } = .ok s := by
  simp

@[simp] lemma updateSavedResults_ok {p : SavedResultRow → Bool}
    {f : SavedResultRow → SavedResultRow} {hf : ∀ r, (f r).id = r.id} {r : Unit × Db} :
    updateSavedResults p f hf db = .ok r ↔
      r = ((), { db with savedResults := db.savedResults.update p f hf }) := by
  simp [updateSavedResults]

@[simp] lemma updateAnalysisRuns_ok {p : AnalysisRunRow → Bool}
    {f : AnalysisRunRow → AnalysisRunRow} {hf : ∀ r, (f r).analysisRunId = r.analysisRunId}
    {r : Unit × Db} :
    updateAnalysisRuns p f hf db = .ok r ↔
      r = ((), { db with analysisRuns := db.analysisRuns.update p f hf }) := by
  simp [updateAnalysisRuns]

lemma insertTurn_ok {row row' : TurnRow} {db' : Db} (h : insertTurn row db = .ok (row', db')) :
    row' = row ∧ ∃ turns, db' = { db with turns := turns } ∧ turns.rows = db.turns.rows ++ [row] ∧
      (∀ t ∈ db.turns, t.id ≠ row.id) ∧
      ∀ t ∈ db.turns, t.historyId = row.historyId →
        t.ordinal ≠ row.ordinal ∧ t.operationId ≠ row.operationId := by
  simp only [insertTurn, Tx.read_bind_ok, Tx.raiseIf_bind_ok, Tx.orRaise_bind_ok,
    Tx.write_bind_ok, Tx.pure_ok, Prod.mk.injEq] at h
  obtain ⟨htaken, turns, hins, rfl, rfl⟩ := h
  obtain ⟨hrows, hid⟩ := Table.insert?_some hins
  refine ⟨rfl, _, rfl, hrows, hid, ?_⟩
  intro t ht hh
  simp only [List.any_eq_true, not_exists, not_and, Bool.and_eq_true, decide_eq_true_eq,
    Bool.or_eq_true] at htaken
  exact not_or.mp (htaken t ht hh)

lemma insertExecution_ok {row row' : ExecutionRow} {db' : Db}
    (h : insertExecution row db = .ok (row', db')) :
    row' = row ∧ ∃ executions, db' = { db with executions := executions } ∧
      executions.rows = db.executions.rows ++ [row] ∧
      (∀ e ∈ db.executions, e.id ≠ row.id) ∧
      (∀ e ∈ db.executions, e.ownerUserId = row.ownerUserId → e.operationId ≠ row.operationId) ∧
      (∀ e ∈ db.executions, e.historyId = row.historyId → e.turnId ≠ row.turnId) ∧
      (∃ t ∈ db.turns, t.historyId = row.historyId ∧ t.id = row.turnId) ∧
      ∃ h ∈ db.histories, h.id = row.historyId ∧ h.ownerUserId = row.ownerUserId := by
  simp only [insertExecution, Tx.read_bind_ok, Tx.raiseIf_bind_ok, Tx.orRaise_bind_ok,
    Tx.write_bind_ok, Tx.pure_ok, Prod.mk.injEq] at h
  obtain ⟨htaken, hres, executions, hins, rfl, rfl⟩ := h
  obtain ⟨hrows, hid⟩ := Table.insert?_some hins
  simp only [Bool.not_eq_false, Bool.and_eq_true, List.any_eq_true, decide_eq_true_eq] at hres
  simp only [List.any_eq_true, not_exists, not_and, Bool.and_eq_true, decide_eq_true_eq,
    Bool.or_eq_true, not_or] at htaken
  exact ⟨rfl, _, rfl, hrows, hid, fun e he ho => (htaken e he).1 ho,
    fun e he hh => (htaken e he).2 hh, hres.2, hres.1⟩

/-- Whether a row was inserted, and the table it leaves. -/
lemma insertHistory_ok {row : HistoryRow} {inserted : Bool} {db' : Db}
    (h : insertHistory row db = .ok (inserted, db')) :
    (inserted = false ∧ db' = db ∧ ∃ r ∈ db.histories, r.ownerUserId = row.ownerUserId ∧
        r.creationOperationId = row.creationOperationId) ∨
      (inserted = true ∧ ∃ histories, db' = { db with histories := histories } ∧
        histories.rows = db.histories.rows ++ [row] ∧ (∀ r ∈ db.histories, r.id ≠ row.id) ∧
        ∀ r ∈ db.histories, r.ownerUserId = row.ownerUserId →
          r.creationOperationId ≠ row.creationOperationId) := by
  simp only [insertHistory, Tx.read_bind_ok] at h
  split_ifs at h with hc
  · simp only [Tx.pure_ok, Prod.mk.injEq] at h
    obtain ⟨rfl, rfl⟩ := h
    simp only [List.any_eq_true, Bool.and_eq_true, decide_eq_true_eq] at hc
    exact .inl ⟨rfl, rfl, hc⟩
  · simp only [Tx.read_bind_ok, Tx.raiseIf_bind_ok, Tx.orRaise_bind_ok, Tx.write_bind_ok,
      Tx.pure_ok, Prod.mk.injEq] at h
    obtain ⟨-, histories, hins, rfl, rfl⟩ := h
    obtain ⟨hrows, hid⟩ := Table.insert?_some hins
    refine .inr ⟨rfl, _, rfl, hrows, hid, ?_⟩
    intro r hr ho hop
    apply hc
    simp only [List.any_eq_true, Bool.and_eq_true, decide_eq_true_eq]
    exact ⟨r, hr, ho, hop⟩

end ChatBI.Store
