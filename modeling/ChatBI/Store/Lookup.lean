import ChatBI.Store.Extension

/-!
# Reads of an execution

The rows of an execution are found by every read of its owner: the history, the turn, the
execution itself and the lookup of its operation.
-/

namespace ChatBI.Store

open ChatBI.Lib

variable {db : Db} {e : ExecutionRow}

/-- The history of an execution is not deleted and belongs to its owner. -/
lemma Consistent.history_of (C : Consistent db) (he : e ∈ db.executions) :
    ∃ h ∈ db.histories, owned e.ownerUserId e.historyId db = .ok (h, db) := by
  obtain ⟨h, hh, hid, howner⟩ := C.execution_history e he
  have halive : h.deletedAt = none := by
    by_contra hdel
    exact C.undeleted_execution he ⟨h, hh, hid, hdel⟩
  have hfirst : db.histories.first (fun x => x.id = e.historyId && x.ownerUserId = e.ownerUserId &&
      x.deletedAt = none) = some h := by
    rw [Table.first_eq_some_iff]
    · simp [hh, hid, howner, halive]
    · intro x _ y _ hx hy
      simp only [Bool.and_eq_true, decide_eq_true_eq] at hx hy
      rw [hx.1.1, hy.1.1]
  refine ⟨h, hh, ?_⟩
  simp only [owned, Tx.bind_ok, Tx.read_ok, Tx.orRaise_ok]
  exact ⟨_, _, rfl, h, hfirst, rfl⟩

lemma Consistent.historyHeader_ok (C : Consistent db) (he : e ∈ db.executions) (now : Timestamp) :
    ∃ h, historyHeader now e.ownerUserId e.historyId db = .ok (h, db) := by
  obtain ⟨h, -, howned⟩ := C.history_of he
  unfold historyHeader
  simp only [Tx.bind_ok, howned]
  cases hkind : h.kind with
  | query => exact ⟨_, h, db, rfl, by rw [hkind]; rfl⟩
  | analysis => exact ⟨_, h, db, rfl, by rw [hkind]; rfl⟩

lemma Consistent.historyTurn_ok (C : Consistent db) (he : e ∈ db.executions) :
    ∃ t, historyTurn e.ownerUserId e.historyId e.turnId db = .ok (t, db) := by
  obtain ⟨h, -, howned⟩ := C.history_of he
  obtain ⟨t, ht, o⟩ := C.execution_turn e he
  have hfirst : db.turns.first (fun x => x.id = e.turnId && x.historyId = e.historyId) = some t := by
    rw [Table.first_eq_some_iff]
    · simp [ht, o.turn, o.history]
    · intro x _ y _ hx hy
      simp only [Bool.and_eq_true, decide_eq_true_eq] at hx hy
      rw [hx.1, hy.1]
  unfold historyTurn
  simp only [Tx.bind_ok, howned, Tx.read_ok, Tx.orRaise_ok]
  exact ⟨_, h, db, rfl, _, db, rfl, t, db, ⟨t, hfirst, rfl⟩, _, db, rfl, rfl⟩

lemma execution_ok (he : e ∈ db.executions) :
    execution e.ownerUserId e.id db = .ok (record e, db) := by
  have hfirst : db.executions.first (fun x => x.id = e.id && x.ownerUserId = e.ownerUserId) =
      some e := by
    rw [Table.first_eq_some_iff]
    · simp [he]
    · intro x _ y _ hx hy
      simp only [Bool.and_eq_true, decide_eq_true_eq] at hx hy
      rw [hx.1, hy.1]
  simp only [execution, Tx.read_bind_ok, Tx.orRaise_bind_ok, Tx.pure_ok]
  exact ⟨e, hfirst, rfl⟩

/-- The lookup of an operation whose execution exists. -/
lemma Consistent.executionByOperation_eq (C : Consistent db) (he : e ∈ db.executions)
    (hash : Digest) :
    executionByOperation e.ownerUserId e.operationId (some hash) db =
      if hash = e.requestHash then .ok (some (record e), db)
      else .error (.history operationConflict) := by
  have hfirst : db.executions.first (fun x => x.ownerUserId = e.ownerUserId &&
      x.operationId = e.operationId) = some e := by
    cases hx : db.executions.first (fun x => x.ownerUserId = e.ownerUserId &&
        x.operationId = e.operationId) with
    | none =>
      have := Table.first_none.mp hx e he
      simp at this
    | some x =>
      obtain ⟨hmem, hp⟩ := Table.first_some hx
      simp only [Bool.and_eq_true, decide_eq_true_eq] at hp
      rw [C.execution_operation x hmem e he (Prod.ext hp.1 hp.2)]
  unfold executionByOperation
  simp only [Tx.read, Bind.bind, StateT.bind, Except.bind, hfirst]
  by_cases hhash : hash = e.requestHash
  · rw [if_pos hhash]
    simp only [hhash, ne_eq, not_true, and_false, Tx.raiseIf, if_false]
    rfl
  · rw [if_neg hhash]
    simp only [Tx.raiseIf]
    rw [if_pos ⟨rfl, fun h => hhash (Option.some.inj h)⟩]
    rfl

end ChatBI.Store
