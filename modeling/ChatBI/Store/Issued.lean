import ChatBI.Store.Lifecycle

/-!
# Issued attempts

What the database keeps of the attempts that were issued. Every execution row and every
active turn comes from one issue, and no turn, no operation of a history and no execution is
issued twice.
-/

namespace ChatBI.Store

open ChatBI.Lib Relation

/-- The token under which the turn of an execution was begun. -/
def ExecutionRow.token (e : ExecutionRow) : ExecutionToken :=
  ⟨e.historyId, e.turnId, e.runtimeEpoch, e.executionGeneration⟩

/-- The execution row that was inserted for an issued attempt. -/
structure Issue.Owns (i : Issue) (e : ExecutionRow) : Prop where
  owner : e.ownerUserId = i.owner
  operation : e.operationId = i.operationId
  token : e.token = i.token
  execution : i.execution = some (e.id, e.requestHash)

/-- The rows of an issued attempt; its turn and its execution go only with the history. -/
structure Issue.Recorded (db : Db) (i : Issue) : Prop where
  history : ∃ h ∈ db.histories, h.id = i.token.historyId ∧ h.ownerUserId = i.owner ∧
    (i.origin ≠ .attempt → h.creationOperationId = i.operationId)
  turn : (∃ t ∈ db.turns, t.token = i.token ∧ t.operationId = i.operationId) ∨
    db.Deleted i.token.historyId
  execution : i.execution ≠ none → (∃ e ∈ db.executions, i.Owns e) ∨ db.Deleted i.token.historyId

/-- The base state of an attempt is the one its query history still offers; the first turn
of a re-query has the query state of its source. -/
def Issue.Based (db : Db) (h : HistoryRow) (i : Issue) : Prop :=
  h.kind = .query → i.baseState = match i.origin with
    | .attempt => db.baseState h
    | .requery snapshot => snapshot.bind (fun x => x.get? "query_state")

structure Issued (s : State) : Prop where
  recorded : ∀ i ∈ s.issued, i.Recorded s.db
  execution : ∀ e ∈ s.db.executions, ∃ i ∈ s.issued, i.Owns e
  active : ∀ h ∈ s.db.histories, ∀ t, h.activeTurnId = some t →
    ∃ i ∈ s.issued, i.token.historyId = h.id ∧ i.token.turnId = t ∧ i.Based s.db h
  nodup : s.issued.Nodup
  unique : ∀ i ∈ s.issued, ∀ j ∈ s.issued, i.token.historyId = j.token.historyId →
    i.token.turnId = j.token.turnId ∨ i.operationId = j.operationId → i = j
  unique_execution : ∀ i ∈ s.issued, ∀ j ∈ s.issued, ∀ x, i.execution.map Prod.fst = some x →
    j.execution.map Prod.fst = some x → i = j

variable {codec : Codec} {db db' : Db} {s s' : State} {op : Op}

lemma TurnRow.Same.token {t t' : TurnRow} (same : t.Same t') : t'.token = t.token := by
  rw [TurnRow.token, same.history, same.id, same.epoch, same.generation, TurnRow.token]

lemma ExecutionRow.Same.token {e e' : ExecutionRow} (same : e.Same e') : e'.token = e.token := by
  rw [ExecutionRow.token, same.history, same.turn, same.epoch, same.generation, ExecutionRow.token]

lemma ExecutionRow.On.token {e : ExecutionRow} {t : TurnRow} (o : e.On t) : t.token = e.token := by
  rw [TurnRow.token, o.history, o.turn, o.epoch, o.generation, ExecutionRow.token]

lemma Issue.Owns.same {i : Issue} {e e' : ExecutionRow} (o : i.Owns e) (same : e.Same e') :
    i.Owns e' :=
  ⟨same.owner.trans o.owner, same.operation.trans o.operation, same.token.trans o.token,
    by rw [o.execution, same.id, same.requestHash]⟩

/-- The rows of an issued attempt evolve with the database. -/
lemma Issue.Recorded.evolves {i : Issue} (r : i.Recorded db) (v : Evolves db db') :
    i.Recorded db' where
  history := by
    obtain ⟨h, hh, hid, ho, hcreation⟩ := r.history
    obtain ⟨h', hh', e⟩ := v.history h hh
    exact ⟨h', hh', e.id.trans hid, e.owner.trans ho, fun hi => e.creation.trans (hcreation hi)⟩
  turn := by
    rcases r.turn with ⟨t, ht, htoken, hop⟩ | hdel
    · rcases v.turn t ht with ⟨t', ht', e⟩ | hdel
      · exact .inl ⟨t', ht', e.token.trans htoken, e.operation.trans hop⟩
      · exact .inr (htoken ▸ hdel)
    · exact .inr (hdel.evolves v)
  execution hi := by
    rcases r.execution hi with ⟨e, he, o⟩ | hdel
    · rcases v.execution e he with ⟨e', he', ve⟩ | hdel
      · exact .inl ⟨e', he', o.same ve.toSame⟩
      · exact .inr (o.token ▸ hdel)
    · exact .inr (hdel.evolves v)

/-- The rows of an issued attempt whose history is not deleted. -/
lemma Issue.Recorded.alive {i : Issue} (r : i.Recorded db) {h : HistoryRow}
    (hh : h ∈ db.histories) (hid : h.id = i.token.historyId) (hdel : h.deletedAt = none) :
    ∃ t ∈ db.turns, t.token = i.token ∧ t.operationId = i.operationId := by
  rcases r.turn with hturn | ⟨x, hx, hxid, hxdel⟩
  · exact hturn
  · rw [Table.eq_of_key hx hh (hxid.trans hid.symm)] at hxdel
    exact absurd hdel hxdel

/-! ### The new issue of an opened turn -/

section Opened

variable {h : HistoryRow} {t : TurnRow} {execution : Option ExecutionRow} {i : Issue}

lemma Opened.mem_turns (o : Opened db db' i.owner i.operationId h t execution) : t ∈ db'.turns :=
  (Table.mem_of_rows_append o.turns).mpr (.inr rfl)

lemma Opened.mem_histories (o : Opened db db' i.owner i.operationId h t execution) :
    ∃ now, h.begin now t.id t.executionGeneration ∈ db'.histories := by
  obtain ⟨now, hhs⟩ := o.histories
  rw [hhs]
  exact ⟨now, (Table.mem_set o.mem (HistoryRow.begin_id now h _ _)).mpr (.inl rfl)⟩

/-- The rows of the new issue are in the database. -/
lemma Opened.recorded (o : Opened db db' i.owner i.operationId h t execution)
    (records : i.For t execution)
    (creation : i.origin ≠ .attempt → h.creationOperationId = i.operationId) : i.Recorded db' := by
  have hid : h.id = i.token.historyId := by rw [records.token]; exact o.opens.history.symm
  obtain ⟨now, hmem⟩ := o.mem_histories
  refine ⟨⟨_, hmem, hid, o.owned, creation⟩,
    .inl ⟨t, o.mem_turns, records.token.symm, o.operation⟩, fun hexec => ?_⟩
  cases execution with
  | none => exact absurd records.execution hexec
  | some e =>
    obtain ⟨rows, accepts⟩ := o.accepted e rfl
    have a := accepts now
    refine .inl ⟨e, (Table.mem_of_rows_append rows).mpr (.inr rfl), ?_, ?_, ?_, records.execution⟩
    · exact a.owner.trans o.owned
    · exact a.operation.trans o.operation
    · rw [records.token, ExecutionRow.token, a.turnHistory, a.turn, a.epoch, a.generation,
        TurnRow.token]

/-- The executions after a turn was opened are the old ones and the one of the new issue. -/
lemma Opened.owns (o : Opened db db' i.owner i.operationId h t execution)
    (records : i.For t execution) {e : ExecutionRow} (he : e ∈ db'.executions) :
    e ∈ db.executions ∨ i.Owns e := by
  cases execution with
  | none => exact .inl (o.unaccepted rfl ▸ he)
  | some f =>
    obtain ⟨rows, accepts⟩ := o.accepted f rfl
    rcases (Table.mem_of_rows_append rows).mp he with he | rfl
    · exact .inl he
    · have a := accepts 0
      refine .inr ⟨a.owner.trans o.owned, a.operation.trans o.operation, ?_, records.execution⟩
      rw [records.token, ExecutionRow.token, a.turnHistory, a.turn, a.epoch, a.generation,
        TurnRow.token]

/-- Opening a turn changes no base state. -/
lemma Opened.baseState (o : Opened db db' i.owner i.operationId h t execution) (x : HistoryRow) :
    db'.baseState x = db.baseState x :=
  baseState_append o.turns (by rw [o.opens.status]; exact TurnStatus.noConfusion) x

/-- An earlier issue of the same history has another turn and another operation. -/
lemma Opened.unissued (o : Opened db db' i.owner i.operationId h t execution)
    (records : i.For t execution) {j : Issue} (r : j.Recorded db)
    (hid : j.token.historyId = i.token.historyId) :
    j.token.turnId ≠ i.token.turnId ∧ j.operationId ≠ i.operationId := by
  have hhist : t.historyId = h.id := o.opens.history
  have htoken : i.token.historyId = t.historyId ∧ i.token.turnId = t.id := by
    rw [records.token]
    exact ⟨rfl, rfl⟩
  obtain ⟨u, hu, hutoken, huop⟩ :=
    r.alive o.mem (by rw [hid, htoken.1, hhist]) o.opens.alive
  have huhist : u.historyId = t.historyId := by
    rw [← htoken.1, ← hid, ← hutoken]
    rfl
  have huid : u.id = j.token.turnId := by
    rw [← hutoken]
    rfl
  constructor
  · rw [htoken.2, ← huid]
    exact o.opens.fresh u hu
  · rw [← huop, ← o.operation]
    exact o.opens.operation u hu huhist

end Opened

namespace Issued

lemma init : Issued {} where
  recorded _ hi := absurd hi List.not_mem_nil
  execution _ he := absurd he (Table.not_mem_empty _)
  active _ hh := absurd hh (Table.not_mem_empty _)
  nodup := List.nodup_nil
  unique _ hi := absurd hi List.not_mem_nil
  unique_execution _ hi := absurd hi List.not_mem_nil

lemma settle (I : Issued s) (v : Evolves s.db db) (q : Quiet s.db db) :
    Issued { s with db := db } where
  recorded i hi := (I.recorded i hi).evolves v
  execution e' he' := by
    obtain ⟨e, he, same⟩ := q.execution e' he'
    obtain ⟨i, hi, o⟩ := I.execution e he
    exact ⟨i, hi, o.same same⟩
  active h' hh' t ht := by
    obtain ⟨h, hh, same, hactive, hbase⟩ := q.active h' hh' t ht
    obtain ⟨i, hi, hid, htid, based⟩ := I.active h hh t hactive
    refine ⟨i, hi, hid.trans same.id.symm, htid, fun hkind => ?_⟩
    rw [same.kind] at hkind
    rw [based hkind]
    cases i.origin with
    | attempt => exact hbase.symm
    | requery snapshot => rfl
  nodup := I.nodup
  unique := I.unique
  unique_execution := I.unique_execution

lemma create (I : Issued s) {owner : Owner} {operationId newId : Uuid} {h : HistoryRow}
    {histories : Table HistoryRow.id} (C : Consistent s.db)
    (c : Created s.db owner operationId newId h histories) :
    Issued { s with db := { s.db with histories := histories } } where
  recorded i hi := (I.recorded i hi).evolves (Evolves.effect C c.effect)
  execution := I.execution
  active x hx t ht := by
    rcases (Table.mem_of_rows_append c.rows).mp hx with hx | rfl
    · exact I.active x hx t ht
    · rw [c.new.active] at ht
      cases ht
  nodup := I.nodup
  unique := I.unique
  unique_execution := I.unique_execution

/-- A turn is opened and issued. -/
lemma opened (I : Issued s) (C : Consistent s.db) {h : HistoryRow} {t : TurnRow}
    {execution : Option ExecutionRow} {i : Issue}
    (o : Opened s.db db i.owner i.operationId h t execution) (records : i.For t execution)
    (creation : i.origin ≠ .attempt → h.creationOperationId = i.operationId)
    (based : i.Based s.db h) (fresh : ∀ e, execution = some e → s.Unused e.id) :
    Issued { db := db, issued := s.issued ++ [i] } := by
  have v := Evolves.effects C o.effects
  have hnew : i.token.historyId = h.id ∧ i.token.turnId = t.id := by
    rw [records.token]
    exact ⟨o.opens.history, rfl⟩
  have hunused : ∀ j ∈ s.issued, ∀ x, j.execution.map Prod.fst = some x →
      i.execution.map Prod.fst ≠ some x := by
    intro j hj x hjx hix
    cases execution with
    | none =>
      rw [records.execution] at hix
      cases hix
    | some e =>
      rw [records.execution] at hix
      cases hix
      exact fresh e rfl j hj hjx
  refine ⟨?_, ?_, ?_, ?_, ?_, ?_⟩
  · intro j hj
    rcases List.mem_append.mp hj with hj | hj
    · exact (I.recorded j hj).evolves v
    · rw [List.mem_singleton.mp hj]
      exact o.recorded records creation
  · intro e he
    rcases o.owns records he with he | howns
    · obtain ⟨j, hj, howns⟩ := I.execution e he
      exact ⟨j, List.mem_append_left _ hj, howns⟩
    · exact ⟨i, List.mem_append_right _ (List.mem_singleton.mpr rfl), howns⟩
  · intro x hx u hu
    obtain ⟨now, hhs⟩ := o.histories
    rw [hhs] at hx
    rcases (Table.mem_set o.mem (HistoryRow.begin_id now h _ _)).mp hx with rfl | ⟨hx, -⟩
    · cases hu
      refine ⟨i, List.mem_append_right _ (List.mem_singleton.mpr rfl), hnew.1, hnew.2, ?_⟩
      intro hkind
      rw [based hkind]
      cases i.origin with
      | attempt => exact (o.baseState h).symm
      | requery snapshot => rfl
    · obtain ⟨j, hj, hid, htid, hbased⟩ := I.active x hx u hu
      refine ⟨j, List.mem_append_left _ hj, hid, htid, fun hkind => ?_⟩
      rw [hbased hkind]
      cases j.origin with
      | attempt => exact (o.baseState x).symm
      | requery snapshot => rfl
  · refine List.nodup_append.mpr ⟨I.nodup, List.nodup_singleton i, ?_⟩
    rintro j hj k hk rfl
    rw [List.mem_singleton.mp hk] at hj
    exact (o.unissued records (I.recorded i hj) rfl).1 rfl
  · intro j hj k hk hid hor
    rcases List.mem_append.mp hj with hj | hj <;> rcases List.mem_append.mp hk with hk | hk
    · exact I.unique j hj k hk hid hor
    · cases List.mem_singleton.mp hk
      have hne := o.unissued records (I.recorded j hj) hid
      exact absurd hor (not_or.mpr hne)
    · cases List.mem_singleton.mp hj
      have hne := o.unissued records (I.recorded k hk) hid.symm
      exact absurd hor (not_or.mpr ⟨hne.1.symm, hne.2.symm⟩)
    · rw [List.mem_singleton.mp hj, List.mem_singleton.mp hk]
  · intro j hj k hk x hjx hkx
    rcases List.mem_append.mp hj with hj | hj <;> rcases List.mem_append.mp hk with hk | hk
    · exact I.unique_execution j hj k hk x hjx hkx
    · cases List.mem_singleton.mp hk
      exact absurd hkx (hunused j hj x hjx)
    · cases List.mem_singleton.mp hj
      exact absurd hjx (hunused k hk x hkx)
    · rw [List.mem_singleton.mp hj, List.mem_singleton.mp hk]

/-- Every move keeps the record of issues. -/
theorem move (I : Issued s) (C : Consistent s.db) (m : Move s s') : Issued s' := by
  cases m with
  | settle f => exact I.settle (Evolves.effects C f.effects) (Quiet.settles f)
  | create c => exact I.create C c
  | attempt o records origin base fresh =>
    refine I.opened C o records (fun h => absurd origin h) (fun _ => ?_) fresh
    rw [origin]
    exact base
  | requery c o records origin base fresh =>
    have I' := I.create C c
    refine I'.opened (C.effect c.effect) o records (fun _ => c.operation) (fun hkind => ?_) fresh
    rw [origin]
    exact base hkind

end Issued

/-- The execution of an issue is the execution of its turn. -/
lemma Issued.own (I : Issued s) {i : Issue} (hi : i ∈ s.issued) {x : Uuid} {hash : Digest}
    (hexec : i.execution = some (x, hash)) : OwnExecution s.db i.token (some x) := by
  intro e he
  obtain ⟨j, hj, o⟩ := I.execution e he
  rw [Option.some.injEq]
  constructor
  · rintro rfl
    have hij : i = j := by
      apply I.unique_execution i hi j hj e.id
      · rw [hexec, Option.map_some]
      · rw [o.execution, Option.map_some]
    rw [hij, ← o.token]
    exact ⟨rfl, rfl⟩
  · rintro ⟨hhist, hturn⟩
    have hji : j = i := by
      apply I.unique j hj i hi
      · rw [← o.token]
        exact hhist
      · rw [← o.token]
        exact .inl hturn
    have hid := o.execution
    rw [hji, hexec, Option.some.injEq, Prod.mk.injEq] at hid
    exact hid.1

/-- An operation that accepts no execution issues none. -/
lemma State.apply_issued (quiet : op.accepts = false) {i : Issue}
    (hi : i ∈ (s.apply codec op).issued) : i ∈ s.issued ∨ i.execution = none := by
  have hanswer : ∀ {α : Type} {tx : Tx α} {issue : α → Option Issue},
      op.tx codec s.db = (do let a ← tx; return issue a) →
      (∀ a i, issue a = some i → i.execution = none) → i ∈ s.issued ∨ i.execution = none := by
    intro α tx issue htx hnone
    rcases State.apply_answer htx with ⟨a, db, -, happly⟩ | ⟨-, happly⟩
    · rw [happly, List.mem_append] at hi
      exact hi.imp_right (fun h => hnone a i (Option.mem_toList.mp h))
    · rw [happly] at hi
      exact .inl hi
  have hattempt : ∀ (a : AcceptedAttempt) owner operationId origin i,
      a.issue owner operationId origin none = some i → i.execution = none := by
    intro a owner operationId origin i h
    obtain ⟨token, -, rfl⟩ := Option.map_eq_some_iff.mp h
    rfl
  cases op with
  | beginAttempt now owner => exact hanswer rfl (fun a i h => hattempt a _ _ _ i h)
  | beginAnalysisAttempt now owner => exact hanswer rfl (fun a i h => hattempt a _ _ _ i h)
  | beginExecutionAttempt => cases quiet
  | beginRequery now owner kind source turn operation request epoch newId turnId runId data =>
    cases data with
    | none => exact hanswer rfl (fun r i h => hattempt r.attempt _ _ _ i h)
    | some data => cases quiet
  | _ => exact hanswer rfl (fun _ _ h => by cases h)

/-- What is known of every reachable state. -/
structure Good (s : State) : Prop where
  consistent : Consistent s.db
  issued : Issued s

lemma Good.step (g : Good s) (h : (system codec).step s op s') : Good s' :=
  have m := step_move g.consistent h
  ⟨g.consistent.effects m.effects, g.issued.move g.consistent m⟩

theorem reachable_good (h : (system codec).Reachable s) : Good s := by
  refine h.invariant (I := Good) ?_ (fun _ _ _ g hstep => g.step hstep)
  rintro _ rfl
  exact ⟨.init, .init⟩

end ChatBI.Store
