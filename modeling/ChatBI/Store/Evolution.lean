import ChatBI.Store.Beginning

/-!
# How rows evolve

What any sequence of effects preserves of the rows that exist: a closed turn and a terminal
execution stay as they are, a recorded stop reason stays, and rows disappear only with a
deleted history.
-/

namespace ChatBI.Store

open ChatBI.Lib Relation

structure HistoryRow.Evolves (h h' : HistoryRow) : Prop extends HistoryRow.Same h h' where
  deleted : h.deletedAt ≠ none → h'.deletedAt ≠ none

structure TurnRow.Evolves (t t' : TurnRow) : Prop extends TurnRow.Same t t' where
  closed : t.status ≠ .accepted → t'.status = t.status ∧ t'.snapshot = t.snapshot

structure ExecutionRow.Evolves (e e' : ExecutionRow) : Prop extends ExecutionRow.Same e e' where
  terminal : e.status.isOpen = false → e' = e
  stopReason : ∀ r, e.stopReason = some r → e'.stopReason = some r
  stopping : e.status = .stopping →
    e'.status = .stopping ∨ e'.status.isOpen = false ∧ e'.status ≠ .succeeded

/-- The history is deleted. -/
def Db.Deleted (db : Db) (historyId : Uuid) : Prop :=
  ∃ h ∈ db.histories, h.id = historyId ∧ h.deletedAt ≠ none

/-- Every row of `db` is in `db'` in an evolved form or belongs to a deleted history. -/
structure Evolves (db db' : Db) : Prop where
  history : ∀ h ∈ db.histories, ∃ h' ∈ db'.histories, h.Evolves h'
  turn : ∀ t ∈ db.turns, (∃ t' ∈ db'.turns, t.Evolves t') ∨ db'.Deleted t.historyId
  execution : ∀ e ∈ db.executions, (∃ e' ∈ db'.executions, e.Evolves e') ∨
    db'.Deleted e.historyId

/-- No turn and no execution is new and no history becomes active; an active history keeps
the base state of its turn. -/
structure Quiet (db db' : Db) : Prop where
  turn : ∀ t' ∈ db'.turns, ∃ t ∈ db.turns, t.Same t'
  execution : ∀ e' ∈ db'.executions, ∃ e ∈ db.executions, e.Same e'
  active : ∀ h' ∈ db'.histories, ∀ i, h'.activeTurnId = some i → ∃ h ∈ db.histories, h.Same h' ∧
    h.activeTurnId = some i ∧ db'.baseState h' = db.baseState h

lemma HistoryRow.Same.trans {h h' h'' : HistoryRow} (a : h.Same h') (b : h'.Same h'') :
    h.Same h'' :=
  ⟨b.id.trans a.id, b.owner.trans a.owner, b.kind.trans a.kind, b.creation.trans a.creation⟩

lemma HistoryRow.Evolves.refl (h : HistoryRow) : h.Evolves h := ⟨.refl h, fun hdel => hdel⟩

lemma HistoryRow.Evolves.trans {h h' h'' : HistoryRow} (a : h.Evolves h') (b : h'.Evolves h'') :
    h.Evolves h'' :=
  ⟨a.toSame.trans b.toSame, fun hdel => b.deleted (a.deleted hdel)⟩

lemma HistoryRow.Kept.evolves {h h' : HistoryRow} (k : h.Kept h') : h.Evolves h' :=
  ⟨k.toSame, fun hdel => by rwa [k.deletedAt]⟩

lemma TurnRow.Evolves.refl (t : TurnRow) : t.Evolves t := ⟨.refl t, fun _ => ⟨rfl, rfl⟩⟩

lemma TurnRow.Evolves.trans {t t' t'' : TurnRow} (a : t.Evolves t') (b : t'.Evolves t'') :
    t.Evolves t'' := by
  refine ⟨a.toSame.trans b.toSame, fun hst => ?_⟩
  obtain ⟨h₁, h₂⟩ := a.closed hst
  obtain ⟨h₃, h₄⟩ := b.closed (by rwa [h₁])
  exact ⟨h₃.trans h₁, h₄.trans h₂⟩

lemma TurnRow.Kept.evolves {t t' : TurnRow} (k : t.Kept t') : t.Evolves t' :=
  ⟨k.toSame, fun _ => ⟨k.status, k.snapshot⟩⟩

lemma ExecutionRow.Evolves.refl (e : ExecutionRow) : e.Evolves e :=
  ⟨.refl e, fun _ => rfl, fun _ h => h, .inl⟩

lemma ExecutionRow.Evolves.trans {e e' e'' : ExecutionRow} (a : e.Evolves e')
    (b : e'.Evolves e'') : e.Evolves e'' := by
  refine ⟨a.toSame.trans b.toSame, ?_, fun r hr => b.stopReason r (a.stopReason r hr), ?_⟩
  · intro hterm
    have := a.terminal hterm
    subst this
    exact b.terminal hterm
  · intro hst
    rcases a.stopping hst with hst' | ⟨hterm, hne⟩
    · exact b.stopping hst'
    · rw [b.terminal hterm]
      exact .inr ⟨hterm, hne⟩

/-- An execution that is not stopped yet moves within its open states. -/
lemma ExecutionRow.Moved.evolves {e e' : ExecutionRow} (m : e.Moved e')
    (unstopped : e.status.isActive = true → e.stopReason = none) : e.Evolves e' := by
  refine ⟨m.toSame, ?_, ?_, ?_⟩ <;> rcases m.move with rfl | ⟨hactive, hmove⟩
  · exact fun _ => rfl
  · intro hterm
    rw [ExecutionStatus.isOpen_of_isActive hactive] at hterm
    cases hterm
  · exact fun _ h => h
  · intro r hr
    rw [unstopped hactive] at hr
    cases hr
  · exact .inl
  · intro hst
    rw [hst] at hactive
    cases hactive

variable {db db' db'' : Db}

lemma Db.Deleted.evolves {historyId : Uuid} (hdel : db.Deleted historyId) (v : Evolves db db') :
    db'.Deleted historyId := by
  obtain ⟨h, hh, hid, hd⟩ := hdel
  obtain ⟨h', hh', e⟩ := v.history h hh
  exact ⟨h', hh', e.id.trans hid, e.deleted hd⟩

namespace Evolves

lemma refl (db : Db) : Evolves db db where
  history h hh := ⟨h, hh, .refl h⟩
  turn t ht := .inl ⟨t, ht, .refl t⟩
  execution e he := .inl ⟨e, he, .refl e⟩

lemma trans (a : Evolves db db') (b : Evolves db' db'') : Evolves db db'' where
  history h hh := by
    obtain ⟨h', hh', e⟩ := a.history h hh
    obtain ⟨h'', hh'', e'⟩ := b.history h' hh'
    exact ⟨h'', hh'', e.trans e'⟩
  turn t ht := by
    rcases a.turn t ht with ⟨t', ht', e⟩ | hdel
    · rcases b.turn t' ht' with ⟨t'', ht'', e'⟩ | hdel
      · exact .inl ⟨t'', ht'', e.trans e'⟩
      · exact .inr (e.history ▸ hdel)
    · exact .inr (hdel.evolves b)
  execution x hx := by
    rcases a.execution x hx with ⟨x', hx', e⟩ | hdel
    · rcases b.execution x' hx' with ⟨x'', hx'', e'⟩ | hdel
      · exact .inl ⟨x'', hx'', e.trans e'⟩
      · exact .inr (e.history ▸ hdel)
    · exact .inr (hdel.evolves b)

/-- Rewriting the rows of every table evolves them. -/
lemma rewrite {fh : HistoryRow → HistoryRow} {ft : TurnRow → TurnRow}
    {fe : ExecutionRow → ExecutionRow} (hhs : db'.histories.rows = db.histories.rows.map fh)
    (hts : db'.turns.rows = db.turns.rows.map ft)
    (hes : db'.executions.rows = db.executions.rows.map fe)
    (histories : ∀ h ∈ db.histories, h.Evolves (fh h)) (turns : ∀ t ∈ db.turns, t.Evolves (ft t))
    (executions : ∀ e ∈ db.executions, e.Evolves (fe e)) : Evolves db db' where
  history h hh := ⟨fh h, Table.mem_rows.mp (hhs ▸ List.mem_map_of_mem hh), histories h hh⟩
  turn t ht := .inl ⟨ft t, Table.mem_rows.mp (hts ▸ List.mem_map_of_mem ht), turns t ht⟩
  execution e he :=
    .inl ⟨fe e, Table.mem_rows.mp (hes ▸ List.mem_map_of_mem he), executions e he⟩

lemma close {h h' : HistoryRow} {t t' : TurnRow}
    {fe : ExecutionRow → ExecutionRow} (memHistory : h ∈ db.histories) (memTurn : t ∈ db.turns)
    (accepted : t.status = .accepted) (closing : Closing h h' t t' fe)
    (unstopped : t'.status = .succeeded → ∀ e ∈ db.executions, e.openOn t = true →
      e.status ≠ .stopping) :
    Evolves db { db with
      histories := db.histories.set h', turns := db.turns.set t'
      executions := db.executions.update (ExecutionRow.openOn t) fe
        (fun e => (closing.execution e).id) } := by
  refine rewrite rfl rfl rfl ?_ ?_ ?_
  · intro x hx
    split_ifs with hid
    · rw [Table.eq_of_key hx memHistory (hid.trans closing.history.id)]
      exact ⟨closing.history, fun hdel => by rwa [closing.deletedAt]⟩
    · exact .refl x
  · intro s hs
    split_ifs with hid
    · rw [Table.eq_of_key hs memTurn (hid.trans closing.turn.id)]
      exact ⟨closing.turn, fun hst => absurd accepted hst⟩
    · exact .refl s
  · intro e he
    split_ifs with hopen
    · refine ⟨closing.execution e, ?_, fun r hr => (closing.stopReason e).trans hr, ?_⟩
      · intro hterm
        rw [(ExecutionRow.openOn_iff.mp hopen).2.2] at hterm
        cases hterm
      · intro hst
        refine .inr ⟨closing.terminal e, fun hsucc => ?_⟩
        exact unstopped ((closing.outcome e).mp hsucc) e he hopen hst
    · exact .refl e

lemma restart (epoch : Uuid) (now : Timestamp) :
    Evolves db { db with
      histories := db.histories.update (fun h => h.activeTurnId ≠ none) (HistoryRow.abandon now)
        (fun r => r.abandon_id now)
      turns := db.turns.update (fun t => t.status = .accepted) (TurnRow.abandon now)
        (fun r => r.abandon_id now)
      executions := db.executions.update (fun e => e.status.isOpen) (ExecutionRow.abandon now)
        (fun r => r.abandon_id now)
      runtimeEpoch := some epoch } := by
  refine rewrite rfl rfl rfl ?_ ?_ ?_
  · intro h _
    split_ifs
    · exact ⟨⟨rfl, rfl, rfl, rfl⟩, fun hdel => hdel⟩
    · exact .refl h
  · intro t _
    split_ifs with hacc
    · exact ⟨⟨rfl, rfl, rfl, rfl, rfl, rfl⟩, fun hst => absurd (of_decide_eq_true hacc) hst⟩
    · exact .refl t
  · intro e _
    split_ifs with hopen
    · refine ⟨⟨rfl, rfl, rfl, rfl, rfl, rfl, rfl, rfl⟩, ?_, fun _ h => h, ?_⟩
      · exact fun hterm => Bool.noConfusion (hopen.symm.trans hterm)
      · exact fun _ => .inr ⟨rfl, ExecutionStatus.noConfusion⟩
    · exact .refl e

lemma delete {h h' : HistoryRow} (mem : h ∈ db.histories) (same : h.Same h')
    (deleted : h'.deletedAt ≠ none) :
    Evolves db { db with
      histories := db.histories.set h'
      turns := db.turns.delete (fun t => t.historyId = h.id)
      executions := db.executions.delete (fun e => db.turns.rows.any (fun t =>
        t.historyId = h.id && t.historyId = e.historyId && t.id = e.turnId)) } := by
  have hmh := fun x => Table.mem_set (x := x) mem same.id
  have hdel : ∀ executions, Db.Deleted { db with
      histories := db.histories.set h'
      turns := db.turns.delete (fun t => t.historyId = h.id)
      executions := executions } h.id :=
    fun _ => ⟨h', (hmh h').mpr (.inl rfl), same.id, deleted⟩
  refine ⟨?_, ?_, ?_⟩
  · intro x hx
    by_cases hid : x.id = h'.id
    · rw [Table.eq_of_key hx mem (hid.trans same.id)]
      exact ⟨h', (hmh h').mpr (.inl rfl), same, fun _ => deleted⟩
    · exact ⟨x, (hmh x).mpr (.inr ⟨hx, hid⟩), .refl x⟩
  · intro t ht
    by_cases hid : t.historyId = h.id
    · exact .inr (hid ▸ hdel _)
    · exact .inl ⟨t, Table.mem_delete.mpr ⟨ht, decide_eq_false hid⟩, .refl t⟩
  · intro e he
    by_cases hid : e.historyId = h.id
    · exact .inr (hid ▸ hdel _)
    · refine .inl ⟨e, Table.mem_delete.mpr ⟨he, ?_⟩, .refl e⟩
      rw [List.any_eq_false]
      intro t _ ht
      simp only [Bool.and_eq_true, decide_eq_true_eq] at ht
      exact hid (ht.1.2.symm.trans ht.1.1)

/-- Every effect evolves the rows. -/
theorem effect (C : Consistent db) (f : Effect db db') : Evolves db db' := by
  cases f with
  | settle s =>
    cases s with
    | touch hfh hft hfe histories turns executions =>
      exact rewrite rfl rfl rfl (fun h hh => (histories h hh).evolves)
        (fun t ht => (turns t ht).evolves)
        (fun e he => (executions e he).evolves (C.unstopped e he))
    | close memHistory memTurn _ _ accepted closing unstopped =>
      exact close memHistory memTurn accepted closing unstopped
    | restart epoch now => exact restart epoch now
    | delete mem _ same deleted => exact delete mem same deleted
  | create _ rows =>
    exact ⟨fun h hh => ⟨h, (Table.mem_of_rows_append rows).mpr (.inl hh), .refl h⟩,
      fun t ht => .inl ⟨t, ht, .refl t⟩, fun e he => .inl ⟨e, he, .refl e⟩⟩
  | @begin h t turns mem opens rows now =>
    have hmh := fun x => @Table.mem_set _ _ _ _ db.histories _ _ x mem
      (h.begin_id now t.id t.executionGeneration)
    refine ⟨?_, fun t ht => .inl ⟨t, (Table.mem_of_rows_append rows).mpr (.inl ht), .refl t⟩,
      fun e he => .inl ⟨e, he, .refl e⟩⟩
    intro x hx
    by_cases hid : x.id = h.id
    · rw [Table.eq_of_key hx mem hid]
      exact ⟨_, (hmh _).mpr (.inl rfl), ⟨rfl, rfl, rfl, rfl⟩, fun hdel => hdel⟩
    · exact ⟨x, (hmh x).mpr (.inr ⟨hx, hid⟩), .refl x⟩
  | accept _ _ _ rows =>
    exact ⟨fun h hh => ⟨h, hh, .refl h⟩, fun t ht => .inl ⟨t, ht, .refl t⟩,
      fun e he => .inl ⟨e, (Table.mem_of_rows_append rows).mpr (.inl he), .refl e⟩⟩

theorem effects (C : Consistent db) (f : Effects db db') : Evolves db db' := by
  induction f with
  | refl => exact refl db
  | tail hf h ih => exact ih.trans (effect (C.effects hf) h)

end Evolves

/-! ### Effects that open nothing -/

/-- The base state is read from the succeeded turns of the history. -/
lemma baseState_congr {h h' : HistoryRow} (same : h.Same h')
    (last : h'.lastSuccessTurnId = h.lastSuccessTurnId)
    (first : ∀ i, (db'.turns.first (fun t => t.id = i && t.historyId = h.id &&
        t.status = .succeeded)).bind TurnRow.queryState =
      (db.turns.first (fun t => t.id = i && t.historyId = h.id &&
        t.status = .succeeded)).bind TurnRow.queryState) :
    db'.baseState h' = db.baseState h := by
  simp only [Db.baseState, Db.lastSuccess, last, same.id, same.kind]
  cases h.kind with
  | analysis => rfl
  | query =>
    cases h.lastSuccessTurnId with
    | none => rfl
    | some i => exact first i

/-- Rewriting turns keeps the base state of a history whose successes are kept. -/
lemma baseState_map {h h' : HistoryRow} {ft : TurnRow → TurnRow} (same : h.Same h')
    (last : h'.lastSuccessTurnId = h.lastSuccessTurnId)
    (hts : db'.turns.rows = db.turns.rows.map ft)
    (kept : ∀ t ∈ db.turns, t.historyId = h.id → t.Kept (ft t))
    (other : ∀ t ∈ db.turns, (ft t).historyId = t.historyId) :
    db'.baseState h' = db.baseState h := by
  refine baseState_congr same last (fun i => ?_)
  rw [Table.first_of_rows_map hts]
  · cases hfirst : db.turns.first (fun t => t.id = i && t.historyId = h.id &&
        t.status = .succeeded) with
    | none => rfl
    | some t =>
      obtain ⟨ht, hp⟩ := Table.first_some hfirst
      simp only [Bool.and_eq_true, decide_eq_true_eq] at hp
      show (ft t).queryState = t.queryState
      rw [TurnRow.queryState, (kept t ht hp.1.2).snapshot, TurnRow.queryState]
  · intro t ht
    by_cases hid : t.historyId = h.id
    · have k := kept t ht hid
      rw [k.id, k.history, k.status]
    · simp [other t ht, hid]

namespace Quiet

lemma refl (db : Db) : Quiet db db where
  turn t ht := ⟨t, ht, .refl t⟩
  execution e he := ⟨e, he, .refl e⟩
  active h hh _ hi := ⟨h, hh, .refl h, hi, rfl⟩

lemma trans (a : Quiet db db') (b : Quiet db' db'') : Quiet db db'' where
  turn t'' ht'' := by
    obtain ⟨t', ht', s'⟩ := b.turn t'' ht''
    obtain ⟨t, ht, s⟩ := a.turn t' ht'
    exact ⟨t, ht, s.trans s'⟩
  execution e'' he'' := by
    obtain ⟨e', he', s'⟩ := b.execution e'' he''
    obtain ⟨e, he, s⟩ := a.execution e' he'
    exact ⟨e, he, s.trans s'⟩
  active h'' hh'' i hi := by
    obtain ⟨h', hh', s', hi', hb'⟩ := b.active h'' hh'' i hi
    obtain ⟨h, hh, s, hi, hb⟩ := a.active h' hh' i hi'
    exact ⟨h, hh, s.trans s', hi, hb'.trans hb⟩

/-- A settling effect opens nothing. -/
theorem settle (f : Settle db db') : Quiet db db' := by
  refine ⟨?_, ?_, ?_⟩
  · cases f with
    | touch hfh hft hfe histories turns executions =>
      intro t' ht'
      obtain ⟨t, ht, rfl⟩ := List.mem_map.mp ht'
      exact ⟨t, ht, (turns t ht).toSame⟩
    | close _ memTurn _ _ _ closing =>
      intro t' ht'
      rcases (Table.mem_set memTurn closing.turn.id).mp ht' with rfl | ⟨ht', -⟩
      · exact ⟨_, memTurn, closing.turn⟩
      · exact ⟨t', ht', .refl t'⟩
    | restart epoch now =>
      intro t' ht'
      obtain ⟨t, ht, rfl⟩ := List.mem_map.mp ht'
      refine ⟨t, ht, ?_⟩
      split_ifs
      · exact ⟨rfl, rfl, rfl, rfl, rfl, rfl⟩
      · exact .refl t
    | delete =>
      exact fun t' ht' => ⟨t', (Table.mem_delete.mp ht').1, .refl t'⟩
  · cases f with
    | touch hfh hft hfe histories turns executions =>
      intro e' he'
      obtain ⟨e, he, rfl⟩ := List.mem_map.mp he'
      exact ⟨e, he, (executions e he).toSame⟩
    | close _ _ _ _ _ closing =>
      intro e' he'
      obtain ⟨e, he, rfl⟩ := List.mem_map.mp he'
      refine ⟨e, he, ?_⟩
      split_ifs
      · exact closing.execution e
      · exact .refl e
    | restart epoch now =>
      intro e' he'
      obtain ⟨e, he, rfl⟩ := List.mem_map.mp he'
      refine ⟨e, he, ?_⟩
      split_ifs
      · exact ⟨rfl, rfl, rfl, rfl, rfl, rfl, rfl, rfl⟩
      · exact .refl e
    | delete =>
      exact fun e' he' => ⟨e', (Table.mem_delete.mp he').1, .refl e'⟩
  · cases f with
    | touch hfh hft hfe histories turns executions =>
      intro h' hh' i hi
      obtain ⟨h, hh, rfl⟩ := List.mem_map.mp hh'
      have k := histories h hh
      rw [k.active] at hi
      exact ⟨h, hh, k.toSame, hi, baseState_map k.toSame k.lastSuccess rfl
        (fun t ht _ => turns t ht) (fun t ht => (turns t ht).history)⟩
    | close memHistory memTurn _ turnHistory _ closing =>
      intro x hx i hi
      rcases (Table.mem_set memHistory closing.history.id).mp hx with rfl | ⟨hx, hne⟩
      · rw [closing.inactive] at hi
        cases hi
      · refine ⟨x, hx, .refl x, hi, baseState_map (.refl x) rfl rfl ?_ ?_⟩ <;> intro s hs
        · intro hid
          rw [if_neg]
          · exact .refl s
          · intro hst
            rw [Table.eq_of_key hs memTurn (hst.trans closing.turn.id), turnHistory,
              ← closing.history.id] at hid
            exact hne hid.symm
        · split_ifs with hst
          · rw [Table.eq_of_key hs memTurn (hst.trans closing.turn.id), closing.turn.history]
          · rfl
    | restart epoch now =>
      intro x hx i hi
      obtain ⟨x₀, -, rfl⟩ := List.mem_map.mp hx
      split_ifs at hi with hactive
      · cases hi
      · simp [hi] at hactive
    | delete mem _ same _ inactive =>
      intro x hx i hi
      rcases (Table.mem_set mem same.id).mp hx with rfl | ⟨hx, hne⟩
      · rw [inactive] at hi
        cases hi
      · refine ⟨x, hx, .refl x, hi, baseState_congr (.refl x) rfl (fun j => ?_)⟩
        rw [Table.first_delete]
        intro t _ ht
        simp only [Bool.and_eq_true, decide_eq_true_eq] at ht
        exact decide_eq_false (fun hid => hne (by rw [same.id, ← hid, ht.1.2]))

theorem settles (f : Settles db db') : Quiet db db' := by
  induction f with
  | refl => exact refl db
  | tail _ h ih => exact ih.trans (settle h)

end Quiet

end ChatBI.Store
