import ChatBI.Store.Effect

/-!
# Histories and their turns

The active turn of a history is its one accepted turn, of the current generation and of the
current epoch. Every effect keeps this.
-/

namespace ChatBI.Store

open ChatBI.Lib

/-- `t` is the turn that the history `h` is executing. -/
structure TurnRow.ActiveOf (db : Db) (h : HistoryRow) (t : TurnRow) : Prop where
  active : h.activeTurnId = some t.id
  history : t.historyId = h.id
  status : t.status = .accepted
  generation : t.executionGeneration = h.executionGeneration
  epoch : db.runtimeEpoch = some t.runtimeEpoch
  ordinal : t.ordinal + 1 = h.nextOrdinal

structure Linked (db : Db) : Prop where
  turn_history : ∀ t ∈ db.turns, ∃ h ∈ db.histories, h.id = t.historyId ∧ h.deletedAt = none
  active_turn : ∀ h ∈ db.histories, ∀ i, h.activeTurnId = some i →
    ∃ t ∈ db.turns, t.id = i ∧ t.ActiveOf db h
  accepted_active : ∀ t ∈ db.turns, t.status = .accepted →
    ∃ h ∈ db.histories, t.ActiveOf db h

variable {db : Db}

namespace Linked

/-- A history with an active turn is not deleted. -/
lemma alive (L : Linked db) {h : HistoryRow} (hh : h ∈ db.histories)
    (hactive : h.activeTurnId ≠ none) : h.deletedAt = none := by
  obtain ⟨i, hi⟩ := Option.ne_none_iff_exists'.mp hactive
  obtain ⟨t, ht, -, hact⟩ := L.active_turn h hh i hi
  obtain ⟨h₁, hh₁, hid, hdel⟩ := L.turn_history t ht
  rwa [← Table.eq_of_key hh₁ hh (hid.trans hact.history)]

/-- An accepted turn of a history is its active turn. -/
lemma activeOf (L : Linked db) {h : HistoryRow} {t : TurnRow} (hh : h ∈ db.histories)
    (ht : t ∈ db.turns) (hid : t.historyId = h.id) (hst : t.status = .accepted) :
    t.ActiveOf db h := by
  obtain ⟨h₁, hh₁, hact⟩ := L.accepted_active t ht hst
  rwa [← Table.eq_of_key hh₁ hh (hact.history.symm.trans hid)]

lemma init : Linked {} where
  turn_history _ ht := absurd ht (Table.not_mem_empty _)
  active_turn _ hh := absurd hh (Table.not_mem_empty _)
  accepted_active _ ht := absurd ht (Table.not_mem_empty _)

lemma touch (L : Linked db) {fh : HistoryRow → HistoryRow} {ft : TurnRow → TurnRow}
    (hfh : ∀ h, (fh h).id = h.id) (hft : ∀ t, (ft t).id = t.id)
    (histories : ∀ h ∈ db.histories, h.Kept (fh h)) (turns : ∀ t ∈ db.turns, t.Kept (ft t))
    {db' : Db} (hhs : db'.histories = db.histories.map fh hfh) (hts : db'.turns = db.turns.map ft hft)
    (hep : db'.runtimeEpoch = db.runtimeEpoch) : Linked db' := by
  have hact : ∀ h ∈ db.histories, ∀ t ∈ db.turns, t.ActiveOf db h → (ft t).ActiveOf db' (fh h) := by
    intro h hh t ht a
    have kh := histories h hh
    have kt := turns t ht
    exact ⟨by rw [kh.active, kt.id, a.active], by rw [kt.history, kh.id, a.history],
      by rw [kt.status, a.status], by rw [kt.generation, kh.generation, a.generation],
      by rw [hep, kt.epoch, a.epoch], by rw [kt.ordinal, kh.nextOrdinal, a.ordinal]⟩
  refine ⟨?_, ?_, ?_⟩
  · rw [hts, hhs]
    intro t' ht'
    obtain ⟨t, ht, rfl⟩ := Table.mem_map.mp ht'
    obtain ⟨h, hh, hid, hdel⟩ := L.turn_history t ht
    exact ⟨fh h, Table.mem_map_of_mem hh, by rw [(histories h hh).id, hid, (turns t ht).history],
      by rw [(histories h hh).deletedAt, hdel]⟩
  · rw [hhs, hts]
    intro h' hh' i hi
    obtain ⟨h, hh, rfl⟩ := Table.mem_map.mp hh'
    rw [(histories h hh).active] at hi
    obtain ⟨t, ht, rfl, a⟩ := L.active_turn h hh i hi
    exact ⟨ft t, Table.mem_map_of_mem ht, hft t, hact h hh t ht a⟩
  · rw [hhs, hts]
    intro t' ht' hst
    obtain ⟨t, ht, rfl⟩ := Table.mem_map.mp ht'
    rw [(turns t ht).status] at hst
    obtain ⟨h, hh, a⟩ := L.accepted_active t ht hst
    exact ⟨fh h, Table.mem_map_of_mem hh, hact h hh t ht a⟩

lemma create (L : Linked db) {h : HistoryRow} {histories : Table HistoryRow.id} (new : h.New)
    (rows : histories.rows = db.histories.rows ++ [h]) :
    Linked { db with histories := histories } := by
  have hmem : ∀ {x}, x ∈ histories ↔ x ∈ db.histories ∨ x = h := Table.mem_of_rows_append rows
  refine ⟨?_, ?_, ?_⟩
  · intro t ht
    obtain ⟨x, hx, hxt⟩ := L.turn_history t ht
    exact ⟨x, hmem.mpr (.inl hx), hxt⟩
  · intro x hx i hi
    rcases hmem.mp hx with hx | rfl
    · obtain ⟨t, ht, hid, a⟩ := L.active_turn x hx i hi
      exact ⟨t, ht, hid, a.1, a.2, a.3, a.4, a.5, a.6⟩
    · rw [new.active] at hi
      cases hi
  · intro t ht hst
    obtain ⟨x, hx, a⟩ := L.accepted_active t ht hst
    exact ⟨x, hmem.mpr (.inl hx), a.1, a.2, a.3, a.4, a.5, a.6⟩

lemma begin (L : Linked db) {h : HistoryRow} {t : TurnRow} {turns : Table TurnRow.id}
    (mem : h ∈ db.histories) (opens : t.Opens db h) (rows : turns.rows = db.turns.rows ++ [t])
    (now : Timestamp) :
    Linked { db with
      turns := turns
      histories := db.histories.set (h.begin now t.id t.executionGeneration) } := by
  have hmt : ∀ {x}, x ∈ turns ↔ x ∈ db.turns ∨ x = t := Table.mem_of_rows_append rows
  set h' : HistoryRow := h.begin now t.id t.executionGeneration
  have hmh : ∀ {x}, x ∈ db.histories.set h' ↔ x = h' ∨ x ∈ db.histories ∧ x.id ≠ h'.id :=
    Table.mem_set mem (h.begin_id now _ _)
  have hother : ∀ s ∈ db.turns, s.historyId = h.id → s.status ≠ .accepted := by
    intro s hs hid hst
    have := (L.activeOf mem hs hid hst).active
    rw [opens.idle] at this
    cases this
  have hact : t.ActiveOf { db with turns := turns, histories := db.histories.set h' } h' :=
    ⟨rfl, opens.history, opens.status, rfl, opens.epoch, congrArg (· + 1) opens.ordinal⟩
  refine ⟨?_, ?_, ?_⟩
  · intro s hs
    rcases hmt.mp hs with hs | rfl
    · obtain ⟨x, hx, hid, hdel⟩ := L.turn_history s hs
      by_cases hxh : x.id = h.id
      · exact ⟨h', hmh.mpr (.inl rfl), hxh.symm.trans hid, opens.alive⟩
      · exact ⟨x, hmh.mpr (.inr ⟨hx, hxh⟩), hid, hdel⟩
    · exact ⟨h', hmh.mpr (.inl rfl), opens.history.symm, opens.alive⟩
  · intro x hx i hi
    rcases hmh.mp hx with rfl | ⟨hx, -⟩
    · exact ⟨t, hmt.mpr (.inr rfl), Option.some.inj hi, hact⟩
    · obtain ⟨s, hs, hid, a⟩ := L.active_turn x hx i hi
      exact ⟨s, hmt.mpr (.inl hs), hid, a.1, a.2, a.3, a.4, a.5, a.6⟩
  · intro s hs hst
    rcases hmt.mp hs with hs | rfl
    · obtain ⟨x, hx, a⟩ := L.accepted_active s hs hst
      have hxh : x.id ≠ h.id := fun hxh => hother s hs (a.history.trans hxh) hst
      exact ⟨x, hmh.mpr (.inr ⟨hx, hxh⟩), a.1, a.2, a.3, a.4, a.5, a.6⟩
    · exact ⟨h', hmh.mpr (.inl rfl), hact⟩

lemma executions (L : Linked db) {executions : Table ExecutionRow.id} :
    Linked { db with executions := executions } :=
  ⟨L.turn_history, fun h hh i hi => (L.active_turn h hh i hi).imp
    (fun _ ⟨ht, hid, a⟩ => ⟨ht, hid, a.1, a.2, a.3, a.4, a.5, a.6⟩),
    fun t ht hst => (L.accepted_active t ht hst).imp
      (fun _ ⟨hh, a⟩ => ⟨hh, a.1, a.2, a.3, a.4, a.5, a.6⟩)⟩

lemma close (L : Linked db) {h h' : HistoryRow} {t t' : TurnRow} {fe : ExecutionRow → ExecutionRow}
    (memHistory : h ∈ db.histories) (memTurn : t ∈ db.turns) (active : h.activeTurnId = some t.id)
    (closing : Closing h h' t t' fe) {executions : Table ExecutionRow.id} :
    Linked { db with
      histories := db.histories.set h', turns := db.turns.set t', executions := executions } := by
  have hmh : ∀ {x}, x ∈ db.histories.set h' ↔ x = h' ∨ x ∈ db.histories ∧ x.id ≠ h'.id :=
    Table.mem_set memHistory closing.history.id
  have hmt : ∀ {x}, x ∈ db.turns.set t' ↔ x = t' ∨ x ∈ db.turns ∧ x.id ≠ t'.id :=
    Table.mem_set memTurn closing.turn.id
  -- the turns that stay accepted are those of other histories
  have hkeep : ∀ x ∈ db.histories, ∀ s ∈ db.turns, s.ActiveOf db x → (x.id ≠ h'.id ↔ s.id ≠ t'.id) := by
    intro x hx s hs a
    rw [closing.history.id, closing.turn.id, not_iff_not]
    constructor
    · intro hid
      have := a.active
      rw [Table.eq_of_key hx memHistory hid, active] at this
      exact (Option.some.inj this).symm
    · intro hid
      have hst := Table.eq_of_key hs memTurn hid
      obtain ⟨t₁, ht₁, hid₁, a₁⟩ := L.active_turn h memHistory t.id active
      have := Table.eq_of_key ht₁ memTurn hid₁
      subst this hst
      exact a.history.symm.trans a₁.history
  refine ⟨?_, ?_, ?_⟩
  · intro s hs
    have hsame : ∃ s₀ ∈ db.turns, s.historyId = s₀.historyId := by
      rcases hmt.mp hs with rfl | ⟨hs, -⟩
      · exact ⟨t, memTurn, closing.turn.history⟩
      · exact ⟨s, hs, rfl⟩
    obtain ⟨s₀, hs₀, hid₀⟩ := hsame
    obtain ⟨x, hx, hid, hdel⟩ := L.turn_history s₀ hs₀
    by_cases hxh : x.id = h'.id
    · have := Table.eq_of_key hx memHistory (hxh.trans closing.history.id)
      subst this
      exact ⟨h', hmh.mpr (.inl rfl), by rw [hid₀, ← hid, hxh],
        by rw [closing.deletedAt, hdel]⟩
    · exact ⟨x, hmh.mpr (.inr ⟨hx, hxh⟩), by rw [hid₀, hid], hdel⟩
  · intro x hx i hi
    rcases hmh.mp hx with rfl | ⟨hx, hxh⟩
    · rw [closing.inactive] at hi
      cases hi
    · obtain ⟨s, hs, hid, a⟩ := L.active_turn x hx i hi
      exact ⟨s, hmt.mpr (.inr ⟨hs, (hkeep x hx s hs a).mp hxh⟩), hid, a.1, a.2, a.3, a.4, a.5, a.6⟩
  · intro s hs hst
    rcases hmt.mp hs with rfl | ⟨hs, hst'⟩
    · exact absurd hst closing.closed
    · obtain ⟨x, hx, a⟩ := L.accepted_active s hs hst
      exact ⟨x, hmh.mpr (.inr ⟨hx, (hkeep x hx s hs a).mpr hst'⟩), a.1, a.2, a.3, a.4, a.5, a.6⟩

/-- After the start of a process no history is active and no turn is accepted. -/
lemma restart (L : Linked db) (now : Timestamp) {db' : Db}
    (hhs : db'.histories = db.histories.update (fun h => h.activeTurnId ≠ none)
      (HistoryRow.abandon now) (fun r => r.abandon_id now))
    (hts : db'.turns = db.turns.update (fun t => t.status = .accepted) (TurnRow.abandon now)
      (fun r => r.abandon_id now)) : Linked db' := by
  refine ⟨?_, ?_, ?_⟩ <;> rw [hhs, hts]
  · intro s hs
    obtain ⟨s₀, hs₀, rfl⟩ := Table.mem_update.mp hs
    obtain ⟨x, hx, hid, hdel⟩ := L.turn_history s₀ hs₀
    refine ⟨_, Table.mem_update.mpr ⟨x, hx, rfl⟩, ?_, ?_⟩
    · split_ifs <;> exact hid
    · split_ifs <;> exact hdel
  · intro x hx i hi
    obtain ⟨x₀, -, rfl⟩ := Table.mem_update.mp hx
    split_ifs at hi with hactive
    · cases hi
    · simp [hi] at hactive
  · intro s hs hst
    obtain ⟨s₀, -, rfl⟩ := Table.mem_update.mp hs
    split_ifs at hst with hacc
    · cases hst
    · simp [hst] at hacc

lemma delete (L : Linked db) {h h' : HistoryRow} (mem : h ∈ db.histories)
    (same : h.Same h') (inactive : h'.activeTurnId = none) {executions : Table ExecutionRow.id} :
    Linked { db with
      histories := db.histories.set h'
      turns := db.turns.delete (fun t => t.historyId = h.id)
      executions := executions } := by
  have hmh : ∀ {x}, x ∈ db.histories.set h' ↔ x = h' ∨ x ∈ db.histories ∧ x.id ≠ h'.id :=
    Table.mem_set mem same.id
  have hmt : ∀ {s}, s ∈ db.turns.delete (fun t => t.historyId = h.id) ↔
      s ∈ db.turns ∧ s.historyId ≠ h.id := by
    intro s
    rw [Table.mem_delete, decide_eq_false_iff_not]
  refine ⟨?_, ?_, ?_⟩
  · intro s hs
    obtain ⟨hs, hne⟩ := hmt.mp hs
    obtain ⟨x, hx, hid, hdel⟩ := L.turn_history s hs
    refine ⟨x, hmh.mpr (.inr ⟨hx, ?_⟩), hid, hdel⟩
    rw [same.id, hid]
    exact hne
  · intro x hx i hi
    rcases hmh.mp hx with rfl | ⟨hx, hxh⟩
    · rw [inactive] at hi
      cases hi
    · obtain ⟨s, hs, hid, a⟩ := L.active_turn x hx i hi
      refine ⟨s, hmt.mpr ⟨hs, ?_⟩, hid, a.1, a.2, a.3, a.4, a.5, a.6⟩
      rw [a.history, ← same.id]
      exact hxh
  · intro s hs hst
    obtain ⟨hs, hne⟩ := hmt.mp hs
    obtain ⟨x, hx, a⟩ := L.accepted_active s hs hst
    refine ⟨x, hmh.mpr (.inr ⟨hx, ?_⟩), a.1, a.2, a.3, a.4, a.5, a.6⟩
    rw [same.id, ← a.history]
    exact hne

/-- Every effect keeps histories and turns linked. -/
theorem effect (L : Linked db) {db' : Db} (e : Effect db db') : Linked db' := by
  cases e with
  | settle s =>
    cases s with
    | touch hfh hft _ histories turns => exact L.touch hfh hft histories turns rfl rfl rfl
    | close memHistory memTurn active _ _ closing => exact L.close memHistory memTurn active closing
    | restart epoch now => exact L.restart now rfl rfl
    | delete mem _ same _ inactive => exact L.delete mem same inactive
  | create new rows => exact L.create new rows
  | begin mem opens rows now => exact L.begin mem opens rows now
  | accept => exact L.executions

end Linked

end ChatBI.Store
