import ChatBI.Store.Issued

/-!
# What a run extends

A run keeps the record of issues and evolves the rows, so that a row at its end that has the
key of a row at its start is that row. The context of a history advances only when its active
turn succeeds.
-/

namespace ChatBI.Store

open ChatBI.Lib Relation

structure Extends (s t : State) : Prop where
  evolves : Evolves s.db t.db
  issued : ∀ i ∈ s.issued, i ∈ t.issued

/-- The turn `t` has succeeded in `db'` and not yet in `db`. -/
structure Succeeds (db db' : Db) (t : TurnRow) : Prop where
  mem : t ∈ db'.turns
  succeeded : t.status = .succeeded
  before : ∀ u ∈ db.turns, u.id = t.id → u.historyId = t.historyId → u.status ≠ .succeeded

variable {codec : Codec} {db db' : Db} {s t u : State} {op : Op} {ops : List Op}

lemma Extends.refl (s : State) : Extends s s := ⟨.refl s.db, fun _ h => h⟩

lemma Extends.trans (a : Extends s t) (b : Extends t u) : Extends s u :=
  ⟨a.evolves.trans b.evolves, fun i hi => b.issued i (a.issued i hi)⟩

lemma Move.extends (C : Consistent s.db) (m : Move s t) : Extends s t := by
  refine ⟨Evolves.effects C m.effects, fun i hi => ?_⟩
  cases m with
  | settle => exact hi
  | create => exact hi
  | attempt => exact List.mem_append_left _ hi
  | requery => exact List.mem_append_left _ hi

/-- The two ends of a run from a good state. -/
theorem Good.run (g : Good s) (h : (system codec).Run s ops t) : Good t ∧ Extends s t := by
  refine ⟨h.invariant (I := Good) (fun _ _ _ g hstep => g.step hstep) g, ?_⟩
  refine h.relation (I := Good) (R := Extends) Extends.refl Extends.trans
    (fun _ _ _ g hstep => g.step hstep) (fun _ _ _ g hstep => ?_) g
  exact (step_move g.consistent hstep).extends g.consistent

/-- A turn of the database belongs to a history that is not deleted. -/
lemma Consistent.undeleted (C : Consistent db) {r : TurnRow} (hr : r ∈ db.turns) :
    ¬db.Deleted r.historyId := by
  rintro ⟨x, hx, hxid, hdel⟩
  obtain ⟨h, hh, hid, halive⟩ := C.turn_history r hr
  rw [Table.eq_of_key hx hh (hxid.trans hid.symm)] at hdel
  exact hdel halive

lemma Consistent.undeleted_execution (C : Consistent db) {e : ExecutionRow}
    (he : e ∈ db.executions) : ¬db.Deleted e.historyId := by
  obtain ⟨r, hr, o⟩ := C.execution_turn e he
  have := C.undeleted hr
  rwa [o.history] at this

/-- The row of an execution at the end of a run evolved from its row at the start. -/
theorem Extends.execution (x : Extends s t) (g : Good s) (g' : Good t) {e e' : ExecutionRow}
    (he : e ∈ s.db.executions) (he' : e' ∈ t.db.executions) (hid : e'.id = e.id) :
    e.Evolves e' := by
  rcases x.evolves.execution e he with ⟨e'', he'', v⟩ | hdel
  · rwa [Table.eq_of_key he' he'' (hid.trans v.id.symm)]
  · obtain ⟨i, hi, o⟩ := g.issued.execution e he
    obtain ⟨j, hj, o'⟩ := g'.issued.execution e' he'
    have hij : i = j := by
      refine g'.issued.unique_execution i (x.issued i hi) j hj e.id ?_ ?_
      · rw [o.execution, Option.map_some]
      · rw [o'.execution, Option.map_some, hid]
    have htoken : e'.token = e.token := by rw [o'.token, o.token, hij]
    have hhist : e'.historyId = e.historyId := congrArg ExecutionToken.historyId htoken
    rw [← hhist] at hdel
    exact absurd hdel (g'.consistent.undeleted_execution he')

/-- The execution of an earlier issue was there before. -/
lemma Extends.execution_before (x : Extends s t) (g : Good s) (g' : Good t) {e' : ExecutionRow}
    (he' : e' ∈ t.db.executions) {i : Issue} (hi : i ∈ s.issued) (o : i.Owns e') :
    ∃ e ∈ s.db.executions, i.Owns e := by
  have hexec : i.execution ≠ none := by
    rw [o.execution]
    exact Option.some_ne_none _
  rcases (g.issued.recorded i hi).execution hexec with h | hdel
  · exact h
  · have hdel' := hdel.evolves x.evolves
    rw [← o.token] at hdel'
    exact absurd hdel' (g'.consistent.undeleted_execution he')

/-- The row of a turn after a database evolved. -/
lemma Evolves.turn_row (v : Evolves db db') (C' : Consistent db') {r r' : TurnRow}
    (hr : r ∈ db.turns) (hr' : r' ∈ db'.turns) (hid : r'.id = r.id)
    (hhist : r'.historyId = r.historyId) : r.Evolves r' := by
  rcases v.turn r hr with ⟨r'', hr'', w⟩ | hdel
  · rwa [Table.eq_of_key hr' hr'' (hid.trans w.id.symm)]
  · rw [← hhist] at hdel
    exact absurd hdel (C'.undeleted hr')

lemma Evolves.history_row (v : Evolves db db') {h h' : HistoryRow} (hh : h ∈ db.histories)
    (hh' : h' ∈ db'.histories) (hid : h'.id = h.id) : h.Evolves h' := by
  obtain ⟨h'', hh'', w⟩ := v.history h hh
  rwa [Table.eq_of_key hh' hh'' (hid.trans w.id.symm)]

/-! ### The query context -/

/-- A turn succeeds from being the active turn of its history. -/
theorem Move.succeeds_active (C : Consistent s.db) (m : Move s t) {r' : TurnRow}
    (x : Succeeds s.db t.db r') :
    ∃ h ∈ s.db.histories, ∃ r ∈ s.db.turns, r.ActiveOf s.db h ∧ r.Same r' := by
  have C' := C.effects m.effects
  have hopened : ∀ (r : TurnRow) (turns : Table TurnRow.id), r.status = .accepted →
      turns.rows = s.db.turns.rows ++ [r] → r' ∉ turns := by
    intro r turns hst rows hmem
    rcases (Table.mem_of_rows_append rows).mp hmem with hr' | rfl
    · exact x.before r' hr' rfl rfl x.succeeded
    · rw [x.succeeded] at hst
      exact TurnStatus.noConfusion hst
  cases m with
  | settle f =>
    obtain ⟨r, hr, same⟩ := (Quiet.settles f).turn r' x.mem
    by_cases hst : r.status = .accepted
    · obtain ⟨h, hh, a⟩ := C.accepted_active r hr hst
      exact ⟨h, hh, r, hr, a, same⟩
    · have v := Evolves.effects C f.effects
      have hkept := (v.turn_row C' hr x.mem same.id same.history).closed hst
      have hne := x.before r hr same.id.symm same.history.symm
      rw [← hkept.1] at hne
      exact absurd x.succeeded hne
  | create c => exact absurd x.succeeded (x.before r' x.mem rfl rfl)
  | attempt o => exact absurd x.mem (hopened _ _ o.opens.status o.turns)
  | requery c o => exact absurd x.mem (hopened _ _ o.opens.status o.turns)

section Context

variable {h h' : HistoryRow}

/-- The succeeded turns of a history are the earlier ones and the new successes. -/
lemma Evolves.succeeded_ids (v : Evolves db db') (hh' : h' ∈ db'.histories) (hid : h'.id = h.id)
    (halive : h'.deletedAt = none) (i : Uuid) :
    i ∈ (db'.succeededTurns h.id).map TurnRow.id ↔ i ∈ (db.succeededTurns h.id).map TurnRow.id ∨
      ∃ r, r.id = i ∧ r.historyId = h.id ∧ Succeeds db db' r := by
  simp only [Db.succeededTurns, List.mem_map, Table.mem_select, TurnRow.succeededOf_iff]
  constructor
  · rintro ⟨r', ⟨hr', hrh, hst⟩, rfl⟩
    by_cases hold : ∃ r, (r ∈ db.turns ∧ r.historyId = h.id ∧ r.status = .succeeded) ∧ r.id = r'.id
    · exact .inl hold
    · refine .inr ⟨r', rfl, hrh, hr', hst, fun r hr hrid hrh' hst' => hold ?_⟩
      exact ⟨r, ⟨hr, hrh'.trans hrh, hst'⟩, hrid⟩
  · rintro (⟨r, ⟨hr, hrh, hst⟩, rfl⟩ | ⟨r, rfl, hrh, x⟩)
    · rcases v.turn r hr with ⟨r', hr', w⟩ | ⟨x, hx, hxid, hdel⟩
      · refine ⟨r', ⟨hr', w.history.trans hrh, ?_⟩, w.id⟩
        rw [(w.closed (by rw [hst]; exact TurnStatus.noConfusion)).1, hst]
      · rw [Table.eq_of_key hx hh' (hxid.trans (hrh.trans hid.symm))] at hdel
        exact absurd halive hdel
    · exact ⟨r, ⟨x.mem, hrh, x.succeeded⟩, rfl⟩

lemma Db.nodup_succeeded (db : Db) (historyId : Uuid) :
    ((db.succeededTurns historyId).map TurnRow.id).Nodup :=
  db.turns.nodup.sublist (List.filter_sublist.map TurnRow.id)

/-- Two succeeded turns of a history with one ordinal are the same turn. -/
lemma Consistent.ordinal_inj (C : Consistent db) (hh : h ∈ db.histories)
    (halive : h.deletedAt = none) {r r' : TurnRow} (hr : r ∈ db.turns) (hr' : r' ∈ db.turns)
    (hrh : r.historyId = h.id) (hrh' : r'.historyId = h.id) (hord : r.ordinal = r'.ordinal) :
    r = r' := by
  have hnodup : ((db.turnsOf h.id).map TurnRow.ordinal).Nodup := by
    rw [C.ordinals h hh halive]
    exact List.nodup_range'
  refine List.inj_on_of_nodup_map hnodup ?_ ?_ hord
  · exact Table.mem_select.mpr ⟨hr, decide_eq_true hrh⟩
  · exact Table.mem_select.mpr ⟨hr', decide_eq_true hrh'⟩

/-- The last success of a history is its succeeded turn with the greatest ordinal. -/
lemma Consistent.last_eq (C : Consistent db) (hh : h ∈ db.histories) (halive : h.deletedAt = none)
    {r : TurnRow} (hr : r ∈ db.turns) (hsucc : r.succeededOf h.id = true)
    (hmax : ∀ u ∈ db.turns, u.succeededOf h.id = true → u.ordinal ≤ r.ordinal) :
    h.lastSuccessTurnId = some r.id := by
  obtain ⟨l, hl, hlast, hlsucc, hle⟩ := C.last_max h hh halive r hr hsucc
  have hord := le_antisymm hle (hmax l hl hlsucc)
  rw [hlast, C.ordinal_inj hh halive hr hl (TurnRow.succeededOf_iff.mp hsucc).1
    (TurnRow.succeededOf_iff.mp hlsucc).1 hord]

/-- The context of a history without a new success is kept. -/
theorem Evolves.context_kept (v : Evolves db db') (C : Consistent db) (C' : Consistent db')
    (hh : h ∈ db.histories) (hh' : h' ∈ db'.histories) (hid : h'.id = h.id)
    (halive : h'.deletedAt = none) (hnone : ∀ r, r.historyId = h.id → ¬Succeeds db db' r) :
    h'.contextRevision = h.contextRevision ∧ h'.lastSuccessTurnId = h.lastSuccessTurnId := by
  have hbefore : h.deletedAt = none := by
    by_contra hdel
    exact (v.history_row hh hh' hid).deleted hdel halive
  have hids : ∀ i, i ∈ (db'.succeededTurns h.id).map TurnRow.id ↔
      i ∈ (db.succeededTurns h.id).map TurnRow.id := by
    intro i
    rw [v.succeeded_ids hh' hid halive]
    exact or_iff_left (fun ⟨r, _, hrh, x⟩ => hnone r hrh x)
  constructor
  · have hlength := ((List.perm_ext_iff_of_nodup (db'.nodup_succeeded h.id)
      (db.nodup_succeeded h.id)).mpr hids).length_eq
    rw [List.length_map, List.length_map] at hlength
    rw [C.context h hh hbefore, C'.context h' hh' halive, hid, hlength]
  · -- every later success is an earlier one, with the same ordinal
    have hfrom : ∀ r' ∈ db'.turns, r'.succeededOf h.id = true →
        ∃ r ∈ db.turns, r.succeededOf h.id = true ∧ r'.id = r.id ∧ r'.ordinal = r.ordinal := by
      intro r' hr' hsucc
      have hmem : r'.id ∈ (db'.succeededTurns h.id).map TurnRow.id :=
        List.mem_map_of_mem (Table.mem_select.mpr ⟨hr', hsucc⟩)
      obtain ⟨r, hr, hrid⟩ := List.mem_map.mp ((hids r'.id).mp hmem)
      obtain ⟨hr, hsucc₀⟩ := Table.mem_select.mp hr
      have hhist := (TurnRow.succeededOf_iff.mp hsucc).1.trans
        (TurnRow.succeededOf_iff.mp hsucc₀).1.symm
      exact ⟨r, hr, hsucc₀, hrid.symm, (v.turn_row C' hr hr' hrid.symm hhist).ordinal⟩
    cases hlast : h.lastSuccessTurnId with
    | none =>
      cases hlast' : h'.lastSuccessTurnId with
      | none => rfl
      | some i =>
        obtain ⟨r', hr', -, hsucc⟩ := C'.last_mem h' hh' halive i hlast'
        obtain ⟨r, hr, hsucc₀, -⟩ := hfrom r' hr' (hid ▸ hsucc)
        obtain ⟨l, -, hl, -⟩ := C.last_max h hh hbefore r hr hsucc₀
        rw [hlast] at hl
        cases hl
    | some i =>
      obtain ⟨r, hr, rfl, hsucc⟩ := C.last_mem h hh hbefore i hlast
      have hmem : r.id ∈ (db.succeededTurns h.id).map TurnRow.id :=
        List.mem_map_of_mem (Table.mem_select.mpr ⟨hr, hsucc⟩)
      obtain ⟨r', hr', hrid⟩ := List.mem_map.mp ((hids r.id).mpr hmem)
      obtain ⟨hr', hsucc'⟩ := Table.mem_select.mp hr'
      rw [← hrid]
      refine C'.last_eq hh' halive hr' (hid ▸ hsucc') (fun u' hu' husucc' => ?_)
      obtain ⟨u, hu, husucc, -, huord⟩ := hfrom u' hu' (hid ▸ husucc')
      obtain ⟨l, hl, hlast₀, -, hle⟩ := C.last_max h hh hbefore u hu husucc
      rw [hlast, Option.some.injEq] at hlast₀
      obtain ⟨r₀, hr₀, -, hid₀, hord₀⟩ := hfrom r' hr' hsucc'
      have hr₀r : r₀ = r := Table.eq_of_key hr₀ hr (hid₀.symm.trans hrid)
      rw [huord, hord₀, hr₀r]
      rwa [Table.eq_of_key hl hr hlast₀.symm] at hle

/-- A success advances the context of its history by one and becomes its last success. -/
theorem Move.context_advanced (C : Consistent s.db) (m : Move s t) (hh : h ∈ s.db.histories)
    (hh' : h' ∈ t.db.histories) (hid : h'.id = h.id) (halive : h'.deletedAt = none) {r : TurnRow}
    (hrh : r.historyId = h.id) (x : Succeeds s.db t.db r) :
    h.activeTurnId = some r.id ∧ h'.contextRevision = h.contextRevision + 1 ∧
      h'.lastSuccessTurnId = some r.id := by
  have C' := C.effects m.effects
  have v := (m.extends C).evolves
  have hbefore : h.deletedAt = none := by
    by_contra hdel
    exact (v.history_row hh hh' hid).deleted hdel halive
  have hactive : ∀ u, u.historyId = h.id → Succeeds s.db t.db u → ∃ u₀ ∈ s.db.turns,
      u₀.ActiveOf s.db h ∧ u₀.Same u := by
    intro u huh hu
    obtain ⟨h₀, hh₀, u₀, hu₀, a, same⟩ := m.succeeds_active C hu
    have := Table.eq_of_key hh₀ hh (a.history.symm.trans (same.history.symm.trans huh))
    exact ⟨u₀, hu₀, this ▸ a, same⟩
  obtain ⟨r₀, hr₀, a, same⟩ := hactive r hrh x
  have hids : ∀ i, i ∈ (t.db.succeededTurns h.id).map TurnRow.id ↔
      i ∈ r.id :: (s.db.succeededTurns h.id).map TurnRow.id := by
    intro i
    rw [v.succeeded_ids hh' hid halive, List.mem_cons, or_comm]
    refine or_congr_left ⟨?_, ?_⟩
    · rintro ⟨u, rfl, huh, hu⟩
      obtain ⟨u₀, -, a', same'⟩ := hactive u huh hu
      rw [same'.id, same.id, ← Option.some.injEq, ← a'.active, ← a.active]
    · rintro rfl
      exact ⟨r, rfl, hrh, x⟩
  refine ⟨by rw [a.active, same.id], ?_, ?_⟩
  · have hnew : r.id ∉ (s.db.succeededTurns h.id).map TurnRow.id := by
      intro hmem
      obtain ⟨u, hu, huid⟩ := List.mem_map.mp hmem
      obtain ⟨hu, husucc⟩ := Table.mem_select.mp hu
      obtain ⟨huh, hust⟩ := TurnRow.succeededOf_iff.mp husucc
      exact x.before u hu huid (huh.trans hrh.symm) hust
    have hlength := ((List.perm_ext_iff_of_nodup (t.db.nodup_succeeded h.id)
      (List.nodup_cons.mpr ⟨hnew, s.db.nodup_succeeded h.id⟩)).mpr hids).length_eq
    rw [List.length_map, List.length_cons, List.length_map] at hlength
    rw [C.context h hh hbefore, C'.context h' hh' halive, hid, hlength]
  · refine C'.last_eq hh' halive x.mem ?_ (fun u hu husucc => ?_)
    · rw [TurnRow.succeededOf_iff, hid]
      exact ⟨hrh, x.succeeded⟩
    · rw [hid] at husucc
      obtain ⟨huh, -⟩ := TurnRow.succeededOf_iff.mp husucc
      have hmem : u.id ∈ (t.db.succeededTurns h.id).map TurnRow.id :=
        List.mem_map_of_mem (Table.mem_select.mpr ⟨hu, husucc⟩)
      rcases List.mem_cons.mp ((hids u.id).mp hmem) with huid | hold
      · rw [Table.eq_of_key hu x.mem huid]
      · obtain ⟨u₀, hu₀, huid⟩ := List.mem_map.mp hold
        obtain ⟨hu₀, husucc₀⟩ := Table.mem_select.mp hu₀
        have huh₀ := (TurnRow.succeededOf_iff.mp husucc₀).1
        have hord := (v.turn_row C' hu₀ hu huid.symm (huh.trans huh₀.symm)).ordinal
        have hlt := C.ordinal_lt hh hbefore hu₀ huh₀
        have hnext := a.ordinal
        have hrord := same.ordinal
        omega

end Context

end ChatBI.Store
