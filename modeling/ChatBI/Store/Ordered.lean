import ChatBI.Store.Linked
import Mathlib.Data.List.Range

/-!
# Ordinals and the query context

The turns of a history that is not deleted are numbered without gaps in the order they
were begun, its context revision counts the succeeded ones, and its last success is the
succeeded turn with the greatest ordinal.
-/

namespace ChatBI.Store

open ChatBI.Lib

/-- The turns of a history in insertion order. -/
def Db.turnsOf (db : Db) (historyId : Uuid) : List TurnRow :=
  db.turns.select (fun t => t.historyId = historyId)

def TurnRow.succeededOf (historyId : Uuid) (t : TurnRow) : Bool :=
  t.historyId = historyId && t.status = .succeeded

/-- The succeeded turns of a history in insertion order. -/
def Db.succeededTurns (db : Db) (historyId : Uuid) : List TurnRow :=
  db.turns.select (TurnRow.succeededOf historyId)

structure Ordered (db : Db) : Prop where
  positive : ∀ h ∈ db.histories, 1 ≤ h.nextOrdinal
  ordinals : ∀ h ∈ db.histories, h.deletedAt = none →
    (db.turnsOf h.id).map TurnRow.ordinal = List.range' 1 (h.nextOrdinal - 1)
  context : ∀ h ∈ db.histories, h.deletedAt = none →
    h.contextRevision = (db.succeededTurns h.id).length
  last_mem : ∀ h ∈ db.histories, h.deletedAt = none → ∀ i, h.lastSuccessTurnId = some i →
    ∃ t ∈ db.turns, t.id = i ∧ t.succeededOf h.id = true
  last_max : ∀ h ∈ db.histories, h.deletedAt = none → ∀ t ∈ db.turns, t.succeededOf h.id = true →
    ∃ l ∈ db.turns, h.lastSuccessTurnId = some l.id ∧ l.succeededOf h.id = true ∧
      t.ordinal ≤ l.ordinal

@[simp] lemma TurnRow.succeededOf_iff {historyId : Uuid} {t : TurnRow} :
    t.succeededOf historyId = true ↔ t.historyId = historyId ∧ t.status = .succeeded := by
  simp [TurnRow.succeededOf]

variable {db : Db}

namespace Ordered

lemma ordinal_lt (O : Ordered db) {h : HistoryRow} (hh : h ∈ db.histories)
    (hdel : h.deletedAt = none) {t : TurnRow} (ht : t ∈ db.turns) (hid : t.historyId = h.id) :
    t.ordinal < h.nextOrdinal := by
  have hmem : t.ordinal ∈ (db.turnsOf h.id).map TurnRow.ordinal :=
    List.mem_map_of_mem (Table.mem_select.mpr ⟨ht, decide_eq_true hid⟩)
  rw [O.ordinals h hh hdel, List.mem_range'_1] at hmem
  have := O.positive h hh
  omega

lemma init : Ordered {} where
  positive _ hh := absurd hh (Table.not_mem_empty _)
  ordinals _ hh := absurd hh (Table.not_mem_empty _)
  context _ hh := absurd hh (Table.not_mem_empty _)
  last_mem _ hh := absurd hh (Table.not_mem_empty _)
  last_max _ hh := absurd hh (Table.not_mem_empty _)

/-- Rewriting rows keeps the order when numbers, successes and contexts are kept. -/
lemma rewrite (O : Ordered db) {fh : HistoryRow → HistoryRow} {ft : TurnRow → TurnRow}
    (hfh : ∀ h, (fh h).id = h.id) (hft : ∀ t, (ft t).id = t.id)
    (histories : ∀ h ∈ db.histories, h.SameContext (fh h))
    (turns : ∀ t ∈ db.turns, t.Same (ft t))
    (successes : ∀ t ∈ db.turns, (ft t).status = .succeeded ↔ t.status = .succeeded)
    {db' : Db} (hhs : db'.histories = db.histories.map fh hfh)
    (hts : db'.turns = db.turns.map ft hft) : Ordered db' := by
  have hturns : ∀ i, db'.turnsOf i = (db.turnsOf i).map ft := by
    intro i
    unfold Db.turnsOf
    rw [hts]
    exact Table.select_map _ (fun t ht => by rw [(turns t ht).history])
  have hsucc : ∀ i, ∀ t ∈ db.turns, (ft t).succeededOf i = t.succeededOf i := by
    intro i t ht
    rw [Bool.eq_iff_iff, TurnRow.succeededOf_iff, TurnRow.succeededOf_iff, (turns t ht).history,
      successes t ht]
  have hsucceeded : ∀ i, db'.succeededTurns i = (db.succeededTurns i).map ft := by
    intro i
    unfold Db.succeededTurns
    rw [hts]
    exact Table.select_map _ (hsucc i)
  refine ⟨?_, ?_, ?_, ?_, ?_⟩ <;> rw [hhs] <;> intro h' hh' <;>
    obtain ⟨h, hh, rfl⟩ := Table.mem_map.mp hh' <;> have kh := histories h hh
  · rw [kh.nextOrdinal]
    exact O.positive h hh
  · intro hdel
    rw [kh.deletedAt] at hdel
    rw [kh.id, hturns, kh.nextOrdinal, ← O.ordinals h hh hdel, List.map_map]
    refine List.map_congr_left (fun t ht => (turns t ?_).ordinal)
    exact (Table.mem_select.mp ht).1
  · intro hdel
    rw [kh.deletedAt] at hdel
    rw [kh.id, hsucceeded, kh.contextRevision, List.length_map, O.context h hh hdel]
  · intro hdel i hi
    rw [kh.deletedAt] at hdel
    rw [kh.lastSuccess] at hi
    obtain ⟨t, ht, hid, hs⟩ := O.last_mem h hh hdel i hi
    rw [hts]
    exact ⟨ft t, Table.mem_map_of_mem ht, (hft t).trans hid, by rw [kh.id, hsucc h.id t ht, hs]⟩
  · intro hdel t' ht' hs
    rw [kh.deletedAt] at hdel
    rw [kh.id] at hs ⊢
    rw [hts] at ht' ⊢
    obtain ⟨t, ht, rfl⟩ := Table.mem_map.mp ht'
    rw [hsucc h.id t ht] at hs
    obtain ⟨l, hl, hlast, hls, hle⟩ := O.last_max h hh hdel t ht hs
    exact ⟨ft l, Table.mem_map_of_mem hl, by rw [kh.lastSuccess, hlast, hft],
      by rw [hsucc h.id l hl, hls], by rw [(turns t ht).ordinal, (turns l hl).ordinal]; exact hle⟩

lemma create (O : Ordered db) (L : Linked db) {h : HistoryRow} {histories : Table HistoryRow.id}
    (new : h.New) (rows : histories.rows = db.histories.rows ++ [h])
    (fresh : ∀ r ∈ db.histories, r.id ≠ h.id) : Ordered { db with histories := histories } := by
  have hmem : ∀ {x}, x ∈ histories ↔ x ∈ db.histories ∨ x = h := Table.mem_of_rows_append rows
  have hnone : ∀ t ∈ db.turns, t.historyId ≠ h.id := by
    intro t ht hid
    obtain ⟨x, hx, hxt, -⟩ := L.turn_history t ht
    exact fresh x hx (hxt.trans hid)
  refine ⟨?_, ?_, ?_, ?_, ?_⟩ <;> intro x hx <;> rcases hmem.mp hx with hx | rfl
  · exact O.positive x hx
  · rw [new.nextOrdinal]
  · exact O.ordinals x hx
  · intro _
    have hempty : db.turnsOf x.id = [] :=
      List.filter_eq_nil_iff.mpr (fun t ht => by simpa using hnone t ht)
    rw [new.nextOrdinal, Db.turnsOf]
    exact congrArg (List.map TurnRow.ordinal) hempty
  · exact O.context x hx
  · intro _
    have hempty : db.succeededTurns x.id = [] :=
      List.filter_eq_nil_iff.mpr (fun t ht => by simp [hnone t ht])
    rw [new.contextRevision]
    exact (congrArg List.length hempty).symm
  · exact O.last_mem x hx
  · intro _ i hi
    rw [new.lastSuccess] at hi
    cases hi
  · exact O.last_max x hx
  · intro _ t ht hs
    exact absurd (TurnRow.succeededOf_iff.mp hs).1 (hnone t ht)

lemma begin (O : Ordered db) {h : HistoryRow} {t : TurnRow} {turns : Table TurnRow.id}
    (mem : h ∈ db.histories) (opens : t.Opens db h) (rows : turns.rows = db.turns.rows ++ [t])
    (now : Timestamp) :
    Ordered { db with
      turns := turns
      histories := db.histories.set (h.begin now t.id t.executionGeneration) } := by
  have hmt : ∀ {x}, x ∈ turns ↔ x ∈ db.turns ∨ x = t := Table.mem_of_rows_append rows
  have hmh : ∀ x, _ := fun x => @Table.mem_set _ _ _ _ db.histories _ _ x mem
    (h.begin_id now t.id t.executionGeneration)
  have hpos := O.positive h mem
  have hsucc : ∀ i, t.succeededOf i = false := by
    intro i
    simp [TurnRow.succeededOf, opens.status]
  have hsucceeded : ∀ i, turns.select (TurnRow.succeededOf i) = db.succeededTurns i := by
    intro i
    rw [Table.select_of_rows_append rows, hsucc i]
    exact List.append_nil _
  have hlast : ∀ x : HistoryRow, x ∈ db.histories → x.deletedAt = none → ∀ s ∈ turns,
      s.succeededOf x.id = true → ∃ l ∈ turns, x.lastSuccessTurnId = some l.id ∧
        l.succeededOf x.id = true ∧ s.ordinal ≤ l.ordinal := by
    intro x hx hdel s hs hss
    rcases hmt.mp hs with hs | rfl
    · obtain ⟨l, hl, hrest⟩ := O.last_max x hx hdel s hs hss
      exact ⟨l, hmt.mpr (.inl hl), hrest⟩
    · rw [hsucc] at hss
      cases hss
  have hlastMem : ∀ x : HistoryRow, x ∈ db.histories → x.deletedAt = none → ∀ i,
      x.lastSuccessTurnId = some i → ∃ s ∈ turns, s.id = i ∧ s.succeededOf x.id = true := by
    intro x hx hdel i hi
    obtain ⟨s, hs, hrest⟩ := O.last_mem x hx hdel i hi
    exact ⟨s, hmt.mpr (.inl hs), hrest⟩
  refine ⟨?_, ?_, ?_, ?_, ?_⟩ <;> intro x hx <;> rcases (hmh x).mp hx with rfl | ⟨hx, hne⟩
  · exact Nat.le_add_left 1 h.nextOrdinal
  · exact O.positive x hx
  · intro hdel
    have hdec : decide (t.historyId = h.id) = true := decide_eq_true opens.history
    have : turns.select (fun s => s.historyId = h.id) = db.turnsOf h.id ++ [t] := by
      rw [Table.select_of_rows_append rows, if_pos hdec]
      rfl
    show (turns.select (fun s => s.historyId = h.id)).map TurnRow.ordinal =
      List.range' 1 (h.nextOrdinal + 1 - 1)
    rw [this, List.map_append, O.ordinals h mem hdel, List.map_singleton, opens.ordinal,
      Nat.add_sub_cancel]
    obtain ⟨n, hn⟩ := Nat.exists_eq_add_of_le' hpos
    rw [hn, Nat.add_sub_cancel, List.range'_1_concat, Nat.add_comm 1 n]
  · intro hdel
    have hdec : decide (t.historyId = x.id) = false :=
      decide_eq_false (fun hid => hne (hid.symm.trans opens.history))
    have : turns.select (fun s => s.historyId = x.id) = db.turnsOf x.id := by
      rw [Table.select_of_rows_append rows, hdec]
      exact List.append_nil _
    show (turns.select (fun s => s.historyId = x.id)).map TurnRow.ordinal = _
    rw [this]
    exact O.ordinals x hx hdel
  · intro hdel
    exact (O.context h mem hdel).trans (congrArg List.length (hsucceeded h.id)).symm
  · intro hdel
    exact (O.context x hx hdel).trans (congrArg List.length (hsucceeded x.id)).symm
  · exact hlastMem h mem
  · exact hlastMem x hx
  · exact hlast h mem
  · exact hlast x hx

/-- Closing the active turn of a history counts it when it succeeded; it has the greatest
ordinal of the history. -/
lemma close (O : Ordered db) (L : Linked db) {h h' : HistoryRow} {t t' : TurnRow}
    {fe : ExecutionRow → ExecutionRow} (memHistory : h ∈ db.histories) (memTurn : t ∈ db.turns)
    (turnHistory : t.historyId = h.id) (accepted : t.status = .accepted)
    (closing : Closing h h' t t' fe) {executions : Table ExecutionRow.id} :
    Ordered { db with
      histories := db.histories.set h', turns := db.turns.set t', executions := executions } := by
  have hmh := fun x => Table.mem_set (x := x) memHistory closing.history.id
  have hmt := fun x => Table.mem_set (x := x) memTurn closing.turn.id
  have hact := L.activeOf memHistory memTurn turnHistory accepted
  have hordinals : ∀ i, ((db.turns.set t').select (fun s => s.historyId = i)).map TurnRow.ordinal =
      (db.turnsOf i).map TurnRow.ordinal :=
    fun i => Table.map_select_set memTurn closing.turn.id (by rw [closing.turn.history])
      closing.turn.ordinal
  have hold : ∀ i, t.succeededOf i = false := by
    intro i
    simp [TurnRow.succeededOf, accepted]
  have hnew : ∀ i, t'.succeededOf i = true ↔ h.id = i ∧ t'.status = .succeeded := by
    intro i
    rw [TurnRow.succeededOf_iff, closing.turn.history, turnHistory]
  have hcount : ∀ i, ((db.turns.set t').select (TurnRow.succeededOf i)).length =
      (db.succeededTurns i).length + if h.id = i ∧ t'.status = .succeeded then 1 else 0 := by
    intro i
    have := Table.length_select_set memTurn closing.turn.id (TurnRow.succeededOf i)
    rw [hold i, if_neg Bool.false_ne_true, Nat.add_zero] at this
    simp only [hnew] at this
    exact this
  -- a succeeded turn other than the closed one succeeded before
  have hbefore : ∀ {s : TurnRow} {i}, s ∈ db.turns.set t' → s.succeededOf i = true → s ≠ t' →
      s ∈ db.turns := by
    intro s i hs _ hne
    rcases (hmt s).mp hs with rfl | ⟨hs, -⟩
    · exact absurd rfl hne
    · exact hs
  have hkept : ∀ {s : TurnRow} {i}, s ∈ db.turns → s.succeededOf i = true → s ∈ db.turns.set t' := by
    intro s i hs hss
    refine (hmt s).mpr (.inr ⟨hs, fun hid => ?_⟩)
    have := Table.eq_of_key hs memTurn (hid.trans closing.turn.id)
    rw [this, hold i] at hss
    cases hss
  refine ⟨?_, ?_, ?_, ?_, ?_⟩ <;> intro x hx <;> rcases (hmh x).mp hx with rfl | ⟨hx, hne⟩
  · rw [closing.nextOrdinal]
    exact O.positive h memHistory
  · exact O.positive x hx
  · intro hdel
    rw [closing.deletedAt] at hdel
    rw [closing.nextOrdinal, closing.history.id, ← O.ordinals h memHistory hdel]
    exact hordinals h.id
  · intro hdel
    rw [← O.ordinals x hx hdel]
    exact hordinals x.id
  · intro hdel
    rw [closing.deletedAt] at hdel
    rw [closing.contextRevision, closing.history.id, O.context h memHistory hdel]
    refine Eq.trans ?_ (hcount h.id).symm
    simp
  · intro hdel
    rw [closing.history.id] at hne
    rw [O.context x hx hdel]
    refine Eq.trans ?_ (hcount x.id).symm
    rw [if_neg (fun hc => hne hc.1.symm), Nat.add_zero]
  · intro hdel i hi
    rw [closing.deletedAt] at hdel
    rw [closing.lastSuccess] at hi
    rw [closing.history.id]
    split_ifs at hi with hs
    · exact ⟨t', (hmt t').mpr (.inl rfl), closing.turn.id.trans (Option.some.inj hi),
        (hnew h.id).mpr ⟨rfl, hs⟩⟩
    · obtain ⟨s, hs, hid, hss⟩ := O.last_mem h memHistory hdel i hi
      exact ⟨s, hkept hs hss, hid, hss⟩
  · intro hdel i hi
    obtain ⟨s, hs, hid, hss⟩ := O.last_mem x hx hdel i hi
    exact ⟨s, hkept hs hss, hid, hss⟩
  · intro hdel s hs hss
    rw [closing.deletedAt] at hdel
    rw [closing.history.id] at hss ⊢
    by_cases hst : t'.status = .succeeded
    · refine ⟨t', (hmt t').mpr (.inl rfl), ?_, (hnew h.id).mpr ⟨rfl, hst⟩, ?_⟩
      · rw [closing.lastSuccess, if_pos hst, closing.turn.id]
      · by_cases hs' : s = t'
        · rw [hs']
        · have := O.ordinal_lt memHistory hdel (hbefore hs hss hs') (TurnRow.succeededOf_iff.mp hss).1
          rw [closing.turn.ordinal]
          have := hact.ordinal
          omega
    · have hs' : s ≠ t' := by
        rintro rfl
        exact hst (TurnRow.succeededOf_iff.mp hss).2
      obtain ⟨l, hl, hlast, hls, hle⟩ := O.last_max h memHistory hdel s (hbefore hs hss hs') hss
      exact ⟨l, hkept hl hls, by rw [closing.lastSuccess, if_neg hst, hlast], hls, hle⟩
  · intro hdel s hs hss
    have hs' : s ≠ t' := by
      rintro rfl
      rw [closing.history.id] at hne
      exact hne ((hnew x.id).mp hss).1.symm
    obtain ⟨l, hl, hlast, hls, hle⟩ := O.last_max x hx hdel s (hbefore hs hss hs') hss
    exact ⟨l, hkept hl hls, hlast, hls, hle⟩

lemma delete (O : Ordered db) {h h' : HistoryRow} (mem : h ∈ db.histories) (same : h.Same h')
    (nextOrdinal : h'.nextOrdinal = h.nextOrdinal) (deleted : h'.deletedAt ≠ none)
    {executions : Table ExecutionRow.id} :
    Ordered { db with
      histories := db.histories.set h'
      turns := db.turns.delete (fun t => t.historyId = h.id)
      executions := executions } := by
  have hmh := fun x => Table.mem_set (x := x) mem same.id
  have hselect : ∀ x : HistoryRow, x.id ≠ h'.id → ∀ q : TurnRow → Bool,
      (∀ s, q s = true → s.historyId = x.id) →
      (db.turns.delete (fun t => t.historyId = h.id)).select q = db.turns.select q := by
    intro x hne q hq
    refine Table.select_delete (fun s _ hs => decide_eq_false (fun hid => hne ?_))
    rw [same.id, ← hq s hs, hid]
  refine ⟨?_, ?_, ?_, ?_, ?_⟩ <;> intro x hx <;> rcases (hmh x).mp hx with rfl | ⟨hx, hne⟩
  · rw [nextOrdinal]
    exact O.positive h mem
  · exact O.positive x hx
  · exact fun hdel => absurd hdel deleted
  · intro hdel
    rw [← O.ordinals x hx hdel]
    exact congrArg (List.map TurnRow.ordinal) (hselect x hne _ (fun s hs => by simpa using hs))
  · exact fun hdel => absurd hdel deleted
  · intro hdel
    rw [O.context x hx hdel]
    exact congrArg List.length
      (hselect x hne _ (fun s hs => (TurnRow.succeededOf_iff.mp hs).1)).symm
  · exact fun hdel => absurd hdel deleted
  · intro hdel i hi
    obtain ⟨s, hs, hid, hss⟩ := O.last_mem x hx hdel i hi
    refine ⟨s, Table.mem_delete.mpr ⟨hs, decide_eq_false (fun hsh => hne ?_)⟩, hid, hss⟩
    rw [same.id, ← hsh, (TurnRow.succeededOf_iff.mp hss).1]
  · exact fun hdel => absurd hdel deleted
  · intro hdel s hs hss
    obtain ⟨l, hl, hlast, hls, hle⟩ := O.last_max x hx hdel s (Table.mem_delete.mp hs).1 hss
    refine ⟨l, Table.mem_delete.mpr ⟨hl, decide_eq_false (fun hlh => hne ?_)⟩, hlast, hls, hle⟩
    rw [same.id, ← hlh, (TurnRow.succeededOf_iff.mp hls).1]

/-- Every effect keeps the ordinals and the context. -/
theorem effect (O : Ordered db) (L : Linked db) {db' : Db} (e : Effect db db') : Ordered db' := by
  cases e with
  | settle s =>
    cases s with
    | touch hfh hft _ histories turns =>
      exact O.rewrite hfh hft (fun h hh => (histories h hh).toSameContext)
        (fun t ht => (turns t ht).toSame) (fun t ht => by rw [(turns t ht).status]) rfl rfl
    | close memHistory memTurn _ turnHistory accepted closing =>
      exact O.close L memHistory memTurn turnHistory accepted closing
    | restart epoch now =>
      refine O.rewrite (fun h => ?_) (fun t => ?_) ?_ ?_ ?_ rfl rfl
      · split_ifs <;> rfl
      · split_ifs <;> rfl
      · intro h _
        split_ifs
        · exact ⟨⟨rfl, rfl, rfl, rfl⟩, rfl, rfl, rfl, rfl⟩
        · exact (HistoryRow.Kept.refl h).toSameContext
      · intro t _
        split_ifs
        · exact ⟨rfl, rfl, rfl, rfl, rfl, rfl⟩
        · exact .refl t
      · intro t _
        split_ifs with hst
        · simp_all [TurnRow.abandon]
        · exact Iff.rfl
    | delete mem _ same deleted _ nextOrdinal => exact O.delete mem same nextOrdinal deleted
  | create new rows fresh => exact O.create L new rows fresh
  | begin mem opens rows now => exact O.begin mem opens rows now
  | accept => exact ⟨O.positive, O.ordinals, O.context, O.last_mem, O.last_max⟩

end Ordered

end ChatBI.Store
