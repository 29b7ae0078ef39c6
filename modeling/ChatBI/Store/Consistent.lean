import ChatBI.Store.Executed
import ChatBI.Store.Ordered
import Mathlib.Logic.Relation

/-!
# Consistent databases

The cross-table invariant of the store and its preservation by every sequence of effects.
-/

namespace ChatBI.Store

open ChatBI.Lib Relation

structure Consistent (db : Db) : Prop extends Linked db, Ordered db, Executed db

/-- A sequence of effects. -/
abbrev Effects : Db → Db → Prop := ReflTransGen Effect

/-- A sequence of effects that opens no turn. -/
abbrev Settles : Db → Db → Prop := ReflTransGen Settle

variable {db db' : Db}

lemma Settles.effects (s : Settles db db') : Effects db db' :=
  ReflTransGen.mono (fun _ _ => Effect.settle) db db' s

namespace Consistent

lemma init : Consistent {} := ⟨.init, .init, .init⟩

lemma effect (C : Consistent db) (e : Effect db db') : Consistent db' :=
  ⟨C.toLinked.effect e, C.toOrdered.effect C.toLinked e, C.toExecuted.effect e⟩

theorem effects (C : Consistent db) (e : Effects db db') : Consistent db' := by
  induction e with
  | refl => exact C
  | tail _ h ih => exact ih.effect h

/-- The active turn of a history is the only accepted turn of it. -/
lemma active_iff (C : Consistent db) {h : HistoryRow} (hh : h ∈ db.histories) (i : Uuid) :
    h.activeTurnId = some i ↔
      ∃ t ∈ db.turns, t.id = i ∧ t.historyId = h.id ∧ t.status = .accepted := by
  constructor
  · intro hi
    obtain ⟨t, ht, hid, a⟩ := C.active_turn h hh i hi
    exact ⟨t, ht, hid, a.history, a.status⟩
  · rintro ⟨t, ht, rfl, hid, hst⟩
    exact (C.activeOf hh ht hid hst).active

/-- An open execution belongs to the active turn of its history, with the history's
generation and the current epoch. -/
lemma open_active (C : Consistent db) {e : ExecutionRow} (he : e ∈ db.executions)
    (hopen : e.status.isOpen = true) :
    ∃ h ∈ db.histories, ∃ t ∈ db.turns, t.ActiveOf db h ∧ e.On t ∧ h.id = e.historyId ∧
      h.ownerUserId = e.ownerUserId := by
  obtain ⟨t, ht, o⟩ := C.execution_turn e he
  obtain ⟨h, hh, a⟩ := C.accepted_active t ht (o.isOpen.mp hopen)
  obtain ⟨x, hx, hid, ho⟩ := C.execution_history e he
  have := Table.eq_of_key hx hh (hid.trans (o.history.symm.trans a.history))
  subst this
  exact ⟨x, hx, t, ht, a, o, hid, ho⟩

end Consistent

end ChatBI.Store
