import ChatBI.Store.Closing

/-!
# Records of a history

Creating, renaming and deleting histories and saved results.
-/

namespace ChatBI.Store

open ChatBI.Lib Relation

variable {db db' : Db}

/-- `create` inserts a history without turns or finds the one of the operation. -/
lemma create_ok {codec : Codec} {now : Timestamp} {owner : Owner} {kind : HistoryKind}
    {question : String} {operationId newId runId : Uuid} {r : HistoryHeader}
    (hok : create codec now owner kind question operationId newId runId db = .ok (r, db')) :
    db' = db ∨ ∃ h histories, Created db owner operationId newId h histories ∧
      db' = { db with histories := histories } := by
  unfold create at hok
  obtain ⟨inserted, _, hinsert, hread⟩ := Tx.bind_ok.mp hok
  simp only [Tx.read_bind_ok, Tx.orRaise_bind_ok, Tx.raiseIf_bind_ok, Tx.pure_ok,
    Prod.mk.injEq] at hread
  obtain ⟨_, -, -, -, -, rfl⟩ := hread
  rcases insertHistory_ok hinsert with ⟨-, rfl, -⟩ | ⟨-, histories, rfl, rows, hfresh, hop⟩
  · exact .inl rfl
  · exact .inr ⟨_, histories, ⟨⟨rfl, rfl, rfl, rfl, rfl⟩, rfl, rfl, rfl, rows, hfresh, hop⟩, rfl⟩

theorem renameHistory_settle {now : Timestamp} {owner : Owner} {historyId : Uuid} {title : String}
    {revision : ℕ} {r : HistoryHeader}
    (hok : renameHistory now owner historyId title revision db = .ok (r, db')) :
    Settle db db' := by
  unfold renameHistory at hok
  obtain ⟨h, -, -, -, -, hrename⟩ := owned_bind_ok hok
  simp only [Tx.raiseIf_bind_ok, updateHistories_bind_ok, Tx.orRaise_bind_ok, Tx.pure_ok,
    Prod.mk.injEq] at hrename
  obtain ⟨-, _, -, -, rfl⟩ := hrename
  refine Settle.touchHistories (fun x _ => ?_)
  split_ifs
  · exact ⟨⟨⟨rfl, rfl, rfl, rfl⟩, rfl, rfl, rfl, rfl⟩, rfl, rfl⟩
  · exact .refl x

lemma expireAnalysisRun_bind_ok {α : Type} {row : AnalysisRunRow} {k : Unit → Tx α} {r : α × Db}
    (hok : (expireAnalysisRun row >>= k) db = .ok r) :
    ∃ runs, k () { db with analysisRuns := runs } = .ok r := by
  simp only [expireAnalysisRun, bind_assoc, Tx.read_bind_ok] at hok
  cases hinsert : db.analysisRuns.insert? row with
  | none =>
    simp only [hinsert, updateAnalysisRuns, Tx.write_bind_ok] at hok
    exact ⟨_, hok⟩
  | some runs =>
    simp only [hinsert, Tx.write_bind_ok] at hok
    exact ⟨runs, hok⟩

/-- Deletion erases an idle history and removes its turns with their executions. -/
theorem deleteHistory_settles {codec : Codec} {now : Timestamp} {owner : Owner} {historyId : Uuid}
    {revision : ℕ} {ownerSubject : String} {u : Unit}
    (hok : deleteHistory codec now owner historyId revision ownerSubject db = .ok (u, db')) :
    Settles db db' := by
  unfold deleteHistory at hok
  obtain ⟨h, hh, hid, -, -, hdelete⟩ := owned_bind_ok hok
  simp only [Tx.raiseIf_bind_ok, ne_eq, not_not] at hdelete
  obtain ⟨hidle, -, hruns⟩ := hdelete
  have herase : ∀ runs, Settles db { db with
      analysisRuns := runs
      histories := db.histories.update (fun x => x.id = historyId) (HistoryRow.erase now)
        (fun x => x.erase_id now)
      turns := db.turns.delete (fun t => t.historyId = historyId)
      executions := db.executions.delete (fun e => db.turns.rows.any (fun t =>
        t.historyId = historyId && t.historyId = e.historyId && t.id = e.turnId)) } := by
    intro runs
    have hdel := @Settle.delete { db with analysisRuns := runs } h (h.erase now) hh hidle
      ⟨rfl, rfl, rfl, rfl⟩ (by simp [HistoryRow.erase]) rfl rfl
    rw [Table.update_key_eq_set hh hid]
    subst hid
    exact .head (Settle.touchOthers db.savedResults runs) (.single hdel)
  cases hkind : h.kind with
  | query =>
    simp only [hkind, updateHistories_bind_ok, Tx.write_ok, Prod.mk.injEq] at hruns
    obtain ⟨-, rfl⟩ := hruns
    exact herase db.analysisRuns
  | analysis =>
    simp only [hkind, Tx.orRaise_bind_ok] at hruns
    obtain ⟨runId, -, hexpire⟩ := hruns
    obtain ⟨runs, herased⟩ := expireAnalysisRun_bind_ok hexpire
    simp only [updateHistories_bind_ok, Tx.write_ok, Prod.mk.injEq] at herased
    obtain ⟨-, rfl⟩ := herased
    exact herase runs

/-! ### Saved results -/

theorem copyResult_settle {codec : Codec} {now : Timestamp} {owner : Owner}
    {historyId turnId : Uuid} {title : String} {newId : Uuid} {r : SavedResultHeader}
    (hok : copyResult codec now owner historyId turnId title newId db = .ok (r, db')) :
    Settle db db' := by
  unfold copyResult at hok
  obtain ⟨h, -, -, -, -, hcopy⟩ := owned_bind_ok hok
  simp only [Tx.read_bind_ok, Tx.orRaise_bind_ok, Tx.lift_bind_ok, Tx.write_bind_ok, Tx.pure_ok,
    Prod.mk.injEq] at hcopy
  obtain ⟨_, -, _, -, saved, -, -, rfl⟩ := hcopy
  exact .touchOthers saved db.analysisRuns

theorem renameSavedResult_settle {now : Timestamp} {owner : Owner} {resultId : Uuid}
    {title : String} {revision : ℕ} {r : SavedResultHeader}
    (hok : renameSavedResult now owner resultId title revision db = .ok (r, db')) :
    Settle db db' := by
  simp only [renameSavedResult, ownedSaved, bind_assoc, Tx.read_bind_ok, Tx.orRaise_bind_ok,
    Tx.raiseIf_bind_ok, updateSavedResults, Tx.write_bind_ok, Tx.pure_ok, Prod.mk.injEq] at hok
  obtain ⟨_, -, -, -, rfl⟩ := hok
  exact .touchOthers _ db.analysisRuns

theorem deleteSavedResult_settle {owner : Owner} {resultId : Uuid} {revision : ℕ} {u : Unit}
    (hok : deleteSavedResult owner resultId revision db = .ok (u, db')) : Settle db db' := by
  simp only [deleteSavedResult, ownedSaved, bind_assoc, Tx.read_bind_ok, Tx.orRaise_bind_ok,
    Tx.raiseIf_bind_ok, Tx.write_ok, Prod.mk.injEq] at hok
  obtain ⟨_, -, -, -, rfl⟩ := hok
  exact .touchOthers _ db.analysisRuns

end ChatBI.Store
