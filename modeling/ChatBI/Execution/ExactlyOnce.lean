import ChatBI.Execution.Replay
import Mathlib.Data.Finset.Card
import Mathlib.Logic.Equiv.List

/-!
# Exactly-once submission

An operation with one request digest is attempted and dispatched at most once. Its replays
are answered with its execution while that exists and refused after its history was deleted;
a request of another digest ends with a conflict.
-/

namespace ChatBI.Execution

open ChatBI.Lib ChatBI.Store

/-- The attempts that were issued for an operation and a request digest. -/
def attempts (store : State) (owner : Owner) (operationId : Uuid) (hash : Digest) : List Issue :=
  store.issued.filter (fun i => i.owner = owner && i.operationId = operationId &&
    i.execution.map Prod.snd = some hash)

variable {codec : Codec} {s t' : Sys} {c c' : Call} {o : Oracle} {ev : Event} {evs : List Event}
  {i j : Issue}

lemma mem_attempts {store : State} {owner : Owner} {operationId : Uuid} {hash : Digest} :
    i ∈ attempts store owner operationId hash ↔ i ∈ store.issued ∧ i.owner = owner ∧
      i.operationId = operationId ∧ ∃ x, i.execution = some (x, hash) := by
  simp [attempts, List.mem_filter, and_assoc]

/-- A list without duplicates whose elements are all equal. -/
lemma length_le_one {α : Type} {l : List α} (nodup : l.Nodup) (h : ∀ a ∈ l, ∀ b ∈ l, a = b) :
    l.length ≤ 1 := by
  classical
  rw [← List.toFinset_card_of_nodup nodup, Finset.card_le_one]
  intro a ha b hb
  exact h a (List.mem_toFinset.mp ha) b (List.mem_toFinset.mp hb)

namespace Serial

variable {owner : Owner} {operationId : Uuid} {hash : Digest}

/-- Two attempts of one operation with one digest are the same attempt. -/
theorem attempt_one (S : Serial codec s) (injective : Function.Injective codec.operationHash)
    (hi : i ∈ attempts s.store owner operationId hash)
    (hj : j ∈ attempts s.store owner operationId hash) : i = j := by
  obtain ⟨hi, hiowner, hiop, x, hix⟩ := mem_attempts.mp hi
  obtain ⟨hj, hjowner, hjop, y, hjy⟩ := mem_attempts.mp hj
  obtain ⟨r, hr, hropens⟩ := S.payload i hi x hash hix
  obtain ⟨q, hq, hqopens⟩ := S.payload j hj y hash hjy
  have hpayload : r.payload = q.payload := injective (hr.symm.trans hq)
  have hop : i.operationId = j.operationId := hiop.trans hjop.symm
  have I := S.good.issued
  cases r with
  | submit historyId mode question contextRevision recordRevision =>
    cases q with
    | submit historyId' mode' question' contextRevision' recordRevision' =>
      injection hpayload with _ hhistory
      exact I.unique i hi j hj (hropens.1.trans (hhistory.trans hqopens.1.symm)) (.inr hop)
    | requery => cases hpayload
  | requery =>
    cases q with
    | submit => cases hpayload
    | requery =>
      -- a re-query opens the history that was created for its operation
      obtain ⟨h, hh, hid, howner, hcreation⟩ := (I.recorded i hi).history
      obtain ⟨g, hg, hgid, hgowner, hgcreation⟩ := (I.recorded j hj).history
      have hhg : h = g := by
        apply S.good.consistent.history_creation h hh g hg
        apply Prod.ext
        · exact howner.trans (hiowner.trans (hjowner.symm.trans hgowner.symm))
        · exact (hcreation hropens).trans (hop.trans (hgcreation hqopens).symm)
      exact I.unique i hi j hj (by rw [← hid, hhg, hgid]) (.inr hop)

/-- The execution of an operation whose attempt lost its history is gone. -/
lemma execution_gone (S : Serial codec s) (injective : Function.Injective codec.operationHash)
    (hi : i ∈ attempts s.store owner operationId hash) (deleted : s.store.db.Deleted i.token.historyId) :
    ∀ e ∈ s.store.db.executions,
      ¬(e.ownerUserId = owner ∧ e.operationId = operationId ∧ e.requestHash = hash) := by
  rintro e he ⟨howner, hop, hhash⟩
  obtain ⟨j, hj, o⟩ := S.good.issued.execution e he
  have hmem : j ∈ attempts s.store owner operationId hash :=
    mem_attempts.mpr ⟨hj, o.owner.symm.trans howner, o.operation.symm.trans hop, e.id,
      by rw [o.execution, hhash]⟩
  rw [S.attempt_one injective hi hmem, ← o.token] at deleted
  exact S.good.consistent.undeleted_execution he deleted

end Serial

/-! ### A replay after its history was deleted -/

/-- The places of a request that has accepted nothing. -/
def Pc.refusing : Pc → Bool
  | .waiting | .lookup | .done (.error _) => true
  | pc => pc.seeking

/-- The number of steps that lead to a place. -/
def Pc.rank : Pc → ℕ
  | .waiting => 0
  | .lookup => 1
  | .header => 2
  | .reserve _ => 3
  | .reserveHistory _ => 4
  | .reserveAnalysis _ => 5
  | .reserveAdmission _ => 6
  | .begin _ => 7
  | _ => 8

lemma Pc.rank_lt {pc : Pc} (active : pc.active = true) (refusing : pc.refusing = true) :
    pc.rank < 8 := by
  cases pc <;> first | (simp only [Pc.rank]; omega) | cases refusing | cases active

lemma Pc.refused {pc : Pc} (refusing : pc.refusing = true) (last : 8 ≤ pc.rank) :
    ∃ r, pc = .done (.error r) := by
  cases pc with
  | done answer =>
    cases answer with
    | error r => exact ⟨r, rfl⟩
    | ok => cases refusing
  | _ => first | (simp only [Pc.rank] at last; omega) | cases refusing

lemma Pc.refusing_pending {pc : Pc} {a : Accepted} (h : pc.pending = some a) :
    pc.refusing = false := by
  cases pc <;> first | rfl | cases h

/-- Before its begin a request only reads. -/
lemma Sys.step_store (refusing : c.pc.refusing = true) (h : s.step codec c o = some t') :
    t'.store = s.store ∨
      ∃ t, c.pc = .begin t ∧ t'.store = s.perform codec o.fate (s.beginOp codec c t o) := by
  have hacquire : ∀ rt p pc, (s.acquire c rt p pc).store = s.store := by
    intro rt p pc
    cases rt <;> rfl
  unfold Sys.step at h
  cases hpc : c.pc with
  | waiting =>
    simp only [hpc, Sys.enter] at h
    split_ifs at h <;> cases h <;> exact .inl rfl
  | lookup =>
    rw [hpc] at h
    cases h
    unfold Sys.lookup
    split <;> exact .inl rfl
  | header =>
    rw [hpc] at h
    cases h
    unfold Sys.header
    split <;> exact .inl rfl
  | reserve t =>
    rw [hpc] at h
    cases h
    unfold Sys.reserve
    split_ifs
    · exact .inl rfl
    · split <;> exact .inl rfl
  | reserveHistory t =>
    rw [hpc] at h
    cases h
    exact .inl (hacquire _ _ _)
  | reserveAnalysis t =>
    rw [hpc] at h
    cases h
    unfold Sys.reserveAnalysis
    split
    · exact .inl rfl
    · exact .inl (hacquire _ _ _)
  | reserveAdmission t =>
    rw [hpc] at h
    cases h
    unfold Sys.reserveAdmission
    split_ifs <;> exact .inl rfl
  | begin t =>
    rw [hpc] at h
    cases h
    refine .inr ⟨t, rfl, ?_⟩
    unfold Sys.begin
    dsimp only
    split <;> rfl
  | done =>
    rw [hpc] at h
    cases h
  | _ =>
    rw [hpc] at refusing
    cases refusing

/-- The operation has been attempted and the history of the attempt is deleted. -/
structure Withdrawn (s : Sys) (owner : Owner) (operationId : Uuid) (hash : Digest) (i : Issue) :
    Prop where
  mem : i ∈ attempts s.store owner operationId hash
  deleted : s.store.db.Deleted i.token.historyId

namespace Serial

variable {k : ℕ}

/-- A step of a request whose operation is withdrawn changes no stored state and leads on to
its refusal. -/
theorem step_withdrawn (S : Serial codec s) (injective : Function.Injective codec.operationHash)
    (hc : c ∈ s.calls) (w : Withdrawn s c.owner c.operationId (c.hash codec) i)
    (refusing : c.pc.refusing = true) (fresh : s.store.Unused o.executionId)
    (h : s.step codec c o = some t') :
    t'.store = s.store ∧ ∃ d, c.Follows d ∧ t'.calls = s.calls.set d ∧ d.pc.refusing = true ∧
      c.pc.rank < d.pc.rank := by
  have hsound := S.sound c hc
  have hown : ∀ a, c.pc.begun = some a →
      OwnExecution s.store.db a.token (some a.executionId) :=
    fun a ha => S.grounded.own c hc a (hsound.begun a ha)
  have hstep := Sys.step_cases hsound.fits hown h
  have S' := S.stepped hc fresh hstep
  have hgone := S.execution_gone injective w.mem w.deleted
  obtain ⟨hi, hiowner, hiop, x, hix⟩ := mem_attempts.mp w.mem
  -- a new attempt would be a second one of the operation
  have hunissued : ∀ {store : State} {t : Target} {i' : Issue}, t'.store = store →
      store.issued = s.store.issued ++ [i'] → BegunBy codec c t o i' → False := by
    rintro store t i' rfl issued begun
    have hmem : i ∈ attempts t'.store c.owner c.operationId (c.hash codec) := by
      refine mem_attempts.mpr ⟨?_, hiowner, hiop, x, hix⟩
      rw [issued]
      exact List.mem_append_left _ hi
    have hmem' : i' ∈ attempts t'.store c.owner c.operationId (c.hash codec) := by
      refine mem_attempts.mpr ⟨?_, begun.owner, begun.operation, o.executionId, begun.execution⟩
      rw [issued]
      exact List.mem_append_right _ (List.mem_singleton.mpr rfl)
    have hii := S'.attempt_one injective hmem hmem'
    refine fresh i hi ?_
    rw [hii, begun.execution, Option.map_some]
  constructor
  · rcases Sys.step_store refusing h with hsame | ⟨t, hpc, hstore⟩
    · exact hsame
    · have hperform : s.perform codec o.fate (s.beginOp codec c t o) = s.store ∨
          s.perform codec o.fate (s.beginOp codec c t o) =
            s.store.apply codec (s.beginOp codec c t o) := by
        cases o.fate with
        | ok => exact .inr rfl
        | lost => exact .inr rfl
        | failed => exact .inl rfl
        | locked => exact .inl rfl
      rcases hperform with hsame | happly
      · exact hstore.trans hsame
      · have hout := @Sys.begin_outcome codec s c t { o with fate := .ok }
          (hsound.fits t (by rw [hpc]; rfl)) rfl
        have hop : s.beginOp codec c t { o with fate := .ok } = s.beginOp codec c t o := rfl
        rw [hop, ← hstore.trans happly] at hout
        generalize s.begun codec c t { o with fate := .ok } = answer at hout
        cases hout with
        | raised _ same => exact same
        | existing _ _ _ _ same => exact same
        | created begun _ issued =>
          exact (hunissued rfl issued ⟨begun.owner, begun.operation, begun.history, begun.opens,
            begun.execution⟩).elim
  · have hgoto : ∀ {d : Call}, c.Follows d → t'.calls = s.calls.set d → d.pc.refusing = true →
        c.pc.rank < d.pc.rank → ∃ d, c.Follows d ∧ t'.calls = s.calls.set d ∧
          d.pc.refusing = true ∧ c.pc.rank < d.pc.rank :=
      fun {d} f hcalls hd hrank => ⟨d, f, hcalls, hd, hrank⟩
    have hsame : ∀ {pc : Pc} {lease : Option Lease}, c.Follows { c with pc := pc, lease := lease } :=
      ⟨rfl, rfl, rfl, rfl⟩
    cases hstep with
    | enter pc free => exact hgoto hsame rfl rfl (by rw [pc]; exact Nat.zero_lt_one)
    | refuse pc => exact hgoto hsame rfl rfl (by rw [pc]; exact Nat.zero_lt_succ 7)
    | advance leads call =>
      cases leads with
      | absent pc => exact hgoto hsame rfl rfl (by rw [pc]; exact Nat.lt_succ_self 1)
      | replay pc mem owner operation hash => exact absurd ⟨owner, operation, hash⟩ (hgone _ mem)
      | target pc => exact hgoto hsame rfl rfl (by rw [pc]; exact Nat.lt_succ_self 2)
      | noAnalysis pc => exact hgoto hsame rfl rfl (by rw [pc]; exact Nat.lt_succ_self 5)
      | admitted pc => exact hgoto hsame rfl rfl (by rw [pc]; exact Nat.lt_succ_self 6)
      | dispatchFailed pc =>
        rw [Pc.refusing_pending pc] at refusing
        cases refusing
      | _ pc =>
        rw [pc] at refusing
        cases refusing
    | fail active call => exact hgoto hsame rfl rfl (Pc.rank_lt active refusing)
    | capacity pc reserved => exact hgoto hsame rfl rfl (by rw [pc]; exact Nat.lt_succ_self 3)
    | history pc reserved => exact hgoto hsame rfl rfl (by rw [pc]; exact Nat.lt_succ_self 4)
    | analysis pc run reserved => exact hgoto hsame rfl rfl (by rw [pc]; exact Nat.lt_succ_self 5)
    | existing pc mem owner operation hash => exact absurd ⟨owner, operation, hash⟩ (hgone _ mem)
    | created pc call begun issued => exact (hunissued rfl issued begun).elim
    | _ pc =>
      rw [pc] at refusing
      cases refusing

end Serial

/-! ### A request of another digest -/

/-- The places of a request that finds its operation taken, in their order. -/
def conflictPc : ℕ → Pc
  | 0 => .waiting
  | 1 => .lookup
  | _ => .done (.error (.history operationConflict))

lemma conflictPc_refusing (k : ℕ) : (conflictPc k).refusing = true := by
  match k with
  | 0 => rfl
  | 1 => rfl
  | k + 2 => rfl

/-- A step of such a request whose store call is answered leads to its next place. -/
lemma Sys.step_conflict {e : ExecutionRow} {k : ℕ} (C : Consistent s.store.db)
    (he : e ∈ s.store.db.executions) (owner : e.ownerUserId = c.owner)
    (operation : e.operationId = c.operationId) (hash : e.requestHash ≠ c.hash codec)
    (pc : c.pc = conflictPc k) (fate : o.fate = .ok) (pass : o.pass = true)
    (h : s.step codec c o = some t') :
    ∃ d, c.Follows d ∧ t'.calls = s.calls.set d ∧ d.pc = conflictPc (k + 1) := by
  have hsame : ∀ {pc : Pc} {lease : Option Lease}, c.Follows { c with pc := pc, lease := lease } :=
    ⟨rfl, rfl, rfl, rfl⟩
  unfold Sys.step at h
  match k with
  | 0 =>
    simp only [pc, conflictPc, Sys.enter, pass] at h
    split_ifs at h with hlock
    cases h
    exact ⟨{ c with pc := .lookup }, ⟨rfl, rfl, rfl, rfl⟩, rfl, rfl⟩
  | 1 =>
    simp only [pc, conflictPc, Option.some.injEq] at h
    have hfind := C.executionByOperation_eq he (c.hash codec)
    rw [if_neg (fun heq => hash heq.symm), owner, operation] at hfind
    rw [← h, Sys.lookup, fate, Sys.ask_error hfind]
    exact ⟨_, hsame, rfl, rfl⟩
  | k + 2 =>
    simp only [pc, conflictPc] at h
    cases h

/-! ### Exactly once -/

/-- The store call of the step is answered and its caller is authorized. -/
def Event.Served : Event → Prop
  | .step _ o => o.fate = .ok ∧ o.pass = true
  | _ => True

/-- The dispatched executions of an operation and a request digest. -/
def Sys.dispatches (s : Sys) (owner : Owner) (operationId : Uuid) (hash : Digest) : List Uuid :=
  s.dispatched.filter (fun x =>
    (attempts s.store owner operationId hash).any (fun i => i.execution.map Prod.fst = some x))

/-- The call reuses the operation of the execution. -/
structure Call.Reuses (c : Call) (e : ExecutionRow) : Prop where
  owner : e.ownerUserId = c.owner
  operation : e.operationId = c.operationId

structure ExactlyOnce (codec : Codec) (s : Sys) : Prop where
  attempted : ∀ owner operationId hash, (attempts s.store owner operationId hash).length ≤ 1
  dispatched : ∀ owner operationId hash, (s.dispatches owner operationId hash).length ≤ 1
  unbegun : ∀ c ∈ s.calls, ∀ e ∈ s.store.db.executions, c.Reuses e → c.pc.seeking = false
  answered : ∀ c ∈ s.calls, ∀ e ∈ s.store.db.executions, c.Reuses e →
    e.requestHash = c.hash codec → ∀ k, c.pc = replayPc (viewed (record e)) k →
    ∀ evs t, (system codec).Run s evs t → (∀ ev ∈ evs, ev.isStepOf c.id = true → ev.Served) →
    (∃ e' ∈ t.store.db.executions, e'.id = e.id) → ∀ c' ∈ t.calls, c'.id = c.id →
    c'.pc = replayPc (viewed (record e)) (k + evs.countP (Event.isStepOf c.id))
  conflict : ∀ c ∈ s.calls, ∀ e ∈ s.store.db.executions, c.Reuses e →
    e.requestHash ≠ c.hash codec → ∀ k, c.pc = conflictPc k →
    (∀ o t, s.step codec c o = some t → t.store = s.store) ∧
    ∀ evs t, (system codec).Run s evs t → (∀ ev ∈ evs, ev.isStepOf c.id = true → ev.Served) →
    (∃ e' ∈ t.store.db.executions, e'.id = e.id) → ∀ c' ∈ t.calls, c'.id = c.id →
    c'.pc = conflictPc (k + evs.countP (Event.isStepOf c.id))
  refused : ∀ c ∈ s.calls, ∀ i, Withdrawn s c.owner c.operationId (c.hash codec) i →
    c.pc.refusing = true →
    (∀ o t, s.store.Unused o.executionId → s.step codec c o = some t → t.store = s.store) ∧
    ∀ evs t, (system codec).Run s evs t → ∀ c' ∈ t.calls, c'.id = c.id →
    c'.pc.refusing = true ∧
      (8 ≤ c.pc.rank + evs.countP (Event.isStepOf c.id) → ∃ r, c'.pc = .done (.error r))

namespace Serial

variable {e : ExecutionRow}

/-- An execution that exists at both ends of a part of a run exists in between. -/
lemma execution_back (S : Serial codec s) (he : e ∈ s.store.db.executions) {u v : Sys}
    (U : Serial codec u) (V : Serial codec v) (x : Extends s.store u.store)
    (y : Extends u.store v.store) (h : ∃ e' ∈ v.store.db.executions, e'.id = e.id) :
    ∃ e' ∈ u.store.db.executions, e'.id = e.id := by
  obtain ⟨e', he', hid⟩ := h
  obtain ⟨i, hi, o⟩ := S.good.issued.execution e he
  obtain ⟨j, hj, o'⟩ := V.good.issued.execution e' he'
  have hij : i = j := by
    apply V.good.issued.unique_execution i (y.issued i (x.issued i hi)) j hj e.id
    · rw [o.execution, Option.map_some]
    · rw [o'.execution, Option.map_some, hid]
  rw [← hij] at o'
  obtain ⟨e₁, he₁, o₁⟩ := y.execution_before U.good V.good he' (x.issued i hi) o'
  have hexec := o₁.execution.symm.trans o.execution
  rw [Option.some.injEq, Prod.mk.injEq] at hexec
  exact ⟨e₁, he₁, hexec.1⟩

/-- How a call of the operation of `e` advances while `e` exists. -/
lemma follow_execution {p : Viewed → ℕ → Pc} {q : Digest → Digest → Prop} {k : ℕ}
    (S : Serial codec s) (hc : c ∈ s.calls)
    (he : e ∈ s.store.db.executions) (reuses : c.Reuses e) (hash : q e.requestHash (c.hash codec))
    (pc : c.pc = p (viewed (record e)) k)
    (next : ∀ {u v : Sys} {d : Call} {f : ExecutionRow} {o : Oracle} {j : ℕ},
      Consistent u.store.db → f ∈ u.store.db.executions → d.Reuses f →
      q f.requestHash (d.hash codec) → d.pc = p (viewed (record f)) j → o.fate = .ok →
      o.pass = true → u.step codec d o = some v →
      ∃ d', d.Follows d' ∧ v.calls = u.calls.set d' ∧ d'.pc = p (viewed (record f)) (j + 1))
    (h : (system codec).Run s evs t') (served : ∀ ev ∈ evs, ev.isStepOf c.id = true → ev.Served)
    (hlast : ∃ e' ∈ t'.store.db.executions, e'.id = e.id) (hc' : c' ∈ t'.calls) (hid : c'.id = c.id) :
    c'.pc = p (viewed (record e)) (k + evs.countP (Event.isStepOf c.id)) := by
  refine (S.follow (P := fun j pc => pc = p (viewed (record e)) j)
    (R := fun store => ∃ e' ∈ store.db.executions, e'.id = e.id)
    (Q := fun ev => ev.isStepOf c.id = true → ev.Served) hc pc (S.execution_back he) ?_ h hlast
    served c' hc' hid).2
  intro j u v d o U hd f x hR hP hok hstep d' hd' hid
  obtain ⟨g, hg, hgid⟩ := hR
  have same := (x.execution S.good U.good he hg hgid).toSame
  have hview : viewed (record g) = viewed (record e) := viewed_same same
  have hserved : o.fate = .ok ∧ o.pass = true := by
    apply hok
    simp only [Event.isStepOf, f.id, decide_true]
  have hdstep := Sys.next_step hd hstep.2
  obtain ⟨d₁, f₁, hcalls, hpc⟩ := next U.good.consistent hg
    ⟨(same.owner.trans reuses.owner).trans f.owner.symm,
      (same.operation.trans reuses.operation).trans f.operationId.symm⟩
    (by rw [same.requestHash, f.hash]; exact hash) (by rw [hP, hview]) hserved.1 hserved.2 hdstep
  rw [hcalls] at hd'
  rcases (Table.mem_set hd f₁.id).mp hd' with rfl | ⟨-, hne⟩
  · rw [hpc, hview]
  · exact absurd (hid.trans f₁.id.symm) hne

/-- The places of a request whose operation is withdrawn, in a run. -/
lemma follow_withdrawn (S : Serial codec s) (injective : Function.Injective codec.operationHash)
    (hc : c ∈ s.calls) (w : Withdrawn s c.owner c.operationId (c.hash codec) i)
    (refusing : c.pc.refusing = true) (h : (system codec).Run s evs t') (hc' : c' ∈ t'.calls)
    (hid : c'.id = c.id) :
    c'.pc.refusing = true ∧ min 8 (c.pc.rank + evs.countP (Event.isStepOf c.id)) ≤ c'.pc.rank := by
  refine (S.follow (P := fun j p => p.refusing = true ∧ min 8 j ≤ p.rank) (R := fun _ => True)
    (Q := fun _ => True) hc ⟨refusing, min_le_right _ _⟩ (fun _ _ _ _ _ => trivial) ?_ h trivial
    (fun _ _ => trivial) c' hc' hid).2
  rintro j u v d o U hd f x - ⟨href, hrank⟩ - hstep d' hd' hid
  have hw : Withdrawn u d.owner d.operationId (d.hash codec) i := by
    obtain ⟨hi, hrest⟩ := mem_attempts.mp w.mem
    refine ⟨mem_attempts.mpr ⟨x.issued i hi, ?_⟩, w.deleted.evolves x.evolves⟩
    rwa [f.owner, f.operationId, f.hash]
  obtain ⟨-, d₁, f₁, hcalls, href₁, hlt⟩ :=
    U.step_withdrawn injective hd hw href hstep.1 (Sys.next_step hd hstep.2)
  rw [hcalls] at hd'
  rcases (Table.mem_set hd f₁.id).mp hd' with rfl | ⟨-, hne⟩
  · refine ⟨href₁, ?_⟩
    omega
  · exact absurd (hid.trans f₁.id.symm) hne

end Serial

/-- Submission is exactly once. -/
theorem reachable_exactlyOnce (injective : Function.Injective codec.operationHash)
    (h : (system codec).Reachable s) : ExactlyOnce codec s := by
  have S := reachable_serial h
  refine ⟨?_, ?_, ?_, ?_, ?_, ?_⟩
  · intro owner operationId hash
    apply length_le_one (S.good.issued.nodup.filter _)
    intro i hi j hj
    exact S.attempt_one injective hi hj
  · intro owner operationId hash
    apply length_le_one (S.once.filter _)
    intro x hx y hy
    obtain ⟨i, hi, hix⟩ := List.any_eq_true.mp (List.mem_filter.mp hx).2
    obtain ⟨j, hj, hjy⟩ := List.any_eq_true.mp (List.mem_filter.mp hy).2
    have hix := of_decide_eq_true hix
    rw [S.attempt_one injective hi hj, of_decide_eq_true hjy] at hix
    exact (Option.some.inj hix).symm
  · intro c hc e he reuses
    rw [Bool.eq_false_iff]
    intro hseek
    exact (S.sound c hc).absent hseek e he ⟨reuses.owner, reuses.operation⟩
  · intro c hc e he reuses hash k pc evs t hrun served hlast c' hc' hid
    refine S.follow_execution (p := replayPc) (q := Eq) hc he reuses hash pc ?_ hrun served hlast
      hc' hid
    intro u v d f o j C hf hreuse hhash hpc hfate hpass hstep
    exact Sys.step_replay C hf hreuse.owner hreuse.operation hhash hpc hfate hpass hstep
  · intro c hc e he reuses hash k pc
    constructor
    · intro o t hstep
      have hrefusing : c.pc.refusing = true := by
        rw [pc]
        exact conflictPc_refusing k
      rcases Sys.step_store hrefusing hstep with hsame | ⟨t, hbegin, -⟩
      · exact hsame
      · rw [pc] at hbegin
        match k with
        | 0 => cases hbegin
        | 1 => cases hbegin
        | k + 2 => cases hbegin
    · intro evs t hrun served hlast c' hc' hid
      refine S.follow_execution (p := fun _ => conflictPc) (q := Ne) hc he reuses hash pc ?_ hrun
        served hlast hc' hid
      intro u v d f o j C hf hreuse hhash hpc hfate hpass hstep
      exact Sys.step_conflict C hf hreuse.owner hreuse.operation hhash hpc hfate hpass hstep
  · intro c hc i w refusing
    constructor
    · intro o t fresh hstep
      exact (S.step_withdrawn injective hc w refusing fresh hstep).1
    · intro evs t hrun c' hc' hid
      obtain ⟨href, hrank⟩ := S.follow_withdrawn injective hc w refusing hrun hc' hid
      refine ⟨href, fun hlast => Pc.refused href ?_⟩
      omega

/-! ### Concrete runs -/

def textField (text : String) : List ℕ := text.toList.map Char.toNat

/-- The fields of a request document. -/
def payloadFields : OperationPayload → List (List ℕ)
  | .create kind q => [[0], [kind.ctorIdx], textField q]
  | .attempt q revision => [[1], textField q, [revision]]
  | .resume revision => [[2], [revision]]
  | .requery kind sourceId turnId => [[3], [kind.ctorIdx], [sourceId], turnId.toList]
  | .submitExecution mode historyId q context record =>
    [[4], [mode.ctorIdx], [historyId], (q.map textField).elim [] (fun x => 0 :: x), context.toList,
      record.toList]
  | .requeryExecution kind sourceId turnId => [[5], [kind.ctorIdx], [sourceId], turnId.toList]

/-- A codec whose digest numbers the documents. -/
def numberingCodec : Codec where
  operationHash p := Encodable.encode (payloadFields p)
  questionSha256 q := q.length
  publicSnapshot s := .ok s
  decodeQueryState _ := .ok ()

lemma textField_injective : Function.Injective textField := by
  intro q r h
  have hchars := List.map_injective_iff.mpr (fun a b hab => Char.toNat_inj.mp hab) h
  exact String.toList_inj.mp hchars

lemma optionField_injective {α : Type} {q r : Option α} (h : q.toList = r.toList) : q = r := by
  cases q <;> cases r <;> simp_all

lemma numberingCodec_injective : Function.Injective numberingCodec.operationHash := by
  intro p q h
  have hfields : payloadFields p = payloadFields q := Encodable.encode_injective h
  have hkind : ∀ k l : HistoryKind, k.ctorIdx = l.ctorIdx → k = l := by
    intro k l h
    cases k <;> cases l <;> first | rfl | cases h
  have hsource : ∀ k l : SourceKind, k.ctorIdx = l.ctorIdx → k = l := by
    intro k l h
    cases k <;> cases l <;> first | rfl | cases h
  have hquestion : ∀ q r : Option String, (q.map textField).elim [] (fun x => 0 :: x) =
      (r.map textField).elim [] (fun x => 0 :: x) → q = r := by
    intro q r h
    cases q <;> cases r <;> simp_all [textField_injective.eq_iff]
  cases p <;> cases q <;> simp [payloadFields, -Option.elim_map] at hfields
  case create.create => rw [hkind _ _ hfields.1, textField_injective hfields.2]
  case attempt.attempt => rw [textField_injective hfields.1, hfields.2]
  case resume.resume => rw [hfields]
  case requery.requery =>
    rw [hsource _ _ hfields.1, hfields.2.1, optionField_injective hfields.2.2]
  case submitExecution.submitExecution =>
    rw [hkind _ _ hfields.1, hfields.2.1, hquestion _ _ hfields.2.2.1,
      optionField_injective hfields.2.2.2.1, optionField_injective hfields.2.2.2.2]
  case requeryExecution.requeryExecution =>
    rw [hsource _ _ hfields.1, hfields.2.1, optionField_injective hfields.2.2]

/-- An execution is submitted, dispatched and finished; a re-query of its history is about to
begin and its submission is called again. -/
def resubmitted : List Event :=
  [.restart 1 70, .other (.create 2 5 .query "q" 10 20 21) .ok,
    .call 5 "s" "r" 11 (.submit 20 .query (some "q") (some 0) none)] ++
  List.replicate 8 (.step 0 { turnId := 30, executionId := 40, now := 3 }) ++
  List.replicate 9 (.step 0 {}) ++
  [.workStart 0, .work 0 .markRunning { now := 4 },
    .work 0 (.finish none (some ⟨"r", .databaseError, "x"⟩)) { now := 5 }, .workReturn 0,
    .drop 0 .capacity, .drop 0 .history, .drop 0 .channel, .drop 0 .control,
    .call 5 "s" "r" 12 (.requery .history 20 none)] ++
  List.replicate 7 (.step 1 { newId := 22 }) ++
  [.call 5 "s" "r" 11 (.submit 20 .query (some "q") (some 0) none)]

theorem reachable_exactlyOnce_resubmitted :
    ∃ s, Sys.after numberingCodec {} resubmitted = some s ∧ s.dispatched = [40] ∧
      ExactlyOnce numberingCodec s := by
  have hrun : (Sys.after numberingCodec {} resubmitted).map Sys.dispatched = some [40] := by
    decide +kernel
  obtain ⟨s, hs, hdispatched⟩ := Option.map_eq_some_iff.mp hrun
  exact ⟨s, hs, hdispatched,
    reachable_exactlyOnce numberingCodec_injective (Sys.after_reachable hs)⟩

/-- The re-query holds the row of the history when the replay reconciles it: the replay ends
with `HISTORY_BUSY` although the execution exists and no store call fails. -/
theorem replay_of_locked_history :
    ∃ s t c e c', (system numberingCodec).Reachable s ∧ c ∈ s.calls ∧
      e ∈ s.store.db.executions ∧ c.Reuses e ∧ e.requestHash = c.hash numberingCodec ∧
      c.pc = replayPc (viewed (record e)) 0 ∧
      (system numberingCodec).Run s
        [.step 2 {}, .step 2 {}, .step 2 {}, .step 2 { fate := .locked }] t ∧
      (∃ e' ∈ t.store.db.executions, e'.id = e.id) ∧ c' ∈ t.calls ∧ c'.id = c.id ∧
      c'.pc = .done (.error (.history busy)) := by
  have hrun : (Sys.after numberingCodec {} resubmitted).any (fun s => (s.after numberingCodec
      [.step 2 {}, .step 2 {}, .step 2 {}, .step 2 { fate := .locked }]).any (fun t =>
        decide (∃ c ∈ s.calls, ∃ e ∈ s.store.db.executions, e.ownerUserId = c.owner ∧
          e.operationId = c.operationId ∧ e.requestHash = c.hash numberingCodec ∧
          c.pc = replayPc (viewed (record e)) 0 ∧ (∃ e' ∈ t.store.db.executions, e'.id = e.id) ∧
          ∃ c' ∈ t.calls, c'.id = c.id ∧ c'.pc = .done (.error (.history busy))))) = true := by
    decide +kernel
  obtain ⟨s, hs, hrest⟩ := (Option.any_eq_true _ _).mp hrun
  obtain ⟨t, ht, hcalls⟩ := (Option.any_eq_true _ _).mp hrest
  obtain ⟨c, hc, e, he, howner, hop, hhash, hpc, he', c', hc', hid, hbusy⟩ :=
    of_decide_eq_true hcalls
  exact ⟨s, t, c, e, c', Sys.after_reachable hs, hc, he, ⟨howner, hop⟩, hhash, hpc,
    Sys.after_run ht, he', hc', hid, hbusy⟩

end ChatBI.Execution
