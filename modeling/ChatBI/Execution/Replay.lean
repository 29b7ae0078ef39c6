import ChatBI.Execution.Serial
import ChatBI.Store.Lookup

/-!
# Replays

How the call of a replay advances. Only its own steps move it; while the execution of its
operation exists, each of them leads to the next store call and the last one to the answer.
-/

namespace ChatBI.Execution

open ChatBI.Lib ChatBI.Store

variable {codec : Codec} {s t' u : Sys} {c c' : Call} {o : Oracle} {ev : Event} {evs : List Event}

/-! ### The calls of a run -/

lemma Stepped.calls (h : Stepped codec s c o t') :
    ∃ c', c.Follows c' ∧ t'.calls = s.calls.set c' ∧ t'.nextCall = s.nextCall := by
  cases h <;>
  · refine ⟨_, ?_, rfl, rfl⟩
    exact ⟨rfl, rfl, rfl, rfl⟩

lemma Stepped.grows (h : Stepped codec s c o t') (g : Good s.store)
    (fits : ∀ t, c.pc.target = some t → c.request.Fits t) (fresh : s.store.Unused o.executionId) :
    Grows (c.Issues codec s.store) s.store t'.store := by
  cases h with
  | advance _ call => exact (call.grows g).mono (fun _ => .inl)
  | fail _ call => exact call.grows g fits fresh
  | @created t i store pc call =>
    have hcall : Called codec s c o store := by
      rw [call]
      exact .begin pc
    exact hcall.grows g fits fresh
  | _ => exact .same g

namespace Serial

lemma init (h : (system codec).init s) : Serial codec s := by
  obtain ⟨maxPerUser, maxTotal, rfl⟩ := h
  exact ⟨⟨.init, .init⟩, fun c hc => absurd hc (Table.not_mem_empty c),
    fun c hc => absurd hc (Table.not_mem_empty c), .empty, .empty,
    fun i hi => absurd hi List.not_mem_nil, fun x hx => absurd hx List.not_mem_nil, List.nodup_nil⟩

lemma step (S : Serial codec s) (h : (system codec).step s ev t') : Serial codec t' :=
  S.moved (Sys.next_cases S.grounded h.1 h.2)

/-- Other events leave the place of a call as it is. -/
lemma next_back (S : Serial codec s) (h : (system codec).step s ev t') :
    s.nextCall ≤ t'.nextCall ∧ ∀ c' ∈ t'.calls, c'.id < s.nextCall →
      ∃ c ∈ s.calls, c.Follows c' ∧ ((∀ o, ev ≠ .step c.id o) → c'.pc = c.pc) := by
  obtain ⟨hwf, hnext⟩ := h
  have hsame : ∀ c' ∈ s.calls, ∃ c ∈ s.calls, c.Follows c' ∧
      ((∀ o, ev ≠ .step c.id o) → c'.pc = c.pc) :=
    fun c' hc' => ⟨c', hc', ⟨rfl, rfl, rfl, rfl⟩, fun _ => rfl⟩
  have hset : ∀ d ∈ s.calls, ∀ d', d.Follows d' → ((∀ o, ev ≠ .step d.id o) → d'.pc = d.pc) →
      ∀ c' ∈ s.calls.set d', ∃ c ∈ s.calls, c.Follows c' ∧
        ((∀ o, ev ≠ .step c.id o) → c'.pc = c.pc) := by
    intro d hd d' f hpc c' hc'
    rcases (Table.mem_set hd f.id).mp hc' with rfl | ⟨hc', -⟩
    · exact ⟨d, hd, f, hpc⟩
    · exact hsame c' hc'
  cases Sys.next_cases S.grounded hwf hnext with
  | call id pc lease accepted worker rows =>
    refine ⟨Nat.le_succ _, fun c' hc' hlt => ?_⟩
    rcases (Table.mem_of_rows_append rows).mp hc' with hc' | rfl
    · exact hsame c' hc'
    · rw [id] at hlt
      exact absurd hlt (lt_irrefl _)
  | @thread d o t' event mem fresh step =>
    obtain ⟨d', f, hcalls, hcount⟩ := step.calls
    rw [hcalls, hcount]
    exact ⟨le_refl _, fun c' hc' _ => hset d mem d' f (fun hother => absurd event (hother o)) c' hc'⟩
  | store call => exact ⟨le_refl _, fun c' hc' _ => hsame c' hc'⟩
  | @workStart d mem queued =>
    refine ⟨le_refl _, fun c' hc' _ => hset d mem _ ?_ (fun _ => ?_) c' hc'⟩
    · exact ⟨rfl, rfl, rfl, rfl⟩
    · rfl
  | @workReturn d mem running =>
    refine ⟨le_refl _, fun c' hc' _ => hset d mem _ ?_ (fun _ => ?_) c' hc'⟩
    · exact ⟨rfl, rfl, rfl, rfl⟩
    · rfl
  | @drop d l p mem lease released held =>
    refine ⟨le_refl _, fun c' hc' _ => hset d mem _ ?_ (fun _ => ?_) c' hc'⟩
    · exact ⟨rfl, rfl, rfl, rfl⟩
    · rfl
  | close => exact ⟨le_refl _, fun c' hc' _ => hsame c' hc'⟩
  | restart => exact ⟨le_refl _, fun c' hc' _ => absurd hc' (Table.not_mem_empty c')⟩

lemma extend (S : Serial codec s) (h : (system codec).step s ev t') :
    Extends s.store t'.store := by
  cases Sys.next_cases S.grounded h.1 h.2 with
  | @thread d o t' event mem fresh step =>
    exact (step.grows S.good (S.sound d mem).fits fresh).extend
  | store call => exact (call.grows S.good).extend
  | restart now epoch =>
    have hwf : Op.WellFormed s.store (.restart now epoch) := trivial
    have hcall : Quietly codec s.store (s.store.apply codec (.restart now epoch)) := .op rfl hwf
    exact (hcall.grows S.good).extend
  | _ => exact .refl s.store

/-- The two ends of a run. -/
theorem run (S : Serial codec s) (h : (system codec).Run s evs t') :
    Serial codec t' ∧ Extends s.store t'.store ∧ s.nextCall ≤ t'.nextCall := by
  induction h with
  | nil => exact ⟨S, .refl _, le_refl _⟩
  | snoc _ hstep ih =>
    obtain ⟨St, x, hle⟩ := ih
    have hgrows := St.extend hstep
    exact ⟨St.step hstep, x.trans hgrows, hle.trans (St.next_back hstep).1⟩

end Serial

theorem reachable_serial (h : (system codec).Reachable s) : Serial codec s :=
  h.invariant (I := Serial codec) (fun _ h => .init h) (fun _ _ _ S hstep => S.step hstep)

/-- An event is a step of this thread. -/
def Event.isStepOf (callId : CallId) : Event → Bool
  | .step i _ => i = callId
  | _ => false

/-- The step of a thread by its event. -/
lemma Sys.next_step (hc : c ∈ s.calls) (h : s.next codec (.step c.id o) = some t') :
    s.step codec c o = some t' := by
  obtain ⟨d, hd, hstep⟩ := Option.bind_eq_some_iff.mp h
  obtain ⟨hd, hid⟩ := Table.find?_eq_some_iff.mp hd
  rwa [Table.eq_of_key hd hc hid] at hstep

/-- How a call advances in a run: its place is moved on by its own steps only. `R` holds of
every store of the run when it holds of the last one. -/
theorem Serial.follow {P : ℕ → Pc → Prop} {R : State → Prop} {Q : Event → Prop} (S : Serial codec s)
    (hc : c ∈ s.calls) {k : ℕ} (start : P k c.pc)
    (back : ∀ {u v : Sys}, Serial codec u → Serial codec v → Extends s.store u.store →
      Extends u.store v.store → R v.store → R u.store)
    (own : ∀ {j : ℕ} {u v : Sys} {d : Call} {o : Oracle}, Serial codec u → d ∈ u.calls → c.Follows d →
      Extends s.store u.store → R u.store → P j d.pc → Q (.step d.id o) →
      (system codec).step u (.step d.id o) v → ∀ d' ∈ v.calls, d'.id = d.id → P (j + 1) d'.pc)
    (h : (system codec).Run s evs t') (hR : R t'.store) (hok : ∀ ev ∈ evs, Q ev) :
    ∀ c' ∈ t'.calls, c'.id = c.id →
      c.Follows c' ∧ P (k + evs.countP (Event.isStepOf c.id)) c'.pc := by
  induction h with
  | nil =>
    intro c' hc' hid
    rw [Table.eq_of_key hc' hc hid]
    exact ⟨⟨rfl, rfl, rfl, rfl⟩, start⟩
  | @snoc t u evs ev hrun hstep ih =>
    obtain ⟨St, x, hle⟩ := S.run hrun
    have hRt : R t.store := back St (St.step hstep) x (St.extend hstep) hR
    have hevs : ∀ e ∈ evs, Q e := fun e he => hok e (List.mem_append_left _ he)
    intro c' hc' hid
    obtain ⟨-, hback⟩ := St.next_back hstep
    obtain ⟨d, hd, f, hother⟩ := hback c' hc' (by rw [hid]; exact lt_of_lt_of_le (S.bounded c hc) hle)
    have hdid : d.id = c.id := f.id.symm.trans hid
    obtain ⟨fd, hP⟩ := ih hRt hevs d hd hdid
    have fc : c.Follows c' := ⟨hid, f.owner.trans fd.owner, f.operationId.trans fd.operationId,
      f.request.trans fd.request⟩
    refine ⟨fc, ?_⟩
    rw [List.countP_append, ← hdid]
    by_cases hev : ∃ o, ev = .step d.id o
    · obtain ⟨o, rfl⟩ := hev
      have hcount : List.countP (Event.isStepOf d.id) [Event.step d.id o] = 1 := by
        simp [Event.isStepOf]
      have hthis : Q (.step d.id o) :=
        hok _ (List.mem_append_right _ (List.mem_singleton.mpr rfl))
      rw [hcount, ← Nat.add_assoc, hdid]
      exact own St hd fd x hRt hP hthis hstep c' hc' f.id
    · have hne : ∀ o, ev ≠ .step d.id o := fun o ho => hev ⟨o, ho⟩
      have hcount : List.countP (Event.isStepOf d.id) [ev] = 0 := by
        rw [List.countP_eq_zero]
        intro e he
        rw [List.mem_singleton.mp he]
        cases ev with
        | step i o =>
          simp only [Event.isStepOf, decide_eq_true_eq]
          rintro rfl
          exact hne o rfl
        | _ => exact Bool.false_ne_true
      rw [hcount, Nat.add_zero, hother hne, hdid]
      exact hP

/-! ### The places of a replay -/

/-- The places of a request that finds the execution of its operation, in their order. -/
def replayPc (v : Viewed) : ℕ → Pc
  | 0 => .waiting
  | 1 => .lookup
  | 2 => .view v .header
  | 3 => .view v .reconcile
  | 4 => .view v .headerAgain
  | 5 => .view v .turn
  | 6 => .view v .execution
  | _ => .done (.ok v.executionId)

lemma viewed_same {e e' : ExecutionRow} (same : e.Same e') :
    viewed (record e') = viewed (record e) := by
  simp only [viewed, record, same.id, same.history, same.turn]

/-- A step of a replay whose store calls are answered leads to its next place. -/
lemma Sys.step_replay {e : ExecutionRow} {k : ℕ} (C : Consistent s.store.db)
    (he : e ∈ s.store.db.executions) (owner : e.ownerUserId = c.owner)
    (operation : e.operationId = c.operationId) (hash : e.requestHash = c.hash codec)
    (pc : c.pc = replayPc (viewed (record e)) k) (fate : o.fate = .ok) (pass : o.pass = true)
    (h : s.step codec c o = some t') :
    ∃ d, c.Follows d ∧ t'.calls = s.calls.set d ∧ d.pc = replayPc (viewed (record e)) (k + 1) := by
  have hput : ∀ {d : Call}, c.Follows d → d.pc = replayPc (viewed (record e)) (k + 1) →
      ∃ d', c.Follows d' ∧ (s.put d).calls = s.calls.set d' ∧
        d'.pc = replayPc (viewed (record e)) (k + 1) :=
    fun {d} f hd => ⟨d, f, rfl, hd⟩
  have hsame : ∀ {pc' : Pc}, c.Follows { c with pc := pc' } := ⟨rfl, rfl, rfl, rfl⟩
  unfold Sys.step at h
  match k with
  | 0 =>
    simp only [pc, replayPc, Sys.enter, pass] at h
    split_ifs at h with hlock
    cases h
    exact ⟨{ c with pc := .lookup }, hsame, rfl, rfl⟩
  | 1 =>
    simp only [pc, replayPc, Option.some.injEq] at h
    have hfind := C.executionByOperation_eq he (c.hash codec)
    rw [if_pos hash.symm, owner, operation] at hfind
    rw [← h, Sys.lookup, fate, Sys.ask_ok hfind]
    exact hput hsame rfl
  | 2 =>
    obtain ⟨x, hx⟩ := C.historyHeader_ok he o.now
    rw [owner] at hx
    have hask : s.ask .ok (historyHeader o.now c.owner (viewed (record e)).historyId) = .ok x :=
      Sys.ask_ok hx
    simp only [pc, replayPc, Option.some.injEq] at h
    rw [← h, Sys.view, if_neg (by rw [pass]; exact Bool.noConfusion), fate, hask]
    exact hput hsame rfl
  | 3 =>
    simp only [pc, replayPc, Option.some.injEq] at h
    rw [← h, Sys.view, if_neg (fun hlock => by rw [fate] at hlock; cases hlock.2.2)]
    exact ⟨_, hsame, rfl, rfl⟩
  | 4 =>
    obtain ⟨x, hx⟩ := C.historyHeader_ok he o.now
    rw [owner] at hx
    have hask : s.ask .ok (historyHeader o.now c.owner (viewed (record e)).historyId) = .ok x :=
      Sys.ask_ok hx
    simp only [pc, replayPc, Option.some.injEq] at h
    rw [← h, Sys.view, fate, hask]
    exact hput hsame rfl
  | 5 =>
    obtain ⟨x, hx⟩ := C.historyTurn_ok he
    rw [owner] at hx
    have hask : s.ask .ok (historyTurn c.owner (viewed (record e)).historyId
        (viewed (record e)).turnId) = .ok x := Sys.ask_ok hx
    simp only [pc, replayPc, Option.some.injEq] at h
    rw [← h, Sys.view, if_neg (by rw [pass]; exact Bool.noConfusion), fate, hask]
    exact hput hsame rfl
  | 6 =>
    have hx := execution_ok he
    rw [owner] at hx
    have hask : s.ask .ok (execution c.owner (viewed (record e)).executionId) = .ok (record e) :=
      Sys.ask_ok hx
    simp only [pc, replayPc, Option.some.injEq] at h
    rw [← h, Sys.view, fate, hask]
    exact ⟨{ c with pc := .done (.ok e.id) }, hsame, rfl, rfl⟩
  | k + 7 =>
    simp only [pc, replayPc] at h
    cases h

end ChatBI.Execution
