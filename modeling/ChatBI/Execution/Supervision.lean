import ChatBI.Execution.ExactlyOnce
import ChatBI.Execution.Leases
import ChatBI.Store.Invariants

/-!
# The lease of running work

From the moment the work of a request was accepted until it returns, its lease is its own as
long as no call of the view that follows the dispatch raises: the exception handler of the
request would release the lease of the work that is running.
-/

namespace ChatBI.Execution

open ChatBI.Lib ChatBI.Store

/-- The calls of a view step to the store and to the authorization do not raise. -/
def Sys.viewAnswered (s : Sys) (c : Call) (v : Viewed) (o : Oracle) : ViewStage → Bool
  | .header => o.pass && (s.ask o.fate (historyHeader o.now c.owner v.historyId)).isOk
  | .reconcile => !(o.pass && decide (v.historyId ∉ s.runtime.running) && decide (o.fate = .locked))
  | .headerAgain => (s.ask o.fate (historyHeader o.now c.owner v.historyId)).isOk
  | .turn => o.pass && (s.ask o.fate (historyTurn c.owner v.historyId v.turnId)).isOk
  | .execution => (s.ask o.fate (execution c.owner v.executionId)).isOk

/-- The next step of the call does not raise, if it is a view step. -/
def Sys.answered (s : Sys) (c : Call) (o : Oracle) : Bool :=
  match c.pc with
  | .view v stage => s.viewAnswered c v o stage
  | _ => true

/-- No view step of a request raises while the work of the request is accepted and has not
returned. -/
def ViewsAnswered (s : Sys) : Event → Prop
  | .step callId o => ∀ c ∈ s.calls, c.id = callId → c.working = true → s.answered c o = true
  | _ => True

instance (s : Sys) (ev : Event) : Decidable (ViewsAnswered s ev) :=
  match ev with
  | .step callId o => inferInstanceAs
      (Decidable (∀ c ∈ s.calls, c.id = callId → c.working = true → s.answered c o = true))
  | .call .. | .workStart .. | .work .. | .workReturn .. | .drop .. | .read .. | .other ..
  | .closeAdmission | .restart .. => inferInstanceAs (Decidable True)

/-- The lease that the work of a call runs under: nobody has released it and every part is
held. -/
structure LeaseHeld (s : Sys) (c : Call) (l : Lease) : Prop where
  own : l.released = false
  account : 0 < s.runtime.activeByUser c.owner
  capacity : 0 < s.runtime.activeTotal
  history : l.historyId ∈ s.runtime.running
  analysis : ∀ run, l.analysisRunId = some run → (c.subject, run) ∈ s.runtime.analyses
  channel : ∀ a, c.accepted = some a → s.runtime.channels a.executionId = some c.id
  control : ∀ a, c.accepted = some a → s.runtime.controls a.executionId = some c.id

structure Supervised (codec : Codec) (s : Sys) : Prop where
  held : ∀ c ∈ s.calls, c.working = true → ∃ l, c.lease = some l ∧ LeaseHeld s c l
  total : (s.calls.select Call.working).length ≤ s.runtime.activeTotal
  byUser : ∀ owner, (s.calls.select (fun c => c.owner = owner && c.working)).length ≤
    s.runtime.activeByUser owner
  confirmed : ∀ c ∈ s.calls, c.working = true → ∀ a, c.accepted = some a → ∀ historyId o,
    ∀ r ∈ s.store.db.turns, r.token = a.token → r ∈ (s.reconcile codec historyId o).db.turns

variable {codec : Codec} {s t' : Sys} {c : Call} {o : Oracle} {l : Lease}

/-- The work of a call runs under the whole lease of its execution. -/
def Call.Manned (c : Call) : Prop :=
  c.working = true → ∃ l a, c.lease = some l ∧ l.First 5 ∧ c.accepted = some a ∧
    l.executionId = some a.executionId

/-- A view step that does not raise leaves the lease alone. -/
lemma Sys.view_answered {v : Viewed} {stage : ViewStage}
    (answered : s.viewAnswered c v o stage = true) :
    ∃ d, d.id = c.id ∧ (s.view codec c v o stage).calls = s.calls.set d ∧ d.lease = c.lease ∧
      d.accepted = c.accepted := by
  have hok : ∀ {α : Type} {x : Except Raised α}, x.isOk = true → ∃ a, x = .ok a := by
    intro α x hx
    cases x with
    | error e => cases hx
    | ok a => exact ⟨a, rfl⟩
  have hmoved : ∀ pc : Pc, ∃ d, d.id = c.id ∧ s.calls.set { c with pc := pc } = s.calls.set d ∧
      d.lease = c.lease ∧ d.accepted = c.accepted :=
    fun pc => ⟨{ c with pc := pc }, rfl, rfl, rfl, rfl⟩
  cases stage with
  | header =>
    obtain ⟨hpass, hask⟩ := Bool.and_eq_true_iff.mp answered
    obtain ⟨h, hh⟩ := hok hask
    rw [Sys.view, if_neg (by rw [hpass]; exact Bool.noConfusion), hh]
    exact hmoved _
  | reconcile =>
    have hlocked : ¬(o.pass = true ∧ v.historyId ∉ s.runtime.running ∧ o.fate = .locked) := by
      rintro ⟨hpass, hrunning, hfate⟩
      simp [viewAnswered, hpass, hrunning, hfate] at answered
    rw [Sys.view, if_neg hlocked]
    exact hmoved _
  | headerAgain =>
    obtain ⟨h, hh⟩ := hok answered
    rw [Sys.view, hh]
    exact hmoved _
  | turn =>
    obtain ⟨hpass, hask⟩ := Bool.and_eq_true_iff.mp answered
    obtain ⟨h, hh⟩ := hok hask
    rw [Sys.view, if_neg (by rw [hpass]; exact Bool.noConfusion), hh]
    exact hmoved _
  | execution =>
    obtain ⟨r, hr⟩ := hok answered
    rw [Sys.view, hr]
    exact hmoved _

/-- Only the dispatch starts work. -/
lemma Stepped.worker (h : Stepped codec s c o t') :
    ∃ d, d.id = c.id ∧ t'.calls = s.calls.set d ∧ (d.worker = c.worker ∨
      ∃ a, c.pc = .dispatch a ∧ d.lease = c.lease.map Lease.submit ∧ d.accepted = c.accepted) := by
  cases h with
  | @dispatch a pc =>
    refine ⟨_, ?_, rfl, .inr ⟨a, pc, rfl, rfl⟩⟩
    rfl
  | _ =>
    refine ⟨_, ?_, rfl, .inl ?_⟩
    · rfl
    · rfl

/-- The invariant of the runs in which no view raises while its work runs. -/
structure Staffed (codec : Codec) (s : Sys) : Prop where
  serial : Serial codec s
  leased : Leased s
  manned : ∀ c ∈ s.calls, c.Manned

namespace Staffed

/-- A step of a thread whose work runs is a view step, and other steps start work under the
whole lease. -/
lemma manned_step (I : Staffed codec s) (hc : c ∈ s.calls)
    (answered : c.working = true → s.answered c o = true)
    (hs : s.step codec c o = some t') (h : Stepped codec s c o t') : ∀ d ∈ t'.calls, d.Manned := by
  have S := I.leased.staged c hc
  have hset : ∀ d, d.id = c.id → t'.calls = s.calls.set d → d.Manned → ∀ e ∈ t'.calls, e.Manned := by
    intro d hid hcalls hd e he
    rw [hcalls] at he
    rcases (Table.mem_set hc hid).mp he with rfl | ⟨he, -⟩
    · exact hd
    · exact I.manned e he
  cases hwas : c.working with
  | true =>
    obtain ⟨l, a, hl, hfirst, ha, hexec⟩ := I.manned c hc hwas
    have hview : ∃ v stage, c.pc = .view v stage := by
      have hanswering : c.pc.answering = true := by
        rw [← Bool.not_eq_false]
        intro hnot
        rw [Call.working, S.unstarted hnot] at hwas
        cases hwas
      cases hpc : c.pc with
      | view v stage => exact ⟨v, stage, rfl⟩
      | done answer =>
        rw [Sys.step, hpc] at hs
        cases hs
      | _ =>
        rw [hpc] at hanswering
        cases hanswering
    obtain ⟨v, stage, hpc⟩ := hview
    have hanswered := answered hwas
    rw [Sys.answered, hpc] at hanswered
    rw [Sys.step, hpc, Option.some.injEq] at hs
    obtain ⟨d, hid, hcalls, hlease, haccepted⟩ := @Sys.view_answered codec s c o v stage hanswered
    rw [hs] at hcalls
    exact hset d hid hcalls (fun _ => ⟨l, a, hlease.trans hl, hfirst, haccepted.trans ha, hexec⟩)
  | false =>
    obtain ⟨d, hid, hcalls, hworker⟩ := h.worker
    refine hset d hid hcalls (fun hworking => ?_)
    rcases hworker with hsame | ⟨a, pc, hlease, haccepted⟩
    · rw [Call.working, hsame] at hworking
      rw [Call.working, hworking] at hwas
      cases hwas
    · obtain ⟨l, hl, hfirst⟩ := S.parts 5 (by rw [pc]; rfl)
      have ha := (I.serial.sound c hc).begun a (by rw [pc]; rfl)
      have hexec := S.serves a (by rw [pc]; rfl) l hl
      rw [hl, Option.map_some] at hlease
      exact ⟨l.submit, a, hlease, ⟨hfirst.own, hfirst.held, hfirst.free⟩, haccepted.trans ha, hexec⟩

lemma init (h : (system codec).init s) : Staffed codec s := by
  refine ⟨.init h, .init h, ?_⟩
  obtain ⟨maxPerUser, maxTotal, rfl⟩ := h
  exact fun c hc => absurd hc (Table.not_mem_empty c)

/-- Every event keeps running work under its whole lease. -/
theorem step (I : Staffed codec s) {ev : Event} (answered : ViewsAnswered s ev)
    (h : (system codec).step s ev t') : Staffed codec t' := by
  have hmoved := Sys.next_cases I.serial.grounded h.1 h.2
  refine ⟨I.serial.moved hmoved, I.leased.moved I.serial hmoved, ?_⟩
  have hset : ∀ c ∈ s.calls, ∀ d, d.id = c.id → d.Manned → ∀ e ∈ s.calls.set d, e.Manned := by
    intro c hc d hid hd e he
    rcases (Table.mem_set hc hid).mp he with rfl | ⟨he, -⟩
    · exact hd
    · exact I.manned e he
  cases hmoved with
  | call id pc lease accepted worker rows =>
    intro d hd
    rcases (Table.mem_of_rows_append rows).mp hd with hd | rfl
    · exact I.manned d hd
    · intro hworking
      rw [Call.working, worker] at hworking
      cases hworking
  | @thread c o t event mem fresh step =>
    subst event
    exact I.manned_step mem (answered c mem rfl) (Sys.next_step mem h.2) step
  | store call => exact I.manned
  | @workStart c mem queued =>
    refine hset c mem _ ?_ (fun _ => ?_)
    · rfl
    · have hworking : c.working = true := by
        rw [Call.working, queued]
        rfl
      exact I.manned c mem hworking
  | @workReturn c mem running =>
    refine hset c mem _ ?_ (fun hworking => ?_)
    · rfl
    · cases hworking
  | @drop c l p mem lease released held =>
    refine hset c mem _ ?_ (fun hworking => ?_)
    · rfl
    · obtain ⟨m, a, hm, hfirst, -⟩ := I.manned c mem hworking
      rw [lease, Option.some.injEq] at hm
      rw [hm, hfirst.own] at released
      cases released
  | close => exact I.manned
  | restart => exact fun c hc => absurd hc (Table.not_mem_empty c)

lemma lease_held (I : Staffed codec s) (hc : c ∈ s.calls) (working : c.working = true) :
    ∃ l, c.lease = some l ∧ LeaseHeld s c l := by
  obtain ⟨l, a, hl, hfirst, ha, hexec⟩ := I.manned c hc working
  have L := I.leased
  have hheld : ∀ p, p ≠ .analysis → l.held p = true := by
    intro p hp
    rcases hfirst.held p (by cases p <;> decide) with hheld | ⟨hanalysis, -⟩
    · exact hheld
    · exact absurd hanalysis hp
  have hcapacity : c.holdsCapacity = true := by
    rw [Call.holdsCapacity, hl]
    exact hheld .capacity (by decide)
  have hexecution : ∀ b, c.accepted = some b → l.executionId = some b.executionId := by
    intro b hb
    rw [ha, Option.some.injEq] at hb
    rw [← hb]
    exact hexec
  refine ⟨l, hl, hfirst.own, ?_, ?_, ?_, ?_, ?_, ?_⟩
  · rw [L.byUser c.owner]
    apply List.length_pos_of_mem
    exact Table.mem_select.mpr ⟨hc, by simp [hcapacity]⟩
  · rw [L.total]
    exact List.length_pos_of_mem (Table.mem_select.mpr ⟨hc, hcapacity⟩)
  · apply L.histories.mem c hc
    rw [Call.history, hl]
    exact if_pos (hheld .history (by decide))
  · intro run hrun
    apply L.analyses.mem c hc
    rcases hfirst.held .analysis (by decide) with hheld | ⟨-, hnone⟩
    · rw [Call.analysis, hl, Option.bind_some, if_pos hheld, hrun]
      rfl
    · rw [hrun] at hnone
      cases hnone
  · intro b hb
    apply L.channels c hc
    rw [Call.channel, hl, Option.bind_some, if_pos (hheld .channel (by decide))]
    exact hexecution b hb
  · intro b hb
    apply L.controls c hc
    rw [Call.control, hl, Option.bind_some, if_pos (hheld .control (by decide))]
    exact hexecution b hb

/-- A reconciliation changes no turn of another history. -/
lemma reconcile_other (I : Staffed codec s) {historyId : Uuid} {r : TurnRow}
    (hr : r ∈ s.store.db.turns) (other : historyId ∈ s.runtime.running ∨ r.historyId ≠ historyId) :
    r ∈ (s.reconcile codec historyId o).db.turns := by
  unfold Sys.reconcile
  split_ifs with hskip
  · exact hr
  · have hne : r.historyId ≠ historyId := other.resolve_left (fun h => hskip (.inr h))
    have happly : r ∈ (s.store.apply codec (.reconcile o.now s.epoch historyId)).db.turns := by
      rcases @State.apply_answer codec s.store (.reconcile o.now s.epoch historyId) _ _ _ rfl with
        ⟨u, db, hok, happly⟩ | ⟨-, happly⟩
      · rw [happly]
        rcases reconcile_ok hok with rfl | ⟨h, hh, t, ht, hid, hactive, -, -, rfl⟩
        · exact hr
        · obtain ⟨t', ht', htid, active⟩ :=
            I.serial.good.consistent.active_turn h hh t.id hactive
          rw [Table.eq_of_key ht' ht htid] at active
          refine (Table.mem_set ht (by rfl)).mpr (.inr ⟨hr, fun heq => hne ?_⟩)
          rw [Table.eq_of_key hr ht heq, active.history, hid]
      · rw [happly]
        exact hr
    cases o.fate with
    | ok => exact happly
    | lost => exact happly
    | failed => exact hr
    | locked => exact hr

lemma supervised (I : Staffed codec s) : Supervised codec s := by
  have hcapacity : ∀ c ∈ s.calls, c.working = true → c.holdsCapacity = true := by
    intro c hc working
    obtain ⟨l, a, hl, hfirst, -⟩ := I.manned c hc working
    rcases hfirst.held .capacity (by decide) with hheld | ⟨h, -⟩
    · rw [Call.holdsCapacity, hl]
      exact hheld
    · cases h
  refine ⟨fun c hc => I.lease_held hc, I.leased.total.le hcapacity, fun owner => ?_, ?_⟩
  · apply (I.leased.byUser owner).le
    intro c hc h
    obtain ⟨howner, working⟩ := Bool.and_eq_true_iff.mp h
    exact Bool.and_eq_true_iff.mpr ⟨howner, hcapacity c hc working⟩
  · intro c hc working a ha historyId o r hr htoken
    apply I.reconcile_other hr
    obtain ⟨l, hl, held⟩ := I.lease_held hc working
    have hhist := (I.leased.staged c hc).accepted a ha l hl
    by_cases hid : r.historyId = historyId
    · left
      rw [← hid, show r.historyId = a.token.historyId from congrArg ExecutionToken.historyId htoken,
        ← hhist]
      exact held.history
    · exact .inr hid

end Staffed

/-- The lease of running work stays held in every run whose views do not raise while the work
of their request runs. -/
theorem reachable_supervised (h : ((system codec).restrict ViewsAnswered).Reachable s) :
    Supervised codec s := by
  have hstep : ∀ s ev t, Staffed codec s → ((system codec).restrict ViewsAnswered).step s ev t →
      Staffed codec t := fun s ev t I h => I.step h.1 h.2
  have I : Staffed codec s := h.invariant (fun _ h => .init h) hstep
  exact I.supervised

/-- A submission is dispatched and its work runs. -/
def dispatched : List Event :=
  [.restart 1 70, .other (.create 2 5 .query "q" 10 20 21) .ok,
    .call 5 "s" "r" 11 (.submit 20 .query (some "q") (some 0) none)] ++
  List.replicate 8 (.step 0 { turnId := 30, executionId := 40, now := 3 }) ++
  List.replicate 6 (.step 0 {}) ++ [.workStart 0, .work 0 .markRunning { now := 4 }]

theorem reachable_supervised_dispatched :
    ∃ s, (s.calls.select Call.working).length = 1 ∧ Supervised plainCodec s := by
  have hexec : (System.exec (Sys.next plainCodec)
      (fun s ev => decide (ViewsAnswered s ev) && decide (ev.WellFormed s)) {} dispatched).map
        (fun s => (s.calls.select Call.working).length) = some 1 := by
    decide +kernel
  obtain ⟨s, hs, hworking⟩ := Option.map_eq_some_iff.mp hexec
  refine ⟨s, hworking, reachable_supervised ⟨{}, dispatched, ⟨1, 4, rfl⟩, System.exec_run ?_ hs⟩⟩
  intro s ev t hok hnext
  obtain ⟨hanswered, hwf⟩ := Bool.and_eq_true_iff.mp hok
  exact ⟨of_decide_eq_true hanswered, of_decide_eq_true hwf, hnext⟩

/-- The first view call after the dispatch fails: the handler releases the lease of the running
work, its capacity and its history are given back, and a read of the history marks its turn as
unconfirmed. -/
theorem released_while_working :
    ∃ s, (system plainCodec).Reachable s ∧
      s.runtime.activeTotal < (s.calls.select Call.working).length ∧
      ∃ c ∈ s.calls, c.worker = some .running ∧ (∃ l, c.lease = some l ∧ l.released = true) ∧
      ∃ a, c.accepted = some a ∧ ∃ r ∈ s.store.db.turns, r.token = a.token ∧
        r.status = .unconfirmed := by
  have hexec : ((Sys.after plainCodec {} (dispatched.take 15 ++ [.workStart 0,
      .work 0 .markRunning { now := 4 }, .step 0 { fate := .failed }, .drop 0 .capacity,
      .drop 0 .history, .read 20 { now := 5 }])).any (fun s =>
        decide (s.runtime.activeTotal < (s.calls.select Call.working).length ∧
          ∃ c ∈ s.calls, c.worker = some .running ∧ c.lease.any Lease.released = true ∧
          ∃ r ∈ s.store.db.turns, c.accepted.map Accepted.token = some r.token ∧
            r.status = .unconfirmed))) = true := by
    decide +kernel
  obtain ⟨s, hs, hrest⟩ := (Option.any_eq_true _ _).mp hexec
  obtain ⟨htotal, c, hc, hworker, hlease, r, hr, htoken, hst⟩ := of_decide_eq_true hrest
  obtain ⟨l, hl, hreleased⟩ := (Option.any_eq_true _ _).mp hlease
  obtain ⟨a, ha, hatoken⟩ := Option.map_eq_some_iff.mp htoken
  exact ⟨s, Sys.after_reachable hs, htotal, c, hc, hworker, ⟨l, hl, hreleased⟩, a, ha, r, hr,
    hatoken.symm, hst⟩

end ChatBI.Execution
