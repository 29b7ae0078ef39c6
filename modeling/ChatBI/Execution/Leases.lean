import ChatBI.Execution.Replay

/-!
# Leases

The invariant of the shared resources: the counters, the running histories and analysis runs,
the channels and the stop controls are those of the leases that the calls hold. A thread that
has not dispatched its work holds the parts it has reserved so far.
-/

namespace ChatBI.Execution

open ChatBI.Lib ChatBI.Store

/-- The order in which a request reserves the parts of its lease. -/
def Part.index : Part → ℕ
  | .capacity => 0
  | .history => 1
  | .analysis => 2
  | .channel => 3
  | .control => 4

/-- The lease is its owner's own and holds exactly its first `n` parts; it holds no analysis
run when it has none. -/
structure Lease.First (l : Lease) (n : ℕ) : Prop where
  own : l.released = false
  held : ∀ p : Part, p.index < n → l.held p = true ∨ p = .analysis ∧ l.analysisRunId = none
  free : ∀ p : Part, n ≤ p.index → l.held p = false

/-- The number of parts that a thread holds at a place before its work is dispatched. -/
def Pc.parts : Pc → Option ℕ
  | .reserveHistory _ => some 1
  | .reserveAnalysis _ => some 2
  | .reserveAdmission _ | .begin _ | .attach _ => some 3
  | .read _ | .bind _ => some 4
  | .dispatch _ => some 5
  | _ => none

lemma Part.index_injective : Function.Injective Part.index := by
  intro p q h
  cases p <;> cases q <;> first | rfl | cases h

/-- The thread has no lease yet. -/
def Pc.leaseless : Pc → Bool
  | .waiting | .lookup | .header | .reserve _ => true
  | _ => false

/-- The thread only reads or has ended. -/
def Pc.answering : Pc → Bool
  | .view .. | .done _ => true
  | _ => false

/-- The thread has no lease of its own to build: it answers or gives an attempt up. -/
def Pc.loose : Pc → Bool
  | .persistFailure _ | .persistStop .. | .finishStop .. => true
  | pc => pc.answering

/-- The thread has not begun an attempt. -/
def Pc.unbegun : Pc → Bool
  | .waiting | .lookup => true
  | pc => pc.seeking

/-- The attempt that the lease is bound to. -/
def Pc.serving : Pc → Option Accepted
  | .read a | .bind a | .dispatch a => some a
  | _ => none

/-! ### What a call holds -/

namespace Call

variable (c : Call)

def holdsCapacity : Bool := c.lease.any (fun l => l.held .capacity)

def history : Option Uuid := c.lease.bind (fun l => if l.held .history then some l.historyId else none)

def analysis : Option (String × Uuid) :=
  c.lease.bind (fun l => if l.held .analysis then l.analysisRunId.map (fun x => (c.subject, x)) else none)

def channel : Option Uuid := c.lease.bind (fun l => if l.held .channel then l.executionId else none)

def control : Option Uuid := c.lease.bind (fun l => if l.held .control then l.executionId else none)

end Call

/-- The lease of a call at its place. -/
structure Call.Staged (c : Call) : Prop where
  leaseless : c.pc.leaseless = true → c.lease = none
  parts : ∀ n, c.pc.parts = some n → ∃ l, c.lease = some l ∧ l.First n
  target : ∀ t, c.pc.target = some t → ∀ l, c.lease = some l →
    l.historyId = t.historyId ∧ l.analysisRunId = t.analysisRunId
  accepted : ∀ a, c.accepted = some a → ∀ l, c.lease = some l → l.historyId = a.token.historyId
  bound : ∀ l, c.lease = some l → ∀ x, l.executionId = some x → c.executionId = some x
  serves : ∀ a, c.pc.serving = some a → ∀ l, c.lease = some l → l.executionId = some a.executionId
  unaccepted : c.pc.unbegun = true → c.accepted = none
  unstarted : c.pc.answering = false → c.worker = none

/-- The resources are those of the leases. -/
structure Leased (s : Sys) : Prop where
  staged : ∀ c ∈ s.calls, c.Staged
  total : s.calls.Counted Call.holdsCapacity s.runtime.activeTotal
  byUser : ∀ owner, s.calls.Counted (fun c => c.owner = owner && c.holdsCapacity)
    (s.runtime.activeByUser owner)
  histories : s.calls.Exclusive Call.history s.runtime.running
  analyses : s.calls.Exclusive Call.analysis s.runtime.analyses
  channels : s.calls.Registered Call.channel s.runtime.channels
  controls : s.calls.Registered Call.control s.runtime.controls

variable {codec : Codec} {s t' : Sys} {c u : Call} {o : Oracle} {l l' : Lease} {p : Part} {n : ℕ}

lemma Lease.First.acquire (f : l.First n) (index : p.index = n) : (l.acquire p).First (n + 1) where
  own := f.own
  held q hq := by
    by_cases hqp : q = p
    · exact .inl (by rw [hqp]; exact Function.update_self p true l.held)
    · have hne : q.index ≠ p.index := fun h => hqp (Part.index_injective h)
      rcases f.held q (by omega) with hheld | hnone
      · exact .inl (by rw [← hheld]; exact Function.update_of_ne hqp true l.held)
      · exact .inr hnone
  free q hq := by
    have hqp : q ≠ p := by
      rintro rfl
      omega
    rw [← f.free q (by omega)]
    exact Function.update_of_ne hqp true l.held

lemma Lease.First.skip (f : l.First 2) (none : l.analysisRunId = none) : l.First 3 where
  own := f.own
  held q hq := by
    cases q with
    | analysis => exact .inr ⟨rfl, none⟩
    | capacity => exact f.held .capacity (Nat.zero_lt_two)
    | history => exact f.held .history (Nat.one_lt_two)
    | channel => exact absurd hq (lt_irrefl 3)
    | control => exact absurd hq (by decide)
  free q hq := f.free q (by omega)

namespace Call.Staged

/-- A call that has no lease. -/
lemma none (lease : c.lease = none) (parts : c.pc.parts = none)
    (unaccepted : c.pc.unbegun = true → c.accepted = none)
    (unstarted : c.pc.answering = false → c.worker = none) : c.Staged := by
  have hnone : ∀ l, c.lease ≠ some l := by
    intro l hl
    rw [lease] at hl
    cases hl
  refine ⟨fun _ => lease, fun n hn => ?_, fun _ _ l hl => absurd hl (hnone l),
    fun _ _ l hl => absurd hl (hnone l), fun l hl => absurd hl (hnone l),
    fun _ _ l hl => absurd hl (hnone l), unaccepted, unstarted⟩
  rw [parts] at hn
  cases hn

lemma parts_of_loose {pc : Pc} (h : pc.loose = true) :
    pc.leaseless = false ∧ pc.parts = .none ∧ pc.target = .none ∧ pc.serving = .none ∧
      pc.unbegun = false := by
  cases pc <;> first | exact ⟨rfl, rfl, rfl, rfl, rfl⟩ | cases h

lemma leaseless_of_parts {pc : Pc} (h : pc.parts = some n) : pc.leaseless = false := by
  cases pc <;> first | rfl | cases h

/-- A thread that builds no lease may have any lease of its attempt. -/
lemma loose (S : c.Staged) {f : Lease → Lease} (pc : u.pc.loose = true)
    (lease : u.lease = c.lease.map f) (historyId : ∀ l, (f l).historyId = l.historyId)
    (executionId : ∀ l, (f l).executionId = l.executionId) (accepted : u.accepted = c.accepted)
    (unstarted : u.pc.answering = false → u.worker = .none) : u.Staged := by
  obtain ⟨hless, hparts, htarget, hserving, hunbegun⟩ := parts_of_loose pc
  have hold : ∀ l, u.lease = some l → ∃ l₀, c.lease = some l₀ ∧ f l₀ = l := by
    intro l hl
    rw [lease] at hl
    exact Option.map_eq_some_iff.mp hl
  refine ⟨?_, ?_, ?_, ?_, ?_, ?_, ?_, unstarted⟩
  · intro h
    rw [hless] at h
    cases h
  · intro n hn
    rw [hparts] at hn
    cases hn
  · intro t ht
    rw [htarget] at ht
    cases ht
  · intro a ha l hl
    obtain ⟨l₀, hl₀, rfl⟩ := hold l hl
    rw [historyId]
    exact S.accepted a (accepted ▸ ha) l₀ hl₀
  · intro l hl x hx
    obtain ⟨l₀, hl₀, rfl⟩ := hold l hl
    rw [executionId] at hx
    rw [Call.executionId, accepted]
    exact S.bound l₀ hl₀ x hx
  · intro a ha
    rw [hserving] at ha
    cases ha
  · intro h
    rw [hunbegun] at h
    cases h

/-- A thread goes on with a lease that it has or has added to. -/
lemma build (S : c.Staged) (lease : c.lease = some l)
    (lease' : u.lease = some l') (parts : u.pc.parts = some n) (first : l'.First n)
    (historyId : l'.historyId = l.historyId) (analysisRunId : l'.analysisRunId = l.analysisRunId)
    (accepted : u.accepted = c.accepted)
    (bound : ∀ x, l'.executionId = some x → c.executionId = some x)
    (target : ∀ t, u.pc.target = some t → c.pc.target = some t)
    (serves : ∀ a, u.pc.serving = some a → l'.executionId = some a.executionId)
    (unaccepted : u.pc.unbegun = true → c.pc.unbegun = true)
    (unstarted : c.pc.answering = false) (worker : u.worker = c.worker) : u.Staged := by
  have hold : ∀ l₁, u.lease = some l₁ → l₁ = l' := by
    intro l₁ hl₁
    rw [lease', Option.some.injEq] at hl₁
    exact hl₁.symm
  refine ⟨?_, ?_, ?_, ?_, ?_, ?_, ?_, ?_⟩
  · intro hless
    rw [leaseless_of_parts parts] at hless
    cases hless
  · intro m hm
    rw [parts, Option.some.injEq] at hm
    exact ⟨l', lease', hm ▸ first⟩
  · intro t ht l₁ hl₁
    rw [hold l₁ hl₁, historyId, analysisRunId]
    exact S.target t (target t ht) l lease
  · intro a ha l₁ hl₁
    rw [hold l₁ hl₁, historyId]
    exact S.accepted a (accepted ▸ ha) l lease
  · intro l₁ hl₁ x hx
    rw [hold l₁ hl₁] at hx
    rw [Call.executionId, accepted]
    exact bound x hx
  · intro a ha l₁ hl₁
    rw [hold l₁ hl₁]
    exact serves a ha
  · intro h
    rw [accepted]
    exact S.unaccepted (unaccepted h)
  · intro _
    rw [worker]
    exact S.unstarted unstarted

end Call.Staged

/-- The calls hold the same resources. -/
structure Call.SameHoldings (c u : Call) : Prop where
  id : u.id = c.id
  owner : u.owner = c.owner
  capacity : u.holdsCapacity = c.holdsCapacity
  history : u.history = c.history
  analysis : u.analysis = c.analysis
  channel : u.channel = c.channel
  control : u.control = c.control

/-- A change of the lease that gives nothing up and takes nothing keeps the holdings. -/
lemma Call.SameHoldings.map {f : Lease → Lease} (id : u.id = c.id) (owner : u.owner = c.owner)
    (subject : u.subject = c.subject) (lease : u.lease = c.lease.map f)
    (held : ∀ l, (f l).held = l.held) (historyId : ∀ l, (f l).historyId = l.historyId)
    (analysisRunId : ∀ l, (f l).analysisRunId = l.analysisRunId)
    (executionId : ∀ l, (f l).executionId = l.executionId) : c.SameHoldings u := by
  refine ⟨id, owner, ?_, ?_, ?_, ?_, ?_⟩
  · rw [Call.holdsCapacity, lease, Call.holdsCapacity]
    cases c.lease <;> simp [held]
  · rw [Call.history, lease, Call.history]
    cases c.lease <;> simp [held, historyId]
  · rw [Call.analysis, lease, Call.analysis, subject]
    cases c.lease <;> simp [held, analysisRunId]
  · rw [Call.channel, lease, Call.channel]
    cases c.lease <;> simp [held, executionId]
  · rw [Call.control, lease, Call.control]
    cases c.lease <;> simp [held, executionId]

namespace Leased

lemma staged_set (L : Leased s) (hc : c ∈ s.calls) (id : u.id = c.id) (staged : u.Staged) :
    ∀ d ∈ s.calls.set u, d.Staged := by
  intro d hd
  rcases (Table.mem_set hc id).mp hd with rfl | ⟨hd, -⟩
  · exact staged
  · exact L.staged d hd

/-- A call that keeps its holdings takes the place of the old one. -/
lemma keep (L : Leased s) (hc : c ∈ s.calls) (same : c.SameHoldings u) (staged : u.Staged)
    {store : State} {locks : List (Owner × Uuid)} {dispatched : List Uuid} :
    Leased { s with
      store := store, calls := s.calls.set u, dispatched := dispatched
      runtime := { s.runtime with operationLocks := locks } } where
  staged := L.staged_set hc same.id staged
  total := L.total.set hc same.id same.capacity
  byUser owner := (L.byUser owner).set hc same.id (by rw [same.owner, same.capacity])
  histories := L.histories.set hc same.id (fun k hk => by rwa [same.history] at hk)
  analyses := L.analyses.set hc same.id (fun k hk => by rwa [same.analysis] at hk)
  channels := L.channels.set hc same.id (fun k hk => by rwa [same.channel] at hk)
  controls := L.controls.set hc same.id (fun k hk => by rwa [same.control] at hk)

lemma init (h : (system codec).init s) : Leased s := by
  obtain ⟨maxPerUser, maxTotal, rfl⟩ := h
  exact ⟨fun c hc => absurd hc (Table.not_mem_empty c), .empty, fun _ => .empty, .empty, .empty,
    .empty, .empty⟩

/-- A request gets its capacity. -/
lemma capacity (L : Leased s) (hc : c ∈ s.calls) {t : Target} {rt : Runtime} (pc : c.pc = .reserve t)
    (reserved : s.runtime.reserveOwner c.owner = .ok rt) :
    Leased { s with
      runtime := rt
      calls := s.calls.set { c with
        pc := .reserveHistory t
        lease := some { historyId := t.historyId, analysisRunId := t.analysisRunId
                        held := fun p => p = .capacity } } } := by
  obtain ⟨-, -, rfl⟩ := Runtime.reserveOwner_ok reserved
  set l : Lease := { historyId := t.historyId, analysisRunId := t.analysisRunId
                     held := fun p => p = .capacity }
  set u : Call := { c with pc := .reserveHistory t, lease := some l }
  have S := L.staged c hc
  have hlease : c.lease = none := S.leaseless (by rw [pc]; rfl)
  have hunaccepted : c.accepted = none := S.unaccepted (by rw [pc]; rfl)
  have hfirst : l.First 1 := by
    refine ⟨rfl, ?_, ?_⟩
    · intro p hp
      cases p <;> first | exact .inl rfl | (simp only [Part.index] at hp; omega)
    · intro p hp
      cases p <;> first | rfl | (simp only [Part.index] at hp; omega)
  have hcap : c.holdsCapacity = false := by rw [Call.holdsCapacity, hlease]; rfl
  have hkey : ∀ {κ : Type} {f : Call → Option κ} {k : κ}, f u = none → f u = some k → f c = some k :=
    fun hnone hk => by rw [hnone] at hk; cases hk
  have hstaged : u.Staged := by
    refine ⟨fun h => ?_, ?_, ?_, ?_, ?_, fun a ha => ?_, fun _ => hunaccepted, fun _ => ?_⟩
    · cases h
    · rintro n ⟨⟩
      exact ⟨l, rfl, hfirst⟩
    · rintro w ⟨⟩ l₁ ⟨⟩
      exact ⟨rfl, rfl⟩
    · intro a ha
      rw [hunaccepted] at ha
      cases ha
    · rintro l₁ ⟨⟩ x hx
      cases hx
    · cases ha
    · exact S.unstarted (by rw [pc]; rfl)
  refine ⟨L.staged_set hc rfl hstaged, ?_, ?_, ?_, ?_, ?_, ?_⟩
  · exact L.total.acquire hc rfl hcap rfl
  · intro owner
    by_cases howner : owner = c.owner
    · rw [howner]
      have hnew := (L.byUser c.owner).acquire (u := u) hc rfl (by simp [hcap])
        (by simp [u, l, Call.holdsCapacity])
      simpa only [Function.update_self] using hnew
    · have hnew := (L.byUser owner).set (u := u) hc rfl (by simp [u, Ne.symm howner])
      simpa only [Function.update_of_ne howner] using hnew
  · exact L.histories.set hc rfl (fun k hk => hkey rfl hk)
  · exact L.analyses.set hc rfl (fun k hk => hkey rfl hk)
  · exact L.channels.set hc rfl (fun k hk => hkey rfl hk)
  · exact L.controls.set hc rfl (fun k hk => hkey rfl hk)

section Acquire

variable {t : Target} {rt : Runtime} {a : Accepted}

/-- A request gets its history. -/
lemma history (L : Leased s) (hc : c ∈ s.calls) (pc : c.pc = .reserveHistory t)
    (reserved : s.runtime.reserveHistory o.pass t.historyId = .ok rt) :
    Leased { s with
      runtime := rt
      calls := s.calls.set { c with
        pc := .reserveAnalysis t, lease := c.lease.map (fun l => l.acquire .history) } } := by
  obtain ⟨hfree, rfl⟩ := Runtime.reserveHistory_ok reserved
  have S := L.staged c hc
  obtain ⟨l, hl, first⟩ := S.parts 1 (by rw [pc]; rfl)
  obtain ⟨hhist, -⟩ := S.target t (by rw [pc]; rfl) l hl
  rw [hl, Option.map_some]
  set u : Call := { c with pc := .reserveAnalysis t, lease := some (l.acquire .history) }
  have hstaged : u.Staged := by
    refine S.build hl rfl rfl (first.acquire rfl) rfl rfl rfl (S.bound l hl) ?_ ?_ ?_ ?_ rfl
    · rintro w ⟨⟩
      rw [pc]
      rfl
    · rintro a ⟨⟩
    · intro _
      rw [pc]
      rfl
    · rw [pc]
      rfl
  have hcapacity : u.holdsCapacity = c.holdsCapacity := by
    rw [Call.holdsCapacity, Call.holdsCapacity, hl]
    rfl
  have hkey : ∀ {κ : Type} {f : Call → Option κ} {k : κ}, f u = f c → f u = some k → f c = some k :=
    fun hsame hk => hsame ▸ hk
  refine ⟨L.staged_set hc rfl hstaged, L.total.set hc rfl hcapacity, ?_, ?_, ?_, ?_, ?_⟩
  · exact fun owner => (L.byUser owner).set hc rfl (by rw [hcapacity])
  · refine L.histories.acquire (u := u) hc rfl hfree ?_
    rw [← hhist]
    rfl
  · exact L.analyses.set hc rfl (fun k hk => hkey (by rw [Call.analysis, Call.analysis, hl]; rfl) hk)
  · exact L.channels.set hc rfl (fun k hk => hkey (by rw [Call.channel, Call.channel, hl]; rfl) hk)
  · exact L.controls.set hc rfl (fun k hk => hkey (by rw [Call.control, Call.control, hl]; rfl) hk)

/-- A request gets its analysis run. -/
lemma analysis (L : Leased s) (hc : c ∈ s.calls) (pc : c.pc = .reserveAnalysis t) {run : Uuid}
    (some_ : t.analysisRunId = some run)
    (reserved : s.runtime.reserveAnalysis o.pass (c.subject, run) = .ok rt) :
    Leased { s with
      runtime := rt
      calls := s.calls.set { c with
        pc := .reserveAdmission t, lease := c.lease.map (fun l => l.acquire .analysis) } } := by
  obtain ⟨hfree, rfl⟩ := Runtime.reserveAnalysis_ok reserved
  have S := L.staged c hc
  obtain ⟨l, hl, first⟩ := S.parts 2 (by rw [pc]; rfl)
  obtain ⟨-, hrun⟩ := S.target t (by rw [pc]; rfl) l hl
  rw [hl, Option.map_some]
  set u : Call := { c with pc := .reserveAdmission t, lease := some (l.acquire .analysis) }
  have hstaged : u.Staged := by
    refine S.build hl rfl rfl (first.acquire rfl) rfl rfl rfl (S.bound l hl) ?_ ?_ ?_ ?_ rfl
    · rintro w ⟨⟩
      rw [pc]
      rfl
    · rintro a ⟨⟩
    · intro _
      rw [pc]
      rfl
    · rw [pc]
      rfl
  have hcapacity : u.holdsCapacity = c.holdsCapacity := by
    rw [Call.holdsCapacity, Call.holdsCapacity, hl]
    rfl
  have hkey : ∀ {κ : Type} {f : Call → Option κ} {k : κ}, f u = f c → f u = some k → f c = some k :=
    fun hsame hk => hsame ▸ hk
  refine ⟨L.staged_set hc rfl hstaged, L.total.set hc rfl hcapacity, ?_, ?_, ?_, ?_, ?_⟩
  · exact fun owner => (L.byUser owner).set hc rfl (by rw [hcapacity])
  · exact L.histories.set hc rfl (fun k hk => hkey (by rw [Call.history, Call.history, hl]; rfl) hk)
  · refine L.analyses.acquire (u := u) hc rfl hfree ?_
    show (l.analysisRunId.map (fun x => (c.subject, x))) = _
    rw [hrun, some_]
    rfl
  · exact L.channels.set hc rfl (fun k hk => hkey (by rw [Call.channel, Call.channel, hl]; rfl) hk)
  · exact L.controls.set hc rfl (fun k hk => hkey (by rw [Call.control, Call.control, hl]; rfl) hk)

/-- A request attaches the channel of its execution. -/
lemma attach (L : Leased s) (S' : Serial codec s) (hc : c ∈ s.calls) (pc : c.pc = .attach a)
    (free : s.runtime.channels a.executionId = none) :
    Leased { s with
      runtime := s.runtime.attach c.id a.executionId
      calls := s.calls.set { c with
        pc := .read a
        lease := c.lease.map (fun l => (l.acquire .channel).bindTo a.executionId) } } := by
  have S := L.staged c hc
  obtain ⟨l, hl, first⟩ := S.parts 3 (by rw [pc]; rfl)
  have haccepted := (S'.sound c hc).begun a (by rw [pc]; rfl)
  rw [hl, Option.map_some]
  set u : Call := { c with pc := .read a, lease := some ((l.acquire .channel).bindTo a.executionId) }
  have hfirst : ((l.acquire .channel).bindTo a.executionId).First 4 := by
    have := first.acquire (p := .channel) rfl
    exact ⟨this.own, this.held, this.free⟩
  have hstaged : u.Staged := by
    refine S.build hl rfl rfl hfirst rfl rfl rfl ?_ ?_ ?_ ?_ ?_ rfl
    · rintro x ⟨⟩
      rw [Call.executionId, haccepted]
      rfl
    · rintro w ⟨⟩
    · rintro b ⟨⟩
      rfl
    · rintro ⟨⟩
    · rw [pc]
      rfl
  have hcapacity : u.holdsCapacity = c.holdsCapacity := by
    rw [Call.holdsCapacity, Call.holdsCapacity, hl]
    rfl
  have hcontrol : u.control = none := if_neg (by
    show ¬l.held .control = true
    rw [first.free .control (by decide)]
    exact Bool.false_ne_true)
  have hkey : ∀ {κ : Type} {f : Call → Option κ} {k : κ}, f u = f c → f u = some k → f c = some k :=
    fun hsame hk => hsame ▸ hk
  refine ⟨L.staged_set hc rfl hstaged, L.total.set hc rfl hcapacity, ?_, ?_, ?_, ?_, ?_⟩
  · exact fun owner => (L.byUser owner).set hc rfl (by rw [hcapacity])
  · exact L.histories.set hc rfl (fun k hk => hkey (by rw [Call.history, Call.history, hl]; rfl) hk)
  · exact L.analyses.set hc rfl (fun k hk => hkey (by rw [Call.analysis, Call.analysis, hl]; rfl) hk)
  · refine L.channels.acquire (u := u) hc rfl ?_ rfl
    intro d hd hchannel
    rw [L.channels d hd _ hchannel] at free
    cases free
  · refine L.controls.set hc rfl (fun k hk => ?_)
    rw [hcontrol] at hk
    cases hk

/-- A request binds the stop control of its execution. -/
lemma bind (L : Leased s) (S' : Serial codec s) (hc : c ∈ s.calls) (pc : c.pc = .bind a) :
    Leased { s with
      runtime := s.runtime.bind c.id a.executionId
      calls := s.calls.set { c with
        pc := .dispatch a, lease := c.lease.map (fun l => l.acquire .control) } } := by
  have S := L.staged c hc
  obtain ⟨l, hl, first⟩ := S.parts 4 (by rw [pc]; rfl)
  have hserves := S.serves a (by rw [pc]; rfl) l hl
  rw [hl, Option.map_some]
  set u : Call := { c with pc := .dispatch a, lease := some (l.acquire .control) }
  have hstaged : u.Staged := by
    refine S.build hl rfl rfl (first.acquire rfl) rfl rfl rfl (S.bound l hl) ?_ ?_ ?_ ?_ rfl
    · rintro w ⟨⟩
    · rintro b ⟨⟩
      exact hserves
    · rintro ⟨⟩
    · rw [pc]
      rfl
  have hcapacity : u.holdsCapacity = c.holdsCapacity := by
    rw [Call.holdsCapacity, Call.holdsCapacity, hl]
    rfl
  have hkey : ∀ {κ : Type} {f : Call → Option κ} {k : κ}, f u = f c → f u = some k → f c = some k :=
    fun hsame hk => hsame ▸ hk
  refine ⟨L.staged_set hc rfl hstaged, L.total.set hc rfl hcapacity, ?_, ?_, ?_, ?_, ?_⟩
  · exact fun owner => (L.byUser owner).set hc rfl (by rw [hcapacity])
  · exact L.histories.set hc rfl (fun k hk => hkey (by rw [Call.history, Call.history, hl]; rfl) hk)
  · exact L.analyses.set hc rfl (fun k hk => hkey (by rw [Call.analysis, Call.analysis, hl]; rfl) hk)
  · exact L.channels.set hc rfl (fun k hk => hkey (by rw [Call.channel, Call.channel, hl]; rfl) hk)
  · refine L.controls.acquire (u := u) hc rfl ?_ hserves
    -- the execution of a control was accepted by its call alone
    intro d hd hcontrol
    obtain ⟨m, hm, hheld⟩ := Option.bind_eq_some_iff.mp hcontrol
    have hexec : m.executionId = some a.executionId := by
      split_ifs at hheld
      exact hheld
    have hd' := (L.staged d hd).bound m hm a.executionId hexec
    exact S'.one.one d hd c hc a.executionId hd' (S.bound l hl _ hserves)

end Acquire

/-- The place of a call whose lease is released. -/
lemma loose_of_released (S : c.Staged) (hl : c.lease = some l) (released : l.released = true) :
    c.pc.loose = true := by
  have hparts : c.pc.parts = none := by
    rw [Option.eq_none_iff_forall_ne_some]
    intro n hn
    obtain ⟨l', hl', first⟩ := S.parts n hn
    rw [hl, Option.some.injEq] at hl'
    rw [hl', first.own] at released
    cases released
  have hless : c.pc.leaseless = false := by
    rw [Bool.eq_false_iff]
    intro h
    rw [S.leaseless h] at hl
    cases hl
  cases hpc : c.pc <;> rw [hpc] at hparts hless <;> first
    | rfl
    | exact absurd hparts (Option.some_ne_none _)
    | exact absurd hless (fun h => Bool.noConfusion h)

/-- A released lease gives one part back. -/
lemma drop (L : Leased s) (hc : c ∈ s.calls) (hl : c.lease = some l)
    (released : l.released = true) (held : l.held p = true) :
    Leased { s with
      runtime := s.runtime.give c.id c.owner c.subject l p
      calls := s.calls.set { c with lease := some (l.drop p) } } := by
  have S := L.staged c hc
  set u : Call := { c with lease := some (l.drop p) }
  have hloose := loose_of_released S hl released
  have hstaged : u.Staged := by
    refine S.loose (f := fun l => l.drop p) hloose ?_ (fun _ => rfl) (fun _ => rfl) rfl
      S.unstarted
    rw [hl]
    rfl
  have hall := L.staged_set hc (u := u) rfl hstaged
  -- the parts that are not given back are held as before
  have hother : ∀ q, q ≠ p → (l.drop p).held q = l.held q := by
    intro q hq
    exact Function.update_of_ne hq false l.held
  have hself : (l.drop p).held p = false := by
    exact Function.update_self p false l.held
  have hcapacity : p ≠ .capacity → u.holdsCapacity = c.holdsCapacity := by
    intro hp
    rw [Call.holdsCapacity, Call.holdsCapacity, hl]
    exact hother _ (Ne.symm hp)
  have hhistory : p ≠ .history → ∀ k, u.history = some k → c.history = some k := by
    intro hp k hk
    rw [Call.history, hl, ← hk, Call.history]
    simp only [u, Option.bind_some, hother _ (Ne.symm hp)]
    rfl
  have hanalysis : p ≠ .analysis → ∀ k, u.analysis = some k → c.analysis = some k := by
    intro hp k hk
    rw [Call.analysis, hl, ← hk, Call.analysis]
    simp only [u, Option.bind_some, hother _ (Ne.symm hp)]
    rfl
  have hchannel : p ≠ .channel → ∀ k, u.channel = some k → c.channel = some k := by
    intro hp k hk
    rw [Call.channel, hl, ← hk, Call.channel]
    simp only [u, Option.bind_some, hother _ (Ne.symm hp)]
    rfl
  have hcontrol : p ≠ .control → ∀ k, u.control = some k → c.control = some k := by
    intro hp k hk
    rw [Call.control, hl, ← hk, Call.control]
    simp only [u, Option.bind_some, hother _ (Ne.symm hp)]
    rfl
  have hcounts : p ≠ .capacity → (s.calls.set u).Counted Call.holdsCapacity s.runtime.activeTotal ∧
      ∀ owner, (s.calls.set u).Counted (fun c => c.owner = owner && c.holdsCapacity)
        (s.runtime.activeByUser owner) :=
    fun hp => ⟨L.total.set hc rfl (hcapacity hp),
      fun owner => (L.byUser owner).set hc rfl (by rw [hcapacity hp])⟩
  cases p with
  | capacity =>
    have hheld : c.holdsCapacity = true := by
      rw [Call.holdsCapacity, hl]
      exact held
    refine ⟨hall, L.total.release hc rfl hheld hself, fun owner => ?_,
      L.histories.set hc rfl (hhistory (by decide)), L.analyses.set hc rfl (hanalysis (by decide)),
      L.channels.set hc rfl (hchannel (by decide)), L.controls.set hc rfl (hcontrol (by decide))⟩
    have hfree : u.holdsCapacity = false := hself
    by_cases howner : owner = c.owner
    · rw [howner]
      have hnew := (L.byUser c.owner).release (u := u) hc rfl (by simp [hheld]) (by simp [hfree])
      simpa only [Runtime.give, Runtime.releaseOwner, Function.update_self] using hnew
    · have hnew := (L.byUser owner).set (u := u) hc rfl (by simp [u, Ne.symm howner])
      simpa only [Runtime.give, Runtime.releaseOwner, Function.update_of_ne howner] using hnew
  | history =>
    obtain ⟨htotal, hbyUser⟩ := hcounts (by decide)
    have hheld : c.history = some l.historyId := by
      rw [Call.history, hl]
      exact if_pos held
    have hfree : u.history = none := rfl
    exact ⟨hall, htotal, hbyUser, L.histories.release (u := u) hc rfl hheld hfree,
      L.analyses.set hc rfl (hanalysis (by decide)), L.channels.set hc rfl (hchannel (by decide)),
      L.controls.set hc rfl (hcontrol (by decide))⟩
  | analysis =>
    obtain ⟨htotal, hbyUser⟩ := hcounts (by decide)
    have hfree : u.analysis = none := rfl
    have hanalyses : (s.calls.set u).Exclusive Call.analysis
        (s.runtime.give c.id c.owner c.subject l .analysis).analyses := by
      dsimp only [Runtime.give]
      cases hrun : l.analysisRunId with
      | none =>
        refine L.analyses.set (u := u) hc rfl ?_
        intro k hk
        rw [hfree] at hk
        cases hk
      | some run =>
        refine L.analyses.release (u := u) hc rfl ?_ hfree
        rw [Call.analysis, hl, Option.bind_some, if_pos held, hrun]
        rfl
    have hrest : ∀ rt : Runtime, rt = s.runtime.give c.id c.owner c.subject l .analysis →
        rt = { s.runtime with analyses := rt.analyses } := by
      rintro _ rfl
      dsimp only [Runtime.give]
      cases l.analysisRunId <;> rfl
    rw [hrest _ rfl]
    exact ⟨hall, htotal, hbyUser, L.histories.set hc rfl (hhistory (by decide)), hanalyses,
      L.channels.set hc rfl (hchannel (by decide)), L.controls.set hc rfl (hcontrol (by decide))⟩
  | channel =>
    obtain ⟨htotal, hbyUser⟩ := hcounts (by decide)
    have hfree : u.channel = none := rfl
    have hchannels : (s.calls.set u).Registered Call.channel
        (s.runtime.give c.id c.owner c.subject l .channel).channels := by
      dsimp only [Runtime.give]
      cases hexec : l.executionId with
      | none =>
        refine L.channels.set (u := u) hc rfl ?_
        intro k hk
        rw [hfree] at hk
        cases hk
      | some x =>
        have hheld : c.channel = some x := by
          rw [Call.channel, hl, Option.bind_some, if_pos held, hexec]
        dsimp only
        rw [if_pos (L.channels c hc x hheld)]
        exact L.channels.release (u := u) hc rfl hheld hfree
    have hrest : ∀ rt : Runtime, rt = s.runtime.give c.id c.owner c.subject l .channel →
        rt = { s.runtime with channels := rt.channels } := by
      rintro _ rfl
      dsimp only [Runtime.give]
      cases l.executionId <;> [rfl; (dsimp only; split_ifs <;> rfl)]
    rw [hrest _ rfl]
    exact ⟨hall, htotal, hbyUser, L.histories.set hc rfl (hhistory (by decide)),
      L.analyses.set hc rfl (hanalysis (by decide)), hchannels,
      L.controls.set hc rfl (hcontrol (by decide))⟩
  | control =>
    obtain ⟨htotal, hbyUser⟩ := hcounts (by decide)
    have hfree : u.control = none := rfl
    have hcontrols : (s.calls.set u).Registered Call.control
        (s.runtime.give c.id c.owner c.subject l .control).controls := by
      dsimp only [Runtime.give]
      cases hexec : l.executionId with
      | none =>
        refine L.controls.set (u := u) hc rfl ?_
        intro k hk
        rw [hfree] at hk
        cases hk
      | some x =>
        have hheld : c.control = some x := by
          rw [Call.control, hl, Option.bind_some, if_pos held, hexec]
        dsimp only
        rw [if_pos (L.controls c hc x hheld)]
        exact L.controls.release (u := u) hc rfl hheld hfree
    have hrest : ∀ rt : Runtime, rt = s.runtime.give c.id c.owner c.subject l .control →
        rt = { s.runtime with controls := rt.controls } := by
      rintro _ rfl
      dsimp only [Runtime.give]
      cases l.executionId <;> [rfl; (dsimp only; split_ifs <;> rfl)]
    rw [hrest _ rfl]
    exact ⟨hall, htotal, hbyUser, L.histories.set hc rfl (hhistory (by decide)),
      L.analyses.set hc rfl (hanalysis (by decide)), L.channels.set hc rfl (hchannel (by decide)),
      hcontrols⟩

/-- A thread that builds no lease at its new place. -/
lemma loose (L : Leased s) (hc : c ∈ s.calls) {f : Lease → Lease} (pc : u.pc.loose = true)
    (id : u.id = c.id) (owner : u.owner = c.owner) (subject : u.subject = c.subject)
    (lease : u.lease = c.lease.map f) (held : ∀ l, (f l).held = l.held)
    (historyId : ∀ l, (f l).historyId = l.historyId)
    (analysisRunId : ∀ l, (f l).analysisRunId = l.analysisRunId)
    (executionId : ∀ l, (f l).executionId = l.executionId) (accepted : u.accepted = c.accepted)
    (unstarted : u.pc.answering = false → u.worker = none)
    {store : State} {locks : List (Owner × Uuid)} {dispatched : List Uuid} :
    Leased { s with
      store := store, calls := s.calls.set u, dispatched := dispatched
      runtime := { s.runtime with operationLocks := locks } } :=
  L.keep hc (.map id owner subject lease held historyId analysisRunId executionId)
    ((L.staged c hc).loose pc lease historyId executionId accepted unstarted)

/-- A thread that only moves on keeps its lease. -/
lemma leads {pc : Pc} (S : c.Staged) (leads : Leads codec s c pc) :
    ({ c with pc := pc } : Call).Staged := by
  have hless : ∀ {pu : Pc}, c.pc.leaseless = true → pu.parts = none → c.pc.unbegun = true →
      c.pc.answering = false → ({ c with pc := pu } : Call).Staged :=
    fun less parts unbegun answering => .none (S.leaseless less) parts
      (fun _ => S.unaccepted unbegun) (fun _ => S.unstarted answering)
  have hloose : ∀ {pu : Pc}, pu.loose = true → (pu.answering = false → c.pc.answering = false) →
      ({ c with pc := pu } : Call).Staged :=
    fun loose answering => S.loose (f := id) loose Option.map_id'.symm (fun _ => rfl) (fun _ => rfl) rfl
      (fun h => S.unstarted (answering h))
  have hbuild : ∀ {pu : Pc} {m n : ℕ}, c.pc.parts = some m → pu.parts = some n →
      (∀ l, c.lease = some l → l.First m → l.First n) →
      (∀ t, pu.target = some t → c.pc.target = some t) →
      (∀ a, pu.serving = some a → c.pc.serving = some a) →
      (pu.unbegun = true → c.pc.unbegun = true) → c.pc.answering = false →
      ({ c with pc := pu } : Call).Staged := by
    intro pu m n parts parts' first target serving unbegun answering
    obtain ⟨l, hl, hfirst⟩ := S.parts m parts
    exact S.build hl hl parts' (first l hl hfirst) rfl rfl rfl (S.bound l hl) target
      (fun a ha => S.serves a (serving a ha) l hl) unbegun answering rfl
  cases leads with
  | absent pc => exact hless (by rw [pc]; rfl) rfl (by rw [pc]; rfl) (by rw [pc]; rfl)
  | replay pc => exact hloose rfl (fun h => by cases h)
  | target pc => exact hless (by rw [pc]; rfl) rfl (by rw [pc]; rfl) (by rw [pc]; rfl)
  | @noAnalysis t pc none =>
    have htarget : c.pc.target = some t := by rw [pc]; rfl
    refine hbuild (m := 2) (by rw [pc]; rfl) rfl ?_ (fun w hw => by rw [htarget]; exact hw)
      (fun a ha => by cases ha) (fun _ => by rw [pc]; rfl) (by rw [pc]; rfl)
    intro l hl hfirst
    exact hfirst.skip ((S.target t htarget l hl).2.trans none)
  | @admitted t pc =>
    exact hbuild (m := 3) (by rw [pc]; rfl) rfl (fun _ _ h => h) (fun w hw => by rw [pc]; exact hw)
      (fun a ha => by cases ha) (fun _ => by rw [pc]; rfl) (by rw [pc]; rfl)
  | @read a pc =>
    exact hbuild (m := 4) (by rw [pc]; rfl) rfl (fun _ _ h => h) (fun w hw => by cases hw)
      (fun b hb => by rw [pc]; exact hb) (fun h => by cases h) (by rw [pc]; rfl)
  | @dispatchFailed a pc =>
    refine hloose rfl (fun _ => ?_)
    cases hpc : c.pc <;> rw [hpc] at pc <;> first | rfl | cases pc
  | stop pc => exact hloose rfl (fun _ => by rw [pc]; rfl)
  | stopped pc => exact hloose rfl (fun _ => by rw [pc]; rfl)
  | view pc => exact hloose rfl (fun h => by cases h)

/-- Every step of a thread keeps the resources those of the leases. -/
theorem stepped (L : Leased s) (S : Serial codec s) (hc : c ∈ s.calls)
    (h : Stepped codec s c o t') : Leased t' := by
  have hstaged := L.staged c hc
  have hsame : ∀ {pc : Pc}, c.SameHoldings { c with pc := pc } :=
    ⟨rfl, rfl, rfl, rfl, rfl, rfl, rfl⟩
  cases h with
  | enter pc free =>
    refine L.keep (u := { c with pc := .lookup }) hc hsame
      (.none (hstaged.leaseless (by rw [pc]; rfl)) rfl (fun _ => ?_) (fun _ => ?_))
    · exact hstaged.unaccepted (by rw [pc]; rfl)
    · exact hstaged.unstarted (by rw [pc]; rfl)
  | @refuse e pc =>
    exact L.loose (u := { c with pc := .done (.error e) }) (f := id) hc rfl rfl rfl rfl
      Option.map_id'.symm (fun _ => rfl) (fun _ => rfl) (fun _ => rfl) (fun _ => rfl) rfl
      (fun h => by cases h)
  | advance leads call => exact L.keep hc hsame (Leased.leads hstaged leads)
  | @fail store e active call =>
    exact L.loose (u := { c with lease := c.lease.map Lease.release, pc := .done (.error e) })
      (f := Lease.release) hc rfl rfl rfl rfl rfl (fun _ => rfl) (fun _ => rfl) (fun _ => rfl)
      (fun _ => rfl) rfl (fun h => by cases h)
  | @answer v pc mem =>
    exact L.loose (u := { c with pc := .done (.ok v.executionId) }) (f := id) hc rfl rfl rfl rfl
      Option.map_id'.symm (fun _ => rfl) (fun _ => rfl) (fun _ => rfl) (fun _ => rfl) rfl
      (fun h => by cases h)
  | capacity pc reserved => exact L.capacity hc pc reserved
  | history pc reserved => exact L.history hc pc reserved
  | analysis pc run reserved => exact L.analysis hc pc run reserved
  | @existing t e pc mem owner operation hash =>
    exact L.loose (u := { c with
        pc := .view (viewed (record e)) .header, lease := c.lease.map Lease.release })
      (f := Lease.release) hc rfl rfl rfl rfl rfl (fun _ => rfl) (fun _ => rfl) (fun _ => rfl)
      (fun _ => rfl) rfl (fun h => by cases h)
  | @created t i store pc call begun issued =>
    set a : Accepted := ⟨o.executionId, i.token⟩
    have hunaccepted : c.accepted = none := hstaged.unaccepted (by rw [pc]; rfl)
    obtain ⟨l, hl, first⟩ := hstaged.parts 3 (by rw [pc]; rfl)
    have hhist := (hstaged.target t (by rw [pc]; rfl) l hl).1
    have hlease : ∀ m, c.lease = some m → m = l := by
      intro m hm
      rw [hl, Option.some.injEq] at hm
      exact hm.symm
    have hunbound : ∀ x, l.executionId ≠ some x := by
      intro x hx
      have hexec := hstaged.bound l hl x hx
      rw [Call.executionId, hunaccepted] at hexec
      cases hexec
    refine L.keep (u := { c with pc := .attach a, accepted := some a }) hc
      ⟨rfl, rfl, rfl, rfl, rfl, rfl, rfl⟩ ⟨fun h => ?_, ?_, fun w hw => ?_, ?_, ?_, fun b hb => ?_,
        fun h => ?_, fun _ => ?_⟩
    · cases h
    · rintro n ⟨⟩
      exact ⟨l, hl, first⟩
    · cases hw
    · rintro b ⟨⟩ m hm
      rw [hlease m hm]
      exact hhist.trans begun.history.symm
    · intro m hm x hx
      rw [hlease m hm] at hx
      exact absurd hx (hunbound x)
    · cases hb
    · cases h
    · exact hstaged.unstarted (by rw [pc]; rfl)
  | attach pc free => exact L.attach S hc pc free
  | bind pc => exact L.bind S hc pc
  | @dispatch a pc =>
    exact L.loose (u := { c with
        pc := .view ⟨a.executionId, a.token.historyId, a.token.turnId⟩ .header
        lease := c.lease.map Lease.submit, worker := some .queued })
      (f := Lease.submit) hc rfl rfl rfl rfl rfl (fun _ => rfl) (fun _ => rfl) (fun _ => rfl)
      (fun _ => rfl) rfl (fun h => by cases h)

/-- Every event keeps the resources those of the leases. -/
theorem moved (L : Leased s) (S : Serial codec s) {ev : Event} (h : Moved codec s ev t') :
    Leased t' := by
  have hloose : ∀ {d : Call} {w : WorkerStatus}, d ∈ s.calls → d.worker = some w →
      d.pc.answering = true := by
    intro d w hd hw
    rw [← Bool.not_eq_false]
    intro h
    rw [(L.staged d hd).unstarted h] at hw
    cases hw
  have hanswering : ∀ {pc : Pc}, pc.answering = true → pc.loose = true := by
    intro pc h
    cases pc <;> first | rfl | cases h
  cases h with
  | @call c calls id pc lease accepted worker rows =>
    refine ⟨?_, L.total.append rows ?_, fun owner => (L.byUser owner).append rows ?_,
      L.histories.append rows ?_, L.analyses.append rows ?_, L.channels.append rows ?_,
      L.controls.append rows ?_⟩
    · intro d hd
      rcases (Table.mem_of_rows_append rows).mp hd with hd | rfl
      · exact L.staged d hd
      · exact .none lease (by rw [pc]; rfl) (fun _ => accepted) (fun _ => worker)
    · rw [Call.holdsCapacity, lease]
      rfl
    · rw [Call.holdsCapacity, lease]
      exact Bool.and_false _
    · rw [Call.history, lease]
      rfl
    · rw [Call.analysis, lease]
      rfl
    · rw [Call.channel, lease]
      rfl
    · rw [Call.control, lease]
      rfl
  | thread _ mem fresh step => exact L.stepped S mem step
  | store call => exact ⟨L.staged, L.total, L.byUser, L.histories, L.analyses, L.channels, L.controls⟩
  | @workStart c mem queued =>
    have hpc := hloose mem queued
    exact L.loose (u := { c with worker := some .running }) (f := id) mem (hanswering hpc) rfl rfl rfl
      Option.map_id'.symm (fun _ => rfl) (fun _ => rfl) (fun _ => rfl) (fun _ => rfl) rfl
      (fun h => by rw [hpc] at h; cases h)
  | @workReturn c mem running =>
    have hpc := hloose mem running
    exact L.loose (u := { c with worker := some .returned, lease := c.lease.map Lease.release })
      (f := Lease.release) mem (hanswering hpc) rfl rfl rfl rfl (fun _ => rfl) (fun _ => rfl)
      (fun _ => rfl) (fun _ => rfl) rfl (fun h => by rw [hpc] at h; cases h)
  | drop mem lease released held => exact L.drop mem lease released held
  | close => exact ⟨L.staged, L.total, L.byUser, L.histories, L.analyses, L.channels, L.controls⟩
  | restart =>
    exact ⟨fun c hc => absurd hc (Table.not_mem_empty c), .empty, fun _ => .empty, .empty, .empty,
      .empty, .empty⟩

end Leased

end ChatBI.Execution
