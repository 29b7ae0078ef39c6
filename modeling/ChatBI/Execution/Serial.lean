import ChatBI.Execution.Acceptance
import ChatBI.Lib.Holding

/-!
# Serialized operations

The invariant of the application: one thread at a time works on an operation, every accepted
execution was accepted by one request, and no execution is dispatched twice. It is kept by
every step of a thread and so by every event.
-/

namespace ChatBI.Execution

open ChatBI.Lib ChatBI.Store

/-- The operation lock that a thread holds. -/
def Call.lock (c : Call) : Option (Owner × Uuid) :=
  if c.pc.active then some (c.owner, c.operationId) else none

/-- The execution that a request has accepted. -/
def Call.executionId (c : Call) : Option Uuid := c.accepted.map Accepted.executionId

def executionIds (store : State) : List Uuid :=
  store.issued.filterMap (fun i => i.execution.map Prod.fst)

structure Serial (codec : Codec) (s : Sys) : Prop where
  good : Good s.store
  bounded : ∀ c ∈ s.calls, c.id < s.nextCall
  sound : ∀ c ∈ s.calls, c.Sound codec s.store s.dispatched
  one : s.calls.Exclusive Call.executionId (executionIds s.store)
  locks : s.calls.Exclusive Call.lock s.runtime.operationLocks
  payload : ∀ i ∈ s.store.issued, ∀ x hash, i.execution = some (x, hash) →
    ∃ r : Request, hash = codec.operationHash r.payload ∧ r.Opens i
  dispatched : ∀ x ∈ s.dispatched, x ∈ executionIds s.store
  once : s.dispatched.Nodup

variable {codec : Codec} {p : Issue → Prop} {store : State} {s t' : Sys} {c c' d : Call} {o : Oracle}

lemma mem_executionIds {x : Uuid} :
    x ∈ executionIds store ↔ ∃ i ∈ store.issued, i.execution.map Prod.fst = some x :=
  List.mem_filterMap

lemma Grows.executionIds (x : Grows p s.store store) :
    ∀ k ∈ executionIds s.store, k ∈ executionIds store := by
  intro k hk
  obtain ⟨i, hi, hexec⟩ := mem_executionIds.mp hk
  exact mem_executionIds.mpr ⟨i, x.extend.issued i hi, hexec⟩

lemma Call.lock_some {k : Owner × Uuid} :
    c.lock = some k ↔ c.pc.active = true ∧ (c.owner, c.operationId) = k := by
  unfold Call.lock
  split_ifs with h
  · rw [Option.some.injEq, and_iff_right h]
  · simp [h]

lemma Call.Sound.executionIds (S : c.Sound codec store s.dispatched) {a : Accepted}
    (ha : c.accepted = some a) : a.executionId ∈ executionIds store := by
  obtain ⟨i, hi, -, -, -, hexec⟩ := S.accepted a ha
  exact mem_executionIds.mpr ⟨i, hi, by rw [hexec, Option.map_some]⟩

/-- A call that has not begun knows nothing yet. -/
lemma Call.Sound.waiting {dispatched : List Uuid} (pc : c.pc = .waiting)
    (accepted : c.accepted = none) : c.Sound codec store dispatched := by
  refine ⟨?_, ?_, ?_, ?_, ?_⟩
  · intro t ht
    rw [pc] at ht
    cases ht
  · intro a ha
    rw [pc] at ha
    cases ha
  · intro a ha
    rw [accepted] at ha
    cases ha
  · intro hseek
    rw [pc] at hseek
    cases hseek
  · intro a ha
    rw [pc] at ha
    cases ha

lemma Call.Sound.congr {dispatched : List Uuid} (S : c.Sound codec store dispatched)
    (f : c.Follows c') (pc : c'.pc = c.pc) (accepted : c'.accepted = c.accepted) :
    c'.Sound codec store dispatched := by
  refine ⟨?_, ?_, S.accepts f accepted, ?_, ?_⟩
  · rw [pc, f.request]
    exact S.fits
  · rw [pc, accepted]
    exact S.begun
  · rw [pc, f.owner, f.operationId]
    exact S.absent
  · rw [pc]
    exact S.undispatched

namespace Serial

lemma grounded (S : Serial codec s) : Grounded s := by
  refine ⟨fun c hc => (S.sound c hc).fits, fun c hc => (S.sound c hc).begun, ?_⟩
  intro c hc a ha
  obtain ⟨i, hi, -, -, htoken, hexec⟩ := (S.sound c hc).accepted a ha
  rw [← htoken]
  exact S.good.issued.own hi hexec

/-- Two threads on one operation are the same thread. -/
lemma active_one (S : Serial codec s) (hc : c ∈ s.calls) (hd : d ∈ s.calls)
    (active : c.pc.active = true) (active' : d.pc.active = true) (owner : c.owner = d.owner)
    (operation : c.operationId = d.operationId) : c = d := by
  have hlock : c.lock = some (d.owner, d.operationId) :=
    Call.lock_some.mpr ⟨active, by rw [owner, operation]⟩
  exact S.locks.one c hc d hd _ hlock (Call.lock_some.mpr ⟨active', rfl⟩)

/-- The requests of the new issues are known by their digests. -/
lemma payload_grows (S : Serial codec s) (x : Grows (c.Issues codec s.store) s.store store) :
    ∀ i ∈ store.issued, ∀ x hash, i.execution = some (x, hash) →
      ∃ r : Request, hash = codec.operationHash r.payload ∧ r.Opens i := by
  intro i hi y hash hexec
  rcases x.issued i hi with hold | hnone | ⟨t, o, -, -, begun⟩
  · exact S.payload i hold y hash hexec
  · rw [hnone] at hexec
    cases hexec
  · rw [begun.execution, Option.some.injEq, Prod.mk.injEq] at hexec
    exact ⟨c.request, hexec.2.symm, begun.opens⟩

/-- Another call keeps what it knows during the step of a thread. -/
lemma other (S : Serial codec s) (hc : c ∈ s.calls) (hd : d ∈ s.calls) (hne : d ≠ c)
    {dispatched : List Uuid} (x : Grows (c.Issues codec s.store) s.store store)
    (new : ∀ y ∈ dispatched, y ∈ s.dispatched ∨ ∃ a, c.pc = .dispatch a ∧ y = a.executionId) :
    d.Sound codec store dispatched := by
  apply (S.sound d hd).grow S.good x
  · rintro hseek i (hnone | ⟨t, o, hpc, -, begun⟩) hexec ⟨howner, hop⟩
    · exact hexec hnone
    · have hactive : c.pc.active = true := by rw [hpc]; rfl
      exact hne (S.active_one hd hc (Pc.seeking_active hseek) hactive
        (howner.symm.trans begun.owner) (hop.symm.trans begun.operation))
  · intro a ha hmem
    rcases new _ hmem with hold | ⟨b, hpc, hb⟩
    · exact hold
    · have hda := (S.sound d hd).begun a (Pc.pending_begun ha)
      have hcb := (S.sound c hc).begun b (by rw [hpc]; rfl)
      refine absurd (S.one.one d hd c hc a.executionId ?_ ?_) hne
      · rw [Call.executionId, hda, Option.map_some]
      · rw [Call.executionId, hcb, Option.map_some, hb]

/-- The step of a thread that leaves its call sound and its keys exclusive. -/
lemma put (S : Serial codec s) (hc : c ∈ s.calls) (f : c.Follows c') {rt : Runtime}
    {dispatched : List Uuid} (x : Grows (c.Issues codec s.store) s.store store)
    (sound : c'.Sound codec store dispatched)
    (one : (s.calls.set c').Exclusive Call.executionId (Execution.executionIds store))
    (locks : (s.calls.set c').Exclusive Call.lock rt.operationLocks)
    (new : dispatched = s.dispatched ∨
      ∃ a, c.pc = .dispatch a ∧ dispatched = s.dispatched ++ [a.executionId]) :
    Serial codec { s with
      store := store, calls := s.calls.set c', runtime := rt, dispatched := dispatched } := by
  have hmem : ∀ y ∈ dispatched, y ∈ s.dispatched ∨ ∃ a, c.pc = .dispatch a ∧ y = a.executionId := by
    rcases new with rfl | ⟨a, hpc, rfl⟩
    · exact fun y hy => .inl hy
    · intro y hy
      exact (List.mem_append.mp hy).imp_right (fun h => ⟨a, hpc, List.mem_singleton.mp h⟩)
  refine ⟨x.good, ?_, ?_, one, locks, S.payload_grows x, ?_, ?_⟩
  · intro d hd
    rcases (Table.mem_set hc f.id).mp hd with rfl | ⟨hd, -⟩
    · rw [f.id]
      exact S.bounded c hc
    · exact S.bounded d hd
  · intro d hd
    rcases (Table.mem_set hc f.id).mp hd with rfl | ⟨hd, hne⟩
    · exact sound
    · refine S.other hc hd (fun h => hne ?_) x hmem
      rw [h, f.id]
  · intro y hy
    rcases hmem y hy with hy | ⟨a, hpc, rfl⟩
    · exact x.executionIds y (S.dispatched y hy)
    · have ha := (S.sound c hc).begun a (by rw [hpc]; rfl)
      exact x.executionIds _ ((S.sound c hc).executionIds ha)
  · rcases new with rfl | ⟨a, hpc, rfl⟩
    · exact S.once
    · have hnot := (S.sound c hc).undispatched a (by rw [hpc]; rfl)
      refine List.nodup_append.mpr ⟨S.once, List.nodup_singleton _, ?_⟩
      rintro y hy z hz rfl
      rw [List.mem_singleton.mp hz] at hy
      exact hnot hy

/-- A call with the same attempt holds no other execution. -/
lemma one_set (S : Serial codec s) (hc : c ∈ s.calls) (f : c.Follows c')
    (accepted : c'.accepted = c.accepted) (x : Grows p s.store store) :
    (s.calls.set c').Exclusive Call.executionId (Execution.executionIds store) := by
  have hsame : ∀ k, c'.executionId = some k → c.executionId = some k := by
    intro k hk
    rwa [Call.executionId, accepted] at hk
  exact (S.one.set hc f.id hsame).mono x.executionIds

/-- A thread that goes on keeps its lock. -/
lemma locks_set (S : Serial codec s) (hc : c ∈ s.calls) (f : c.Follows c')
    (active : c'.pc.active = true → c.pc.active = true) :
    (s.calls.set c').Exclusive Call.lock s.runtime.operationLocks := by
  apply S.locks.set hc f.id
  intro k hk
  obtain ⟨hactive, hkey⟩ := Call.lock_some.mp hk
  rw [f.owner, f.operationId] at hkey
  exact Call.lock_some.mpr ⟨active hactive, hkey⟩

/-- A thread that has ended gives its lock back. -/
lemma locks_release (S : Serial codec s) (hc : c ∈ s.calls) (f : c.Follows c')
    (active : c.pc.active = true) (ended : c'.pc.active = false) :
    (s.calls.set c').Exclusive Call.lock
      (s.runtime.operationLocks.erase (c.owner, c.operationId)) := by
  apply S.locks.release hc f.id
  · exact Call.lock_some.mpr ⟨active, rfl⟩
  · rw [Call.lock, ended]
    rfl

/-- The step of a thread that accepts nothing and keeps its lock. -/
lemma goto (S : Serial codec s) (hc : c ∈ s.calls) (f : c.Follows c') {rt : Runtime}
    (call : Quietly codec s.store store) (sound : c'.Sound codec s.store s.dispatched)
    (accepted : c'.accepted = c.accepted) (active : c'.pc.active = true → c.pc.active = true)
    (locks : rt.operationLocks = s.runtime.operationLocks) :
    Serial codec { s with store := store, calls := s.calls.set c', runtime := rt } := by
  have hgrows := call.grows S.good
  refine S.put hc f (hgrows.mono (fun _ => .inl)) (sound.quiet S.good call)
    (S.one_set hc f accepted hgrows) ?_ (.inl rfl)
  rw [locks]
  exact S.locks_set hc f active

/-- A thread that ends. -/
lemma finish (S : Serial codec s) (lease : Option Lease) (hc : c ∈ s.calls)
    {answer : Except Raised Uuid} (x : Grows (c.Issues codec s.store) s.store store)
    (active : c.pc.active = true) :
    Serial codec (({ s with store := store } : Sys).finish { c with lease := lease } answer) := by
  set c' : Call := { c with lease := lease, pc := .done answer }
  have f : c.Follows c' := ⟨rfl, rfl, rfl, rfl⟩
  have hsound : c'.Sound codec s.store s.dispatched := (S.sound c hc).view f rfl rfl rfl rfl
  have hlocks := S.locks_release hc f active rfl
  refine S.put hc f x ?_ (S.one_set hc f rfl x) hlocks (.inl rfl)
  exact hsound.grow S.good x (fun h => by cases h) (fun _ h => by cases h)

/-- A request accepts the execution that its begin has issued. -/
lemma created (S : Serial codec s) (hc : c ∈ s.calls) {t : Target} {i : Issue} (pc : c.pc = .begin t)
    (x : Grows (c.Issues codec s.store) s.store store) (fresh : s.store.Unused o.executionId)
    (begun : BegunBy codec c t o i) (issued : store.issued = s.store.issued ++ [i]) :
    Serial codec { s with
      store := store
      calls := s.calls.set { c with
        pc := .attach ⟨o.executionId, i.token⟩, accepted := some ⟨o.executionId, i.token⟩ } } := by
  set a : Accepted := ⟨o.executionId, i.token⟩
  have f : c.Follows { c with pc := .attach a, accepted := some a } := ⟨rfl, rfl, rfl, rfl⟩
  have hunused : o.executionId ∉ executionIds s.store := by
    intro hmem
    obtain ⟨j, hj, hexec⟩ := mem_executionIds.mp hmem
    exact fresh j hj hexec
  have hi : i ∈ store.issued := by
    rw [issued]
    exact List.mem_append_right _ (List.mem_singleton.mpr rfl)
  refine S.put hc f x ?_ ?_ (S.locks_set hc f (fun _ => by rw [pc]; rfl)) (.inl rfl)
  · refine ⟨fun t ht => ?_, fun b hb => ?_, fun b hb => ?_, fun h => ?_, fun b hb => ?_⟩
    · cases ht
    · exact hb
    · cases hb
      exact ⟨i, hi, begun.owner, begun.operation, rfl, begun.execution⟩
    · cases h
    · cases hb
      exact fun hmem => hunused (S.dispatched _ hmem)
  · have hone := S.one.acquire (u := { c with pc := .attach a, accepted := some a }) hc f.id
      hunused rfl
    apply hone.mono
    intro k hk
    rcases List.mem_cons.mp hk with rfl | hk
    · exact mem_executionIds.mpr ⟨i, hi, by rw [begun.execution, Option.map_some]⟩
    · exact x.executionIds k hk

/-- Every step of a thread keeps the operations serialized. -/
theorem stepped (S : Serial codec s) (hc : c ∈ s.calls) (fresh : s.store.Unused o.executionId)
    (h : Stepped codec s c o t') : Serial codec t' := by
  have hsound := S.sound c hc
  have hgoto : ∀ (c' : Call) (rt : Runtime), c.Follows c' → c'.accepted = c.accepted →
      (c'.pc.active = true → c.pc.active = true) → c'.Sound codec s.store s.dispatched →
      rt.operationLocks = s.runtime.operationLocks →
      Serial codec { s with calls := s.calls.set c', runtime := rt } :=
    fun c' rt f accepted active sound locks => S.goto hc f .same sound accepted active locks
  cases h with
  | enter pc free =>
    have f : c.Follows { c with pc := .lookup } := ⟨rfl, rfl, rfl, rfl⟩
    have hlock := S.locks.acquire (u := { c with pc := .lookup }) hc f.id free rfl
    have hgrows : Grows (c.Issues codec s.store) s.store s.store := .same S.good
    exact S.put hc f hgrows (hsound.view f rfl rfl rfl rfl) (S.one_set hc f rfl hgrows) hlock (.inl rfl)
  | @refuse e pc =>
    have f : c.Follows { c with pc := .done (.error e) } := ⟨rfl, rfl, rfl, rfl⟩
    exact hgoto _ _ f rfl (fun h => by cases h) (hsound.view f rfl rfl rfl rfl) rfl
  | @advance store pc' leads call =>
    have f : c.Follows { c with pc := pc' } := ⟨rfl, rfl, rfl, rfl⟩
    have hactive : c.pc.active = true := by
      cases leads with
      | dispatchFailed pc => exact Pc.begun_active (Pc.pending_begun pc)
      | _ pc => rw [pc]; rfl
    exact S.goto hc f call (leads.sound hsound) rfl (fun _ => hactive) rfl
  | fail active call => exact S.finish _ hc (call.grows S.good hsound.fits fresh) active
  | answer pc mem =>
    have hactive : c.pc.active = true := by rw [pc]; rfl
    exact S.finish c.lease hc (.same S.good) hactive
  | @capacity t rt pc reserved =>
    have hfits := hsound.fits t (by rw [pc]; rfl)
    obtain ⟨-, -, rfl⟩ := Runtime.reserveOwner_ok reserved
    refine hgoto _ _ ⟨rfl, rfl, rfl, rfl⟩ rfl (fun _ => by rw [pc]; rfl) ?_ rfl
    exact hsound.seek ⟨rfl, rfl, rfl, rfl⟩ rfl rfl hfits (by rw [pc]; rfl)
  | @history t rt pc reserved =>
    have hfits := hsound.fits t (by rw [pc]; rfl)
    obtain ⟨-, rfl⟩ := Runtime.reserveHistory_ok reserved
    refine hgoto _ _ ⟨rfl, rfl, rfl, rfl⟩ rfl (fun _ => by rw [pc]; rfl) ?_ rfl
    exact hsound.seek ⟨rfl, rfl, rfl, rfl⟩ rfl rfl hfits (by rw [pc]; rfl)
  | @analysis t run rt pc _ reserved =>
    have hfits := hsound.fits t (by rw [pc]; rfl)
    obtain ⟨-, rfl⟩ := Runtime.reserveAnalysis_ok reserved
    refine hgoto _ _ ⟨rfl, rfl, rfl, rfl⟩ rfl (fun _ => by rw [pc]; rfl) ?_ rfl
    exact hsound.seek ⟨rfl, rfl, rfl, rfl⟩ rfl rfl hfits (by rw [pc]; rfl)
  | existing pc mem owner operation hash =>
    refine hgoto _ _ ⟨rfl, rfl, rfl, rfl⟩ rfl (fun _ => by rw [pc]; rfl) ?_ rfl
    exact hsound.view ⟨rfl, rfl, rfl, rfl⟩ rfl rfl rfl rfl
  | @created t i store pc call begun issued =>
    have hcall : Called codec s c o store := by
      rw [call]
      exact .begin pc
    have hgrows := hcall.grows S.good hsound.fits fresh
    exact S.created hc pc hgrows fresh begun issued
  | attach pc free =>
    refine hgoto _ _ ⟨rfl, rfl, rfl, rfl⟩ rfl (fun _ => by rw [pc]; rfl) ?_ rfl
    exact hsound.attempt ⟨rfl, rfl, rfl, rfl⟩ rfl (by rw [pc]; rfl) rfl
      (fun b hb => by rw [pc]; exact hb)
  | bind pc =>
    refine hgoto _ _ ⟨rfl, rfl, rfl, rfl⟩ rfl (fun _ => by rw [pc]; rfl) ?_ rfl
    exact hsound.attempt ⟨rfl, rfl, rfl, rfl⟩ rfl (by rw [pc]; rfl) rfl
      (fun b hb => by rw [pc]; exact hb)
  | @dispatch a pc =>
    set c' : Call := { c with
      pc := .view ⟨a.executionId, a.token.historyId, a.token.turnId⟩ .header
      lease := c.lease.map Lease.submit, worker := some .queued }
    have f : c.Follows c' := ⟨rfl, rfl, rfl, rfl⟩
    have hview : c'.Sound codec s.store s.dispatched := hsound.view f rfl rfl rfl rfl
    have hgrows : Grows (c.Issues codec s.store) s.store s.store := .same S.good
    refine S.put hc f hgrows ?_ (S.one_set hc f rfl hgrows)
      (S.locks_set hc f (fun _ => by rw [pc]; rfl)) (.inr ⟨a, pc, rfl⟩)
    exact hview.grow S.good hgrows (fun h => by cases h) (fun _ h => by cases h)

/-- The store calls of others keep the operations serialized. -/
lemma called (S : Serial codec s) (call : Quietly codec s.store store) :
    Serial codec { s with store := store } := by
  have hgrows := call.grows S.good
  refine ⟨hgrows.good, S.bounded, fun d hd => (S.sound d hd).quiet S.good call,
    S.one.mono hgrows.executionIds, S.locks, ?_, ?_, S.once⟩
  · intro i hi x hash hexec
    rcases hgrows.issued i hi with hold | hnone
    · exact S.payload i hold x hash hexec
    · rw [hnone] at hexec
      cases hexec
  · exact fun x hx => hgrows.executionIds x (S.dispatched x hx)

/-- Every event keeps the operations serialized. -/
theorem moved (S : Serial codec s) {ev : Event} (h : Moved codec s ev t') : Serial codec t' := by
  cases h with
  | @call c calls id pc lease accepted worker rows =>
    have hmem : ∀ d ∈ calls, d ∈ s.calls ∨ d = c := fun d hd => (Table.mem_of_rows_append rows).mp hd
    refine ⟨S.good, ?_, ?_, ?_, ?_, S.payload, S.dispatched, S.once⟩
    · intro d hd
      rcases hmem d hd with hd | rfl
      · exact Nat.lt_succ_of_lt (S.bounded d hd)
      · rw [id]
        exact Nat.lt_succ_self _
    · intro d hd
      rcases hmem d hd with hd | rfl
      · exact S.sound d hd
      · exact .waiting pc accepted
    · exact S.one.append rows (by rw [Call.executionId, accepted]; rfl)
    · exact S.locks.append rows (by rw [Call.lock, pc]; rfl)
  | thread _ mem fresh step => exact S.stepped mem fresh step
  | store call => exact S.called call
  | @workStart c mem queued =>
    have f : c.Follows { c with worker := some .running } := ⟨rfl, rfl, rfl, rfl⟩
    exact S.goto mem f .same ((S.sound c mem).congr f rfl rfl) rfl (fun h => h) rfl
  | @workReturn c mem running =>
    have f : c.Follows { c with worker := some .returned, lease := c.lease.map Lease.release } :=
      ⟨rfl, rfl, rfl, rfl⟩
    exact S.goto mem f .same ((S.sound c mem).congr f rfl rfl) rfl (fun h => h) rfl
  | @drop c l p mem lease released held =>
    have f : c.Follows { c with lease := some (l.drop p) } := ⟨rfl, rfl, rfl, rfl⟩
    refine S.goto mem f .same ((S.sound c mem).congr f rfl rfl) rfl (fun h => h) ?_
    exact Runtime.give_operationLocks c.id c.subject l p
  | close => exact ⟨S.good, S.bounded, S.sound, S.one, S.locks, S.payload, S.dispatched, S.once⟩
  | restart now epoch =>
    have hwf : Op.WellFormed s.store (.restart now epoch) := trivial
    have hcall : Quietly codec s.store (s.store.apply codec (.restart now epoch)) := .op rfl hwf
    have S' := S.called hcall
    exact ⟨S'.good, fun d hd => absurd hd (Table.not_mem_empty d),
      fun d hd => absurd hd (Table.not_mem_empty d), .empty, .empty, S'.payload, S'.dispatched, S'.once⟩

end Serial

end ChatBI.Execution
