import ChatBI.Execution.Steps

/-!
# What the requests accept

The store only grows, and only a request at its begin accepts an execution. The requests of
one operation are serialized, so an operation whose execution exists is not begun again, and
an accepted execution is dispatched once.
-/

namespace ChatBI.Execution

open ChatBI.Lib ChatBI.Store

/-- A good store after `s`, whose new issues satisfy `p`. -/
structure Grows (p : Issue → Prop) (s t : State) : Prop where
  good : Good t
  extend : Extends s t
  issued : ∀ i ∈ t.issued, i ∈ s.issued ∨ p i

variable {codec : Codec} {p q : Issue → Prop} {store store' : State} {s t' : Sys} {c c' : Call}
  {o : Oracle}

lemma Grows.mono (x : Grows p store store') (h : ∀ i, p i → q i) : Grows q store store' :=
  ⟨x.good, x.extend, fun i hi => (x.issued i hi).imp_right (h i)⟩

lemma Grows.same (g : Good store) : Grows p store store :=
  ⟨g, .refl store, fun _ hi => .inl hi⟩

lemma Good.grows (g : Good store) {op : Op} (wf : op.WellFormed store)
    (issued : ∀ i ∈ (store.apply codec op).issued, i ∈ store.issued ∨ p i) :
    Grows p store (store.apply codec op) := by
  have hstep : (Store.system codec).step store op (store.apply codec op) := ⟨wf, rfl⟩
  exact ⟨g.step hstep, (step_move g.consistent hstep).extends g.consistent, issued⟩

/-- An execution of the store was there before or belongs to a new issue. -/
lemma Grows.execution (x : Grows p store store') (g : Good store) {e' : ExecutionRow}
    (he' : e' ∈ store'.db.executions) :
    (∃ e ∈ store.db.executions, e.Same e') ∨ ∃ i ∈ store'.issued, p i ∧ i.Owns e' := by
  obtain ⟨i, hi, howns⟩ := x.good.issued.execution e' he'
  rcases x.issued i hi with hold | hnew
  · obtain ⟨e, he, hbefore⟩ := x.extend.execution_before g x.good he' hold howns
    have hexec := hbefore.execution.symm.trans howns.execution
    rw [Option.some.injEq, Prod.mk.injEq] at hexec
    exact .inl ⟨e, he, (x.extend.execution g x.good he he' hexec.1.symm).toSame⟩
  · exact .inr ⟨i, hi, hnew, howns⟩

/-- A new issue of the step of a call. -/
def Call.Issues (codec : Codec) (store : State) (c : Call) (i : Issue) : Prop :=
  i.execution = none ∨
    ∃ t o, c.pc = .begin t ∧ store.Unused o.executionId ∧ BegunBy codec c t o i

lemma Quietly.grows (g : Good store) (call : Quietly codec store store') :
    Grows (fun i => i.execution = none) store store' := by
  cases call with
  | same => exact .same g
  | op quiet wf => exact Good.grows g wf (fun _ hi => State.apply_issued quiet hi)

lemma Called.grows (g : Good s.store) (fits : ∀ t, c.pc.target = some t → c.request.Fits t)
    (fresh : s.store.Unused o.executionId) (call : Called codec s c o store') :
    Grows (c.Issues codec s.store) s.store store' := by
  cases call with
  | quiet call => exact (call.grows g).mono (fun _ => .inl)
  | @begin t pc =>
    have hwf : (s.beginOp codec c t o).WellFormed s.store := by
      unfold Sys.beginOp
      cases c.request with
      | submit => exact fresh
      | requery =>
        intro data hdata
        cases hdata
        exact fresh
    refine Good.grows g hwf (fun i hi => ?_)
    have hout := @Sys.begin_outcome codec s c t { o with fate := .ok } (fits t (by rw [pc]; rfl)) rfl
    have happly : s.beginOp codec c t { o with fate := .ok } = s.beginOp codec c t o := rfl
    rw [happly] at hout
    generalize s.store.apply codec (s.beginOp codec c t o) = after at hout hi
    generalize s.begun codec c t { o with fate := .ok } = answer at hout
    cases hout with
    | raised _ same => exact .inl (same ▸ hi)
    | existing _ _ _ _ same => exact .inl (same ▸ hi)
    | created begun _ issued =>
      rw [issued, List.mem_append, List.mem_singleton] at hi
      rcases hi with hi | rfl
      · exact .inl hi
      · exact .inr (.inr ⟨t, o, pc, fresh,
          ⟨begun.owner, begun.operation, begun.history, begun.opens, begun.execution⟩⟩)

/-! ### Calls -/

/-- The attempt of a call is the issue of its execution. -/
def Call.Accepts (codec : Codec) (store : State) (c : Call) (a : Accepted) : Prop :=
  ∃ i ∈ store.issued, i.owner = c.owner ∧ i.operationId = c.operationId ∧ i.token = a.token ∧
    i.execution = some (a.executionId, c.hash codec)

/-- What a call knows of the store and of the dispatched executions. -/
structure Call.Sound (codec : Codec) (store : State) (dispatched : List Uuid) (c : Call) : Prop where
  fits : ∀ t, c.pc.target = some t → c.request.Fits t
  begun : ∀ a, c.pc.begun = some a → c.accepted = some a
  accepted : ∀ a, c.accepted = some a → c.Accepts codec store a
  absent : c.pc.seeking = true → ∀ e ∈ store.db.executions,
    ¬(e.ownerUserId = c.owner ∧ e.operationId = c.operationId)
  undispatched : ∀ a, c.pc.pending = some a → a.executionId ∉ dispatched

/-- The same request with the same attempt. -/
structure Call.Follows (c c' : Call) : Prop where
  id : c'.id = c.id
  owner : c'.owner = c.owner
  operationId : c'.operationId = c.operationId
  request : c'.request = c.request

lemma Call.Follows.hash (f : c.Follows c') : c'.hash codec = c.hash codec := by
  rw [Call.hash, f.request, Call.hash]

lemma Pc.seeking_active {pc : Pc} (h : pc.seeking = true) : pc.active = true := by
  cases pc <;> first | rfl | cases h

lemma Pc.pending_begun {pc : Pc} {a : Accepted} (h : pc.pending = some a) : pc.begun = some a := by
  cases pc <;> first | exact h | cases h

lemma Pc.begun_active {pc : Pc} {a : Accepted} (h : pc.begun = some a) : pc.active = true := by
  cases pc <;> first | rfl | cases h

namespace Call.Sound

variable {dispatched dispatched' : List Uuid}

/-- A call keeps what it knows while others use the store. -/
lemma grow (S : c.Sound codec store dispatched) (g : Good store) (x : Grows p store store')
    (other : c.pc.seeking = true → ∀ i, p i → i.execution ≠ none →
      ¬(i.owner = c.owner ∧ i.operationId = c.operationId))
    (fresh : ∀ a, c.pc.pending = some a → a.executionId ∈ dispatched' →
      a.executionId ∈ dispatched) :
    c.Sound codec store' dispatched' := by
  refine ⟨S.fits, S.begun, fun a ha => ?_, fun hseek e' he' hkey => ?_, fun a ha hmem => ?_⟩
  · obtain ⟨i, hi, hrest⟩ := S.accepted a ha
    exact ⟨i, x.extend.issued i hi, hrest⟩
  · rcases x.execution g he' with ⟨e, he, same⟩ | ⟨i, -, hp, howns⟩
    · exact S.absent hseek e he ⟨same.owner.symm.trans hkey.1, same.operation.symm.trans hkey.2⟩
    · have hexec : i.execution ≠ none := by
        rw [howns.execution]
        exact Option.some_ne_none _
      exact other hseek i hp hexec ⟨howns.owner.symm.trans hkey.1, howns.operation.symm.trans hkey.2⟩
  · exact S.undispatched a ha (fresh a ha hmem)

/-- A call keeps what it knows while the store accepts no execution. -/
lemma quiet (S : c.Sound codec store dispatched) (g : Good store)
    (call : Quietly codec store store') : c.Sound codec store' dispatched :=
  S.grow g (call.grows g) (fun _ _ hp hne => absurd hp hne) (fun _ _ h => h)

lemma accepts (S : c.Sound codec store dispatched) (f : c.Follows c')
    (accepted : c'.accepted = c.accepted) :
    ∀ a, c'.accepted = some a → c'.Accepts codec store a := by
  intro a ha
  obtain ⟨i, hi, howner, hop, htoken, hexec⟩ := S.accepted a (accepted ▸ ha)
  exact ⟨i, hi, howner.trans f.owner.symm, hop.trans f.operationId.symm, htoken,
    by rw [hexec, f.hash]⟩

/-- A call goes on to a place before its begin. -/
lemma seek {t : Target} (S : c.Sound codec store dispatched) (f : c.Follows c')
    (accepted : c'.accepted = c.accepted) (target : c'.pc.target = some t)
    (fits : c.request.Fits t) (seeking : c.pc.seeking = true) :
    c'.Sound codec store dispatched := by
  have hnone : c'.pc.begun = none := by
    cases hpc : c'.pc <;> first | rfl | (rw [hpc] at target; cases target)
  refine ⟨fun u hu => ?_, fun a ha => ?_, S.accepts f accepted, fun _ => ?_, fun a ha => ?_⟩
  · rw [target, Option.some.injEq] at hu
    rw [f.request, ← hu]
    exact fits
  · rw [hnone] at ha
    cases ha
  · rw [f.owner, f.operationId]
    exact S.absent seeking
  · have := Pc.pending_begun ha
    rw [hnone] at this
    cases this

/-- A call goes on with the attempt it has begun. -/
lemma attempt {a : Accepted} (S : c.Sound codec store dispatched) (f : c.Follows c')
    (accepted : c'.accepted = c.accepted) (begun : c.pc.begun = some a)
    (begun' : c'.pc.begun = some a) (pending : ∀ b, c'.pc.pending = some b → c.pc.pending = some b) :
    c'.Sound codec store dispatched := by
  have hpc : c'.pc.target = none ∧ c'.pc.seeking = false := by
    cases hpc : c'.pc <;> first | exact ⟨rfl, rfl⟩ | (rw [hpc] at begun'; cases begun')
  refine ⟨fun u hu => ?_, fun b hb => ?_, S.accepts f accepted, fun hseek => ?_, fun b hb => ?_⟩
  · rw [hpc.1] at hu
    cases hu
  · rw [begun', Option.some.injEq] at hb
    rw [accepted, ← hb]
    exact S.begun a begun
  · rw [hpc.2] at hseek
    cases hseek
  · exact S.undispatched b (pending b hb)

/-- A call goes on to its answer. -/
lemma view (S : c.Sound codec store dispatched) (f : c.Follows c')
    (accepted : c'.accepted = c.accepted) (target : c'.pc.target = none)
    (begun : c'.pc.begun = none) (seeking : c'.pc.seeking = false) :
    c'.Sound codec store dispatched := by
  refine ⟨fun u hu => ?_, fun a ha => ?_, S.accepts f accepted, fun hseek => ?_, fun a ha => ?_⟩
  · rw [target] at hu
    cases hu
  · rw [begun] at ha
    cases ha
  · rw [seeking] at hseek
    cases hseek
  · have := Pc.pending_begun ha
    rw [begun] at this
    cases this

end Call.Sound

/-- A thread that only moves on keeps what it knows. -/
lemma Leads.sound {pc : Pc} (S : c.Sound codec s.store s.dispatched) (leads : Leads codec s c pc) :
    ({ c with pc := pc } : Call).Sound codec s.store s.dispatched := by
  have f : c.Follows { c with pc := pc } := ⟨rfl, rfl, rfl, rfl⟩
  cases leads with
  | absent _ none =>
    refine ⟨fun _ h => ?_, fun _ h => ?_, S.accepts f rfl, fun _ => none, fun _ h => ?_⟩ <;> cases h
  | replay => exact S.view f rfl rfl rfl rfl
  | target hpc fits => exact S.seek f rfl rfl fits (by rw [hpc]; rfl)
  | noAnalysis hpc => exact S.seek f rfl rfl (S.fits _ (by rw [hpc]; rfl)) (by rw [hpc]; rfl)
  | admitted hpc => exact S.seek f rfl rfl (S.fits _ (by rw [hpc]; rfl)) (by rw [hpc]; rfl)
  | read hpc => exact S.attempt f rfl (by rw [hpc]; rfl) rfl (fun b hb => by rw [hpc]; exact hb)
  | dispatchFailed hpc =>
    exact S.attempt f rfl (Pc.pending_begun hpc) rfl (fun b hb => by cases hb)
  | stop hpc => exact S.attempt f rfl (by rw [hpc]; rfl) rfl (fun b hb => by cases hb)
  | stopped hpc => exact S.attempt f rfl (by rw [hpc]; rfl) rfl (fun b hb => by cases hb)
  | view => exact S.view f rfl rfl rfl rfl

end ChatBI.Execution
