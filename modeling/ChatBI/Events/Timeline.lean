import ChatBI.Events.DraftText
import Mathlib.Data.List.Chain

/-!
# The payloads at the sequence numbers

The snapshot payloads of one channel, number by number, and the messages that come from them: the
snapshot at a number, and the event that leads from one number to the next. A client that shows
the payload of its number still does so after any of these messages, or asks for a new snapshot.
-/

namespace ChatBI.Events

open ChatBI.Lib ChatBI.Store

/-- The payload at a sequence number. -/
def At (history : List (Except String Snapshot)) (k : Nat) (p : Snapshot) : Prop :=
  history[k]? = some (.ok p)

/-- A later payload of the same execution. -/
structure Leq (q p : Snapshot) : Prop where
  status : statusRank q.status ≤ statusRank p.status
  stage : stageRegresses q.stage p.stage = false
  completed : q.completedTasks ≤ p.completedTasks
  total : ∀ t, q.totalTasks = some t → p.totalTasks = some t
  generation : q.draftGeneration ≤ p.draftGeneration

/-- An event that takes one payload to the next. -/
structure Advances (q : Snapshot) (payload : Payload) (p : Snapshot) : Prop where
  running : isTerminal q.status = false
  event : ∀ s, payload ≠ .snapshot s
  shown : payload ≠ .authLost
  generation : p.draftGeneration = nextGeneration q.draftGeneration payload
  status : p.status = payload.progressFields.status.getD q.status
  stage : p.stage = payload.progressFields.stage.getD q.stage
  completed : p.completedTasks = payload.progressFields.completedTasks.getD q.completedTasks
  total : p.totalTasks = payload.progressFields.totalTasks.getD q.totalTasks
  stopReason : p.stopReason = payload.progressFields.stopReason.elim q.stopReason some
  draft : nextDraft q.draft payload = some p.draft
  later : Leq q p

/-- Payloads that follow each other by events, with counts that a client can hold. -/
structure Timeline (history : List (Except String Snapshot)) : Prop where
  chain : ∀ k, k + 1 < history.length →
    ∃ q p payload, At history k q ∧ At history (k + 1) p ∧ Advances q payload p
  counted : ∀ k p, At history k p → validCounts p = true
  generation : ∀ k p, At history k p → p.draftGeneration ≤ k

/-- An event of an execution. -/
def Execution.event (x : Execution) (sequence generation : Nat) (payload : Payload) :
    ExecutionEvent where
  executionId := x.id
  historyId := some x.historyId
  turnId := some x.turnId
  sequence := sequence
  draftGeneration := some generation
  payload := payload

/-- The messages that come from a channel with the given payloads. -/
inductive Genuine (x : Execution) (history : List (Except String Snapshot)) :
    ExecutionEvent → Prop where
  | snapshot {k : Nat} {p : Snapshot} (hp : At history k p)
      (hdraft : reportDraft p.draft = some p.draft) :
      Genuine x history (x.event k p.draftGeneration (.snapshot p))
  | event {k : Nat} {q p : Snapshot} {payload : Payload} (hq : At history k q)
      (hp : At history (k + 1) p) (h : Advances q payload p) :
      Genuine x history (x.event (k + 1) p.draftGeneration payload)

/-- The client state that a payload gives. -/
def Snapshot.shown (x : Execution) (k : Nat) (p : Snapshot) (publicError : Option PublicError) :
    ExecutionState where
  executionId := x.id
  historyId := x.historyId
  turnId := x.turnId
  sequence := k
  draftGeneration := p.draftGeneration
  status := p.status
  stage := p.stage
  completedTasks := p.completedTasks
  totalTasks := p.totalTasks
  stopReason := p.stopReason
  draft := p.draft
  publicError := publicError

/-- A client state that shows the payload of its sequence number. -/
def Shows (x : Execution) (history : List (Except String Snapshot)) (state : ExecutionState) :
    Prop :=
  ∃ p, At history state.sequence p ∧ state = p.shown x state.sequence state.publicError

section Order

variable {q p r : Snapshot} {history : List (Except String Snapshot)} {i j k : Nat}

lemma stageRegresses_refl (s : Option ExecutionStage) : stageRegresses s s = false := by
  cases s <;> simp [stageRegresses]

lemma stageRegresses_trans {s t u : Option ExecutionStage} (h : stageRegresses s t = false)
    (h' : stageRegresses t u = false) : stageRegresses s u = false := by
  cases s with
  | none => rfl
  | some s =>
    cases t with
    | none => cases h
    | some t =>
      cases u with
      | none => cases h'
      | some u =>
        simp only [stageRegresses, decide_eq_false_iff_not, Nat.not_lt] at h h' ⊢
        omega

lemma Leq.refl (p : Snapshot) : Leq p p :=
  ⟨Nat.le_refl _, stageRegresses_refl _, Nat.le_refl _, fun _ h => h, Nat.le_refl _⟩

lemma Leq.trans (h : Leq q p) (h' : Leq p r) : Leq q r where
  status := Nat.le_trans h.status h'.status
  stage := stageRegresses_trans h.stage h'.stage
  completed := Nat.le_trans h.completed h'.completed
  total := fun t ht => h'.total t (h.total t ht)
  generation := Nat.le_trans h.generation h'.generation

lemma At.unique (hq : At history k q) (hp : At history k p) : q = p :=
  Except.ok.inj (Option.some.inj (hq.symm.trans hp))

lemma At.lt (h : At history k p) : k < history.length := (List.getElem?_eq_some_iff.mp h).1

lemma Timeline.leq (h : Timeline history) (hij : i ≤ j) (hq : At history i q)
    (hp : At history j p) : Leq q p := by
  induction j generalizing p with
  | zero =>
    obtain rfl : i = 0 := by omega
    exact hq.unique hp ▸ Leq.refl q
  | succ j ih =>
    by_cases hi : i = j + 1
    · subst hi
      exact hq.unique hp ▸ Leq.refl q
    · obtain ⟨q', p', payload, hq', hp', hadv⟩ := h.chain j hp.lt
      have hstep := hadv.later
      rw [hp'.unique hp] at hstep
      exact (ih (by omega) hq').trans hstep

/-- Nothing follows a terminal payload. -/
lemma Timeline.terminal_last (h : Timeline history) (hq : At history k q)
    (hterminal : isTerminal q.status = true) : k + 1 = history.length := by
  by_contra hne
  have hlt := hq.lt
  obtain ⟨q', p', payload, hq', -, hadv⟩ := h.chain k (by omega)
  have hrunning := hadv.running
  rw [hq'.unique hq, hterminal] at hrunning
  cases hrunning

end Order

section Reduce

variable {x : Execution} {history : List (Except String Snapshot)} {k : Nat} {q p : Snapshot}
  {current : Option ExecutionState} {state : ExecutionState} {m : ExecutionEvent}

/-- A message that a client in step with the channel gets next. -/
def Due (current : Option ExecutionState) (m : ExecutionEvent) : Prop :=
  (∃ s, m.payload = .snapshot s) ∧ (∀ state ∈ current, state.sequence ≤ m.sequence) ∨
    ∃ state ∈ current, m.sequence = state.sequence + 1

/-- What a client does with a message: it has seen it, it asks for a snapshot, or it shows the
payload of the message's number. -/
inductive Follows (x : Execution) (history : List (Except String Snapshot))
    (current : Option ExecutionState) (m : ExecutionEvent) : Reduced → Prop where
  | old {state : ExecutionState} (hstate : state ∈ current) (h : m.sequence ≤ state.sequence) :
      Follows x history current m (keep current)
  | asked (h : ¬Due current m) : Follows x history current m (askAgain current)
  | new {state : ExecutionState} (hshows : Shows x history state)
      (hsequence : state.sequence = m.sequence)
      (h : ∀ s ∈ current, s.sequence < m.sequence) :
      Follows x history current m (keep (some state))

/-- The ids that the client needs are there. -/
structure Identified (x : Execution) : Prop where
  history : x.historyId ≠ ""
  turn : x.turnId ≠ ""

lemma envelope?_event {sequence generation : Nat} {payload : Payload} (hx : Identified x)
    (hsafe : generation ≤ maxSafeInteger) :
    envelope? (x.event sequence generation payload) =
      some ⟨x.id, x.historyId, x.turnId, sequence, generation⟩ := by
  have hcount : safeCount generation = true := decide_eq_true hsafe
  simp only [envelope?, Execution.event]
  rw [if_pos ⟨hx.history, hx.turn, hcount⟩]

lemma shown_of {sequence generation : Nat} (h : Shows x history state) :
    (Envelope.mk x.id x.historyId x.turnId sequence generation).Of state := by
  obtain ⟨p, -, hstate⟩ := h
  rw [hstate]
  exact ⟨rfl, rfl, rfl⟩

lemma fromSnapshot_shown {generation : Nat} (hgeneration : generation = p.draftGeneration)
    (hdraft : reportDraft p.draft = some p.draft) :
    fromSnapshot current ⟨x.id, x.historyId, x.turnId, k, generation⟩ p =
      keep (some (p.shown x k none)) := by
  simp only [fromSnapshot, hdraft, hgeneration]
  rfl

lemma snapshotRegresses_of_leq {publicError : Option PublicError} (h : Leq q p) :
    snapshotRegresses (q.shown x k publicError) p = false := by
  have hstatus : ¬statusRank p.status < statusRank q.status := Nat.not_lt.mpr h.status
  have hcompleted : ¬p.completedTasks < q.completedTasks := Nat.not_lt.mpr h.completed
  have htotal : (q.totalTasks.isSome && decide (p.totalTasks ≠ q.totalTasks)) = false := by
    rw [Bool.and_eq_false_iff, decide_eq_false_iff_not, not_not]
    by_cases hs : q.totalTasks.isSome = true
    · obtain ⟨t, ht⟩ := Option.isSome_iff_exists.mp hs
      exact .inr (by rw [h.total t ht, ht])
    · exact .inl (by simpa using hs)
  unfold snapshotRegresses
  simp only [Bool.or_eq_false_iff]
  exact ⟨⟨⟨decide_eq_false hstatus, h.stage⟩, decide_eq_false hcompleted⟩, htotal⟩

/-- A snapshot, at a number of the client or elsewhere. -/
lemma follows_snapshot (ht : Timeline history) (hcurrent : ∀ s ∈ current, Shows x history s)
    (hp : At history k p) (hdraft : reportDraft p.draft = some p.draft) :
    Follows x history current (x.event k p.draftGeneration (.snapshot p))
      (reduceSnapshot current ⟨x.id, x.historyId, x.turnId, k, p.draftGeneration⟩ p) := by
  have hcounts := ht.counted k p hp
  have hnew : (∀ s ∈ current, s.sequence < k) → Follows x history current
      (x.event k p.draftGeneration (.snapshot p)) (keep (some (p.shown x k none))) :=
    fun h => .new ⟨p, hp, rfl⟩ rfl h
  cases current with
  | none =>
    simp only [reduceSnapshot, hcounts, if_true, fromSnapshot_shown rfl hdraft]
    exact hnew (by simp)
  | some state =>
    obtain ⟨q, hq, hstate⟩ := hcurrent state rfl
    have hold : k ≤ state.sequence → Follows x history (some state)
        (x.event k p.draftGeneration (.snapshot p)) (keep (some state)) :=
      fun h => .old rfl h
    have hnot : k < state.sequence → Follows x history (some state)
        (x.event k p.draftGeneration (.snapshot p)) (askAgain (some state)) := by
      intro h
      refine .asked ?_
      rintro (⟨-, hdue⟩ | ⟨s, hs, hdue⟩)
      · exact absurd (hdue state rfl) (Nat.not_le.mpr h)
      · cases hs
        simp only [Execution.event] at hdue
        omega
    simp only [reduceSnapshot]
    by_cases hgeneration : p.draftGeneration < state.draftGeneration
    · rw [if_pos hgeneration]
      apply hold
      by_contra hlt
      have hleq := (ht.leq (by omega) hq hp).generation
      rw [hstate] at hgeneration
      exact absurd hleq (Nat.not_le.mpr hgeneration)
    rw [if_neg hgeneration, if_neg (not_not_intro hcounts)]
    by_cases hbefore : k < state.sequence
    · rw [if_pos hbefore]
      have hrunning : isTerminal p.status = false := by
        rw [Bool.eq_false_iff]
        intro hterminal
        have hlast := ht.terminal_last hp hterminal
        have hlt := hq.lt
        omega
      rw [if_neg (by simp [hrunning])]
      split
      · exact hnot hbefore
      · exact hold (Nat.le_of_lt hbefore)
    rw [if_neg hbefore]
    by_cases hsame : k = state.sequence
    · rw [if_pos hsame]
      exact hold (Nat.le_of_eq hsame)
    have hafter : state.sequence < k := by omega
    rw [if_neg hsame]
    have hrunning : isTerminal state.status = false := by
      rw [Bool.eq_false_iff]
      intro hterminal
      rw [hstate] at hterminal
      have hlast := ht.terminal_last hq hterminal
      have hlt := hp.lt
      omega
    have hregress : snapshotRegresses state p = false := by
      rw [hstate]
      exact snapshotRegresses_of_leq (ht.leq (Nat.le_of_lt hafter) hq hp)
    rw [if_neg (by simp [hrunning]), if_neg (by simp [hregress]), fromSnapshot_shown rfl hdraft]
    exact hnew (by simpa using hafter)

lemma progressRegresses_of_advances {publicError : Option PublicError} {payload : Payload}
    (h : Advances q payload p) (hcounts : validCounts p = true) :
    progressRegresses (q.shown x k publicError) payload.progressFields = false := by
  have hstatus : statusRank q.status ≤
      statusRank (payload.progressFields.status.getD q.status) := by
    rw [← h.status]
    exact h.later.status
  have hcompleted : decide (p.completedTasks < q.completedTasks) = false :=
    decide_eq_false (Nat.not_lt.mpr h.later.completed)
  have hlimit : ∀ t, p.totalTasks = some t → p.completedTasks ≤ t := by
    intro t ht
    simp only [validCounts, Bool.and_eq_true, ht] at hcounts
    exact of_decide_eq_true hcounts.2.2
  have htotal : (q.totalTasks.isSome && decide (p.totalTasks ≠ q.totalTasks)) = false := by
    rw [Bool.and_eq_false_iff, decide_eq_false_iff_not, not_not]
    by_cases hs : q.totalTasks.isSome = true
    · obtain ⟨t, ht⟩ := Option.isSome_iff_exists.mp hs
      exact .inr (by rw [h.later.total t ht, ht])
    · exact .inl (by simpa using hs)
  unfold progressRegresses
  simp only [Snapshot.shown, ← h.completed, ← h.total, ← h.stage]
  simp only [Bool.or_eq_false_iff]
  refine ⟨⟨⟨⟨?_, hcompleted⟩, ?_⟩, htotal⟩, h.later.stage⟩
  · cases hs : payload.progressFields.status with
    | none => rfl
    | some s =>
      rw [hs] at hstatus
      exact decide_eq_false (Nat.not_lt.mpr hstatus)
  · cases ht : p.totalTasks with
    | none => rfl
    | some t => exact decide_eq_false (Nat.not_lt.mpr (hlimit t ht))

/-- An event, at the next number of the client or elsewhere. -/
lemma follows_event (ht : Timeline history) {payload : Payload} (hq : At history k q)
    (hp : At history (k + 1) p) (h : Advances q payload p) (hshows : Shows x history state) :
    Follows x history (some state) (x.event (k + 1) p.draftGeneration payload)
      (reduceNext state ⟨x.id, x.historyId, x.turnId, k + 1, p.draftGeneration⟩ payload) := by
  simp only [reduceNext]
  by_cases hseen : k + 1 ≤ state.sequence
  · rw [if_pos hseen]
    exact .old rfl hseen
  rw [if_neg hseen]
  by_cases hnext : k + 1 = state.sequence + 1
  swap
  · rw [if_pos hnext]
    refine .asked ?_
    rintro (⟨⟨s, hs⟩, -⟩ | ⟨s, hs, hdue⟩)
    · exact h.event s hs
    · cases hs
      exact hnext hdue
  obtain ⟨r, hr, hstate⟩ := hshows
  have hk : state.sequence = k := by omega
  rw [hk] at hr hstate
  obtain rfl : q = r := hq.unique hr
  have hrunning : isTerminal state.status = false := by
    rw [hstate]
    exact h.running
  have hgeneration : p.draftGeneration = nextGeneration state.draftGeneration payload := by
    rw [hstate]
    exact h.generation
  have hregress : progressRegresses state payload.progressFields = false := by
    rw [hstate]
    exact progressRegresses_of_advances h (ht.counted _ p hp)
  have hdraft : nextDraft state.draft payload = some p.draft := by
    rw [hstate]
    exact h.draft
  rw [if_neg (not_not_intro hnext), if_neg (by simp [hrunning]), if_neg (not_not_intro hgeneration),
    if_neg (by simp [hregress]), hdraft]
  have hlater : ∀ s ∈ some state, s.sequence < k + 1 := by
    rintro s ⟨⟩
    omega
  refine .new ⟨p, hp, ?_⟩ rfl hlater
  rw [hstate]
  simp only [Snapshot.shown, ← h.status, ← h.stage, ← h.completed, ← h.total, ← h.stopReason]

/-- A genuine message leaves the client with a state that shows the payload of its number. -/
theorem follows_reduce (hx : Identified x) (ht : Timeline history)
    (hsafe : history.length ≤ maxSafeInteger + 1)
    (hcurrent : ∀ s ∈ current, Shows x history s) (hm : Genuine x history m) :
    Follows x history current m (reduceExecutionEvent current m) := by
  have hall : ∀ {sequence generation : Nat},
      ¬∃ state ∈ current, ¬(Envelope.mk x.id x.historyId x.turnId sequence generation).Of state := by
    rintro sequence generation ⟨state, hstate, hother⟩
    exact hother (shown_of (hcurrent state hstate))
  cases hm with
  | @snapshot k p hp hdraft =>
    have hgeneration := ht.generation k p hp
    have hlt := hp.lt
    rw [reduceExecutionEvent, if_neg Payload.noConfusion, envelope?_event hx (by omega)]
    simp only [if_neg hall]
    exact follows_snapshot ht hcurrent hp hdraft
  | @event k q p payload hq hp h =>
    have hgeneration := ht.generation (k + 1) p hp
    have hlt := hp.lt
    have hshown : (x.event (k + 1) p.draftGeneration payload).payload ≠ .authLost := h.shown
    rw [reduceExecutionEvent, if_neg hshown, envelope?_event hx (by omega)]
    simp only [if_neg hall]
    cases current with
    | none =>
      have hasked : Follows x history none (x.event (k + 1) p.draftGeneration payload)
          (askAgain none) := by
        refine .asked ?_
        rintro (⟨⟨s, hs⟩, -⟩ | ⟨s, hs, -⟩)
        · exact h.event s hs
        · cases hs
      cases payload with
      | snapshot s => exact absurd rfl (h.event s)
      | _ => exact hasked
    | some state =>
      have hnext := follows_event ht hq hp h (hcurrent state rfl)
      cases payload with
      | snapshot s => exact absurd rfl (h.event s)
      | _ => exact hnext

end Reduce

section Runs

variable {x : Execution} {history : List (Except String Snapshot)}
  {current : Option ExecutionState} {m : ExecutionEvent} {messages rest : List ExecutionEvent}

/-- The state of a client after messages; it keeps its state when it asks for a snapshot. -/
def reduceAll (current : Option ExecutionState) (messages : List ExecutionEvent) :
    Option ExecutionState :=
  messages.foldl (fun state m => (reduceExecutionEvent state m).state) current

lemma shows_reduce (hx : Identified x) (ht : Timeline history)
    (hsafe : history.length ≤ maxSafeInteger + 1) (hcurrent : ∀ s ∈ current, Shows x history s)
    (hm : Genuine x history m) : ∀ s ∈ (reduceExecutionEvent current m).state, Shows x history s := by
  have hfollows := follows_reduce hx ht hsafe hcurrent hm
  generalize reduceExecutionEvent current m = r at hfollows
  cases hfollows with
  | old hstate _ => exact hcurrent
  | asked _ => exact hcurrent
  | new hshows _ _ =>
    rintro s ⟨⟩
    exact hshows

/-- Every client state shows the payload of its number, whatever messages arrive in what order. -/
theorem shows_reduceAll (hx : Identified x) (ht : Timeline history)
    (hsafe : history.length ≤ maxSafeInteger + 1) (hcurrent : ∀ s ∈ current, Shows x history s)
    (hmessages : ∀ m ∈ messages, Genuine x history m) :
    ∀ s ∈ reduceAll current messages, Shows x history s := by
  induction messages generalizing current with
  | nil => exact hcurrent
  | cons m messages ih =>
    have hstep := shows_reduce hx ht hsafe hcurrent (hmessages m List.mem_cons_self)
    exact ih hstep (fun m' hm' => hmessages m' (List.mem_cons_of_mem m hm'))

/-- The messages of a subscription: each is a later snapshot or the next event. -/
def Next (m m' : ExecutionEvent) : Prop :=
  (∃ s, m'.payload = .snapshot s) ∧ m.sequence ≤ m'.sequence ∨ m'.sequence = m.sequence + 1

lemma reduce_due (hx : Identified x) (ht : Timeline history)
    (hsafe : history.length ≤ maxSafeInteger + 1) (hcurrent : ∀ s ∈ current, Shows x history s)
    (hm : Genuine x history m) (hdue : Due current m) :
    (reduceExecutionEvent current m).resnapshot = false ∧
      ∃ s ∈ (reduceExecutionEvent current m).state, s.sequence = m.sequence := by
  have hfollows := follows_reduce hx ht hsafe hcurrent hm
  generalize reduceExecutionEvent current m = r at hfollows
  cases hfollows with
  | @old state hstate hseen =>
    refine ⟨rfl, state, hstate, ?_⟩
    rcases hdue with ⟨-, hle⟩ | ⟨s, hs, hnext⟩
    · have hle := hle state hstate
      omega
    · obtain rfl : state = s := Option.mem_unique hstate hs
      omega
  | asked hnot => exact absurd hdue hnot
  | @new state _ hsequence _ => exact ⟨rfl, state, rfl, hsequence⟩

/-- Messages in order, from one that is due, are never answered by asking for a snapshot. -/
theorem inOrder_never_asks (hx : Identified x) (ht : Timeline history)
    (hsafe : history.length ≤ maxSafeInteger + 1) (hcurrent : ∀ s ∈ current, Shows x history s)
    (hmessages : ∀ m ∈ messages, Genuine x history m) (hchain : messages.IsChain Next)
    (hdue : ∀ m ∈ messages.head?, Due current m) {before after : List ExecutionEvent}
    (h : messages = before ++ m :: after) :
    (reduceExecutionEvent (reduceAll current before) m).resnapshot = false := by
  induction before generalizing current messages with
  | nil =>
    subst h
    exact (reduce_due hx ht hsafe hcurrent (hmessages m List.mem_cons_self) (hdue m rfl)).1
  | cons b before ih =>
    subst h
    have hb := hmessages b List.mem_cons_self
    obtain ⟨-, s, hs, hsequence⟩ := reduce_due hx ht hsafe hcurrent hb (hdue b rfl)
    refine ih (shows_reduce hx ht hsafe hcurrent hb)
      (fun a ha => hmessages a (List.mem_cons_of_mem b ha)) (List.IsChain.tail hchain) ?_ rfl
    intro a ha
    have hnext : Next b a := hchain.rel_head? ha
    rcases hnext with ⟨hsnapshot, hle⟩ | hnext
    · refine .inl ⟨hsnapshot, fun t ht => ?_⟩
      obtain rfl : t = s := Option.mem_unique ht hs
      omega
    · exact .inr ⟨s, hs, by omega⟩

end Runs

end ChatBI.Events
