import ChatBI.Events.Serving

/-!
# What the channel has reached

The fields that a message says are ones that the channel has reached, and so are those of a client
that takes its messages. Nothing goes back when the calls are in order, also when a call raises.
-/

namespace ChatBI.Events

open ChatBI.Lib ChatBI.Store

section Reaching

variable {c c' : Channel} {p : Progress} {m : ExecutionEvent} {state : ExecutionState}

/-- What a message says of the status, the stage and the counts. -/
def Payload.fields : Payload → Progress
  | .snapshot s => {
      status := some s.status
      stage := some s.stage
      completedTasks := some s.completedTasks
      totalTasks := some s.totalTasks }
  | payload => payload.progressFields

/-- The channel has reached the given fields. -/
structure Reached (c : Channel) (p : Progress) : Prop where
  status : ∀ s ∈ p.status, statusRank s ≤ statusRank c.status
  stage : ∀ s ∈ p.stage, stageRegresses s c.stage = false
  completed : ∀ n ∈ p.completedTasks, n ≤ c.completedTasks
  total : ∀ t ∈ p.totalTasks, ∀ n, t = some n → c.totalTasks = some n

/-- A message of the channel, sent now or earlier. -/
structure Told (c : Channel) (m : ExecutionEvent) : Prop where
  source : ∃ g, m = c.execution.event m.sequence g m.payload ∧ g ≤ c.draftGeneration
  sequence : m.sequence ≤ c.sequence
  reached : Reached c m.payload.fields

def ExecutionState.fields (s : ExecutionState) : Progress where
  status := some s.status
  stage := some s.stage
  completedTasks := some s.completedTasks
  totalTasks := some s.totalTasks

/-- A client state that the messages of the channel give. -/
structure Known (c : Channel) (s : ExecutionState) : Prop where
  execution : s.executionId = c.execution.id
  history : s.historyId = c.execution.historyId
  turn : s.turnId = c.execution.turnId
  sequence : s.sequence ≤ c.sequence
  generation : s.draftGeneration ≤ c.draftGeneration
  reached : Reached c s.fields

/-- A later state of the same channel. -/
structure Later (c c' : Channel) : Prop where
  execution : c'.execution = c.execution
  sequence : c.sequence ≤ c'.sequence
  state : Leq (c.state none) (c'.state none)

lemma Later.refl (c : Channel) : Later c c := ⟨rfl, Nat.le_refl _, Leq.refl _⟩

lemma Later.trans {c'' : Channel} (h : Later c c') (h' : Later c' c'') : Later c c'' :=
  ⟨h'.execution.trans h.execution, h.sequence.trans h'.sequence, h.state.trans h'.state⟩

lemma Reached.later (h : Reached c p) (hlater : Later c c') : Reached c' p where
  status := fun s hs => (h.status s hs).trans hlater.state.status
  stage := fun s hs => stageRegresses_trans (h.stage s hs) hlater.state.stage
  completed := fun n hn => (h.completed n hn).trans hlater.state.completed
  total := fun t ht n hn => hlater.state.total n (h.total t ht n hn)

lemma Told.later (h : Told c m) (hlater : Later c c') : Told c' m where
  source := by
    obtain ⟨g, hm, hg⟩ := h.source
    exact ⟨g, by rw [hlater.execution]; exact hm, hg.trans hlater.state.generation⟩
  sequence := h.sequence.trans hlater.sequence
  reached := h.reached.later hlater

lemma Known.later (h : Known c state) (hlater : Later c c') : Known c' state where
  execution := by rw [hlater.execution, h.execution]
  history := by rw [hlater.execution, h.history]
  turn := by rw [hlater.execution, h.turn]
  sequence := h.sequence.trans hlater.sequence
  generation := h.generation.trans hlater.state.generation
  reached := h.reached.later hlater

/-- The fields that the channel has itself. -/
lemma reached_own (h₁ : ∀ s ∈ p.status, s = c.status) (h₂ : ∀ s ∈ p.stage, s = c.stage)
    (h₃ : ∀ n ∈ p.completedTasks, n = c.completedTasks)
    (h₄ : ∀ t ∈ p.totalTasks, t = c.totalTasks) : Reached c p where
  status := fun s hs => Nat.le_of_eq (by rw [h₁ s hs])
  stage := fun s hs => by rw [h₂ s hs]; exact stageRegresses_refl _
  completed := fun n hn => Nat.le_of_eq (h₃ n hn)
  total := fun t ht n hn => by rw [← h₄ t ht, hn]

lemma told_snapshot (h : c.snapshot = .ok m) : Told c m := by
  obtain ⟨s, hs, rfl⟩ := except_map_ok.mp h
  obtain ⟨draft, -, rfl⟩ := except_map_ok.mp hs
  refine ⟨⟨c.draftGeneration, rfl, Nat.le_refl _⟩, Nat.le_refl _, ?_⟩
  apply reached_own <;> rintro _ ⟨⟩ <;> rfl

end Reaching

section Calls

variable {c c₁ c' : Channel} {payload : Payload} {a : Channel.Call}

lemma Appended.later (h : Appended c₁ payload c') (hlater : Later c c₁) : Later c c' := by
  refine hlater.trans ?_
  rw [h.fields]
  exact ⟨rfl, h.sequence, Leq.refl _⟩

lemma Appended.told (h : Appended c₁ payload c') (hring : c₁.ring = c.ring)
    (hreached : Reached c₁ payload.fields) : ∀ e ∈ c'.ring, e ∈ c.ring ∨ Told c' e.1 := by
  intro e he
  rcases h.ring e he with hold | ⟨hsequence, hnew, -⟩
  · exact .inl (hring ▸ hold)
  · right
    have hlater := h.later (Later.refl c₁)
    rw [hnew]
    refine ⟨⟨c₁.draftGeneration, ?_, ?_⟩, Nat.le_refl _, hreached.later hlater⟩
    · rw [hlater.execution]
      rfl
    · exact hlater.state.generation

lemma appendChunks_later {key : DraftKey} {offset : Nat} {chunks : List (List Char)} :
    Later c (c.appendChunks key offset chunks).2 ∧
      ∀ e ∈ (c.appendChunks key offset chunks).2.ring,
        e ∈ c.ring ∨ Told (c.appendChunks key offset chunks).2 e.1 := by
  induction chunks generalizing c offset with
  | nil => exact ⟨Later.refl c, fun e he => .inl he⟩
  | cons chunk chunks ih =>
    have happended := appended c (.textDelta key.1 key.2 offset chunk)
    have hlater := happended.later (Later.refl c)
    have htold := happended.told rfl (by apply reached_own <;> rintro _ ⟨⟩)
    rw [Channel.appendChunks]
    generalize c.append (.textDelta key.1 key.2 offset chunk) = result at *
    obtain ⟨r, c₁⟩ := result
    cases r with
    | error e => exact ⟨hlater, htold⟩
    | ok u =>
      obtain ⟨hrest, hring⟩ := @ih c₁ (offset + chunk.length)
      refine ⟨hlater.trans hrest, ?_⟩
      intro e he
      rcases hring e he with hold | hnew
      · rcases htold e hold with hold | hnew
        · exact .inl hold
        · exact .inr (hnew.later hrest)
      · exact .inr hnew

/-- Nothing goes back when the calls are in order, also when a call raises, and the new events of
the ring say what the channel has reached. -/
lemma Called.later (h : Called c a c') (hin : c.InOrder a)
    (hended : c.terminal = isTerminal c.status) :
    Later c c' ∧ ∀ e ∈ c'.ring, e ∈ c.ring ∨ Told c' e.1 := by
  cases h with
  | unchanged => exact ⟨Later.refl c, fun e he => .inl he⟩
  | @unexplained reason hterminal =>
    have hrank : statusRank c.status ≤ statusRank .stopping := by
      rw [hterminal] at hended
      revert hended
      cases c.status <;> simp [isTerminal, statusRank]
    refine ⟨⟨rfl, Nat.le_refl _, ?_⟩, fun e he => .inl he⟩
    exact ⟨hrank, stageRegresses_refl _, Nat.le_refl _, fun _ ht => ht, Nat.le_refl _⟩
  | @status status reason r _ hterminal hstatus horder h =>
    have hrank := statusRank_le (hended.symm.trans hterminal) hstatus horder
    refine ⟨h.later ⟨rfl, Nat.le_refl _, ?_⟩, h.told rfl ?_⟩
    · exact ⟨hrank, stageRegresses_refl _, Nat.le_refl _, fun _ ht => ht, Nat.le_refl _⟩
    · apply reached_own <;> rintro _ ⟨⟩
      rfl
  | @stage stage value _ hterminal hvalue h =>
    refine ⟨h.later ⟨rfl, Nat.le_refl _, ?_⟩, h.told rfl ?_⟩
    · exact ⟨Nat.le_refl _, hin value hvalue, Nat.le_refl _, fun _ ht => ht, Nat.le_refl _⟩
    · apply reached_own <;> rintro _ ⟨⟩ <;> rfl
  | @tasks completed total _ hterminal hpos hcompleted hle h =>
    obtain ⟨htotal, hnext⟩ := hin
    refine ⟨h.later ⟨rfl, Nat.le_refl _, ?_⟩, h.told rfl ?_⟩
    · refine ⟨Nat.le_refl _, stageRegresses_refl _, ?_, ?_, Nat.le_refl _⟩
      · simp only [Channel.state, Channel.withTasks]
        omega
      · intro t ht
        have hsame := htotal t ht
        simp only [Channel.state, Channel.withTasks, Option.some.injEq]
        omega
    · apply reached_own <;> rintro _ ⟨⟩ <;> rfl
  | text hterminal hcheck hchunks =>
    obtain ⟨hlater, hring⟩ := appendChunks_later (c := { c with draft := c.draft.write _ })
    refine ⟨⟨hlater.execution, hlater.sequence, hlater.state⟩, hring⟩
  | reset hterminal h =>
    refine ⟨h.later ⟨rfl, Nat.le_refl _, ?_⟩, h.told rfl ?_⟩
    · exact ⟨Nat.le_refl _, stageRegresses_refl _, Nat.le_refl _, fun _ ht => ht, Nat.le_succ _⟩
    · apply reached_own <;> rintro _ ⟨⟩
  | @finish status publicError _ hterminal hstatus h =>
    have hrank : statusRank c.status ≤ statusRank status := by
      revert hstatus
      cases status <;> cases c.status <;> simp [isTerminal, statusRank]
    refine ⟨h.later ⟨rfl, Nat.le_refl _, ?_⟩, h.told rfl ?_⟩
    · exact ⟨hrank, stageRegresses_refl _, Nat.le_refl _, fun _ ht => ht, Nat.le_refl _⟩
    · apply reached_own <;> rintro _ ⟨⟩
      rfl

lemma appendChunks_fields {key : DraftKey} {offset : Nat} {chunks : List (List Char)} :
    (c.appendChunks key offset chunks).2 = { c with
      sequence := (c.appendChunks key offset chunks).2.sequence
      ring := (c.appendChunks key offset chunks).2.ring
      ringBytes := (c.appendChunks key offset chunks).2.ringBytes } := by
  induction chunks generalizing c offset with
  | nil => rfl
  | cons chunk chunks ih =>
    have happended := appended c (.textDelta key.1 key.2 offset chunk)
    have hfields := happended.fields
    rw [Channel.appendChunks]
    generalize c.append (.textDelta key.1 key.2 offset chunk) = result at *
    obtain ⟨r, c₁⟩ := result
    cases r with
    | error e => exact hfields
    | ok u =>
      have hrest := @ih c₁ (offset + chunk.length)
      simp only [] at hfields ⊢
      rw [hrest, hfields]

/-- What a channel keeps of itself while it takes calls: its limits stay, its numbers grow. -/
structure Grown (c c' : Channel) : Prop where
  execution : c'.execution = c.execution
  maxEvents : c'.maxEvents = c.maxEvents
  maxBytes : c'.maxBytes = c.maxBytes
  maxSubscribers : c'.maxSubscribers = c.maxSubscribers
  sequence : c.sequence ≤ c'.sequence
  draftGeneration : c.draftGeneration ≤ c'.draftGeneration

lemma Grown.refl (c : Channel) : Grown c c := ⟨rfl, rfl, rfl, rfl, Nat.le_refl _, Nat.le_refl _⟩

lemma Appended.grown {payload : Payload} (h : Appended c payload c') : Grown c c' := by
  have hsequence := h.sequence
  rw [h.fields]
  exact ⟨rfl, rfl, rfl, rfl, hsequence, Nat.le_refl _⟩

theorem Called.grown (h : Called c a c') : Grown c c' := by
  cases h with
  | unchanged | unexplained => exact ⟨rfl, rfl, rfl, rfl, Nat.le_refl _, Nat.le_refl _⟩
  | status _ _ _ h | stage _ _ h | tasks _ _ _ _ h | finish _ _ h =>
    have hgrown := h.grown
    exact ⟨hgrown.execution, hgrown.maxEvents, hgrown.maxBytes, hgrown.maxSubscribers,
      hgrown.sequence, hgrown.draftGeneration⟩
  | @text _ _ _ _ δ chunks =>
    have hlater : Later { c with draft := c.draft.write δ }
        ({ c with draft := c.draft.write δ }.appendChunks δ.key δ.offset chunks).2 :=
      appendChunks_later.1
    rw [appendChunks_fields]
    exact ⟨rfl, rfl, rfl, rfl, hlater.sequence, Nat.le_refl _⟩
  | reset _ h =>
    have hgrown := h.grown
    exact ⟨hgrown.execution, hgrown.maxEvents, hgrown.maxBytes, hgrown.maxSubscribers,
      hgrown.sequence, (Nat.le_succ _).trans hgrown.draftGeneration⟩

/-- The most events that a call adds. -/
def Channel.Call.events : Channel.Call → Nat
  | .textDelta _ _ _ text => text.length + 1
  | .setStatus .. | .setStage _ | .setTaskProgress .. | .reset _ | .finish .. => 1

lemma Appended.sequence_le {payload : Payload} (h : Appended c payload c') :
    c'.sequence ≤ c.sequence + 1 := by
  rcases h.outcome with rfl | rfl | ⟨size, -, rfl⟩
  · exact Nat.le_succ _
  · exact Nat.le_refl _
  · exact Nat.le_refl _

lemma appendChunks_sequence_le {key : DraftKey} {offset : Nat} {chunks : List (List Char)} :
    (c.appendChunks key offset chunks).2.sequence ≤ c.sequence + chunks.length := by
  induction chunks generalizing c offset with
  | nil => exact Nat.le_refl _
  | cons chunk chunks ih =>
    have hfirst := (appended c (.textDelta key.1 key.2 offset chunk)).sequence_le
    rw [Channel.appendChunks, List.length_cons]
    generalize c.append (.textDelta key.1 key.2 offset chunk) = result at *
    obtain ⟨r, c₁⟩ := result
    cases r with
    | error e => exact hfirst.trans (by omega)
    | ok u =>
      have hrest := @ih c₁ (offset + chunk.length)
      dsimp only at hfirst ⊢
      omega

/-- The numbers of a channel grow by no more than the events of its calls. -/
theorem Called.counted (h : Called c a c') :
    c'.sequence ≤ c.sequence + a.events ∧ c'.draftGeneration ≤ c.draftGeneration + a.events := by
  cases h with
  | unchanged | unexplained => exact ⟨Nat.le_add_right _ _, Nat.le_add_right _ _⟩
  | status _ _ _ h | stage _ _ h | tasks _ _ _ _ h | finish _ _ h =>
    refine ⟨h.sequence_le, ?_⟩
    rw [h.fields]
    exact Nat.le_succ _
  | @text _ _ _ text δ chunks _ hcheck hchunks =>
    obtain ⟨_, -, hfit⟩ := except_bind_ok.mp hchunks
    obtain ⟨-, fitting, -, hsplit⟩ := fitChunks_ok hfit
    have hlength := splitUtf8From_length hsplit
    rw [(Delta.check_ok hcheck).2.2] at hlength
    refine ⟨appendChunks_sequence_le.trans (Nat.add_le_add_left hlength _), ?_⟩
    rw [appendChunks_fields]
    exact Nat.le_add_right _ _
  | reset _ h =>
    refine ⟨h.sequence_le, ?_⟩
    rw [h.fields]
    exact Nat.le_refl _

lemma Called.unchanged_of_terminal (h : Called c a c')
    (hterminal : c.terminal = true) : c' = c := by
  cases h with
  | unchanged => rfl
  | unexplained hrunning => simp [hterminal] at hrunning
  | status hrunning => simp [hterminal] at hrunning
  | stage hrunning => simp [hterminal] at hrunning
  | tasks hrunning => simp [hterminal] at hrunning
  | text hrunning => simp [hterminal] at hrunning
  | reset hrunning => simp [hterminal] at hrunning
  | finish hrunning => simp [hterminal] at hrunning

/-- A channel whose terminal flag says that its status is terminal. -/
lemma Called.ended (h : Called c a c') (hended : c.terminal = isTerminal c.status) :
    c'.terminal = isTerminal c'.status := by
  cases h with
  | unchanged => exact hended
  | unexplained hterminal => exact hterminal
  | status hterminal hstatus horder h =>
    rw [h.fields]
    exact hterminal.trans hstatus.symm
  | stage hterminal hvalue h =>
    rw [h.fields]
    exact hended
  | tasks hterminal hpos hcompleted hle h =>
    rw [h.fields]
    exact hended
  | text hterminal hcheck hchunks =>
    rw [appendChunks_fields]
    exact hended
  | reset hterminal h =>
    rw [h.fields]
    exact hended
  | finish hterminal hstatus h =>
    rw [h.fields]
    exact hstatus.symm

end Calls

section Reducing

variable {c : Channel} {m : ExecutionEvent} {current : Option ExecutionState}

/-- The state of a client after a message, by the change that the message makes. -/
inductive Reduction (current : Option ExecutionState) (m : ExecutionEvent) :
    Option ExecutionState → Prop where
  | kept : Reduction current m current
  | snapshot {state : ExecutionState} {s : Snapshot} {g : Nat} (hpayload : m.payload = .snapshot s)
      (hgeneration : m.draftGeneration = some g) (hstate : state.executionId = m.executionId)
      (hhistory : some state.historyId = m.historyId) (hturn : some state.turnId = m.turnId)
      (hfields : state.fields = m.payload.fields) (hnumber : state.sequence = m.sequence)
      (hdraft : state.draftGeneration = g) : Reduction current m (some state)
  | ended {state : ExecutionState} {s : Snapshot} (hpayload : m.payload = .snapshot s)
      (hcurrent : current = some state)
      (hstatus : isTerminal s.status = true) :
      Reduction current m (some { state with status := s.status, stopReason := s.stopReason })
  | next {state next : ExecutionState} {g : Nat} (hevent : ∀ s, m.payload ≠ .snapshot s)
      (hgeneration : m.draftGeneration = some g) (hcurrent : current = some state)
      (hstate : next.executionId = state.executionId) (hhistory : next.historyId = state.historyId)
      (hturn : next.turnId = state.turnId) (hnumber : next.sequence = m.sequence)
      (hdraft : next.draftGeneration = g)
      (hfields : next.fields = {
        status := some (m.payload.progressFields.status.getD state.status)
        stage := some (m.payload.progressFields.stage.getD state.stage)
        completedTasks := some (m.payload.progressFields.completedTasks.getD state.completedTasks)
        totalTasks := some (m.payload.progressFields.totalTasks.getD state.totalTasks) }) :
      Reduction current m (some next)

lemma envelope?_eq_some {e : Envelope} (h : envelope? m = some e) :
    e.executionId = m.executionId ∧ some e.historyId = m.historyId ∧ some e.turnId = m.turnId ∧
      e.sequence = m.sequence ∧ m.draftGeneration = some e.draftGeneration := by
  unfold envelope? at h
  split at h
  · next historyId turnId generation hhistory hturn hgeneration =>
    split at h
    · cases h
      exact ⟨rfl, hhistory.symm, hturn.symm, rfl, hgeneration⟩
    · cases h
  · cases h

lemma reduction_fromSnapshot {e : Envelope} {s : Snapshot} (he : envelope? m = some e)
    (hpayload : m.payload = .snapshot s) : Reduction current m (fromSnapshot current e s).state := by
  obtain ⟨hid, hhistory, hturn, hsequence, hgeneration⟩ := envelope?_eq_some he
  unfold fromSnapshot
  cases reportDraft s.draft with
  | none => exact .kept
  | some draft =>
    refine .snapshot hpayload hgeneration hid hhistory hturn ?_ hsequence rfl
    rw [hpayload]
    rfl

lemma reduction_reduceSnapshot {e : Envelope} {s : Snapshot} (he : envelope? m = some e)
    (hpayload : m.payload = .snapshot s) :
    Reduction current m (reduceSnapshot current e s).state := by
  unfold reduceSnapshot
  cases current with
  | none =>
    simp only []
    split
    · exact reduction_fromSnapshot he hpayload
    · exact .kept
  | some state =>
    simp only []
    split
    · exact .kept
    split
    · exact .kept
    split
    · split
      · next hended => exact .ended hpayload rfl hended.1
      split
      · exact .kept
      · exact .kept
    split
    · exact .kept
    split
    · exact .kept
    split
    · exact .kept
    · exact reduction_fromSnapshot he hpayload

lemma reduction_reduceNext (state : ExecutionState) {e : Envelope} (he : envelope? m = some e)
    (hevent : ∀ s, m.payload ≠ .snapshot s) :
    Reduction (some state) m (reduceNext state e m.payload).state := by
  obtain ⟨-, -, -, hsequence, hgeneration⟩ := envelope?_eq_some he
  unfold reduceNext
  split
  · exact .kept
  split
  · exact .kept
  split
  · exact .kept
  split
  · exact .kept
  split
  · exact .kept
  cases nextDraft state.draft m.payload with
  | none => exact .kept
  | some draft => exact .next hevent hgeneration rfl rfl rfl rfl hsequence rfl rfl

theorem reduction (current : Option ExecutionState) (m : ExecutionEvent) :
    Reduction current m (reduceExecutionEvent current m).state := by
  unfold reduceExecutionEvent
  split
  · exact .kept
  cases he : envelope? m with
  | none => exact .kept
  | some e =>
    simp only []
    split
    · exact .kept
    cases hpayload : m.payload with
    | snapshot s => exact reduction_reduceSnapshot he hpayload
    | _ =>
      cases current with
      | none => exact .kept
      | some state =>
        have hnext := reduction_reduceNext state he (by simp [hpayload])
        rw [hpayload] at hnext
        exact hnext

/-- The client keeps to what the channel has said. -/
lemma known_reduce (hm : Told c m) (hcurrent : ∀ s ∈ current, Known c s) :
    ∀ s ∈ (reduceExecutionEvent current m).state, Known c s := by
  obtain ⟨g, hsource, hg⟩ := hm.source
  have hgeneration : m.draftGeneration = some g := by rw [hsource]; rfl
  have hreduction := reduction current m
  generalize (reduceExecutionEvent current m).state = next at hreduction
  rintro new rfl
  cases hreduction with
  | kept => exact hcurrent new rfl
  | snapshot hpayload hgen hid hhistory hturn hfields hnumber hdraft =>
    rw [hsource] at hid hhistory hturn
    refine ⟨hid, Option.some.inj hhistory, Option.some.inj hturn, hnumber ▸ hm.sequence, ?_, ?_⟩
    · rw [hdraft, ← Option.some.inj (hgeneration.symm.trans hgen)]
      exact hg
    · rw [hfields]
      exact hm.reached
  | @ended state s hpayload hsome hstatus =>
    have hold := hcurrent state hsome
    have hreached := hm.reached
    rw [hpayload] at hreached
    exact ⟨hold.execution, hold.history, hold.turn, hold.sequence, hold.generation,
      hreached.status, hold.reached.stage, hold.reached.completed, hold.reached.total⟩
  | @next state _ g' hevent hgen hsome hid hhistory hturn hnumber hdraft hfields =>
    have hold := hcurrent state hsome
    have hreached : Reached c m.payload.progressFields := by
      have hreached := hm.reached
      cases hpayload : m.payload with
      | snapshot s => exact absurd hpayload (hevent s)
      | _ =>
        rw [hpayload] at hreached
        exact hreached
    refine ⟨hid.trans hold.execution, hhistory.trans hold.history, hturn.trans hold.turn,
      hnumber ▸ hm.sequence, ?_, ?_⟩
    · rw [hdraft, ← Option.some.inj (hgeneration.symm.trans hgen)]
      exact hg
    · rw [hfields]
      refine ⟨?_, ?_, ?_, ?_⟩
      · rintro _ ⟨⟩
        cases hs : m.payload.progressFields.status with
        | none => exact hold.reached.status _ rfl
        | some s => exact hreached.status s hs
      · rintro _ ⟨⟩
        cases hs : m.payload.progressFields.stage with
        | none => exact hold.reached.stage _ rfl
        | some s => exact hreached.stage s hs
      · rintro _ ⟨⟩
        cases hs : m.payload.progressFields.completedTasks with
        | none => exact hold.reached.completed _ rfl
        | some s => exact hreached.completed s hs
      · rintro _ ⟨⟩
        cases hs : m.payload.progressFields.totalTasks with
        | none => exact hold.reached.total _ rfl
        | some s => exact hreached.total s hs

end Reducing

end ChatBI.Events
