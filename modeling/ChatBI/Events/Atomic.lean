import ChatBI.Events.Delivery
import ChatBI.Events.Reaching
import ChatBI.Lib.Transition

/-!
# Calls that raise

Which calls of a channel leave it as it was when they raise. Most calls write their fields before
they append the event; `text_delta` looks first whether its events fit.
-/

namespace ChatBI.Events

open ChatBI.Lib ChatBI.Store

/-- What subscribers and snapshots see of a channel. -/
structure Unchanged (c c' : Channel) : Prop where
  snapshot : c'.snapshotOf c'.draft.parts = c.snapshotOf c.draft.parts
  terminal : c'.terminal = c.terminal
  ring : c'.ring = c.ring
  sequence : c'.sequence = c.sequence

/-- The event that a changed channel appends can be written, and fits or says nothing new. -/
def Kept (c c₁ : Channel) (payload : Payload) : Prop :=
  (c₁.envelope (c₁.sequence + 1) payload).Writable ∧
    (Utf8.size (JsonDoc.dumps (c₁.envelope (c₁.sequence + 1) payload).toJson) ≤ c₁.maxBytes ∨
      c₁.state none = c.state none ∧ c₁.terminal = c.terminal)

/-- Calls that are rejected before they write, that append an event that fits, or that have
nothing to change. -/
def AtomicCall (c : Channel) : Channel.Call → Prop
  | .setStatus status reason =>
    isTerminal status = true ∨ c.terminal = true ∨ Channel.order status < Channel.order c.status ∨
      if status = .stopping then
        match reason with
        | none => c.status = .stopping
        | some reason =>
          Kept c { c with status := status, stopReason := some reason }
            (.progress { status := some status, stopReason := some reason })
      else Kept c { c with status := status } (.progress { status := some status })
  | .setStage stage =>
    ∀ value ∈ ExecutionStage.ofValue? stage, c.terminal = true ∨
      Kept c { c with stage := some value } { c with stage := some value }.progressPayload
  | .setTaskProgress completed total =>
    (total < 1 ∨ completed < 0 ∨ total < completed) ∨ c.terminal = true ∨
      Kept c (c.withTasks completed.toNat total.toNat)
        (c.withTasks completed.toNat total.toNat).progressPayload
  | .textDelta .. => True
  | .reset reason =>
    reason ≠ "model_retry" ∨ c.terminal = true ∨
      Kept c { c with draftGeneration := c.draftGeneration + 1, draft := {} } (.draftReset reason)
  | .finish status publicError =>
    isTerminal status = false ∨ c.terminal = true ∨
      Kept c { c with status := status, draft := {}, terminal := true }
        (.terminal status (Channel.safeError publicError))

inductive ChannelAction where
  | call (a : Channel.Call)
  | subscribe
  | unsubscribe
  deriving DecidableEq

/-- What an operation leaves, whether it returns or raises. -/
def Channel.operated (c : Channel) : ChannelAction → Channel
  | .call a => (c.call a).2
  | .subscribe => c.subscribe.2
  | .unsubscribe => c.unsubscribe.2

/-- A channel that takes calls and subscribers. -/
def operating (x : Execution) (maxEvents maxBytes maxSubscribers : Nat) :
    System Channel ChannelAction where
  init c := Channel.new x maxEvents maxBytes maxSubscribers = .ok c
  step c a c' := c' = c.operated a

section Subscribers

variable {c : Channel}

/-- A subscription only counts. -/
lemma subscribe_subscribers :
    c.subscribe.2 = { c with subscribers := c.subscribe.2.subscribers } := by
  unfold Channel.subscribe
  split <;> rfl

lemma unsubscribe_subscribers :
    c.unsubscribe.2 = { c with subscribers := c.unsubscribe.2.subscribers } := by
  unfold Channel.unsubscribe
  split <;> rfl

/-- The most events that an operation adds. -/
def ChannelAction.events : ChannelAction → Nat
  | .call a => a.events
  | .subscribe | .unsubscribe => 0

lemma grown_operated (c : Channel) (a : ChannelAction) : Grown c (c.operated a) := by
  cases a with
  | call a => exact (called c a).grown
  | subscribe =>
    rw [Channel.operated, subscribe_subscribers]
    exact ⟨rfl, rfl, rfl, rfl, Nat.le_refl _, Nat.le_refl _⟩
  | unsubscribe =>
    rw [Channel.operated, unsubscribe_subscribers]
    exact ⟨rfl, rfl, rfl, rfl, Nat.le_refl _, Nat.le_refl _⟩

/-- An operation changes an ended channel in its subscribers only. -/
lemma operated_of_terminal (hterminal : c.terminal = true) (a : ChannelAction) :
    ∃ n, c.operated a = { c with subscribers := n } := by
  cases a with
  | call a => exact ⟨c.subscribers, (called c a).unchanged_of_terminal hterminal⟩
  | subscribe => exact ⟨_, subscribe_subscribers⟩
  | unsubscribe => exact ⟨_, unsubscribe_subscribers⟩

/-- The numbers of a channel grow by no more than the events of its operations. -/
lemma counted_operated (c : Channel) (a : ChannelAction) :
    (c.operated a).sequence ≤ c.sequence + a.events ∧
      (c.operated a).draftGeneration ≤ c.draftGeneration + a.events := by
  cases a with
  | call a => exact (called c a).counted
  | subscribe =>
    rw [Channel.operated, subscribe_subscribers]
    exact ⟨Nat.le_refl _, Nat.le_refl _⟩
  | unsubscribe =>
    rw [Channel.operated, unsubscribe_subscribers]
    exact ⟨Nat.le_refl _, Nat.le_refl _⟩

end Subscribers

section Texts

variable {c c' : Channel} {key : DraftKey} {chunks : List (List Char)}

/-- Events that fit are appended. -/
lemma appendChunks_ok {ordinal offset : Nat}
    (h : c.deltaEventsFit key ordinal offset chunks = .ok true)
    (hexecution : c'.execution = c.execution) (hgeneration : c'.draftGeneration = c.draftGeneration)
    (hbytes : c'.maxBytes = c.maxBytes) (hsequence : c'.sequence + 1 = c.sequence + ordinal) :
    (c'.appendChunks key offset chunks).1 = .ok () := by
  induction chunks generalizing c' ordinal offset with
  | nil => rfl
  | cons chunk chunks ih =>
    have henvelope : c'.envelope (c'.sequence + 1) (.textDelta key.1 key.2 offset chunk) =
        c.envelope (c.sequence + ordinal) (.textDelta key.1 key.2 offset chunk) := by
      simp only [Channel.envelope, hexecution, hgeneration, hsequence]
    rw [Channel.deltaEventsFit] at h
    cases htext : (c.envelope (c.sequence + ordinal)
        (.textDelta key.1 key.2 offset chunk)).text with
    | error e =>
      rw [htext] at h
      cases h
    | ok text =>
      simp only [htext] at h
      by_cases hsize : c.maxBytes < Utf8.size text
      · rw [if_pos hsize] at h
        cases h
      · rw [if_neg hsize] at h
        rw [Channel.appendChunks, Channel.append, henvelope, htext]
        simp only [hbytes, if_neg hsize]
        apply ih h
        · exact hexecution
        · exact hgeneration
        · exact hbytes
        · simp only [Channel.push]
          omega

/-- A text delta that raises has not written anything. -/
theorem textDelta_unchanged {field : String} {index : Option Int} {offset : Int}
    {text : List CodePoint} (h : (c.textDelta field index offset text).1 ≠ .ok ()) :
    (c.textDelta field index offset text).2 = c := by
  unfold Channel.textDelta at h ⊢
  cases hcheck : Delta.check field index offset text with
  | error e => rfl
  | ok δ =>
    simp only [hcheck] at h ⊢
    by_cases hterminal : c.terminal = true
    · rw [if_pos hterminal]
    rw [if_neg hterminal] at h ⊢
    cases hchunks : c.deltaChunks δ with
    | error e => rfl
    | ok chunks =>
      simp only [hchunks] at h
      obtain ⟨_, -, hfit⟩ := except_bind_ok.mp hchunks
      exact (h (appendChunks_ok (fitChunks_ok hfit).1 rfl rfl rfl rfl)).elim

end Texts

section Appends

variable {c c₁ c' : Channel} {payload : Payload} {a : Channel.Call}

/-- What an append that raises leaves. -/
lemma append_raises : (c₁.append payload).1 ≠ .ok () ↔
    ¬((c₁.envelope (c₁.sequence + 1) payload).Writable ∧
      Utf8.size (JsonDoc.dumps (c₁.envelope (c₁.sequence + 1) payload).toJson) ≤ c₁.maxBytes) := by
  unfold Channel.append
  by_cases hwritable : (c₁.envelope (c₁.sequence + 1) payload).Writable
  · simp only [text_of_writable hwritable]
    by_cases hsize : c₁.maxBytes <
        Utf8.size (JsonDoc.dumps (c₁.envelope (c₁.sequence + 1) payload).toJson)
    · rw [if_pos hsize]
      exact iff_of_true (by simp) (fun hfits => absurd hfits.2 (Nat.not_le.mpr hsize))
    · rw [if_neg hsize]
      exact iff_of_false (by simp) (fun hnot => hnot ⟨hwritable, Nat.le_of_not_lt hsize⟩)
  · obtain ⟨message, htext⟩ := text_of_not_writable hwritable
    simp only [htext]
    exact iff_of_true (by simp) (fun hfits => hwritable hfits.1)

lemma append_too_large (hwritable : (c₁.envelope (c₁.sequence + 1) payload).Writable)
    (hsize : c₁.maxBytes <
      Utf8.size (JsonDoc.dumps (c₁.envelope (c₁.sequence + 1) payload).toJson)) :
    (c₁.append payload).2 = c₁ := by
  simp only [Channel.append, text_of_writable hwritable, if_pos hsize]

lemma append_not_writable (h : ¬(c₁.envelope (c₁.sequence + 1) payload).Writable) :
    (c₁.append payload).2 = { c₁ with sequence := c₁.sequence + 1 } := by
  obtain ⟨message, htext⟩ := text_of_not_writable h
  simp only [Channel.append, htext]

/-- A call that writes its fields and appends is atomic when its event fits, or when it can be
written and the fields are as before. -/
lemma append_unchanged_iff (hsequence : c₁.sequence = c.sequence)
    (hsame : Unchanged c c₁ ↔ c₁.state none = c.state none ∧ c₁.terminal = c.terminal) :
    ((c₁.append payload).1 ≠ .ok () → Unchanged c (c₁.append payload).2) ↔ Kept c c₁ payload := by
  rw [append_raises]
  unfold Kept
  by_cases hwritable : (c₁.envelope (c₁.sequence + 1) payload).Writable
  · by_cases hsize : c₁.maxBytes <
        Utf8.size (JsonDoc.dumps (c₁.envelope (c₁.sequence + 1) payload).toJson)
    · have hlarge : ¬Utf8.size (JsonDoc.dumps
          (c₁.envelope (c₁.sequence + 1) payload).toJson) ≤ c₁.maxBytes := Nat.not_le.mpr hsize
      rw [append_too_large hwritable hsize, hsame]
      constructor
      · intro h
        exact ⟨hwritable, .inr (h (fun hfits => hlarge hfits.2))⟩
      · rintro ⟨-, hfits | hstate⟩ -
        · exact absurd hfits hlarge
        · exact hstate
    · have hfits := Nat.le_of_not_lt hsize
      exact iff_of_true (fun h => absurd ⟨hwritable, hfits⟩ h) ⟨hwritable, .inl hfits⟩
  · refine iff_of_false ?_ (fun h => hwritable h.1)
    intro h
    have hunchanged := (h (fun hfits => hwritable hfits.1)).sequence
    rw [append_not_writable hwritable] at hunchanged
    exact absurd (hunchanged.trans hsequence.symm) (Nat.succ_ne_self c₁.sequence)

/-- A channel whose parts build a draft. -/
def Drafted (c : Channel) : Prop := ∃ draft, c.draft.Ok draft

lemma Called.drafted (h : Called c a c') (hdraft : Drafted c) : Drafted c' := by
  cases h with
  | unchanged => exact hdraft
  | unexplained => exact hdraft
  | status _ _ _ h =>
    rw [h.fields]
    exact hdraft
  | stage _ _ h =>
    rw [h.fields]
    exact hdraft
  | tasks _ _ _ _ h =>
    rw [h.fields]
    exact hdraft
  | text hterminal hcheck hchunks =>
    rw [appendChunks_fields]
    obtain ⟨draft, hok⟩ := hdraft
    obtain ⟨_, hindraft, -⟩ := except_bind_ok.mp hchunks
    obtain ⟨hkey, -⟩ := Delta.check_ok hcheck
    obtain ⟨hindex, hoffset, -, -⟩ := Draft.check_ok hindraft
    obtain ⟨draft', -, hwritten⟩ :=
      hok.write ⟨hkey, hindex, by rw [← hok.lengths, hoffset]⟩
    exact ⟨draft', hwritten⟩
  | reset _ h =>
    rw [h.fields]
    exact ⟨[], Draft.Ok.empty⟩
  | finish _ _ h =>
    rw [h.fields]
    exact ⟨[], Draft.Ok.empty⟩

lemma Drafted.shown (h : Drafted c) : ∃ draft, c.snapshotOf c.draft.parts = .ok (c.state draft) := by
  obtain ⟨draft, hdraft⟩ := h
  exact ⟨_, snapshotOf_ok hdraft⟩

lemma Drafted.snapshot (h : Drafted c) : ∃ m, c.snapshot = .ok m := by
  obtain ⟨draft, hshown⟩ := h.shown
  rw [Channel.snapshot, hshown]
  exact ⟨_, rfl⟩

/-- Fields other than the draft: what snapshots show has not changed when they have not. -/
lemma unchanged_iff (h : Drafted c) (hdraft : c₁.draft = c.draft) (hring : c₁.ring = c.ring)
    (hsequence : c₁.sequence = c.sequence) :
    Unchanged c c₁ ↔ c₁.state none = c.state none ∧ c₁.terminal = c.terminal := by
  constructor
  · intro hsame
    refine ⟨?_, hsame.terminal⟩
    obtain ⟨draft, hpayload⟩ := Drafted.shown h
    have hpayload₁ := hsame.snapshot
    rw [hpayload] at hpayload₁
    obtain ⟨draft', -, hstate⟩ := except_map_ok.mp hpayload₁
    simp only [Channel.state, Snapshot.mk.injEq] at hstate ⊢
    obtain ⟨hstatus, hstage, hcompleted, htotal, hreason, hgeneration, -⟩ := hstate
    exact ⟨hstatus, hstage, hcompleted, htotal, hreason, hgeneration, trivial⟩
  · rintro ⟨hstate, hterminal⟩
    refine ⟨?_, hterminal, hring, hsequence⟩
    have hall : ∀ draft, c₁.state draft = c.state draft := by
      intro draft
      simp only [Channel.state, Snapshot.mk.injEq] at hstate ⊢
      obtain ⟨hstatus, hstage, hcompleted, htotal, hreason, hgeneration, -⟩ := hstate
      exact ⟨hstatus, hstage, hcompleted, htotal, hreason, hgeneration, trivial⟩
    unfold Channel.snapshotOf
    rw [funext hall, hdraft]

end Appends

section Runs

variable {x : Execution} {maxEvents maxBytes maxSubscribers : Nat} {c : Channel}

lemma drafted (h : (operating x maxEvents maxBytes maxSubscribers).Reachable c) : Drafted c := by
  refine h.invariant (I := Drafted) ?_ ?_
  · intro c hnew
    obtain ⟨_, -, hnew⟩ := except_bind_ok.mp hnew
    obtain rfl := except_pure_ok.mp hnew
    exact ⟨[], Draft.Ok.empty⟩
  · rintro c a c' hdraft rfl
    cases a with
    | call a => exact (called c a).drafted hdraft
    | subscribe =>
      rw [Channel.operated, subscribe_subscribers]
      exact hdraft
    | unsubscribe =>
      rw [Channel.operated, unsubscribe_subscribers]
      exact hdraft

lemma Unchanged.refl (c : Channel) : Unchanged c c := ⟨rfl, rfl, rfl, rfl⟩

/-- A call that writes fields other than the draft. -/
lemma append_fields_iff (hdraft : Drafted c) (c₁ : Channel) (payload : Payload)
    (hsame : c₁.draft = c.draft) (hring : c₁.ring = c.ring) (hsequence : c₁.sequence = c.sequence) :
    ((c₁.append payload).1 ≠ .ok () → Unchanged c (c₁.append payload).2) ↔ Kept c c₁ payload :=
  append_unchanged_iff hsequence (unchanged_iff hdraft hsame hring hsequence)

/-- A reset always changes the generation that snapshots show. -/
lemma reset_changes (hdraft : Drafted c) :
    Unchanged c { c with draftGeneration := c.draftGeneration + 1, draft := {} } ↔
      { c with draftGeneration := c.draftGeneration + 1, draft := {} }.state none = c.state none ∧
        { c with draftGeneration := c.draftGeneration + 1, draft := {} }.terminal = c.terminal := by
  apply iff_of_false
  · intro hsame
    obtain ⟨draft, hpayload⟩ := Drafted.shown hdraft
    have hpayload₁ := hsame.snapshot
    rw [hpayload] at hpayload₁
    obtain ⟨draft', -, hstate⟩ := except_map_ok.mp hpayload₁
    have hgeneration := congrArg Snapshot.draftGeneration hstate
    exact absurd hgeneration (Nat.succ_ne_self c.draftGeneration)
  · intro hsame
    have hgeneration := congrArg Snapshot.draftGeneration hsame.1
    exact absurd hgeneration (Nat.succ_ne_self c.draftGeneration)

lemma finish_changes {status : ExecutionStatus} (hterminal : c.terminal = false) :
    Unchanged c { c with status := status, draft := {}, terminal := true } ↔
      { c with status := status, draft := {}, terminal := true }.state none = c.state none ∧
        { c with status := status, draft := {}, terminal := true }.terminal = c.terminal := by
  apply iff_of_false
  · intro hsame
    have hfinal := hsame.terminal
    rw [hterminal] at hfinal
    cases hfinal
  · intro hsame
    have hfinal := hsame.2
    rw [hterminal] at hfinal
    cases hfinal

/-- A stop without a reason writes the status before it raises. -/
lemma stopping_unchanged_iff (hdraft : Drafted c) :
    Unchanged c { c with status := .stopping } ↔ c.status = .stopping := by
  have hiff : Unchanged c { c with status := .stopping } ↔
      { c with status := .stopping }.state none = c.state none ∧
        { c with status := .stopping }.terminal = c.terminal := unchanged_iff hdraft rfl rfl rfl
  rw [hiff]
  constructor
  · intro hsame
    exact (congrArg Snapshot.status hsame.1).symm
  · intro hstopping
    have hstate : { c with status := .stopping } = c := by rw [← hstopping]
    rw [hstate]
    exact ⟨rfl, rfl⟩

lemma setStatus_atomic_iff (hdraft : Drafted c) (status : ExecutionStatus)
    (reason : Option Text) :
    ((c.setStatus status reason).1 ≠ .ok () → Unchanged c (c.setStatus status reason).2) ↔
      AtomicCall c (.setStatus status reason) := by
  simp only [Channel.setStatus, AtomicCall]
  by_cases hstatus : isTerminal status = true
  · rw [if_pos hstatus]
    exact iff_of_true (fun _ => Unchanged.refl c) (.inl hstatus)
  by_cases hterminal : c.terminal = true
  · rw [if_neg hstatus, if_pos hterminal]
    exact iff_of_true (fun _ => Unchanged.refl c) (.inr (.inl hterminal))
  by_cases horder : Channel.order status < Channel.order c.status
  · rw [if_neg hstatus, if_neg hterminal, if_pos horder]
    exact iff_of_true (fun _ => Unchanged.refl c) (.inr (.inr (.inl horder)))
  rw [if_neg hstatus, if_neg hterminal, if_neg horder]
  rw [or_iff_right hstatus, or_iff_right hterminal, or_iff_right horder]
  by_cases hstopping : status = .stopping
  · rw [if_pos hstopping, if_pos hstopping]
    subst hstopping
    cases reason with
    | none =>
      rw [← stopping_unchanged_iff hdraft]
      exact forall_prop_of_true (by simp)
    | some reason => exact append_fields_iff hdraft _ _ rfl rfl rfl
  · rw [if_neg hstopping, if_neg hstopping]
    exact append_fields_iff hdraft _ _ rfl rfl rfl

lemma setStage_atomic_iff (hdraft : Drafted c) (stage : String) :
    ((c.setStage stage).1 ≠ .ok () → Unchanged c (c.setStage stage).2) ↔
      AtomicCall c (.setStage stage) := by
  simp only [Channel.setStage, AtomicCall]
  cases hvalue : ExecutionStage.ofValue? stage with
  | none =>
    apply iff_of_true
    · intro _
      exact Unchanged.refl c
    · intro value hnone
      cases hnone
  | some value =>
    simp only [Option.mem_some_iff, forall_eq']
    by_cases hterminal : c.terminal = true
    · rw [if_pos hterminal]
      exact iff_of_true (fun _ => Unchanged.refl c) (.inl hterminal)
    rw [if_neg hterminal, or_iff_right hterminal]
    exact append_fields_iff hdraft _ _ rfl rfl rfl

lemma setTaskProgress_atomic_iff (hdraft : Drafted c) (completed total : Int) :
    ((c.setTaskProgress completed total).1 ≠ .ok () →
        Unchanged c (c.setTaskProgress completed total).2) ↔
      AtomicCall c (.setTaskProgress completed total) := by
  simp only [Channel.setTaskProgress, AtomicCall]
  by_cases hinvalid : total < 1 ∨ completed < 0 ∨ total < completed
  · rw [if_pos hinvalid]
    exact iff_of_true (fun _ => Unchanged.refl c) (.inl hinvalid)
  by_cases hterminal : c.terminal = true
  · rw [if_neg hinvalid, if_pos hterminal]
    exact iff_of_true (fun _ => Unchanged.refl c) (.inr (.inl hterminal))
  rw [if_neg hinvalid, if_neg hterminal, or_iff_right hinvalid, or_iff_right hterminal]
  exact append_fields_iff hdraft _ _ rfl rfl rfl

lemma reset_atomic_iff (hdraft : Drafted c) (reason : String) :
    ((c.reset reason).1 ≠ .ok () → Unchanged c (c.reset reason).2) ↔
      AtomicCall c (.reset reason) := by
  simp only [Channel.reset, AtomicCall]
  by_cases hreason : reason ≠ "model_retry"
  · rw [if_pos hreason]
    exact iff_of_true (fun _ => Unchanged.refl c) (.inl hreason)
  by_cases hterminal : c.terminal = true
  · rw [if_neg hreason, if_pos hterminal]
    exact iff_of_true (fun _ => Unchanged.refl c) (.inr (.inl hterminal))
  rw [if_neg hreason, if_neg hterminal, or_iff_right hreason, or_iff_right hterminal]
  exact append_unchanged_iff rfl (reset_changes hdraft)

lemma finish_atomic_iff (status : ExecutionStatus) (publicError : Option PublicError) :
    ((c.finish status publicError).1 ≠ .ok () → Unchanged c (c.finish status publicError).2) ↔
      AtomicCall c (.finish status publicError) := by
  simp only [Channel.finish, AtomicCall]
  by_cases hstatus : isTerminal status = true
  swap
  · rw [if_pos hstatus]
    rw [Bool.not_eq_true] at hstatus
    exact iff_of_true (fun _ => Unchanged.refl c) (.inl hstatus)
  by_cases hterminal : c.terminal = true
  · rw [if_neg (not_not_intro hstatus), if_pos hterminal]
    exact iff_of_true (fun _ => Unchanged.refl c) (.inr (.inl hterminal))
  rw [if_neg (not_not_intro hstatus), if_neg hterminal, or_iff_right (by simp [hstatus]),
    or_iff_right hterminal]
  rw [Bool.not_eq_true] at hterminal
  exact append_unchanged_iff rfl (finish_changes hterminal)

/-- A call that raises leaves a reachable channel as it was exactly when it is an atomic one. -/
theorem call_atomic_iff (h : (operating x maxEvents maxBytes maxSubscribers).Reachable c)
    (a : Channel.Call) :
    ((c.call a).1 ≠ .ok () → Unchanged c (c.call a).2) ↔ AtomicCall c a := by
  have hdraft := drafted h
  cases a with
  | setStatus status reason => exact setStatus_atomic_iff hdraft status reason
  | setStage stage => exact setStage_atomic_iff hdraft stage
  | setTaskProgress completed total => exact setTaskProgress_atomic_iff hdraft completed total
  | textDelta field index offset text =>
    apply iff_of_true
    · intro hraises
      rw [Channel.call, textDelta_unchanged hraises]
      exact Unchanged.refl c
    · trivial
  | reset reason => exact reset_atomic_iff hdraft reason
  | finish status publicError => exact finish_atomic_iff status publicError

/-- A second stop without a reason raises and changes nothing. -/
theorem call_atomic_iff_stopping :
    ∃ c, (operating ⟨"e", "h", "t", .stopping, some "user"⟩ 64 4096 8).Reachable c ∧
      (c.call (.setStatus .stopping none)).1 ≠ .ok () ∧
        Unchanged c (c.call (.setStatus .stopping none)).2 := by
  have hnew : Channel.new ⟨"e", "h", "t", .stopping, some "user"⟩ 64 4096 8 =
      .ok { newChannel with
        execution := ⟨"e", "h", "t", .stopping, some "user"⟩
        status := .stopping
        stopReason := some "user" } := rfl
  have hreached := System.Reachable.of_init
    (M := operating ⟨"e", "h", "t", .stopping, some "user"⟩ 64 4096 8) hnew
  have hraises : ∀ c : Channel, c.status = .stopping → c.terminal = false →
      (c.call (.setStatus .stopping none)).1 ≠ .ok () := by
    intro c hstatus hterminal
    simp [Channel.call, Channel.setStatus, hstatus, hterminal, isTerminal]
  have hatomic := call_atomic_iff hreached (.setStatus .stopping none)
  exact ⟨_, hreached, hraises _ rfl rfl, hatomic.mpr (.inr (.inr (.inr rfl))) (hraises _ rfl rfl)⟩

/-- A new channel that takes a stop without a reason raises and shows the stop. -/
theorem call_raises_stopping :
    (operating newChannel.execution 64 4096 8).Reachable newChannel ∧
      (newChannel.call (.setStatus .stopping none)).1 ≠ .ok () ∧
        ¬Unchanged newChannel (newChannel.call (.setStatus .stopping none)).2 := by
  have hnew : Channel.new newChannel.execution 64 4096 8 = .ok newChannel := rfl
  refine ⟨.of_init hnew, by decide, ?_⟩
  intro hsame
  have hshown := hsame.snapshot
  revert hshown
  decide

end Runs

end ChatBI.Events
