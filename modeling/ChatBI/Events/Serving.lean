import ChatBI.Events.Calls
import ChatBI.Events.Timeline

/-!
# What a channel serves

The payloads that the calls of a channel add to its history, and the invariant of a channel with
its history: the events of the ring lead from payload to payload. Inside one text delta, which may
take several events, the payload of a number holds the text up to that event.
-/

namespace ChatBI.Events

open ChatBI.Lib ChatBI.Store

/-- The payloads while the chunks of one delta are written. -/
def Channel.partials (c : Channel) (key : DraftKey) :
    Dict DraftKey (List Char) → List (List Char) → List (Except String Snapshot)
  | _, [] => []
  | parts, chunk :: chunks =>
    c.snapshotOf (Draft.writePart parts key chunk) ::
      partials c key (Draft.writePart parts key chunk) chunks

/-- The payloads of the sequence numbers that a call adds. -/
def Channel.added (c : Channel) : Channel.Call → List (Except String Snapshot)
  | .textDelta field index offset text =>
    match Delta.check field index offset text with
    | .error _ => []
    | .ok δ =>
      if c.terminal then []
      else match c.deltaChunks δ with
        | .error _ => []
        | .ok chunks => c.partials δ.key c.draft.parts chunks
  | a => if c.terminal then [] else [(c.call a).2.snapshotOf (c.call a).2.draft.parts]

section Appending

variable {c c' : Channel} {payload : Payload}

lemma append_ok (h : (c.append payload).1 = .ok ()) :
    ∃ size, (c.append payload).2 = c.push (c.envelope (c.sequence + 1) payload) size := by
  unfold Channel.append at h ⊢
  cases ht : (c.envelope (c.sequence + 1) payload).text with
  | error e =>
    rw [ht] at h
    cases h
  | ok text =>
    simp only [ht] at h ⊢
    split at h
    · cases h
    · next hfits =>
      rw [if_neg hfits]
      exact ⟨_, rfl⟩

end Appending

section Server

variable {x : Execution} {c c₁ : Channel} {history : List (Except String Snapshot)} {q p : Snapshot}
  {payload : Payload} {draft : ReportDraft}

/-- The draft that a snapshot shows: none before the first text. -/
def shownDraft (d : Draft) (draft : ReportDraft) : Option ReportDraft :=
  if d.parts = [] then none else some draft

lemma snapshotOf_ok {d : Draft} (h : d.Ok draft) :
    c.snapshotOf d.parts = .ok (c.state (shownDraft d draft)) := by
  unfold Channel.snapshotOf Draft.ofParts shownDraft
  split
  · rfl
  · rw [h.built]
    rfl

lemma shownDraft_getD {d : Draft} (h : d.Ok draft) : (shownDraft d draft).getD [] = draft := by
  unfold shownDraft
  split
  · next hnil =>
    have hbuilt := h.built
    rw [hnil] at hbuilt
    exact Except.ok.inj hbuilt
  · rfl

/-- What holds of a channel and the payloads at its numbers. -/
structure Serves (x : Execution) (c : Channel) (history : List (Except String Snapshot)) :
    Prop where
  execution : c.execution = x
  length : history.length = c.sequence + 1
  timeline : Timeline history
  draft : ∃ draft, c.draft.Ok draft ∧ At history c.sequence (c.state (shownDraft c.draft draft))
  terminal : c.terminal = isTerminal c.status
  bytes : c.draft.bytes ≤ maxDraftBytes
  numbers : ∀ i e, c.ring[i]? = some e → e.1.sequence + c.ring.length = c.sequence + 1 + i
  genuine : ∀ e ∈ c.ring, Genuine x history e.1

lemma Genuine.append {m : ExecutionEvent} (h : Genuine x history m)
    (more : List (Except String Snapshot)) : Genuine x (history ++ more) m := by
  have hat : ∀ {k p}, At history k p → At (history ++ more) k p := by
    intro k p hp
    rw [At, List.getElem?_append_left hp.lt]
    exact hp
  cases h with
  | snapshot hp hdraft => exact .snapshot (hat hp) hdraft
  | event hq hp h => exact .event (hat hq) (hat hp) h

lemma Timeline.snoc (h : Timeline history) {k : Nat} (hlength : history.length = k + 1)
    (hq : At history k q) (hadv : Advances q payload p) (hcounts : validCounts p = true) :
    Timeline (history ++ [.ok p]) ∧ At (history ++ [.ok p]) (k + 1) p := by
  have hlast : At (history ++ [.ok p]) (k + 1) p := by
    rw [At, ← hlength, List.getElem?_concat_length]
  have hold : ∀ {i r}, At (history ++ [.ok p]) i r → At history i r ∨ i = k + 1 ∧ r = p := by
    intro i r hr
    by_cases hi : i < history.length
    · left
      rw [At, List.getElem?_append_left hi] at hr
      exact hr
    · have hlt := hr.lt
      rw [List.length_append, List.length_singleton] at hlt
      obtain rfl : i = k + 1 := by omega
      exact .inr ⟨rfl, hr.unique hlast⟩
  have hgeneration : p.draftGeneration ≤ k + 1 := by
    have hqk := h.generation k q hq
    rw [hadv.generation]
    unfold nextGeneration
    split <;> omega
  refine ⟨⟨?_, ?_, ?_⟩, hlast⟩
  · intro i hi
    rw [List.length_append, List.length_singleton] at hi
    by_cases hik : i = k
    · subst hik
      refine ⟨q, p, payload, ?_, hlast, hadv⟩
      rw [At, List.getElem?_append_left hq.lt]
      exact hq
    · obtain ⟨q', p', payload', hq', hp', hadv'⟩ := h.chain i (by omega)
      refine ⟨q', p', payload', ?_, ?_, hadv'⟩
      · rw [At, List.getElem?_append_left hq'.lt]
        exact hq'
      · rw [At, List.getElem?_append_left hp'.lt]
        exact hp'
  · intro i r hr
    rcases hold hr with hr | ⟨-, rfl⟩
    · exact h.counted i r hr
    · exact hcounts
  · intro i r hr
    rcases hold hr with hr | ⟨rfl, rfl⟩
    · exact h.generation i r hr
    · exact hgeneration

variable (c₁) in
/-- The event that leads to the current payload of a channel is recorded with it. -/
theorem Serves.push (h : Serves x c history) (hexecution : c₁.execution = c.execution)
    (hsequence : c₁.sequence = c.sequence) (hring : c₁.ring = c.ring)
    (hdraft : c₁.draft.Ok draft) (hq : At history c.sequence q)
    (hadv : Advances q payload (c₁.state (shownDraft c₁.draft draft)))
    (hcounts : validCounts (c₁.state (shownDraft c₁.draft draft)) = true)
    (hterminal : c₁.terminal = isTerminal c₁.status) (hbytes : c₁.draft.bytes ≤ maxDraftBytes)
    (size : Nat) :
    Serves x (c₁.push (c₁.envelope (c₁.sequence + 1) payload) size)
      (history ++ [.ok (c₁.state (shownDraft c₁.draft draft))]) := by
  obtain ⟨htimeline, hlast⟩ := h.timeline.snoc h.length hq hadv hcounts
  obtain ⟨dropped, hsuffix⟩ := trim_suffix c₁.maxEvents c₁.maxBytes (c₁.ringBytes + size)
    (c₁.ring ++ [(c₁.envelope (c₁.sequence + 1) payload, size)])
  refine ⟨hexecution.trans h.execution, ?_, htimeline, ⟨draft, hdraft, ?_⟩, hterminal, hbytes,
    ?_, ?_⟩
  · simp [Channel.push, h.length, hsequence]
  · simp only [Channel.push, hsequence]
    exact hlast
  · intro i e he
    have hall : (c₁.ring ++ [(c₁.envelope (c₁.sequence + 1) payload, size)])[dropped.length + i]? =
        some e := by
      rw [← hsuffix, List.getElem?_append_right (by omega), Nat.add_sub_cancel_left]
      exact he
    have hlength := congrArg List.length hsuffix
    have hsame := congrArg List.length hring
    simp only [List.length_append, List.length_singleton] at hlength
    simp only [Channel.push]
    by_cases hi : dropped.length + i < c₁.ring.length
    · rw [List.getElem?_append_left hi, hring] at hall
      have hnumber := h.numbers _ e hall
      omega
    · have hlt := (List.getElem?_eq_some_iff.mp hall).1
      rw [List.length_append, List.length_singleton] at hlt
      have hi' : dropped.length + i = c₁.ring.length := by omega
      rw [hi', List.getElem?_concat_length] at hall
      have hnumber : e.1.sequence = c₁.sequence + 1 := by
        rw [← Option.some.inj hall]
        rfl
      omega
  · intro e he
    have hmem : e ∈ c₁.ring ++ [(c₁.envelope (c₁.sequence + 1) payload, size)] := by
      rw [← hsuffix]
      exact List.mem_append_right dropped he
    rcases List.mem_append.mp hmem with hmem | hmem
    · exact (h.genuine e (hring ▸ hmem)).append _
    · cases List.mem_singleton.mp hmem
      have hold : At (history ++ [.ok (c₁.state (shownDraft c₁.draft draft))]) c.sequence q := by
        rw [At, List.getElem?_append_left hq.lt]
        exact hq
      have henvelope : c₁.envelope (c₁.sequence + 1) payload =
          x.event (c.sequence + 1) c₁.draftGeneration payload := by
        rw [← hexecution.trans h.execution, ← hsequence]
        rfl
      rw [henvelope]
      exact .event hold hlast hadv

/-- The payload before a call of a channel that has not ended. -/
lemma Serves.running (h : Serves x c history) (hterminal : c.terminal = false) :
    isTerminal c.status = false := h.terminal ▸ hterminal

lemma statusRank_le {s t : ExecutionStatus} (hs : isTerminal s = false) (ht : isTerminal t = false)
    (h : Channel.order s ≤ Channel.order t) : statusRank s ≤ statusRank t := by
  revert h
  cases s <;> cases ht' : t <;> simp_all [isTerminal, Channel.order, statusRank]

/-- A change of the status, with the stop reason that comes with it. -/
lemma Serves.withStatus (h : Serves x c history) (hterminal : c.terminal = false)
    {status : ExecutionStatus} (reason : Option Text) (hstatus : isTerminal status = false)
    (horder : Channel.order c.status ≤ Channel.order status)
    (hc₁ : c₁ = { c with status := status, stopReason := reason.elim c.stopReason some })
    (hok : (c₁.append (.progress { status := some status, stopReason := reason })).1 = .ok ()) :
    Serves x (c₁.append (.progress { status := some status, stopReason := reason })).2
      (history ++ [(c₁.append (.progress { status := some status, stopReason := reason })
        ).2.snapshotOf (c₁.append (.progress { status := some status, stopReason := reason })
          ).2.draft.parts]) := by
  obtain ⟨size, hpush⟩ := append_ok hok
  obtain ⟨draft, hdraft, hq⟩ := h.draft
  have hrunning := h.running hterminal
  have hsame : c₁.draft = c.draft := by rw [hc₁]
  have hdraft₁ : c₁.draft.Ok draft := hsame ▸ hdraft
  have hstatus₁ : c₁.status = status := by rw [hc₁]
  have hlater : Leq (c.state (shownDraft c.draft draft))
      (c₁.state (shownDraft c₁.draft draft)) := by
    rw [hc₁]
    exact ⟨statusRank_le hrunning hstatus horder, stageRegresses_refl _, Nat.le_refl _,
      fun _ ht => ht, Nat.le_refl _⟩
  have hadv : Advances (c.state (shownDraft c.draft draft))
      (.progress { status := some status, stopReason := reason })
      (c₁.state (shownDraft c₁.draft draft)) := by
    refine ⟨hrunning, by simp, by simp, ?_, hstatus₁, ?_, ?_, ?_, ?_, ?_, hlater⟩
    · rw [hc₁]
      rfl
    · rw [hc₁]
      rfl
    · rw [hc₁]
      rfl
    · rw [hc₁]
      rfl
    · rw [hc₁]
      cases reason <;> rfl
    · rw [hsame]
      rfl
  have hcounts : validCounts (c₁.state (shownDraft c₁.draft draft)) = true := by
    have hold := h.timeline.counted _ _ hq
    rw [hc₁]
    exact hold
  have hpayload : (c₁.push (c₁.envelope (c₁.sequence + 1)
      (.progress { status := some status, stopReason := reason })) size).snapshotOf
        (c₁.push (c₁.envelope (c₁.sequence + 1)
          (.progress { status := some status, stopReason := reason })) size).draft.parts =
        .ok (c₁.state (shownDraft c₁.draft draft)) := snapshotOf_ok (c := c₁) hdraft₁
  rw [hpush, hpayload]
  refine h.push c₁ (by rw [hc₁]) (by rw [hc₁]) (by rw [hc₁]) hdraft₁ hq hadv hcounts ?_ ?_ size
  · rw [hstatus₁, hstatus, hc₁]
    exact hterminal
  · rw [hsame]
    exact h.bytes

lemma Serves.setStatus (h : Serves x c history) {status : ExecutionStatus} {reason : Option Text}
    (hok : (c.call (.setStatus status reason)).1 = .ok ()) :
    Serves x (c.call (.setStatus status reason)).2
      (history ++ c.added (.setStatus status reason)) := by
  simp only [Channel.call, Channel.added, Channel.setStatus] at hok ⊢
  by_cases hstatus : isTerminal status = true
  · rw [if_pos hstatus] at hok
    cases hok
  rw [if_neg hstatus] at hok ⊢
  by_cases hterminal : c.terminal = true
  · simp only [if_pos hterminal, List.append_nil]
    exact h
  rw [if_neg hterminal] at hok ⊢
  rw [if_neg hterminal]
  by_cases horder : Channel.order status < Channel.order c.status
  · rw [if_pos horder] at hok
    cases hok
  rw [if_neg horder] at hok ⊢
  have hstatus : isTerminal status = false := by simpa using hstatus
  have hterminal : c.terminal = false := by simpa using hterminal
  by_cases hstopping : status = .stopping
  · rw [if_pos hstopping] at hok ⊢
    cases reason with
    | none => cases hok
    | some reason =>
      have hstep := h.withStatus hterminal (some reason) hstatus (by omega) rfl hok
      exact hstep
  · rw [if_neg hstopping] at hok ⊢
    have hstep := h.withStatus hterminal none hstatus (by omega) rfl hok
    exact hstep

/-- A change of the stage or of the counts. -/
lemma Serves.withProgress (h : Serves x c history) (hterminal : c.terminal = false)
    (hc₁ : c₁ = { c with
      stage := c₁.stage, completedTasks := c₁.completedTasks, totalTasks := c₁.totalTasks })
    (hstage : stageRegresses c.stage c₁.stage = false)
    (hcompleted : c.completedTasks ≤ c₁.completedTasks)
    (htotal : ∀ t, c.totalTasks = some t → c₁.totalTasks = some t)
    (hcounts : validCounts (c₁.state none) = true)
    (hok : (c₁.append c₁.progressPayload).1 = .ok ()) :
    Serves x (c₁.append c₁.progressPayload).2
      (history ++ [(c₁.append c₁.progressPayload).2.snapshotOf
        (c₁.append c₁.progressPayload).2.draft.parts]) := by
  obtain ⟨size, hpush⟩ := append_ok hok
  obtain ⟨draft, hdraft, hq⟩ := h.draft
  have hrunning := h.running hterminal
  have hsame : c₁.draft = c.draft := by rw [hc₁]
  have hdraft₁ : c₁.draft.Ok draft := hsame ▸ hdraft
  have hlater : Leq (c.state (shownDraft c.draft draft))
      (c₁.state (shownDraft c₁.draft draft)) := by
    refine ⟨?_, hstage, hcompleted, htotal, ?_⟩
    · rw [hc₁]
      exact Nat.le_refl _
    · rw [hc₁]
      exact Nat.le_refl _
  have hadv : Advances (c.state (shownDraft c.draft draft)) c₁.progressPayload
      (c₁.state (shownDraft c₁.draft draft)) := by
    refine ⟨hrunning, by simp [Channel.progressPayload], by simp [Channel.progressPayload], ?_, ?_,
      rfl, rfl, rfl, ?_, ?_, hlater⟩
    · rw [hc₁]
      rfl
    · rw [hc₁]
      rfl
    · rw [hc₁]
      rfl
    · rw [hsame]
      rfl
  rw [hpush]
  have hpayload : (c₁.push (c₁.envelope (c₁.sequence + 1) c₁.progressPayload) size).snapshotOf
      (c₁.push (c₁.envelope (c₁.sequence + 1) c₁.progressPayload) size).draft.parts =
        .ok (c₁.state (shownDraft c₁.draft draft)) := snapshotOf_ok (c := c₁) hdraft₁
  rw [hpayload]
  refine h.push c₁ (by rw [hc₁]) (by rw [hc₁]) (by rw [hc₁]) hdraft₁ hq hadv hcounts ?_ ?_ size
  · rw [hc₁]
    exact h.terminal
  · rw [hc₁]
    exact h.bytes

lemma Serves.setStage (h : Serves x c history) {stage : String}
    (hin : c.InOrder (.setStage stage)) (hok : (c.call (.setStage stage)).1 = .ok ()) :
    Serves x (c.call (.setStage stage)).2 (history ++ c.added (.setStage stage)) := by
  simp only [Channel.call, Channel.added, Channel.setStage] at hok ⊢
  cases hvalue : ExecutionStage.ofValue? stage with
  | none =>
    simp only [hvalue] at hok
    cases hok
  | some value =>
    simp only [hvalue] at hok ⊢
    by_cases hterminal : c.terminal = true
    · simp only [if_pos hterminal, List.append_nil]
      exact h
    rw [if_neg hterminal] at hok
    simp only [if_neg hterminal]
    obtain ⟨draft, -, hq⟩ := h.draft
    have hcounts := h.timeline.counted _ _ hq
    exact h.withProgress (by simpa using hterminal) rfl (hin value hvalue) (Nat.le_refl _)
      (fun _ ht => ht) hcounts hok

lemma Serves.setTaskProgress (h : Serves x c history) {completed total : Int}
    (hin : c.InOrder (.setTaskProgress completed total)) (hsafe : total ≤ maxSafeInteger)
    (hok : (c.call (.setTaskProgress completed total)).1 = .ok ()) :
    Serves x (c.call (.setTaskProgress completed total)).2
      (history ++ c.added (.setTaskProgress completed total)) := by
  obtain ⟨htotal, hcompleted⟩ := hin
  simp only [Channel.call, Channel.added, Channel.setTaskProgress] at hok ⊢
  by_cases hinvalid : total < 1 ∨ completed < 0 ∨ total < completed
  · rw [if_pos hinvalid] at hok
    cases hok
  rw [if_neg hinvalid] at hok ⊢
  by_cases hterminal : c.terminal = true
  · simp only [if_pos hterminal, List.append_nil]
    exact h
  rw [if_neg hterminal] at hok ⊢
  rw [if_neg hterminal]
  have hcounts : validCounts ((c.withTasks completed.toNat total.toNat).state none) = true := by
    have hle : completed.toNat ≤ total.toNat := by omega
    have hpos : 0 < total.toNat := by omega
    have hcompletedSafe : completed.toNat ≤ maxSafeInteger := by omega
    have htotalSafe : total.toNat ≤ maxSafeInteger := by omega
    simp only [validCounts, Channel.state, Channel.withTasks, safeCount, Bool.and_eq_true,
      decide_eq_true_eq]
    exact ⟨decide_eq_true hcompletedSafe, ⟨htotalSafe, hpos⟩, decide_eq_true hle⟩
  refine h.withProgress (by simpa using hterminal) rfl (stageRegresses_refl _) ?_ ?_ hcounts hok
  · simp only [Channel.withTasks]
    omega
  · intro t ht
    have hsame := htotal t ht
    simp only [Channel.withTasks, Option.some.injEq]
    omega

lemma Serves.reset (h : Serves x c history) {reason : String}
    (hok : (c.call (.reset reason)).1 = .ok ()) :
    Serves x (c.call (.reset reason)).2 (history ++ c.added (.reset reason)) := by
  simp only [Channel.call, Channel.added, Channel.reset] at hok ⊢
  by_cases hreason : reason ≠ "model_retry"
  · rw [if_pos hreason] at hok
    cases hok
  rw [if_neg hreason] at hok ⊢
  by_cases hterminal : c.terminal = true
  · simp only [if_pos hterminal, List.append_nil]
    exact h
  rw [if_neg hterminal] at hok ⊢
  rw [if_neg hterminal]
  obtain ⟨size, hpush⟩ := append_ok hok
  obtain ⟨draft, hdraft, hq⟩ := h.draft
  have hrunning := h.running (by simpa using hterminal)
  have hlater : Leq (c.state (shownDraft c.draft draft))
      (Channel.state { c with draftGeneration := c.draftGeneration + 1, draft := {} } none) :=
    ⟨Nat.le_refl _, stageRegresses_refl _, Nat.le_refl _, fun _ ht => ht, Nat.le_succ _⟩
  have hcounts := h.timeline.counted _ _ hq
  rw [hpush]
  exact h.push { c with draftGeneration := c.draftGeneration + 1, draft := {} } rfl rfl rfl
    Draft.Ok.empty hq ⟨hrunning, by simp, by simp, rfl, rfl, rfl, rfl, rfl, rfl, rfl, hlater⟩
    hcounts h.terminal (Nat.zero_le _) size

lemma Serves.finish (h : Serves x c history) {status : ExecutionStatus}
    {publicError : Option PublicError} (hok : (c.call (.finish status publicError)).1 = .ok ()) :
    Serves x (c.call (.finish status publicError)).2
      (history ++ c.added (.finish status publicError)) := by
  simp only [Channel.call, Channel.added, Channel.finish] at hok ⊢
  by_cases hstatus : isTerminal status = true
  swap
  · rw [if_pos hstatus] at hok
    cases hok
  rw [if_neg (not_not_intro hstatus)] at hok ⊢
  by_cases hterminal : c.terminal = true
  · simp only [if_pos hterminal, List.append_nil]
    exact h
  rw [if_neg hterminal] at hok ⊢
  rw [if_neg hterminal]
  obtain ⟨size, hpush⟩ := append_ok hok
  obtain ⟨draft, hdraft, hq⟩ := h.draft
  have hrunning := h.running (by simpa using hterminal)
  have hrank : statusRank c.status ≤ statusRank status := by
    revert hstatus
    cases status <;> cases c.status <;> simp [isTerminal, statusRank]
  have hlater : Leq (c.state (shownDraft c.draft draft))
      (Channel.state { c with status := status, draft := {}, terminal := true } none) :=
    ⟨hrank, stageRegresses_refl _, Nat.le_refl _, fun _ ht => ht, Nat.le_refl _⟩
  have hcounts := h.timeline.counted _ _ hq
  rw [hpush]
  exact h.push { c with status := status, draft := {}, terminal := true } rfl rfl rfl
    Draft.Ok.empty hq ⟨hrunning, by simp, by simp, rfl, rfl, rfl, rfl, rfl, rfl, rfl, hlater⟩
    hcounts hstatus.symm (Nat.zero_le _) size

end Server

section Texts

variable {x : Execution} {c : Channel} {history : List (Except String Snapshot)} {d : Draft}
  {key : DraftKey} {offset : Nat} {chunk : List Char} {chunks : List (List Char)}

/-- The next chunk continues the draft that the chunk before it was written to. -/
lemma Continues.next {more : List Char} (h : Continues d ⟨key, offset, chunk⟩) :
    Continues (d.write ⟨key, offset, chunk⟩) ⟨key, offset + chunk.length, more⟩ := by
  refine ⟨h.key, ?_, ?_⟩
  · intro i hi
    have hle : i ≤ d.listLength key.1 := h.index i hi
    simp only [listLength_write]
    split <;> omega
  · have hoffset : ((Dict.get? d.parts key).getD []).length = offset := h.offset
    simp only [Draft.write, get?_writePart, if_pos]
    rw [Option.getD_some, List.length_append, hoffset]

/-- The draft after the chunks of one delta. -/
def Draft.writeAll (key : DraftKey) : Draft → Nat → List (List Char) → Draft
  | d, _, [] => d
  | d, offset, chunk :: chunks =>
    writeAll key (d.write ⟨key, offset, chunk⟩) (offset + chunk.length) chunks

/-- The parts after chunks are those after their text, and so is the number of bytes. -/
lemma writeAll_parts (hne : chunks ≠ []) :
    (d.writeAll key offset chunks).parts = Draft.writePart d.parts key chunks.flatten ∧
      (d.writeAll key offset chunks).bytes = d.bytes + Utf8.size chunks.flatten := by
  induction chunks generalizing d offset with
  | nil => exact absurd rfl hne
  | cons chunk chunks ih =>
    rw [Draft.writeAll]
    cases chunks with
    | nil => simp [Draft.writeAll, Draft.write]
    | cons next rest =>
      obtain ⟨hparts, hbytes⟩ := ih (List.cons_ne_nil next rest)
      constructor
      · rw [hparts]
        simp only [Draft.write, Draft.writePart, Dict.get?_set_self, Dict.set_set,
          Option.getD_some, List.flatten_cons, List.append_assoc]
      · rw [hbytes]
        simp only [Draft.write, List.flatten_cons, Utf8.size_append]
        omega

/-- One chunk of a text delta, written to a draft that the channel's own may be ahead of. -/
lemma Serves.writeChunk (h : Serves x { c with draft := d } history) (hterminal : c.terminal = false)
    (hδ : Continues d ⟨key, offset, chunk⟩)
    (hbytes : (d.write ⟨key, offset, chunk⟩).bytes ≤ maxDraftBytes)
    (hok : (c.append (.textDelta key.1 key.2 offset chunk)).1 = .ok ()) :
    Serves x { (c.append (.textDelta key.1 key.2 offset chunk)).2 with
        draft := d.write ⟨key, offset, chunk⟩ }
      (history ++ [c.snapshotOf (Draft.writePart d.parts key chunk)]) := by
  obtain ⟨size, hpush⟩ := append_ok hok
  obtain ⟨draft, hdraft, hq⟩ := h.draft
  obtain ⟨draft', happly, hdraft'⟩ := hdraft.write hδ
  have hrunning := h.running hterminal
  have hcounts := h.timeline.counted _ _ hq
  have hnext : nextDraft (shownDraft d draft) (.textDelta key.1 key.2 offset chunk) =
      some (shownDraft (d.write ⟨key, offset, chunk⟩) draft') := by
    have hwritten : (d.write ⟨key, offset, chunk⟩).parts ≠ [] := Dict.set_ne_nil
    simp only [nextDraft, shownDraft_getD hdraft]
    rw [happly, shownDraft, if_neg hwritten]
    rfl
  have hlater : Leq (c.state (shownDraft d draft))
      (c.state (shownDraft (d.write ⟨key, offset, chunk⟩) draft')) :=
    ⟨Nat.le_refl _, stageRegresses_refl _, Nat.le_refl _, fun _ ht => ht, Nat.le_refl _⟩
  have hpayload : c.snapshotOf (Draft.writePart d.parts key chunk) =
      .ok (c.state (shownDraft (d.write ⟨key, offset, chunk⟩) draft')) := snapshotOf_ok hdraft'
  rw [hpush, hpayload]
  exact h.push { c with draft := d.write ⟨key, offset, chunk⟩ } rfl rfl rfl hdraft' hq
    ⟨hrunning, by simp, by simp, rfl, rfl, rfl, rfl, rfl, rfl, hnext, hlater⟩ hcounts h.terminal
    hbytes size

lemma appendChunks_cons
    (h : (c.appendChunks key offset (chunk :: chunks)).1 = .ok ()) :
    (c.append (.textDelta key.1 key.2 offset chunk)).1 = .ok () ∧
      c.appendChunks key offset (chunk :: chunks) =
        (c.append (.textDelta key.1 key.2 offset chunk)).2.appendChunks key
          (offset + chunk.length) chunks := by
  rw [Channel.appendChunks] at h ⊢
  generalize c.append (.textDelta key.1 key.2 offset chunk) = result at h ⊢
  obtain ⟨r, c'⟩ := result
  cases r with
  | error e => cases h
  | ok u => exact ⟨rfl, rfl⟩

/-- The payloads of chunks only depend on the state that a snapshot shows. -/
lemma partials_congr {c' : Channel} {parts : Dict DraftKey (List Char)}
    (h : ∀ draft, c'.state draft = c.state draft) :
    c'.partials key parts chunks = c.partials key parts chunks := by
  have hsnapshot : ∀ parts, c'.snapshotOf parts = c.snapshotOf parts := by
    intro parts
    unfold Channel.snapshotOf
    rw [funext h]
  induction chunks generalizing parts with
  | nil => rfl
  | cons chunk chunks ih => rw [Channel.partials, Channel.partials, ih, hsnapshot]

/-- The chunks of a text delta, one event each. -/
lemma Serves.writeChunks (h : Serves x { c with draft := d } history) (hterminal : c.terminal = false)
    (hδ : Continues d ⟨key, offset, chunks.flatten⟩)
    (hbytes : d.bytes + Utf8.size chunks.flatten ≤ maxDraftBytes)
    (hok : (c.appendChunks key offset chunks).1 = .ok ()) :
    Serves x { (c.appendChunks key offset chunks).2 with
        draft := d.writeAll key offset chunks }
      (history ++ c.partials key d.parts chunks) := by
  induction chunks generalizing c d offset history with
  | nil =>
    rw [Channel.partials, List.append_nil]
    exact h
  | cons chunk chunks ih =>
    have hδ' : Continues d ⟨key, offset, chunk⟩ := ⟨hδ.key, hδ.index, hδ.offset⟩
    rw [List.flatten_cons, Utf8.size_append] at hbytes
    obtain ⟨happend, hrest⟩ := appendChunks_cons hok
    obtain ⟨size, hpush⟩ := append_ok happend
    have hwritten : (d.write ⟨key, offset, chunk⟩).bytes = d.bytes + Utf8.size chunk := rfl
    have hstep := h.writeChunk hterminal hδ' (by omega) happend
    rw [hrest] at hok ⊢
    rw [hpush] at hok hstep ⊢
    have hall := ih hstep hterminal hδ'.next (by omega) hok
    have hpartials : (c.push (c.envelope (c.sequence + 1)
        (.textDelta key.1 key.2 offset chunk)) size).partials key
          (Draft.writePart d.parts key chunk) chunks =
            c.partials key (Draft.writePart d.parts key chunk) chunks :=
      partials_congr fun _ => rfl
    rw [List.append_assoc] at hall
    simp only [Draft.write, hpartials] at hall
    exact hall

/-- A channel may hold another draft of the same parts. -/
lemma Serves.ownDraft {draft : ReportDraft} (h : Serves x { c with draft := d } history)
    (hparts : c.draft.parts = d.parts) (hdraft : c.draft.Ok draft)
    (hbytes : c.draft.bytes ≤ maxDraftBytes) : Serves x c history := by
  obtain ⟨old, hold, hq⟩ := h.draft
  have hsame : draft = old := by
    have hbuilt := hdraft.built
    rw [hparts, hold.built] at hbuilt
    exact (Except.ok.inj hbuilt).symm
  have hshown : shownDraft c.draft draft = shownDraft d old := by
    unfold shownDraft
    rw [hparts, hsame]
  refine ⟨h.execution, h.length, h.timeline, ⟨draft, hdraft, ?_⟩, h.terminal, hbytes, h.numbers,
    h.genuine⟩
  rw [hshown]
  exact hq

lemma appendChunks_draft (hok : (c.appendChunks key offset chunks).1 = .ok ()) :
    (c.appendChunks key offset chunks).2.draft = c.draft := by
  induction chunks generalizing c offset with
  | nil => rfl
  | cons chunk chunks ih =>
    obtain ⟨happend, hrest⟩ := appendChunks_cons hok
    obtain ⟨size, hpush⟩ := append_ok happend
    rw [hrest] at hok ⊢
    rw [ih hok, hpush]
    rfl

end Texts

section Checks

variable {x : Execution} {c : Channel} {history : List (Except String Snapshot)} {d : Draft}
  {δ : Delta} {field : String} {index : Option Int} {offset : Int} {text : List CodePoint}

lemma splitUtf8From_flatten {maxBytes : Nat} {current text : List Char}
    {chunks : List (List Char)} (h : splitUtf8From maxBytes current text = .ok chunks) :
    chunks.flatten = current ++ text := by
  induction text generalizing current chunks with
  | nil =>
    rw [splitUtf8From] at h
    obtain rfl := Except.ok.inj h
    split <;> simp_all
  | cons a text ih =>
    rw [splitUtf8From] at h
    split at h
    · cases h
    split at h
    · obtain ⟨rest, hrest, rfl⟩ := except_map_ok.mp h
      rw [List.flatten_cons, ih hrest]
      rfl
    · rw [ih h, List.append_assoc]
      rfl

/-- The parts of a text are at most one more than its characters. -/
lemma splitUtf8From_length {maxBytes : Nat} {current text : List Char}
    {chunks : List (List Char)} (h : splitUtf8From maxBytes current text = .ok chunks) :
    chunks.length ≤ text.length + 1 := by
  induction text generalizing current chunks with
  | nil =>
    rw [splitUtf8From] at h
    obtain rfl := Except.ok.inj h
    split <;> simp
  | cons a text ih =>
    rw [splitUtf8From] at h
    split at h
    · cases h
    split at h
    · obtain ⟨rest, hrest, rfl⟩ := except_map_ok.mp h
      exact Nat.succ_le_succ (ih hrest)
    · exact (ih h).trans (Nat.le_succ _)

/-- The loop that makes the chunks smaller ends with those of some limit, and their events fit. -/
lemma fitChunks_ok {turns limit : Nat} {chunks : List (List Char)}
    (h : c.fitChunks δ turns limit = .ok chunks) :
    c.deltaEventsFit δ.key 1 δ.offset chunks = .ok true ∧
      ∃ fitting ≤ max 1 limit, splitUtf8 δ.text fitting = .ok chunks := by
  induction turns generalizing limit with
  | zero => cases h
  | succ turns ih =>
    rw [Channel.fitChunks] at h
    obtain ⟨tried, htried, h⟩ := except_bind_ok.mp h
    obtain ⟨fits, hfits, h⟩ := except_bind_ok.mp h
    split at h
    · next hfit =>
      obtain rfl := except_pure_ok.mp h
      rw [hfits, hfit]
      exact ⟨rfl, limit, Nat.le_max_right _ _, htried⟩
    split at h
    · cases h
    · obtain ⟨hfitting, fitting, hle, hsplit⟩ := ih h
      exact ⟨hfitting, fitting, by omega, hsplit⟩

lemma fitChunks_flatten {turns limit : Nat} {chunks : List (List Char)}
    (h : c.fitChunks δ turns limit = .ok chunks) : chunks.flatten = δ.text := by
  obtain ⟨-, fitting, -, hsplit⟩ := fitChunks_ok h
  exact splitUtf8From_flatten hsplit

lemma check_scalars {key : DraftKey} {offset : Nat}
    (h : (match scalars? text with
      | none => .error "报告草稿包含无效 Unicode"
      | some chars => .ok ⟨key, offset, chars⟩ : Except String Delta) = .ok δ) :
    ∃ chars, scalars? text = some chars ∧ δ = ⟨key, offset, chars⟩ := by
  cases hchars : scalars? text with
  | none =>
    rw [hchars] at h
    cases h
  | some chars =>
    rw [hchars] at h
    exact ⟨chars, rfl, (Except.ok.inj h).symm⟩

/-- The position and the text of a delta that passes the argument checks. -/
lemma Delta.check_ok (h : Delta.check field index offset text = .ok δ) :
    ValidKey δ.key ∧ δ.text ≠ [] ∧ δ.text.length = text.length := by
  unfold Delta.check at h
  obtain ⟨_, hfield, h⟩ := except_bind_ok.mp h
  obtain ⟨_, -, h⟩ := except_bind_ok.mp h
  rw [require_ok] at hfield
  by_cases hmem : field ∈ textDraftFields
  · simp only [if_pos hmem] at h
    obtain ⟨_, hindex, h⟩ := except_bind_ok.mp h
    obtain ⟨_, htext, h⟩ := except_bind_ok.mp h
    rw [require_ok] at hindex htext
    obtain ⟨chars, hchars, hδ⟩ := check_scalars h
    have hlength := length_of_scalars? hchars
    refine ⟨.inl ?_, ?_, ?_⟩
    · rw [hδ, hindex]
      exact ⟨hmem, rfl⟩
    · rw [hδ, ← List.length_pos_iff]
      exact hlength ▸ List.length_pos_iff.mpr htext
    · rw [hδ]
      exact hlength
  · simp only [if_neg hmem] at h
    obtain ⟨_, hindex, h⟩ := except_bind_ok.mp h
    obtain ⟨_, htext, h⟩ := except_bind_ok.mp h
    rw [require_ok] at hindex htext
    obtain ⟨chars, hchars, hδ⟩ := check_scalars h
    obtain ⟨i, hi, -⟩ := hindex
    have hlist : field ∈ listDraftFields := (List.mem_append.mp hfield).resolve_left hmem
    have hlength := length_of_scalars? hchars
    refine ⟨.inr ?_, ?_, ?_⟩
    · rw [hδ, Option.mem_def.mp hi]
      exact ⟨hlist, Option.some_ne_none _⟩
    · rw [hδ, ← List.length_pos_iff]
      exact hlength ▸ List.length_pos_iff.mpr htext
    · rw [hδ]
      exact hlength

lemma Draft.check_ok (h : d.check δ = .ok ()) :
    (∀ i ∈ δ.key.2, i ≤ d.listLength δ.key.1) ∧ (Dict.get? d.lengths δ.key).getD 0 = δ.offset ∧
      d.bytes + Utf8.size δ.text ≤ maxDraftBytes ∧
      d.snapshotBytes + d.increment δ ≤ maxDraftBytes := by
  unfold Draft.check at h
  obtain ⟨_, hindex, h⟩ := except_bind_ok.mp h
  obtain ⟨_, hoffset, h⟩ := except_bind_ok.mp h
  obtain ⟨_, hbytes, hsnapshot⟩ := except_bind_ok.mp h
  exact ⟨require_ok.mp hindex, require_ok.mp hoffset, require_ok.mp hbytes,
    require_ok.mp hsnapshot⟩

lemma Serves.textDelta (h : Serves x c history)
    (hok : (c.call (.textDelta field index offset text)).1 = .ok ()) :
    Serves x (c.call (.textDelta field index offset text)).2
      (history ++ c.added (.textDelta field index offset text)) := by
  simp only [Channel.call, Channel.added, Channel.textDelta] at hok ⊢
  cases hδ : Delta.check field index offset text with
  | error e =>
    simp only [hδ] at hok
    cases hok
  | ok δ =>
    simp only [hδ] at hok ⊢
    by_cases hterminal : c.terminal = true
    · simp only [if_pos hterminal, List.append_nil]
      exact h
    rw [if_neg hterminal] at hok ⊢
    rw [if_neg hterminal]
    cases hchunks : c.deltaChunks δ with
    | error e =>
      simp only [hchunks] at hok
      cases hok
    | ok chunks =>
      simp only [hchunks] at hok ⊢
      obtain ⟨_, hcheck, hfit⟩ := except_bind_ok.mp hchunks
      obtain ⟨hkey, hnonempty, -⟩ := Delta.check_ok hδ
      obtain ⟨hindex, hoffset, hbytes, -⟩ := Draft.check_ok hcheck
      have hflatten := fitChunks_flatten hfit
      have hne : chunks ≠ [] := by
        rintro rfl
        exact hnonempty hflatten.symm
      obtain ⟨draft, hdraft, -⟩ := h.draft
      have hcontinues : Continues c.draft δ := ⟨hkey, hindex, by rw [← hdraft.lengths, hoffset]⟩
      obtain ⟨draft', -, hdraft'⟩ := hdraft.write hcontinues
      have hall := Serves.writeChunks (c := { c with draft := c.draft.write δ }) (d := c.draft) h
        (by simpa using hterminal) (by rw [hflatten]; exact hcontinues)
        (by rw [hflatten]; exact hbytes) hok
      have hkept := appendChunks_draft hok
      have hparts : (c.draft.write δ).parts =
          (c.draft.writeAll δ.key δ.offset chunks).parts := by
        rw [(writeAll_parts hne).1, hflatten]
        rfl
      have hpartials : Channel.partials { c with draft := c.draft.write δ } δ.key c.draft.parts
          chunks = c.partials δ.key c.draft.parts chunks := partials_congr fun _ => rfl
      rw [hpartials] at hall
      exact hall.ownDraft (by rw [hkept, hparts]) (by rw [hkept]; exact hdraft')
        (by rw [hkept]; exact hbytes)

/-- A call that returns normally keeps the channel in step with its history. -/
theorem Serves.call (h : Serves x c history) {a : Channel.Call} (hin : c.InOrder a)
    (hsafe : a.SafeTotal) (hok : (c.call a).1 = .ok ()) :
    Serves x (c.call a).2 (history ++ c.added a) := by
  cases a with
  | setStatus status reason => exact h.setStatus hok
  | setStage stage => exact h.setStage hin hok
  | setTaskProgress completed total => exact h.setTaskProgress hin hsafe hok
  | textDelta field index offset text => exact h.textDelta hok
  | reset reason => exact h.reset hok
  | finish status publicError => exact h.finish hok

lemma Timeline.singleton {p : Snapshot} (hcounts : validCounts p = true)
    (hgeneration : p.draftGeneration = 0) : Timeline [.ok p] := by
  have honly : ∀ {k r}, At [.ok p] k r → r = p := by
    intro k r hr
    have hlt := hr.lt
    rw [List.length_singleton] at hlt
    obtain rfl : k = 0 := by omega
    exact hr.unique rfl
  refine ⟨?_, ?_, ?_⟩
  · intro k hk
    rw [List.length_singleton] at hk
    omega
  · intro k r hr
    rw [honly hr]
    exact hcounts
  · intro k r hr
    rw [honly hr, hgeneration]
    exact Nat.zero_le k

/-- A new channel is in step with its first payload. -/
theorem Serves.new {maxEvents maxBytes maxSubscribers : Nat}
    (h : Channel.new x maxEvents maxBytes maxSubscribers = .ok c) :
    Serves x c [c.snapshotOf c.draft.parts] := by
  obtain ⟨_, -, h⟩ := except_bind_ok.mp h
  obtain rfl := except_pure_ok.mp h
  rw [snapshotOf_ok Draft.Ok.empty]
  refine ⟨rfl, rfl, .singleton rfl rfl, ⟨[], Draft.Ok.empty, rfl⟩, rfl, Nat.zero_le _, ?_, ?_⟩
  · intro i e he
    cases he
  · intro e he
    cases he

end Checks

end ChatBI.Events
