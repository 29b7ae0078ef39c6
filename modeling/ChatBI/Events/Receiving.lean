import ChatBI.Events.Publishing
import ChatBI.Events.Wire

/-!
# What the browser receives

The bytes of an observation stream, cut in any way, give the browser every event that the stream
has sent: nothing is lost, refused or too large. The calls of the channel name reasons that the
browser knows and totals that it can hold.
-/

namespace ChatBI.Events

open ChatBI.Lib ChatBI.Store

/-- A reason to stop that the browser knows, which has to be there while the execution stops. -/
def KnownReason (status : ExecutionStatus) (reason : Option Text) : Prop :=
  reason.all (·.written ∈ stopReasons) = true ∧
    (status = .stopping → reason.any (·.written ∈ stopReasons) = true)

instance (status : ExecutionStatus) (reason : Option Text) :
    Decidable (KnownReason status reason) :=
  inferInstanceAs (Decidable (_ ∧ _))

/-- The calls of the worker and of the stop control. -/
def Channel.Call.Known : Channel.Call → Prop
  | .setStatus status reason => KnownReason status reason
  | .setTaskProgress _ total => total ≤ maxSafeInteger
  | _ => True

def KnownAction (_ : Stream) : StreamAction → Prop
  | .operation (.call a) => a.Known
  | _ => True

/-- The bytes of the browser's limit for one event, without those around the JSON. -/
def maxJsonBytes : Nat := 6 * 1024 * 1024 - 56

/-- An event that the browser takes as soon as its numbers are safe integers. -/
structure Readable (x : Execution) (sequence generation : Nat) (m : ExecutionEvent) : Prop where
  sequence : m.sequence ≤ sequence
  generation : ∃ g ≤ generation, m.draftGeneration = some g
  named : Wire.Named m
  taken : safeCount m.sequence = true → m.draftGeneration.any safeCount = true →
    m.Writable ∧ Utf8.size (JsonDoc.dumps m.toJson) ≤ maxJsonBytes ∧
      decodeExecutionEvent x.identity m = true

/-- A channel whose events and snapshots the browser takes. -/
structure Telling (x : Execution) (c : Channel) : Prop where
  execution : c.execution = x
  buffer : c.maxBytes ≤ maxJsonBytes
  identifiers : c.idBytes ≤ 900000
  counts : validCounts (c.state none) = true
  reason : KnownReason c.status c.stopReason
  ended : isTerminal c.status = true → c.draft = {}
  terminal : c.terminal = isTerminal c.status
  draft : ∃ draft, c.draft.Tracked draft
  ring : ∀ e ∈ c.ring, Readable x c.sequence c.draftGeneration e.1

section Readability

variable {x : Execution} {c c' : Channel} {m : ExecutionEvent} {n k : Nat}

lemma Readable.mono (h : Readable x n k m) {n' k' : Nat} (hn : n ≤ n') (hk : k ≤ k') :
    Readable x n' k' m where
  sequence := h.sequence.trans hn
  generation := by
    obtain ⟨g, hg, hm⟩ := h.generation
    exact ⟨g, hg.trans hk, hm⟩
  named := h.named
  taken := h.taken

/-- An event below safe numbers is taken. -/
lemma Readable.safe (h : Readable x n k m) (hn : safeCount n = true) (hk : safeCount k = true) :
    safeCount m.sequence = true ∧ m.Writable ∧
      Utf8.size (JsonDoc.dumps m.toJson) ≤ maxJsonBytes ∧
      decodeExecutionEvent x.identity m = true := by
  obtain ⟨g, hg, hm⟩ := h.generation
  have hsequence : safeCount m.sequence = true :=
    decide_eq_true (h.sequence.trans (of_decide_eq_true hn))
  have hgeneration : m.draftGeneration.any safeCount = true := by
    rw [hm]
    exact decide_eq_true (hg.trans (of_decide_eq_true hk))
  exact ⟨hsequence, h.taken hsequence hgeneration⟩

/-- An event that a channel appends. -/
lemma readable_envelope {payload : Payload} {text : List Char} (hbuffer : c.maxBytes ≤ maxJsonBytes)
    (hsnapshot : ∀ s, payload ≠ .snapshot s) (htext : (c.envelope n payload).text = .ok text)
    (hsize : Utf8.size text ≤ c.maxBytes)
    (hdecode : safeCount n = true → safeCount c.draftGeneration = true →
      decodeExecutionEvent x.identity (c.envelope n payload) = true) :
    Readable x n c.draftGeneration (c.envelope n payload) where
  sequence := Nat.le_refl n
  generation := ⟨_, Nat.le_refl _, rfl⟩
  named := fun s hs => absurd hs (hsnapshot s)
  taken := by
    intro hn hgeneration
    obtain ⟨hwritable, rfl⟩ := text_ok.mp htext
    exact ⟨hwritable, hsize.trans hbuffer, hdecode hn hgeneration⟩

/-- What the browser checks of an event's payload, once its numbers are safe. -/
def payloadTaken : Payload → Bool
  | .snapshot _ | .authLost => false
  | .progress p => decodeProgress p
  | .textDelta field index offset text => decodeTextDelta field index offset text
  | .draftReset reason => reason = "model_retry"
  | .terminal status _ => isTerminal status

lemma decode_envelope {payload : Payload} (hexecution : c.execution = x)
    (hpayload : payloadTaken payload = true) (hn : safeCount n = true)
    (hgeneration : safeCount c.draftGeneration = true) :
    decodeExecutionEvent x.identity (c.envelope n payload) = true := by
  have hid : c.execution.id = x.id ∧ c.execution.historyId = x.historyId ∧
      c.execution.turnId = x.turnId := by
    rw [hexecution]
    exact ⟨rfl, rfl, rfl⟩
  cases payload with
  | snapshot s => cases hpayload
  | authLost => cases hpayload
  | progress p =>
    simpa [decodeExecutionEvent, payloadTaken, Channel.envelope, Execution.identity, hid, hn,
      hgeneration] using hpayload
  | textDelta field index offset text =>
    simpa [decodeExecutionEvent, payloadTaken, Channel.envelope, Execution.identity, hid, hn,
      hgeneration] using hpayload
  | draftReset reason =>
    simpa [decodeExecutionEvent, payloadTaken, Channel.envelope, Execution.identity, hid, hn,
      hgeneration] using hpayload
  | terminal status publicError =>
    simpa [decodeExecutionEvent, payloadTaken, Channel.envelope, Execution.identity, hid, hn,
      hgeneration] using hpayload

lemma Telling.append {payload : Payload} (h : Telling x c)
    (hpayload : payloadTaken payload = true) (happended : Appended c payload c') :
    Telling x c' := by
  have hring : ∀ e ∈ c'.ring, Readable x c'.sequence c.draftGeneration e.1 := by
    intro e he
    rcases happended.ring e he with hold | ⟨-, henvelope, text, htext, hsize⟩
    · exact (h.ring e hold).mono happended.sequence (Nat.le_refl _)
    · rw [henvelope] at htext ⊢
      apply readable_envelope h.buffer _ htext hsize
      · exact fun hn hgeneration => decode_envelope h.execution hpayload hn hgeneration
      · rintro s rfl
        cases hpayload
  rw [happended.fields]
  exact { h with ring := hring }

end Readability

section Texts

lemma length_le_size (text : List Char) : text.length ≤ Utf8.size text := by
  induction text with
  | nil => exact Nat.le_refl _
  | cons c text ih =>
    have hpos := c.utf8Size_pos
    rw [List.length_cons, Utf8.size_cons]
    omega

/-- The parts of a text are not empty and within the limit. -/
lemma splitUtf8From_parts {maxBytes : Nat} {current text : List Char} {chunks : List (List Char)}
    (h : splitUtf8From maxBytes current text = .ok chunks)
    (hcurrent : Utf8.size current ≤ maxBytes) :
    ∀ chunk ∈ chunks, chunk ≠ [] ∧ Utf8.size chunk ≤ maxBytes := by
  induction text generalizing current chunks with
  | nil =>
    rw [splitUtf8From] at h
    obtain rfl := Except.ok.inj h
    intro chunk hchunk
    split at hchunk
    · cases hchunk
    · next hne => exact List.mem_singleton.mp hchunk ▸ ⟨hne, hcurrent⟩
  | cons a text ih =>
    rw [splitUtf8From] at h
    split at h
    · cases h
    next hchar =>
    split at h
    · next hover =>
      obtain ⟨rest, hrest, rfl⟩ := except_map_ok.mp h
      refine List.forall_mem_cons.mpr ⟨⟨hover.1, hcurrent⟩, ih hrest ?_⟩
      rw [Utf8.size_cons, Utf8.size_nil]
      omega
    · next hwithin =>
      apply ih h
      rw [Utf8.size_append, Utf8.size_cons, Utf8.size_nil]
      by_cases hempty : current = []
      · rw [hempty, Utf8.size_nil]
        omega
      · have hfits := mt (And.intro hempty) hwithin
        omega

lemma decodeTextDelta_chunk {key : DraftKey} {offset : Nat} {chunk : List Char}
    (hkey : ValidKey key) (hindex : ∀ i ∈ key.2, i ≤ maxDraftBytes)
    (hoffset : offset ≤ 2 * maxDraftBytes)
    (hchunk : chunk ≠ [] ∧ Utf8.size chunk ≤ maxDeltaBytes) :
    decodeTextDelta key.1 key.2 offset chunk = true := by
  have hmax : maxDraftBytes ≤ maxSafeInteger ∧ 2 * maxDraftBytes ≤ maxSafeInteger := by decide
  have hsafe : safeCount offset = true := decide_eq_true (hoffset.trans hmax.2)
  have hsize : Utf8.size chunk ≤ 16 * 1024 := hchunk.2
  obtain ⟨field, index⟩ := key
  rcases hkey with ⟨hfield, hnone⟩ | ⟨hfield, hsome⟩
  · simp only at hnone hfield
    have hlist : ∀ f ∈ textDraftFields, f ∉ listDraftFields := by decide
    simp [decodeTextDelta, hnone, hfield, draftFields, hsafe, hchunk.1, hsize, hlist field hfield]
  · simp only at hsome hfield
    obtain ⟨i, rfl⟩ := Option.ne_none_iff_exists'.mp hsome
    have htext : ∀ f ∈ listDraftFields, f ∉ textDraftFields := by decide
    have hi : safeCount i = true := decide_eq_true ((hindex i rfl).trans hmax.1)
    simp [decodeTextDelta, hfield, draftFields, hsafe, hchunk.1, hsize, htext field hfield, hi]

end Texts

section Calls

variable {x : Execution} {c : Channel}

lemma decodeProgress_payload (h : validCounts (c.state none) = true) :
    payloadTaken c.progressPayload = true := by
  unfold validCounts at h
  rw [Bool.and_eq_true] at h
  obtain ⟨hcompleted, htotal⟩ := h
  change safeCount c.completedTasks = true at hcompleted
  simp only [Channel.state] at htotal
  simp only [payloadTaken, Channel.progressPayload, decodeProgress, Option.all_none,
    Option.all_some, hcompleted, validTotal]
  cases hm : c.totalTasks with
  | none => simp
  | some total =>
    rw [hm] at htotal
    simp only [Bool.and_eq_true] at htotal
    simp [htotal.1, of_decide_eq_true htotal.2]

lemma Telling.setStatus (h : Telling x c) {status : ExecutionStatus} {reason : Option Text}
    (hknown : KnownReason status reason) : Telling x (c.setStatus status reason).2 := by
  unfold Channel.setStatus
  by_cases hstatus : isTerminal status = true
  · rw [if_pos hstatus]
    exact h
  by_cases hterminal : c.terminal = true
  · rw [if_neg hstatus, if_pos hterminal]
    exact h
  by_cases horder : Channel.order status < Channel.order c.status
  · rw [if_neg hstatus, if_neg hterminal, if_pos horder]
    exact h
  rw [if_neg hstatus, if_neg hterminal, if_neg horder]
  rw [Bool.not_eq_true] at hstatus hterminal
  by_cases hstopping : status = .stopping
  · rw [if_pos hstopping]
    obtain ⟨r, hr, hmem⟩ := (Option.any_eq_true _ _).mp (hknown.2 hstopping)
    subst hr
    have hnext : Telling x { c with status := status, stopReason := some r } := { h with
      reason := hknown
      ended := fun hend => by simp [hstatus] at hend
      terminal := hterminal.trans hstatus.symm }
    refine hnext.append ?_ (appended _ _)
    simp [payloadTaken, decodeProgress, hstatus, of_decide_eq_true hmem]
  · rw [if_neg hstopping]
    have hnext : Telling x { c with status := status } := { h with
      reason := ⟨h.reason.1, fun hs => absurd hs hstopping⟩
      ended := fun hend => by simp [hstatus] at hend
      terminal := hterminal.trans hstatus.symm }
    refine hnext.append ?_ (appended _ _)
    simp [payloadTaken, decodeProgress, hstatus, hstopping]

lemma Telling.setStage (h : Telling x c) (stage : String) : Telling x (c.setStage stage).2 := by
  unfold Channel.setStage
  cases ExecutionStage.ofValue? stage with
  | none => exact h
  | some value =>
    by_cases hterminal : c.terminal = true
    · simp only [if_pos hterminal]
      exact h
    · simp only [if_neg hterminal]
      have hnext : Telling x { c with stage := some value } := { h with }
      exact hnext.append (decodeProgress_payload hnext.counts) (appended _ _)

lemma Telling.setTaskProgress (h : Telling x c) {completed total : Int}
    (hsafe : total ≤ maxSafeInteger) : Telling x (c.setTaskProgress completed total).2 := by
  unfold Channel.setTaskProgress
  by_cases hinvalid : total < 1 ∨ completed < 0 ∨ total < completed
  · rw [if_pos hinvalid]
    exact h
  by_cases hterminal : c.terminal = true
  · rw [if_neg hinvalid, if_pos hterminal]
    exact h
  rw [if_neg hinvalid, if_neg hterminal]
  have hcounts : validCounts ((c.withTasks completed.toNat total.toNat).state none) = true := by
    have htotal : total.toNat ≤ maxSafeInteger := by omega
    have hcompleted : completed.toNat ≤ maxSafeInteger := by omega
    have hpos : 0 < total.toNat := by omega
    have hle : completed.toNat ≤ total.toNat := by omega
    simp [validCounts, Channel.state, Channel.withTasks, safeCount, htotal, hcompleted, hpos, hle]
  have hnext : Telling x (c.withTasks completed.toNat total.toNat) := { h with counts := hcounts }
  exact hnext.append (decodeProgress_payload hcounts) (appended _ _)

lemma Telling.reset (h : Telling x c) (reason : String) : Telling x (c.reset reason).2 := by
  unfold Channel.reset
  by_cases hreason : reason ≠ "model_retry"
  · rw [if_pos hreason]
    exact h
  by_cases hterminal : c.terminal = true
  · rw [if_neg hreason, if_pos hterminal]
    exact h
  rw [if_neg hreason, if_neg hterminal]
  have hnext : Telling x { c with
      draftGeneration := c.draftGeneration + 1
      draft := {} } := { h with
    ended := fun _ => rfl
    draft := ⟨[], Draft.Tracked.empty⟩
    ring := fun e he => (h.ring e he).mono (Nat.le_refl _) (Nat.le_succ _) }
  refine hnext.append ?_ (appended _ _)
  exact decide_eq_true (not_not.mp hreason)

lemma Telling.finish (h : Telling x c) (status : ExecutionStatus)
    (publicError : Option PublicError) : Telling x (c.finish status publicError).2 := by
  unfold Channel.finish
  by_cases hstatus : isTerminal status = true
  swap
  · rw [if_pos hstatus]
    exact h
  by_cases hterminal : c.terminal = true
  · rw [if_neg (not_not_intro hstatus), if_pos hterminal]
    exact h
  rw [if_neg (not_not_intro hstatus), if_neg hterminal]
  have hstopping : status ≠ .stopping := by
    rintro rfl
    cases hstatus
  have hnext : Telling x { c with status := status, draft := {}, terminal := true } := { h with
    reason := ⟨h.reason.1, fun hs => absurd hs hstopping⟩
    ended := fun _ => rfl
    terminal := hstatus.symm
    draft := ⟨[], Draft.Tracked.empty⟩ }
  have hpayload : payloadTaken (.terminal status (Channel.safeError publicError)) = true := hstatus
  exact hnext.append hpayload (appended _ _)

lemma fitChunks_parts {δ : Delta} {turns limit : Nat} {chunks : List (List Char)}
    (hlimit : limit ≤ maxDeltaBytes) (h : c.fitChunks δ turns limit = .ok chunks) :
    ∀ chunk ∈ chunks, chunk ≠ [] ∧ Utf8.size chunk ≤ maxDeltaBytes := by
  obtain ⟨-, fitting, hle, hsplit⟩ := fitChunks_ok h
  have hmax : max 1 limit ≤ maxDeltaBytes := Nat.max_le.mpr ⟨by decide, hlimit⟩
  intro chunk hchunk
  obtain ⟨hne, hsize⟩ := splitUtf8From_parts hsplit (Nat.zero_le _) chunk hchunk
  exact ⟨hne, hsize.trans (hle.trans hmax)⟩

/-- The chunks of a text are taken one after another. -/
lemma Telling.appendChunks (h : Telling x c) {key : DraftKey} (hkey : ValidKey key)
    (hindex : ∀ i ∈ key.2, i ≤ maxDraftBytes) {offset : Nat} {chunks : List (List Char)}
    (hchunks : ∀ chunk ∈ chunks, chunk ≠ [] ∧ Utf8.size chunk ≤ maxDeltaBytes)
    (hoffset : offset + chunks.flatten.length ≤ 2 * maxDraftBytes) :
    Telling x (c.appendChunks key offset chunks).2 := by
  induction chunks generalizing c offset with
  | nil => exact h
  | cons chunk chunks ih =>
    obtain ⟨hchunk, hrest⟩ := List.forall_mem_cons.mp hchunks
    rw [List.flatten_cons, List.length_append] at hoffset
    have hpayload : payloadTaken (.textDelta key.1 key.2 offset chunk) = true :=
      decodeTextDelta_chunk hkey hindex (by omega) hchunk
    have hfirst := h.append hpayload (appended c _)
    rw [Channel.appendChunks]
    split
    · next hfailed =>
      rw [hfailed] at hfirst
      exact hfirst
    · next happend =>
      rw [happend] at hfirst
      exact ih hfirst hrest (by omega)

lemma Telling.textDelta (h : Telling x c) (field : String) (index : Option Int) (offset : Int)
    (text : List CodePoint) : Telling x (c.textDelta field index offset text).2 := by
  unfold Channel.textDelta
  cases hcheck : Delta.check field index offset text with
  | error e => exact h
  | ok δ =>
    simp only []
    by_cases hterminal : c.terminal = true
    · rw [if_pos hterminal]
      exact h
    rw [if_neg hterminal]
    cases hchunks : c.deltaChunks δ with
    | error e => exact h
    | ok chunks =>
      obtain ⟨_, hindraft, hfit⟩ := except_bind_ok.mp hchunks
      have hkey := (Delta.check_ok hcheck).1
      obtain ⟨draft, htracked⟩ := h.draft
      obtain ⟨hindex, hoffset, hbytes, -⟩ := Draft.check_ok hindraft
      have hnext : Telling x { c with draft := c.draft.write δ } := { h with
        ended := fun hend => absurd (h.terminal.trans hend) hterminal
        draft := htracked.write hkey hindraft }
      have hsize := htracked.snapshotBytes ▸ htracked.snapshotLimit
      have hstart : δ.offset ≤ maxDraftBytes := by
        rw [← hoffset, htracked.lengths, htracked.toOk.part hkey]
        exact (length_textAt_le htracked.kinds hkey).trans hsize
      have hlength : δ.text.length ≤ maxDraftBytes := by
        have hle := length_le_size δ.text
        omega
      have hposition : ∀ i ∈ δ.key.2, i ≤ maxDraftBytes := by
        intro i hi
        rcases hkey with ⟨-, hnone⟩ | ⟨hfield, -⟩
        · rw [hnone] at hi
          cases hi
        · have hle := hindex i hi
          rw [htracked.toOk.listLength_eq hfield] at hle
          exact hle.trans ((length_linesOf_le draft δ.key.1).trans hsize)
      apply hnext.appendChunks hkey hposition
      · exact fitChunks_parts (Nat.min_le_left _ _) hfit
      · rw [fitChunks_flatten hfit]
        omega

lemma Telling.call (h : Telling x c) {a : Channel.Call} (hknown : a.Known) :
    Telling x (c.call a).2 := by
  cases a with
  | setStatus status reason => exact h.setStatus hknown
  | setStage stage => exact h.setStage stage
  | setTaskProgress completed total => exact h.setTaskProgress hknown
  | textDelta field index offset text => exact h.textDelta field index offset text
  | reset reason => exact h.reset reason
  | finish status publicError => exact h.finish status publicError

end Calls

section Snapshots

variable {x : Execution} {c : Channel} {m : ExecutionEvent} {n : Nat}

lemma length_toDigits_safe (h : safeCount n = true) : (Nat.toDigits 10 n).length ≤ 16 := by
  have hle : n ≤ maxSafeInteger := of_decide_eq_true h
  have hmax : maxSafeInteger < 10 ^ 16 := by decide
  exact (Nat.length_toDigits_le_iff (by decide) (by decide)).mpr (hle.trans_lt hmax)

/-- A draft names each field once. -/
lemma nodup_foldlM {parts : Dict DraftKey (List Char)} {first draft : ReportDraft}
    (hfirst : (first.map Prod.fst).Nodup) (h : parts.foldlM Draft.addPart first = .ok draft) :
    (draft.map Prod.fst).Nodup := by
  induction parts generalizing first with
  | nil =>
    cases h
    exact hfirst
  | cons part parts ih =>
    rw [List.foldlM_cons] at h
    obtain ⟨next, hnext, h⟩ := except_bind_ok.mp h
    refine ih ?_ h
    obtain ⟨⟨field, index⟩, value⟩ := part
    cases index with
    | none =>
      cases hnext
      exact Dict.nodup_set hfirst
    | some index =>
      simp only [Draft.addPart] at hnext
      split at hnext
      · cases hnext
      · split at hnext
        · cases hnext
          exact Dict.nodup_set hfirst
        · cases hnext

lemma size_option_nat {k : Option Nat} (h : k.all safeCount = true) :
    Utf8.size (JsonDoc.dumps (JsonDoc.ofOption JsonDoc.nat k)) ≤ 16 := by
  cases k with
  | none => decide
  | some k =>
    rw [JsonDoc.ofOption, size_dumps_nat]
    exact length_toDigits_safe h

/-- The bytes of a snapshot around its draft. -/
lemma size_snapshot {s : Snapshot} (hcounts : validCounts s = true)
    (hgeneration : safeCount s.draftGeneration = true)
    (hreason : s.stopReason.all (·.written ∈ stopReasons) = true)
    (hdraft : Utf8.size (JsonDoc.dumps (JsonDoc.ofOption draftJson s.draft)) ≤ maxDraftBytes) :
    Utf8.size (JsonDoc.dumps (Payload.snapshot s).toJson) ≤ maxDraftBytes + 400 := by
  have hkeys : (["status", "stage", "completed_tasks", "total_tasks", "stop_reason",
      "draft_generation", "draft"].map fun k => JsonDoc.textBytes k.toList).sum = 69 := by
    decide +kernel
  have hstatus : JsonDoc.textBytes (statusValue s.status).toList ≤ 11 := by
    cases s.status <;> decide +kernel
  have hstage : Utf8.size (JsonDoc.dumps (stageJson s.stage)) ≤ 40 := by
    cases s.stage with
    | none => decide
    | some stage =>
      rw [stageJson, JsonDoc.ofOption, JsonDoc.size_dumps_str]
      cases stage <;> decide +kernel
  have hstop : Utf8.size (JsonDoc.dumps (JsonDoc.ofOption textJson s.stopReason)) ≤ 40 := by
    cases hr : s.stopReason with
    | none => decide
    | some r =>
      rw [hr] at hreason
      have hall : ∀ r ∈ stopReasons, JsonDoc.textBytes r.toList ≤ 30 := by decide +kernel
      have hle := hall r.written (of_decide_eq_true hreason)
      rw [JsonDoc.ofOption, textJson, JsonDoc.size_dumps_str]
      omega
  unfold validCounts at hcounts
  rw [Bool.and_eq_true] at hcounts
  have hcompleted := length_toDigits_safe hcounts.1
  have htotal : Utf8.size (JsonDoc.dumps (JsonDoc.ofOption JsonDoc.nat s.totalTasks)) ≤ 16 := by
    apply size_option_nat
    cases ht : s.totalTasks with
    | none => rfl
    | some total =>
      have hvalid := hcounts.2
      rw [ht] at hvalid
      simp only [Bool.and_eq_true] at hvalid
      exact hvalid.1.1
  have hdigits := length_toDigits_safe hgeneration
  simp only [List.map_cons, List.map_nil, List.sum_cons, List.sum_nil] at hkeys
  simp only [Payload.toJson, Snapshot.toJson, JsonDoc.size_dumps_obj, List.map_cons, List.map_nil,
    List.sum_cons, List.sum_nil, List.length_cons, List.length_nil, JsonDoc.memberBytes,
    JsonDoc.size_dumps_str, size_dumps_nat]
  omega

lemma writable_of_safe {payload : Payload} (hn : safeCount n = true)
    (hgeneration : safeCount c.draftGeneration = true)
    (hnumbers : ∀ k ∈ payload.numbers, safeCount k = true)
    (htexts : ∀ t ∈ payload.texts, t.Encodable) : (c.envelope n payload).Writable := by
  refine ⟨fun k hk => ?_, htexts⟩
  have hsafe : safeCount k = true := by
    simp only [ExecutionEvent.numbers, Channel.envelope, Option.toList_some, List.cons_append,
      List.nil_append, List.mem_cons] at hk
    rcases hk with rfl | rfl | hk
    · exact hn
    · exact hgeneration
    · exact hnumbers k hk
  exact (length_toDigits_safe hsafe).trans (by decide)

/-- A reason that the browser knows can be encoded. -/
lemma encodable_of_known {reason : Option Text}
    (h : reason.all (·.written ∈ stopReasons) = true) : ∀ t ∈ reason.toList, t.Encodable := by
  intro t ht
  obtain rfl := Option.mem_toList.mp ht
  apply Text.encodable_of_written
  intro hempty
  have hmem := of_decide_eq_true h
  rw [hempty] at hmem
  exact absurd hmem (by decide)

lemma numbers_snapshot {s : Snapshot} (hcounts : validCounts s = true)
    (hgeneration : safeCount s.draftGeneration = true) :
    ∀ k ∈ (Payload.snapshot s).numbers, safeCount k = true := by
  unfold validCounts at hcounts
  rw [Bool.and_eq_true] at hcounts
  intro k hk
  simp only [Payload.numbers, List.cons_append, List.nil_append, List.mem_cons,
    Option.mem_toList] at hk
  rcases hk with rfl | rfl | hk
  · exact hcounts.1
  · exact hgeneration
  · have htotal := hcounts.2
    rw [hk] at htotal
    simp only [Bool.and_eq_true] at htotal
    exact htotal.1.1

/-- The draft that a snapshot shows is one that the browser takes. -/
lemma reportDraft_shown {draft : ReportDraft} (h : c.draft.Tracked draft) :
    (reportDraft (shownDraft c.draft draft)).isSome = true := by
  unfold shownDraft
  split
  · rfl
  · have hkinds : draft.all (fun e => validDraftField e.1 e.2) = true :=
      List.all_eq_true.mpr h.kinds
    have hbytes : (draft.map fun e => valueBytes e.2).sum ≤ 5 * 1024 * 1024 := by
      rw [h.bytes]
      exact h.limit
    rw [reportDraft, if_pos ⟨hkinds, hbytes⟩]
    rfl

lemma size_shown {draft : ReportDraft} (h : c.draft.Tracked draft) :
    Utf8.size (JsonDoc.dumps (JsonDoc.ofOption draftJson (shownDraft c.draft draft))) ≤
      maxDraftBytes := by
  unfold shownDraft
  split
  · decide
  · rw [JsonDoc.ofOption, ← h.snapshotBytes]
    exact h.snapshotLimit

lemma Telling.decodeSnapshot {draft : ReportDraft} (h : Telling x c)
    (htracked : c.draft.Tracked draft) : decodeSnapshot (some c.draftGeneration)
      (c.state (shownDraft c.draft draft)) = true := by
  have hended : isTerminal c.status = true → (shownDraft c.draft draft).isNone = true := by
    intro hend
    rw [shownDraft, h.ended hend, if_pos rfl]
    rfl
  have hreason := h.reason.1
  have hcounts : validCounts (c.state (shownDraft c.draft draft)) = true := h.counts
  simp only [ChatBI.Events.decodeSnapshot, Bool.and_eq_true, Bool.or_eq_true]
  refine ⟨⟨⟨⟨⟨hcounts, hreason⟩, ?_⟩, ?_⟩, decide_eq_true rfl⟩, reportDraft_shown htracked⟩
  · by_cases hstopping : c.status = .stopping
    · exact .inr (h.reason.2 hstopping)
    · exact .inl (decide_eq_true hstopping)
  · cases hend : isTerminal c.status with
    | false => exact .inl (by simp [Channel.state, hend])
    | true => exact .inr (hended hend)

lemma Telling.snapshot (h : Telling x c) (hm : c.snapshot = .ok m) :
    Readable x c.sequence c.draftGeneration m := by
  obtain ⟨draft, htracked⟩ := h.draft
  obtain ⟨s, hs, rfl⟩ := except_map_ok.mp hm
  rw [snapshotOf_ok htracked.toOk] at hs
  obtain rfl := Except.ok.inj hs
  have hcounts : validCounts (c.state (shownDraft c.draft draft)) = true := h.counts
  refine ⟨Nat.le_refl _, ⟨_, Nat.le_refl _, rfl⟩, ?_, ?_⟩
  · rintro s ⟨⟩ d hd
    have hempty : (([] : ReportDraft).map Prod.fst).Nodup := List.nodup_nil
    have hd : d ∈ shownDraft c.draft draft := hd
    unfold shownDraft at hd
    split at hd
    · cases hd
    · cases hd
      exact nodup_foldlM hempty htracked.built
  · intro hn hgeneration
    have hn : safeCount c.sequence = true := hn
    have hgeneration : safeCount c.draftGeneration = true := hgeneration
    refine ⟨writable_of_safe hn hgeneration (numbers_snapshot hcounts hgeneration)
      (encodable_of_known h.reason.1), ?_, ?_⟩
    · have hpayload := size_snapshot hcounts hgeneration h.reason.1 (size_shown htracked)
      have henvelope := size_envelope c c.sequence (.snapshot (c.state (shownDraft c.draft draft)))
      have hsequence := length_toDigits_safe hn
      have hdigits := length_toDigits_safe hgeneration
      have htype : JsonDoc.textBytes "snapshot".toList = 8 := by decide +kernel
      have hids := h.identifiers
      have hmax : maxJsonBytes = 6291400 ∧ maxDraftBytes = 5242880 := by decide
      rw [Payload.type, htype] at henvelope
      omega
    · have hdecode := h.decodeSnapshot htracked
      have hid : c.execution = x := h.execution
      simpa [decodeExecutionEvent, Channel.envelope, Execution.identity, hid, hgeneration,
        Channel.state] using ⟨hn, hdecode⟩

end Snapshots

section Reading

variable {js : JsNumbers} {parseJson : List Char → Option JsonDoc} {maxEventBytes : Nat}
  {expected : ExecutionIdentity} {found : List SseFrame}

open Wire

lemma readFrames_ok (h : ∀ f ∈ found,
    (record (some f.data) >>= Wire.decodeExecutionEvent js expected f.type) = .ok ()) :
    readFrames js expected found = (found.map SseFrame.data, none) := by
  induction found with
  | nil => rfl
  | cons f found ih =>
    obtain ⟨hf, hfound⟩ := List.forall_mem_cons.mp h
    rw [readFrames, hf, ih hfound]
    rfl

/-- Frames that are all taken are yielded in their order, and nothing is thrown. -/
lemma readChunks_ok {p q : SseParser} {chunks : List (List Nat)}
    (hfeed : p.feedAll maxEventBytes parseJson chunks = .ok (q, found))
    (hend : q.decoder.Finished) (h : ∀ f ∈ found,
      (record (some f.data) >>= Wire.decodeExecutionEvent js expected f.type) = .ok ()) :
    readChunks js parseJson maxEventBytes expected p chunks = (found.map SseFrame.data, none) := by
  induction chunks generalizing p found with
  | nil =>
    cases hfeed
    have hbytes : q.decoder.utf8.bytesNeeded = 0 := hend
    rw [readChunks, if_pos hbytes]
    rfl
  | cons chunk chunks ih =>
    rw [SseParser.feedAll] at hfeed
    simp only [except_bind_ok, Prod.exists, except_pure_ok, Prod.mk.injEq] at hfeed
    obtain ⟨r, first, hfirst, t, more, hmore, rfl, rfl⟩ := hfeed
    rw [List.forall_mem_append] at h
    rw [readChunks, hfirst]
    simp only [readFrames_ok h.1, ih hmore h.2, List.map_append]

end Reading

/-- The event of a frame. -/
def Frame.event? : Frame → Option ExecutionEvent
  | .event m => some m
  | .heartbeat => none

section Streams

variable {x : Execution} {maxEvents maxBytes maxSubscribers : Nat} {s s' : Stream}
  {a : StreamAction} {c : Channel}

/-- A stream whose channel tells the browser what it takes, in the frames that it has sent and in
the events that it still has to send. It can encode them as long as the numbers are safe. -/
structure Stream.Tells (x : Execution) (s : Stream) : Prop where
  channel : Telling x s.channel
  unraised : s.phase = .raised → safeCount s.channel.sequence = true →
    safeCount s.channel.draftGeneration = true → False
  frames : ∀ m, Frame.event m ∈ s.frames →
    Readable x s.channel.sequence s.channel.draftGeneration m
  pending : ∀ q m rest, s.phase = .sending q m rest → ∀ m' ∈ m :: rest,
    Readable x s.channel.sequence s.channel.draftGeneration m'

lemma Telling.operated (h : Telling x s.channel) {a : ChannelAction}
    (hknown : KnownAction s (.operation a)) : Telling x (s.channel.operated a) ∧
      s.channel.sequence ≤ (s.channel.operated a).sequence ∧
      s.channel.draftGeneration ≤ (s.channel.operated a).draftGeneration := by
  cases a with
  | call a =>
    have hcalled := called s.channel a
    exact ⟨h.call hknown, hcalled.grown.sequence, hcalled.grown.draftGeneration⟩
  | subscribe =>
    rw [Channel.operated, subscribe_subscribers]
    exact ⟨{ h with }, Nat.le_refl _, Nat.le_refl _⟩
  | unsubscribe =>
    rw [Channel.operated, unsubscribe_subscribers]
    exact ⟨{ h with }, Nat.le_refl _, Nat.le_refl _⟩

lemma Telling.read (h : Telling x c) {cursor next : Nat} {events : List ExecutionEvent}
    (hread : c.readAfter cursor = .ok (events, next)) :
    ∀ m ∈ events, Readable x c.sequence c.draftGeneration m := by
  rcases readAfter_cases hread with ⟨m, hm, rfl, -⟩ | ⟨rfl, -⟩
  · intro m' hm'
    rw [List.mem_singleton.mp hm']
    exact h.snapshot hm
  · intro m hm
    obtain ⟨e, he, rfl⟩ := List.mem_map.mp (List.mem_filter.mp hm).1
    exact h.ring e he

/-- Subscriptions and the end of the loop leave what is told. -/
lemma Stream.Tells.close {t : Stream} (h : t.Tells x) : t.close.Tells x := by
  unfold Stream.close
  rw [unsubscribe_subscribers]
  exact ⟨{ h.channel with }, fun hphase => (nomatch hphase), h.frames,
    fun _ _ _ hphase => nomatch hphase⟩

/-- A loop that raises has come to a number that is not safe. -/
lemma Stream.Tells.fail {m : ExecutionEvent} (h : s.Tells x)
    (hm : Readable x s.channel.sequence s.channel.draftGeneration m) (hwritable : ¬m.Writable) :
    s.fail.Tells x := by
  unfold Stream.fail
  rw [unsubscribe_subscribers]
  refine ⟨{ h.channel with }, fun _ hsequence hgeneration => ?_, h.frames,
    fun _ _ _ hphase => nomatch hphase⟩
  exact hwritable (hm.safe hsequence hgeneration).2.1

lemma mem_sent {frames : List Frame} {m m' : ExecutionEvent}
    (h : Frame.event m ∈ frames ++ [.event m']) : Frame.event m ∈ frames ∨ m = m' := by
  rcases List.mem_append.mp h with h | h
  · exact .inl h
  · cases List.mem_singleton.mp h
    exact .inr rfl

lemma Stream.Tells.opened (h : s.Tells x) {m : ExecutionEvent}
    (hm : s.channel.subscribe.1 = .ok m) : (s.opened m).Tells x := by
  obtain ⟨hsnapshot, hchannel⟩ := subscribe_ok hm
  have hfirst := h.channel.snapshot hsnapshot
  have hframes : ∀ m', Frame.event m' ∈ s.frames ++ [.event m] →
      Readable x s.channel.sequence s.channel.draftGeneration m' := by
    intro m' hm'
    rcases mem_sent hm' with hold | rfl
    · exact h.frames m' hold
    · exact hfirst
  by_cases hwritable : m.Writable
  swap
  · rw [opened_raises hwritable, hchannel]
    exact Stream.Tells.fail ⟨{ h.channel with }, h.unraised, h.frames, h.pending⟩ hfirst hwritable
  rw [opened_writable hwritable, hchannel]
  split
  · exact Stream.Tells.close ⟨{ h.channel with }, h.unraised, hframes, h.pending⟩
  · exact ⟨{ h.channel with }, fun hphase => (nomatch hphase), hframes,
      fun _ _ _ hphase => nomatch hphase⟩

lemma Stream.Tells.got (h : s.Tells x) {cursor next : Nat} {events : List ExecutionEvent}
    (hread : s.channel.readAfter cursor = .ok (events, next)) : (s.got events next).Tells x := by
  refine ⟨h.channel, fun hphase => absurd hphase resume_ne.2.2, ?_, ?_⟩
  · intro m hm
    unfold Stream.got at hm
    simp only at hm
    split at hm
    · rcases List.mem_append.mp hm with hold | hnew
      · exact h.frames m hold
      · cases List.mem_singleton.mp hnew
    · exact h.frames m hm
  · intro q m rest hphase
    rw [← resume_sending hphase]
    exact h.channel.read hread

lemma Stream.Tells.sent (h : s.Tells x) {cursor : Nat} {m : ExecutionEvent}
    {rest : List ExecutionEvent} (hphase : s.phase = .sending cursor m rest) :
    (s.sent cursor m rest).Tells x := by
  have hpending := h.pending cursor m rest hphase
  have hframes : ∀ m', Frame.event m' ∈ s.frames ++ [.event m] →
      Readable x s.channel.sequence s.channel.draftGeneration m' := by
    intro m' hm'
    rcases mem_sent hm' with hold | rfl
    · exact h.frames m' hold
    · exact hpending _ List.mem_cons_self
  by_cases hwritable : m.Writable
  swap
  · rw [sent_raises hwritable]
    exact h.fail (hpending m List.mem_cons_self) hwritable
  rw [sent_writable hwritable]
  split
  · exact Stream.Tells.close ⟨h.channel, h.unraised, hframes, h.pending⟩
  · refine ⟨h.channel, fun hphase => absurd hphase resume_ne.2.2, hframes, ?_⟩
    intro q m' rest' hresume
    rw [← resume_sending hresume]
    exact fun m'' hm'' => hpending m'' (List.mem_cons_of_mem m hm'')

lemma Stream.Tells.step (h : s.Tells x) (hknown : KnownAction s a) (hstep : Stream.Step s a s') :
    s'.Tells x := by
  cases hstep with
  | operation =>
    obtain ⟨htelling, hsequence, hgeneration⟩ := h.channel.operated hknown
    have hsafe : ∀ {n k : Nat}, n ≤ k → safeCount k = true → safeCount n = true :=
      fun hle hk => decide_eq_true (hle.trans (of_decide_eq_true hk))
    exact ⟨htelling, fun hphase hseq hgen => h.unraised hphase (hsafe hsequence hseq)
        (hsafe hgeneration hgen),
      fun m hm => (h.frames m hm).mono hsequence hgeneration,
      fun q m rest hphase m' hm' => (h.pending q m rest hphase m' hm').mono hsequence hgeneration⟩
  | subscribe hphase hm => exact h.opened hm
  | read hphase hread => exact h.got hread
  | send hphase => exact h.sent hphase

/-- The bytes of an execution's identifiers in an event. -/
def Execution.idBytes (x : Execution) : Nat :=
  JsonDoc.textBytes x.id.toList + JsonDoc.textBytes x.historyId.toList +
    JsonDoc.textBytes x.turnId.toList

lemma telling_new {c : Channel} (h : Channel.new x maxEvents maxBytes maxSubscribers = .ok c)
    (hx : KnownReason x.status (x.stopReason.map Text.ofString)) (hids : x.idBytes ≤ 900000)
    (hbuffer : maxBytes ≤ maxJsonBytes) : Telling x c := by
  obtain ⟨_, -, hnew⟩ := except_bind_ok.mp h
  obtain rfl := except_pure_ok.mp hnew
  exact ⟨rfl, hbuffer, hids, rfl, hx, fun _ => rfl, rfl, ⟨[], Draft.Tracked.empty⟩,
    fun e he => nomatch he⟩

/-- Every state of a stream tells the browser what it takes. -/
lemma stream_tells (hx : KnownReason x.status (x.stopReason.map Text.ofString)) (hids : x.idBytes ≤ 900000)
    (hbuffer : maxBytes ≤ maxJsonBytes)
    (h : ((streaming x maxEvents maxBytes maxSubscribers).restrict KnownAction).Reachable s) :
    s.Tells x := by
  refine h.invariant ?_ (fun _ _ _ htells hstep => htells.step hstep.1 hstep.2)
  rintro s ⟨hnew, hphase, hframes⟩
  refine ⟨telling_new hnew hx hids hbuffer, ?_, ?_, ?_⟩
  · intro hraised
    rw [hphase] at hraised
    cases hraised
  · intro m hm
    rw [hframes] at hm
    cases hm
  · intro q m rest hsending
    rw [hphase] at hsending
    cases hsending

end Streams

section Receiving

variable {js : JsNumbers} {isNumber : List CodePoint → Bool} {x : Execution}
  {maxEvents maxBytes maxSubscribers : Nat} {s : Stream}

lemma mem_found {frames : List Frame} {f : SseFrame} (h : f ∈ frames.flatMap Frame.found) :
    ∃ m, Frame.event m ∈ frames ∧ f = ⟨m.payload.type.toList, m.toJson⟩ := by
  obtain ⟨frame, hframe, hf⟩ := List.mem_flatMap.mp h
  cases frame with
  | event m => exact ⟨m, hframe, List.mem_singleton.mp hf⟩
  | heartbeat => cases hf

lemma found_data (frames : List Frame) : (frames.flatMap Frame.found).map SseFrame.data =
    (frames.filterMap Frame.event?).map ExecutionEvent.toJson := by
  induction frames with
  | nil => rfl
  | cons frame frames ih =>
    rw [List.flatMap_cons, List.map_append, ih]
    cases frame <;> rfl

/-- An event whose JSON is within the bytes that the browser takes fits with its lines. -/
lemma eventBytes_le {m : ExecutionEvent} (hsequence : safeCount m.sequence = true)
    (hsize : Utf8.size (JsonDoc.dumps m.toJson) ≤ maxJsonBytes) :
    eventBytes m ≤ 6 * 1024 * 1024 := by
  have hdigits := length_toDigits_safe hsequence
  have htypes : ∀ t ∈ ["snapshot", "progress", "text_delta", "draft_reset", "terminal",
      "auth_lost"], Utf8.size t.toList ≤ 11 := by decide
  have htype := htypes _ (type_mem m.payload)
  have hlines : Utf8.size "id: ".toList = 4 ∧ Utf8.size "event: ".toList = 7 ∧
      Utf8.size "data: ".toList = 6 := by decide
  have hmax : maxJsonBytes = 6291400 := rfl
  unfold eventBytes idLine eventLine dataLine
  rw [Utf8.size_append, Utf8.size_append, Utf8.size_append, hlines.1, hlines.2.1, hlines.2.2,
    size_allDigits (allDigits_toDigits m.sequence)]
  omega

/-- Whatever the channel does and however the bytes of a stream are cut, the stream raises nothing
and the browser yields the events that the stream has sent, in their order, and throws nothing, as
long as the numbers of the events are safe. -/
theorem readExecutionEvents_of_stream (hjs : js.Exact)
    (hnumber : ∀ t, isNumber t = true ↔ JsonGrammar.Number t)
    (hx : KnownReason x.status (x.stopReason.map Text.ofString)) (hids : x.idBytes ≤ 900000)
    (hbuffer : maxBytes ≤ maxJsonBytes)
    (h : ((streaming x maxEvents maxBytes maxSubscribers).restrict KnownAction).Reachable s)
    (hsequence : safeCount s.channel.sequence = true)
    (hgeneration : safeCount s.channel.draftGeneration = true) :
    s.phase ≠ .raised ∧ ∃ parts, s.frames.mapM Frame.encode = .ok parts ∧
      ∀ chunks : List (List Nat), chunks.flatten = parts.flatten →
        Wire.readExecutionEvents js (fun text => JsonParser.parse isNumber (text.map .scalar))
          x.identity chunks =
            ((s.frames.filterMap Frame.event?).map ExecutionEvent.toJson, none) := by
  have htells := stream_tells hx hids hbuffer h
  have htaken : ∀ m, Frame.event m ∈ s.frames → Wire.Named m ∧ safeCount m.sequence = true ∧
      m.Writable ∧ Utf8.size (JsonDoc.dumps m.toJson) ≤ maxJsonBytes ∧
      decodeExecutionEvent x.identity m = true := by
    intro m hm
    have hreadable := htells.frames m hm
    exact ⟨hreadable.named, hreadable.safe hsequence hgeneration⟩
  have hencoded : ∀ frame ∈ s.frames, ∃ bytes, frame.encode = .ok bytes := by
    intro frame hframe
    cases frame with
    | event m => exact encode_ok (htaken m hframe).2.2.1
    | heartbeat => exact ⟨_, rfl⟩
  have hfits : ∀ frame ∈ s.frames, frame.Fits (6 * 1024 * 1024) := by
    intro frame hframe
    cases frame with
    | event m => exact eventBytes_le (htaken m hframe).2.1 (htaken m hframe).2.2.2.1
    | heartbeat =>
      have hle : 11 ≤ 6 * 1024 * 1024 := by decide
      exact hle
  have hparse : ∀ v : JsonDoc, v.WellFormed →
      (fun text : List Char => JsonParser.parse isNumber (text.map .scalar)) v.dumps = some v :=
    fun v hv => (JsonParser.parse_eq_some_iff hnumber).mpr (JsonDoc.document_dumps hv)
  obtain ⟨parts, hparts⟩ := exists_mapM_ok_iff.mpr hencoded
  refine ⟨fun hraised => htells.unraised hraised hsequence hgeneration, parts, hparts, ?_⟩
  intro chunks hchunks
  obtain ⟨decoder, hfinished, hfeed⟩ := @sse_round_trip _
    (fun text => JsonParser.parse isNumber (text.map .scalar)) hparse _ _ _ hparts hfits hchunks
  rw [← found_data, Wire.readExecutionEvents]
  apply readChunks_ok hfeed hfinished
  intro f hf
  obtain ⟨m, hm, rfl⟩ := mem_found hf
  obtain ⟨hnamed, -, -, -, hdecode⟩ := htaken m hm
  exact (Wire.decodeExecutionEvent_iff hjs x.identity hnamed).mpr hdecode

/-- Numbers that are written with digits alone. -/
def plainNumbers : JsNumbers where
  safe lexeme :=
    let n := (Json.readInt (JsonDoc.lexemeChars lexeme)).toNat
    if safeCount n then some n else none
  text lexeme := String.ofList (JsonDoc.lexemeChars lexeme)

lemma plainNumbers_exact : plainNumbers.Exact := by
  intro n
  have hread : Json.readInt (JsonDoc.lexemeChars ((Nat.toDigits 10 n).map .scalar)) = n := by
    rw [Json.lexemeChars_map]
    exact Json.readInt_intChars n
  simp only [plainNumbers, hread, Int.toNat_natCast]

instance : DecidablePred Channel.Call.Known
  | .setStatus status reason => inferInstanceAs (Decidable (KnownReason status reason))
  | .setTaskProgress _ total => inferInstanceAs (Decidable (total ≤ maxSafeInteger))
  | .setStage _ | .textDelta .. | .reset _ | .finish .. => isTrue trivial

instance (s : Stream) : DecidablePred (KnownAction s)
  | .operation (.call a) => inferInstanceAs (Decidable a.Known)
  | .operation .subscribe | .operation .unsubscribe | .subscribe | .read | .send => isTrue trivial

/-- A stream that sends a snapshot, the start of the run, a text and the end. -/
theorem readExecutionEvents_of_stream_run :
    ∃ isNumber : List CodePoint → Bool, ∃ s : Stream, s.frames.length = 4 ∧
      ∃ parts, s.frames.mapM Frame.encode = .ok parts ∧
        Wire.readExecutionEvents plainNumbers
          (fun text => JsonParser.parse isNumber (text.map .scalar)) newChannel.execution.identity
          parts = ((s.frames.filterMap Frame.event?).map ExecutionEvent.toJson, none) := by
  have hexec : (System.exec Stream.next (fun s a => decide (KnownAction s a))
      (Stream.start newChannel) [.subscribe, .operation (.call (.setStatus .running none)),
        .operation (.call (.textDelta "title" none 0 [.scalar 'a'])),
        .operation (.call (.finish .succeeded none)), .read, .send, .send, .send]).any (fun s =>
        s.frames.length = 4 ∧ safeCount s.channel.sequence = true ∧
          safeCount s.channel.draftGeneration = true) = true := by decide +kernel
  obtain ⟨s, hs, hstate⟩ := (Option.any_eq_true _ _).mp hexec
  obtain ⟨hlength, hsequence, hgeneration⟩ := of_decide_eq_true hstate
  have hnew : Channel.new newChannel.execution 64 4096 8 = .ok newChannel := rfl
  have hrun := @System.exec_run _ _
    ((streaming newChannel.execution 64 4096 8).restrict KnownAction) _ _
    (fun _ _ _ hok hnext => ⟨of_decide_eq_true hok, Stream.next_step hnext⟩) _ _ _ hs
  have hreachable : ((streaming newChannel.execution 64 4096 8).restrict KnownAction).Reachable s :=
    ⟨_, _, ⟨hnew, rfl, rfl⟩, hrun⟩
  let isNumber : List CodePoint → Bool :=
    fun t => @decide (JsonGrammar.Number t) (Classical.propDecidable _)
  have hnumber : ∀ t, isNumber t = true ↔ JsonGrammar.Number t := fun t => by
    simp only [isNumber, decide_eq_true_iff]
  obtain ⟨-, parts, hparts, hread⟩ := readExecutionEvents_of_stream plainNumbers_exact hnumber
    (by decide) (by decide +kernel) (by decide) hreachable hsequence hgeneration
  exact ⟨isNumber, s, hlength, parts, hparts, hread parts rfl⟩

end Receiving

end ChatBI.Events
