import ChatBI.Events.Stream
import ChatBI.Lib.JsonSize

/-!
# What the counters of a channel count

The channel keeps the size of the draft's JSON, the lengths of its texts and the bytes of its ring
beside the draft and the ring, and changes them with each call.
-/

namespace ChatBI.Events

open ChatBI.Lib ChatBI.Store

/-- The counters of a draft and the draft that its parts build. A channel without parts shows no
draft; its counters are those of the empty one. -/
structure Draft.Counted (d : Draft) (draft : ReportDraft) : Prop where
  built : Draft.ofParts d.parts = .ok (if d.parts = [] then none else some draft)
  snapshotBytes : d.snapshotBytes = Utf8.size (JsonDoc.dumps (draftJson draft))
  snapshotLimit : d.snapshotBytes ≤ maxDraftBytes
  bytes : d.bytes = (draft.map fun e => valueBytes e.2).sum
  limit : d.bytes ≤ maxDraftBytes
  lengths : ∀ key, (Dict.get? d.lengths key).getD 0 = ((Dict.get? d.parts key).getD []).length
  lines : ∀ f ∈ listDraftFields, ∃ lines, (Dict.get? draft f).getD (.lines []) = .lines lines ∧
    lines.length = d.listLength f ∧ ∀ i, lines[i]? = Dict.get? d.parts (f, some i)
  fields : d.fields = draft.map Prod.fst

/-- The ring holds the last events, numbered up to the current number, with their sizes. -/
structure RingCounted (maxEvents maxBytes : Nat) (ring : List (ExecutionEvent × Nat))
    (ringBytes sequence : Nat) : Prop where
  numbers : ∃ before, sequence = before + ring.length ∧
    ring.map (fun e => e.1.sequence) = List.range' (before + 1) ring.length
  sizes : ∀ e ∈ ring, e.2 = Utf8.size (JsonDoc.dumps e.1.toJson)
  bytes : ringBytes = (ring.map Prod.snd).sum
  withinBytes : ringBytes ≤ maxBytes
  withinEvents : ring.length ≤ maxEvents
  newest : sequence ≠ 0 → ∃ e, ring.getLast? = some e ∧ e.1.sequence = sequence

def Channel.RingCounted (c : Channel) : Prop :=
  ChatBI.Events.RingCounted c.maxEvents c.maxBytes c.ring c.ringBytes c.sequence

/-- Every counter of the channel counts what it stands for. -/
structure Represented (c : Channel) : Prop where
  draft : ∃ draft, c.draft.Counted draft
  ring : c.RingCounted

/-- The numbers and the texts of the next event can be written. -/
def Channel.Writes (c : Channel) (generation : Nat) (numbers : List Nat) (texts : List Text) :
    Prop :=
  (∀ n ∈ (c.sequence + 1) :: generation :: numbers, (Nat.toDigits 10 n).length ≤ maxStrDigits) ∧
    ∀ t ∈ texts, t.Encodable

/-- The call appends no event, or one that can be written. -/
def Encodable (c : Channel) : Channel.Call → Prop
  | .setStatus status reason =>
    isTerminal status = true ∨ c.terminal = true ∨ Channel.order status < Channel.order c.status ∨
      status = .stopping ∧ reason = none ∨
        c.Writes c.draftGeneration [] (if status = .stopping then reason.toList else [])
  | .setStage stage =>
    ExecutionStage.ofValue? stage = none ∨ c.terminal = true ∨
      c.Writes c.draftGeneration (c.completedTasks :: c.totalTasks.toList) []
  | .setTaskProgress completed total =>
    (total < 1 ∨ completed < 0 ∨ total < completed) ∨ c.terminal = true ∨
      c.Writes c.draftGeneration [completed.toNat, total.toNat] []
  | .textDelta .. => True
  | .reset reason =>
    reason ≠ "model_retry" ∨ c.terminal = true ∨ c.Writes (c.draftGeneration + 1) [] []
  | .finish status publicError =>
    isTerminal status = false ∨ c.terminal = true ∨
      c.Writes c.draftGeneration []
        (publicError.toList.flatMap fun e => e.errorCode.toList ++ e.errorMessage.toList)

def EncodableAction (c : Channel) : ChannelAction → Prop
  | .call a => Encodable c a
  | .subscribe | .unsubscribe => True

section DraftSize

variable {d : Draft} {draft draft' : ReportDraft} {δ : Delta} {field : String}

lemma contentBytes_eq (c : Char) : contentBytes c = JsonDoc.charBytes c := by
  by_cases hshort : c ∈ ['"', '\\', '\x08', '\t', '\n', '\x0c', '\r']
  · have hall : ['"', '\\', '\x08', '\t', '\n', '\x0c', '\r'].all
        (fun c => contentBytes c = JsonDoc.charBytes c) = true := by decide
    exact of_decide_eq_true (List.all_eq_true.mp hall c hshort)
  · rw [contentBytes, if_neg hshort]
    simp only [List.mem_cons, List.not_mem_nil, or_false, not_or] at hshort
    obtain ⟨h₁, h₂, h₃, h₄, h₅, h₆, h₇⟩ := hshort
    rw [JsonDoc.charBytes, JsonDoc.escapeChar, if_neg h₁, if_neg h₂, if_neg h₅, if_neg h₇,
      if_neg h₄, if_neg h₆, if_neg h₃]
    by_cases hcontrol : c.toNat < 0x20
    · -- the digits of a control character are ASCII
      rw [if_pos hcontrol, if_pos hcontrol]
      have hdigit : ∀ n < 16, (JsonDoc.hexDigit n).utf8Size = 1 := by decide
      have hhigh := hdigit (c.toNat / 16) (by omega)
      have hlow := hdigit (c.toNat % 16) (by omega)
      simp only [Utf8.size_cons, Utf8.size_nil, hhigh, hlow]
      decide
    · rw [if_neg hcontrol, if_neg hcontrol]
      rfl

lemma sum_contentBytes (text : List Char) :
    (text.map contentBytes).sum = JsonDoc.textBytes text := by
  rw [JsonDoc.textBytes, funext contentBytes_eq]

/-- The name of a draft field is written without escapes. -/
lemma textBytes_field (h : field ∈ draftFields) :
    JsonDoc.textBytes field.toList = Utf8.size field.toList := by
  have hall : ∀ f ∈ draftFields, JsonDoc.textBytes f.toList = Utf8.size f.toList := by
    decide +kernel
  exact hall field h

/-- The bytes of a draft value. -/
def DraftValue.size (v : DraftValue) : Nat := Utf8.size (JsonDoc.dumps v.toJson)

lemma size_text (t : List Char) : DraftValue.size (.text t) = JsonDoc.textBytes t + 2 := by
  rw [DraftValue.size, DraftValue.toJson, JsonDoc.size_dumps_str, String.toList_ofList]

lemma size_lines (ts : List (List Char)) :
    DraftValue.size (.lines ts) =
      (ts.map JsonDoc.textBytes).sum + 2 * ts.length + (ts.length - 1) + 2 := by
  have hitems : ((ts.map fun t => JsonDoc.str (String.ofList t)).map
      fun v => Utf8.size (JsonDoc.dumps v)).sum = (ts.map JsonDoc.textBytes).sum + 2 * ts.length := by
    induction ts with
    | nil => rfl
    | cons t ts ih =>
      simp only [List.map_cons, List.sum_cons, List.length_cons, ih, JsonDoc.size_dumps_str,
        String.toList_ofList]
      omega
  rw [DraftValue.size, DraftValue.toJson, JsonDoc.size_dumps_arr, hitems, List.length_map]

/-- The bytes of the keys with their quotes and colons. -/
def keyBytes (keys : List String) : Nat :=
  (keys.map fun k => JsonDoc.textBytes k.toList + 3).sum

lemma size_draftJson (draft : ReportDraft) :
    Utf8.size (JsonDoc.dumps (draftJson draft)) = keyBytes (draft.map Prod.fst) +
      (draft.map fun e => e.2.size).sum + (draft.length - 1) + 2 := by
  have hmembers : ((draft.map fun e => (e.1, e.2.toJson)).map JsonDoc.memberBytes).sum =
      keyBytes (draft.map Prod.fst) + (draft.map fun e => e.2.size).sum := by
    unfold keyBytes
    induction draft with
    | nil => rfl
    | cons e draft ih =>
      simp only [List.map_cons, List.sum_cons, ih, JsonDoc.memberBytes, DraftValue.size]
      omega
  rw [draftJson, JsonDoc.size_dumps_obj, hmembers, List.length_map]

/-- Another value of a field that is there. -/
lemma size_set_present {v w : DraftValue} (h : Dict.get? draft field = some v) :
    Utf8.size (JsonDoc.dumps (draftJson (Dict.set draft field w))) + v.size =
      Utf8.size (JsonDoc.dumps (draftJson draft)) + w.size := by
  have hkeys : (Dict.set draft field w).map Prod.fst = draft.map Prod.fst := by
    rw [Dict.keys_set, if_neg (by rw [h]; exact Option.some_ne_none v)]
  have hlength : (Dict.set draft field w).length = draft.length := by
    simpa using congrArg List.length hkeys
  have hsum := Dict.sum_set (d := draft) (k := field) (v := w) DraftValue.size
  rw [h, Option.map_some, Option.getD_some] at hsum
  rw [size_draftJson, size_draftJson, hkeys, hlength]
  omega

/-- A new field. -/
lemma size_set_new {w : DraftValue} (h : Dict.get? draft field = none) :
    Utf8.size (JsonDoc.dumps (draftJson (Dict.set draft field w))) =
      Utf8.size (JsonDoc.dumps (draftJson draft)) + JsonDoc.textBytes field.toList + 3 + w.size +
        (if draft.map Prod.fst ≠ [] then 1 else 0) := by
  have hset : Dict.set draft field w = draft ++ [(field, w)] := Dict.set_of_get?_none h
  have hkeys : keyBytes ((draft ++ [(field, w)]).map Prod.fst) =
      keyBytes (draft.map Prod.fst) + (JsonDoc.textBytes field.toList + 3) := by
    simp [keyBytes]
  have hvalues : ((draft ++ [(field, w)]).map fun e => e.2.size).sum =
      (draft.map fun e => e.2.size).sum + w.size := by
    simp
  rw [hset, size_draftJson, size_draftJson, hkeys, hvalues, List.length_append]
  cases draft with
  | nil =>
    simp only [List.length_nil, List.length_cons, List.map_nil, ne_eq, not_true, if_false]
    omega
  | cons e draft =>
    simp only [List.length_cons, List.length_nil, List.map_cons, ne_eq, List.cons_ne_nil,
      not_false_eq_true, if_true]
    omega

lemma increment_text (hfields : d.fields = draft.map Prod.fst) {offset : Nat} {text : List Char}
    (hfield : field ∈ textDraftFields) (hkind : ∀ v, Dict.get? draft field = some v →
      v = .text (previousText draft field)) :
    Utf8.size (JsonDoc.dumps (draftJson
        (Dict.set draft field (.text (previousText draft field ++ text))))) =
      Utf8.size (JsonDoc.dumps (draftJson draft)) + d.increment ⟨(field, none), offset, text⟩ := by
  simp only [Draft.increment, draftSnapshotIncrement, sum_contentBytes, hfields]
  cases hget : Dict.get? draft field with
  | some v =>
    have hmem : field ∈ draft.map Prod.fst := by
      rw [Dict.mem_map_fst_iff, hget]
      exact Option.some_ne_none v
    have hset := size_set_present (w := .text (previousText draft field ++ text)) hget
    rw [hkind v hget, size_text, size_text, JsonDoc.textBytes_append] at hset
    rw [decide_eq_true hmem, if_pos rfl, if_neg (by simp)]
    omega
  | none =>
    have hmem : field ∉ draft.map Prod.fst := by
      rw [Dict.mem_map_fst_iff, hget]
      exact fun h => h rfl
    have hprevious : previousText draft field = [] := by
      rw [previousText, hget]
    have hset := size_set_new (w := .text (previousText draft field ++ text)) hget
    rw [size_text, hprevious, List.nil_append,
      textBytes_field (List.mem_append_left _ hfield)] at hset
    rw [hprevious, List.nil_append, decide_eq_false hmem, if_neg Bool.false_ne_true, if_pos trivial,
      hset]
    simp only [decide_eq_true_eq]
    omega

lemma increment_lines (hfields : d.fields = draft.map Prod.fst) {offset i : Nat}
    {text : List Char} {lines : List (List Char)} (hfield : field ∈ listDraftFields)
    (hlines : (Dict.get? draft field).getD (.lines []) = .lines lines)
    (hlength : lines.length = d.listLength field) (hi : i ≤ lines.length) :
    Utf8.size (JsonDoc.dumps (draftJson (Dict.set draft field (.lines (addLine lines i text))))) =
      Utf8.size (JsonDoc.dumps (draftJson draft)) + d.increment ⟨(field, some i), offset, text⟩ := by
  have hsum : ((addLine lines i text).map JsonDoc.textBytes).sum =
      (lines.map JsonDoc.textBytes).sum + JsonDoc.textBytes text :=
    sum_addLine JsonDoc.textBytes_append hi
  have hnew : (addLine lines i text).length =
      if i = lines.length then lines.length + 1 else lines.length := length_addLine
  simp only [Draft.increment, draftSnapshotIncrement, sum_contentBytes, hfields, ← hlength,
    Option.some.injEq]
  cases hget : Dict.get? draft field with
  | some v =>
    have hmem : field ∈ draft.map Prod.fst := by
      rw [Dict.mem_map_fst_iff, hget]
      exact Option.some_ne_none v
    have hset := size_set_present (w := .lines (addLine lines i text)) hget
    have hv : v = .lines lines := by
      rw [hget] at hlines
      exact hlines
    rw [hv, size_lines, size_lines, hsum, hnew] at hset
    rw [decide_eq_true hmem, if_pos rfl]
    by_cases hlast : i = lines.length
    · rw [if_pos hlast] at hset ⊢
      by_cases hnil : lines.length = 0
      · rw [if_pos hnil]
        omega
      · rw [if_neg hnil]
        omega
    · rw [if_neg hlast] at hset ⊢
      omega
  | none =>
    have hmem : field ∉ draft.map Prod.fst := by
      rw [Dict.mem_map_fst_iff, hget]
      exact fun h => h rfl
    have hnil : lines = [] := by
      rw [hget] at hlines
      injection hlines with hlines
      exact hlines.symm
    subst hnil
    have hset := size_set_new (w := .lines (addLine [] i text)) hget
    have hfirst : i = ([] : List (List Char)).length := Nat.le_zero.mp hi
    rw [size_lines, hsum, hnew, if_pos hfirst, textBytes_field (List.mem_append_right _ hfield)]
      at hset
    rw [decide_eq_false hmem, if_neg Bool.false_ne_true, if_neg (by simp), hset]
    simp only [List.map_nil, List.sum_nil, List.length_nil, decide_eq_true_eq]
    omega

/-- A written text adds to the size of the draft what the channel adds to its counter. -/
lemma size_write (h : d.Ok draft) (hfields : d.fields = draft.map Prod.fst)
    (hδ : Continues d δ)
    (happly : applyDelta draft δ.key.1 δ.key.2 δ.offset δ.text = some draft') :
    Utf8.size (JsonDoc.dumps (draftJson draft')) =
        Utf8.size (JsonDoc.dumps (draftJson draft)) + d.increment δ ∧
      (d.write δ).fields = draft'.map Prod.fst := by
  have hkeys : ∀ v, (d.write δ).fields = (Dict.set draft δ.key.1 v).map Prod.fst := by
    intro v
    have hmem : δ.key.1 ∈ draft.map Prod.fst ↔ Dict.get? draft δ.key.1 ≠ none :=
      Dict.mem_map_fst_iff
    simp only [Draft.write, hfields, Dict.keys_set]
    by_cases hget : Dict.get? draft δ.key.1 = none
    · rw [if_neg (fun hin => hmem.mp hin hget), if_pos hget]
    · rw [if_pos (hmem.mpr hget), if_neg hget]
  obtain ⟨⟨field, index⟩, offset, text⟩ := δ
  unfold applyDelta at happly
  rcases hδ.key with ⟨hfield, hindex⟩ | ⟨hfield, hindex⟩
  · simp only at hfield hindex happly
    subst hindex
    rw [if_pos hfield] at happly
    split at happly
    · cases happly
      refine ⟨increment_text hfields hfield ?_, hkeys _⟩
      intro v hv
      have htext := h.texts field hfield
      rw [hv] at htext
      obtain ⟨t, -, ht⟩ := Option.map_eq_some_iff.mp htext.symm
      rw [previousText, hv, ← ht]
    · cases happly
  · simp only at hfield hindex happly
    obtain ⟨i, rfl⟩ := Option.ne_none_iff_exists'.mp hindex
    obtain ⟨lines, hlines, hlength, -⟩ := h.lists field hfield
    rw [if_neg (fun hin => textField_not_list hin hfield), hlines] at happly
    simp only at happly
    split at happly
    · cases happly
    · next hcontinues =>
      cases happly
      exact ⟨increment_lines hfields hfield hlines hlength (by omega), hkeys _⟩

end DraftSize

section Tracking

variable {d : Draft} {draft : ReportDraft} {δ : Delta}

/-- The counters of a draft while it grows. -/
structure Draft.Tracked (d : Draft) (draft : ReportDraft) : Prop extends d.Ok draft where
  fields : d.fields = draft.map Prod.fst
  snapshotBytes : d.snapshotBytes = Utf8.size (JsonDoc.dumps (draftJson draft))
  snapshotLimit : d.snapshotBytes ≤ maxDraftBytes
  limit : d.bytes ≤ maxDraftBytes

lemma Draft.Tracked.empty : Draft.Tracked {} [] where
  toOk := Draft.Ok.empty
  fields := rfl
  snapshotBytes := by decide
  snapshotLimit := by decide
  limit := Nat.zero_le _

lemma Draft.Tracked.counted (h : d.Tracked draft) : d.Counted draft where
  built := by
    unfold Draft.ofParts
    split
    · rfl
    · rw [h.built]
      rfl
  snapshotBytes := h.snapshotBytes
  snapshotLimit := h.snapshotLimit
  bytes := h.bytes.symm
  limit := h.limit
  lengths := h.lengths
  lines := h.lists
  fields := h.fields

lemma Draft.Tracked.write (h : d.Tracked draft) (hkey : ValidKey δ.key)
    (hcheck : d.check δ = .ok ()) : ∃ draft', (d.write δ).Tracked draft' := by
  obtain ⟨hindex, hoffset, hbytes, hsnapshot⟩ := Draft.check_ok hcheck
  have hcontinues : Continues d δ := ⟨hkey, hindex, by rw [← h.lengths, hoffset]⟩
  obtain ⟨draft', happly, hok⟩ := h.toOk.write hcontinues
  obtain ⟨hsize, hfields⟩ := size_write h.toOk h.fields hcontinues happly
  refine ⟨draft', hok, hfields, ?_, hsnapshot, hbytes⟩
  rw [hsize, ← h.snapshotBytes]
  rfl

end Tracking

section Rings

variable {c c' : Channel} {payload : Payload} {e : ExecutionEvent × Nat}
  {ring : List (ExecutionEvent × Nat)} {maxEvents maxBytes ringBytes sequence : Nat}

lemma trim_within (h : ringBytes = (ring.map Prod.snd).sum) :
    (Channel.trim maxEvents maxBytes ring ringBytes).2 ≤ maxBytes ∧
      (Channel.trim maxEvents maxBytes ring ringBytes).1.length ≤ maxEvents := by
  induction ring generalizing ringBytes with
  | nil =>
    rw [Channel.trim, h]
    exact ⟨Nat.zero_le _, Nat.zero_le _⟩
  | cons e ring ih =>
    rw [List.map_cons, List.sum_cons] at h
    rw [Channel.trim]
    split
    · apply ih
      omega
    · dsimp only
      omega

/-- The numbers of a ring that has lost its oldest events. -/
lemma numbers_suffix {kept : List (ExecutionEvent × Nat)} {before : Nat} (h : kept <:+ ring)
    (hnumbers : ring.map (fun e => e.1.sequence) = List.range' (before + 1) ring.length) :
    ∃ before', before + ring.length = before' + kept.length ∧
      kept.map (fun e => e.1.sequence) = List.range' (before' + 1) kept.length := by
  obtain ⟨lost, rfl⟩ := h
  refine ⟨before + lost.length, by rw [List.length_append]; omega, ?_⟩
  rw [List.map_append, List.length_append, ← List.range'_append_1] at hnumbers
  have hkept := (List.append_inj hnumbers (by simp)).2
  rw [hkept]
  congr 1
  omega

lemma RingCounted.push (h : RingCounted maxEvents maxBytes ring ringBytes sequence)
    (hpositive : 1 ≤ maxEvents) (hsequence : e.1.sequence = sequence + 1)
    (hsize : e.2 = Utf8.size (JsonDoc.dumps e.1.toJson)) (hfits : e.2 ≤ maxBytes) :
    RingCounted maxEvents maxBytes
      (Channel.trim maxEvents maxBytes (ring ++ [e]) (ringBytes + e.2)).1
      (Channel.trim maxEvents maxBytes (ring ++ [e]) (ringBytes + e.2)).2 (sequence + 1) := by
  obtain ⟨before, hbefore, hnumbers⟩ := h.numbers
  have hbytes : ringBytes + e.2 = ((ring ++ [e]).map Prod.snd).sum := by
    rw [h.bytes]
    simp
  have hall : (ring ++ [e]).map (fun e => e.1.sequence) =
      List.range' (before + 1) (ring ++ [e]).length := by
    rw [List.map_append, hnumbers, List.length_append, ← List.range'_append_1]
    simp only [List.map_cons, List.map_nil, List.length_cons, List.length_nil, List.range'_succ,
      List.range'_zero, hsequence]
    congr 2
    omega
  have hsuffix := trim_suffix maxEvents maxBytes (ringBytes + e.2) (ring ++ [e])
  obtain ⟨hwithin, hlength⟩ : (Channel.trim maxEvents maxBytes (ring ++ [e])
      (ringBytes + e.2)).2 ≤ maxBytes ∧ (Channel.trim maxEvents maxBytes (ring ++ [e])
        (ringBytes + e.2)).1.length ≤ maxEvents := trim_within hbytes
  obtain ⟨before', hbefore', hnumbers'⟩ := numbers_suffix hsuffix hall
  refine ⟨⟨before', ?_, hnumbers'⟩, ?_, trim_bytes hbytes, hwithin, hlength, ?_⟩
  · rw [← hbefore', List.length_append, List.length_singleton]
    omega
  · intro e' he'
    rcases List.mem_append.mp (hsuffix.subset he') with hold | hnew
    · exact h.sizes e' hold
    · rw [List.mem_singleton.mp hnew, hsize]
  · intro _
    have hsum : ringBytes + e.2 = (ring.map Prod.snd).sum + e.2 := by rw [h.bytes]
    obtain ⟨kept, hkept, -⟩ := trim_last hpositive hfits hsum
    exact ⟨e, by rw [hkept, List.getLast?_concat], hsequence⟩

/-- An event that cannot be written takes a number without being in the ring. -/
lemma RingCounted.not_skipped (h : RingCounted maxEvents maxBytes ring ringBytes sequence) :
    ¬RingCounted maxEvents maxBytes ring ringBytes (sequence + 1) := by
  intro hskipped
  obtain ⟨e, hlast, hnumber⟩ := hskipped.newest (Nat.succ_ne_zero sequence)
  obtain ⟨before, hbefore, hnumbers⟩ := h.numbers
  have hmem : e.1.sequence ∈ ring.map (fun e => e.1.sequence) :=
    List.mem_map_of_mem (List.mem_of_getLast? hlast)
  rw [hnumbers, List.mem_range'_1] at hmem
  omega

/-- Appending keeps the counters of the ring exactly when the event can be written. -/
lemma append_counted_iff (h : c.RingCounted) (hpositive : 1 ≤ c.maxEvents) :
    (c.append payload).2.RingCounted ↔ (c.envelope (c.sequence + 1) payload).Writable := by
  by_cases hwritable : (c.envelope (c.sequence + 1) payload).Writable
  · refine iff_of_true ?_ hwritable
    by_cases hsize : c.maxBytes <
        Utf8.size (JsonDoc.dumps (c.envelope (c.sequence + 1) payload).toJson)
    · rw [append_too_large hwritable hsize]
      exact h
    · rw [append_push hwritable (Nat.le_of_not_lt hsize)]
      exact h.push hpositive rfl rfl (Nat.le_of_not_lt hsize)
  · refine iff_of_false ?_ hwritable
    rw [append_not_writable hwritable]
    exact RingCounted.not_skipped h

lemma append_fixed : (c.append payload).2.maxEvents = c.maxEvents := by
  rw [(appended c payload).fields]

/-- Chunks that are all appended keep the counters of the ring. -/
lemma appendChunks_counted {key : DraftKey} {offset : Nat} {chunks : List (List Char)}
    (h : c.RingCounted) (hpositive : 1 ≤ c.maxEvents)
    (hok : (c.appendChunks key offset chunks).1 = .ok ()) :
    (c.appendChunks key offset chunks).2.RingCounted := by
  induction chunks generalizing c offset with
  | nil => exact h
  | cons chunk chunks ih =>
    rw [Channel.appendChunks] at hok ⊢
    cases happend : c.append (.textDelta key.1 key.2 offset chunk) with
    | mk result c' =>
      have hc' : (c.append (.textDelta key.1 key.2 offset chunk)).2 = c' := by rw [happend]
      simp only [happend] at hok ⊢
      cases result with
      | error e => cases hok
      | ok u =>
        have hwritable : (c.envelope (c.sequence + 1)
            (.textDelta key.1 key.2 offset chunk)).Writable := by
          by_contra hnot
          have hraises := append_raises.mpr fun hboth => hnot hboth.1
          rw [happend] at hraises
          exact hraises rfl
        have hnext := (append_counted_iff h hpositive).mpr hwritable
        rw [hc'] at hnext
        apply ih hnext _ hok
        rw [← hc', append_fixed]
        exact hpositive

end Rings

section Calls

variable {c : Channel} {a : Channel.Call}

lemma writable_envelope (payload : Payload) :
    (c.envelope (c.sequence + 1) payload).Writable ↔
      c.Writes c.draftGeneration payload.numbers payload.texts := Iff.rfl

/-- The texts of the error that is shown. -/
lemma texts_safeError (status : ExecutionStatus) (publicError : Option PublicError) :
    (Payload.terminal status (Channel.safeError publicError)).texts =
      publicError.toList.flatMap fun e => e.errorCode.toList ++ e.errorMessage.toList := by
  cases publicError with
  | none => rfl
  | some e =>
    obtain ⟨code, message⟩ := e
    cases code <;> cases message <;> rfl

lemma call_tracked (h : ∃ draft, c.draft.Tracked draft) :
    ∃ draft, (c.call a).2.draft.Tracked draft := by
  generalize hafter : (c.call a).2 = c'
  have hcalled : Called c a c' := hafter ▸ called c a
  cases hcalled with
  | unchanged => exact h
  | unexplained => exact h
  | status _ _ _ happended =>
    rw [happended.fields]
    exact h
  | stage _ _ happended =>
    rw [happended.fields]
    exact h
  | tasks _ _ _ _ happended =>
    rw [happended.fields]
    exact h
  | text _ hcheck hchunks =>
    rw [appendChunks_fields]
    obtain ⟨draft, htracked⟩ := h
    obtain ⟨_, hindraft, -⟩ := except_bind_ok.mp hchunks
    exact htracked.write (Delta.check_ok hcheck).1 hindraft
  | reset _ happended =>
    rw [happended.fields]
    exact ⟨[], Draft.Tracked.empty⟩
  | finish _ _ happended =>
    rw [happended.fields]
    exact ⟨[], Draft.Tracked.empty⟩

lemma setStatus_counted_iff (h : c.RingCounted) (hpositive : 1 ≤ c.maxEvents)
    (status : ExecutionStatus) (reason : Option Text) :
    (c.setStatus status reason).2.RingCounted ↔ Encodable c (.setStatus status reason) := by
  rw [Encodable]
  unfold Channel.setStatus
  by_cases hstatus : isTerminal status = true
  · rw [if_pos hstatus]
    exact iff_of_true h (.inl hstatus)
  by_cases hterminal : c.terminal = true
  · rw [if_neg hstatus, if_pos hterminal]
    exact iff_of_true h (.inr (.inl hterminal))
  by_cases horder : Channel.order status < Channel.order c.status
  · rw [if_neg hstatus, if_neg hterminal, if_pos horder]
    exact iff_of_true h (.inr (.inr (.inl horder)))
  rw [if_neg hstatus, if_neg hterminal, if_neg horder, or_iff_right hstatus,
    or_iff_right hterminal, or_iff_right horder]
  by_cases hstopping : status = .stopping
  · rw [if_pos hstopping, if_pos hstopping]
    cases reason with
    | none => exact iff_of_true h (.inl ⟨hstopping, rfl⟩)
    | some reason =>
      rw [or_iff_right (by simp)]
      exact (append_counted_iff (c := { c with status := status, stopReason := some reason }) h
        hpositive).trans (writable_envelope _)
  · rw [if_neg hstopping, if_neg hstopping, or_iff_right (fun hboth => hstopping hboth.1)]
    exact (append_counted_iff (c := { c with status := status }) h hpositive).trans
      (writable_envelope _)

lemma setStage_counted_iff (h : c.RingCounted) (hpositive : 1 ≤ c.maxEvents) (stage : String) :
    (c.setStage stage).2.RingCounted ↔ Encodable c (.setStage stage) := by
  rw [Encodable]
  unfold Channel.setStage
  cases hvalue : ExecutionStage.ofValue? stage with
  | none => exact iff_of_true h (.inl rfl)
  | some value =>
    rw [or_iff_right (Option.some_ne_none value)]
    by_cases hterminal : c.terminal = true
    · simp only [if_pos hterminal]
      exact iff_of_true h (.inl hterminal)
    · simp only [if_neg hterminal]
      rw [or_iff_right hterminal]
      exact (append_counted_iff (c := { c with stage := some value }) h hpositive).trans
        (writable_envelope _)

lemma setTaskProgress_counted_iff (h : c.RingCounted) (hpositive : 1 ≤ c.maxEvents)
    (completed total : Int) :
    (c.setTaskProgress completed total).2.RingCounted ↔
      Encodable c (.setTaskProgress completed total) := by
  rw [Encodable]
  unfold Channel.setTaskProgress
  by_cases hcounts : total < 1 ∨ completed < 0 ∨ total < completed
  · rw [if_pos hcounts]
    exact iff_of_true h (.inl hcounts)
  by_cases hterminal : c.terminal = true
  · rw [if_neg hcounts, if_pos hterminal]
    exact iff_of_true h (.inr (.inl hterminal))
  rw [if_neg hcounts, if_neg hterminal, or_iff_right hcounts, or_iff_right hterminal]
  exact (append_counted_iff (c := c.withTasks completed.toNat total.toNat) h hpositive).trans
    (writable_envelope _)

lemma textDelta_counted (h : c.RingCounted) (hpositive : 1 ≤ c.maxEvents) (field : String)
    (index : Option Int) (offset : Int) (text : List CodePoint) :
    (c.textDelta field index offset text).2.RingCounted := by
  by_cases hok : (c.textDelta field index offset text).1 = .ok ()
  · unfold Channel.textDelta at hok ⊢
    cases hcheck : Delta.check field index offset text with
    | error e => exact h
    | ok δ =>
      simp only [hcheck] at hok ⊢
      by_cases hterminal : c.terminal = true
      · rw [if_pos hterminal]
        exact h
      rw [if_neg hterminal] at hok ⊢
      cases hchunks : c.deltaChunks δ with
      | error e => exact h
      | ok chunks =>
        simp only [hchunks] at hok ⊢
        exact appendChunks_counted (c := { c with draft := c.draft.write δ }) h hpositive hok
  · rw [textDelta_unchanged hok]
    exact h

lemma reset_counted_iff (h : c.RingCounted) (hpositive : 1 ≤ c.maxEvents) (reason : String) :
    (c.reset reason).2.RingCounted ↔ Encodable c (.reset reason) := by
  rw [Encodable]
  unfold Channel.reset
  by_cases hreason : reason ≠ "model_retry"
  · rw [if_pos hreason]
    exact iff_of_true h (.inl hreason)
  by_cases hterminal : c.terminal = true
  · rw [if_neg hreason, if_pos hterminal]
    exact iff_of_true h (.inr (.inl hterminal))
  rw [if_neg hreason, if_neg hterminal, or_iff_right hreason, or_iff_right hterminal]
  exact (append_counted_iff (c := { c with draftGeneration := c.draftGeneration + 1, draft := {} })
    h hpositive).trans (writable_envelope _)

lemma finish_counted_iff (h : c.RingCounted) (hpositive : 1 ≤ c.maxEvents)
    (status : ExecutionStatus) (publicError : Option PublicError) :
    (c.finish status publicError).2.RingCounted ↔ Encodable c (.finish status publicError) := by
  rw [Encodable]
  unfold Channel.finish
  by_cases hstatus : isTerminal status = true
  · by_cases hterminal : c.terminal = true
    · rw [if_neg (not_not_intro hstatus), if_pos hterminal]
      exact iff_of_true h (.inr (.inl hterminal))
    rw [if_neg (not_not_intro hstatus), if_neg hterminal, or_iff_right (by simp [hstatus]),
      or_iff_right hterminal, ← texts_safeError status]
    exact (append_counted_iff (c := { c with status := status, draft := {}, terminal := true }) h
      hpositive).trans (writable_envelope _)
  · rw [if_pos hstatus]
    rw [Bool.not_eq_true] at hstatus
    exact iff_of_true h (.inl hstatus)

lemma call_counted_iff (h : c.RingCounted) (hpositive : 1 ≤ c.maxEvents) (a : Channel.Call) :
    (c.call a).2.RingCounted ↔ Encodable c a := by
  cases a with
  | setStatus status reason => exact setStatus_counted_iff h hpositive status reason
  | setStage stage => exact setStage_counted_iff h hpositive stage
  | setTaskProgress completed total => exact setTaskProgress_counted_iff h hpositive completed total
  | textDelta field index offset text =>
    exact iff_of_true (textDelta_counted h hpositive field index offset text) trivial
  | reset reason => exact reset_counted_iff h hpositive reason
  | finish status publicError => exact finish_counted_iff h hpositive status publicError

end Calls

section Runs

variable {x : Execution} {maxEvents maxBytes maxSubscribers : Nat} {c c' : Channel}

/-- What every operation keeps, whether its event can be written or not. -/
structure Tracking (c : Channel) : Prop where
  positive : 1 ≤ c.maxEvents
  draft : ∃ draft, c.draft.Tracked draft

lemma tracking_operated (h : Tracking c) (a : ChannelAction) : Tracking (c.operated a) := by
  cases a with
  | call a => exact ⟨(called c a).grown.maxEvents.symm ▸ h.positive, call_tracked h.draft⟩
  | subscribe =>
    rw [Channel.operated, subscribe_subscribers]
    exact ⟨h.positive, h.draft⟩
  | unsubscribe =>
    rw [Channel.operated, unsubscribe_subscribers]
    exact ⟨h.positive, h.draft⟩

lemma represented_new (h : Channel.new x maxEvents maxBytes maxSubscribers = .ok c) :
    Tracking c ∧ c.RingCounted := by
  obtain ⟨_, hlimits, hnew⟩ := except_bind_ok.mp h
  obtain rfl := except_pure_ok.mp hnew
  rw [require_ok] at hlimits
  refine ⟨⟨by dsimp only; omega, [], Draft.Tracked.empty⟩, ⟨0, rfl, rfl⟩, ?_, rfl,
    Nat.zero_le _, Nat.zero_le _, fun hne => absurd rfl hne⟩
  intro e he
  cases he

lemma Tracking.represented (h : Tracking c) (hring : c.RingCounted) : Represented c := by
  obtain ⟨draft, htracked⟩ := h.draft
  exact ⟨⟨draft, htracked.counted⟩, hring⟩

lemma tracking_of_reachable (h : (operating x maxEvents maxBytes maxSubscribers).Reachable c) :
    Tracking c := by
  apply h.invariant (I := Tracking)
  · intro c hnew
    exact (represented_new hnew).1
  · rintro c a c' htracking rfl
    exact tracking_operated htracking a

/-- The counters of the draft are exact in every state that is reached. Those of the ring are as
long as every event can be written, and a call that leaves them exact is one whose event can. -/
theorem represented_iff :
    (∀ c, (operating x maxEvents maxBytes maxSubscribers).Reachable c →
      ∃ draft, c.draft.Counted draft) ∧
    (∀ c, ((operating x maxEvents maxBytes maxSubscribers).restrict EncodableAction).Reachable c →
      Represented c) ∧
    ∀ c a, ((operating x maxEvents maxBytes maxSubscribers).restrict EncodableAction).Reachable c →
      (Represented (c.call a).2 ↔ Encodable c a) := by
  have hcounted : ∀ c,
      ((operating x maxEvents maxBytes maxSubscribers).restrict EncodableAction).Reachable c →
      c.RingCounted := by
    intro c h
    have hboth : Tracking c ∧ c.RingCounted := by
      apply h.invariant (I := fun c => Tracking c ∧ c.RingCounted)
      · intro c hnew
        exact represented_new hnew
      · rintro c a c' ⟨htracking, hring⟩ ⟨hencodable, rfl⟩
        refine ⟨tracking_operated htracking a, ?_⟩
        cases a with
        | call a => exact (call_counted_iff hring htracking.positive a).mpr hencodable
        | subscribe =>
          rw [Channel.operated, subscribe_subscribers]
          exact hring
        | unsubscribe =>
          rw [Channel.operated, unsubscribe_subscribers]
          exact hring
    exact hboth.2
  refine ⟨?_, ?_, ?_⟩
  · intro c h
    obtain ⟨draft, htracked⟩ := (tracking_of_reachable h).draft
    exact ⟨draft, htracked.counted⟩
  · intro c h
    exact (tracking_of_reachable h.of_restrict).represented (hcounted c h)
  · intro c a h
    have htracking := tracking_of_reachable h.of_restrict
    have hiff := call_counted_iff (hcounted c h) htracking.positive a
    constructor
    · intro hrepresented
      exact hiff.mp hrepresented.ring
    · intro hencodable
      exact (tracking_operated htracking (.call a)).represented (hiff.mpr hencodable)

/-- A new channel whose execution starts to run. -/
theorem represented_iff_running :
    Encodable newChannel (.setStatus .running none) ∧
      Represented (newChannel.call (.setStatus .running none)).2 := by
  have hnew : Channel.new newChannel.execution 64 4096 8 = .ok newChannel := rfl
  have hwrites : newChannel.Writes newChannel.draftGeneration [] [] := by
    have hall : ∀ n ∈ [1, 0], (Nat.toDigits 10 n).length ≤ maxStrDigits := by decide
    exact ⟨hall, by simp⟩
  have hencodable : Encodable newChannel (.setStatus .running none) :=
    .inr (.inr (.inr (.inr hwrites)))
  exact ⟨hencodable, (represented_iff.2.2 newChannel (.setStatus .running none)
    (.of_init hnew)).mpr hencodable⟩

/-- A total of 4301 digits. -/
def longTotal : Nat := 10 ^ maxStrDigits

/-- A total that is too long to write takes a number without an event. -/
theorem long_total_unrepresented :
    ∃ c, (operating newChannel.execution 64 4096 8).Reachable c ∧ ¬Represented c := by
  have hnew : Channel.new newChannel.execution 64 4096 8 = .ok newChannel := rfl
  have hreached : (operating newChannel.execution 64 4096 8).Reachable
      (newChannel.call (.setTaskProgress 0 longTotal)).2 :=
    (System.Reachable.of_init hnew).step (e := .call (.setTaskProgress 0 longTotal)) rfl
  refine ⟨_, hreached, ?_⟩
  intro hrepresented
  have hiff := call_counted_iff (represented_new hnew).2 (by decide) (.setTaskProgress 0 longTotal)
  have hpositive : 0 < longTotal := Nat.pow_pos (by decide)
  rcases hiff.mp hrepresented.ring with hcounts | hterminal | hwrites
  · omega
  · exact Bool.noConfusion hterminal
  · have hin : longTotal ∈ [newChannel.sequence + 1, newChannel.draftGeneration, 0, longTotal] :=
      List.mem_cons_of_mem _ (List.mem_cons_of_mem _ (List.mem_cons_of_mem _ List.mem_cons_self))
    have htotal := hwrites.1 longTotal hin
    rw [Nat.length_toDigits_le_iff (by decide) (by decide)] at htotal
    exact absurd htotal (Nat.lt_irrefl longTotal)

end Runs

end ChatBI.Events
