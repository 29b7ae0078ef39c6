import ChatBI.Events.Growing
import ChatBI.Lib.Decimal
import ChatBI.Lib.JsonReads

/-!
# Publishing a draft

A channel with room for events takes the texts of a draft: each chunk of a text is an event that
fits the shared buffer.
-/

namespace ChatBI.Events

open ChatBI.Lib ChatBI.Store

/-- The bytes of the identifiers in every event. -/
def Channel.idBytes (c : Channel) : Nat :=
  JsonDoc.textBytes c.execution.id.toList + JsonDoc.textBytes c.execution.historyId.toList +
    JsonDoc.textBytes c.execution.turnId.toList

/-- A channel that is open and can number a count of further events and resets: it has the default
buffer, and its identifiers are short. -/
structure Channel.Room (c : Channel) (events resets : Nat) : Prop where
  opened : c.terminal = false
  buffer : 1024 * 1024 ≤ c.maxBytes
  identifiers : c.idBytes ≤ 900000
  sequence : (Nat.toDigits 10 (c.sequence + events)).length ≤ maxStrDigits
  generation : (Nat.toDigits 10 (c.draftGeneration + resets)).length ≤ maxStrDigits

section Sizes

variable {n m : Nat}

/-- Lengths and indices of a draft have few digits. -/
lemma length_toDigits_draft (h : n ≤ maxDraftBytes) : (Nat.toDigits 10 n).length ≤ 7 :=
  (Nat.length_toDigits_le_iff (by decide) (by decide)).mpr (h.trans_lt (by decide))

lemma utf8Size_digit {c : Char} (h : c.isDigit = true) : c.utf8Size = 1 := by
  have hle : c.toNat ≤ 57 := by
    unfold Char.isDigit at h
    rw [Bool.and_eq_true, decide_eq_true_iff, decide_eq_true_iff] at h
    exact h.2
  have hsize : c.utf8Size = if c.toNat ≤ 0x7F then 1 else if c.toNat ≤ 0x7FF then 2
      else if c.toNat ≤ 0xFFFF then 3 else 4 := rfl
  rw [hsize, if_pos (by omega)]

lemma size_allDigits {cs : List Char} (h : AllDigits cs) : Utf8.size cs = cs.length := by
  induction cs with
  | nil => rfl
  | cons c cs ih =>
    have hrest := ih fun c' hc' => h c' (List.mem_cons_of_mem c hc')
    rw [Utf8.size_cons, utf8Size_digit (h c List.mem_cons_self), hrest, List.length_cons,
      Nat.add_comm]

lemma size_dumps_nat (n : Nat) :
    Utf8.size (JsonDoc.dumps (JsonDoc.nat n)) = (Nat.toDigits 10 n).length := by
  rw [JsonDoc.dumps_nat, size_allDigits (allDigits_toDigits n)]

lemma size_le_length (text : List Char) : Utf8.size text ≤ 4 * text.length := by
  induction text with
  | nil => exact Nat.le_refl _
  | cons c text ih =>
    have hchar := Char.utf8Size_le_four c
    rw [Utf8.size_cons, List.length_cons]
    omega

lemma textBytes_le (text : List Char) : JsonDoc.textBytes text ≤ 6 * Utf8.size text := by
  induction text with
  | nil => exact Nat.le_refl _
  | cons c text ih =>
    have hchar := JsonGrammar.charBytes_le c
    have hpos := c.utf8Size_pos
    have hcons : JsonDoc.textBytes (c :: text) = JsonDoc.charBytes c + JsonDoc.textBytes text := rfl
    rw [hcons, Utf8.size_cons]
    omega

end Sizes

section Events

variable {c : Channel} {events resets : Nat} {key : DraftKey}

lemma Channel.Room.mono {fewer : Nat} (h : c.Room events resets) (hle : fewer ≤ events) :
    c.Room fewer resets where
  opened := h.opened
  buffer := h.buffer
  identifiers := h.identifiers
  sequence := (length_toDigits_mono (Nat.add_le_add_left hle _)).trans h.sequence
  generation := h.generation

/-- The bytes of an event around its payload. -/
lemma size_envelope (c : Channel) (sequence : Nat) (payload : Payload) :
    Utf8.size (JsonDoc.dumps (c.envelope sequence payload).toJson) ≤
      c.idBytes + (Nat.toDigits 10 sequence).length + (Nat.toDigits 10 c.draftGeneration).length +
        JsonDoc.textBytes payload.type.toList + Utf8.size (JsonDoc.dumps payload.toJson) + 200 := by
  have hkeys : (["version", "execution_id", "history_id", "turn_id", "sequence",
      "draft_generation", "type", "payload"].map fun k => JsonDoc.textBytes k.toList).sum = 71 := by
    decide +kernel
  have hversion : (Nat.toDigits 10 1).length = 1 := by decide
  simp only [List.map_cons, List.map_nil, List.sum_cons, List.sum_nil] at hkeys
  unfold Channel.idBytes
  simp only [ExecutionEvent.toJson, Channel.envelope, optionalField, Option.map_some,
    List.cons_append, List.nil_append, JsonDoc.size_dumps_obj, List.map_cons, List.map_nil,
    List.sum_cons, List.sum_nil, List.length_cons, List.length_nil, JsonDoc.memberBytes,
    JsonDoc.size_dumps_str, size_dumps_nat, hversion]
  omega

/-- The bytes of the payload of a text. -/
lemma size_textDelta (key : DraftKey) (offset : Nat) (text : List Char) (hkey : ValidKey key)
    (hindex : ∀ i ∈ key.2, i ≤ maxDraftBytes) (hoffset : offset ≤ maxDraftBytes)
    (htext : Utf8.size text ≤ maxDeltaBytes) :
    Utf8.size (JsonDoc.dumps (Payload.textDelta key.1 key.2 offset text).toJson) ≤ 100000 := by
  have hkeys : (["field", "index", "offset", "text"].map
      fun k => JsonDoc.textBytes k.toList).sum = 20 := by decide +kernel
  have hfield : JsonDoc.textBytes key.1.toList ≤ 20 := by
    have hall : ∀ f ∈ draftFields, JsonDoc.textBytes f.toList ≤ 20 := by decide +kernel
    rcases hkey with ⟨hmem, -⟩ | ⟨hmem, -⟩
    · exact hall _ (List.mem_append_left _ hmem)
    · exact hall _ (List.mem_append_right _ hmem)
  have hnumber : Utf8.size (JsonDoc.dumps (JsonDoc.ofOption JsonDoc.nat key.2)) ≤ 7 := by
    cases hkind : key.2 with
    | none => decide
    | some i =>
      rw [JsonDoc.ofOption, size_dumps_nat]
      exact length_toDigits_draft (hindex i hkind)
  have hdigits := length_toDigits_draft hoffset
  have hcontent := textBytes_le text
  have hlimit : maxDeltaBytes = 16384 := rfl
  simp only [List.map_cons, List.map_nil, List.sum_cons, List.sum_nil] at hkeys
  simp only [Payload.toJson, JsonDoc.size_dumps_obj, List.map_cons, List.map_nil, List.sum_cons,
    List.sum_nil, List.length_cons, List.length_nil, JsonDoc.memberBytes, JsonDoc.size_dumps_str,
    size_dumps_nat, String.toList_ofList]
  omega

/-- The event of a chunk can be written and fits. -/
lemma Channel.Room.text_ok (h : c.Room events resets) {sequence offset : Nat} {chunk : List Char}
    (hsequence : sequence ≤ c.sequence + events) (hkey : ValidKey key)
    (hindex : ∀ i ∈ key.2, i ≤ maxDraftBytes) (hoffset : offset ≤ maxDraftBytes)
    (hchunk : Utf8.size chunk ≤ maxDeltaBytes) :
    ∃ text, (c.envelope sequence (.textDelta key.1 key.2 offset chunk)).text = .ok text ∧
      Utf8.size text ≤ c.maxBytes := by
  have hnumber : (Nat.toDigits 10 sequence).length ≤ maxStrDigits :=
    (length_toDigits_mono hsequence).trans h.sequence
  have hgeneration : (Nat.toDigits 10 c.draftGeneration).length ≤ maxStrDigits :=
    (length_toDigits_mono (Nat.le_add_right _ _)).trans h.generation
  have hsmall : 7 ≤ maxStrDigits := by decide
  have hwritable : (c.envelope sequence (.textDelta key.1 key.2 offset chunk)).Writable := by
    refine ⟨fun n hn => ?_, fun t ht => nomatch ht⟩
    rcases List.mem_cons.mp hn with rfl | hn
    · exact hnumber
    rcases List.mem_append.mp hn with hn | hn
    · rw [List.mem_singleton.mp hn]
      exact hgeneration
    · rcases List.mem_cons.mp hn with rfl | hn
      · exact (length_toDigits_draft hoffset).trans hsmall
      · exact (length_toDigits_draft (hindex n (Option.mem_toList.mp hn))).trans hsmall
  refine ⟨_, text_of_writable hwritable, ?_⟩
  have htype : JsonDoc.textBytes (Payload.textDelta key.1 key.2 offset chunk).type.toList = 10 := by
    change JsonDoc.textBytes "text_delta".toList = 10
    decide +kernel
  have henvelope := size_envelope c sequence (.textDelta key.1 key.2 offset chunk)
  have hpayload := size_textDelta key offset chunk hkey hindex hoffset hchunk
  have hbuffer := h.buffer
  have hids := h.identifiers
  have hdigits : maxStrDigits = 4300 := rfl
  omega

end Events

section Chunks

variable {c : Channel} {events resets : Nat} {key : DraftKey} {chunks : List (List Char)}
  {maxBytes offset : Nat}

/-- A limit that every character is within splits every text. -/
lemma splitUtf8From_ok (hlimit : 4 ≤ maxBytes) {current text : List Char}
    (hcurrent : Utf8.size current ≤ maxBytes) :
    ∃ chunks, splitUtf8From maxBytes current text = .ok chunks ∧
      ∀ chunk ∈ chunks, chunk ≠ [] ∧ Utf8.size chunk ≤ maxBytes := by
  induction text generalizing current with
  | nil =>
    refine ⟨_, rfl, ?_⟩
    intro chunk hchunk
    split at hchunk
    · cases hchunk
    · next hne => exact List.mem_singleton.mp hchunk ▸ ⟨hne, hcurrent⟩
  | cons c text ih =>
    have hchar : c.utf8Size ≤ maxBytes := (Char.utf8Size_le_four c).trans hlimit
    have hsingle : Utf8.size [c] ≤ maxBytes := by
      rw [Utf8.size_cons, Utf8.size_nil]
      omega
    rw [splitUtf8From, if_neg (by omega)]
    by_cases hover : current ≠ [] ∧ maxBytes < Utf8.size current + c.utf8Size
    · rw [if_pos hover]
      obtain ⟨chunks, hchunks, hall⟩ := ih hsingle
      refine ⟨current :: chunks, by rw [hchunks]; rfl, ?_⟩
      intro chunk hchunk
      rcases List.mem_cons.mp hchunk with rfl | hchunk
      · exact ⟨hover.1, hcurrent⟩
      · exact hall chunk hchunk
    · rw [if_neg hover]
      apply ih
      rw [Utf8.size_append, Utf8.size_cons, Utf8.size_nil]
      by_cases hempty : current = []
      · rw [hempty, Utf8.size_nil]
        omega
      · have hwithin := mt (And.intro hempty) hover
        omega

/-- There are no more parts than characters. -/
lemma length_le_flatten (h : ∀ chunk ∈ chunks, chunk ≠ []) :
    chunks.length ≤ chunks.flatten.length := by
  induction chunks with
  | nil => exact Nat.le_refl _
  | cons chunk chunks ih =>
    have hpos := List.length_pos_of_ne_nil (h chunk List.mem_cons_self)
    have hrest := ih fun chunk' hchunk' => h chunk' (List.mem_cons_of_mem _ hchunk')
    rw [List.flatten_cons, List.length_append, List.length_cons]
    omega

lemma Channel.Room.deltaEventsFit (h : c.Room events resets) (hkey : ValidKey key)
    (hindex : ∀ i ∈ key.2, i ≤ maxDraftBytes) {ordinal : Nat}
    (hchunks : ∀ chunk ∈ chunks, Utf8.size chunk ≤ maxDeltaBytes)
    (hordinal : ordinal + chunks.length ≤ events + 1)
    (hoffset : offset + chunks.flatten.length ≤ maxDraftBytes) :
    c.deltaEventsFit key ordinal offset chunks = .ok true := by
  induction chunks generalizing ordinal offset with
  | nil => rfl
  | cons chunk chunks ih =>
    rw [List.length_cons] at hordinal
    rw [List.flatten_cons, List.length_append] at hoffset
    have hsequence : c.sequence + ordinal ≤ c.sequence + events := by omega
    obtain ⟨text, htext, hsize⟩ := h.text_ok hsequence hkey hindex
      (Nat.le_of_add_right_le hoffset) (hchunks chunk List.mem_cons_self)
    rw [Channel.deltaEventsFit, htext]
    dsimp only
    rw [if_neg hsize.not_gt]
    apply ih
    · exact fun chunk' hchunk' => hchunks chunk' (List.mem_cons_of_mem _ hchunk')
    · omega
    · omega

lemma appendChunks_sequence (hok : (c.appendChunks key offset chunks).1 = .ok ()) :
    (c.appendChunks key offset chunks).2.sequence = c.sequence + chunks.length := by
  induction chunks generalizing c offset with
  | nil => rfl
  | cons chunk chunks ih =>
    obtain ⟨happend, hrest⟩ := appendChunks_cons hok
    obtain ⟨size, hpush⟩ := append_ok happend
    rw [hrest] at hok ⊢
    rw [ih hok, hpush, List.length_cons]
    simp only [Channel.push]
    omega

end Chunks

section Publishing

variable {c : Channel} {events resets : Nat} {key : DraftKey} {draft : ReportDraft}
  {text : List Char}

/-- A text for a position that is reached passes the checks of its arguments. -/
lemma Delta.check_natural (hkey : ValidKey key) (offset : Nat) (htext : text ≠ []) :
    Delta.check key.1 (key.2.map Int.ofNat) offset (text.map .scalar) = .ok ⟨key, offset, text⟩ := by
  obtain ⟨field, index⟩ := key
  have hmap : text.map CodePoint.scalar ≠ [] := mt List.map_eq_nil_iff.mp htext
  unfold Delta.check
  rw [require_ok.mpr (Int.natCast_nonneg offset), require_ok.mpr hmap, scalars?_map]
  rcases hkey with ⟨hfield, rfl⟩ | ⟨hfield, hindex⟩
  · have hdraft : field ∈ draftFields := List.mem_append_left _ hfield
    rw [require_ok.mpr hdraft, if_pos hfield]
    rfl
  · obtain ⟨i, rfl⟩ := Option.ne_none_iff_exists'.mp hindex
    have hdraft : field ∈ draftFields := List.mem_append_right _ hfield
    have hnatural : ∃ j ∈ (some i).map Int.ofNat, 0 ≤ j := ⟨_, rfl, Int.natCast_nonneg i⟩
    rw [require_ok.mpr hdraft, if_neg fun hin => textField_not_list hin hfield,
      require_ok.mpr hnatural]
    rfl

/-- A text that continues the draft within its size is published, and costs at most as many events
as it has characters. -/
theorem Channel.Room.textDelta (h : c.Room (text.length + events) resets)
    (hdraft : c.draft.Tracked draft) (hreaches : Reaches draft key)
    (hsize : draftSize (addText draft key text) ≤ maxDraftBytes) (htext : text ≠ []) :
    ∃ c', c.textDelta key.1 (key.2.map Int.ofNat) (textAt draft key).length (text.map .scalar) =
        (.ok (), c') ∧
      c'.Room events resets ∧ c'.draft.Tracked (addText draft key text) ∧
      c'.draftGeneration = c.draftGeneration := by
  have hkey := hreaches.1
  set δ : Delta := ⟨key, (textAt draft key).length, text⟩ with hδ
  obtain ⟨hcheck, hwritten⟩ := Draft.Tracked.addText (δ := δ) hdraft hreaches rfl hsize
  have hend : (textAt draft key).length + text.length ≤ maxDraftBytes := by
    have hle := length_textAt_le hwritten.kinds hkey
    change (textAt (addText draft key text) key).length ≤ draftSize (addText draft key text) at hle
    rw [textAt_addText hreaches, List.length_append] at hle
    omega
  have hindex : ∀ i ∈ key.2, i ≤ maxDraftBytes := by
    intro i hi
    have hlines := hreaches.2 i hi
    have hle := length_linesOf_le draft key.1
    have hgrown : draftSize draft ≤ draftSize (addText draft key text) :=
      size_le_addText hdraft.kinds hreaches
    omega
  have hlimit : min maxDeltaBytes c.maxBytes = maxDeltaBytes := by
    have hbuffer := h.buffer
    have hdelta : maxDeltaBytes = 16384 := rfl
    omega
  obtain ⟨chunks, hsplit, hchunks⟩ : ∃ chunks, splitUtf8From maxDeltaBytes [] text = .ok chunks ∧
      ∀ chunk ∈ chunks, chunk ≠ [] ∧ Utf8.size chunk ≤ maxDeltaBytes :=
    splitUtf8From_ok (by decide) (Nat.zero_le _)
  have hflatten : chunks.flatten = text := splitUtf8From_flatten hsplit
  have hcount : chunks.length ≤ text.length := by
    have hle := length_le_flatten fun chunk hchunk => (hchunks chunk hchunk).1
    rwa [hflatten] at hle
  have hfit : c.deltaEventsFit key 1 (textAt draft key).length chunks = .ok true := by
    apply h.deltaEventsFit hkey hindex fun chunk hchunk => (hchunks chunk hchunk).2
    · omega
    · rwa [hflatten]
  have hdeltaChunks : c.deltaChunks δ = .ok chunks := by
    have hone : maxDeltaBytes = 16383 + 1 := rfl
    unfold Channel.deltaChunks
    rw [hcheck, hlimit]
    change c.fitChunks δ maxDeltaBytes maxDeltaBytes = _
    nth_rewrite 1 [hone]
    rw [Channel.fitChunks]
    change (splitUtf8From maxDeltaBytes [] text >>= _) = _
    rw [hsplit]
    change (c.deltaEventsFit key 1 (textAt draft key).length chunks >>= _) = _
    rw [hfit]
    rfl
  set written : Channel := { c with draft := c.draft.write δ } with hwrittenChannel
  have hok : (written.appendChunks key (textAt draft key).length chunks).1 = .ok () :=
    appendChunks_ok hfit rfl rfl rfl rfl
  have hsequence := appendChunks_sequence hok
  have hfields := @appendChunks_fields written key (textAt draft key).length chunks
  refine ⟨(written.appendChunks key (textAt draft key).length chunks).2, ?_, ?_, ?_, ?_⟩
  · have hopened : ¬c.terminal = true := by
      rw [h.opened]
      exact Bool.false_ne_true
    unfold Channel.textDelta
    rw [Delta.check_natural hkey _ htext]
    dsimp only
    rw [if_neg hopened, hdeltaChunks]
    exact Prod.ext hok rfl
  · constructor
    · rw [hfields]
      exact h.opened
    · rw [hfields]
      exact h.buffer
    · rw [hfields]
      exact h.identifiers
    · rw [hsequence]
      apply (length_toDigits_mono _).trans h.sequence
      change c.sequence + chunks.length + events ≤ _
      omega
    · rw [hfields]
      exact h.generation
  · rw [hfields]
    exact hwritten
  · rw [hfields]

/-- An event without numbers and texts of its own is appended by a channel with the default
buffer. -/
lemma append_plain {payload : Payload} (hbuffer : 1024 * 1024 ≤ c.maxBytes)
    (hids : c.idBytes ≤ 900000)
    (hsequence : (Nat.toDigits 10 (c.sequence + 1)).length ≤ maxStrDigits)
    (hgeneration : (Nat.toDigits 10 c.draftGeneration).length ≤ maxStrDigits)
    (hnumbers : payload.numbers = []) (htexts : payload.texts = [])
    (hsize : JsonDoc.textBytes payload.type.toList + Utf8.size (JsonDoc.dumps payload.toJson) ≤
      1000) :
    ∃ size, c.append payload = (.ok (), c.push (c.envelope (c.sequence + 1) payload) size) := by
  have hwritable : (c.envelope (c.sequence + 1) payload).Writable := by
    refine ⟨fun n hn => ?_, fun t ht => ?_⟩
    · change n ∈ (c.sequence + 1) :: ([c.draftGeneration] ++ payload.numbers) at hn
      rw [hnumbers] at hn
      rcases List.mem_cons.mp hn with rfl | hn
      · exact hsequence
      · rw [List.mem_singleton.mp hn]
        exact hgeneration
    · change t ∈ payload.texts at ht
      rw [htexts] at ht
      cases ht
  have henvelope := size_envelope c (c.sequence + 1) payload
  have hdigits : maxStrDigits = 4300 := rfl
  refine ⟨Utf8.size (JsonDoc.dumps (c.envelope (c.sequence + 1) payload).toJson), ?_⟩
  unfold Channel.append
  rw [text_of_writable hwritable]
  dsimp only
  rw [if_neg (by omega)]

/-- A reset for another attempt empties the draft. -/
theorem Channel.Room.reset (h : c.Room (events + 1) (resets + 1)) :
    ∃ c', c.reset "model_retry" = (.ok (), c') ∧ c'.Room events resets ∧ c'.draft = {} ∧
      c'.draftGeneration = c.draftGeneration + 1 := by
  have hopened : ¬c.terminal = true := by
    rw [h.opened]
    exact Bool.false_ne_true
  set emptied : Channel := { c with draftGeneration := c.draftGeneration + 1, draft := {} }
    with hemptied
  have hnumber : (Nat.toDigits 10 (c.sequence + 1)).length ≤ maxStrDigits :=
    (length_toDigits_mono (by omega)).trans h.sequence
  have hgeneration : (Nat.toDigits 10 (c.draftGeneration + 1)).length ≤ maxStrDigits :=
    (length_toDigits_mono (by omega)).trans h.generation
  have hsize : JsonDoc.textBytes (Payload.draftReset "model_retry").type.toList +
      Utf8.size (JsonDoc.dumps (Payload.draftReset "model_retry").toJson) ≤ 1000 := by
    change JsonDoc.textBytes "draft_reset".toList + _ ≤ 1000
    decide +kernel
  obtain ⟨size, happend⟩ := append_plain (c := emptied) h.buffer h.identifiers hnumber hgeneration
    rfl rfl hsize
  refine ⟨emptied.push (emptied.envelope (emptied.sequence + 1) (.draftReset "model_retry")) size,
    ?_, ?_, rfl, rfl⟩
  · unfold Channel.reset
    rw [if_neg (not_not_intro rfl), if_neg hopened]
    exact happend
  · constructor
    · exact h.opened
    · exact h.buffer
    · exact h.identifiers
    · apply (length_toDigits_mono _).trans h.sequence
      change c.sequence + 1 + events ≤ _
      omega
    · apply (length_toDigits_mono _).trans h.generation
      change c.draftGeneration + 1 + resets ≤ _
      omega

/-- The end of an execution without an error that may be shown is published. -/
theorem Channel.Room.finish (h : c.Room (events + 1) resets) {status : ExecutionStatus}
    (hstatus : isTerminal status = true) : (c.finish status none).1 = .ok () := by
  have hopened : ¬c.terminal = true := by
    rw [h.opened]
    exact Bool.false_ne_true
  have hnumber : (Nat.toDigits 10 (c.sequence + 1)).length ≤ maxStrDigits :=
    (length_toDigits_mono (by omega)).trans h.sequence
  have hgeneration : (Nat.toDigits 10 c.draftGeneration).length ≤ maxStrDigits :=
    (length_toDigits_mono (Nat.le_add_right _ _)).trans h.generation
  have hsize : JsonDoc.textBytes (Payload.terminal status none).type.toList +
      Utf8.size (JsonDoc.dumps (Payload.terminal status none).toJson) ≤ 1000 := by
    change JsonDoc.textBytes "terminal".toList + _ ≤ 1000
    cases status <;> decide +kernel
  obtain ⟨size, happend⟩ := append_plain
    (c := { c with status := status, draft := {}, terminal := true }) h.buffer h.identifiers
    hnumber hgeneration rfl rfl hsize
  unfold Channel.finish
  rw [if_neg (not_not_intro hstatus), if_neg hopened]
  exact congrArg Prod.fst happend

end Publishing

end ChatBI.Events
