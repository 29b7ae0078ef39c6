import ChatBI.Lib.JsonReads
import ChatBI.Lib.Raises
import ChatBI.Report.Drafting
import ChatBI.Report.Streaming

/-!
# The draft that a stream leaves

The decoder and the channel go in step: the decoder has counted the texts of the draft that the
channel tracks. A report that is accepted leaves its own draft, however it was cut and whatever an
attempt before it has shown.
-/

namespace ChatBI.Report

open ChatBI.Lib
open ChatBI.Events (Channel ReportDraft DraftValue addChar addText draftSize InDraftOrder ValidKey
  maxDraftBytes)

/-- The characters that deltas add, each with its position. -/
def entriesOf (deltas : List ReportTextDelta) : List (DraftKey × Char) :=
  deltas.flatMap fun δ => δ.text.map (δ.key, ·)

def Piece.entry (p : Piece) : DraftKey × Char := (p.key, p.char)

/-- The decoder has counted the draft of the channel, and what is to come fits it. -/
structure InStep (decoder : Decoder) (c : Channel) (draft : ReportDraft)
    (rest : List (DraftKey × Char)) : Prop where
  tracked : c.draft.Tracked draft
  lengths : ∀ key, ValidKey key →
    decoder.drafts.draftLengths key = (Events.textAt draft key).length
  order : InDraftOrder draft rest
  size : draftSize (rest.foldl addChar draft) ≤ maxDraftBytes
  unfinished : decoder.finished = false

/-- An output that is accepted: a report that passes the checks, within the size limit and with
only JSON whitespace around it. -/
structure Acceptable (refused : List CodePoint → Bool) (text : List CodePoint)
    (payload : ReportPayload) : Prop where
  surrounded : ∃ before after, text = before ++ (stripPoints text ++ after) ∧
    (∀ c ∈ before, JsonGrammar.IsSpace c) ∧ ∀ c ∈ after, JsonGrammar.IsSpace c
  parsed : parseReportJson refused (stripPoints text) = .ok payload
  checked : ∃ candidate, reportCandidate payload = .ok candidate
  size : ∃ chars, text = chars.map .scalar ∧ Utf8.size chars ≤ maxReportJsonBytes

section Deltas

variable {deltas : List ReportTextDelta} {p : Piece} {pieces : List Piece}
  {s : Drafts} {es rest : List (DraftKey × Char)} {k : Drafts → Option (List Piece)}

lemma entriesOf_record : entriesOf (record deltas p) = entriesOf deltas ++ [p.entry] := by
  unfold record
  cases hlast : deltas.getLast? with
  | none =>
    rw [List.getLast?_eq_none_iff.mp hlast]
    rfl
  | some last =>
    have hsplit := List.dropLast_append_getLast? last hlast
    dsimp only
    split
    · next hcontinues =>
      have hdeltas : entriesOf deltas =
          entriesOf deltas.dropLast ++ last.text.map (last.key, ·) := by
        nth_rewrite 1 [← hsplit]
        simp [entriesOf]
      rw [hdeltas]
      simp [entriesOf, Piece.entry, hcontinues.1]
    · simp [entriesOf, Piece.entry]

/-- The deltas of a chunk add its pieces. -/
lemma entriesOf_foldl_record :
    entriesOf (pieces.foldl record deltas) = entriesOf deltas ++ pieces.map Piece.entry := by
  induction pieces generalizing deltas with
  | nil => exact (List.append_nil _).symm
  | cons p pieces ih =>
    rw [List.foldl_cons, ih, entriesOf_record, List.append_assoc]
    rfl

/-- What is emitted are the entries in their order. -/
lemma entries_emitting (h : emitting s es (fun _ => some []) = some pieces) :
    pieces.map Piece.entry = es := by
  induction es generalizing s pieces with
  | nil =>
    cases h
    rfl
  | cons e es ih =>
    obtain ⟨key, c⟩ := e
    rw [emitting] at h
    split at h
    · cases h
    · obtain ⟨more, hmore, rfl⟩ := Option.map_eq_some_iff.mp h
      rw [List.map_cons, ih hmore]
      rfl

/-- Deltas that continue the draft within its size are published. -/
theorem publishDeltas_ok {c : Channel} {draft : ReportDraft} {lengths : DraftKey → Nat}
    {events resets : Nat} (hroom : c.Room ((entriesOf deltas).length + events) resets)
    (htracked : c.draft.Tracked draft) (hnonempty : ∀ δ ∈ deltas, δ.text ≠ [])
    (hplaced : PlacedFrom lengths deltas)
    (hlengths : ∀ key, ValidKey key → lengths key = (Events.textAt draft key).length)
    (horder : InDraftOrder draft (entriesOf deltas ++ rest))
    (hsize : draftSize ((entriesOf deltas ++ rest).foldl addChar draft) ≤ maxDraftBytes) :
    ∃ c', publishDeltas c deltas = (.ok (), c') ∧ c'.Room events resets ∧
      c'.draft.Tracked ((entriesOf deltas).foldl addChar draft) ∧
      c'.draftGeneration = c.draftGeneration ∧
      ∀ key, ValidKey key → lengths key + (textOf deltas key).length =
        (Events.textAt ((entriesOf deltas).foldl addChar draft) key).length := by
  induction deltas generalizing c draft lengths with
  | nil =>
    have hzero : (entriesOf []).length + events = events := Nat.zero_add events
    rw [hzero] at hroom
    exact ⟨c, rfl, hroom, htracked, rfl, hlengths⟩
  | cons δ deltas ih =>
    have htext : δ.text ≠ [] := hnonempty δ List.mem_cons_self
    have hentries : entriesOf (δ :: deltas) = δ.text.map (δ.key, ·) ++ entriesOf deltas := rfl
    have hcount : (entriesOf (δ :: deltas)).length + events =
        δ.text.length + ((entriesOf deltas).length + events) := by
      rw [hentries, List.length_append, List.length_map, Nat.add_assoc]
    rw [hcount] at hroom
    rw [hentries, List.append_assoc] at horder hsize
    obtain ⟨hfirst, hrest⟩ := Events.inDraftOrder_append.mp horder
    rw [Events.foldl_addChar htext] at hrest
    rw [List.foldl_append, Events.foldl_addChar htext] at hsize
    have hreaches : Events.Reaches draft δ.key := by
      obtain ⟨ch, text, hcons⟩ := List.exists_cons_of_ne_nil htext
      rw [hcons] at hfirst
      exact hfirst.1
    have hwithin : draftSize (addText draft δ.key δ.text) ≤ maxDraftBytes :=
      (Events.size_le_foldl (Events.Kinds.addText htracked.kinds hreaches.1) hrest).trans hsize
    rw [← List.singleton_append] at hplaced
    obtain ⟨hhead, htail⟩ := placedFrom_append.mp hplaced
    have hoffset : δ.offset = (Events.textAt draft δ.key).length :=
      (placedFrom_single.mp hhead).trans (hlengths δ.key hreaches.1)
    obtain ⟨c₁, hpublished, hroom₁, htracked₁, hgeneration₁⟩ :=
      hroom.textDelta htracked hreaches hwithin htext
    have hlengths₁ : ∀ key, ValidKey key → lengths key + (textOf [δ] key).length =
        (Events.textAt (addText draft δ.key δ.text) key).length := by
      intro key hkey
      rw [textOf_single, hlengths key hkey]
      by_cases hsame : δ.key = key
      · rw [if_pos hsame, ← hsame, Events.textAt_addText hreaches, List.length_append]
      · rw [if_neg hsame, Events.textAt_addText_of_ne hreaches hkey hsame]
        rfl
    obtain ⟨c₂, hrun, hroom₂, htracked₂, hgeneration₂, hlengths₂⟩ := ih hroom₁ htracked₁
      (fun δ' hδ' => hnonempty δ' (List.mem_cons_of_mem _ hδ')) htail hlengths₁ hrest hsize
    refine ⟨c₂, ?_, hroom₂, ?_, hgeneration₂.trans hgeneration₁, ?_⟩
    · rw [publishDeltas, hoffset, hpublished]
      exact hrun
    · rw [hentries, List.foldl_append, Events.foldl_addChar htext]
      exact htracked₂
    · intro key hkey
      have htexts : textOf (δ :: deltas) key = textOf [δ] key ++ textOf deltas key := by
        rw [← textOf_append]
        rfl
      rw [hentries, List.foldl_append, Events.foldl_addChar htext, ← hlengths₂ key hkey, htexts,
        List.length_append, Nat.add_assoc]

end Deltas

section Chunks

variable {decoder decoder' : Decoder} {c : Channel} {draft : ReportDraft}
  {rest : List (DraftKey × Char)} {chunks : List (List CodePoint)} {pieces : List Piece}
  {chars : List Char} {rawBytes events resets : Nat}

lemma run_append_ok {text more : List CodePoint}
    (h : decoder.run (text ++ more) = .ok (decoder', pieces)) :
    ∃ d₁ p₁ p₂, decoder.run text = .ok (d₁, p₁) ∧ d₁.run more = .ok (decoder', p₂) ∧
      pieces = p₁ ++ p₂ := by
  rw [run_append] at h
  split at h
  · cases h
  · next d₁ p₁ hfirst =>
    split at h
    · cases h
    · next p₂ hsecond =>
      cases h
      exact ⟨d₁, p₁, p₂, hfirst, hsecond, rfl⟩

/-- Chunks that the decoder reads in step with the channel are published, however they are cut. -/
theorem readChunks_ok (raw : List Char)
    (h : InStep decoder c draft (pieces.map Piece.entry ++ rest))
    (hroom : c.Room (pieces.length + events) resets)
    (hrun : decoder.run chunks.flatten = .ok (decoder', pieces))
    (hchars : chunks.flatten = chars.map .scalar)
    (hbytes : rawBytes + Utf8.size chars ≤ maxReportJsonBytes) :
    ∃ c', readChunks decoder raw rawBytes c chunks = (.ok (decoder', raw ++ chars), c') ∧
      InStep decoder' c' ((pieces.map Piece.entry).foldl addChar draft) rest ∧
      c'.Room events resets ∧ c'.draftGeneration = c.draftGeneration := by
  induction chunks generalizing decoder c draft pieces raw chars rawBytes with
  | nil =>
    cases hrun
    have hnone : chars = [] := List.map_eq_nil_iff.mp hchars.symm
    rw [List.length_nil, Nat.zero_add] at hroom
    refine ⟨c, ?_, h, hroom, rfl⟩
    rw [readChunks, hnone, List.append_nil]
  | cons content chunks ih =>
    rw [List.flatten_cons] at hrun hchars
    obtain ⟨d₁, p₁, p₂, hfirst, hsecond, rfl⟩ := run_append_ok hrun
    obtain ⟨chars₁, chars₂, rfl, hcontent, hmore⟩ := List.map_eq_append_iff.mp hchars.symm
    rw [Utf8.size_append] at hbytes
    rw [List.length_append, Nat.add_assoc] at hroom
    have hfeed : decoder.feed content = .ok (d₁, p₁.foldl record []) := by
      unfold Decoder.feed
      rw [h.unfinished, hfirst]
      rfl
    obtain ⟨hpieces, hcounted, hunfinished⟩ := run_placed hfirst
    have hplaced : PlacedFrom decoder.drafts.draftLengths (p₁.foldl record []) :=
      placedFrom_foldl_record hpieces
    have hentries : entriesOf (p₁.foldl record []) = p₁.map Piece.entry :=
      entriesOf_foldl_record
    have horder := h.order
    have hsize := h.size
    rw [List.map_append, List.append_assoc, ← hentries] at horder hsize
    have hcount : p₁.length = (entriesOf (p₁.foldl record [])).length := by
      rw [hentries, List.length_map]
    rw [hcount] at hroom
    obtain ⟨c₁, hpublished, hroom₁, htracked₁, hgeneration₁, hlengths₁⟩ :=
      publishDeltas_ok hroom h.tracked (foldl_record_nonempty (by simp)) hplaced h.lengths horder
        hsize
    have hstep : InStep d₁ c₁ ((p₁.map Piece.entry).foldl addChar draft)
        (p₂.map Piece.entry ++ rest) := by
      rw [hentries] at htracked₁ hlengths₁ horder hsize
      constructor
      · exact htracked₁
      · intro key hkey
        rw [hcounted key, ← hlengths₁ key hkey, textOf_foldl_record, List.nil_append]
      · exact (Events.inDraftOrder_append.mp horder).2
      · rwa [List.foldl_append] at hsize
      · exact hunfinished.trans h.unfinished
    obtain ⟨c₂, hread, hstep₂, hroom₂, hgeneration₂⟩ := ih (raw ++ chars₁) hstep hroom₁
      hsecond hmore.symm (by rwa [Nat.add_assoc])
    refine ⟨c₂, ?_, ?_, hroom₂, hgeneration₂.trans hgeneration₁⟩
    · have hwithin : ¬maxReportJsonBytes < rawBytes + Utf8.size chars₁ := by omega
      rw [readChunks, ← hcontent, scalars?_map]
      dsimp only
      rw [if_neg hwithin, hcontent, hfeed]
      dsimp only
      rw [hpublished]
      dsimp only
      rw [hread, List.append_assoc]
    · rw [List.map_append, List.foldl_append]
      exact hstep₂

end Chunks

section Checks

variable {payload : ReportPayload} {field : String} {v : JsonDoc}
  {values : List (String × CandidateValue)}

lemma lookup_of_mem (h : (payload.map Prod.fst).Nodup) (hmem : (field, v) ∈ payload) :
    payload.lookup field = some v := by
  induction payload with
  | nil => cases hmem
  | cons m payload ih =>
    obtain ⟨f, w⟩ := m
    obtain ⟨hnot, hnodup⟩ := List.nodup_cons.mp h
    rcases List.mem_cons.mp hmem with he | hin
    · cases he
      exact List.lookup_cons_self
    · have hne : (field == f) = false := by
        apply beq_false_of_ne
        rintro rfl
        exact hnot (List.mem_map.mpr ⟨_, hin, rfl⟩)
      rw [List.lookup_cons, hne]
      exact ih hnodup hin

lemma isText_of_strip {s : String} (h : strip s ≠ "") : IsText (.str s) := by
  intro hempty
  have hchars : s.toList = [] := hempty
  apply h
  rw [strip, hchars]
  rfl

lemma candidateItem_isText {v : JsonDoc} {item : String} (h : candidateItem v = some item) :
    IsText v := by
  unfold candidateItem at h
  split at h
  · split at h
    · cases h
    · next hstrip => exact isText_of_strip hstrip
  · cases h

lemma mapM_candidateItem {items : List JsonDoc} {texts : List String}
    (h : items.mapM candidateItem = some texts) : ∀ v ∈ items, IsText v := by
  induction items generalizing texts with
  | nil => exact fun v hv => absurd hv List.not_mem_nil
  | cons v items ih =>
    rw [List.mapM_cons] at h
    obtain ⟨item, hitem, h⟩ := Option.bind_eq_some_iff.mp h
    obtain ⟨rest, hrest, -⟩ := Option.bind_eq_some_iff.mp h
    intro w hw
    rcases List.mem_cons.mp hw with rfl | hw
    · exact candidateItem_isText hitem
    · exact ih hrest w hw

/-- The text fields of a report that passes the checks have texts, and so do all items of its
lists. -/
lemma candidate_texts (hnodup : (payload.map Prod.fst).Nodup)
    (h : reportCandidate payload = .ok values) (hmem : (field, v) ∈ payload) :
    (field ∈ textFields → ∃ s : String, v = .str s ∧ s.toList ≠ []) ∧
      (field ∈ listFields → ∃ items, v = .arr items ∧ ∀ item ∈ items, IsText item) := by
  unfold reportCandidate at h
  split at h
  swap
  · cases h
  obtain ⟨texts, htexts, h⟩ := except_bind_ok.mp h
  obtain ⟨lists, hlists, -⟩ := except_bind_ok.mp h
  have hlookup := lookup_of_mem hnodup hmem
  constructor
  · intro hfield
    obtain ⟨value, -, hvalue⟩ := exists_of_forall₂ (mapM_ok htexts).flip hfield
    unfold candidateText at hvalue
    rw [hlookup] at hvalue
    split at hvalue
    · next s hs =>
      cases hs
      split at hvalue
      · cases hvalue
      · next hstrip => exact ⟨s, rfl, isText_of_strip hstrip⟩
    · cases hvalue
  · intro hfield
    obtain ⟨value, -, hvalue⟩ :=
      exists_of_forall₂ (mapM_ok hlists).flip (List.mem_append_left _ hfield)
    unfold candidateList at hvalue
    rw [hlookup] at hvalue
    split at hvalue
    · next items hs =>
      cases hs
      refine ⟨items, rfl, ?_⟩
      split at hvalue
      · next texts htexts => exact mapM_candidateItem htexts
      · cases hvalue
    · cases hvalue

end Checks

section Streams

variable {refused : List CodePoint → Bool} {text : List CodePoint} {payload : ReportPayload}
  {c : Channel} {chunks : List (List CodePoint)} {events resets : Nat}

lemma parseReportJson_ok (h : parseReportJson refused text = .ok payload) :
    JsonParser.parse validJsonNumber text = some (.obj payload) ∧
      (JsonDoc.obj payload).UniqueKeys := by
  unfold parseReportJson at h
  split at h
  · cases h
  split at h
  · cases h
  · next v hv =>
    split at h
    · next hunique =>
      split at h
      · next members =>
        cases h
        exact ⟨hv, (JsonDoc.unique_iff _).mp hunique⟩
      · cases h
    · cases h

namespace Acceptable

lemma document (h : Acceptable refused text payload) :
    JsonGrammar.Document text (.obj payload) := by
  obtain ⟨before, after, htext, hbefore, hafter⟩ := h.surrounded
  rw [htext]
  apply JsonGrammar.document_surround hbefore hafter
  exact (JsonParser.parse_eq_some_iff validJsonNumber_iff).mp (parseReportJson_ok h.parsed).1

lemma nodup (h : Acceptable refused text payload) : (payload.map Prod.fst).Nodup := by
  cases (parseReportJson_ok h.parsed).2 with
  | obj hkeys _ => exact hkeys

lemma gapless (h : Acceptable refused text payload) : ∀ m ∈ payload, MemberGapless m := by
  obtain ⟨candidate, hcandidate⟩ := h.checked
  rintro ⟨field, v⟩ hm
  have hlist := (candidate_texts h.nodup hcandidate hm).2
  cases v with
  | arr items =>
    intro hfield
    obtain ⟨_, ⟨⟩, hitems⟩ := hlist hfield
    exact List.pairwise_of_forall_mem_list fun w hw _ _ _ => hitems w hw
  | _ => trivial

/-- The draft of an accepted output is within the limit. -/
lemma draftSize_le (h : Acceptable refused text payload) :
    draftSize (reportDraft payload) ≤ maxDraftBytes := by
  obtain ⟨chars, htext, hsize⟩ := h.size
  obtain ⟨chars', htext', hdumps⟩ := JsonGrammar.document_reads h.document
  have hsame : chars' = chars := by
    apply Option.some.inj
    rw [← scalars?_map chars', ← scalars?_map chars, ← htext, ← htext']
  have hdraft := size_reportDraft_le payload
  rw [hsame] at hdumps
  exact hdraft.trans (hdumps.trans hsize)

/-- The texts of an accepted output come in the order of the draft and build it. -/
lemma drafted (h : Acceptable refused text payload) :
    InDraftOrder [] (membersEmission true payload) ∧
      (membersEmission true payload).foldl addChar [] = reportDraft payload := by
  obtain ⟨horder, hfold⟩ := members_drafted h.nodup fun (_ : String × JsonDoc) _ =>
    (rfl : Dict.get? ([] : ReportDraft) _ = none)
  exact ⟨horder.mpr h.gapless, hfold h.gapless⟩

/-- An accepted output is read to its end, and emits the texts of its report. -/
lemma read (h : Acceptable refused text payload) :
    ∃ decoder pieces, (Decoder.new maxDraftBytes).run text = .ok (decoder, pieces) ∧
      (∃ ended, decoder.finish = .ok ended) ∧
      pieces.map Piece.entry = membersEmission true payload := by
  have hparse : JsonParser.parse validJsonNumber text = some (.obj payload) :=
    (JsonParser.parse_eq_some_iff validJsonNumber_iff).mpr h.document
  have hunique : JsonDoc.uniqueMembers [] payload = true :=
    (JsonDoc.unique_iff (.obj payload)).mpr (parseReportJson_ok h.parsed).2
  have hbytes : draftBytes payload ≤ maxDraftBytes := by
    rw [← sum_reportDraft]
    exact (Events.sum_valueBytes_le _).trans h.draftSize_le
  have hsum : ((membersEmission true payload).map (·.2.utf8Size)).sum ≤ maxDraftBytes := by
    rwa [sum_members]
  obtain ⟨pieces, hpieces⟩ : ∃ pieces, emitting (Decoder.new maxDraftBytes).drafts
      (membersEmission true payload) (fun _ => some []) = some pieces :=
    (emitting_eq_some_iff (Nat.zero_le _)).mpr ((Nat.zero_add _).trans_le hsum)
  have houtcome : (Decoder.new maxDraftBytes).outcome text = _ := outcome_new maxDraftBytes
  rw [hparse] at houtcome
  dsimp only at houtcome
  rw [if_pos hunique, hpieces] at houtcome
  unfold Decoder.outcome at houtcome
  split at houtcome
  · cases houtcome
  · next decoder read hrun =>
    split at houtcome
    · cases houtcome
    · next ended hended =>
      cases houtcome
      exact ⟨decoder, pieces, hrun, ⟨ended, hended⟩, entries_emitting hpieces⟩

/-- The pieces of an accepted output are no more than the bytes of its draft. -/
lemma length_le (h : Acceptable refused text payload) :
    (membersEmission true payload).length ≤ maxDraftBytes := by
  have hbytes : ∀ es : List (DraftKey × Char), es.length ≤ (es.map (·.2.utf8Size)).sum := by
    intro es
    induction es with
    | nil => exact Nat.le_refl _
    | cons e es ih =>
      have hpos := e.2.utf8Size_pos
      rw [List.length_cons, List.map_cons, List.sum_cons]
      omega
  have hle := hbytes (membersEmission true payload)
  rw [sum_members, ← sum_reportDraft] at hle
  exact hle.trans ((Events.sum_valueBytes_le _).trans h.draftSize_le)

/-- The chunks of a prefix of an accepted output are published. The whole output leaves its draft. -/
lemma streamed {more : List CodePoint} (h : Acceptable refused (chunks.flatten ++ more) payload)
    (hroom : c.Room (maxDraftBytes + events) resets) (hempty : c.draft = {}) :
    ∃ decoder chars c', readChunks (Decoder.new maxDraftBytes) [] 0 c chunks =
        (.ok (decoder, chars), c') ∧
      c'.Room events resets ∧ c'.draftGeneration = c.draftGeneration ∧
      (more = [] → finishReport refused decoder chars = .ok payload ∧
        c'.draft.Tracked (reportDraft payload)) := by
  obtain ⟨last, pieces, hrun, ⟨ended, hended⟩, hpieces⟩ := h.read
  obtain ⟨decoder, read, rest, hread, hrest, rfl⟩ := run_append_ok hrun
  obtain ⟨chars, htext, hsize⟩ := h.size
  obtain ⟨chars₁, chars₂, rfl, hchunks, -⟩ := List.map_eq_append_iff.mp htext.symm
  rw [Utf8.size_append] at hsize
  rw [List.map_append] at hpieces
  have hstart : InStep (Decoder.new maxDraftBytes) c []
      (read.map Piece.entry ++ rest.map Piece.entry) := by
    rw [hpieces]
    constructor
    · rw [hempty]
      exact Events.Draft.Tracked.empty
    · rintro ⟨field, index⟩ -
      cases index <;> rfl
    · exact h.drafted.1
    · rw [h.drafted.2]
      exact h.draftSize_le
    · rfl
  have hcount : read.length ≤ maxDraftBytes := by
    have hle := h.length_le
    rw [← hpieces, List.length_append, List.length_map] at hle
    omega
  have hroom' : c.Room (read.length + events) resets := hroom.mono (by omega)
  have hbytes : 0 + Utf8.size chars₁ ≤ maxReportJsonBytes := by omega
  obtain ⟨c', hchannel, hstep, hroom₁, hgeneration⟩ := readChunks_ok [] hstart hroom' hread
    hchunks.symm hbytes
  refine ⟨decoder, [] ++ chars₁, c', hchannel, hroom₁, hgeneration, ?_⟩
  rintro rfl
  cases hrest
  constructor
  · unfold finishReport
    rw [hended, List.nil_append, hchunks]
    dsimp only
    have hparsed := h.parsed
    rwa [List.append_nil] at hparsed
  · have hdraft := hstep.tracked
    rw [List.map_nil, List.append_nil] at hpieces
    rwa [hpieces, h.drafted.2] at hdraft

/-- The draft of an accepted output has its title. -/
lemma draft_ne_nil (h : Acceptable refused text payload) : reportDraft payload ≠ [] := by
  obtain ⟨candidate, hcandidate⟩ := h.checked
  have htitle : "title" ∈ payload.map Prod.fst := by
    unfold reportCandidate at hcandidate
    split at hcandidate
    · next hfields => exact hfields.2 "title" (by decide)
    · cases hcandidate
  obtain ⟨⟨field, v⟩, hm, hfield⟩ := List.mem_map.mp htitle
  have htext : field ∈ textFields := by
    rw [show field = "title" from hfield]
    decide
  obtain ⟨s, hs, hchars⟩ := (candidate_texts h.nodup hcandidate hm).1 htext
  have hshown : draftMember (field, v) = some (field, .text s.toList) := by
    rw [hs, draftMember, if_pos ⟨htext, hchars⟩]
  exact List.ne_nil_of_mem (List.mem_filterMap.mpr ⟨_, hm, hshown⟩)

end Acceptable

/-- The outputs of an accepted run of the model: a report, or a part of one that an error of the
provider cuts off and then a report. -/
def Accepted (refused : List CodePoint → Bool) (first second : Attempt) (payload : ReportPayload) :
    Prop :=
  first.failed = false ∧ Acceptable refused first.chunks.flatten payload ∨
    first.failed = true ∧
      (∃ more cut, Acceptable refused (first.chunks.flatten ++ more) cut) ∧
      second.failed = false ∧ Acceptable refused second.chunks.flatten payload

/-- A channel that tracks a draft shows it. -/
lemma snapshotOf_tracked {draft : ReportDraft} (h : c.draft.Tracked draft) (hne : draft ≠ []) :
    c.snapshotOf c.draft.parts = .ok (c.state (some draft)) := by
  have hparts : c.draft.parts ≠ [] := by
    intro hempty
    have hbuilt := h.built
    rw [hempty] at hbuilt
    exact hne (except_pure_ok.mp hbuilt).symm
  unfold Channel.snapshotOf
  rw [h.counted.built, if_neg hparts]
  rfl

lemma streamJson_accepted {first second : Attempt} (hroom : c.Room (2 * maxDraftBytes + 1) 1)
    (hempty : c.draft = {}) (h : Accepted refused first second payload) :
    ∃ c', streamJson refused c first second = (.ok payload, c') ∧
      c'.snapshotOf c'.draft.parts = .ok (c'.state (some (reportDraft payload))) ∧
      c'.draftGeneration = c.draftGeneration + if first.failed then 1 else 0 := by
  have hsplit : 2 * maxDraftBytes + 1 = maxDraftBytes + (maxDraftBytes + 1) := by decide
  rw [hsplit] at hroom
  rcases h with ⟨hfirst, haccepted⟩ | ⟨hfirst, ⟨more, cut, hcut⟩, hsecond, haccepted⟩
  · have hwhole := haccepted
    rw [← List.append_nil first.chunks.flatten] at hwhole
    obtain ⟨decoder, chars, c', hread, -, hgeneration, hend⟩ := hwhole.streamed hroom hempty
    obtain ⟨hfinish, htracked⟩ := hend rfl
    refine ⟨c', ?_, snapshotOf_tracked htracked haccepted.draft_ne_nil, ?_⟩
    · unfold streamJson streamAttempts
      rw [hread]
      dsimp only
      rw [hfirst, if_neg Bool.false_ne_true, hfinish]
    · rw [hgeneration, hfirst]
      rfl
  · obtain ⟨decoder, chars, c₁, hread, hroom₁, hgeneration₁, -⟩ := hcut.streamed hroom hempty
    obtain ⟨c₂, hreset, hroom₂, hempty₂, hgeneration₂⟩ := hroom₁.reset
    have hwhole := haccepted
    rw [← List.append_nil second.chunks.flatten] at hwhole
    obtain ⟨decoder', chars', c', hread', -, hgeneration, hend⟩ :=
      hwhole.streamed (show c₂.Room (maxDraftBytes + 0) 0 from hroom₂) hempty₂
    obtain ⟨hfinish, htracked⟩ := hend rfl
    refine ⟨c', ?_, snapshotOf_tracked htracked haccepted.draft_ne_nil, ?_⟩
    · unfold streamJson streamAttempts
      rw [hread]
      dsimp only
      rw [hfirst, if_pos rfl, if_neg (List.cons_ne_nil _ _), hreset]
      dsimp only
      unfold streamAttempts
      rw [hread']
      dsimp only
      rw [hsecond, if_neg Bool.false_ne_true, hfinish]
    · rw [hgeneration, hgeneration₂, hgeneration₁, hfirst]
      rfl

/-- Every accepted run of the model, however its outputs are cut, returns its report, and the draft
that the channel then shows is the one of this report. Nothing raises, and nothing of a cut
attempt is left. -/
theorem stream_leaves_draft (refused : List CodePoint → Bool) (c : Channel)
    (first second : Attempt) (payload : ReportPayload) (hroom : c.Room (2 * maxDraftBytes + 1) 1)
    (hempty : c.draft = {}) (h : Accepted refused first second payload) :
    ∃ c', streamJson refused c first second = (.ok payload, c') ∧
      c'.snapshotOf c'.draft.parts = .ok (c'.state (some (reportDraft payload))) ∧
      c'.draftGeneration = c.draftGeneration + if first.failed then 1 else 0 :=
  streamJson_accepted hroom hempty h

/-- A report without root causes. -/
def causelessReport : ReportPayload :=
  [("title", .str "t"), ("executive_summary", .str "s"), ("key_findings", .arr [.str "k", .str "l"]),
    ("trend_judgment", .str "j"), ("root_causes", .arr []), ("action_suggestions", .arr [.str "a"]),
    ("evidence_task_ids", .arr [.str "1"]), ("incomplete_tasks", .arr [])]

def causelessText : List CodePoint := (JsonDoc.dumps (.obj causelessReport)).map .scalar

/-- A channel of an execution that has just been accepted. -/
def reportChannel : Channel where
  execution := ⟨"e", "h", "t", .accepted, none⟩
  maxEvents := 64
  maxBytes := 1024 * 1024
  maxSubscribers := 8
  status := .accepted
  stopReason := none
  terminal := false

lemma reportChannel_room : reportChannel.Room (2 * maxDraftBytes + 1) 1 where
  opened := rfl
  buffer := Nat.le_refl _
  identifiers := by decide
  sequence := by
    have hshort : (Nat.toDigits 10 (reportChannel.sequence + (2 * maxDraftBytes + 1))).length ≤ 8 :=
      (Nat.length_toDigits_le_iff (by decide) (by decide)).mpr (by decide)
    exact hshort.trans (by decide)
  generation := by decide

lemma causelessReport_parsed :
    parseReportJson (fun _ => false) causelessText = .ok causelessReport := by
  have hwell : (JsonDoc.obj causelessReport).WellFormed := by
    apply JsonDoc.WellFormed.obj
    simp [causelessReport, JsonDoc.WellFormed.str, JsonDoc.WellFormed.arr]
  have hparse : JsonParser.parse validJsonNumber causelessText = some (.obj causelessReport) :=
    (JsonParser.parse_eq_some_iff validJsonNumber_iff).mpr (JsonDoc.document_dumps hwell)
  have hunique : (JsonDoc.obj causelessReport).unique = true := by decide +kernel
  unfold parseReportJson
  rw [if_neg Bool.false_ne_true, hparse]
  dsimp only
  rw [if_pos hunique]

lemma causelessText_acceptable :
    Acceptable (fun _ => false) causelessText causelessReport := by
  have hstrip : stripPoints causelessText = causelessText := by decide +kernel
  have hchecked : (reportCandidate causelessReport).isOk = true := by decide +kernel
  constructor
  · refine ⟨[], [], ?_, fun c hc => absurd hc List.not_mem_nil, fun c hc =>
      absurd hc List.not_mem_nil⟩
    rw [hstrip, List.nil_append, List.append_nil]
  · rw [hstrip]
    exact causelessReport_parsed
  · cases hcandidate : reportCandidate causelessReport with
    | ok candidate => exact ⟨candidate, rfl⟩
    | error e =>
      rw [hcandidate] at hchecked
      cases hchecked
  · exact ⟨JsonDoc.dumps (.obj causelessReport), rfl, by decide +kernel⟩

/-- An attempt that is cut inside its title, and then the whole report. -/
theorem stream_leaves_draft_cut :
    ∃ c', streamJson (fun _ => false) reportChannel ⟨[causelessText.take 11], true⟩
        ⟨[causelessText.take 30, causelessText.drop 30], false⟩ = (.ok causelessReport, c') ∧
      c'.snapshotOf c'.draft.parts = .ok (c'.state (some (reportDraft causelessReport))) ∧
      c'.draftGeneration = reportChannel.draftGeneration + if true then 1 else 0 := by
  have hfirst : [causelessText.take 11].flatten ++ causelessText.drop 11 = causelessText := by
    rw [List.flatten_cons, List.flatten_nil, List.append_nil, List.take_append_drop]
  have hsecond : [causelessText.take 30, causelessText.drop 30].flatten = causelessText := by
    rw [List.flatten_cons, List.flatten_cons, List.flatten_nil, List.append_nil,
      List.take_append_drop]
  apply stream_leaves_draft (fun _ => false) reportChannel _ _ causelessReport reportChannel_room rfl
  refine .inr ⟨rfl, ⟨causelessText.drop 11, causelessReport, ?_⟩, rfl, ?_⟩
  · rw [hfirst]
    exact causelessText_acceptable
  · rw [hsecond]
    exact causelessText_acceptable

/-- The draft does not show a list without items. -/
theorem empty_list_not_shown :
    ¬ ∀ (refused : List CodePoint → Bool) (c : Channel) (first second : Attempt)
      (payload : ReportPayload), c.Room (2 * maxDraftBytes + 1) 1 → c.draft = {} →
      Accepted refused first second payload →
      ∃ c' draft, streamJson refused c first second = (.ok payload, c') ∧
        c'.snapshotOf c'.draft.parts = .ok (c'.state (some draft)) ∧
        ∀ field ∈ Events.draftFields,
          (Dict.get? draft field).map DraftValue.toJson = payload.lookup field := by
  intro hall
  have haccepted : Accepted (fun _ => false) ⟨[causelessText], false⟩ ⟨[], false⟩ causelessReport := by
    refine .inl ⟨rfl, ?_⟩
    rw [List.flatten_cons, List.flatten_nil, List.append_nil]
    exact causelessText_acceptable
  obtain ⟨c', draft, hrun, hshown, hfields⟩ :=
    hall _ _ _ _ _ reportChannel_room rfl haccepted
  obtain ⟨c'', hrun', hshown', -⟩ := streamJson_accepted reportChannel_room rfl haccepted
  obtain rfl : c' = c'' := congrArg Prod.snd (hrun.symm.trans hrun')
  have hstates := Except.ok.inj (hshown.symm.trans hshown')
  have hdraft : draft = reportDraft causelessReport :=
    Option.some.inj (congrArg Events.Snapshot.draft hstates)
  have hcauses := hfields "root_causes" (by decide)
  have hnone : Dict.get? (reportDraft causelessReport) "root_causes" = none := by decide +kernel
  rw [hdraft, hnone] at hcauses
  cases hcauses

end Streams

end ChatBI.Report
