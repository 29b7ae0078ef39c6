import ChatBI.Report.Simulation

/-!
# The language of the report decoder

The decoder accepts the JSON objects with unique keys whose draft text fits the bound, and what it
emits is the text of the six fields.
-/

namespace ChatBI.Report

open ChatBI.Lib

/-- The text of an item of a list, `[]` when it is no string. -/
def itemText : Option JsonDoc → List Char
  | some (.str s) => s.toList
  | _ => []

/-- The text of a value that stands at a draft position, `[]` when it is no draft text. -/
def valueText : DraftKey → JsonDoc → List Char
  | (field, none), .str s => if field ∈ textFields then s.toList else []
  | (field, some i), .arr items =>
    if field ∈ listFields then itemText items[i]? else []
  | _, _ => []

/-- The decoded text of a draft position in a report. -/
def draftText (members : List (String × JsonDoc)) (key : DraftKey) : List Char :=
  match members.lookup key.1 with
  | some v => valueText key v
  | none => []

def utf8Bytes (s : String) : Nat := (s.toList.map Char.utf8Size).sum

def itemBytes : JsonDoc → Nat
  | .str s => utf8Bytes s
  | _ => 0

/-- The UTF-8 size of the draft text of a member. -/
def memberBytes : String × JsonDoc → Nat
  | (field, .str s) => if field ∈ textFields then utf8Bytes s else 0
  | (field, .arr items) => if field ∈ listFields then (items.map itemBytes).sum else 0
  | _ => 0

def draftBytes (members : List (String × JsonDoc)) : Nat := (members.map memberBytes).sum

section Root

variable {d : Decoder} {l text : List CodePoint}

lemma outcome_complete (hb : Between d) (hs : d.stack = []) (hr : d.rootComplete = true) :
    d.outcome l = if JsonParser.skipWs l = [] then some [] else none := by
  rw [outcome_skipWs hb.string hb.primitive]
  cases hl : JsonParser.skipWs l with
  | nil =>
    rw [outcome_nil hb.primitive hb.finished, if_pos ⟨hb.string, hs, hr⟩, if_pos rfl]
  | cons c r =>
    rw [outcome_cons_between hb.string hb.primitive (JsonParser.head_skipWs hl),
      if_neg (List.cons_ne_nil c r)]
    simp only [hs, hr, if_true]

/-- Only a brace starts an object. -/
lemma value_object_head {n : Nat} {c : CodePoint} {members : List (String × JsonDoc)}
    {r : List CodePoint}
    (h : JsonParser.value validJsonNumber n (c :: l) = some (.obj members, r)) :
    c = .scalar '{' := by
  by_contra hc
  cases n with
  | zero => cases h
  | succ n =>
    by_cases hq : c = .scalar '"'
    · subst hq
      obtain ⟨s, -, he⟩ := Option.map_eq_some_iff.mp h
      cases he
    by_cases ha : c = .scalar '['
    · subst ha
      rw [JsonParser.value] at h
      split at h
      · cases h
      · obtain ⟨s, -, he⟩ := Option.map_eq_some_iff.mp h
        cases he
    · rw [JsonParser.value_other _ hq ha hc] at h
      obtain ⟨v, hv, he⟩ := Option.map_eq_some_iff.mp h
      cases he
      unfold JsonParser.primitive at hv
      repeat' split at hv
      all_goals cases hv

/-- The decoder behind the brace of the root object, and behind the one that closes it. -/
def started (s : Drafts) : Decoder :=
  { rootStarted := true, stack := [.object { root := true }], drafts := s }

def completed (s : Drafts) : Decoder :=
  { rootStarted := true, rootComplete := true, drafts := s }

lemma outcome_new_cons {n : Nat} {c : CodePoint} (hc : JsonParser.isSpace c = false) :
    (Decoder.new n).outcome (c :: l) =
      if c = .scalar '{' then (started (Decoder.new n).drafts).outcome l else none := by
  rw [outcome_cons_between rfl rfl hc]
  have hstack : (Decoder.new n).stack = [] := rfl
  have hcomplete : (Decoder.new n).rootComplete = false := rfl
  have hstarted : (Decoder.new n).rootStarted = false := rfl
  simp only [hstack, hcomplete, hstarted, Bool.false_eq_true, if_false, false_or]
  by_cases ho : c = .scalar '{'
  · rw [if_neg (not_not_intro ho), if_pos ho]
    rfl
  · rw [if_pos ho, if_neg ho]

lemma outcome_completed {s : Drafts} :
    (completed s).outcome l = if JsonParser.skipWs l = [] then some [] else none :=
  outcome_complete ⟨rfl, rfl, rfl⟩ rfl rfl

/-- The fresh decoder reads one document. -/
theorem outcome_new (n : Nat) :
    (Decoder.new n).outcome text =
      match JsonParser.parse validJsonNumber text with
      | some (.obj members) =>
        if JsonDoc.uniqueMembers [] members then
          emitting (Decoder.new n).drafts (membersEmission true members) fun _ => some []
        else none
      | _ => none := by
  have hws := JsonParser.length_skipWs_le text
  rw [outcome_skipWs rfl rfl]
  unfold JsonParser.parse
  cases hl : JsonParser.skipWs text with
  | nil =>
    rw [value_nil]
    rfl
  | cons c l =>
    rw [hl, List.length_cons] at hws
    rw [outcome_new_cons (JsonParser.head_skipWs hl)]
    by_cases ho : c = .scalar '{'
    swap
    · rw [if_neg ho]
      split
      · next members heq =>
        obtain ⟨⟨v, r⟩, hv, hend⟩ := Option.bind_eq_some_iff.mp heq
        split at hend
        · cases hend
          exact absurd (value_object_head hv) ho
        · cases hend
      · rfl
    subst ho
    rw [if_pos rfl]
    have hd : Between (started (Decoder.new n).drafts) := ⟨rfl, rfl, rfl⟩
    have hclose : ∀ s, { started (Decoder.new n).drafts with drafts := s }.closeContainer =
        .ok (completed s) := fun s => rfl
    simp only [JsonParser.value]
    by_cases hopen : (JsonParser.skipWs l).head? = some (.scalar '}')
    · obtain ⟨r, hr⟩ := List.head?_eq_some_iff.mp hopen
      rw [outcome_skipWs hd.string hd.primitive, if_pos hopen, hr,
        outcome_cons_between hd.string hd.primitive rfl]
      refine (outcome_completed (s := (Decoder.new n).drafts)).trans ?_
      simp only [Option.bind_some, List.tail_cons]
      split <;> rfl
    · rw [if_neg hopen, (simulation (2 * text.length)).2.2 _ _ [] l hd rfl (by omega) (.inr ⟨rfl, hopen⟩)]
      cases JsonParser.members validJsonNumber (2 * text.length) l with
      | none => rfl
      | some p =>
        obtain ⟨ms, r⟩ := p
        simp only [hclose, next_ok, outcome_completed, Option.map_some, Option.bind_some]
        by_cases hr : JsonParser.skipWs r = []
        · simp only [hr, if_true]
          rfl
        · simp only [hr, if_false, emitting_none, ite_self]

end Root

section Emission

variable {s : Drafts} {es : List (DraftKey × Char)} {pieces : List Piece} {key : DraftKey}
  {members : List (String × JsonDoc)}

/-- The text that is put at one position. -/
def textAt (es : List (DraftKey × Char)) (key : DraftKey) : List Char :=
  (es.filter (·.1 = key)).map Prod.snd

lemma textAt_append (es fs : List (DraftKey × Char)) :
    textAt (es ++ fs) key = textAt es key ++ textAt fs key := by
  simp [textAt]

lemma textAt_map (k : DraftKey) (cs : List Char) :
    textAt (cs.map (k, ·)) key = if k = key then cs else [] := by
  induction cs with
  | nil => simp [textAt]
  | cons c cs ih =>
    have hcons : textAt ((c :: cs).map (k, ·)) key =
        textAt [(k, c)] key ++ textAt (cs.map (k, ·)) key := by
      rw [← textAt_append]
      rfl
    rw [hcons, ih]
    by_cases hk : k = key <;> simp [textAt, hk]

/-- Emission succeeds when the text fits, and then puts every character at its position. -/
lemma emitting_eq_some_iff (hs : s.draftBytes ≤ s.maxDraftBytes) :
    (∃ pieces, emitting s es (fun _ => some []) = some pieces) ↔
      s.draftBytes + (es.map (·.2.utf8Size)).sum ≤ s.maxDraftBytes := by
  induction es generalizing s with
  | nil => simpa using hs
  | cons e es ih =>
    obtain ⟨k, c⟩ := e
    have hsum : (((k, c) :: es).map (·.2.utf8Size)).sum =
        c.utf8Size + (es.map (·.2.utf8Size)).sum := rfl
    rw [emitting, hsum]
    by_cases hfits : s.maxDraftBytes < s.draftBytes + c.utf8Size
    · rw [if_pos hfits]
      constructor
      · rintro ⟨_, ⟨⟩⟩
      · intro h
        omega
    · have hadd : (s.add k c).draftBytes = s.draftBytes + c.utf8Size := rfl
      have hmax : (s.add k c).maxDraftBytes = s.maxDraftBytes := rfl
      have hrest := ih (s := s.add k c) (by omega)
      rw [if_neg hfits, ← Nat.add_assoc, ← hadd, ← hmax, ← hrest]
      constructor
      · rintro ⟨_, h⟩
        obtain ⟨ps, hps, -⟩ := Option.map_eq_some_iff.mp h
        exact ⟨ps, hps⟩
      · rintro ⟨ps, hps⟩
        exact ⟨_, by rw [hps]; rfl⟩

lemma emitting_text (h : emitting s es (fun _ => some []) = some pieces) :
    textOf (pieces.map Piece.delta) key = textAt es key := by
  induction es generalizing s pieces with
  | nil =>
    cases h
    rfl
  | cons e es ih =>
    obtain ⟨k, c⟩ := e
    rw [emitting] at h
    split at h
    · cases h
    · obtain ⟨ps, hps, rfl⟩ := Option.map_eq_some_iff.mp h
      have hcons : textAt ((k, c) :: es) key = textAt [(k, c)] key ++ textAt es key := by
        rw [← textAt_append]
        rfl
      rw [hcons, ← ih hps, List.map_cons, ← List.singleton_append, textOf_append, textOf_single]
      by_cases hk : k = key <;> simp [textAt, Piece.delta, hk]

/-- The strings of a list go to the positions of their indices. -/
lemma textAt_listEmission (field : String) (k : Nat) (items : List JsonDoc) (f : String)
    (i : Nat) :
    textAt (listEmission field k items) (f, some i) =
      if f = field ∧ k ≤ i then itemText items[i - k]? else [] := by
  induction items generalizing k with
  | nil => simp [listEmission, textAt, itemText]
  | cons v items ih =>
    have hstep : textAt (listEmission field k (v :: items)) (f, some i) =
        (if f = field ∧ k = i then itemText (some v) else []) ++
          textAt (listEmission field (k + 1) items) (f, some i) := by
      cases v with
      | str s =>
        rw [listEmission, textAt_append, textAt_map]
        simp only [Prod.mk.injEq, Option.some.injEq, eq_comm (a := field), itemText]
      | _ => simp [listEmission, itemText]
    rw [hstep, ih]
    by_cases hf : f = field
    swap
    · simp [hf]
    subst hf
    rcases Nat.lt_trichotomy k i with h | rfl | h
    · have hi : i - k = i - (k + 1) + 1 := by omega
      rw [if_neg (by omega), if_pos ⟨rfl, h⟩, if_pos ⟨rfl, by omega⟩, hi,
        List.getElem?_cons_succ, List.nil_append]
    · rw [if_pos ⟨rfl, rfl⟩, if_neg (by omega), if_pos ⟨rfl, Nat.le_refl k⟩, List.append_nil,
        Nat.sub_self, List.getElem?_cons_zero]
    · rw [if_neg (by omega), if_neg (by omega), if_neg (by omega), List.nil_append]

lemma textAt_listEmission_none (field : String) (k : Nat) (items : List JsonDoc) (f : String) :
    textAt (listEmission field k items) (f, none) = [] := by
  induction items generalizing k with
  | nil => rfl
  | cons v items ih =>
    cases v with
    | str s =>
      rw [listEmission, textAt_append, textAt_map, ih, if_neg (by simp)]
      rfl
    | _ => exact ih (k + 1)

lemma stringKey_member (field : String) :
    Decoder.stringKey (.object { root := true, currentKey := some field }) =
      if field ∈ textFields then some (field, none) else none := by
  by_cases h : field ∈ textFields <;> simp [Decoder.stringKey, Option.filter, h]

lemma arrayField_member (field : String) :
    Decoder.arrayField (.object { root := true, currentKey := some field }) =
      if field ∈ listFields then some field else none := by
  by_cases h : field ∈ listFields <;> simp [Decoder.arrayField, Option.filter, h]

/-- A member puts its text at the positions of its field. -/
lemma textAt_member (field : String) (v : JsonDoc) :
    textAt (valueEmission (.object { root := true, currentKey := some field }) v) key =
      if field = key.1 then valueText key v else [] := by
  obtain ⟨f, index⟩ := key
  cases v with
  | str s =>
    simp only [valueEmission, stringKey_member]
    by_cases hfield : field ∈ textFields
    · rw [if_pos hfield, textAt_map]
      cases index with
      | none =>
        by_cases hf : field = f
        · subst hf
          simp [valueText, hfield]
        · simp [hf]
      | some i => simp [valueText]
    · rw [if_neg hfield]
      have hnil : textAt [] (f, index) = [] := rfl
      rw [hnil]
      cases index with
      | none =>
        by_cases hf : field = f
        · subst hf
          simp [valueText, hfield]
        · simp [hf]
      | some i => simp [valueText]
  | arr items =>
    simp only [valueEmission, arrayField_member]
    by_cases hfield : field ∈ listFields
    · rw [if_pos hfield]
      cases index with
      | none => simp [valueText, textAt_listEmission_none]
      | some i =>
        simp only [textAt_listEmission, Nat.zero_le, and_true, Nat.sub_zero, valueText,
          eq_comm (a := f)]
        by_cases hf : field = f
        · subst hf
          rw [if_pos rfl, if_pos rfl, if_pos hfield]
        · rw [if_neg hf, if_neg hf]
    · rw [if_neg hfield]
      have hnil : textAt [] (f, index) = [] := rfl
      rw [hnil]
      cases index with
      | none => simp [valueText]
      | some i =>
        by_cases hf : field = f
        · subst hf
          simp [valueText, hfield]
        · simp [hf]
  | _ => cases index <;> simp [valueEmission, valueText, textAt]

lemma textAt_members_of_not_mem (h : key.1 ∉ members.map Prod.fst) :
    textAt (membersEmission true members) key = [] := by
  induction members with
  | nil => rfl
  | cons m members ih =>
    obtain ⟨field, v⟩ := m
    simp only [List.map_cons, List.mem_cons, not_or] at h
    rw [membersEmission_cons, textAt_append, textAt_member, if_neg (Ne.symm h.1), ih h.2]
    rfl

/-- In an object with unique keys the emitted text is the draft text. -/
lemma textAt_members (h : (members.map Prod.fst).Nodup) :
    textAt (membersEmission true members) key = draftText members key := by
  induction members with
  | nil => rfl
  | cons m members ih =>
    obtain ⟨field, v⟩ := m
    obtain ⟨hnot, hnodup⟩ := List.nodup_cons.mp h
    rw [membersEmission_cons, textAt_append, textAt_member]
    by_cases hfield : field = key.1
    · subst hfield
      rw [if_pos rfl, textAt_members_of_not_mem hnot, List.append_nil]
      simp [draftText]
    · rw [if_neg hfield, List.nil_append, ih hnodup]
      have hne : (key.1 == field) = false := by simpa using Ne.symm hfield
      simp [draftText, List.lookup_cons, hne]

lemma sum_listEmission (field : String) (k : Nat) (items : List JsonDoc) :
    ((listEmission field k items).map (·.2.utf8Size)).sum = (items.map itemBytes).sum := by
  induction items generalizing k with
  | nil => rfl
  | cons v items ih =>
    cases v <;> simp [listEmission, itemBytes, utf8Bytes, ih, Function.comp_def]

lemma sum_member (field : String) (v : JsonDoc) :
    ((valueEmission (.object { root := true, currentKey := some field }) v).map
      (·.2.utf8Size)).sum = memberBytes (field, v) := by
  cases v with
  | str s =>
    simp only [valueEmission, stringKey_member, memberBytes]
    by_cases hfield : field ∈ textFields
    · rw [if_pos hfield, if_pos hfield]
      simp [utf8Bytes, Function.comp_def]
    · rw [if_neg hfield, if_neg hfield]
      rfl
  | arr items =>
    simp only [valueEmission, arrayField_member, memberBytes]
    by_cases hfield : field ∈ listFields
    · rw [if_pos hfield, if_pos hfield]
      exact sum_listEmission field 0 items
    · rw [if_neg hfield, if_neg hfield]
      rfl
  | _ => rfl

lemma sum_members :
    ((membersEmission true members).map (·.2.utf8Size)).sum = draftBytes members := by
  induction members with
  | nil => rfl
  | cons m members ih =>
    obtain ⟨field, v⟩ := m
    rw [membersEmission_cons, List.map_append, List.sum_append, sum_member, ih]
    rfl

end Emission

section Language

variable {n : Nat} {chunks : List (List CodePoint)} {members : List (String × JsonDoc)}

lemma record_nonempty {deltas : List ReportTextDelta} {p : Piece}
    (h : ∀ δ ∈ deltas, δ.text ≠ []) : ∀ δ ∈ record deltas p, δ.text ≠ [] := by
  intro δ hδ
  unfold record at hδ
  split at hδ
  · cases List.mem_singleton.mp hδ
    exact List.cons_ne_nil _ _
  · split at hδ
    · rcases List.mem_append.mp hδ with hmem | hmem
      · exact h δ (List.dropLast_subset _ hmem)
      · cases List.mem_singleton.mp hmem
        simp
    · rcases List.mem_append.mp hδ with hmem | hmem
      · exact h δ hmem
      · cases List.mem_singleton.mp hmem
        exact List.cons_ne_nil _ _

lemma foldl_record_nonempty {pieces : List Piece} {deltas : List ReportTextDelta}
    (h : ∀ δ ∈ deltas, δ.text ≠ []) : ∀ δ ∈ pieces.foldl record deltas, δ.text ≠ [] := by
  induction pieces generalizing deltas with
  | nil => exact h
  | cons p pieces ih => exact ih (record_nonempty h)

/-- The deltas of a chunk have text. -/
lemma feedAll_nonempty {d : Decoder} : ∀ δ ∈ (d.feedAll chunks).1, δ.text ≠ [] := by
  induction chunks generalizing d with
  | nil => simp [Decoder.feedAll]
  | cons chunk chunks ih =>
    intro δ hδ
    rw [Decoder.feedAll] at hδ
    cases hfeed : d.feed chunk with
    | error e => simp [hfeed] at hδ
    | ok r =>
      simp only [hfeed] at hδ
      rcases List.mem_append.mp hδ with hmem | hmem
      · obtain ⟨_, -, ⟨d', pieces⟩, -, he⟩ := by
          simpa only [Decoder.feed, except_bind_ok] using hfeed
        cases he
        exact foldl_record_nonempty (by simp) δ hmem
      · exact ih δ hmem

lemma emitted_of_run {d d' : Decoder} {text : List CodePoint} {pieces : List Piece}
    (h : d.run text = .ok (d', pieces)) : d.emitted text = pieces := by
  have happend : d.emitted (text ++ []) = pieces ++ d'.emitted [] := emitted_append h
  simpa [Decoder.emitted] using happend

/-- Accepting chunks is having an outcome on their text. -/
lemma accepts_iff_outcome {d : Decoder} (hf : d.finished = false) :
    d.Accepts chunks ↔ ∃ pieces, d.outcome chunks.flatten = some pieces := by
  unfold Decoder.Accepts Decoder.outcome
  rw [feedAll_outcome hf]
  cases d.run chunks.flatten with
  | error e =>
    constructor
    · rintro ⟨_, ⟨⟩⟩
    · rintro ⟨_, ⟨⟩⟩
  | ok r =>
    obtain ⟨d', pieces⟩ := r
    have hbind : ((Except.ok (d', pieces)).map Prod.fst >>= Decoder.finish : Except String Decoder) =
        d'.finish := rfl
    rw [hbind]
    simp only []
    cases d'.finish with
    | error e =>
      constructor
      · rintro ⟨_, ⟨⟩⟩
      · rintro ⟨_, ⟨⟩⟩
    | ok ended =>
      constructor
      · exact fun _ => ⟨pieces, rfl⟩
      · exact fun _ => ⟨ended, rfl⟩

/-- The outcome is what the chunks return. -/
lemma text_of_outcome {d : Decoder} (hf : d.finished = false) {pieces : List Piece}
    (h : d.outcome chunks.flatten = some pieces) (key : DraftKey) :
    textOf (d.feedAll chunks).1 key = textOf (pieces.map Piece.delta) key := by
  unfold Decoder.outcome at h
  cases hr : d.run chunks.flatten with
  | error e =>
    rw [hr] at h
    cases h
  | ok r =>
    obtain ⟨d', ps⟩ := r
    have hall : (d.feedAll chunks).2 = .ok d' := by
      rw [feedAll_outcome hf, hr]
      rfl
    simp only [hr] at h
    split at h
    · cases h
    · cases h
      rw [feedAll_text_of_ok hf hall, emitted_of_run hr]

/-- The decoder accepts the JSON objects with unique keys and bounded draft text, however the
text is cut. It then has emitted, for every position of a draft field, the decoded text of the
report at that position, and no other text. -/
theorem accepts_iff_document (n : Nat) (chunks : List (List CodePoint)) :
    ((Decoder.new n).Accepts chunks ↔
      ∃ members, JsonGrammar.Document chunks.flatten (.obj members) ∧
        (JsonDoc.obj members).UniqueKeys ∧ draftBytes members ≤ n) ∧
    ∀ members, (Decoder.new n).Accepts chunks →
      JsonGrammar.Document chunks.flatten (.obj members) →
      (∀ key, textOf ((Decoder.new n).feedAll chunks).1 key = draftText members key) ∧
        ∀ δ ∈ ((Decoder.new n).feedAll chunks).1, δ.text ≠ [] := by
  have hf : (Decoder.new n).finished = false := rfl
  have hzero : (Decoder.new n).drafts.draftBytes ≤ (Decoder.new n).drafts.maxDraftBytes :=
    Nat.zero_le n
  have hbytes : ∀ members,
      (∃ pieces, emitting (Decoder.new n).drafts (membersEmission true members)
        (fun _ => some []) = some pieces) ↔ draftBytes members ≤ n := by
    intro members
    rw [emitting_eq_some_iff hzero, sum_members]
    have hstart : (Decoder.new n).drafts.draftBytes = 0 := rfl
    rw [hstart, Nat.zero_add]
    rfl
  have hunique : ∀ members, JsonDoc.uniqueMembers [] members = true ↔
      (JsonDoc.obj members).UniqueKeys := fun members => JsonDoc.unique_iff (.obj members)
  have hdocument : ∀ members, JsonGrammar.Document chunks.flatten (.obj members) ↔
      JsonParser.parse validJsonNumber chunks.flatten = some (.obj members) :=
    fun members => (JsonParser.parse_eq_some_iff validJsonNumber_iff).symm
  refine ⟨?_, ?_⟩
  · rw [accepts_iff_outcome hf, outcome_new]
    constructor
    · rintro ⟨pieces, h⟩
      split at h
      · next members hparse =>
        split at h
        · next hu =>
          exact ⟨members, (hdocument members).mpr hparse, (hunique members).mp hu,
            (hbytes members).mp ⟨pieces, h⟩⟩
        · cases h
      · cases h
    · rintro ⟨members, hdoc, hu, hfits⟩
      obtain ⟨pieces, h⟩ := (hbytes members).mpr hfits
      refine ⟨pieces, ?_⟩
      simp only [(hdocument members).mp hdoc, (hunique members).mpr hu, if_true, h]
  · intro members haccepts hdoc
    obtain ⟨pieces, h⟩ := (accepts_iff_outcome hf).mp haccepts
    refine ⟨fun key => ?_, feedAll_nonempty⟩
    rw [text_of_outcome hf h]
    rw [outcome_new, (hdocument members).mp hdoc] at h
    simp only [] at h
    split at h
    · next hu =>
      cases (hunique members).mp hu with
      | obj hkeys _ => rw [emitting_text h, textAt_members hkeys]
    · cases h

/-- A title with an escaped surrogate pair, cut inside it, and a list with a number between two
findings. -/
theorem accepts_iff_document_report :
    ∃ members, JsonGrammar.Document [CodePoint.ofString "\x7b\"title\":\"\\ud83d", CodePoint.ofString
        "\\ude00\", \"key_findings\":[\"a\",1,\"b\"]\x7d"].flatten (.obj members) ∧
      draftText members ("title", none) = ['😀'] ∧
      draftText members ("key_findings", some 2) = ['b'] := by
  have haccepts : (Decoder.new 6).Accepts [CodePoint.ofString "\x7b\"title\":\"\\ud83d",
      CodePoint.ofString "\\ude00\", \"key_findings\":[\"a\",1,\"b\"]\x7d"] := by
    unfold Decoder.Accepts
    cases h : (((Decoder.new 6).feedAll [CodePoint.ofString "\x7b\"title\":\"\\ud83d",
      CodePoint.ofString "\\ude00\", \"key_findings\":[\"a\",1,\"b\"]\x7d"]).2 >>= Decoder.finish) with
    | ok d => exact ⟨d, rfl⟩
    | error e =>
      have hok : (((Decoder.new 6).feedAll [CodePoint.ofString "\x7b\"title\":\"\\ud83d",
        CodePoint.ofString "\\ude00\", \"key_findings\":[\"a\",1,\"b\"]\x7d"]).2 >>=
          Decoder.finish).isOk = true := by decide +kernel
      rw [h] at hok
      cases hok
  obtain ⟨members, hdoc, -⟩ := (accepts_iff_document 6 _).1.mp haccepts
  have htext := ((accepts_iff_document 6 _).2 members haccepts hdoc).1
  refine ⟨members, hdoc, ?_, ?_⟩
  · rw [← htext]
    decide +kernel
  · rw [← htext]
    decide +kernel

end Language

end ChatBI.Report
