import ChatBI.Events.Reducer

/-!
# Draft texts on both sides

The server keeps the parts of a draft and builds the draft from them; the client keeps the draft
and adds texts to it. A text written to a part is the same text added to the draft.
-/

namespace ChatBI.Events

open ChatBI.Lib ChatBI.Store

/-- The keys that parts have: a text field without an index, a list field with one. -/
def ValidKey (key : DraftKey) : Prop :=
  key.1 ∈ textDraftFields ∧ key.2 = none ∨ key.1 ∈ listDraftFields ∧ key.2 ≠ none

/-- The draft with another text at the position of a key. -/
def setAt (draft : ReportDraft) (key : DraftKey) (text : List Char) : ReportDraft :=
  match key.2, Dict.get? draft key.1 with
  | none, _ => Dict.set draft key.1 (.text text)
  | some i, some (.lines lines) => Dict.set draft key.1 (.lines (lines.set i text))
  | some _, _ => draft

/-- A draft that has a text at the position of a key. -/
def Has (draft : ReportDraft) (key : DraftKey) (text : List Char) : Prop :=
  match key.2 with
  | none => Dict.get? draft key.1 = some (.text text)
  | some i => ∃ lines, Dict.get? draft key.1 = some (.lines lines) ∧ lines[i]? = some text

section AddPart

variable {draft draft' : ReportDraft} {key : DraftKey} {part : DraftKey × List Char}
  {text text' value : List Char}

lemma textField_not_list {field : String} (h : field ∈ textDraftFields) :
    field ∉ listDraftFields := by
  have hall : ∀ f ∈ textDraftFields, f ∉ listDraftFields := by decide
  exact hall field h

lemma addPart_has (h : Draft.addPart draft (key, text) = .ok draft') : Has draft' key text := by
  obtain ⟨field, index⟩ := key
  cases index with
  | none =>
    cases h
    exact Dict.get?_set_self
  | some i =>
    simp only [Draft.addPart] at h
    split at h
    · cases h
    · next lines _ =>
      split at h
      · next hlen =>
        cases h
        refine ⟨lines ++ [text], Dict.get?_set_self, ?_⟩
        rw [← hlen, List.getElem?_concat_length]
      · cases h

/-- A part of another field is added beside a field. -/
lemma addPart_other {field : String} {w : DraftValue} (hne : part.1.1 ≠ field)
    (hfield : Dict.get? draft field ≠ none) :
    Draft.addPart (Dict.set draft field w) part =
        (Dict.set · field w) <$> Draft.addPart draft part ∧
      ∀ draft', Draft.addPart draft part = .ok draft' →
        Dict.get? draft' field = Dict.get? draft field := by
  have hcomm : ∀ v, Dict.set (Dict.set draft field w) part.1.1 v =
      Dict.set (Dict.set draft part.1.1 v) field w :=
    fun v => (Dict.set_comm (Ne.symm hne) hfield).symm
  obtain ⟨⟨field', index⟩, value⟩ := part
  cases index with
  | none =>
    refine ⟨congrArg Except.ok (hcomm _), ?_⟩
    intro draft' h
    cases h
    exact Dict.get?_set_of_ne hne
  | some i =>
    simp only [Draft.addPart, Dict.get?_set_of_ne (Ne.symm hne)]
    cases (Dict.get? draft field').getD (.lines []) with
    | text t =>
      refine ⟨rfl, ?_⟩
      intro draft' h
      cases h
    | lines lines =>
      simp only []
      by_cases hlen : lines.length = i
      · rw [if_pos hlen, if_pos hlen]
        refine ⟨congrArg Except.ok (hcomm _), ?_⟩
        intro draft' h
        cases h
        exact Dict.get?_set_of_ne hne
      · rw [if_neg hlen, if_neg hlen]
        refine ⟨rfl, ?_⟩
        intro draft' h
        cases h

/-- Another line of a list is added behind a line. -/
lemma addPart_line {field : String} {lines : List (List Char)} {i j : Nat}
    (hlines : Dict.get? draft field = some (.lines lines)) (hi : lines[i]? = some text) :
    Draft.addPart (setAt draft (field, some i) value) ((field, some j), text') =
        (setAt · (field, some i) value) <$> Draft.addPart draft ((field, some j), text') ∧
      ∀ draft', Draft.addPart draft ((field, some j), text') = .ok draft' →
        Has draft' (field, some i) text := by
  have hlt : i < lines.length := (List.getElem?_eq_some_iff.mp hi).1
  have hset : setAt draft (field, some i) value =
      Dict.set draft field (.lines (lines.set i value)) := by
    simp only [setAt, hlines]
  simp only [hset, Draft.addPart, Dict.get?_set_self, hlines, Option.getD_some, List.length_set]
  by_cases hlen : lines.length = j
  · rw [if_pos hlen, if_pos hlen]
    refine ⟨congrArg Except.ok ?_, ?_⟩
    · simp only [setAt, Dict.get?_set_self, Dict.set_set, List.set_append_left _ _ hlt]
    · intro draft' h
      cases h
      refine ⟨_, Dict.get?_set_self, ?_⟩
      rw [List.getElem?_append_left hlt, hi]
  · rw [if_neg hlen, if_neg hlen]
    refine ⟨rfl, ?_⟩
    intro draft' h
    cases h

variable (value) in
/-- Adding another part keeps a text and commutes with changing it. -/
lemma addPart_setAt (hkey : ValidKey key) (hpart : ValidKey part.1) (hne : part.1 ≠ key)
    (hhas : Has draft key text) :
    Draft.addPart (setAt draft key value) part =
        (setAt · key value) <$> Draft.addPart draft part ∧
      ∀ draft', Draft.addPart draft part = .ok draft' → Has draft' key text := by
  obtain ⟨field, index⟩ := key
  obtain ⟨⟨field', index'⟩, text'⟩ := part
  cases index with
  | none =>
    have hdiff : field' ≠ field := by
      rintro rfl
      rcases hpart with ⟨-, h⟩ | ⟨h, -⟩
      · exact hne (Prod.ext rfl h)
      · rcases hkey with ⟨hk, -⟩ | ⟨-, hk⟩
        · exact textField_not_list hk h
        · exact hk rfl
    have hfield : Dict.get? draft field = some (.text text) := hhas
    have hother : ((field', index'), text').1.1 ≠ field := hdiff
    obtain ⟨hcomm, hkeep⟩ := addPart_other (w := .text value) hother
      (by rw [hfield]; simp)
    refine ⟨hcomm, fun draft' h => ?_⟩
    exact (hkeep draft' h).trans hfield
  | some i =>
    obtain ⟨lines, hlines, hi⟩ := hhas
    by_cases hdiff : field' = field
    · subst hdiff
      cases index' with
      | none =>
        exfalso
        rcases hpart with ⟨h, -⟩ | ⟨-, h⟩
        · rcases hkey with ⟨-, hk⟩ | ⟨hk, -⟩
          · cases hk
          · exact textField_not_list h hk
        · exact h rfl
      | some j => exact addPart_line hlines hi
    · have hsome : Dict.get? draft field ≠ none := by
        rw [hlines]
        simp
      have hother : ((field', index'), text').1.1 ≠ field := hdiff
      obtain ⟨hcomm, hkeep⟩ := addPart_other (w := .lines (lines.set i value)) hother hsome
      have hset : ∀ d, Dict.get? d field = some (.lines lines) →
          setAt d (field, some i) value = Dict.set d field (.lines (lines.set i value)) := by
        intro d hd
        simp only [setAt, hd]
      refine ⟨?_, fun draft' h => ⟨lines, (hkeep draft' h).trans hlines, hi⟩⟩
      rw [hset draft hlines, hcomm]
      cases hadd : Draft.addPart draft ((field', index'), text') with
      | error e => rfl
      | ok draft' =>
        have hd := (hkeep draft' hadd).trans hlines
        exact congrArg Except.ok (hset draft' hd).symm

end AddPart

section Parts

variable {parts after : Dict DraftKey (List Char)} {draft draft' : ReportDraft} {key : DraftKey}
  {text value : List Char}

variable (value) in
/-- A text at a key stays while other parts are added, and can be changed before or after. -/
lemma foldlM_setAt (hkey : ValidKey key) (hafter : ∀ part ∈ after, ValidKey part.1 ∧ part.1 ≠ key)
    (hhas : Has draft key text) :
    after.foldlM Draft.addPart (setAt draft key value) =
        (setAt · key value) <$> after.foldlM Draft.addPart draft ∧
      ∀ draft', after.foldlM Draft.addPart draft = .ok draft' → Has draft' key text := by
  induction after generalizing draft with
  | nil =>
    refine ⟨rfl, fun draft' h => ?_⟩
    cases h
    exact hhas
  | cons part after ih =>
    obtain ⟨hvalid, hne⟩ := hafter part List.mem_cons_self
    obtain ⟨hcomm, hkeep⟩ := addPart_setAt value hkey hvalid hne hhas
    rw [List.foldlM_cons, List.foldlM_cons, hcomm]
    cases hadd : Draft.addPart draft part with
    | error e =>
      refine ⟨rfl, ?_⟩
      intro draft' h
      cases h
    | ok next =>
      exact ih (fun p hp => hafter p (List.mem_cons_of_mem part hp)) (hkeep next hadd)

/-- The parts of a draft: every key once, none of another kind. -/
structure PartsOk (parts : Dict DraftKey (List Char)) : Prop where
  nodup : (parts.map Prod.fst).Nodup
  valid : ∀ part ∈ parts, ValidKey part.1

lemma addPart_change (h : Draft.addPart draft (key, text) = .ok draft') :
    Draft.addPart draft (key, value) = .ok (setAt draft' key value) := by
  obtain ⟨field, index⟩ := key
  cases index with
  | none =>
    cases h
    exact congrArg Except.ok Dict.set_set.symm
  | some i =>
    simp only [Draft.addPart] at h ⊢
    split at h
    · cases h
    · next lines hlines =>
      split at h
      · next hlen =>
        cases h
        simp only [setAt, Dict.get?_set_self, Dict.set_set, ← hlen]
        simp
      · cases h

variable (value) in
/-- Another text for a part that is there is that text at the position of its key. -/
lemma foldlM_set_present {start : ReportDraft} (hok : PartsOk parts)
    (hget : Dict.get? parts key = some text)
    (hfold : parts.foldlM Draft.addPart start = .ok draft) :
    (Dict.set parts key value).foldlM Draft.addPart start = .ok (setAt draft key value) ∧
      Has draft key text := by
  induction parts generalizing start with
  | nil => cases hget
  | cons part parts ih =>
    obtain ⟨key', text'⟩ := part
    obtain ⟨hnot, hnodup⟩ := List.nodup_cons.mp hok.nodup
    rw [List.foldlM_cons] at hfold
    obtain ⟨next, hadd, hrest⟩ := except_bind_ok.mp hfold
    by_cases hkey : key' = key
    · subst hkey
      have hafter : ∀ part ∈ parts, ValidKey part.1 ∧ part.1 ≠ key' := by
        intro part hpart
        refine ⟨hok.valid part (List.mem_cons_of_mem _ hpart), ?_⟩
        rintro rfl
        exact hnot (List.mem_map.mpr ⟨part, hpart, rfl⟩)
      have htext : text' = text := by simpa [Dict.get?] using hget
      subst htext
      obtain ⟨hset, hkeep⟩ := foldlM_setAt value (hok.valid _ List.mem_cons_self) hafter
        (addPart_has hadd)
      refine ⟨?_, hkeep draft hrest⟩
      rw [Dict.set, if_pos rfl, List.foldlM_cons, addPart_change hadd]
      exact hset.trans (by rw [hrest]; rfl)
    · have hget' : Dict.get? parts key = some text := by simpa [Dict.get?, hkey] using hget
      have hok' : PartsOk parts := ⟨hnodup, fun p hp => hok.valid p (List.mem_cons_of_mem _ hp)⟩
      obtain ⟨hset, hhas⟩ := ih hok' hget' hrest
      refine ⟨?_, hhas⟩
      rw [Dict.set, if_neg hkey, List.foldlM_cons, hadd]
      exact hset

/-- A new part is added last. -/
lemma foldlM_set_new {start : ReportDraft} (hget : Dict.get? parts key = none)
    (hfold : parts.foldlM Draft.addPart start = .ok draft) :
    (Dict.set parts key value).foldlM Draft.addPart start =
      Draft.addPart draft (key, value) := by
  rw [Dict.set_of_get?_none hget, List.foldlM_append, hfold]
  have hsingle : [(key, value)].foldlM Draft.addPart draft = Draft.addPart draft (key, value) := by
    rw [List.foldlM_cons]
    cases Draft.addPart draft (key, value) <;> rfl
  exact hsingle

lemma PartsOk.set (hok : PartsOk parts) (hkey : ValidKey key) :
    PartsOk (Dict.set parts key value) := by
  refine ⟨Dict.nodup_set hok.nodup, fun part hpart => ?_⟩
  rcases Dict.mem_set hpart with h | rfl
  · exact hok.valid part h
  · exact hkey

end Parts

section Write

variable {d : Draft} {draft : ReportDraft} {δ : Delta}

/-- What the draft of a channel knows about the draft that its parts build. -/
structure Draft.Ok (d : Draft) (draft : ReportDraft) : Prop where
  parts : PartsOk d.parts
  built : d.parts.foldlM Draft.addPart [] = .ok draft
  lengths : ∀ key, (Dict.get? d.lengths key).getD 0 = ((Dict.get? d.parts key).getD []).length
  texts : ∀ f ∈ textDraftFields, Dict.get? draft f = (Dict.get? d.parts (f, none)).map .text
  lists : ∀ f ∈ listDraftFields, ∃ lines, (Dict.get? draft f).getD (.lines []) = .lines lines ∧
    lines.length = d.listLength f ∧ ∀ i, lines[i]? = Dict.get? d.parts (f, some i)
  kinds : ∀ e ∈ draft, validDraftField e.1 e.2 = true
  bytes : (draft.map fun e => valueBytes e.2).sum = d.bytes

lemma Draft.Ok.empty : Draft.Ok {} [] where
  parts := ⟨List.nodup_nil, by simp⟩
  built := rfl
  lengths := fun _ => rfl
  texts := fun _ _ => rfl
  lists := fun _ _ => ⟨[], rfl, rfl, fun _ => rfl⟩
  kinds := by simp
  bytes := rfl

/-- The position that a delta continues: its key is valid, an index at most the next one. -/
structure Continues (d : Draft) (δ : Delta) : Prop where
  key : ValidKey δ.key
  index : ∀ i ∈ δ.key.2, i ≤ d.listLength δ.key.1
  offset : ((Dict.get? d.parts δ.key).getD []).length = δ.offset

/-- A delta of a text field. -/
lemma write_text (h : d.Ok draft) {field : String} (text : List Char)
    (hfield : field ∈ textDraftFields) :
    (Draft.writePart d.parts (field, none) text).foldlM Draft.addPart [] =
        .ok (Dict.set draft field (.text (previousText draft field ++ text))) ∧
      (Dict.get? d.parts (field, none)).getD [] = previousText draft field := by
  have htext := h.texts field hfield
  unfold Draft.writePart
  cases hold : Dict.get? d.parts (field, none) with
  | none =>
    have hprevious : previousText draft field = [] := by
      simp only [previousText, htext, hold, Option.map_none]
    rw [foldlM_set_new hold h.built, hprevious]
    exact ⟨rfl, rfl⟩
  | some t =>
    have hprevious : previousText draft field = t := by
      simp only [previousText, htext, hold, Option.map_some]
    rw [hprevious]
    exact ⟨(foldlM_set_present _ h.parts hold h.built).1, rfl⟩

/-- A delta of a line of a list field. -/
lemma write_line (h : d.Ok draft) {field : String} {i : Nat} {text : List Char}
    {lines : List (List Char)} (hlines : (Dict.get? draft field).getD (.lines []) = .lines lines)
    (hparts : ∀ i, lines[i]? = Dict.get? d.parts (field, some i)) (hi : i ≤ lines.length) :
    (Draft.writePart d.parts (field, some i) text).foldlM Draft.addPart [] =
      .ok (Dict.set draft field (.lines (addLine lines i text))) := by
  unfold Draft.writePart
  rw [← hparts i]
  by_cases hlast : i = lines.length
  · have hnone : lines[i]? = none := by
      rw [List.getElem?_eq_none_iff]
      omega
    rw [hnone, foldlM_set_new (hnone ▸ (hparts i).symm) h.built]
    simp only [Draft.addPart, hlines, hlast, if_true, addLine, Option.getD_none,
      List.nil_append]
  · have hlt : i < lines.length := by omega
    have hsome : lines[i]? = some lines[i] := List.getElem?_eq_getElem hlt
    have hget : Dict.get? draft field = some (.lines lines) := by
      cases hd : Dict.get? draft field with
      | none =>
        rw [hd] at hlines
        cases hlines
        cases hlt
      | some v =>
        rw [hd] at hlines
        exact congrArg some hlines
    have hpresent := (foldlM_set_present (lines[i] ++ text) h.parts
      (hsome ▸ (hparts i).symm) h.built).1
    rw [hsome, Option.getD_some, hpresent]
    simp only [setAt, hget, addLine, if_neg hlast, hsome, Option.getD_some]

/-- One more text adds its size to the lines. -/
lemma sum_addLine {f : List Char → Nat} (hf : ∀ s t, f (s ++ t) = f s + f t)
    {lines : List (List Char)} {i : Nat} {text : List Char} (hi : i ≤ lines.length) :
    ((addLine lines i text).map f).sum = (lines.map f).sum + f text := by
  unfold addLine
  by_cases hlast : i = lines.length
  · rw [if_pos hlast]
    simp
  rw [if_neg hlast]
  induction lines generalizing i with
  | nil => exact absurd (Nat.le_zero.mp hi) hlast
  | cons t lines ih =>
    cases i with
    | zero =>
      simp only [List.getElem?_cons_zero, Option.getD_some, List.set_cons_zero, List.map_cons,
        List.sum_cons, hf]
      omega
    | succ i =>
      have hrest := ih (i := i) (by simpa using hi) (by simpa using hlast)
      simp only [List.getElem?_cons_succ, List.set_cons_succ, List.map_cons, List.sum_cons, hrest]
      omega

lemma getElem?_addLine {lines : List (List Char)} {i j : Nat} {text : List Char}
    (hi : i ≤ lines.length) :
    (addLine lines i text)[j]? =
      if j = i then some ((lines[i]?).getD [] ++ text) else lines[j]? := by
  unfold addLine
  by_cases hlast : i = lines.length
  · subst hlast
    rw [if_pos rfl]
    by_cases hj : j = lines.length
    · subst hj
      simp
    · rw [if_neg hj]
      by_cases hlt : j < lines.length
      · rw [List.getElem?_append_left hlt]
      · rw [List.getElem?_eq_none (by simp; omega), List.getElem?_eq_none (by omega)]
  · rw [if_neg hlast]
    by_cases hj : j = i
    · subst hj
      rw [if_pos rfl, List.getElem?_set_self (by omega)]
    · rw [if_neg hj, List.getElem?_set_ne (Ne.symm hj)]

lemma length_addLine {lines : List (List Char)} {i : Nat} {text : List Char} :
    (addLine lines i text).length = if i = lines.length then lines.length + 1 else lines.length := by
  unfold addLine
  split <;> simp

/-- The parts of a draft that was written are those of before with one text added. -/
lemma get?_writePart {parts : Dict DraftKey (List Char)} {key key' : DraftKey} {text : List Char} :
    Dict.get? (Draft.writePart parts key text) key' =
      if key = key' then some ((Dict.get? parts key).getD [] ++ text) else Dict.get? parts key' := by
  unfold Draft.writePart
  by_cases h : key = key'
  · subst h
    rw [if_pos rfl, Dict.get?_set_self]
  · rw [if_neg h, Dict.get?_set_of_ne h]

lemma write_lengths (h : d.Ok draft) (hδ : Continues d δ) (key : DraftKey) :
    (Dict.get? (d.write δ).lengths key).getD 0 =
      ((Dict.get? (d.write δ).parts key).getD []).length := by
  simp only [Draft.write, get?_writePart]
  by_cases hk : δ.key = key
  · rw [← hk, Dict.get?_set_self, if_pos rfl, Option.getD_some, Option.getD_some,
      List.length_append, hδ.offset]
  · rw [Dict.get?_set_of_ne hk, if_neg hk, h.lengths key]

lemma listLength_write (field : String) :
    (d.write δ).listLength field =
      if δ.key = (field, some (d.listLength field)) then d.listLength field + 1
      else d.listLength field := by
  have hlists : (d.write δ).listLengths = if δ.key.2 = some (d.listLength δ.key.1) then
      Dict.set d.listLengths δ.key.1 (d.listLength δ.key.1 + 1) else d.listLengths := rfl
  rw [Draft.listLength, hlists]
  by_cases hlast : δ.key.2 = some (d.listLength δ.key.1)
  · rw [if_pos hlast]
    by_cases hf : δ.key.1 = field
    · subst hf
      have hkey : δ.key = (δ.key.1, some (d.listLength δ.key.1)) := Prod.ext rfl hlast
      rw [Dict.get?_set_self, if_pos hkey]
      rfl
    · rw [Dict.get?_set_of_ne hf, if_neg (fun he => hf (congrArg Prod.fst he))]
      rfl
  · rw [if_neg hlast, if_neg]
    · rfl
    · intro he
      rw [he] at hlast
      exact hlast rfl

/-- A text written to the parts is the same text added to the draft. -/
theorem Draft.Ok.write (h : d.Ok draft) (hδ : Continues d δ) :
    ∃ draft', applyDelta draft δ.key.1 δ.key.2 δ.offset δ.text = some draft' ∧
      (d.write δ).Ok draft' := by
  obtain ⟨⟨field, index⟩, offset, text⟩ := δ
  rcases hδ.key with ⟨hfield, hindex⟩ | ⟨hfield, hindex⟩
  · simp only at hfield hindex
    subst hindex
    obtain ⟨hbuilt, hprevious⟩ := write_text h text hfield
    have hoffset : (previousText draft field).length = offset := by
      rw [← hprevious]
      exact hδ.offset
    refine ⟨Dict.set draft field (.text (previousText draft field ++ text)), ?_, ?_⟩
    · simp only [applyDelta, if_pos hfield, if_pos hoffset]
    have hvalue : ((Dict.get? draft field).map valueBytes).getD 0 =
        Utf8.size (previousText draft field) := by
      have htext := h.texts field hfield
      rw [← hprevious, htext]
      cases Dict.get? d.parts (field, none) <;> rfl
    refine ⟨h.parts.set (.inl ⟨hfield, rfl⟩), hbuilt, write_lengths h hδ, ?_, ?_, ?_, ?_⟩
    · intro f hf
      simp only [Draft.write, get?_writePart]
      by_cases hne : field = f
      · subst hne
        rw [Dict.get?_set_self, if_pos rfl, hprevious]
        rfl
      · rw [Dict.get?_set_of_ne hne, if_neg (fun he => hne (congrArg Prod.fst he)), h.texts f hf]
    · intro f hf
      have hne : field ≠ f := fun he => textField_not_list hfield (he ▸ hf)
      obtain ⟨lines, hlines, hlength, hget⟩ := h.lists f hf
      refine ⟨lines, by rw [Dict.get?_set_of_ne hne, hlines], ?_, fun i => ?_⟩
      · rw [listLength_write, if_neg (by simp), hlength]
      · simp only [Draft.write, get?_writePart]
        rw [if_neg (by simp), hget i]
    · intro e he
      rcases Dict.mem_set he with he | rfl
      · exact h.kinds e he
      · simpa [validDraftField] using hfield
    · have hsum := Dict.sum_set (d := draft) (k := field)
        (v := .text (previousText draft field ++ text)) valueBytes
      have hnew : valueBytes (.text (previousText draft field ++ text)) =
          Utf8.size (previousText draft field) + Utf8.size text := Utf8.size_append
      rw [hvalue, h.bytes, hnew] at hsum
      have hbytes : (d.write ⟨(field, none), offset, text⟩).bytes = d.bytes + Utf8.size text := rfl
      rw [hbytes]
      omega
  · simp only at hfield hindex
    obtain ⟨i, rfl⟩ := Option.ne_none_iff_exists'.mp hindex
    obtain ⟨lines, hlines, hlength, hget⟩ := h.lists field hfield
    have hi : i ≤ lines.length := by
      rw [hlength]
      exact hδ.index i rfl
    have hoffset : ((lines[i]?).getD []).length = offset := by
      rw [hget i]
      exact hδ.offset
    have hnot : field ∉ textDraftFields := fun hf => textField_not_list hf hfield
    refine ⟨Dict.set draft field (.lines (addLine lines i text)), ?_, ?_⟩
    · have hcontinues : ¬(lines.length < i ∨ ((lines[i]?).getD []).length ≠ offset) := by omega
      simp only [applyDelta, if_neg hnot, hlines, if_neg hcontinues]
    have hvalue : ((Dict.get? draft field).map valueBytes).getD 0 = (lines.map Utf8.size).sum := by
      cases hd : Dict.get? draft field with
      | none =>
        rw [hd] at hlines
        cases hlines
        rfl
      | some v =>
        rw [hd] at hlines
        cases hlines
        rfl
    refine ⟨h.parts.set (.inr ⟨hfield, hindex⟩), write_line h hlines hget hi, write_lengths h hδ,
      ?_, ?_, ?_, ?_⟩
    · intro f hf
      have hne : field ≠ f := fun he => hnot (he ▸ hf)
      simp only [Draft.write, get?_writePart]
      rw [Dict.get?_set_of_ne hne, if_neg (by simp), h.texts f hf]
    · intro f hf
      by_cases hne : field = f
      · subst hne
        refine ⟨addLine lines i text, by rw [Dict.get?_set_self]; rfl, ?_, fun j => ?_⟩
        · rw [listLength_write, length_addLine, ← hlength]
          simp only [Prod.mk.injEq, Option.some.injEq, true_and]
        · simp only [Draft.write, get?_writePart, getElem?_addLine hi, Prod.mk.injEq,
            Option.some.injEq, true_and, hget, eq_comm (a := i)]
      · obtain ⟨lines', hlines', hlength', hget'⟩ := h.lists f hf
        refine ⟨lines', by rw [Dict.get?_set_of_ne hne, hlines'], ?_, fun j => ?_⟩
        · rw [listLength_write, if_neg (fun he => hne (congrArg Prod.fst he)), hlength']
        · simp only [Draft.write, get?_writePart]
          rw [if_neg (fun he => hne (congrArg Prod.fst he)), hget' j]
    · intro e he
      rcases Dict.mem_set he with he | rfl
      · exact h.kinds e he
      · simpa [validDraftField] using hfield
    · have hsum := Dict.sum_set (d := draft) (k := field)
        (v := .lines (addLine lines i text)) valueBytes
      have hnew : valueBytes (.lines (addLine lines i text)) =
          (lines.map Utf8.size).sum + Utf8.size text :=
        sum_addLine (fun _ _ => Utf8.size_append) hi
      rw [hvalue, h.bytes, hnew] at hsum
      have hbytes : (d.write ⟨(field, some i), offset, text⟩).bytes = d.bytes + Utf8.size text := rfl
      rw [hbytes]
      omega

end Write

end ChatBI.Events
