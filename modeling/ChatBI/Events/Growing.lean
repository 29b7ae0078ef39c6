import ChatBI.Events.Representation
import Mathlib.Algebra.Order.BigOperators.Group.List
import Mathlib.Algebra.Order.Ring.Nat

/-!
# Growing drafts

A draft is written one text after another. The texts may be cut into characters, and their order
tells whether the channel takes them.
-/

namespace ChatBI.Events

open ChatBI.Lib ChatBI.Store

/-- The lines of a list field. -/
def linesOf (draft : ReportDraft) (field : String) : List (List Char) :=
  match Dict.get? draft field with
  | some (.lines ts) => ts
  | _ => []

/-- The text at a position. -/
def textAt (draft : ReportDraft) (key : DraftKey) : List Char :=
  match key.2 with
  | none => previousText draft key.1
  | some i => ((linesOf draft key.1)[i]?).getD []

/-- The draft with a text behind the one at a position. -/
def addText (draft : ReportDraft) (key : DraftKey) (text : List Char) : ReportDraft :=
  match key.2 with
  | none => Dict.set draft key.1 (.text (previousText draft key.1 ++ text))
  | some i => Dict.set draft key.1 (.lines (addLine (linesOf draft key.1) i text))

def addChar (draft : ReportDraft) (e : DraftKey × Char) : ReportDraft := addText draft e.1 [e.2]

/-- A position that the channel has, with the lines before it already there. -/
def Reaches (draft : ReportDraft) (key : DraftKey) : Prop :=
  ValidKey key ∧ ∀ i ∈ key.2, i ≤ (linesOf draft key.1).length

/-- Characters that come in an order in which the channel takes them. -/
def InDraftOrder : ReportDraft → List (DraftKey × Char) → Prop
  | _, [] => True
  | draft, e :: es => Reaches draft e.1 ∧ InDraftOrder (addChar draft e) es

/-- Every field has a value of its kind. -/
def Kinds (draft : ReportDraft) : Prop := ∀ e ∈ draft, validDraftField e.1 e.2 = true

/-- The bytes of the draft's JSON. -/
def draftSize (draft : ReportDraft) : Nat := Utf8.size (JsonDoc.dumps (draftJson draft))

section Texts

variable {draft : ReportDraft} {key key' : DraftKey} {text more : List Char}
  {es fs : List (DraftKey × Char)} {field : String}

lemma previousText_set {t : List Char} : previousText (Dict.set draft field (.text t)) field = t := by
  rw [previousText, Dict.get?_set_self]

lemma linesOf_set {ts : List (List Char)} : linesOf (Dict.set draft field (.lines ts)) field = ts := by
  rw [linesOf, Dict.get?_set_self]

lemma addLine_addLine {lines : List (List Char)} {i : Nat} :
    addLine (addLine lines i text) i more = addLine lines i (text ++ more) := by
  rcases Nat.lt_trichotomy i lines.length with hlt | rfl | hgt
  · unfold addLine
    rw [if_neg hlt.ne, if_neg (by rw [List.length_set]; exact hlt.ne), if_neg hlt.ne,
      List.getElem?_set_self hlt, List.set_set, Option.getD_some, List.append_assoc]
  · unfold addLine
    rw [if_pos rfl, if_pos rfl, if_neg (by simp), List.getElem?_concat_length, Option.getD_some,
      List.set_append_right _ _ (Nat.le_refl _), Nat.sub_self, List.set_cons_zero]
  · unfold addLine
    have hset : ∀ t : List Char, lines.set i t = lines := fun t => List.set_eq_of_length_le hgt.le
    rw [if_neg hgt.ne', hset, if_neg hgt.ne', hset, if_neg hgt.ne', hset]

/-- Two texts at one position are one text there. -/
lemma addText_addText : addText (addText draft key text) key more = addText draft key (text ++ more) := by
  obtain ⟨field, index⟩ := key
  unfold addText
  cases index with
  | none =>
    dsimp only
    rw [previousText_set, Dict.set_set, List.append_assoc]
  | some i =>
    dsimp only
    rw [linesOf_set, Dict.set_set, addLine_addLine]

/-- A text is its characters one after another. -/
lemma foldl_addChar (h : text ≠ []) :
    (text.map (key, ·)).foldl addChar draft = addText draft key text := by
  induction text generalizing draft with
  | nil => exact absurd rfl h
  | cons c text ih =>
    rw [List.map_cons, List.foldl_cons]
    by_cases htext : text = []
    · rw [htext]
      rfl
    · rw [ih htext]
      exact addText_addText

lemma inDraftOrder_append : InDraftOrder draft (es ++ fs) ↔
    InDraftOrder draft es ∧ InDraftOrder (es.foldl addChar draft) fs := by
  induction es generalizing draft with
  | nil => simp [InDraftOrder]
  | cons e es ih => rw [List.cons_append, InDraftOrder, InDraftOrder, ih, List.foldl_cons, and_assoc]

/-- A position that is reached stays reached by its own texts. -/
lemma Reaches.addText (h : Reaches draft key) :
    Reaches (ChatBI.Events.addText draft key text) key := by
  refine ⟨h.1, ?_⟩
  obtain ⟨field, index⟩ := key
  rintro i rfl
  have hle : i ≤ (linesOf draft field).length := h.2 i rfl
  change i ≤ (linesOf (Dict.set draft field _) field).length
  rw [linesOf_set, length_addLine]
  split <;> omega

lemma inDraftOrder_text (h : Reaches draft key) : InDraftOrder draft (text.map (key, ·)) := by
  induction text generalizing draft with
  | nil => trivial
  | cons c text ih => exact ⟨h, ih h.addText⟩

/-- The text at a position behind a text that was added there. -/
lemma textAt_addText (h : Reaches draft key) :
    textAt (addText draft key text) key = textAt draft key ++ text := by
  obtain ⟨field, index⟩ := key
  cases index with
  | none => exact previousText_set
  | some i =>
    have hi : i ≤ (linesOf draft field).length := h.2 i rfl
    change ((linesOf (Dict.set draft field _) field)[i]?).getD [] = _
    rw [linesOf_set, getElem?_addLine hi, if_pos rfl]
    rfl

/-- The texts at the other positions stay. -/
lemma textAt_addText_of_ne (h : Reaches draft key) (hkey' : ValidKey key') (hne : key ≠ key') :
    textAt (addText draft key text) key' = textAt draft key' := by
  obtain ⟨field, index⟩ := key
  obtain ⟨field', index'⟩ := key'
  by_cases hfield : field = field'
  swap
  · have hget : ∀ v, Dict.get? (Dict.set draft field v) field' = Dict.get? draft field' := fun v =>
      Dict.get?_set_of_ne hfield
    cases index <;> cases index' <;>
      simp only [textAt, addText, previousText, linesOf, hget]
  subst hfield
  rcases h.1 with ⟨htext, rfl⟩ | ⟨hlist, hindex⟩
  · rcases hkey' with ⟨-, rfl⟩ | ⟨hlist', -⟩
    · exact absurd rfl hne
    · exact absurd hlist' (textField_not_list htext)
  · obtain ⟨i, rfl⟩ := Option.ne_none_iff_exists'.mp hindex
    rcases hkey' with ⟨htext', -⟩ | ⟨-, hindex'⟩
    · exact absurd hlist (textField_not_list htext')
    · obtain ⟨j, rfl⟩ := Option.ne_none_iff_exists'.mp hindex'
      have hi : i ≤ (linesOf draft field).length := h.2 i rfl
      have hj : j ≠ i := by
        rintro rfl
        exact hne rfl
      change ((linesOf (Dict.set draft field _) field)[j]?).getD [] = _
      rw [linesOf_set, getElem?_addLine hi, if_neg hj]
      rfl

lemma Kinds.addText (h : Kinds draft) (hkey : ValidKey key) : Kinds (addText draft key text) := by
  obtain ⟨field, index⟩ := key
  intro e he
  rcases hkey with ⟨hfield, rfl⟩ | ⟨hfield, hindex⟩
  · rcases Dict.mem_set he with he | rfl
    · exact h e he
    · exact decide_eq_true hfield
  · obtain ⟨i, rfl⟩ := Option.ne_none_iff_exists'.mp hindex
    rcases Dict.mem_set he with he | rfl
    · exact h e he
    · exact decide_eq_true hfield

end Texts

section Sizes

variable {draft : ReportDraft} {key : DraftKey} {text : List Char} {es : List (DraftKey × Char)}
  {field : String}

lemma size_le_set {w : DraftValue} (h : ∀ v, Dict.get? draft field = some v → v.size ≤ w.size) :
    draftSize draft ≤ draftSize (Dict.set draft field w) := by
  unfold draftSize
  cases hget : Dict.get? draft field with
  | none =>
    have hset := size_set_new (w := w) hget
    omega
  | some v =>
    have hset := size_set_present (w := w) hget
    have hle := h v hget
    omega

/-- A text makes the draft no smaller. -/
lemma size_le_addText (hkinds : Kinds draft) (h : Reaches draft key) :
    draftSize draft ≤ draftSize (addText draft key text) := by
  obtain ⟨field, index⟩ := key
  rcases h.1 with ⟨hfield, rfl⟩ | ⟨hfield, hindex⟩
  · apply size_le_set
    intro v hv
    have hkind := hkinds _ (Dict.mem_of_get? hv)
    cases v with
    | text t =>
      have hprevious : previousText draft field = t := by rw [previousText, hv]
      rw [hprevious, size_text, size_text, JsonDoc.textBytes_append]
      omega
    | lines ts => exact absurd (of_decide_eq_true hkind) (textField_not_list hfield)
  · obtain ⟨i, rfl⟩ := Option.ne_none_iff_exists'.mp hindex
    apply size_le_set
    intro v hv
    have hkind := hkinds _ (Dict.mem_of_get? hv)
    cases v with
    | text t => exact absurd hfield (textField_not_list (of_decide_eq_true hkind))
    | lines ts =>
      have hlines : linesOf draft field = ts := by rw [linesOf, hv]
      have hi : i ≤ ts.length := hlines ▸ h.2 i rfl
      have hsum : ((addLine ts i text).map JsonDoc.textBytes).sum =
          (ts.map JsonDoc.textBytes).sum + JsonDoc.textBytes text :=
        sum_addLine JsonDoc.textBytes_append hi
      have hlength : ts.length ≤ (addLine ts i text).length := by
        rw [length_addLine]
        split <;> omega
      rw [hlines, size_lines, size_lines, hsum]
      omega

lemma size_le_foldl (hkinds : Kinds draft) (h : InDraftOrder draft es) :
    draftSize draft ≤ draftSize (es.foldl addChar draft) := by
  induction es generalizing draft with
  | nil => exact Nat.le_refl _
  | cons e es ih =>
    obtain ⟨hreaches, hrest⟩ := h
    have hadded := ih (hkinds.addText hreaches.1) hrest
    exact (size_le_addText hkinds hreaches).trans hadded

lemma utf8_le_textBytes (text : List Char) : Utf8.size text ≤ JsonDoc.textBytes text := by
  induction text with
  | nil => exact Nat.le_refl _
  | cons c text ih =>
    have hchar : c.utf8Size ≤ JsonDoc.charBytes c := by
      rw [← contentBytes_eq, contentBytes]
      have hpos := c.utf8Size_pos
      split
      · next hshort =>
        have hall : ['"', '\\', '\x08', '\t', '\n', '\x0c', '\r'].all
            (fun c => c.utf8Size ≤ 2) = true := by decide
        exact of_decide_eq_true (List.all_eq_true.mp hall c hshort)
      · split
        · exact (Char.utf8Size_le_four c).trans (by decide)
        · exact Nat.le_refl _
    have hcons : JsonDoc.textBytes (c :: text) = JsonDoc.charBytes c + JsonDoc.textBytes text := rfl
    rw [hcons, Utf8.size_cons]
    exact Nat.add_le_add hchar ih

lemma length_le_textBytes (text : List Char) : text.length ≤ JsonDoc.textBytes text := by
  have hsize : text.length ≤ Utf8.size text := by
    induction text with
    | nil => exact Nat.le_refl _
    | cons c text ih =>
      have hpos := c.utf8Size_pos
      rw [List.length_cons, Utf8.size_cons]
      omega
  exact hsize.trans (utf8_le_textBytes text)

/-- The texts of a value are a part of its JSON. -/
lemma valueBytes_le (v : DraftValue) : valueBytes v + 2 ≤ v.size := by
  cases v with
  | text t =>
    rw [size_text]
    exact Nat.add_le_add_right (utf8_le_textBytes t) 2
  | lines ts =>
    have hsum : (ts.map Utf8.size).sum ≤ (ts.map JsonDoc.textBytes).sum :=
      List.sum_le_sum fun t _ => utf8_le_textBytes t
    rw [size_lines]
    change (ts.map Utf8.size).sum + 2 ≤ _
    omega

lemma sum_valueBytes_le (draft : ReportDraft) :
    (draft.map fun e => valueBytes e.2).sum ≤ draftSize draft := by
  have hsum : (draft.map fun e => valueBytes e.2).sum ≤ (draft.map fun e => e.2.size).sum :=
    List.sum_le_sum fun e _ => (Nat.le_add_right _ 2).trans (valueBytes_le e.2)
  have hsize := size_draftJson draft
  unfold draftSize
  omega

/-- The JSON of a draft has the bytes of every one of its values. -/
lemma size_le_draftSize {v : DraftValue} (h : Dict.get? draft field = some v) :
    v.size ≤ draftSize draft := by
  have hmem : v.size ∈ draft.map fun e => e.2.size :=
    List.mem_map.mpr ⟨(field, v), Dict.mem_of_get? h, rfl⟩
  have hle := List.le_sum_of_mem hmem
  have hsize := size_draftJson draft
  unfold draftSize
  omega

lemma length_linesOf_le (draft : ReportDraft) (field : String) :
    (linesOf draft field).length ≤ draftSize draft := by
  unfold linesOf
  split
  · next ts hget =>
    have hle := size_le_draftSize hget
    rw [size_lines] at hle
    omega
  · exact Nat.zero_le _

/-- The text at a position is a part of the JSON of the draft. -/
lemma length_textAt_le (hkinds : Kinds draft) (hkey : ValidKey key) :
    (textAt draft key).length ≤ draftSize draft := by
  obtain ⟨field, index⟩ := key
  rcases hkey with ⟨hfield, rfl⟩ | ⟨-, hindex⟩
  · change (previousText draft field).length ≤ _
    unfold previousText
    split
    · exact Nat.zero_le _
    · next t hget =>
      have hle := size_le_draftSize hget
      have ht := length_le_textBytes t
      rw [size_text] at hle
      omega
    · next ts hget =>
      exact absurd (of_decide_eq_true (hkinds _ (Dict.mem_of_get? hget))) (textField_not_list hfield)
  · obtain ⟨i, rfl⟩ := Option.ne_none_iff_exists'.mp hindex
    change ((linesOf draft field)[i]?.getD []).length ≤ _
    unfold linesOf
    split
    · next ts hget =>
      have hle := size_le_draftSize hget
      rw [size_lines] at hle
      cases hline : ts[i]? with
      | none => exact Nat.zero_le _
      | some t =>
        have ht := length_le_textBytes t
        have hmem : JsonDoc.textBytes t ∈ ts.map JsonDoc.textBytes :=
          List.mem_map_of_mem (List.mem_of_getElem? hline)
        have hsum := List.le_sum_of_mem hmem
        rw [Option.getD_some]
        omega
    · exact Nat.zero_le _

end Sizes

section Writing

variable {d : Draft} {draft draft' : ReportDraft} {δ : Delta} {key : DraftKey}

/-- A delta that continues a draft adds its text. -/
lemma applyDelta_eq (hkey : ValidKey δ.key)
    (h : applyDelta draft δ.key.1 δ.key.2 δ.offset δ.text = some draft') :
    draft' = addText draft δ.key δ.text := by
  obtain ⟨⟨field, index⟩, offset, text⟩ := δ
  unfold applyDelta at h
  rcases hkey with ⟨hfield, hindex⟩ | ⟨hfield, hindex⟩
  · simp only at hfield hindex h
    subst hindex
    rw [if_pos hfield] at h
    split at h
    · cases h
      rfl
    · cases h
  · simp only at hfield hindex h
    obtain ⟨i, rfl⟩ := Option.ne_none_iff_exists'.mp hindex
    rw [if_neg fun hin => textField_not_list hin hfield] at h
    cases hget : (Dict.get? draft field).getD (.lines []) with
    | text t =>
      rw [hget] at h
      cases h
    | lines lines =>
      have hlines : linesOf draft field = lines := by
        unfold linesOf
        cases hd : Dict.get? draft field with
        | none =>
          rw [hd] at hget
          cases hget
          rfl
        | some v =>
          rw [hd] at hget
          rw [Option.getD_some] at hget
          rw [hget]
      rw [hget] at h
      dsimp only at h
      split at h
      · cases h
      · cases h
        unfold addText
        dsimp only
        rw [hlines]

/-- The part of a position is its text in the draft. -/
lemma Draft.Ok.part (h : d.Ok draft) (hkey : ValidKey key) :
    (Dict.get? d.parts key).getD [] = textAt draft key := by
  obtain ⟨field, index⟩ := key
  rcases hkey with ⟨hfield, hindex⟩ | ⟨hfield, hindex⟩
  · simp only at hfield hindex
    subst hindex
    exact (write_text h [] hfield).2
  · simp only at hfield hindex
    obtain ⟨i, rfl⟩ := Option.ne_none_iff_exists'.mp hindex
    obtain ⟨lines, hlines, -, hget⟩ := h.lists field hfield
    change (Dict.get? d.parts (field, some i)).getD [] = ((linesOf draft field)[i]?).getD []
    have hsame : linesOf draft field = lines := by
      unfold linesOf
      cases hd : Dict.get? draft field with
      | none =>
        rw [hd] at hlines
        cases hlines
        rfl
      | some v =>
        rw [hd] at hlines
        rw [Option.getD_some] at hlines
        rw [hlines]
    rw [hsame, hget i]

lemma Draft.Ok.listLength_eq (h : d.Ok draft) {field : String} (hfield : field ∈ listDraftFields) :
    d.listLength field = (linesOf draft field).length := by
  obtain ⟨lines, hlines, hlength, -⟩ := h.lists field hfield
  unfold linesOf
  cases hd : Dict.get? draft field with
  | none =>
    rw [hd] at hlines
    cases hlines
    exact hlength.symm
  | some v =>
    rw [hd, Option.getD_some] at hlines
    rw [hlines, hlength]

/-- A text that continues its position and keeps the draft within its size passes the checks of
the channel and is added. -/
lemma Draft.Tracked.addText (h : d.Tracked draft) (hreaches : Reaches draft δ.key)
    (hoffset : δ.offset = (textAt draft δ.key).length)
    (hsize : draftSize (addText draft δ.key δ.text) ≤ maxDraftBytes) :
    d.check δ = .ok () ∧ (d.write δ).Tracked (ChatBI.Events.addText draft δ.key δ.text) := by
  have hkey := hreaches.1
  have hindex : ∀ i ∈ δ.key.2, i ≤ d.listLength δ.key.1 := by
    intro i hi
    rcases hkey with ⟨-, hnone⟩ | ⟨hfield, -⟩
    · rw [hnone] at hi
      cases hi
    · rw [h.toOk.listLength_eq hfield]
      exact hreaches.2 i hi
  have hcontinues : Continues d δ := ⟨hkey, hindex, by rw [h.toOk.part hkey, hoffset]⟩
  obtain ⟨draft', happly, hok⟩ := h.toOk.write hcontinues
  obtain ⟨hgrown, hfields⟩ := size_write h.toOk h.fields hcontinues happly
  have hdraft := applyDelta_eq hkey happly
  subst hdraft
  have hsnapshot : d.snapshotBytes + d.increment δ =
      draftSize (ChatBI.Events.addText draft δ.key δ.text) := by
    rw [h.snapshotBytes]
    exact hgrown.symm
  have hbytes : d.bytes + Utf8.size δ.text ≤ maxDraftBytes := by
    have hsum := sum_valueBytes_le (ChatBI.Events.addText draft δ.key δ.text)
    rw [hok.bytes] at hsum
    exact hsum.trans hsize
  constructor
  · unfold Draft.check
    rw [require_ok.mpr hindex, require_ok.mpr (by rw [h.lengths, hcontinues.offset]),
      require_ok.mpr hbytes, require_ok.mpr (hsnapshot.trans_le hsize)]
    rfl
  · exact ⟨hok, hfields, hsnapshot, hsnapshot.trans_le hsize, hbytes⟩

end Writing

end ChatBI.Events
