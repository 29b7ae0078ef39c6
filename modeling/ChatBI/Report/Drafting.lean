import ChatBI.Events.Growing
import ChatBI.Report.Language

/-!
# The draft of a report

The texts that a report puts at the draft positions, one character after another, build a draft
with the fields of the report, as long as no list has a gap. Its JSON is no larger than the one of
the report.
-/

namespace ChatBI.Report

open ChatBI.Lib
open ChatBI.Events (ReportDraft DraftValue addChar addText addLine linesOf draftSize InDraftOrder
  Reaches ValidKey)

/-- An item with some text. -/
def IsText (v : JsonDoc) : Prop := itemText (some v) ≠ []

instance (v : JsonDoc) : Decidable (IsText v) := inferInstanceAs (Decidable (_ ≠ []))

/-- The texts of a list. -/
def textsOf (items : List JsonDoc) : List (List Char) :=
  (items.map fun v => itemText (some v)).filter (· ≠ [])

/-- What a member shows in the draft: a text, or the texts of a list, when there are any. -/
def draftMember : String × JsonDoc → Option (String × DraftValue)
  | (field, .str s) =>
    if field ∈ textFields ∧ s.toList ≠ [] then some (field, .text s.toList) else none
  | (field, .arr items) =>
    if field ∈ listFields ∧ textsOf items ≠ [] then some (field, .lines (textsOf items)) else none
  | _ => none

/-- The draft of a report. -/
def reportDraft (members : List (String × JsonDoc)) : ReportDraft := members.filterMap draftMember

/-- No item without a text stands before a text. -/
def Gapless (items : List JsonDoc) : Prop := items.Pairwise fun v w => IsText w → IsText v

/-- The lists that the draft shows have no gap. -/
def MemberGapless : String × JsonDoc → Prop
  | (field, .arr items) => field ∈ listFields → Gapless items
  | _ => True

/-- The draft with a list field behind the others, as far as it has lines. -/
def withLines (draft : ReportDraft) (field : String) (ts : List (List Char)) : ReportDraft :=
  if ts = [] then draft else draft ++ [(field, .lines ts)]

section Lists

variable {draft : ReportDraft} {field : String} {ts : List (List Char)} {t : List Char}
  {v : JsonDoc} {items : List JsonDoc}

lemma textsOf_cons_text (h : IsText v) : textsOf (v :: items) = itemText (some v) :: textsOf items := by
  have hkept : decide (itemText (some v) ≠ []) = true := decide_eq_true h
  unfold textsOf
  rw [List.map_cons, List.filter_cons, if_pos hkept]

lemma textsOf_cons_of_not (h : ¬IsText v) : textsOf (v :: items) = textsOf items := by
  have hdropped : ¬decide (itemText (some v) ≠ []) = true := mt of_decide_eq_true h
  unfold textsOf
  rw [List.map_cons, List.filter_cons, if_neg hdropped]

/-- An item puts its text at its index. -/
lemma listEmission_cons (k : Nat) : listEmission field k (v :: items) =
    (itemText (some v)).map ((field, some k), ·) ++ listEmission field (k + 1) items := by
  cases v <;> rfl

lemma linesOf_withLines (h : Dict.get? draft field = none) :
    linesOf (withLines draft field ts) field = ts := by
  unfold withLines linesOf
  by_cases hts : ts = []
  · rw [if_pos hts, h, hts]
  · rw [if_neg hts, ← Dict.set_of_get?_none h, Dict.get?_set_self]

/-- A text behind the last line is one more line. -/
lemma addText_withLines (h : Dict.get? draft field = none) :
    addText (withLines draft field ts) (field, some ts.length) t =
      withLines draft field (ts ++ [t]) := by
  have hlast : addLine ts ts.length t = ts ++ [t] := if_pos rfl
  have hmore : ts ++ [t] ≠ [] := List.append_ne_nil_of_right_ne_nil ts (List.cons_ne_nil t [])
  change Dict.set (withLines draft field ts) field
    (.lines (addLine (linesOf (withLines draft field ts) field) ts.length t)) = _
  rw [linesOf_withLines h, hlast]
  unfold withLines
  rw [if_neg hmore]
  by_cases hts : ts = []
  · rw [if_pos hts, Dict.set_of_get?_none h]
  · rw [if_neg hts, ← Dict.set_of_get?_none h, Dict.set_set, Dict.set_of_get?_none h]

lemma reaches_withLines (hfield : field ∈ listFields) (h : Dict.get? draft field = none) {k : Nat} :
    Reaches (withLines draft field ts) (field, some k) ↔ k ≤ ts.length := by
  have hlines := congrArg List.length (@linesOf_withLines draft field ts h)
  constructor
  · intro hreaches
    exact (hreaches.2 k rfl).trans_eq hlines
  · intro hk
    refine ⟨.inr ⟨hfield, Option.some_ne_none _⟩, ?_⟩
    rintro i ⟨⟩
    exact hk.trans_eq hlines.symm

/-- The texts of items from an index on come in the order of the draft when the index is the next
one and they have no gap, or when there are none. -/
lemma list_order (hfield : field ∈ listFields) (h : Dict.get? draft field = none)
    (ts : List (List Char)) (k : Nat) (hk : ts.length ≤ k) (items : List JsonDoc) :
    InDraftOrder (withLines draft field ts) (listEmission field k items) ↔
      if ts.length = k then Gapless items else ∀ v ∈ items, ¬IsText v := by
  induction items generalizing ts k with
  | nil =>
    refine iff_of_true trivial ?_
    split
    · exact List.Pairwise.nil
    · exact fun v hv => absurd hv List.not_mem_nil
  | cons v items ih =>
    rw [listEmission_cons]
    by_cases htext : IsText v
    · by_cases hnext : ts.length = k
      · subst hnext
        have hreaches : Reaches (withLines draft field ts) (field, some ts.length) :=
          (reaches_withLines hfield h).mpr (Nat.le_refl _)
        have hlength : (ts ++ [itemText (some v)]).length = ts.length + 1 := by simp
        rw [Events.inDraftOrder_append, Events.foldl_addChar htext, addText_withLines h,
          ih _ _ hlength.le, if_pos hlength, if_pos rfl]
        unfold Gapless
        rw [List.pairwise_cons]
        constructor
        · rintro ⟨-, hrest⟩
          exact ⟨fun w _ _ => htext, hrest⟩
        · rintro ⟨-, hrest⟩
          exact ⟨Events.inDraftOrder_text hreaches, hrest⟩
      · rw [if_neg hnext]
        refine iff_of_false ?_ fun hnone => hnone v List.mem_cons_self htext
        intro horder
        obtain ⟨c, text, hcons⟩ := List.exists_cons_of_ne_nil htext
        rw [hcons] at horder
        have hle := (reaches_withLines hfield h).mp horder.1
        omega
    · have hempty : itemText (some v) = [] := not_not.mp htext
      have hlater : ts.length ≠ k + 1 := by omega
      rw [hempty, List.map_nil, List.nil_append, ih ts (k + 1) (by omega), if_neg hlater]
      have hnone : (∀ w ∈ v :: items, ¬IsText w) ↔ ∀ w ∈ items, ¬IsText w := by
        rw [List.forall_mem_cons]
        exact and_iff_right htext
      split
      · unfold Gapless
        rw [List.pairwise_cons]
        constructor
        · intro hnot
          refine ⟨fun w hw hwtext => absurd hwtext (hnot w hw), ?_⟩
          exact List.pairwise_of_forall_mem_list fun w _ w' hw' hwtext => absurd hwtext (hnot w' hw')
        · rintro ⟨hbefore, -⟩ w hw hwtext
          exact htext (hbefore w hw hwtext)
      · exact hnone.symm

/-- The texts of items that come in order are lines behind the others. -/
lemma list_drafted (hfield : field ∈ listFields) (h : Dict.get? draft field = none)
    (ts : List (List Char)) (k : Nat) (hk : ts.length ≤ k) (items : List JsonDoc)
    (horder : InDraftOrder (withLines draft field ts) (listEmission field k items)) :
    (listEmission field k items).foldl addChar (withLines draft field ts) =
      withLines draft field (ts ++ textsOf items) := by
  induction items generalizing ts k with
  | nil =>
    have hnone : textsOf [] = [] := rfl
    rw [hnone, List.append_nil]
    rfl
  | cons v items ih =>
    rw [listEmission_cons] at horder ⊢
    by_cases htext : IsText v
    · obtain ⟨hfirst, hrest⟩ := Events.inDraftOrder_append.mp horder
      rw [Events.foldl_addChar htext] at hrest
      obtain ⟨c, text, hcons⟩ := List.exists_cons_of_ne_nil htext
      rw [hcons] at hfirst
      have hle := (reaches_withLines hfield h).mp hfirst.1
      obtain rfl : k = ts.length := by omega
      have hlength : (ts ++ [itemText (some v)]).length = ts.length + 1 := by simp
      rw [addText_withLines h] at hrest
      rw [List.foldl_append, Events.foldl_addChar htext, addText_withLines h, ih _ _ hlength.le hrest,
        textsOf_cons_text htext, List.append_assoc]
      rfl
    · have hempty : itemText (some v) = [] := not_not.mp htext
      rw [hempty, List.map_nil, List.nil_append] at horder ⊢
      rw [ih ts (k + 1) (by omega) horder, textsOf_cons_of_not htext]

end Lists

section Members

variable {draft : ReportDraft} {field : String} {v : JsonDoc} {members : List (String × JsonDoc)}

/-- The texts of a member of a new field come in order when its list has no gap, and add what it
shows. -/
lemma member_drafted (h : Dict.get? draft field = none) :
    (InDraftOrder draft (valueEmission (.object { root := true, currentKey := some field }) v) ↔
      MemberGapless (field, v)) ∧
    (MemberGapless (field, v) →
      (valueEmission (.object { root := true, currentKey := some field }) v).foldl addChar draft =
        draft ++ (draftMember (field, v)).toList) := by
  have hsame : draft = draft ++ [] := (List.append_nil draft).symm
  cases v with
  | str s =>
    simp only [valueEmission, stringKey_member, draftMember]
    by_cases hfield : field ∈ textFields
    · have hkey : ValidKey (field, none) := .inl ⟨hfield, rfl⟩
      have hreaches : Reaches draft (field, none) := by
        refine ⟨hkey, ?_⟩
        rintro i ⟨⟩
      have hprevious : Events.previousText draft field = [] := by rw [Events.previousText, h]
      have hadd : addText draft (field, none) s.toList = draft ++ [(field, .text s.toList)] := by
        change Dict.set draft field (.text (Events.previousText draft field ++ s.toList)) = _
        rw [hprevious, Dict.set_of_get?_none h]
        rfl
      rw [if_pos hfield]
      refine ⟨iff_of_true (Events.inDraftOrder_text hreaches) trivial, fun _ => ?_⟩
      by_cases hempty : s.toList = []
      · rw [if_neg fun hboth => hboth.2 hempty, hempty]
        exact hsame
      · rw [if_pos ⟨hfield, hempty⟩]
        exact (Events.foldl_addChar hempty).trans hadd
    · rw [if_neg hfield, if_neg fun hboth => hfield hboth.1]
      exact ⟨iff_of_true trivial trivial, fun _ => hsame⟩
  | arr items =>
    simp only [valueEmission, arrayField_member, draftMember, MemberGapless]
    by_cases hfield : field ∈ listFields
    · have hstart : withLines draft field [] = draft := if_pos rfl
      have horder := list_order hfield h [] 0 (Nat.le_refl 0) items
      have hfold := list_drafted hfield h [] 0 (Nat.le_refl 0) items
      rw [hstart] at horder hfold
      rw [if_pos List.length_nil] at horder
      rw [if_pos hfield]
      refine ⟨horder.trans ⟨fun hgapless _ => hgapless, fun hin => hin hfield⟩, fun hgapless => ?_⟩
      refine (hfold (horder.mpr (hgapless hfield))).trans ?_
      rw [List.nil_append]
      unfold withLines
      by_cases hempty : textsOf items = []
      · rw [if_pos hempty, if_neg fun hboth => hboth.2 hempty]
        exact hsame
      · rw [if_neg hempty, if_pos ⟨hfield, hempty⟩]
        rfl
    · rw [if_neg hfield, if_neg fun hboth => hfield hboth.1]
      exact ⟨iff_of_true trivial fun hin => absurd hin hfield, fun _ => hsame⟩
  | null => exact ⟨iff_of_true trivial trivial, fun _ => hsame⟩
  | bool b => exact ⟨iff_of_true trivial trivial, fun _ => hsame⟩
  | number lexeme => exact ⟨iff_of_true trivial trivial, fun _ => hsame⟩
  | obj ms => exact ⟨iff_of_true trivial trivial, fun _ => hsame⟩

lemma fst_draftMember {e : String × DraftValue} (h : draftMember (field, v) = some e) :
    e.1 = field := by
  cases v with
  | str s =>
    rw [draftMember] at h
    split at h <;> cases h
    rfl
  | arr items =>
    rw [draftMember] at h
    split at h <;> cases h
    rfl
  | _ => cases h

/-- The texts of a report come in the order of the draft when no list has a gap, and build its
draft. -/
theorem members_drafted (hnodup : (members.map Prod.fst).Nodup)
    (hnew : ∀ m ∈ members, Dict.get? draft m.1 = none) :
    (InDraftOrder draft (membersEmission true members) ↔ ∀ m ∈ members, MemberGapless m) ∧
      ((∀ m ∈ members, MemberGapless m) →
        (membersEmission true members).foldl addChar draft = draft ++ reportDraft members) := by
  induction members generalizing draft with
  | nil =>
    exact ⟨iff_of_true trivial fun m hm => absurd hm List.not_mem_nil,
      fun _ => (List.append_nil draft).symm⟩
  | cons m members ih =>
    obtain ⟨field, v⟩ := m
    obtain ⟨hnot, hnodup⟩ := List.nodup_cons.mp hnodup
    obtain ⟨horder, hfold⟩ := member_drafted (v := v) (hnew _ List.mem_cons_self)
    have hnew' : ∀ m ∈ members,
        Dict.get? (draft ++ (draftMember (field, v)).toList) m.1 = none := by
      intro m hm
      by_contra hsome
      have hmem := Dict.mem_map_fst_iff.mpr hsome
      rw [List.map_append, List.mem_append] at hmem
      rcases hmem with hmem | hmem
      · exact Dict.mem_map_fst_iff.mp hmem (hnew m (List.mem_cons_of_mem _ hm))
      · obtain ⟨e, he, hkey⟩ := List.mem_map.mp hmem
        have hfirst := fst_draftMember (Option.mem_toList.mp he)
        exact hnot (List.mem_map.mpr ⟨m, hm, hkey.symm.trans hfirst⟩)
    obtain ⟨hrest, hrestFold⟩ := ih hnodup hnew'
    rw [membersEmission_cons, Events.inDraftOrder_append, List.foldl_append, List.forall_mem_cons,
      horder]
    constructor
    · apply and_congr_right
      intro hgapless
      rw [hfold hgapless]
      exact hrest
    · rintro ⟨hgapless, hall⟩
      rw [hfold hgapless, hrestFold hall, List.append_assoc]
      refine congrArg (draft ++ ·) ?_
      unfold reportDraft
      rw [List.filterMap_cons]
      cases draftMember (field, v) with
      | none => rfl
      | some e => rfl

end Members

section Sizes

variable {field : String} {v : JsonDoc} {members : List (String × JsonDoc)}
  {e : String × DraftValue}

/-- The texts of a list are no longer than its JSON. -/
lemma size_textsOf_le (items : List JsonDoc) :
    ((textsOf items).map JsonDoc.textBytes).sum + 2 * (textsOf items).length ≤
        (items.map fun v => Utf8.size (JsonDoc.dumps v)).sum ∧
      (textsOf items).length ≤ items.length := by
  induction items with
  | nil => exact ⟨Nat.le_refl _, Nat.le_refl _⟩
  | cons v items ih =>
    rw [List.map_cons, List.sum_cons, List.length_cons]
    by_cases htext : IsText v
    · have hsize : JsonDoc.textBytes (itemText (some v)) + 2 = Utf8.size (JsonDoc.dumps v) := by
        cases v with
        | str s => exact (JsonDoc.size_dumps_str s).symm
        | _ => exact absurd rfl htext
      rw [textsOf_cons_text htext, List.map_cons, List.sum_cons, List.length_cons]
      omega
    · rw [textsOf_cons_of_not htext]
      omega

/-- What a member shows is no larger than its value. -/
lemma size_draftMember_le (h : draftMember (field, v) = some e) :
    e.2.size ≤ Utf8.size (JsonDoc.dumps v) := by
  cases v with
  | str s =>
    rw [draftMember] at h
    split at h <;> cases h
    rw [Events.size_text, JsonDoc.size_dumps_str]
  | arr items =>
    rw [draftMember] at h
    split at h <;> cases h
    have hitems := size_textsOf_le items
    rw [Events.size_lines, JsonDoc.size_dumps_arr]
    omega
  | _ => cases h

/-- A draft is no larger than its report. -/
lemma size_reportDraft_le (members : List (String × JsonDoc)) :
    draftSize (reportDraft members) ≤ Utf8.size (JsonDoc.dumps (.obj members)) := by
  have hparts : Events.keyBytes ((reportDraft members).map Prod.fst) +
      ((reportDraft members).map fun e => e.2.size).sum ≤ (members.map JsonDoc.memberBytes).sum := by
    unfold Events.keyBytes
    induction members with
    | nil => exact Nat.le_refl _
    | cons m members ih =>
      obtain ⟨field, v⟩ := m
      unfold reportDraft at ih ⊢
      rw [List.filterMap_cons, List.map_cons, List.sum_cons]
      cases hshown : draftMember (field, v) with
      | none =>
        dsimp only
        omega
      | some e =>
        have hkey := fst_draftMember hshown
        have hvalue := size_draftMember_le hshown
        have hbytes : JsonDoc.memberBytes (field, v) =
            JsonDoc.textBytes e.1.toList + 3 + Utf8.size (JsonDoc.dumps v) := by
          rw [hkey]
          rfl
        simp only [List.map_cons, List.sum_cons]
        omega
  have hlength : (reportDraft members).length ≤ members.length := List.length_filterMap_le _ _
  have hdraft := Events.size_draftJson (reportDraft members)
  have hobj := JsonDoc.size_dumps_obj members
  unfold draftSize
  omega

lemma itemBytes_eq (v : JsonDoc) : itemBytes v = Utf8.size (itemText (some v)) := by
  cases v <;> rfl

lemma sum_textsOf (items : List JsonDoc) :
    ((textsOf items).map Utf8.size).sum = (items.map itemBytes).sum := by
  induction items with
  | nil => rfl
  | cons v items ih =>
    rw [List.map_cons, List.sum_cons, itemBytes_eq, ← ih]
    by_cases htext : IsText v
    · rw [textsOf_cons_text htext, List.map_cons, List.sum_cons]
    · have hempty : itemText (some v) = [] := not_not.mp htext
      rw [textsOf_cons_of_not htext, hempty, Utf8.size_nil, Nat.zero_add]

/-- The text of a draft is the draft text of its report. -/
lemma sum_reportDraft (members : List (String × JsonDoc)) :
    ((reportDraft members).map fun e => Events.valueBytes e.2).sum = draftBytes members := by
  unfold reportDraft draftBytes
  induction members with
  | nil => rfl
  | cons m members ih =>
    obtain ⟨field, v⟩ := m
    have hmember : ((draftMember (field, v)).map fun e => Events.valueBytes e.2).getD 0 =
        memberBytes (field, v) := by
      cases v with
      | str s =>
        rw [draftMember, memberBytes]
        by_cases hfield : field ∈ textFields
        · rw [if_pos hfield]
          by_cases hempty : s.toList = []
          · rw [if_neg fun hboth => hboth.2 hempty, utf8Bytes, hempty]
            rfl
          · rw [if_pos ⟨hfield, hempty⟩]
            rfl
        · rw [if_neg hfield, if_neg fun hboth => hfield hboth.1]
          rfl
      | arr items =>
        rw [draftMember, memberBytes]
        by_cases hfield : field ∈ listFields
        · rw [if_pos hfield, ← sum_textsOf]
          by_cases hempty : textsOf items = []
          · rw [if_neg fun hboth => hboth.2 hempty, hempty]
            rfl
          · rw [if_pos ⟨hfield, hempty⟩]
            rfl
        · rw [if_neg hfield, if_neg fun hboth => hfield hboth.1]
          rfl
      | _ => rfl
    rw [List.filterMap_cons, List.map_cons, List.sum_cons, ← hmember, ← ih]
    cases draftMember (field, v) with
    | none => simp
    | some e => simp

end Sizes

end ChatBI.Report
