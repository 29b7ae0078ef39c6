import ChatBI.Report.Decoder
import Mathlib.Data.List.Basic

/-!
# Feeding the decoder chunk by chunk

What a chunk does depends on its characters only, so every way of cutting a text gives the same
verdict. A chunk whose feed raises returns no deltas, so on a text that is refused one partition
may have seen more of the draft than another.
-/

namespace ChatBI.Report

open ChatBI.Lib

/-- The text that deltas add to a draft position. -/
def textOf (deltas : List ReportTextDelta) (key : DraftKey) : List Char :=
  (deltas.filter (·.key = key)).flatMap (·.text)

/-- Every delta starts where the text of its position ends, the lengths of before included. -/
def PlacedFrom (lengths : DraftKey → Nat) (deltas : List ReportTextDelta) : Prop :=
  ∀ before δ after, deltas = before ++ δ :: after →
    δ.offset = lengths δ.key + (textOf before δ.key).length

def Piece.delta (p : Piece) : ReportTextDelta := ⟨p.key, p.offset, [p.char]⟩

/-- Feeds chunks until one raises: the deltas returned and the decoder or the error. -/
def Decoder.feedAll : Decoder → List (List CodePoint) →
    List ReportTextDelta × Except String Decoder
  | d, [] => ([], .ok d)
  | d, chunk :: chunks =>
    match d.feed chunk with
    | .error e => ([], .error e)
    | .ok (d', deltas) => (deltas ++ (feedAll d' chunks).1, (feedAll d' chunks).2)

/-- No feed raises and neither does `finish`. -/
def Decoder.Accepts (d : Decoder) (chunks : List (List CodePoint)) : Prop :=
  ∃ d', ((d.feedAll chunks).2 >>= Decoder.finish) = .ok d'

/-- What the decoder emits on a text up to the character it refuses. -/
def Decoder.emitted : Decoder → List CodePoint → List Piece
  | _, [] => []
  | d, c :: text =>
    match d.consumeChar c with
    | .error _ => []
    | .ok (d', pieces) => pieces ++ emitted d' text

section Deltas

variable {lengths : DraftKey → Nat} {xs ys : List ReportTextDelta} {δ : ReportTextDelta}
  {key : DraftKey} {p : Piece} {pieces : List Piece}

lemma textOf_append : textOf (xs ++ ys) key = textOf xs key ++ textOf ys key := by
  simp [textOf]

lemma textOf_single : textOf [δ] key = if δ.key = key then δ.text else [] := by
  by_cases h : δ.key = key <;> simp [textOf, h]

lemma placedFrom_nil : PlacedFrom lengths [] := by
  intro before δ after h
  simp at h

lemma placedFrom_single : PlacedFrom lengths [δ] ↔ δ.offset = lengths δ.key := by
  constructor
  · intro h
    simpa [textOf] using h [] δ [] rfl
  · intro h before ε after he
    cases before with
    | nil =>
      have hεδ : δ = ε := by simpa using (List.cons.inj he).1
      simpa [textOf, ← hεδ] using h
    | cons b before => simp at he

lemma placedFrom_append :
    PlacedFrom lengths (xs ++ ys) ↔
      PlacedFrom lengths xs ∧ PlacedFrom (fun k => lengths k + (textOf xs k).length) ys := by
  constructor
  · intro h
    refine ⟨?_, ?_⟩
    · intro before δ after hxs
      exact h before δ (after ++ ys) (by simp [hxs])
    · intro before δ after hys
      have hδ := h (xs ++ before) δ after (by simp [hys])
      rw [textOf_append, List.length_append] at hδ
      rw [hδ, Nat.add_assoc]
  · rintro ⟨hxs, hys⟩ before δ after h
    rcases List.append_eq_append_iff.mp h with ⟨mid, rfl, hmid⟩ | ⟨mid, hmid, hafter⟩
    · have hδ := hys mid δ after hmid
      rw [textOf_append, List.length_append, hδ, Nat.add_assoc]
    · cases mid with
      | nil =>
        have hδ := hys [] δ after (by simpa using hafter.symm)
        simpa [textOf, hmid] using hδ
      | cons ε mid =>
        obtain ⟨rfl, -⟩ := List.cons.inj hafter
        exact hxs before δ mid hmid

/-- A character that continues the last delta adds the same text as a delta of its own. -/
lemma textOf_record : textOf (record xs p) key = textOf (xs ++ [p.delta]) key := by
  unfold record
  cases hlast : xs.getLast? with
  | none => simp [List.getLast?_eq_none_iff.mp hlast, Piece.delta]
  | some last =>
    have hxs := List.dropLast_append_getLast? last hlast
    by_cases h : last.key = p.key ∧ last.offset + last.text.length = p.offset
    · simp only [h, and_self, if_true]
      rw [← hxs]
      simp only [textOf_append, textOf_single, Piece.delta, List.dropLast_concat]
      by_cases hk : p.key = key <;> simp [hk, h.1]
    · simp only [h, if_false]
      rfl

lemma placedFrom_record (h : PlacedFrom lengths (xs ++ [p.delta])) :
    PlacedFrom lengths (record xs p) := by
  unfold record
  cases hlast : xs.getLast? with
  | none => simpa [List.getLast?_eq_none_iff.mp hlast, Piece.delta] using h
  | some last =>
    have hxs := List.dropLast_append_getLast? last hlast
    by_cases hc : last.key = p.key ∧ last.offset + last.text.length = p.offset
    · simp only [hc, and_self, if_true]
      have hall := (placedFrom_append.mp h).1
      rw [← hxs] at hall
      obtain ⟨hinit, hsingle⟩ := placedFrom_append.mp hall
      refine placedFrom_append.mpr ⟨hinit, placedFrom_single.mpr ?_⟩
      simpa only [hc.1] using placedFrom_single.mp hsingle
    · simp only [hc, if_false]
      exact h

lemma textOf_foldl_record :
    textOf (pieces.foldl record xs) key = textOf (xs ++ pieces.map Piece.delta) key := by
  induction pieces generalizing xs with
  | nil => simp
  | cons p pieces ih =>
    rw [List.foldl_cons, ih, textOf_append, textOf_record, ← textOf_append]
    simp

lemma placedFrom_foldl_record (h : PlacedFrom lengths (xs ++ pieces.map Piece.delta)) :
    PlacedFrom lengths (pieces.foldl record xs) := by
  induction pieces generalizing xs with
  | nil => simpa using h
  | cons p pieces ih =>
    rw [List.map_cons, List.append_cons] at h
    obtain ⟨hx, hp⟩ := placedFrom_append.mp h
    apply ih
    refine placedFrom_append.mpr ⟨placedFrom_record hx, ?_⟩
    simpa only [textOf_record] using hp

end Deltas

section Steps

variable {d d' : Decoder} {c : CodePoint} {pieces : List Piece} {text more : List CodePoint}

/-- What one character may do to the drafts: nothing, or one more character at its position. -/
def Emits (d d' : Decoder) (pieces : List Piece) : Prop :=
  d'.finished = d.finished ∧
    (pieces = [] ∧ d'.drafts = d.drafts ∨
      ∃ key c, pieces = [⟨key, d.drafts.draftLengths key, c⟩] ∧
        d.drafts.draftBytes + c.utf8Size ≤ d.drafts.maxDraftBytes ∧
        d'.drafts = d.drafts.add key c)

/-- A step that touches neither the drafts nor the end flag. -/
def Silent (d d' : Decoder) : Prop := d'.finished = d.finished ∧ d'.drafts = d.drafts

lemma Silent.emits (h : Silent d d') : Emits d d' [] := ⟨h.1, .inl ⟨rfl, h.2⟩⟩

lemma completeValue_silent (h : d.completeValue = .ok d') : Silent d d' := by
  unfold Decoder.completeValue at h
  split at h
  · cases h
  · split at h <;> cases h
    exact ⟨rfl, rfl⟩
  · split at h <;> cases h
    exact ⟨rfl, rfl⟩

lemma closeContainer_silent (h : d.closeContainer = .ok d') : Silent d d' := by
  unfold Decoder.closeContainer at h
  split at h
  · cases h
  · cases h
    exact ⟨rfl, rfl⟩
  · have hs := completeValue_silent h
    exact hs

lemma finishPrimitive_silent {token : List CodePoint} (h : d.finishPrimitive token = .ok d') :
    Silent d d' := by
  unfold Decoder.finishPrimitive at h
  split at h
  · have hs := completeValue_silent h
    exact hs
  · cases h

lemma startValue_silent {parent : Frame} (h : d.startValue parent c = .ok d') :
    Silent d d' := by
  unfold Decoder.startValue at h
  repeat' split at h
  all_goals cases h
  all_goals exact ⟨rfl, rfl⟩

lemma consumeJsonChar_silent (h : d.consumeJsonChar c = .ok d') : Silent d d' := by
  unfold Decoder.consumeJsonChar Decoder.consumeObjectChar Decoder.consumeArrayChar at h
  repeat' split at h
  all_goals first
    | exact closeContainer_silent h
    | exact startValue_silent h
    | cases h <;> exact ⟨rfl, rfl⟩

lemma closeString_silent {token : Token} (h : d.closeString token = .ok d') :
    Silent d d' := by
  unfold Decoder.closeString at h
  split at h
  · cases h
  · split at h
    · have hs := completeValue_silent h
      exact hs
    · split at h
      · split at h
        · cases h
        · cases h
          exact ⟨rfl, rfl⟩
      · cases h

lemma emitStringChar_emits {token : Token} {e : Char}
    (h : d.emitStringChar token e = .ok (d', pieces)) : Emits d d' pieces := by
  unfold Decoder.emitStringChar at h
  split at h
  · cases h
    exact Silent.emits ⟨rfl, rfl⟩
  · cases h
    exact Silent.emits ⟨rfl, rfl⟩
  · split at h
    · cases h
    · next hfits =>
      cases h
      exact ⟨rfl, .inr ⟨_, e, rfl, Nat.le_of_not_lt hfits, rfl⟩⟩

lemma consumeStringChar_emits {token : Token}
    (h : d.consumeStringChar token c = .ok (d', pieces)) : Emits d d' pieces := by
  unfold Decoder.consumeStringChar Decoder.finishUnicode at h
  repeat' split at h
  all_goals first
    | exact emitStringChar_emits h
    | cases h <;> exact Silent.emits ⟨rfl, rfl⟩
    | skip
  obtain ⟨closed, hclosed, he⟩ := except_map_ok.mp h
  cases he
  exact (closeString_silent hclosed).emits

lemma consumeChar_emits (h : d.consumeChar c = .ok (d', pieces)) : Emits d d' pieces := by
  unfold Decoder.consumeChar at h
  split at h
  · exact consumeStringChar_emits h
  · split at h
    · split at h
      · obtain ⟨ended, hended, h⟩ := except_bind_ok.mp h
        obtain ⟨next, hnext, he⟩ := except_map_ok.mp h
        cases he
        have h₁ := finishPrimitive_silent hended
        have h₂ := consumeJsonChar_silent hnext
        exact Silent.emits ⟨h₂.1.trans h₁.1, h₂.2.trans h₁.2⟩
      · cases h
        exact Silent.emits ⟨rfl, rfl⟩
    · obtain ⟨next, hnext, he⟩ := except_map_ok.mp h
      cases he
      exact (consumeJsonChar_silent hnext).emits

/-- The pieces of a run continue the texts of before. -/
lemma consumeChar_placed (h : d.consumeChar c = .ok (d', pieces)) :
    PlacedFrom d.drafts.draftLengths (pieces.map Piece.delta) ∧
      ∀ key, d'.drafts.draftLengths key =
        d.drafts.draftLengths key + (textOf (pieces.map Piece.delta) key).length := by
  obtain ⟨-, ⟨rfl, hd⟩ | ⟨key, e, rfl, -, hd⟩⟩ := consumeChar_emits h
  · refine ⟨placedFrom_nil, fun key => ?_⟩
    rw [hd]
    rfl
  · refine ⟨placedFrom_single.mpr rfl, fun k => ?_⟩
    rw [hd, List.map_singleton, textOf_single]
    by_cases hk : k = key
    · subst hk
      simp [Drafts.add, Piece.delta]
    · simp [Drafts.add, Piece.delta, Function.update_of_ne hk, Ne.symm hk]

lemma run_cons_ok (h : d.run (c :: text) = .ok (d', pieces)) :
    ∃ e p q, d.consumeChar c = .ok (e, p) ∧ e.run text = .ok (d', q) ∧ pieces = p ++ q := by
  rw [Decoder.run] at h
  split at h
  · cases h
  · next e p hc =>
    split at h
    · cases h
    · next d'' q hr =>
      cases h
      exact ⟨e, p, q, hc, hr, rfl⟩

lemma run_placed (h : d.run text = .ok (d', pieces)) :
    PlacedFrom d.drafts.draftLengths (pieces.map Piece.delta) ∧
      (∀ key, d'.drafts.draftLengths key =
        d.drafts.draftLengths key + (textOf (pieces.map Piece.delta) key).length) ∧
      d'.finished = d.finished := by
  induction text generalizing d pieces with
  | nil =>
    cases h
    exact ⟨placedFrom_nil, fun key => rfl, rfl⟩
  | cons c text ih =>
    obtain ⟨e, p, q, hc, hr, rfl⟩ := run_cons_ok h
    obtain ⟨hplaced, hlength⟩ := consumeChar_placed hc
    obtain ⟨hplaced', hlength', hf⟩ := ih hr
    rw [List.map_append]
    refine ⟨placedFrom_append.mpr ⟨hplaced, ?_⟩, fun key => ?_, hf.trans (consumeChar_emits hc).1⟩
    · exact funext hlength ▸ hplaced'
    · rw [hlength', hlength, textOf_append, List.length_append, Nat.add_assoc]

lemma run_append : d.run (text ++ more) =
    match d.run text with
    | .error e => .error e
    | .ok (d', pieces) =>
      match d'.run more with
      | .error e => .error e
      | .ok (d'', rest) => .ok (d'', pieces ++ rest) := by
  induction text generalizing d with
  | nil =>
    simp only [List.nil_append, Decoder.run]
    cases d.run more <;> rfl
  | cons c text ih =>
    rw [List.cons_append, Decoder.run, Decoder.run]
    cases d.consumeChar c with
    | error e => rfl
    | ok r =>
      simp only [ih]
      cases r.1.run text with
      | error e => rfl
      | ok r' =>
        simp only []
        cases r'.1.run more with
        | error e => rfl
        | ok r'' => simp

lemma emitted_append (h : d.run text = .ok (d', pieces)) :
    d.emitted (text ++ more) = pieces ++ d'.emitted more := by
  induction text generalizing d pieces with
  | nil =>
    cases h
    rfl
  | cons c text ih =>
    obtain ⟨e, p, q, hc, hr, rfl⟩ := run_cons_ok h
    rw [List.cons_append, Decoder.emitted]
    simp only [hc]
    rw [ih hr, List.append_assoc]

end Steps

section Chunks

variable {d d' : Decoder} {text : List CodePoint} {chunks chunks' : List (List CodePoint)}
  {pieces : List Piece} {key : DraftKey}

lemma feed_error {e : String} (hf : d.finished = false) (h : d.run text = .error e) :
    d.feed text = .error e := by
  simp only [Decoder.feed, require, hf, if_true, h]
  rfl

lemma feed_ok (hf : d.finished = false) (h : d.run text = .ok (d', pieces)) :
    d.feed text = .ok (d', pieces.foldl record []) := by
  simp only [Decoder.feed, require, hf, if_true, h]
  rfl

/-- Feeding chunks ends as running their concatenation does. -/
lemma feedAll_outcome (hf : d.finished = false) :
    (d.feedAll chunks).2 = (d.run chunks.flatten).map Prod.fst := by
  induction chunks generalizing d with
  | nil => rfl
  | cons chunk chunks ih =>
    rw [List.flatten_cons, run_append, Decoder.feedAll]
    cases hr : d.run chunk with
    | error e =>
      rw [feed_error hf hr]
      rfl
    | ok r =>
      obtain ⟨d', pieces⟩ := r
      have hf' := (run_placed hr).2.2.trans hf
      simp only [feed_ok hf hr, ih hf']
      cases d'.run chunks.flatten <;> rfl

lemma textOf_feed : textOf (pieces.foldl record []) key = textOf (pieces.map Piece.delta) key := by
  simp [textOf_foldl_record]

variable (chunks) in
/-- What the chunks return continues the texts of before and is the start of what the decoder
emits on the whole text. -/
lemma feedAll_text (hf : d.finished = false) :
    PlacedFrom d.drafts.draftLengths (d.feedAll chunks).1 ∧
      ∀ key, textOf (d.feedAll chunks).1 key <+:
        textOf ((d.emitted chunks.flatten).map Piece.delta) key := by
  induction chunks generalizing d with
  | nil => exact ⟨placedFrom_nil, fun key => List.prefix_rfl⟩
  | cons chunk chunks ih =>
    rw [List.flatten_cons, Decoder.feedAll]
    cases hr : d.run chunk with
    | error e =>
      simp only [feed_error hf hr]
      exact ⟨placedFrom_nil, fun key => List.nil_prefix⟩
    | ok r =>
      obtain ⟨d', pieces⟩ := r
      obtain ⟨hplaced, hlength, hf'⟩ := run_placed hr
      obtain ⟨ihplaced, ihtext⟩ := ih (hf'.trans hf)
      simp only [feed_ok hf hr, emitted_append hr, List.map_append, textOf_append, textOf_feed]
      refine ⟨placedFrom_append.mpr ⟨placedFrom_foldl_record (by simpa using hplaced), ?_⟩,
        fun key => List.prefix_append_right_inj _ |>.mpr (ihtext key)⟩
      have hlengths : d'.drafts.draftLengths = fun key => d.drafts.draftLengths key +
          (textOf (pieces.foldl record []) key).length := by
        funext key
        rw [hlength, textOf_feed]
      exact hlengths ▸ ihplaced

/-- When no feed raises, the chunks return all that the decoder emits on the whole text. -/
lemma feedAll_text_of_ok (hf : d.finished = false) (h : (d.feedAll chunks).2 = .ok d') :
    textOf (d.feedAll chunks).1 key =
      textOf ((d.emitted chunks.flatten).map Piece.delta) key := by
  induction chunks generalizing d with
  | nil => rfl
  | cons chunk chunks ih =>
    rw [Decoder.feedAll] at h
    rw [List.flatten_cons, Decoder.feedAll]
    cases hr : d.run chunk with
    | error e =>
      rw [feed_error hf hr] at h
      cases h
    | ok r =>
      obtain ⟨e, pieces⟩ := r
      simp only [feed_ok hf hr] at h
      simp only [feed_ok hf hr, emitted_append hr, List.map_append, textOf_append, textOf_feed]
      rw [ih ((run_placed hr).2.2.trans hf) h]

/-- Two ways of cutting one text are refused or accepted alike. Where no feed raises they return
the same text for every draft position; a feed that raises returns nothing, so on a refused text
one may be ahead of the other. The offsets are right in any case. -/
theorem feedAll_chunk_invariant (n : Nat) (chunks chunks' : List (List CodePoint))
    (h : chunks.flatten = chunks'.flatten) :
    ((Decoder.new n).Accepts chunks ↔ (Decoder.new n).Accepts chunks') ∧
      (∀ d, ((Decoder.new n).feedAll chunks).2 = .ok d → ∀ key,
        textOf ((Decoder.new n).feedAll chunks).1 key =
          textOf ((Decoder.new n).feedAll chunks').1 key) ∧
      (∀ key, textOf ((Decoder.new n).feedAll chunks).1 key <+:
          textOf ((Decoder.new n).feedAll chunks').1 key ∨
        textOf ((Decoder.new n).feedAll chunks').1 key <+:
          textOf ((Decoder.new n).feedAll chunks).1 key) ∧
      ∀ before δ after, ((Decoder.new n).feedAll chunks).1 = before ++ δ :: after →
        δ.offset = (textOf before δ.key).length := by
  have hf : (Decoder.new n).finished = false := rfl
  have hsame : ((Decoder.new n).feedAll chunks).2 = ((Decoder.new n).feedAll chunks').2 := by
    rw [feedAll_outcome hf, feedAll_outcome hf, h]
  refine ⟨?_, ?_, ?_, ?_⟩
  · unfold Decoder.Accepts
    rw [hsame]
  · intro d hd key
    rw [feedAll_text_of_ok hf hd, feedAll_text_of_ok hf (hsame ▸ hd), h]
  · intro key
    have h₁ := (feedAll_text chunks hf).2 key
    have h₂ := (feedAll_text chunks' hf).2 key
    exact List.prefix_or_prefix_of_prefix h₁ (h ▸ h₂)
  · intro before δ after hsplit
    have hδ := (feedAll_text chunks hf).1 before δ after hsplit
    have hzero : (Decoder.new n).drafts.draftLengths δ.key = 0 := rfl
    rw [hδ, hzero, Nat.zero_add]

/-- A surrogate pair cut between its two escapes. -/
theorem feedAll_chunk_invariant_pair :
    let whole := [CodePoint.ofString "\x7b\"title\":\"a\\ud83d\\ude00\"\x7d"]
    let cut := [CodePoint.ofString "\x7b\"title\":\"a\\ud8", [], CodePoint.ofString "3d",
      CodePoint.ofString "\\ude00\"\x7d"]
    ((Decoder.new 9).Accepts whole ↔ (Decoder.new 9).Accepts cut) ∧
      (∀ d, ((Decoder.new 9).feedAll whole).2 = .ok d → ∀ key,
        textOf ((Decoder.new 9).feedAll whole).1 key =
          textOf ((Decoder.new 9).feedAll cut).1 key) ∧
      (∀ key, textOf ((Decoder.new 9).feedAll whole).1 key <+:
          textOf ((Decoder.new 9).feedAll cut).1 key ∨
        textOf ((Decoder.new 9).feedAll cut).1 key <+:
          textOf ((Decoder.new 9).feedAll whole).1 key) ∧
      ∀ before δ after, ((Decoder.new 9).feedAll whole).1 = before ++ δ :: after →
        δ.offset = (textOf before δ.key).length :=
  feedAll_chunk_invariant 9 _ _ (by decide +kernel)

/-- The two cuts of a refused text return different texts: the whole text nothing, the cut
before the error the title. -/
theorem refused_text_differs :
    ¬ ∀ (n : Nat) (chunks chunks' : List (List CodePoint)), chunks.flatten = chunks'.flatten →
      ((Decoder.new n).Accepts chunks ↔ (Decoder.new n).Accepts chunks') ∧
        ∀ key, textOf ((Decoder.new n).feedAll chunks).1 key =
          textOf ((Decoder.new n).feedAll chunks').1 key := by
  intro h
  have htitle := (h 9 [CodePoint.ofString "\x7b\"title\":\"a\"x"]
    [CodePoint.ofString "\x7b\"title\":\"a", CodePoint.ofString "\"x"] (by decide +kernel)).2
    ("title", none)
  revert htitle
  decide +kernel

end Chunks

end ChatBI.Report
