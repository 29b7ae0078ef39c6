import ChatBI.Export.Reading

/-!
# What an export writes

Every value of a snapshot that is exported has a cell, and the loops of `create_query_workbook` write
the cells and the notes of all values.
-/

namespace ChatBI.Export

open ChatBI.Lib

/-! ### Texts that fit -/

lemma text_of_fits {s : String} (h : Fits s) : text s = .ok s := by
  unfold text
  rw [require, if_pos h.length, require, if_pos h.controls]
  rfl

lemma length_le_utf16Length (s : String) : s.length ≤ utf16Length s := by
  unfold utf16Length
  rw [← String.length_toList]
  induction s.toList with
  | nil => exact Nat.le_refl 0
  | cons c cs ih =>
    have hone : 1 ≤ if 0x10000 ≤ c.toNat then 2 else 1 := by
      split <;> omega
    rw [List.map_cons, List.sum_cons, List.length_cons]
    omega

lemma Fits.holds {s : String} (h : Fits s) : (Content.string s).Holds :=
  (length_le_utf16Length s).trans h.length

/-- Printable characters of ASCII. -/
def Ascii (cs : List Char) : Prop := ∀ c ∈ cs, 0x20 ≤ c.toNat ∧ c.toNat < 0x80

lemma Ascii.append {cs ds : List Char} (hcs : Ascii cs) (hds : Ascii ds) : Ascii (cs ++ ds) := by
  intro c hc
  rcases List.mem_append.mp hc with hc | hc
  · exact hcs c hc
  · exact hds c hc

lemma Ascii.of_digits {cs : List Char} (h : AllDigits cs) : Ascii cs := by
  intro c hc
  have hdigit := h c hc
  rw [Char.isDigit_iff_toNat] at hdigit
  change 48 ≤ c.toNat ∧ c.toNat ≤ 57 at hdigit
  omega

lemma fits_of_ascii {cs : List Char} (h : Ascii cs) (hlength : cs.length ≤ excelMaxCellChars) :
    Fits (String.ofList cs) := by
  refine ⟨?_, ?_⟩
  · have hsum : (cs.map fun c => if 0x10000 ≤ c.toNat then 2 else 1).sum = cs.length := by
      clear hlength
      induction cs with
      | nil => rfl
      | cons c cs ih =>
        have hc := h c List.mem_cons_self
        rw [List.map_cons, List.sum_cons, ih (fun b hb => h b (List.mem_cons_of_mem c hb)),
          if_neg (by omega), List.length_cons, Nat.add_comm]
    unfold utf16Length
    rw [String.toList_ofList, hsum]
    exact hlength
  · rw [String.toList_ofList, List.any_eq_false]
    intro c hc
    have hascii := h c hc
    have hnot : isXmlControl c = false := by
      unfold isXmlControl
      simp only [Bool.or_eq_false_iff, Bool.and_eq_false_iff, decide_eq_false_iff_not]
      omega
    rw [hnot]
    exact Bool.false_ne_true

lemma ascii_sign (b : Prop) [Decidable b] : Ascii (if b then ['-'] else []) := by
  intro c hc
  split at hc
  · rw [List.mem_singleton.mp hc]
    decide
  · cases hc

lemma fits_intText {n : Int} (h : intDigits n ≤ Events.maxStrDigits) : Fits (intText n) := by
  apply fits_of_ascii ((ascii_sign _).append (.of_digits (allDigits_toDigits _)))
  have hsign : (if n < 0 then ['-'] else []).length ≤ 1 := by
    split
    · exact Nat.le_refl 1
    · exact Nat.zero_le 1
  unfold intDigits Events.maxStrDigits at h
  unfold excelMaxCellChars
  rw [List.length_append]
  omega

lemma length_toDigits_le {n k : Nat} (hk : 0 < k) (h : n < 10 ^ k) :
    (Nat.toDigits 10 n).length ≤ k := (Nat.length_toDigits_le_iff (by omega) hk).mpr h

lemma ascii_singleton {c : Char} (h : 0x20 ≤ c.toNat ∧ c.toNat < 0x80) : Ascii [c] := by
  intro b hb
  rw [List.mem_singleton.mp hb]
  exact h

lemma Ascii.cons {c : Char} {cs : List Char} (h : 0x20 ≤ c.toNat ∧ c.toNat < 0x80) (hcs : Ascii cs) :
    Ascii (c :: cs) := (ascii_singleton h).append hcs

section Floats

variable {digits : List Char} (h : AllDigits digits) {point : Int}
include h

lemma ascii_positionalText : Ascii (positionalText digits point) := by
  unfold positionalText
  split
  · exact .cons (by decide) (.cons (by decide) (.of_digits ((allDigits_zeros _).append h)))
  · split
    · exact (Ascii.of_digits (h.append (allDigits_zeros _))).append
        (.cons (by decide) (ascii_singleton (by decide)))
    · exact (Ascii.of_digits (h.take _)).append (.cons (by decide) (.of_digits (h.drop _)))

lemma ascii_scientificText : Ascii (scientificText digits point) := by
  have hexponent : Ascii (exponentText (point - 1)) := by
    unfold exponentText
    refine .append (.cons ?_ ?_) (.of_digits (allDigits_toDigits _))
    · split <;> decide
    · split
      · exact ascii_singleton (by decide)
      · intro c hc
        cases hc
  unfold scientificText
  refine .append (.append (.of_digits (h.take 1)) ?_) (.cons (by decide) hexponent)
  split
  · intro c hc
    cases hc
  · exact .cons (by decide) (.of_digits (h.drop 1))

end Floats

lemma length_positionalText (digits : List Char) {point : Int} (hpoint : point.natAbs ≤ 1100) :
    (positionalText digits point).length ≤ digits.length + 1102 := by
  unfold positionalText
  split
  · simp only [List.length_cons, List.length_append, List.length_replicate]
    omega
  · split
    · simp only [List.length_cons, List.length_append, List.length_replicate, List.length_nil]
      omega
    · simp only [List.length_cons, List.length_append, List.length_take, List.length_drop]
      omega

lemma length_scientificText (digits : List Char) {point : Int} (hpoint : point.natAbs ≤ 1100) :
    (scientificText digits point).length ≤ digits.length + 8 := by
  have hexponent : (exponentText (point - 1)).length ≤ 6 := by
    have hdigits : (Nat.toDigits 10 (point - 1).natAbs).length ≤ 4 :=
      length_toDigits_le (by omega) (by omega)
    have hzero : (if (point - 1).natAbs < 10 then ['0'] else []).length ≤ 1 := by
      split
      · exact Nat.le_refl 1
      · exact Nat.zero_le 1
    unfold exponentText
    rw [List.cons_append, List.length_cons, List.length_append]
    omega
  unfold scientificText
  split
  · simp only [List.length_cons, List.length_append, List.length_take, List.length_nil]
    omega
  · simp only [List.length_cons, List.length_append, List.length_take, List.length_drop]
    omega

lemma fits_repr (x : Float64) : Fits x.repr := by
  have hdigits : AllDigits x.digitChars := allDigits_toDigits x.digits
  have hlength : x.digitChars.length ≤ 17 := length_toDigits_le (by omega) x.short.1
  have hexponent := x.short.2
  have hpoint : x.point.natAbs ≤ 1100 := by
    unfold Float64.point
    omega
  have hbody : Ascii (if x.point ≤ -4 ∨ 16 < x.point then scientificText x.digitChars x.point
      else positionalText x.digitChars x.point) := by
    split
    · exact ascii_scientificText hdigits
    · exact ascii_positionalText hdigits
  apply fits_of_ascii (.append (ascii_sign _) hbody)
  have hsign : (if x.negative then ['-'] else []).length ≤ 1 := by
    split
    · exact Nat.le_refl 1
    · exact Nat.zero_le 1
  have htext : (if x.point ≤ -4 ∨ 16 < x.point then scientificText x.digitChars x.point
      else positionalText x.digitChars x.point).length ≤ x.digitChars.length + 1102 := by
    split
    · have hscientific := length_scientificText x.digitChars hpoint
      omega
    · exact length_positionalText x.digitChars hpoint
  rw [List.length_append]
  unfold excelMaxCellChars
  omega

/-! ### Notes on values -/

/-- No type's start is the start of a note on another type. -/
lemma start_ne {t u : JsonType} (h : t ≠ u) (cs : List Char) :
    ((t.value ++ " · ").toList).isPrefixOf ((u.value ++ " · ").toList ++ cs) = false := by
  cases t <;> cases u <;> first | exact absurd rfl h | rfl

lemma original?_self (t : JsonType) (original : String) :
    original? t (t.value ++ " · " ++ original) = some original.toList := by
  unfold original?
  rw [String.toList_append, if_pos (by simp)]
  simp

lemma original?_ne {t u : JsonType} (h : t ≠ u) (original : String) :
    original? t (u.value ++ " · " ++ original) = none := by
  have htext : (u.value ++ " · " ++ original).toList =
      (u.value ++ " · ").toList ++ original.toList := String.toList_append
  unfold original?
  simp only [htext, start_ne h, Bool.false_eq_true, if_false]

/-- A cell that needs a note is restored from its text and the note. -/
lemma restoreNoted_null (s original : String) :
    restoreNoted s (JsonType.null.value ++ " · " ++ original) = .null := by
  unfold restoreNoted
  rw [original?_self]
  rfl

lemma restoreNoted_integerText (s : String) (n : Int) :
    restoreNoted s (JsonType.integerText.value ++ " · " ++ intText n) = .number n := by
  unfold restoreNoted
  rw [original?_ne JsonType.noConfusion, original?_self]
  simp only [Option.isSome_none, Bool.false_eq_true, if_false]
  unfold intText
  rw [String.toList_ofList, readDecimal_intChars]

lemma restoreNoted_numberText (s : String) (x : Float64) :
    restoreNoted s (JsonType.numberText.value ++ " · " ++ x.repr) = .number x.value := by
  unfold restoreNoted
  rw [original?_ne JsonType.noConfusion, original?_ne JsonType.noConfusion, original?_self]
  simp only [Option.isSome_none, Bool.false_eq_true, if_false]
  unfold Float64.repr
  rw [String.toList_ofList, readDecimal_reprChars]

lemma restoreNoted_string (s value : String) :
    restoreNoted s (JsonType.string.value ++ " · " ++ jsonText value) =
      if (jsonText value).toList = ['"', '"'] then .str "" else .str s := by
  unfold restoreNoted
  rw [original?_ne JsonType.noConfusion, original?_ne JsonType.noConfusion,
    original?_ne JsonType.noConfusion, original?_self]
  simp only [Option.isSome_none, Bool.false_eq_true, if_false, Option.some.injEq]

/-- What the cell of a value says, with the note on it. -/
structure Encodes (value : Scalar) (encoded : Encoded) : Prop where
  format : formatCell value = .ok encoded
  holds : encoded.content.Holds
  plain : encoded.content.isPlain = true
  text : ∀ s, value = .str s → ∃ t, encoded.content = .string t
  noted : isSpecial encoded.jsonType value →
    restoreContent (some (encoded.jsonType.value ++ " · " ++ encoded.original)) encoded.content =
      some value.restored
  unnoted : ¬isSpecial encoded.jsonType value →
    restoreContent none encoded.content = some value.restored

lemma isSpecial_of_not_mem {t : JsonType} (h : t ∉ [JsonType.string, .boolean, .number])
    (value : Scalar) : isSpecial t value := .inl h

lemma encodes_null : ∃ encoded, Encodes .null encoded := by
  refine ⟨⟨.string nullMarker, .null, "null"⟩, rfl, ?_, rfl, ?_, ?_, ?_⟩
  · change nullMarker.length ≤ _
    decide
  · intro s hs
    cases hs
  · intro _
    exact congrArg some (restoreNoted_null _ _)
  · intro hnot
    exact absurd (isSpecial_of_not_mem (t := .null) (by decide) _) hnot

lemma encodes_bool (b : Bool) : ∃ encoded, Encodes (.bool b) encoded := by
  refine ⟨⟨.boolean b, .boolean, if b then "true" else "false"⟩, rfl, trivial, rfl, ?_,
    fun _ => rfl, fun _ => rfl⟩
  intro s hs
  cases hs

lemma encodes_int {n : Int} (h : intDigits n ≤ Events.maxStrDigits) :
    ∃ encoded, Encodes (.int n) encoded := by
  have hformat : formatCell (.int n) = .ok (if intDigits n ≤ 15 then ⟨.number n, .number, intText n⟩
      else ⟨.string (intText n), .integerText, intText n⟩) := by
    simp only [formatCell, require, if_pos h]
    rfl
  by_cases hshort : intDigits n ≤ 15
  · rw [if_pos hshort] at hformat
    refine ⟨_, hformat, trivial, rfl, ?_, fun _ => rfl, fun _ => rfl⟩
    intro s hs
    cases hs
  · rw [if_neg hshort] at hformat
    refine ⟨_, hformat, (fits_intText h).holds, rfl, ?_, ?_, ?_⟩
    · intro s hs
      cases hs
    · intro _
      exact congrArg some (restoreNoted_integerText _ n)
    · intro hnot
      exact absurd (isSpecial_of_not_mem (t := .integerText) (by decide) _) hnot

lemma encodes_float (x : Float64) : ∃ encoded, Encodes (.float x) encoded := by
  have hformat : formatCell (.float x) = .ok (if significantDigits x ≤ 15 ∧ inExcelRange x then
      ⟨.number x.value, .number, x.repr⟩ else ⟨.string x.repr, .numberText, x.repr⟩) := by
    simp only [formatCell, text_of_fits (fits_repr x)]
    split <;> rfl
  by_cases hsafe : significantDigits x ≤ 15 ∧ inExcelRange x
  · rw [if_pos hsafe] at hformat
    refine ⟨_, hformat, trivial, rfl, ?_, fun _ => rfl, fun _ => rfl⟩
    intro s hs
    cases hs
  · rw [if_neg hsafe] at hformat
    refine ⟨_, hformat, (fits_repr x).holds, rfl, ?_, ?_, ?_⟩
    · intro s hs
      cases hs
    · intro _
      exact congrArg some (restoreNoted_numberText _ x)
    · intro hnot
      exact absurd (isSpecial_of_not_mem (t := .numberText) (by decide) _) hnot

lemma encodes_str {s : String} (h : Fits s) : ∃ encoded, Encodes (.str s) encoded := by
  by_cases hempty : s = ""
  · subst hempty
    refine ⟨⟨.string emptyMarker, .string, jsonText ""⟩, rfl, ?_, rfl, fun _ _ => ⟨_, rfl⟩, ?_, ?_⟩
    · change emptyMarker.length ≤ _
      decide
    · intro _
      exact congrArg some (restoreNoted_string _ _)
    · intro hnot
      exact absurd (.inr (.inl rfl)) hnot
  · have hformat : formatCell (.str s) = .ok ⟨.string s, .string, jsonText s⟩ := by
      simp only [formatCell, if_neg hempty, text_of_fits h]
      rfl
    refine ⟨_, hformat, h.holds, rfl, fun _ _ => ⟨_, rfl⟩, ?_, fun _ => rfl⟩
    intro hspecial
    have hmarker : (jsonText s).toList ≠ ['"', '"'] := by
      rcases hspecial with hnot | hnull | hmark | hmark
      · exact absurd List.mem_cons_self hnot
      · exact absurd (Scalar.str.inj hnull) hempty
      · rw [Scalar.str.inj hmark]
        decide
      · rw [Scalar.str.inj hmark]
        decide
    refine congrArg some ((restoreNoted_string _ _).trans ?_)
    rw [if_neg hmarker]
    rfl

/-! ### The loops -/

/-- The cell of a value. -/
def dataCells (cell : (Nat × Nat) × Scalar) : Sheet :=
  match formatCell cell.2 with
  | .ok encoded => [(cell.1, encoded.content)]
  | .error _ => []

lemma writeCell_eq (w : Writer) (columns : List String) (written : Sheet × List NoteRow)
    {cell : (Nat × Nat) × Scalar} {encoded : Encoded} (h : Encodes cell.2 encoded)
    (hrow : cell.1.1 < excelMaxRows) (hcol : cell.1.2 < excelMaxColumns) :
    writeCell w columns written cell =
      .ok (written.1 ++ dataCells cell, written.2 ++ cellMarkers columns cell) := by
  have hstatus := w.status_eq cell.1.1 cell.1.2 encoded.content hrow hcol h.holds
  unfold writeCell dataCells cellMarkers
  simp only [h.format]
  change (require _ _ >>= fun _ => _) = _
  rw [require, if_pos hstatus]
  change Except.ok (_, _) = _
  split
  · rfl
  · rw [List.append_nil]

lemma foldlM_writeCell (w : Writer) (columns : List String) (cells : List ((Nat × Nat) × Scalar))
    (h : ∀ cell ∈ cells, (∃ encoded, Encodes cell.2 encoded) ∧ cell.1.1 < excelMaxRows ∧
      cell.1.2 < excelMaxColumns) (written : Sheet × List NoteRow) :
    cells.foldlM (writeCell w columns) written =
      .ok (written.1 ++ cells.flatMap dataCells,
        written.2 ++ cells.flatMap (cellMarkers columns)) := by
  induction cells generalizing written with
  | nil =>
    rw [List.flatMap_nil, List.flatMap_nil, List.append_nil, List.append_nil]
    rfl
  | cons cell cells ih =>
    obtain ⟨⟨encoded, hencodes⟩, hrow, hcol⟩ := h cell List.mem_cons_self
    rw [List.foldlM_cons, writeCell_eq w columns written hencodes hrow hcol]
    change List.foldlM (writeCell w columns) _ cells = _
    rw [ih fun cell' hcell' => h cell' (List.mem_cons_of_mem cell hcell')]
    simp only [List.flatMap_cons, List.append_assoc]

lemma writeNote_eq (w : Writer) (notes : Sheet) {note : NoteRow × Nat} (hkey : Fits note.1.1)
    (hvalue : Fits note.1.2) (hrow : note.2 < excelMaxRows) :
    writeNote w notes note = .ok (notes ++ noteCells note) := by
  have hstatus : w.status note.2 0 (.string note.1.1) = 0 ∧
      w.status note.2 1 (.string note.1.2) = 0 :=
    ⟨w.status_eq _ _ _ hrow (by decide) hkey.holds, w.status_eq _ _ _ hrow (by decide) hvalue.holds⟩
  unfold writeNote
  rw [text_of_fits hkey, text_of_fits hvalue]
  change (require _ _ >>= fun _ => _) = _
  rw [require, if_pos hstatus]
  rfl

lemma foldlM_writeNote (w : Writer) (lines : List (NoteRow × Nat))
    (h : ∀ note ∈ lines, Fits note.1.1 ∧ Fits note.1.2 ∧ note.2 < excelMaxRows) (notes : Sheet) :
    lines.foldlM (writeNote w) notes = .ok (notes ++ lines.flatMap noteCells) := by
  induction lines generalizing notes with
  | nil =>
    rw [List.flatMap_nil, List.append_nil]
    rfl
  | cons note lines ih =>
    obtain ⟨hkey, hvalue, hrow⟩ := h note List.mem_cons_self
    rw [List.foldlM_cons, writeNote_eq w notes hkey hvalue hrow]
    change List.foldlM (writeNote w) _ lines = _
    rw [ih fun note' hnote' => h note' (List.mem_cons_of_mem note hnote'), List.flatMap_cons,
      List.append_assoc]

lemma mapM_text {columns : List String} (h : ∀ name ∈ columns, Fits name) :
    columns.mapM text = .ok columns := by
  induction columns with
  | nil => rfl
  | cons name columns ih =>
    rw [List.mapM_cons, text_of_fits (h name List.mem_cons_self),
      ih fun name' hname' => h name' (List.mem_cons_of_mem name hname')]
    rfl

/-! ### Where the values are -/

/-- The values of the table are at the rows behind the header. -/
lemma mem_cells {rows : List (List Scalar)} {cell : (Nat × Nat) × Scalar} :
    cell ∈ cells rows ↔ ∃ row, cell.1.1 = row + 1 ∧
      (rows[row]?.bind fun values => values[cell.1.2]?) = some cell.2 := by
  unfold cells
  rw [List.mem_flatMap]
  constructor
  · rintro ⟨⟨values, row⟩, hrow, hcell⟩
    obtain ⟨⟨value, col⟩, hcol, rfl⟩ := List.mem_map.mp hcell
    rw [List.mem_zipIdx_iff_getElem?] at hcol
    obtain ⟨hle, hlt, hvalues⟩ := List.mem_zipIdx hrow
    refine ⟨row - 1, by dsimp only; omega, ?_⟩
    rw [List.getElem?_eq_getElem (by omega), Option.bind_some, ← hvalues]
    exact hcol
  · rintro ⟨row, hrow, hvalue⟩
    obtain ⟨values, hvalues, hcol⟩ := Option.bind_eq_some_iff.mp hvalue
    refine ⟨(values, row + 1), ?_, ?_⟩
    · rw [List.mk_mem_zipIdx_iff_le_and_getElem?_sub]
      exact ⟨by omega, hvalues⟩
    · refine List.mem_map.mpr ⟨(cell.2, cell.1.2), ?_, ?_⟩
      · rw [List.mem_zipIdx_iff_getElem?]
        exact hcol
      · apply Prod.ext
        · exact Prod.ext hrow.symm rfl
        · rfl

end ChatBI.Export
