import ChatBI.Export.Writing

/-!
# Exports lose nothing

The sheets that an export writes, where a reader finds the cells and the notes in them, and that the
table is read back from them.
-/

namespace ChatBI.Export

open ChatBI.Lib

/-! ### Sheets -/

section Sheets

variable {sheet : Sheet}

lemma foldl_max_le {α : Type} (f : α → Nat) (xs : List α) (m n : Nat) :
    xs.foldl (fun acc x => max acc (f x)) m ≤ n ↔ m ≤ n ∧ ∀ x ∈ xs, f x ≤ n := by
  induction xs generalizing m with
  | nil => simp
  | cons x xs ih =>
    rw [List.foldl_cons, ih, List.forall_mem_cons, Nat.max_le, and_assoc]

lemma usedRows_le {n : Nat} : sheet.usedRows ≤ n ↔ ∀ cell ∈ sheet, cell.1.1 < n := by
  unfold Sheet.usedRows
  rw [foldl_max_le]
  exact and_iff_right (Nat.zero_le n)

lemma usedColumns_le {n : Nat} : sheet.usedColumns ≤ n ↔ ∀ cell ∈ sheet, cell.1.2 < n := by
  unfold Sheet.usedColumns
  rw [foldl_max_le]
  exact and_iff_right (Nat.zero_le n)

/-- The number of rows, from a bound and a cell in the last one. -/
lemma usedRows_eq {n : Nat} (h : ∀ cell ∈ sheet, cell.1.1 < n + 1) {cell : (Nat × Nat) × Content}
    (hcell : cell ∈ sheet) (hlast : cell.1.1 = n) : sheet.usedRows = n + 1 := by
  have hle := usedRows_le.mpr h
  have hlt := usedRows_le.mp (Nat.le_refl sheet.usedRows) cell hcell
  omega

lemma usedColumns_eq {n : Nat} (h : ∀ cell ∈ sheet, cell.1.2 < n + 1)
    {cell : (Nat × Nat) × Content} (hcell : cell ∈ sheet) (hlast : cell.1.2 = n) :
    sheet.usedColumns = n + 1 := by
  have hle := usedColumns_le.mpr h
  have hlt := usedColumns_le.mp (Nat.le_refl sheet.usedColumns) cell hcell
  omega

/-- No place is written twice. -/
def Sheet.Distinct (sheet : Sheet) : Prop :=
  ∀ cell ∈ sheet, ∀ cell' ∈ sheet, cell.1 = cell'.1 → cell = cell'

lemma Sheet.Distinct.get? (h : sheet.Distinct) {row col : Nat} {content : Content}
    (hmem : ((row, col), content) ∈ sheet) : sheet.get? row col = some content := by
  unfold Sheet.get?
  cases hfind : sheet.find? (·.1 = (row, col)) with
  | none =>
    rw [List.find?_eq_none] at hfind
    have hnot := hfind _ hmem
    simp at hnot
  | some cell =>
    have hplace : cell.1 = (row, col) := by simpa using List.find?_some hfind
    have hcell := h cell (List.mem_of_find?_eq_some hfind) _ hmem hplace
    rw [hcell]
    rfl

lemma Sheet.Distinct.string? (h : sheet.Distinct) {row col : Nat} {s : String}
    (hmem : ((row, col), .string s) ∈ sheet) : sheet.string? row col = some s := by
  unfold Sheet.string?
  rw [h.get? hmem]

end Sheets

/-! ### The name of a range -/

lemma Writer.column_eq (w : Writer) (number : Nat) : w.column number = columnName number := by
  have hletters := letters_lettersValue (w.column_letters number)
  rw [w.column_value] at hletters
  exact hletters.symm

lemma columnName_two : columnName 2 = ['B'] := by
  unfold columnName
  rw [letters_succ, letters_zero]
  rfl

/-! ### The notes -/

/-- The second sheet with the lines. -/
def notesSheet (rows : List NoteRow) : Sheet := notesHeader ++ (rows.zipIdx 1).flatMap noteCells

section Notes

variable {rows : List NoteRow}

lemma mem_notesSheet {cell : (Nat × Nat) × Content} : cell ∈ notesSheet rows ↔
    cell ∈ notesHeader ∨ ∃ row note, rows[row]? = some note ∧
      (cell = ((row + 1, 0), .string note.1) ∨ cell = ((row + 1, 1), .string note.2)) := by
  unfold notesSheet
  rw [List.mem_append, List.mem_flatMap]
  apply or_congr Iff.rfl
  constructor
  · rintro ⟨⟨note, row⟩, hnote, hcell⟩
    rw [List.mk_mem_zipIdx_iff_le_and_getElem?_sub] at hnote
    refine ⟨row - 1, note, hnote.2, ?_⟩
    have hrow : row - 1 + 1 = row := by omega
    rw [hrow]
    simpa [noteCells] using hcell
  · rintro ⟨row, note, hnote, hcell⟩
    refine ⟨(note, row + 1), ?_, ?_⟩
    · rw [List.mk_mem_zipIdx_iff_le_and_getElem?_sub]
      exact ⟨by omega, hnote⟩
    · simpa [noteCells] using hcell

lemma mem_notesHeader {cell : (Nat × Nat) × Content} : cell ∈ notesHeader ↔
    cell = ((0, 0), .string "项目") ∨ cell = ((0, 1), .string "内容") := by
  simp [notesHeader]

lemma notesSheet_distinct : (notesSheet rows).Distinct := by
  intro cell hcell cell' hcell' hplace
  rw [mem_notesSheet, mem_notesHeader] at hcell hcell'
  rcases hcell with (rfl | rfl) | ⟨row, note, hnote, rfl | rfl⟩ <;>
    rcases hcell' with (rfl | rfl) | ⟨row', note', hnote', rfl | rfl⟩ <;>
    simp_all

lemma notesSheet_header : (notesSheet rows).string? 0 0 = some "项目" :=
  notesSheet_distinct.string? (mem_notesSheet.mpr (.inl (mem_notesHeader.mpr (.inl rfl))))

lemma notesSheet_key {row : Nat} {note : NoteRow} (h : rows[row]? = some note) :
    (notesSheet rows).string? (row + 1) 0 = some note.1 :=
  notesSheet_distinct.string? (mem_notesSheet.mpr (.inr ⟨row, note, h, .inl rfl⟩))

lemma notesSheet_value {row : Nat} {note : NoteRow} (h : rows[row]? = some note) :
    (notesSheet rows).string? (row + 1) 1 = some note.2 :=
  notesSheet_distinct.string? (mem_notesSheet.mpr (.inr ⟨row, note, h, .inr rfl⟩))

lemma lt_of_mem_notesSheet {cell : (Nat × Nat) × Content} (h : cell ∈ notesSheet rows) :
    cell.1.1 < rows.length + 1 ∧ cell.1.2 < 2 := by
  rw [mem_notesSheet, mem_notesHeader] at h
  rcases h with (rfl | rfl) | ⟨row, note, hnote, hcell⟩
  · exact ⟨by simp, by simp⟩
  · exact ⟨by simp, by simp⟩
  · have hlt := (List.getElem?_eq_some_iff.mp hnote).1
    rcases hcell with rfl | rfl
    · exact ⟨by simpa using hlt, by simp⟩
    · exact ⟨by simpa using hlt, by simp⟩

lemma usedRows_notesSheet (hne : rows ≠ []) : (notesSheet rows).usedRows = rows.length + 1 := by
  have hlength : 0 < rows.length := List.length_pos_iff.mpr hne
  have hlast : rows[rows.length - 1]? = some (rows.getLast hne) := by
    rw [List.getLast_eq_getElem, List.getElem?_eq_getElem]
  apply usedRows_eq (fun cell hcell => (lt_of_mem_notesSheet hcell).1)
    (mem_notesSheet.mpr (.inr ⟨rows.length - 1, _, hlast, .inl rfl⟩))
  dsimp only
  omega

lemma usedColumns_notesSheet : (notesSheet rows).usedColumns = 2 :=
  usedColumns_eq (fun _ hcell => (lt_of_mem_notesSheet hcell).2)
    (mem_notesSheet.mpr (.inl (mem_notesHeader.mpr (.inr rfl)))) rfl

/-- A search over the places of a list is one over the list. -/
lemma findSome?_range {α β : Type} {f : α → Option β} {xs : List α} {g : Nat → Option β}
    (h : ∀ i x, xs[i]? = some x → g i = f x) :
    (List.range xs.length).findSome? g = xs.findSome? f := by
  induction xs generalizing g with
  | nil => rfl
  | cons x xs ih =>
    have hrest : (List.range xs.length).findSome? (g ∘ Nat.succ) = xs.findSome? f :=
      ih fun i y hy => h (i + 1) y hy
    rw [List.length_cons, List.range_succ_eq_map, List.findSome?_cons, List.findSome?_cons,
      h 0 x rfl, List.findSome?_map, hrest]

/-- A note is found by its key. -/
lemma noteAt_notesSheet (hne : rows ≠ []) {key : String} (hkey : key ≠ "项目") :
    noteAt (notesSheet rows) key =
      rows.findSome? fun note => if note.1 = key then some note.2 else none := by
  unfold noteAt
  rw [usedRows_notesSheet hne, List.range_succ_eq_map, List.findSome?_cons, notesSheet_header,
    if_neg (by simpa using hkey.symm)]
  dsimp only
  rw [List.findSome?_map]
  apply findSome?_range
  intro row note hnote
  change (if (notesSheet rows).string? (row + 1) 0 = some key then
    (notesSheet rows).string? (row + 1) 1 else none) = _
  rw [notesSheet_key hnote, notesSheet_value hnote]
  simp only [Option.some.injEq]

end Notes

/-! ### The keys of the notes -/

instance : DecidablePred IsLetter := fun _ => inferInstanceAs (Decidable (_ ∧ _))

lemma takeWhile_split {p : Char → Bool} {cs : List Char} (h : ∀ c ∈ cs, p c = true) {c : Char}
    (hc : p c = false) (rest : List Char) :
    (cs ++ c :: rest).takeWhile p = cs ∧ (cs ++ c :: rest).dropWhile p = c :: rest := by
  rw [List.takeWhile_append_of_pos h, List.dropWhile_append_of_pos h]
  simp [hc]

lemma toList_noteKey (row col : Nat) (column : String) :
    (noteKey row col column).toList =
      letters (col + 1) ++ (Nat.toDigits 10 (row + 1) ++ ' ' :: '·' :: ' ' :: column.toList) := by
  unfold noteKey reference columnName
  rw [String.toList_append, String.toList_append, String.toList_ofList]
  simp

/-- The key of a note names the cell. -/
lemma noteKey_injective {row col row' col' : Nat} {column column' : String}
    (h : noteKey row col column = noteKey row' col' column') : row = row' ∧ col = col' := by
  have hletter : ∀ n, ∀ c ∈ letters (n + 1), decide (IsLetter c) = true :=
    fun n c hc => decide_eq_true (isLetter_letters (n + 1) c hc)
  have hdigit : ∀ n, ∃ c cs, Nat.toDigits 10 (n + 1) = c :: cs ∧ decide (IsLetter c) = false := by
    intro n
    obtain ⟨c, cs, hcs⟩ := List.exists_cons_of_ne_nil (Nat.toDigits_ne_nil (n := n + 1))
    have hc := allDigits_toDigits (n + 1) c (by rw [hcs]; exact List.mem_cons_self)
    rw [Char.isDigit_iff_toNat] at hc
    change 48 ≤ c.toNat ∧ c.toNat ≤ 57 at hc
    refine ⟨c, cs, hcs, decide_eq_false ?_⟩
    unfold IsLetter
    omega
  have hlist := congrArg String.toList h
  rw [toList_noteKey, toList_noteKey] at hlist
  obtain ⟨c, cs, hcs, hc⟩ := hdigit row
  obtain ⟨c', cs', hcs', hc'⟩ := hdigit row'
  rw [hcs, hcs', List.cons_append, List.cons_append] at hlist
  have hsplit := takeWhile_split (hletter col) hc (cs ++ ' ' :: '·' :: ' ' :: column.toList)
  have hsplit' := takeWhile_split (hletter col') hc' (cs' ++ ' ' :: '·' :: ' ' :: column'.toList)
  have hcol : letters (col + 1) = letters (col' + 1) := by
    rw [← hsplit.1, hlist, hsplit'.1]
  have hrest : Nat.toDigits 10 (row + 1) ++ ' ' :: '·' :: ' ' :: column.toList =
      Nat.toDigits 10 (row' + 1) ++ ' ' :: '·' :: ' ' :: column'.toList := by
    rw [hcs, hcs', List.cons_append, List.cons_append, ← hsplit.2, hlist, hsplit'.2]
  have hspace : (' ').isDigit = false := rfl
  have hrow : Nat.toDigits 10 (row + 1) = Nat.toDigits 10 (row' + 1) := by
    rw [← (takeWhile_split (allDigits_toDigits (row + 1)) hspace ('·' :: ' ' :: column.toList)).1,
      hrest, (takeWhile_split (allDigits_toDigits (row' + 1)) hspace _).1]
  have hcolumn := letters_injective hcol
  have hvalue := congrArg digitsValue hrow
  rw [digitsValue_toDigits, digitsValue_toDigits] at hvalue
  omega

/-- A key that does not start with the name of a cell. -/
def NoCell (key : String) : Prop := ∀ c ∈ key.toList.head?, ¬IsLetter c

instance (key : String) : Decidable (NoCell key) :=
  decidable_of_iff (key.toList.head?.all fun c => !decide (IsLetter c)) (by
    simp [NoCell, Option.all_eq_true])

lemma noCell_append {key : String} (h : key.toList ≠ []) (hkey : NoCell key) (rest : String) :
    NoCell (key ++ rest) := by
  intro c hc
  rw [String.toList_append, List.head?_append_of_ne_nil _ h] at hc
  exact hkey c hc

lemma not_noCell_noteKey (row col : Nat) (column : String) : ¬NoCell (noteKey row col column) := by
  intro h
  have hne : letters (col + 1) ≠ [] := by
    rw [letters_succ]
    simp
  obtain ⟨c, cs, hcs⟩ := List.exists_cons_of_ne_nil hne
  have hletter := isLetter_letters (col + 1) c (by rw [hcs]; exact List.mem_cons_self)
  refine h c ?_ hletter
  rw [toList_noteKey, hcs]
  rfl

/-! ### The lines in front of those on cells -/

lemma mem_toList_map {o : Option String} {f : String → NoteRow} {note : NoteRow}
    (h : note ∈ (o.map f).toList) : ∃ s, note = f s := by
  cases o with
  | none => cases h
  | some s => exact ⟨s, by simpa using h⟩

lemma noCell_scopeNote {key : String} {items : List String} {note : NoteRow}
    (h : note ∈ scopeNote key items) : NoCell note.1 := by
  unfold scopeNote at h
  split at h
  · cases h
  · rw [List.mem_singleton.mp h]
    exact noCell_append (by decide) (by decide : NoCell "查询范围 · ") key

lemma noCell_columnNotes {index : Nat} {column : MetadataColumn} {note : NoteRow}
    (h : note ∈ columnNotes index column) : NoCell note.1 := by
  unfold columnNotes at h
  rcases List.mem_append.mp h with h | h
  · obtain ⟨s, rfl⟩ := mem_toList_map h
    exact noCell_append (by decide) (by decide : NoCell "指标定义 · ") _
  · obtain ⟨s, rfl⟩ := mem_toList_map h
    exact noCell_append (by decide) (by decide : NoCell "单位 · ") _

lemma noCell_metadataNotes {metadata : Option ResultMetadata} {note : NoteRow}
    (h : note ∈ metadataNotes metadata) : NoCell note.1 := by
  cases metadata with
  | none =>
    rw [List.mem_singleton.mp h]
    change NoCell "结果说明"
    decide
  | some metadata =>
    unfold metadataNotes at h
    simp only [List.mem_append] at h
    rcases h with (((h | h) | h) | h) | h
    · obtain ⟨column, -, hnote⟩ := List.mem_flatMap.mp h
      exact noCell_columnNotes hnote
    · obtain ⟨time, -, rfl⟩ := Option.map_eq_some_iff.mp (Option.mem_toList.mp h)
      change NoCell "查询范围 · time"
      decide
    · exact noCell_scopeNote h
    · exact noCell_scopeNote h
    · exact noCell_scopeNote h

lemma noCell_generalNotes {source : Source} {note : NoteRow} (h : note ∈ generalNotes source) :
    NoCell note.1 := by
  unfold generalNotes at h
  simp only [List.mem_append, List.mem_cons, List.not_mem_nil, or_false] at h
  rcases h with (((rfl | rfl) | h) | rfl | rfl | rfl | rfl) | h
  · change NoCell "来源问题"
    decide
  · change NoCell "结果时间"
    decide
  · obtain ⟨s, rfl⟩ := mem_toList_map h
    change NoCell "成果保存时间"
    decide
  · change NoCell "导出时间"
    decide
  · change NoCell "展示行数"
    decide
  · change NoCell "结果行数"
    decide
  · change NoCell "数据截断"
    decide
  · exact noCell_metadataNotes h

/-- A line of the notes is on a cell, or its key names none. -/
lemma mem_noteRows {source : Source} {markers : List NoteRow} {note : NoteRow}
    (h : note ∈ noteRows source markers) : NoCell note.1 ∨ note ∈ markers := by
  unfold noteRows at h
  simp only [List.mem_append] at h
  rcases h with ((h | h) | h) | h
  · exact .inl (noCell_generalNotes h)
  · left
    split at h
    · rw [List.mem_singleton.mp h]
      change NoCell "截断提示"
      decide
    · cases h
  · left
    split at h
    · cases h
    · rw [List.mem_singleton.mp h]
      change NoCell "特殊单元格"
      decide
  · exact .inr h

lemma markers_subset (source : Source) (markers : List NoteRow) :
    markers ⊆ noteRows source markers := fun _ h => List.mem_append_right _ h

lemma noteRows_ne_nil (source : Source) (markers : List NoteRow) :
    noteRows source markers ≠ [] := by
  simp [noteRows, generalNotes]

/-! ### The notes on cells -/

section Values

variable {source : Source}

/-- The value of every cell is written. -/
lemma Exportable.encodes (h : Exportable source) {row col : Nat} {value : Scalar}
    (hvalue : source.value? row col = some value) : ∃ encoded, Encodes value encoded := by
  obtain ⟨values, hvalues, hcol⟩ := Option.bind_eq_some_iff.mp hvalue
  have hrow := List.mem_of_getElem? hvalues
  have hmem := List.mem_of_getElem? hcol
  cases value with
  | null => exact encodes_null
  | bool b => exact encodes_bool b
  | int n => exact encodes_int (h.integers values hrow n hmem)
  | float x => exact encodes_float x
  | str s => exact encodes_str (h.texts values hrow s hmem)

lemma Exportable.bounds (h : Exportable source) {row col : Nat} {value : Scalar}
    (hvalue : source.value? row col = some value) :
    row < source.rows.length ∧ col < source.columns.length := by
  obtain ⟨values, hvalues, hcol⟩ := Option.bind_eq_some_iff.mp hvalue
  have hlength := h.rectangular values (List.mem_of_getElem? hvalues)
  have hlt := (List.getElem?_eq_some_iff.mp hcol).1
  exact ⟨(List.getElem?_eq_some_iff.mp hvalues).1, by omega⟩

/-- The notes on cells are those on the values that need one. -/
lemma mem_markers (h : Exportable source) {note : NoteRow} : note ∈ markers source ↔
    ∃ row col value encoded, source.value? row col = some value ∧ Encodes value encoded ∧
      isSpecial encoded.jsonType value ∧ note = markerRow source.columns (row + 1) col encoded := by
  unfold markers
  rw [List.mem_flatMap]
  constructor
  · rintro ⟨⟨⟨row', col⟩, value⟩, hcell, hnote⟩
    obtain ⟨row, hrow, hplace⟩ := mem_cells.mp hcell
    have hvalue : source.value? row col = some value := hplace
    obtain ⟨encoded, hencodes⟩ := h.encodes hvalue
    unfold cellMarkers at hnote
    simp only [hencodes.format] at hnote
    split at hnote
    · rename_i hspecial
      refine ⟨row, col, value, encoded, hvalue, hencodes, hspecial, ?_⟩
      dsimp only at hrow
      rw [List.mem_singleton.mp hnote, hrow]
    · cases hnote
  · rintro ⟨row, col, value, encoded, hvalue, hencodes, hspecial, rfl⟩
    refine ⟨((row + 1, col), value), mem_cells.mpr ⟨row, rfl, hvalue⟩, ?_⟩
    unfold cellMarkers
    simp only [hencodes.format, if_pos hspecial]
    exact List.mem_cons_self

/-- The note that is found for a value is the one on it. -/
lemma findSome?_markers (h : Exportable source) {row col : Nat} {value : Scalar} {encoded : Encoded}
    (hvalue : source.value? row col = some value) (hencodes : Encodes value encoded) :
    ((noteRows source (markers source)).findSome? fun note =>
      if note.1 = noteKey (row + 1) col (source.columns.getD col "") then some note.2 else none) =
      if isSpecial encoded.jsonType value then
        some (encoded.jsonType.value ++ " · " ++ encoded.original)
      else none := by
  -- a line with the key of the cell is on its value
  have hline : ∀ note ∈ noteRows source (markers source),
      note.1 = noteKey (row + 1) col (source.columns.getD col "") →
        isSpecial encoded.jsonType value ∧
          note.2 = encoded.jsonType.value ++ " · " ++ encoded.original := by
    intro note hnote hkey
    rcases mem_noteRows hnote with hnocell | hmarker
    · rw [hkey] at hnocell
      exact absurd hnocell (not_noCell_noteKey _ _ _)
    · obtain ⟨row', col', value', encoded', hvalue', hencodes', hspecial, rfl⟩ :=
        (mem_markers h).mp hmarker
      obtain ⟨hrow, rfl⟩ := noteKey_injective hkey
      have hrow' : row' = row := by omega
      subst hrow'
      have hsame : value' = value := Option.some.inj (hvalue'.symm.trans hvalue)
      subst hsame
      have hformat : encoded' = encoded := by
        have := hencodes'.format.symm.trans hencodes.format
        exact Except.ok.inj this
      subst hformat
      exact ⟨hspecial, rfl⟩
  by_cases hspecial : isSpecial encoded.jsonType value
  · rw [if_pos hspecial]
    have hmem : markerRow source.columns (row + 1) col encoded ∈
        noteRows source (markers source) := markers_subset source _
      ((mem_markers h).mpr ⟨row, col, value, encoded, hvalue, hencodes, hspecial, rfl⟩)
    cases hfind : (noteRows source (markers source)).findSome? fun note =>
        if note.1 = noteKey (row + 1) col (source.columns.getD col "") then some note.2
        else none with
    | none =>
      rw [List.findSome?_eq_none_iff] at hfind
      have hnot := hfind _ hmem
      have hkey : (markerRow source.columns (row + 1) col encoded).1 =
          noteKey (row + 1) col (source.columns.getD col "") := rfl
      rw [if_pos hkey] at hnot
      cases hnot
    | some found =>
      obtain ⟨note, hnote, hfound⟩ := List.exists_of_findSome?_eq_some hfind
      split at hfound
      · rename_i hkey
        rw [← hfound, (hline note hnote hkey).2]
      · cases hfound
  · rw [if_neg hspecial, List.findSome?_eq_none_iff]
    intro note hnote
    rw [if_neg]
    intro hkey
    exact hspecial (hline note hnote hkey).1

/-! ### The table -/

/-- The first sheet. -/
def dataSheet (source : Source) : Sheet :=
  headerCells source.columns ++ (cells source.rows).flatMap dataCells

lemma mem_headerCells {columns : List String} {cell : (Nat × Nat) × Content} :
    cell ∈ headerCells columns ↔
      ∃ col name, columns[col]? = some name ∧ cell = ((0, col), .string name) := by
  unfold headerCells
  rw [List.mem_map]
  constructor
  · rintro ⟨⟨name, col⟩, hname, rfl⟩
    exact ⟨col, name, List.mem_zipIdx_iff_getElem?.mp hname, rfl⟩
  · rintro ⟨col, name, hname, rfl⟩
    exact ⟨(name, col), List.mem_zipIdx_iff_getElem?.mpr hname, rfl⟩

lemma mem_dataSheet (h : Exportable source) {cell : (Nat × Nat) × Content} :
    cell ∈ dataSheet source ↔
      (∃ col name, source.columns[col]? = some name ∧ cell = ((0, col), .string name)) ∨
      ∃ row col value encoded, source.value? row col = some value ∧ Encodes value encoded ∧
        cell = ((row + 1, col), encoded.content) := by
  unfold dataSheet
  rw [List.mem_append, mem_headerCells, List.mem_flatMap]
  apply or_congr Iff.rfl
  constructor
  · rintro ⟨⟨⟨row', col⟩, value⟩, hcell, hmem⟩
    obtain ⟨row, hrow, hplace⟩ := mem_cells.mp hcell
    have hvalue : source.value? row col = some value := hplace
    obtain ⟨encoded, hencodes⟩ := h.encodes hvalue
    unfold dataCells at hmem
    simp only [hencodes.format, List.mem_singleton] at hmem
    dsimp only at hrow
    exact ⟨row, col, value, encoded, hvalue, hencodes, by rw [hmem, hrow]⟩
  · rintro ⟨row, col, value, encoded, hvalue, hencodes, rfl⟩
    refine ⟨((row + 1, col), value), mem_cells.mpr ⟨row, rfl, hvalue⟩, ?_⟩
    unfold dataCells
    simp only [hencodes.format]
    exact List.mem_cons_self

lemma dataSheet_distinct (h : Exportable source) : (dataSheet source).Distinct := by
  intro cell hcell cell' hcell' hplace
  rw [mem_dataSheet h] at hcell hcell'
  rcases hcell with ⟨col, name, hname, rfl⟩ | ⟨row, col, value, encoded, hvalue, hencodes, rfl⟩
  · rcases hcell' with ⟨col', name', hname', rfl⟩ |
      ⟨row', col', value', encoded', hvalue', hencodes', rfl⟩
    · have hcol : col = col' := congrArg Prod.snd hplace
      subst hcol
      have hsame : name = name' := Option.some.inj (hname.symm.trans hname')
      rw [hsame]
    · have hrow : 0 = row' + 1 := congrArg Prod.fst hplace
      omega
  · rcases hcell' with ⟨col', name', hname', rfl⟩ |
      ⟨row', col', value', encoded', hvalue', hencodes', rfl⟩
    · have hrow : row + 1 = 0 := congrArg Prod.fst hplace
      omega
    · have hrow : row + 1 = row' + 1 := congrArg Prod.fst hplace
      have hcol : col = col' := congrArg Prod.snd hplace
      have hrow' : row = row' := by omega
      subst hrow' hcol
      have hsame : value = value' := Option.some.inj (hvalue.symm.trans hvalue')
      subst hsame
      have hformat : encoded = encoded' :=
        Except.ok.inj (hencodes.format.symm.trans hencodes'.format)
      rw [hformat]

lemma usedColumns_dataSheet (h : Exportable source) :
    (dataSheet source).usedColumns = source.columns.length := by
  have hlength : 0 < source.columns.length := List.length_pos_iff.mpr h.columns
  have hlast : source.columns[source.columns.length - 1]? =
      some (source.columns.getLast h.columns) := by
    rw [List.getLast_eq_getElem, List.getElem?_eq_getElem]
  have hsucc : source.columns.length - 1 + 1 = source.columns.length := by omega
  rw [← hsucc]
  apply usedColumns_eq _ ((mem_dataSheet h).mpr (.inl ⟨_, _, hlast, rfl⟩)) rfl
  intro cell hcell
  rcases (mem_dataSheet h).mp hcell with ⟨col, name, hname, rfl⟩ |
    ⟨row, col, value, encoded, hvalue, -, rfl⟩
  · have hlt := (List.getElem?_eq_some_iff.mp hname).1
    dsimp only
    omega
  · have hlt := (h.bounds hvalue).2
    dsimp only
    omega

lemma usedRows_dataSheet (h : Exportable source) :
    (dataSheet source).usedRows = source.rows.length + 1 := by
  have hbound : ∀ cell ∈ dataSheet source, cell.1.1 < source.rows.length + 1 := by
    intro cell hcell
    rcases (mem_dataSheet h).mp hcell with ⟨col, name, hname, rfl⟩ |
      ⟨row, col, value, encoded, hvalue, -, rfl⟩
    · exact Nat.succ_pos _
    · have hlt := (h.bounds hvalue).1
      dsimp only
      omega
  have hcolumns : 0 < source.columns.length := List.length_pos_iff.mpr h.columns
  by_cases hrows : source.rows = []
  · have hfirst : source.columns[0]? = some (source.columns[0]) := List.getElem?_eq_getElem hcolumns
    apply usedRows_eq hbound ((mem_dataSheet h).mpr (.inl ⟨_, _, hfirst, rfl⟩))
    rw [hrows]
    rfl
  · -- the last row has a value in the first column
    have hlength : 0 < source.rows.length := List.length_pos_iff.mpr hrows
    have hlast : source.rows[source.rows.length - 1]? = some (source.rows.getLast hrows) := by
      rw [List.getLast_eq_getElem, List.getElem?_eq_getElem]
    have hwidth := h.rectangular _ (List.getLast_mem hrows)
    have hvalue : source.value? (source.rows.length - 1) 0 =
        some ((source.rows.getLast hrows)[0]) := by
      unfold Source.value?
      rw [hlast, Option.bind_some, List.getElem?_eq_getElem]
    obtain ⟨encoded, hencodes⟩ := h.encodes hvalue
    apply usedRows_eq hbound ((mem_dataSheet h).mpr (.inr ⟨_, _, _, _, hvalue, hencodes, rfl⟩))
    dsimp only
    omega

/-! ### Exports -/

/-- What an XLSX file has room for. -/
structure HasRoom (source : Source) : Prop where
  columns : source.columns.length ≤ excelMaxColumns
  notes : (noteRows source (markers source)).length + 1 ≤ excelMaxRows

/-- A snapshot that the file has room for, of more than one cell with the header. -/
structure Limited (source : Source) : Prop extends HasRoom source where
  cells : source.columns.length ≠ 1 ∨ source.rows ≠ []

lemma Exportable.shaped (h : Exportable source) (hroom : HasRoom source) : source.Shaped := by
  refine ⟨h.columns, hroom.columns, h.rows, ?_, .inl h.rowCount, h.rectangular⟩
  rw [h.rowCount]

/-- The check of the sheets that are written. -/
def verifyWritten (w : Writer) (source : Source) : Except String Unit :=
  verifyWorkbook w ⟨dataSheet source, notesSheet (noteRows source (markers source))⟩
    (source.rows.length + 1) source.columns.length
    ((noteRows source (markers source)).length + 1)

/-- The dimensions of both sheets are those that are checked. -/
lemma verifyWritten_ok (w : Writer) (h : Exportable source) (hlimited : Limited source) :
    verifyWritten w source = .ok () := by
  have hnotes : 0 < (noteRows source (markers source)).length :=
    List.length_pos_iff.mpr (noteRows_ne_nil _ _)
  unfold verifyWritten verifyWorkbook
  rw [require_ok]
  unfold Writer.dimension
  dsimp only
  rw [usedRows_dataSheet h, usedColumns_dataSheet h, usedRows_notesSheet (noteRows_ne_nil _ _),
    usedColumns_notesSheet, w.column_eq, w.column_eq, columnName_two]
  have hseveral : ¬(source.rows.length + 1 = 1 ∧ source.columns.length = 1) := by
    rintro ⟨hrows, hcolumns⟩
    rcases hlimited.cells with hnot | hnot
    · exact hnot hcolumns
    · exact hnot (List.length_eq_zero_iff.mp (by omega))
  rw [if_neg hseveral, if_neg (by omega)]
  exact ⟨rfl, rfl⟩

/-- The dimension of a sheet with one cell is `A1`, and the check expects `A1:A1`. -/
lemma verifyWritten_single (w : Writer) (h : Exportable source)
    (hcolumns : source.columns.length = 1) (hrows : source.rows = []) :
    verifyWritten w source = .error "XLSX 文件完整性检查失败" := by
  have hsingle : (dataSheet source).usedRows = 1 ∧ (dataSheet source).usedColumns = 1 := by
    rw [usedRows_dataSheet h, usedColumns_dataSheet h, hrows]
    exact ⟨rfl, hcolumns⟩
  unfold verifyWritten verifyWorkbook
  rw [require, if_neg]
  rintro ⟨hdimension, -⟩
  unfold Writer.dimension at hdimension
  rw [if_pos hsingle] at hdimension
  have hlength := congrArg String.length hdimension
  rw [String.length_append] at hlength
  change 2 = 3 + _ at hlength
  omega

/-- The export writes both sheets and checks them. -/
theorem createQueryWorkbook_eq (w : Writer) (h : Exportable source) (hroom : HasRoom source) :
    createQueryWorkbook w source = (verifyWritten w source).map fun _ =>
      ⟨dataSheet source, notesSheet (noteRows source (markers source))⟩ := by
  have hheader : ∀ cell ∈ headerCells source.columns, w.status cell.1.1 cell.1.2 cell.2 = 0 := by
    intro cell hcell
    obtain ⟨col, name, hname, rfl⟩ := mem_headerCells.mp hcell
    have hlt := (List.getElem?_eq_some_iff.mp hname).1
    have hcolumns := hroom.columns
    exact w.status_eq _ _ _ (Nat.zero_lt_succ _) (by dsimp only; omega)
      (h.names name (List.mem_of_getElem? hname)).holds
  have hcells := foldlM_writeCell w source.columns (cells source.rows) (by
    rintro ⟨⟨row', col⟩, value⟩ hcell
    obtain ⟨row, hrow, hplace⟩ := mem_cells.mp hcell
    have hvalue : source.value? row col = some value := hplace
    obtain ⟨hlt, hcol⟩ := h.bounds hvalue
    have hrows := h.rows
    have hcolumns := hroom.columns
    unfold queryMaxRows at hrows
    unfold excelMaxRows
    exact ⟨h.encodes hvalue, by dsimp only at *; omega, by dsimp only; omega⟩)
    (headerCells source.columns, [])
  have hnotes := foldlM_writeNote w ((noteRows source (markers source)).zipIdx 1) (by
    rintro ⟨note, row⟩ hnote
    rw [List.mk_mem_zipIdx_iff_le_and_getElem?_sub] at hnote
    obtain ⟨hkey, hvalue⟩ := h.notes note (List.mem_of_getElem? hnote.2)
    have hlt := (List.getElem?_eq_some_iff.mp hnote.2).1
    have hlimit := hroom.notes
    exact ⟨hkey, hvalue, by dsimp only; omega⟩) notesHeader
  rw [List.nil_append] at hcells
  unfold createQueryWorkbook
  rw [require, if_pos (h.shaped hroom)]
  change (source.columns.mapM text >>= _) = _
  rw [mapM_text h.names]
  change (require _ _ >>= _) = _
  rw [require, if_pos hheader]
  change ((cells source.rows).foldlM (writeCell w source.columns) _ >>= _) = _
  rw [hcells]
  change (require ((noteRows source (markers source)).length + 1 ≤ excelMaxRows) _ >>= _) = _
  rw [require, if_pos hroom.notes]
  change (((noteRows source (markers source)).zipIdx 1).foldlM (writeNote w) _ >>= _) = _
  rw [hnotes]
  rfl

lemma noteKey_ne_header (row col : Nat) (column : String) : noteKey row col column ≠ "项目" := by
  intro h
  have hnot : NoCell "项目" := by decide
  rw [← h] at hnot
  exact not_noCell_noteKey row col column hnot

/-- Every value is read back in place. -/
theorem lossless (h : Exportable source) :
    Lossless source ⟨dataSheet source, notesSheet (noteRows source (markers source))⟩ where
  usedRows := usedRows_dataSheet h
  usedColumns := usedColumns_dataSheet h
  columns := by
    intro col name hname
    exact (dataSheet_distinct h).string? ((mem_dataSheet h).mpr (.inl ⟨col, name, hname, rfl⟩))
  values := by
    intro row col value hvalue
    obtain ⟨encoded, hencodes⟩ := h.encodes hvalue
    have hcol := (h.bounds hvalue).2
    have hname : source.columns[col]? = some (source.columns.getD col "") := by
      rw [List.getD_eq_getElem?_getD, List.getElem?_eq_getElem hcol]
      rfl
    have hheader : (dataSheet source).string? 0 col = some (source.columns.getD col "") :=
      (dataSheet_distinct h).string? ((mem_dataSheet h).mpr (.inl ⟨col, _, hname, rfl⟩))
    have hcontent : (dataSheet source).get? (row + 1) col = some encoded.content :=
      (dataSheet_distinct h).get?
        ((mem_dataSheet h).mpr (.inr ⟨row, col, value, encoded, hvalue, hencodes, rfl⟩))
    unfold restoreCell
    dsimp only
    rw [hheader, hcontent, Option.bind_some, Option.bind_some,
      noteAt_notesSheet (noteRows_ne_nil _ _) (noteKey_ne_header _ _ _),
      findSome?_markers h hvalue hencodes]
    by_cases hspecial : isSpecial encoded.jsonType value
    · rw [if_pos hspecial, hencodes.noted hspecial]
    · rw [if_neg hspecial, hencodes.unnoted hspecial]
  texts := by
    intro row col s hvalue
    obtain ⟨encoded, hencodes⟩ := h.encodes hvalue
    obtain ⟨t, ht⟩ := hencodes.text s rfl
    have hmem := (mem_dataSheet h).mpr (.inr ⟨row, col, _, encoded, hvalue, hencodes, rfl⟩)
    rw [ht] at hmem
    dsimp only
    rw [(dataSheet_distinct h).string? hmem]
    rfl
  plain := by
    intro cell hcell
    rcases List.mem_append.mp hcell with hcell | hcell
    · rcases (mem_dataSheet h).mp hcell with ⟨col, name, -, rfl⟩ |
        ⟨row, col, value, encoded, -, hencodes, rfl⟩
      · rfl
      · exact hencodes.plain
    · rcases mem_notesSheet.mp hcell with hheader | ⟨row, note, -, rfl | rfl⟩
      · rcases mem_notesHeader.mp hheader with rfl | rfl <;> rfl
      · rfl
      · rfl

/-- A snapshot that the file has room for is exported, and nothing of its table is lost. -/
theorem export_lossless (w : Writer) (source : Source) (h : Exportable source)
    (hlimited : Limited source) :
    ∃ workbook, createQueryWorkbook w source = .ok workbook ∧ Lossless source workbook := by
  refine ⟨_, ?_, lossless h⟩
  rw [createQueryWorkbook_eq w h hlimited.toHasRoom, verifyWritten_ok w h hlimited]
  rfl

/-- A snapshot of a single column without rows is refused. -/
theorem single_cell_refused (w : Writer) (source : Source) (h : Exportable source)
    (hroom : HasRoom source) (hcolumns : source.columns.length = 1) (hrows : source.rows = []) :
    createQueryWorkbook w source = .error "XLSX 文件完整性检查失败" := by
  rw [createQueryWorkbook_eq w h hroom, verifyWritten_single w h hcolumns hrows]
  rfl

end Values

instance (s : String) : Decidable (Fits s) :=
  decidable_of_iff (utf16Length s ≤ excelMaxCellChars ∧ s.toList.any isXmlControl = false)
    ⟨fun h => ⟨h.1, h.2⟩, fun h => ⟨h.length, h.controls⟩⟩

/-- A library that writes everything within the limits. -/
def plainWriter : Writer where
  status row col content :=
    match content with
    | .string s =>
      if row < excelMaxRows ∧ col < excelMaxColumns then
        if s.length ≤ excelMaxCellChars then 0 else -2
      else -1
    | _ => if row < excelMaxRows ∧ col < excelMaxColumns then 0 else -1
  column := letters
  status_eq := by
    intro row col content hrow hcol hholds
    cases content with
    | string s => exact (if_pos ⟨hrow, hcol⟩).trans (if_pos hholds)
    | number _ | boolean _ | formula _ | url _ => exact if_pos ⟨hrow, hcol⟩
  column_letters := isLetter_letters
  column_value := lettersValue_letters

/-- A snapshot of one row. -/
def oneRow (row : List Scalar) (columns : List String) : Source where
  question := some "收入 = 真实文本"
  resultTime := none
  savedTime := none
  exportTime := none
  columns := columns
  rows := [row]
  rowCount := 1
  truncated := false
  resultMetadata := none

/-- A snapshot without rows. -/
def noRows (columns : List String) : Source where
  question := none
  resultTime := none
  savedTime := none
  exportTime := none
  columns := columns
  rows := []
  rowCount := 0
  truncated := false
  resultMetadata := none

/-- `NULL`, the text of its marker and a text that looks like a formula are told apart. -/
theorem export_lossless_markers :
    ∃ workbook, createQueryWorkbook plainWriter
        (oneRow [.null, .str "〈NULL〉", .str "=1+1"] ["指标", "编号", "说明"]) = .ok workbook ∧
      Lossless (oneRow [.null, .str "〈NULL〉", .str "=1+1"] ["指标", "编号", "说明"]) workbook := by
  apply export_lossless plainWriter
  · refine ⟨by decide, by decide, rfl, by decide, ?_, by decide +kernel, ?_, by decide +kernel⟩
    · intro row hrow n hn
      rw [List.mem_singleton.mp hrow] at hn
      simp at hn
    · intro row hrow s hs
      rw [List.mem_singleton.mp hrow] at hs
      have htexts : s = "〈NULL〉" ∨ s = "=1+1" := by simpa using hs
      rcases htexts with rfl | rfl <;> decide +kernel
  · exact ⟨⟨by decide, by decide +kernel⟩, .inl (by decide)⟩

/-- A snapshot without rows whose columns fit is one that the export should write. -/
lemma exportable_noRows {columns : List String} (hne : columns ≠ [])
    (h : ∀ name ∈ columns, Fits name) : Exportable (noRows columns) where
  columns := hne
  rows := Nat.zero_le _
  rowCount := rfl
  rectangular := fun _ hrow => absurd hrow List.not_mem_nil
  integers := fun _ hrow => absurd hrow List.not_mem_nil
  names := h
  texts := fun _ hrow => absurd hrow List.not_mem_nil
  notes := by
    change ∀ note ∈ noteRows (noRows []) [], Fits note.1 ∧ Fits note.2
    decide +kernel

/-- More columns than a sheet has. -/
theorem wide_snapshot_refused :
    Exportable (noRows (List.replicate 16385 "")) ∧
      ¬∃ workbook, createQueryWorkbook plainWriter (noRows (List.replicate 16385 "")) =
          .ok workbook ∧ Lossless (noRows (List.replicate 16385 "")) workbook := by
  constructor
  · apply exportable_noRows
    · intro h
      have hlength := congrArg List.length h
      rw [List.length_replicate] at hlength
      cases hlength
    · intro name hname
      rw [List.eq_of_mem_replicate hname]
      decide
  · rintro ⟨workbook, hok, -⟩
    unfold createQueryWorkbook at hok
    rw [except_bind_ok] at hok
    obtain ⟨_, hshaped, -⟩ := hok
    have hcolumns := (require_ok.mp hshaped).2.1
    change (List.replicate 16385 "").length ≤ 16384 at hcolumns
    rw [List.length_replicate] at hcolumns
    omega

end ChatBI.Export
