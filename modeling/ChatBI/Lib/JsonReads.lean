import ChatBI.Lib.JsonSize

/-!
# Texts of JSON documents

Every text of a document has scalar values only, may be followed by anything, and is no shorter
than the compact form.
-/

namespace ChatBI.Lib

namespace JsonGrammar

open JsonDoc

/-- The scalar values that are read in front of a rest: at least a number of bytes, and any other
rest may follow them. -/
def Reads (P : List CodePoint → List CodePoint → Prop) (bytes : Nat)
    (l rest : List CodePoint) : Prop :=
  ∃ read : List Char, l = read.map .scalar ++ rest ∧ bytes ≤ Utf8.size read ∧
    ∀ rest', P (read.map .scalar ++ rest') rest'

section Strings

variable {l rest : List CodePoint} {c : CodePoint} {n : Nat} {cs : List Char}

lemma isSpace_scalar (h : IsSpace c) : ∃ e : Char, c = .scalar e := by
  rcases h with rfl | rfl | rfl | rfl <;> exact ⟨_, rfl⟩

lemma ws_reads (h : Ws l rest) : Reads Ws 0 l rest := by
  induction h with
  | nil => exact ⟨[], rfl, Nat.zero_le _, fun _ => .nil⟩
  | cons hc _ ih =>
    obtain ⟨read, rfl, -, hread⟩ := ih
    obtain ⟨e, rfl⟩ := isSpace_scalar hc
    exact ⟨e :: read, rfl, Nat.zero_le _, fun rest' => .cons hc (hread rest')⟩

lemma hexDigit?_scalar {m : Nat} (h : c.hexDigit? = some m) : ∃ e : Char, c = .scalar e := by
  cases c with
  | scalar e => exact ⟨e, rfl⟩
  | surrogate _ => cases h

/-- The six characters of a Unicode escape. -/
lemma unicode_reads (h : Unicode l n rest) : ∃ read : List Char,
    l = read.map .scalar ++ rest ∧ 6 ≤ Utf8.size read ∧
      ∀ rest', Unicode (read.map .scalar ++ rest') n rest' := by
  obtain ⟨c₁, c₂, c₃, c₄, n₁, n₂, n₃, n₄, rfl, h₁, h₂, h₃, h₄, hn⟩ := h
  obtain ⟨e₁, rfl⟩ := hexDigit?_scalar h₁
  obtain ⟨e₂, rfl⟩ := hexDigit?_scalar h₂
  obtain ⟨e₃, rfl⟩ := hexDigit?_scalar h₃
  obtain ⟨e₄, rfl⟩ := hexDigit?_scalar h₄
  refine ⟨['\\', 'u', e₁, e₂, e₃, e₄], rfl, ?_, ?_⟩
  · have hpos : ∀ e : Char, 1 ≤ e.utf8Size := Char.utf8Size_pos
    have hp₁ := hpos e₁
    have hp₂ := hpos e₂
    have hp₃ := hpos e₃
    have hp₄ := hpos e₄
    have hslash : Char.utf8Size '\\' = 1 := by decide
    have hu : Char.utf8Size 'u' = 1 := by decide
    simp only [Utf8.size_cons, Utf8.size_nil, hslash, hu]
    omega
  · intro rest'
    exact ⟨_, _, _, _, n₁, n₂, n₃, n₄, rfl, h₁, h₂, h₃, h₄, hn⟩

lemma utf8Size_le (e : Char) : e.utf8Size ≤ 4 := Char.utf8Size_le_four e

/-- An escaped character has at most six bytes. -/
lemma charBytes_le (e : Char) : charBytes e ≤ 6 := by
  have hle := utf8Size_le e
  unfold charBytes escapeChar
  repeat' split
  all_goals first
    | decide
    | skip
  · next hcontrol =>
    have hdigit : ∀ m < 16, (hexDigit m).utf8Size = 1 := by decide
    have hhigh := hdigit (e.toNat / 16) (by omega)
    have hlow := hdigit (e.toNat % 16) (by omega)
    simp only [Utf8.size_cons, Utf8.size_nil, hhigh, hlow]
    decide
  · simp only [Utf8.size_cons, Utf8.size_nil]
    omega

/-- A character that needs no escape. -/
lemma charBytes_plain {e : Char} (hcontrol : 0x20 ≤ e.toNat) (hquote : e ≠ '"')
    (hslash : e ≠ '\\') : charBytes e = e.utf8Size := by
  have hne : ∀ f : Char, f.toNat < 0x20 → e ≠ f := by
    rintro f hf rfl
    omega
  unfold charBytes escapeChar
  rw [if_neg hquote, if_neg hslash, if_neg (hne _ (by decide)), if_neg (hne _ (by decide)),
    if_neg (hne _ (by decide)), if_neg (hne _ (by decide)), if_neg (hne _ (by decide)),
    if_neg (by omega)]
  rfl

lemma charBytes_escape {e f : Char} (h : Escape e f) : charBytes f ≤ 2 ∧ e.utf8Size = 1 := by
  cases h <;> decide

/-- The text of a string with its closing quotation mark. -/
lemma stringBody_reads (h : StringBody l cs rest) :
    Reads (fun l rest => StringBody l cs rest) (textBytes cs + 1) l rest := by
  induction h with
  | close => exact ⟨['"'], rfl, by decide, fun _ => .close⟩
  | @unescaped e l cs rest hcontrol hquote hslash _ ih =>
    obtain ⟨read, rfl, hbytes, hread⟩ := ih
    refine ⟨e :: read, rfl, ?_, fun rest' => .unescaped hcontrol hquote hslash (hread rest')⟩
    have hsize : textBytes (e :: cs) = charBytes e + textBytes cs := rfl
    rw [hsize, Utf8.size_cons, charBytes_plain hcontrol hquote hslash]
    omega
  | @escaped e f l cs rest he _ ih =>
    obtain ⟨read, rfl, hbytes, hread⟩ := ih
    refine ⟨'\\' :: e :: read, rfl, ?_, fun rest' => .escaped he (hread rest')⟩
    obtain ⟨hle, hone⟩ := charBytes_escape he
    have hslash : Char.utf8Size '\\' = 1 := by decide
    have hsize : textBytes (f :: cs) = charBytes f + textBytes cs := rfl
    rw [hsize, Utf8.size_cons, Utf8.size_cons, hslash, hone]
    omega
  | @unicode text n l cs rest hn hscalar _ ih =>
    obtain ⟨read, rfl, hbytes, hread⟩ := ih
    obtain ⟨six, hsix, hlength, hunicode⟩ := unicode_reads hn
    have hle := charBytes_le (Char.ofNat n)
    have hsize : textBytes (Char.ofNat n :: cs) = charBytes (Char.ofNat n) + textBytes cs := rfl
    refine ⟨six ++ read, by simp [hsix], ?_, fun rest' => ?_⟩
    · rw [hsize, Utf8.size_append]
      omega
    · rw [List.map_append, List.append_assoc]
      exact .unicode (hunicode _) hscalar (hread rest')
  | @pair text high more low l cs rest hhigh hlow hh hl _ ih =>
    obtain ⟨read, rfl, hbytes, hread⟩ := ih
    obtain ⟨six', hsix', hlength', hunicode'⟩ := unicode_reads hlow
    obtain ⟨six, hsix, hlength, hunicode⟩ := unicode_reads hhigh
    have hle := charBytes_le (Char.ofNat (0x10000 + (high - 0xD800) * 1024 + (low - 0xDC00)))
    have hsize : textBytes (Char.ofNat (0x10000 + (high - 0xD800) * 1024 + (low - 0xDC00)) :: cs) =
      charBytes (Char.ofNat (0x10000 + (high - 0xD800) * 1024 + (low - 0xDC00))) + textBytes cs := rfl
    refine ⟨six ++ (six' ++ read), by simp [hsix, hsix'], ?_, fun rest' => ?_⟩
    · rw [hsize, Utf8.size_append, Utf8.size_append]
      omega
    · rw [List.map_append, List.map_append, List.append_assoc, List.append_assoc]
      exact .pair (hunicode _) (hunicode' _) hh hl (hread rest')

end Strings

section Values

/-- A text that is read as it is. -/
lemma reads_literal {P : List CodePoint → List CodePoint → Prop} {rest : List CodePoint}
    (read : List Char) (h : ∀ rest', P (read.map .scalar ++ rest') rest') :
    Reads P (Utf8.size read) (read.map .scalar ++ rest) rest :=
  ⟨read, rfl, Nat.le_refl _, h⟩

lemma size_lexemeChars {lexeme : List CodePoint} (h : Number lexeme) {rest : List CodePoint} :
    Reads (fun l rest => Value l (.number lexeme) rest) (Utf8.size (lexemeChars lexeme))
      (lexeme ++ rest) rest := by
  have hread := map_lexemeChars h
  refine ⟨lexemeChars lexeme, by rw [hread], Nat.le_refl _, fun rest' => ?_⟩
  rw [hread]
  exact .number h

mutual

theorem value_reads : ∀ (v : JsonDoc) (l rest : List CodePoint), Value l v rest →
    Reads (fun l rest => Value l v rest) (Utf8.size (dumps v)) l rest
  | .null, _, _, h => by
    cases h with
    | null => exact reads_literal "null".toList fun _ => .null
  | .bool true, _, _, h => by
    cases h with
    | true => exact reads_literal "true".toList fun _ => .true
  | .bool false, _, _, h => by
    cases h with
    | false => exact reads_literal "false".toList fun _ => .false
  | .number lexeme, _, _, h => by
    cases h with
    | number hn =>
      rw [dumps]
      exact size_lexemeChars hn
  | .str s, _, _, h => by
    generalize hv : JsonDoc.str s = v at h
    cases h with
    | @string l cs rest hbody =>
      cases hv
      obtain ⟨read, rfl, hbytes, hread⟩ := stringBody_reads hbody
      refine ⟨'"' :: read, rfl, ?_, fun rest' => .string (hread rest')⟩
      have hquote : Char.utf8Size '"' = 1 := by decide
      rw [size_dumps_str, String.toList_ofList, Utf8.size_cons, hquote]
      omega
    | _ => cases hv
  | .arr items, _, rest, h => by
    have hopen : Char.utf8Size '[' = 1 := by decide
    have hclose : Char.utf8Size ']' = 1 := by decide
    cases h with
    | emptyArray hws =>
      obtain ⟨read, rfl, -, hread⟩ := ws_reads hws
      refine ⟨'[' :: (read ++ [']']), by simp, ?_, fun rest' => ?_⟩
      · rw [size_dumps_arr, Utf8.size_cons, Utf8.size_append, Utf8.size_cons, hopen, hclose]
        simp only [List.map_nil, List.sum_nil, List.length_nil]
        omega
      · simpa using Value.emptyArray (hread (.scalar ']' :: rest'))
    | array hitems =>
      obtain ⟨read, rfl, hbytes, hread⟩ := items_reads items _ _ hitems
      refine ⟨'[' :: read, rfl, ?_, fun rest' => .array (hread rest')⟩
      rw [dumps, List.cons_append, Utf8.size_cons, Utf8.size_cons, Utf8.size_append,
        Utf8.size_cons, Utf8.size_nil, hopen, hclose]
      omega
  | .obj members, _, rest, h => by
    have hopen : Char.utf8Size '{' = 1 := by decide
    have hclose : Char.utf8Size '}' = 1 := by decide
    cases h with
    | emptyObject hws =>
      obtain ⟨read, rfl, -, hread⟩ := ws_reads hws
      refine ⟨'{' :: (read ++ ['}']), by simp, ?_, fun rest' => ?_⟩
      · rw [size_dumps_obj, Utf8.size_cons, Utf8.size_append, Utf8.size_cons, hopen, hclose]
        simp only [List.map_nil, List.sum_nil, List.length_nil]
        omega
      · simpa using Value.emptyObject (hread (.scalar '}' :: rest'))
    | object hmembers =>
      obtain ⟨read, rfl, hbytes, hread⟩ := members_reads members _ _ hmembers
      refine ⟨'{' :: read, rfl, ?_, fun rest' => .object (hread rest')⟩
      rw [dumps, List.cons_append, Utf8.size_cons, Utf8.size_cons, Utf8.size_append,
        Utf8.size_cons, Utf8.size_nil, hopen, hclose]
      omega

theorem items_reads : ∀ (items : List JsonDoc) (l rest : List CodePoint), Items l items rest →
    Reads (fun l rest => Items l items rest) (Utf8.size (dumpItems items) + 1) l rest
  | [], _, _, h => by cases h
  | v :: items, _, _, h => by
    have hclose : Char.utf8Size ']' = 1 := by decide
    have hcomma : Char.utf8Size ',' = 1 := by decide
    cases h with
    | last hl hv hr =>
      obtain ⟨r₁, rfl, -, h₁⟩ := ws_reads hl
      obtain ⟨r₂, rfl, hbytes, h₂⟩ := value_reads v _ _ hv
      obtain ⟨r₃, rfl, -, h₃⟩ := ws_reads hr
      refine ⟨r₁ ++ (r₂ ++ (r₃ ++ [']'])), by simp, ?_, fun rest' => ?_⟩
      · rw [dumpItems]
        simp only [Utf8.size_append, Utf8.size_cons, Utf8.size_nil, hclose]
        omega
      · simpa using Items.last (h₁ _) (h₂ _) (h₃ (.scalar ']' :: rest'))
    | @cons _ _ _ _ _ _ _ hl hv hr hrest =>
      obtain ⟨r₄, rfl, hmore, h₄⟩ := items_reads items _ _ hrest
      obtain ⟨r₁, rfl, -, h₁⟩ := ws_reads hl
      obtain ⟨r₂, rfl, hbytes, h₂⟩ := value_reads v _ _ hv
      obtain ⟨r₃, rfl, -, h₃⟩ := ws_reads hr
      refine ⟨r₁ ++ (r₂ ++ (r₃ ++ ',' :: r₄)), by simp, ?_, fun rest' => ?_⟩
      · rw [size_dumpItems] at hmore ⊢
        simp only [List.map_cons, List.sum_cons, List.length_cons, Utf8.size_append, Utf8.size_cons,
          hcomma] at hmore ⊢
        omega
      · simpa using Items.cons (h₁ _) (h₂ _) (h₃ _) (h₄ rest')

theorem members_reads : ∀ (members : List (String × JsonDoc)) (l rest : List CodePoint),
    Members l members rest →
      Reads (fun l rest => Members l members rest) (Utf8.size (dumpMembers members) + 1) l rest
  | [], _, _, h => by cases h
  | (k, v) :: members, _, _, h => by
    have hclose : Char.utf8Size '}' = 1 := by decide
    have hcomma : Char.utf8Size ',' = 1 := by decide
    have hcolon : Char.utf8Size ':' = 1 := by decide
    have hquote : Char.utf8Size '"' = 1 := by decide
    generalize hm : (k, v) :: members = ms at h
    cases h with
    | last hl hk hc hs hv hr =>
      cases hm
      obtain ⟨r₁, rfl, -, h₁⟩ := ws_reads hl
      obtain ⟨r₂, rfl, hkey, h₂⟩ := stringBody_reads hk
      obtain ⟨r₃, rfl, -, h₃⟩ := ws_reads hc
      obtain ⟨r₄, rfl, -, h₄⟩ := ws_reads hs
      obtain ⟨r₅, rfl, hbytes, h₅⟩ := value_reads v _ _ hv
      obtain ⟨r₆, rfl, -, h₆⟩ := ws_reads hr
      refine ⟨r₁ ++ '"' :: (r₂ ++ (r₃ ++ ':' :: (r₄ ++ (r₅ ++ (r₆ ++ ['}']))))), by simp, ?_,
        fun rest' => ?_⟩
      · rw [dumpMembers]
        simp only [Utf8.size_append, Utf8.size_cons, Utf8.size_nil, size_dumpString,
          String.toList_ofList, hclose, hcolon, hquote]
        omega
      · simpa using Members.last (h₁ _) (h₂ _) (h₃ _) (h₄ _) (h₅ _) (h₆ (.scalar '}' :: rest'))
    | cons hl hk hc hs hv hr hrest =>
      cases hm
      obtain ⟨r₇, rfl, hmore, h₇⟩ := members_reads members _ _ hrest
      obtain ⟨r₁, rfl, -, h₁⟩ := ws_reads hl
      obtain ⟨r₂, rfl, hkey, h₂⟩ := stringBody_reads hk
      obtain ⟨r₃, rfl, -, h₃⟩ := ws_reads hc
      obtain ⟨r₄, rfl, -, h₄⟩ := ws_reads hs
      obtain ⟨r₅, rfl, hbytes, h₅⟩ := value_reads v _ _ hv
      obtain ⟨r₆, rfl, -, h₆⟩ := ws_reads hr
      refine ⟨r₁ ++ '"' :: (r₂ ++ (r₃ ++ ':' :: (r₄ ++ (r₅ ++ (r₆ ++ ',' :: r₇))))), by simp, ?_,
        fun rest' => ?_⟩
      · rw [size_dumpMembers] at hmore ⊢
        simp only [List.map_cons, List.sum_cons, List.length_cons, memberBytes,
          String.toList_ofList, Utf8.size_append, Utf8.size_cons, hcomma, hcolon, hquote] at hmore ⊢
        omega
      · simpa using Members.cons (h₁ _) (h₂ _) (h₃ _) (h₄ _) (h₅ _) (h₆ _) (h₇ rest')

end

lemma ws_of_forall {before : List CodePoint} (h : ∀ c ∈ before, IsSpace c) (l : List CodePoint) :
    Ws (before ++ l) l := by
  induction before with
  | nil => exact .nil
  | cons c before ih =>
    exact .cons (h c List.mem_cons_self) (ih fun c' hc' => h c' (List.mem_cons_of_mem c hc'))

lemma Ws.trans {l l₁ l₂ : List CodePoint} (h : Ws l l₁) (h' : Ws l₁ l₂) : Ws l l₂ := by
  induction h with
  | nil => exact h'
  | cons hc _ ih => exact .cons hc (ih h')

/-- A text of a document has scalar values only, and at least the bytes of the compact form. -/
theorem document_reads {text : List CodePoint} {v : JsonDoc} (h : Document text v) :
    ∃ chars : List Char, text = chars.map .scalar ∧ Utf8.size (dumps v) ≤ Utf8.size chars := by
  obtain ⟨l, rest, hl, hv, hrest⟩ := h
  obtain ⟨r₁, rfl, -, -⟩ := ws_reads hl
  obtain ⟨r₂, rfl, hbytes, -⟩ := value_reads v _ _ hv
  obtain ⟨r₃, rfl, -, -⟩ := ws_reads hrest
  refine ⟨r₁ ++ (r₂ ++ r₃), by simp, ?_⟩
  rw [Utf8.size_append, Utf8.size_append]
  omega

/-- Spaces may surround a text of a document. -/
theorem document_surround {before text after : List CodePoint} {v : JsonDoc}
    (hbefore : ∀ c ∈ before, IsSpace c) (hafter : ∀ c ∈ after, IsSpace c) (h : Document text v) :
    Document (before ++ (text ++ after)) v := by
  obtain ⟨l, rest, hl, hv, hrest⟩ := h
  obtain ⟨r₁, rfl, -, h₁⟩ := ws_reads hl
  obtain ⟨r₂, rfl, -, h₂⟩ := value_reads v _ _ hv
  obtain ⟨r₃, rfl, -, h₃⟩ := ws_reads hrest
  refine ⟨r₂.map .scalar ++ (r₃.map .scalar ++ after), r₃.map .scalar ++ after, ?_, h₂ _, ?_⟩
  · have hstart := (ws_of_forall hbefore _).trans (h₁ (r₂.map .scalar ++ (r₃.map .scalar ++ after)))
    simpa using hstart
  · have hend := ws_of_forall hafter []
    rw [List.append_nil] at hend
    exact (h₃ after).trans hend

end Values

end JsonGrammar

end ChatBI.Lib
