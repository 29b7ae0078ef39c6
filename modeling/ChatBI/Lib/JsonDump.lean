import ChatBI.Lib.JsonGrammar
import ChatBI.Lib.Utf8

/-!
# Writing JSON texts

`json.dumps` with `ensure_ascii=False` and the separators `,` and `:`. The text of a document is
read back as the document, and holds no control characters.
-/

namespace ChatBI.Lib

namespace JsonDoc

def hexDigit (n : Nat) : Char := if n < 10 then Char.ofNat (48 + n) else Char.ofNat (87 + n)

/-- A character inside a string. -/
def escapeChar (c : Char) : List Char :=
  if c = '"' then ['\\', '"']
  else if c = '\\' then ['\\', '\\']
  else if c = '\n' then ['\\', 'n']
  else if c = '\r' then ['\\', 'r']
  else if c = '\t' then ['\\', 't']
  else if c = '\x0c' then ['\\', 'f']
  else if c = '\x08' then ['\\', 'b']
  else if c.toNat < 0x20 then
    ['\\', 'u', '0', '0', hexDigit (c.toNat / 16), hexDigit (c.toNat % 16)]
  else [c]

def dumpString (cs : List Char) : List Char := '"' :: cs.flatMap escapeChar ++ ['"']

/-- The characters of a lexeme. -/
def lexemeChars (lexeme : List CodePoint) : List Char :=
  lexeme.filterMap fun
    | .scalar c => some c
    | .surrogate _ => none

mutual

def dumps : JsonDoc → List Char
  | .null => "null".toList
  | .bool true => "true".toList
  | .bool false => "false".toList
  | .number lexeme => lexemeChars lexeme
  | .str s => dumpString s.toList
  | .arr items => '[' :: dumpItems items ++ [']']
  | .obj members => '{' :: dumpMembers members ++ ['}']

def dumpItems : List JsonDoc → List Char
  | [] => []
  | [v] => dumps v
  | v :: items => dumps v ++ ',' :: dumpItems items

def dumpMembers : List (String × JsonDoc) → List Char
  | [] => []
  | [(k, v)] => dumpString k.toList ++ ':' :: dumps v
  | (k, v) :: members => dumpString k.toList ++ ':' :: dumps v ++ ',' :: dumpMembers members

end

/-- Every number of the document is written as a number. -/
inductive WellFormed : JsonDoc → Prop where
  | null : WellFormed .null
  | bool {b} : WellFormed (.bool b)
  | number {lexeme} (h : JsonGrammar.Number lexeme) : WellFormed (.number lexeme)
  | str {s} : WellFormed (.str s)
  | arr {items} (h : ∀ v ∈ items, WellFormed v) : WellFormed (.arr items)
  | obj {members} (h : ∀ m ∈ members, WellFormed m.2) : WellFormed (.obj members)

/-- A natural number as `str` writes it. -/
def nat (n : Nat) : JsonDoc := .number ((Nat.toDigits 10 n).map .scalar)

/-- `None` or a value. -/
def ofOption {α : Type} (f : α → JsonDoc) : Option α → JsonDoc
  | none => .null
  | some a => f a

section Strings

variable {c : Char} {cs : List Char} {rest : List CodePoint}

open JsonGrammar

lemma scalar_hexDigit {n : Nat} (h : n < 16) :
    (CodePoint.scalar (hexDigit n)).hexDigit? = some n := by
  have hall : ∀ n < 16, (CodePoint.scalar (hexDigit n)).hexDigit? = some n := by decide
  exact hall n h

lemma stringBody_escapeChar (h : StringBody rest cs l) :
    StringBody ((escapeChar c).map .scalar ++ rest) (c :: cs) l := by
  unfold escapeChar
  by_cases h₁ : c = '"'
  · subst h₁
    exact .escaped .quote h
  by_cases h₂ : c = '\\'
  · subst h₂
    exact .escaped .backslash h
  by_cases h₃ : c = '\n'
  · subst h₃
    exact .escaped .lineFeed h
  by_cases h₄ : c = '\r'
  · subst h₄
    exact .escaped .carriageReturn h
  by_cases h₅ : c = '\t'
  · subst h₅
    exact .escaped .tab h
  by_cases h₆ : c = '\x0c'
  · subst h₆
    exact .escaped .formFeed h
  by_cases h₇ : c = '\x08'
  · subst h₇
    exact .escaped .backspace h
  rw [if_neg h₁, if_neg h₂, if_neg h₃, if_neg h₄, if_neg h₅, if_neg h₆, if_neg h₇]
  by_cases hcontrol : c.toNat < 0x20
  · rw [if_pos hcontrol]
    have hvalue : c.toNat = hexValue [0, 0, c.toNat / 16, c.toNat % 16] := by
      simp only [hexValue, List.foldl_cons, List.foldl_nil]
      omega
    have hunicode : Unicode (['\\', 'u', '0', '0', hexDigit (c.toNat / 16),
        hexDigit (c.toNat % 16)].map .scalar ++ rest) c.toNat rest :=
      ⟨.scalar '0', .scalar '0', _, _, 0, 0, _, _, rfl, rfl, rfl,
        scalar_hexDigit (by omega), scalar_hexDigit (by omega), hvalue⟩
    have hbody := StringBody.unicode hunicode (by omega) h
    rwa [Char.ofNat_toNat] at hbody
  · rw [if_neg hcontrol]
    exact .unescaped (by omega) h₁ h₂ h

end Strings

section Documents

open JsonGrammar

lemma stringBody_dumpString (cs : List Char) (rest : List CodePoint) :
    StringBody ((cs.flatMap escapeChar).map .scalar ++ .scalar '"' :: rest) cs rest := by
  induction cs with
  | nil => exact .close
  | cons c cs ih =>
    rw [List.flatMap_cons, List.map_append, List.append_assoc]
    exact stringBody_escapeChar ih

lemma map_dumpString (cs : List Char) (rest : List CodePoint) :
    (dumpString cs).map .scalar ++ rest =
      .scalar '"' :: ((cs.flatMap escapeChar).map .scalar ++ .scalar '"' :: rest) := by
  simp [dumpString]

/-- A character that is neither a surrogate nor a control character. -/
def Plain (c : CodePoint) : Prop := ∃ e : Char, c = .scalar e ∧ 0x20 ≤ e.toNat

lemma plain_of_isDigit {c : CodePoint} (h : c.isDigit = true) : Plain c := by
  cases c with
  | scalar e =>
    simp only [CodePoint.isDigit, Bool.and_eq_true, decide_eq_true_eq] at h
    have he : '0'.toNat ≤ e.toNat := h.1
    exact ⟨e, rfl, Nat.le_trans (by decide) he⟩
  | surrogate n => cases h

lemma plain_of_digits {l : List CodePoint} (h : Digits l) : ∀ c ∈ l, Plain c :=
  fun c hc => plain_of_isDigit (h.2 c hc)

lemma plain_of_number {lexeme : List CodePoint} (h : Number lexeme) : ∀ c ∈ lexeme, Plain c := by
  have hscalar : ∀ e : Char, 0x20 ≤ e.toNat → Plain (.scalar e) := fun e he => ⟨e, rfl, he⟩
  obtain ⟨minus, integer, fraction, exponent, rfl, hminus, hinteger, hfraction, hexponent⟩ := h
  intro c hc
  simp only [List.mem_append] at hc
  rcases hc with ((hc | hc) | hc) | hc
  · rcases hminus with rfl | rfl
    · cases hc
    · cases List.mem_singleton.mp hc
      exact hscalar '-' (by decide)
  · rcases hinteger with rfl | ⟨hdigits, -⟩
    · cases List.mem_singleton.mp hc
      exact hscalar '0' (by decide)
    · exact plain_of_digits hdigits c hc
  · rcases hfraction with rfl | ⟨digits, rfl, hdigits⟩
    · cases hc
    · rcases List.mem_cons.mp hc with rfl | hc
      · exact hscalar '.' (by decide)
      · exact plain_of_digits hdigits c hc
  · rcases hexponent with rfl | ⟨e, sign, digits, rfl, he, hsign, hdigits⟩
    · cases hc
    · rcases List.mem_cons.mp hc with rfl | hc
      · rcases he with rfl | rfl
        · exact hscalar 'e' (by decide)
        · exact hscalar 'E' (by decide)
      · rcases List.mem_append.mp hc with hc | hc
        · rcases hsign with rfl | rfl | rfl
          · cases hc
          · cases List.mem_singleton.mp hc
            exact hscalar '+' (by decide)
          · cases List.mem_singleton.mp hc
            exact hscalar '-' (by decide)
        · exact plain_of_digits hdigits c hc

lemma map_lexemeChars_of_plain {lexeme : List CodePoint} (h : ∀ c ∈ lexeme, Plain c) :
    (lexemeChars lexeme).map .scalar = lexeme := by
  induction lexeme with
  | nil => rfl
  | cons c lexeme ih =>
    obtain ⟨e, rfl, -⟩ := h c List.mem_cons_self
    have hrest := ih (fun c hc => h c (List.mem_cons_of_mem _ hc))
    have hcons : lexemeChars (.scalar e :: lexeme) = e :: lexemeChars lexeme := rfl
    rw [hcons, List.map_cons, hrest]

lemma map_lexemeChars {lexeme : List CodePoint} (h : Number lexeme) :
    (lexemeChars lexeme).map .scalar = lexeme := map_lexemeChars_of_plain (plain_of_number h)

mutual

theorem value_dumps : ∀ v : JsonDoc, v.WellFormed → ∀ rest,
    Value ((dumps v).map .scalar ++ rest) v rest
  | .null, _, _ => .null
  | .bool true, _, _ => .true
  | .bool false, _, _ => .false
  | .number lexeme, h, rest => by
    cases h with
    | number hn =>
      rw [dumps, map_lexemeChars hn]
      exact .number hn
  | .str s, _, rest => by
    have hs := Value.string (stringBody_dumpString s.toList rest)
    rw [String.ofList_toList] at hs
    rw [dumps, map_dumpString]
    exact hs
  | .arr items, h, rest => by
    cases h with
    | arr hitems =>
      by_cases hne : items = []
      · subst hne
        exact .emptyArray .nil
      · have hrest := items_dumps items hne hitems rest
        simpa [dumps] using Value.array hrest
  | .obj members, h, rest => by
    cases h with
    | obj hmembers =>
      by_cases hne : members = []
      · subst hne
        exact .emptyObject .nil
      · have hrest := members_dumps members hne hmembers rest
        simpa [dumps] using Value.object hrest

theorem items_dumps : ∀ items : List JsonDoc, items ≠ [] → (∀ v ∈ items, v.WellFormed) →
    ∀ rest, Items ((dumpItems items).map .scalar ++ .scalar ']' :: rest) items rest
  | [v], _, h, rest => by
    have hv := value_dumps v (h v List.mem_cons_self) (.scalar ']' :: rest)
    exact .last .nil hv .nil
  | v :: w :: items, _, h, rest => by
    have hv := value_dumps v (h v List.mem_cons_self)
      (.scalar ',' :: ((dumpItems (w :: items)).map .scalar ++ .scalar ']' :: rest))
    have hrest := items_dumps (w :: items) (List.cons_ne_nil w items)
      (fun u hu => h u (List.mem_cons_of_mem v hu)) rest
    have hcons := Items.cons .nil hv .nil hrest
    simpa [dumpItems] using hcons

theorem members_dumps : ∀ members : List (String × JsonDoc), members ≠ [] →
    (∀ m ∈ members, m.2.WellFormed) →
    ∀ rest, Members ((dumpMembers members).map .scalar ++ .scalar '}' :: rest) members rest
  | [(k, v)], _, h, rest => by
    have hk := stringBody_dumpString k.toList
      (.scalar ':' :: ((dumps v).map .scalar ++ .scalar '}' :: rest))
    have hv := value_dumps v (h (k, v) List.mem_cons_self) (.scalar '}' :: rest)
    have hlast := Members.last .nil hk .nil .nil hv .nil
    rw [String.ofList_toList] at hlast
    simpa [dumpMembers, dumpString] using hlast
  | (k, v) :: n :: members, _, h, rest => by
    have hk := stringBody_dumpString k.toList (.scalar ':' :: ((dumps v).map .scalar ++
      .scalar ',' :: ((dumpMembers (n :: members)).map .scalar ++ .scalar '}' :: rest)))
    have hv := value_dumps v (h (k, v) List.mem_cons_self)
      (.scalar ',' :: ((dumpMembers (n :: members)).map .scalar ++ .scalar '}' :: rest))
    have hrest := members_dumps (n :: members) (List.cons_ne_nil n members)
      (fun u hu => h u (List.mem_cons_of_mem (k, v) hu)) rest
    have hcons := Members.cons .nil hk .nil .nil hv .nil hrest
    rw [String.ofList_toList] at hcons
    simpa [dumpMembers, dumpString] using hcons

end

/-- The text of a document stands for the document. -/
theorem document_dumps {v : JsonDoc} (h : v.WellFormed) :
    Document ((dumps v).map .scalar) v := by
  have hv := value_dumps v h []
  rw [List.append_nil] at hv
  exact ⟨_, _, .nil, hv, .nil⟩

/-- A text that holds no control characters. -/
def Printable (text : List Char) : Prop := ∀ c ∈ text, 0x20 ≤ c.toNat

instance (text : List Char) : Decidable (Printable text) :=
  List.decidableBAll (fun c : Char => 0x20 ≤ c.toNat) text

lemma Printable.append {s t : List Char} (hs : Printable s) (ht : Printable t) :
    Printable (s ++ t) := by
  intro c hc
  rcases List.mem_append.mp hc with hc | hc
  · exact hs c hc
  · exact ht c hc

lemma Printable.cons {c : Char} {s : List Char} (hc : 0x20 ≤ c.toNat) (hs : Printable s) :
    Printable (c :: s) := by
  intro e he
  rcases List.mem_cons.mp he with rfl | he
  · exact hc
  · exact hs e he

lemma printable_nil : Printable [] := by
  intro c hc
  cases hc

lemma hexDigit_printable {n : Nat} (h : n < 16) : 0x20 ≤ (hexDigit n).toNat := by
  have hall : ∀ n < 16, 0x20 ≤ (hexDigit n).toNat := by decide
  exact hall n h

lemma printable_escapeChar (c : Char) : Printable (escapeChar c) := by
  have hpair : ∀ e : Char, 0x20 ≤ e.toNat → Printable ['\\', e] :=
    fun e he => .cons (by decide) (.cons he printable_nil)
  unfold escapeChar
  by_cases hcontrol : c.toNat < 0x20
  · have hcode : Printable
        ['\\', 'u', '0', '0', hexDigit (c.toNat / 16), hexDigit (c.toNat % 16)] :=
      .cons (by decide) (.cons (by decide) (.cons (by decide) (.cons (by decide)
        (.cons (hexDigit_printable (by omega)) (.cons (hexDigit_printable (by omega))
          printable_nil)))))
    rw [if_pos hcontrol]
    repeat' split
    all_goals first
      | exact hpair _ (by decide)
      | exact hcode
  · rw [if_neg hcontrol]
    repeat' split
    all_goals first
      | exact hpair _ (by decide)
      | exact .cons (by omega) printable_nil

lemma printable_dumpString (cs : List Char) : Printable (dumpString cs) := by
  refine .append (.cons (by decide) ?_) (.cons (by decide) printable_nil)
  intro e he
  obtain ⟨c, -, hc⟩ := List.mem_flatMap.mp he
  exact printable_escapeChar c e hc

lemma printable_lexemeChars {lexeme : List CodePoint} (h : Number lexeme) :
    Printable (lexemeChars lexeme) := by
  intro e he
  have hmem : CodePoint.scalar e ∈ lexeme := by
    rw [← map_lexemeChars h]
    exact List.mem_map_of_mem he
  obtain ⟨e', he', hle⟩ := plain_of_number h _ hmem
  cases he'
  exact hle

mutual

/-- Control characters are escaped, so a text has no line ends. -/
theorem printable_dumps : ∀ v : JsonDoc, v.WellFormed → Printable (dumps v)
  | .null, _ => by decide
  | .bool true, _ => by decide
  | .bool false, _ => by decide
  | .number lexeme, h => by
    cases h with
    | number hn => exact printable_lexemeChars hn
  | .str s, _ => printable_dumpString s.toList
  | .arr items, h => by
    cases h with
    | arr hitems =>
      exact .append (.cons (by decide) (printable_dumpItems items hitems))
        (.cons (by decide) printable_nil)
  | .obj members, h => by
    cases h with
    | obj hmembers =>
      exact .append (.cons (by decide) (printable_dumpMembers members hmembers))
        (.cons (by decide) printable_nil)

theorem printable_dumpItems : ∀ items : List JsonDoc, (∀ v ∈ items, v.WellFormed) →
    Printable (dumpItems items)
  | [], _ => printable_nil
  | [v], h => printable_dumps v (h v List.mem_cons_self)
  | v :: w :: items, h => by
    have hrest := printable_dumpItems (w :: items) (fun u hu => h u (List.mem_cons_of_mem v hu))
    exact .append (printable_dumps v (h v List.mem_cons_self)) (.cons (by decide) hrest)

theorem printable_dumpMembers : ∀ members : List (String × JsonDoc),
    (∀ m ∈ members, m.2.WellFormed) → Printable (dumpMembers members)
  | [], _ => printable_nil
  | [(k, v)], h => by
    have hv := printable_dumps v (h (k, v) List.mem_cons_self)
    exact .append (printable_dumpString k.toList) (.cons (by decide) hv)
  | (k, v) :: n :: members, h => by
    have hv := printable_dumps v (h (k, v) List.mem_cons_self)
    have hrest := printable_dumpMembers (n :: members)
      (fun u hu => h u (List.mem_cons_of_mem (k, v) hu))
    exact .append (.append (printable_dumpString k.toList) (.cons (by decide) hv))
      (.cons (by decide) hrest)

end

/-- A natural number is written without leading zeros. -/
lemma head_toDigits {n : Nat} (h : 0 < n) : (Nat.toDigits 10 n).head? ≠ some '0' := by
  induction n using Nat.strongRecOn with
  | _ n ih =>
    by_cases hlt : n < 10
    · rw [Nat.toDigits_of_lt_base hlt]
      have hall : ∀ n < 10, 0 < n → [n.digitChar].head? ≠ some '0' := by decide
      exact hall n hlt h
    · have hne : Nat.toDigits 10 (n / 10) ≠ [] := Nat.toDigits_ne_nil
      rw [Nat.toDigits_of_base_le (by decide) (by omega), List.head?_append_of_ne_nil _ hne]
      exact ih (n / 10) (by omega) (by omega)

lemma integerPart_nat (n : Nat) : IntegerPart ((Nat.toDigits 10 n).map .scalar) := by
  by_cases h : n = 0
  · subst h
    exact .inl rfl
  · refine .inr ⟨⟨by simp [Nat.toDigits_ne_nil], ?_⟩, ?_⟩
    · intro c hc
      obtain ⟨e, he, rfl⟩ := List.mem_map.mp hc
      have hdigit := Nat.isDigit_of_mem_toDigits (by decide) (by decide) he
      simpa [Char.isDigit, CodePoint.isDigit, Char.le_def] using hdigit
    · have hhead := head_toDigits (n := n) (by omega)
      rw [List.head?_map]
      cases hd : (Nat.toDigits 10 n).head? with
      | none => simp
      | some e => simpa [hd] using hhead

lemma number_nat (n : Nat) : Number ((Nat.toDigits 10 n).map .scalar) :=
  ⟨[], (Nat.toDigits 10 n).map .scalar, [], [], by simp, .inl rfl, integerPart_nat n, .inl rfl,
    .inl rfl⟩

lemma wellFormed_nat (n : Nat) : (nat n).WellFormed := .number (number_nat n)

lemma dumps_nat (n : Nat) : dumps (nat n) = Nat.toDigits 10 n := by
  have hinj : Function.Injective CodePoint.scalar := fun _ _ h => CodePoint.scalar.inj h
  exact List.map_injective_iff.mpr hinj (map_lexemeChars (number_nat n))

end Documents

end JsonDoc

end ChatBI.Lib
