import ChatBI.Lib.FixedDigits

/-!
# JSON texts of ASCII characters

`json.dumps` with its default separators, of texts, lists of texts and objects. Each text tells its
value, whatever follows it.
-/

namespace ChatBI.Lib.AsciiJson

open FixedDigits

/-- The values are told from what follows them. -/
def SelfDelimiting {α : Type} (f : α → List Char) : Prop :=
  ∀ ⦃a b r s⦄, f a ++ r = f b ++ s → a = b ∧ r = s

lemma SelfDelimiting.injective {α : Type} {f : α → List Char} (h : SelfDelimiting f) :
    Function.Injective f := by
  intro a b hab
  have hsame : f a ++ [] = f b ++ [] := by rw [hab]
  exact (h hsame).1

/-! ### Characters -/

def unicodeEscape (n : ℕ) : List Char := '\\' :: 'u' :: digits 16 4 n

/-- A character inside a string: what is not printable ASCII is written by its UTF-16 units. -/
def escapeChar (c : Char) : List Char :=
  if c = '"' then ['\\', '"']
  else if c = '\\' then ['\\', '\\']
  else if c = '\n' then ['\\', 'n']
  else if c = '\r' then ['\\', 'r']
  else if c = '\t' then ['\\', 't']
  else if c = '\x0c' then ['\\', 'f']
  else if c = '\x08' then ['\\', 'b']
  else if 0x20 ≤ c.toNat ∧ c.toNat ≤ 0x7e then [c]
  else if c.toNat < 0x10000 then unicodeEscape c.toNat
  else unicodeEscape (0xd800 + (c.toNat - 0x10000) / 0x400) ++
    unicodeEscape (0xdc00 + (c.toNat - 0x10000) % 0x400)

/-- The letters of the short escapes. -/
def shortEscapes : List (Char × Char) :=
  [('"', '"'), ('\\', '\\'), ('\n', 'n'), ('\r', 'r'), ('\t', 't'), ('\x0c', 'f'), ('\x08', 'b')]

/-- The ways in which a character is written. -/
inductive Escaped (c : Char) : List Char → Prop where
  | plain (hquote : c ≠ '"') (hslash : c ≠ '\\') : Escaped c [c]
  | short {x : Char} (h : (c, x) ∈ shortEscapes) : Escaped c ['\\', x]
  | basic (h : c.toNat < 0x10000) : Escaped c (unicodeEscape c.toNat)
  | astral (h : 0x10000 ≤ c.toNat) : Escaped c
      (unicodeEscape (0xd800 + (c.toNat - 0x10000) / 0x400) ++
        unicodeEscape (0xdc00 + (c.toNat - 0x10000) % 0x400))

lemma escaped (c : Char) : Escaped c (escapeChar c) := by
  unfold escapeChar
  by_cases hquote : c = '"'
  · rw [if_pos hquote]
    exact .short (by rw [hquote]; decide)
  by_cases hslash : c = '\\'
  · rw [if_neg hquote, if_pos hslash]
    exact .short (by rw [hslash]; decide)
  rw [if_neg hquote, if_neg hslash]
  split
  · next h => exact .short (by rw [h]; decide)
  split
  · next h => exact .short (by rw [h]; decide)
  split
  · next h => exact .short (by rw [h]; decide)
  split
  · next h => exact .short (by rw [h]; decide)
  split
  · next h => exact .short (by rw [h]; decide)
  split
  · exact .plain hquote hslash
  split
  · next h => exact .basic h
  · next h => exact .astral (not_lt.mp h)

lemma toNat_lt (c : Char) : c.toNat < 0x110000 := by
  obtain h | ⟨-, h⟩ := c.valid
  · exact lt_trans h (by decide)
  · exact h

lemma toNat_not_surrogate (c : Char) : c.toNat < 0xd800 ∨ 0xdfff < c.toNat := by
  obtain h | ⟨h, -⟩ := c.valid
  · exact .inl h
  · exact .inr h

lemma unicodeEscape_append {m n : ℕ} {r s : List Char} (hm : m < 0x10000) (hn : n < 0x10000)
    (h : unicodeEscape m ++ r = unicodeEscape n ++ s) : m = n ∧ r = s := by
  have htail : digits 16 4 m ++ r = digits 16 4 n ++ s :=
    List.cons_injective (List.cons_injective h)
  obtain ⟨hdigits, hrest⟩ := List.append_inj htail (by rw [length_digits, length_digits])
  exact ⟨digits_injective (le_refl 16) hm hn hdigits, hrest⟩

/-- A unit of four digits is no short escape. -/
lemma short_ne_unicode {c x : Char} (hx : (c, x) ∈ shortEscapes) {n : ℕ} {r s : List Char} :
    ['\\', x] ++ r ≠ unicodeEscape n ++ s := by
  intro h
  have hletter : x = 'u' := (List.cons.inj (List.cons_injective h)).1
  rw [hletter] at hx
  simp [shortEscapes] at hx

lemma shortEscapes_unique {c d x : Char} (hc : (c, x) ∈ shortEscapes) (hd : (d, x) ∈ shortEscapes) :
    c = d := by
  have hall : (shortEscapes.all fun p => shortEscapes.all fun q => p.2 ≠ q.2 || p.1 = q.1) = true := by
    decide
  have hpair := List.all_eq_true.mp (List.all_eq_true.mp hall _ hc) _ hd
  simpa using hpair

/-- The units of a character outside of the basic plane. -/
lemma astral_units {c : Char} (h : 0x10000 ≤ c.toNat) :
    0xd800 + (c.toNat - 0x10000) / 0x400 < 0xdc00 ∧
      0xdc00 + (c.toNat - 0x10000) % 0x400 < 0xe000 := by
  have hc := toNat_lt c
  omega

lemma basic_ne_astral {c d : Char} {r s : List Char} (hc : c.toNat < 0x10000)
    (hd : 0x10000 ≤ d.toNat) : unicodeEscape c.toNat ++ r ≠
      unicodeEscape (0xd800 + (d.toNat - 0x10000) / 0x400) ++ s := by
  intro h
  obtain ⟨hhigh, -⟩ := astral_units hd
  obtain ⟨hsame, -⟩ := unicodeEscape_append hc (by omega) h
  have hnot := toNat_not_surrogate c
  omega

lemma escaped_unique {c d : Char} {x y r s : List Char} (hx : Escaped c x) (hy : Escaped d y)
    (h : x ++ r = y ++ s) : c = d ∧ r = s := by
  have hplain : ∀ {e : Char} {t u : List Char}, e ≠ '\\' → [e] ++ t ≠ '\\' :: u :=
    fun he hsame => he (List.cons.inj hsame).1
  cases hx with
  | plain hquote hslash =>
    cases hy with
    | plain => exact List.cons.inj h
    | short => exact absurd h (hplain hslash)
    | basic => exact absurd h (hplain hslash)
    | astral => exact absurd h (hplain hslash)
  | short hc =>
    cases hy with
    | plain hquote hslash => exact absurd h.symm (hplain hslash)
    | short hd =>
      obtain ⟨rfl, hrest⟩ := List.cons.inj (List.cons_injective h)
      exact ⟨shortEscapes_unique hc hd, hrest⟩
    | basic => exact absurd h (short_ne_unicode hc)
    | astral =>
      rw [List.append_assoc] at h
      exact absurd h (short_ne_unicode hc)
  | basic hc =>
    cases hy with
    | plain hquote hslash => exact absurd h.symm (hplain hslash)
    | short hd => exact absurd h.symm (short_ne_unicode hd)
    | basic hd =>
      obtain ⟨hsame, hrest⟩ := unicodeEscape_append hc hd h
      exact ⟨Char.toNat_inj.mp hsame, hrest⟩
    | astral hd =>
      rw [List.append_assoc] at h
      exact absurd h (basic_ne_astral hc hd)
  | astral hc =>
    rw [List.append_assoc] at h
    cases hy with
    | plain hquote hslash => exact absurd h.symm (hplain hslash)
    | short hd => exact absurd h.symm (short_ne_unicode hd)
    | basic hd => exact absurd h.symm (basic_ne_astral hd hc)
    | astral hd =>
      rw [List.append_assoc] at h
      obtain ⟨hhighC, hlowC⟩ := astral_units hc
      obtain ⟨hhighD, hlowD⟩ := astral_units hd
      have hbound : 0xdc00 < 0x10000 := by decide
      have hbound' : 0xe000 < 0x10000 := by decide
      obtain ⟨hhigh, hrest⟩ := unicodeEscape_append (Nat.lt_trans hhighC hbound) (Nat.lt_trans hhighD hbound) h
      obtain ⟨hlow, htail⟩ := unicodeEscape_append (Nat.lt_trans hlowC hbound') (Nat.lt_trans hlowD hbound') hrest
      exact ⟨Char.toNat_inj.mp (by omega), htail⟩

lemma escaped_ne_quote {c : Char} {x r s : List Char} (hx : Escaped c x) : x ++ r ≠ '"' :: s := by
  intro h
  cases hx with
  | plain hquote hslash => exact hquote (List.cons.inj h).1
  | short => exact absurd (List.cons.inj h).1 (by decide)
  | basic => exact absurd (List.cons.inj h).1 (by decide)
  | astral => exact absurd (List.cons.inj h).1 (by decide)

/-! ### Texts, lists and objects -/

def dumpString (s : String) : List Char := '"' :: s.toList.flatMap escapeChar ++ ['"']

/-- The elements, with `, ` between them. -/
def commaSeparated : List (List Char) → List Char
  | [] => []
  | [item] => item
  | item :: items => item ++ ',' :: ' ' :: commaSeparated items

def dumpStrings (items : List String) : List Char :=
  '[' :: commaSeparated (items.map dumpString) ++ [']']

lemma selfDelimiting_dumpString : SelfDelimiting dumpString := by
  have hbody : ∀ (cs ds r s : List Char), cs.flatMap escapeChar ++ '"' :: r = ds.flatMap escapeChar ++ '"' :: s →
      cs = ds ∧ r = s := by
    intro cs
    induction cs with
    | nil =>
      intro ds r s h
      cases ds with
      | nil => exact ⟨rfl, List.cons_injective h⟩
      | cons d ds =>
        rw [List.flatMap_cons, List.append_assoc] at h
        exact absurd h.symm (escaped_ne_quote (escaped d))
    | cons c cs ih =>
      intro ds r s h
      rw [List.flatMap_cons, List.append_assoc] at h
      cases ds with
      | nil => exact absurd h (escaped_ne_quote (escaped c))
      | cons d ds =>
        rw [List.flatMap_cons, List.append_assoc] at h
        obtain ⟨rfl, hrest⟩ := escaped_unique (escaped c) (escaped d) h
        obtain ⟨rfl, htail⟩ := ih ds r s hrest
        exact ⟨rfl, htail⟩
  intro a b r s h
  unfold dumpString at h
  simp only [List.cons_append, List.append_assoc, List.nil_append] at h
  obtain ⟨hsame, hrest⟩ := hbody _ _ _ _ (List.cons_injective h)
  exact ⟨String.toList_injective hsame, hrest⟩

lemma selfDelimiting_dumpStrings : SelfDelimiting dumpStrings := by
  have hbody : ∀ (cs ds : List String) (r s : List Char),
      commaSeparated (cs.map dumpString) ++ ']' :: r =
        commaSeparated (ds.map dumpString) ++ ']' :: s → cs = ds ∧ r = s := by
    have hcons : ∀ (c : String) (cs : List String) (r : List Char), ∃ t,
        commaSeparated ((c :: cs).map dumpString) ++ ']' :: r = dumpString c ++ t ∧
          t = if cs = [] then ']' :: r
            else ',' :: ' ' :: (commaSeparated (cs.map dumpString) ++ ']' :: r) := by
      intro c cs r
      refine ⟨_, ?_, rfl⟩
      cases cs with
      | nil => rfl
      | cons d ds =>
        rw [if_neg (List.cons_ne_nil d ds)]
        exact List.append_assoc _ _ _
    intro cs
    induction cs with
    | nil =>
      intro ds r s h
      cases ds with
      | nil => exact ⟨rfl, List.cons_injective h⟩
      | cons d ds =>
        obtain ⟨t, ht, -⟩ := hcons d ds s
        rw [ht] at h
        exact absurd (List.cons.inj h).1 (by decide)
    | cons c cs ih =>
      intro ds r s h
      obtain ⟨t, ht, htail⟩ := hcons c cs r
      cases ds with
      | nil =>
        rw [ht] at h
        exact absurd (List.cons.inj h).1 (by decide)
      | cons d ds =>
        obtain ⟨u, hu, hutail⟩ := hcons d ds s
        rw [ht, hu] at h
        obtain ⟨rfl, hrest⟩ := selfDelimiting_dumpString h
        rw [htail, hutail] at hrest
        by_cases hcs : cs = []
        · by_cases hds : ds = []
          · rw [if_pos hcs, if_pos hds] at hrest
            rw [hcs, hds]
            exact ⟨rfl, List.cons_injective hrest⟩
          · rw [if_pos hcs, if_neg hds] at hrest
            exact absurd (List.cons.inj hrest).1 (by decide)
        · by_cases hds : ds = []
          · rw [if_neg hcs, if_pos hds] at hrest
            exact absurd (List.cons.inj hrest).1 (by decide)
          · rw [if_neg hcs, if_neg hds] at hrest
            obtain ⟨rfl, hend⟩ := ih ds r s (List.cons_injective (List.cons_injective hrest))
            exact ⟨rfl, hend⟩
  intro a b r s h
  unfold dumpStrings at h
  simp only [List.cons_append, List.append_assoc, List.nil_append] at h
  exact hbody _ _ _ _ (List.cons_injective h)

end ChatBI.Lib.AsciiJson
