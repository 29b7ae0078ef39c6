import ChatBI.Lib.JsonGrammar
import Mathlib.Data.List.Basic

/-!
# A parser of JSON texts

A recursive descent with one character of lookahead, and that it computes the grammar. The
recogniser of number lexemes is a parameter.
-/

namespace ChatBI.Lib

/-- No object of the document has two members of one name. -/
inductive JsonDoc.UniqueKeys : JsonDoc → Prop where
  | null : UniqueKeys .null
  | bool {b} : UniqueKeys (.bool b)
  | number {lexeme} : UniqueKeys (.number lexeme)
  | str {s} : UniqueKeys (.str s)
  | arr {items} (h : ∀ v ∈ items, UniqueKeys v) : UniqueKeys (.arr items)
  | obj {members} (hk : (members.map Prod.fst).Nodup) (h : ∀ m ∈ members, UniqueKeys m.2) :
      UniqueKeys (.obj members)

mutual

def JsonDoc.unique : JsonDoc → Bool
  | .arr items => uniqueItems items
  | .obj members => uniqueMembers [] members
  | _ => true

def JsonDoc.uniqueItems : List JsonDoc → Bool
  | [] => true
  | v :: items => v.unique && uniqueItems items

/-- Uniqueness of members after members of the given names. -/
def JsonDoc.uniqueMembers : List String → List (String × JsonDoc) → Bool
  | _, [] => true
  | keys, (k, v) :: members => !keys.contains k && v.unique && uniqueMembers (k :: keys) members

end

namespace JsonParser

open JsonGrammar

def isSpace (c : CodePoint) : Bool :=
  c = .scalar ' ' || c = .scalar '\t' || c = .scalar '\r' || c = .scalar '\n'

/-- The characters that end a number or a literal. -/
def isDelimiter (c : CodePoint) : Bool :=
  c = .scalar ',' || c = .scalar ']' || c = .scalar '}' || isSpace c

def skipWs (l : List CodePoint) : List CodePoint := l.dropWhile isSpace

def escape? : Char → Option Char
  | '"' => some '"'
  | '\\' => some '\\'
  | '/' => some '/'
  | 'b' => some '\x08'
  | 'f' => some '\x0c'
  | 'n' => some '\n'
  | 'r' => some '\r'
  | 't' => some '\t'
  | _ => none

def hex4? (c₁ c₂ c₃ c₄ : CodePoint) : Option Nat :=
  match c₁.hexDigit?, c₂.hexDigit?, c₃.hexDigit?, c₄.hexDigit? with
  | some n₁, some n₂, some n₃, some n₄ => some (hexValue [n₁, n₂, n₃, n₄])
  | _, _, _, _ => none

/-- The four digits after `\u`. -/
def digits4? : List CodePoint → Option (Nat × List CodePoint)
  | c₁ :: c₂ :: c₃ :: c₄ :: l => (hex4? c₁ c₂ c₃ c₄).map (·, l)
  | _ => none

def unicode? : List CodePoint → Option (Nat × List CodePoint)
  | .scalar '\\' :: .scalar 'u' :: l => digits4? l
  | _ => none

/-- What follows a high surrogate is the escape of a low one. -/
def lowSurrogate? (high : Nat) (l : List CodePoint) : Option (Char × List CodePoint) :=
  match unicode? l with
  | none => none
  | some (low, r) =>
    if 0xDC00 ≤ low ∧ low ≤ 0xDFFF then
      some (Char.ofNat (0x10000 + (high - 0xD800) * 1024 + (low - 0xDC00)), r)
    else none

/-- The character that four digits stand for, with a low surrogate after a high one. -/
def unicodeChar? (n : Nat) (l : List CodePoint) : Option (Char × List CodePoint) :=
  if 0xD800 ≤ n ∧ n ≤ 0xDBFF then lowSurrogate? n l
  else if 0xDC00 ≤ n ∧ n ≤ 0xDFFF then none
  else some (Char.ofNat n, l)

/-- One character of a string that does not end. -/
def char? : List CodePoint → Option (Char × List CodePoint)
  | .scalar '\\' :: .scalar 'u' :: l => (digits4? l).bind fun r => unicodeChar? r.1 r.2
  | .scalar '\\' :: .scalar e :: l => (escape? e).map (·, l)
  | .scalar c :: l =>
    if c.toNat < 0x20 ∨ c = '"' ∨ c = '\\' then none else some (c, l)
  | _ => none

def string : Nat → List CodePoint → Option (List Char × List CodePoint)
  | 0, _ => none
  | n + 1, l =>
    if l.head? = some (.scalar '"') then some ([], l.tail)
    else (char? l).bind fun r => (string n r.2).map fun s => (r.1 :: s.1, s.2)

/-- A string body; its length bounds the recursion. -/
def stringBody (l : List CodePoint) : Option (List Char × List CodePoint) :=
  string (l.length + 1) l

variable (isNumber : List CodePoint → Bool)

def primitive (lexeme : List CodePoint) : Option JsonDoc :=
  if lexeme = CodePoint.ofString "null" then some .null
  else if lexeme = CodePoint.ofString "true" then some (.bool true)
  else if lexeme = CodePoint.ofString "false" then some (.bool false)
  else if isNumber lexeme then some (.number lexeme)
  else none

mutual

def value : Nat → List CodePoint → Option (JsonDoc × List CodePoint)
  | 0, _ => none
  | n + 1, l =>
    match l with
    | .scalar '"' :: r => (stringBody r).map fun s => (.str (String.ofList s.1), s.2)
    | .scalar '[' :: r =>
      if (skipWs r).head? = some (.scalar ']') then some (.arr [], (skipWs r).tail)
      else (items n r).map fun s => (.arr s.1, s.2)
    | .scalar '{' :: r =>
      if (skipWs r).head? = some (.scalar '}') then some (.obj [], (skipWs r).tail)
      else (members n r).map fun s => (.obj s.1, s.2)
    | l =>
      (primitive isNumber (l.takeWhile (fun c => !isDelimiter c))).map
        (·, l.dropWhile (fun c => !isDelimiter c))

def items : Nat → List CodePoint → Option (List JsonDoc × List CodePoint)
  | 0, _ => none
  | n + 1, l =>
    (value n (skipWs l)).bind fun v =>
      match skipWs v.2 with
      | .scalar ']' :: r => some ([v.1], r)
      | .scalar ',' :: r => (items n r).map fun s => (v.1 :: s.1, s.2)
      | _ => none

def members : Nat → List CodePoint → Option (List (String × JsonDoc) × List CodePoint)
  | 0, _ => none
  | n + 1, l =>
    match skipWs l with
    | .scalar '"' :: l₁ =>
      (stringBody l₁).bind fun k =>
        match skipWs k.2 with
        | .scalar ':' :: l₃ =>
          (value n (skipWs l₃)).bind fun v =>
            match skipWs v.2 with
            | .scalar '}' :: r => some ([(String.ofList k.1, v.1)], r)
            | .scalar ',' :: r =>
              (members n r).map fun s => ((String.ofList k.1, v.1) :: s.1, s.2)
            | _ => none
        | _ => none
    | _ => none

end

/-- The document that a whole text is. -/
def parse (text : List CodePoint) : Option JsonDoc :=
  (value isNumber (2 * text.length + 1) (skipWs text)).bind fun v =>
    if skipWs v.2 = [] then some v.1 else none

section Spaces

variable {c : CodePoint} {l r : List CodePoint}

lemma isSpace_iff : isSpace c = true ↔ IsSpace c := by
  simp [isSpace, IsSpace, or_assoc]

lemma ws_skipWs (l : List CodePoint) : Ws l (skipWs l) := by
  induction l with
  | nil => exact .nil
  | cons c l ih =>
    by_cases h : isSpace c
    · rw [skipWs, List.dropWhile_cons_of_pos h]
      exact .cons (isSpace_iff.mp h) ih
    · rw [skipWs, List.dropWhile_cons_of_neg h]
      exact .nil

lemma skipWs_of_not_space (h : isSpace c = false) : skipWs (c :: l) = c :: l :=
  List.dropWhile_cons_of_neg (by simp [h])

lemma skipWs_eq (h : Ws l r) : skipWs l = skipWs r := by
  induction h with
  | nil => rfl
  | cons hc _ ih => rwa [skipWs, List.dropWhile_cons_of_pos (isSpace_iff.mpr hc)]

lemma skipWs_eq_cons (h : Ws l (c :: r)) (hc : isSpace c = false) : skipWs l = c :: r := by
  rw [skipWs_eq h, skipWs_of_not_space hc]

lemma length_skipWs_le (l : List CodePoint) : (skipWs l).length ≤ l.length :=
  (List.dropWhile_suffix _).length_le

lemma head_skipWs (h : skipWs l = c :: r) : isSpace c = false := by
  have hne : l.dropWhile isSpace ≠ [] := by
    intro he
    rw [skipWs, he] at h
    cases h
  have hhead := List.head_dropWhile_not isSpace hne
  have hc : (l.dropWhile isSpace).head hne = c := by
    have he := congrArg List.head? h
    rw [skipWs, List.head?_eq_some_head hne] at he
    simpa using he
  rw [hc] at hhead
  exact hhead

end Spaces

section Strings

variable {c : Char} {n : Nat} {l r rest : List CodePoint} {cs : List Char}

lemma escape?_eq_some_iff {e : Char} : escape? e = some c ↔ Escape e c := by
  constructor
  · intro h
    unfold escape? at h
    split at h <;> cases h
    all_goals constructor
  · intro h
    cases h <;> rfl

lemma digits4?_length (h : digits4? l = some (n, r)) : r.length < l.length := by
  unfold digits4? at h
  split at h
  · obtain ⟨m, -, he⟩ := Option.map_eq_some_iff.mp h
    cases he
    simp only [List.length_cons]
    omega
  · cases h

lemma unicode?_escape : unicode? (.scalar '\\' :: .scalar 'u' :: l) = digits4? l := rfl

lemma unicode?_eq_some_iff : unicode? l = some (n, r) ↔ Unicode l n r := by
  constructor
  · intro h
    unfold unicode? digits4? at h
    split at h
    · split at h
      · obtain ⟨m, hm, he⟩ := Option.map_eq_some_iff.mp h
        cases he
        unfold hex4? at hm
        split at hm
        · next h₁ h₂ h₃ h₄ =>
          cases hm
          exact ⟨_, _, _, _, _, _, _, _, rfl, h₁, h₂, h₃, h₄, rfl⟩
        · cases hm
      · cases h
    · cases h
  · rintro ⟨c₁, c₂, c₃, c₄, n₁, n₂, n₃, n₄, rfl, h₁, h₂, h₃, h₄, rfl⟩
    simp [unicode?, digits4?, hex4?, h₁, h₂, h₃, h₄]

lemma char?_unicode {l' : List CodePoint} :
    char? (.scalar '\\' :: .scalar 'u' :: l') =
      (digits4? l').bind fun r => unicodeChar? r.1 r.2 := rfl

lemma unicode?_length (h : unicode? l = some (n, r)) : r.length < l.length := by
  unfold unicode? at h
  split at h
  · have hlen := digits4?_length h
    simp only [List.length_cons]
    omega
  · cases h

lemma unicodeChar?_length {m : Nat} (h : unicodeChar? m l = some (c, r)) :
    r.length ≤ l.length := by
  unfold unicodeChar? lowSurrogate? at h
  split at h
  · split at h
    · cases h
    · next low r' hlow =>
      split at h
      · obtain ⟨-, rfl⟩ := Prod.mk.inj (Option.some.inj h)
        exact Nat.le_of_lt (unicode?_length hlow)
      · cases h
  · split at h <;> cases h
    exact Nat.le_refl _

lemma char?_length (h : char? l = some (c, r)) : r.length < l.length := by
  unfold char? at h
  split at h
  · obtain ⟨⟨m, l₁⟩, hd, hu⟩ := Option.bind_eq_some_iff.mp h
    have hlen := digits4?_length hd
    have hlen' := unicodeChar?_length hu
    simp only [List.length_cons] at hlen hlen' ⊢
    omega
  · obtain ⟨e, -, he⟩ := Option.map_eq_some_iff.mp h
    cases he
    simp only [List.length_cons]
    omega
  · split at h <;> cases h
    simp
  · cases h

/-- A character that is read is one production of the string body. -/
lemma char?_sound (h : char? l = some (c, r)) (hr : StringBody r cs rest) :
    StringBody l (c :: cs) rest := by
  unfold char? at h
  split at h
  · next l' =>
    obtain ⟨⟨m, l₁⟩, hd, hu⟩ := Option.bind_eq_some_iff.mp h
    rw [← unicode?_escape] at hd
    have hm := unicode?_eq_some_iff.mp hd
    unfold unicodeChar? lowSurrogate? at hu
    split at hu
    · next hhigh =>
      split at hu
      · cases hu
      · next low r' hlow =>
        split at hu
        · next hrange =>
          obtain ⟨rfl, rfl⟩ := Prod.mk.inj (Option.some.inj hu)
          exact .pair hm (unicode?_eq_some_iff.mp hlow) hhigh hrange hr
        · cases hu
    · next hhigh =>
      split at hu
      · cases hu
      · next hlow =>
        cases hu
        exact .unicode hm (by omega) hr
  · obtain ⟨e, he, hre⟩ := Option.map_eq_some_iff.mp h
    cases hre
    exact .escaped (escape?_eq_some_iff.mp he) hr
  · split at h
    · cases h
    · next hc =>
      cases h
      simp only [not_or, Nat.not_lt] at hc
      exact .unescaped hc.1 hc.2.1 hc.2.2 hr
  · cases h

lemma char?_quote : char? (.scalar '"' :: l) = none := by simp [char?]

/-- A string body ends at once or starts with a character that is read. -/
lemma char?_complete (h : StringBody l cs rest) :
    (cs = [] ∧ l = .scalar '"' :: rest) ∨
      ∃ c cs' r, cs = c :: cs' ∧ char? l = some (c, r) ∧ StringBody r cs' rest := by
  cases h with
  | close => exact .inl ⟨rfl, rfl⟩
  | @unescaped c l' cs' _ hcontrol hquote hslash hl =>
    refine .inr ⟨c, cs', l', rfl, ?_, hl⟩
    unfold char?
    split
    · next he => exact absurd (CodePoint.scalar.inj (List.cons.inj he).1) hslash
    · next he => exact absurd (CodePoint.scalar.inj (List.cons.inj he).1) hslash
    · next he =>
      cases he
      rw [if_neg]
      simp only [not_or, Nat.not_lt]
      exact ⟨hcontrol, hquote, hslash⟩
    · next hno => exact absurd rfl (hno c l')
  | @escaped e c l' cs' _ he hl =>
    refine .inr ⟨c, cs', l', rfl, ?_, hl⟩
    cases he <;> rfl
  | @unicode _ m l' cs' _ hn hscalar hl =>
    refine .inr ⟨_, cs', l', rfl, ?_, hl⟩
    have hd := unicode?_eq_some_iff.mpr hn
    obtain ⟨c₁, c₂, c₃, c₄, n₁, n₂, n₃, n₄, rfl, -⟩ := hn
    rw [unicode?_escape] at hd
    rw [char?_unicode, hd]
    simp only [Option.bind_some, unicodeChar?]
    rw [if_neg (by omega), if_neg (by omega)]
  | @pair _ high more low l' cs' _ hhigh hlow hh hl hrest =>
    refine .inr ⟨_, cs', l', rfl, ?_, hrest⟩
    have hd := unicode?_eq_some_iff.mpr hhigh
    obtain ⟨c₁, c₂, c₃, c₄, n₁, n₂, n₃, n₄, rfl, -⟩ := hhigh
    rw [unicode?_escape] at hd
    rw [char?_unicode, hd]
    simp only [Option.bind_some, unicodeChar?, lowSurrogate?]
    rw [if_pos hh, unicode?_eq_some_iff.mpr hlow]
    simp only []
    rw [if_pos hl]

lemma string_length (h : string n l = some (cs, r)) : r.length < l.length := by
  induction n generalizing l cs with
  | zero => cases h
  | succ n ih =>
    rw [string] at h
    split at h
    · next hq =>
      cases h
      cases l with
      | nil => cases hq
      | cons c l => simp
    · obtain ⟨⟨c, r'⟩, hc, hs⟩ := Option.bind_eq_some_iff.mp h
      obtain ⟨⟨cs', r''⟩, hs', he⟩ := Option.map_eq_some_iff.mp hs
      cases he
      exact Nat.lt_trans (ih hs') (char?_length hc)

/-- Any bound above the length reads the same. -/
lemma string_fuel {m : Nat} (hn : l.length < n) (hm : l.length < m) : string n l = string m l := by
  induction n generalizing l m with
  | zero => omega
  | succ n ih =>
    cases m with
    | zero => omega
    | succ m =>
      rw [string, string]
      split
      · rfl
      · cases hc : char? l with
        | none => rfl
        | some r =>
          obtain ⟨c, r⟩ := r
          have hlen := char?_length hc
          simp only [Option.bind_some]
          rw [ih (by omega : r.length < n) (by omega : r.length < m)]

lemma stringBody_length (h : stringBody l = some (cs, r)) : r.length < l.length :=
  string_length h

lemma stringBody_eq : stringBody l =
    if l.head? = some (.scalar '"') then some ([], l.tail)
    else (char? l).bind fun r => (stringBody r.2).map fun s => (r.1 :: s.1, s.2) := by
  rw [stringBody, string]
  split
  · rfl
  · cases hc : char? l with
    | none => rfl
    | some r =>
      obtain ⟨c, r⟩ := r
      simp only [Option.bind_some]
      rw [stringBody, string_fuel (char?_length hc) (Nat.lt_succ_self _)]

theorem stringBody_sound (h : stringBody l = some (cs, r)) : StringBody l cs r := by
  have sound : ∀ n l cs, string n l = some (cs, r) → StringBody l cs r := by
    intro n
    induction n with
    | zero =>
      intro l cs h
      cases h
    | succ n ih =>
      intro l cs h
      rw [string] at h
      split at h
      · next hq =>
        cases h
        cases l with
        | nil => cases hq
        | cons c l =>
          cases hq
          exact .close
      · obtain ⟨⟨c, r'⟩, hc, hs⟩ := Option.bind_eq_some_iff.mp h
        obtain ⟨⟨cs', r''⟩, hs', he⟩ := Option.map_eq_some_iff.mp hs
        cases he
        exact char?_sound hc (ih _ _ hs')
  exact sound _ l cs h

theorem stringBody_complete (h : StringBody l cs r) : stringBody l = some (cs, r) := by
  induction hlen : l.length using Nat.strongRecOn generalizing l cs with
  | _ k ih =>
    rw [stringBody_eq]
    rcases char?_complete h with ⟨rfl, rfl⟩ | ⟨c, cs', r', rfl, hc, hr⟩
    · rfl
    · have hq : l.head? ≠ some (.scalar '"') := by
        intro hq
        cases l with
        | nil => cases hq
        | cons c l =>
          cases hq
          rw [char?_quote] at hc
          cases hc
      rw [if_neg hq, hc, Option.bind_some,
        ih r'.length (hlen ▸ char?_length hc) hr rfl]
      rfl

end Strings

section Documents

variable {isNumber : List CodePoint → Bool} {n : Nat} {l r text : List CodePoint} {v : JsonDoc}
  {vs : List JsonDoc} {ms : List (String × JsonDoc)}

lemma primitive_sound (hnumber : ∀ t, isNumber t = true ↔ Number t) {lexeme : List CodePoint}
    (h : primitive isNumber lexeme = some v) : Value (lexeme ++ r) v r := by
  unfold primitive at h
  split at h
  · next he =>
    cases h
    exact he ▸ .null
  · split at h
    · next he =>
      cases h
      exact he ▸ .true
    · split at h
      · next he =>
        cases h
        exact he ▸ .false
      · split at h
        · next hn =>
          cases h
          exact .number ((hnumber _).mp hn)
        · cases h

/-- What the three parsers return is derived by the grammar. -/
theorem sound (hnumber : ∀ t, isNumber t = true ↔ Number t) (n : Nat) :
    (∀ l v r, value isNumber n l = some (v, r) → Value l v r) ∧
      (∀ l vs r, items isNumber n l = some (vs, r) → Items l vs r) ∧
      ∀ l ms r, members isNumber n l = some (ms, r) → Members l ms r := by
  induction n with
  | zero => exact ⟨nofun, nofun, nofun⟩
  | succ n ih =>
    obtain ⟨ihv, ihi, ihm⟩ := ih
    refine ⟨?_, ?_, ?_⟩
    · intro l v r h
      rw [value.eq_def] at h
      simp only [] at h
      split at h
      · obtain ⟨⟨cs, r'⟩, hs, he⟩ := Option.map_eq_some_iff.mp h
        cases he
        exact .string (stringBody_sound hs)
      · next l' =>
        split at h
        · next hclose =>
          obtain ⟨r', hr'⟩ := List.head?_eq_some_iff.mp hclose
          rw [hr'] at h
          cases h
          exact .emptyArray (hr' ▸ ws_skipWs l')
        · obtain ⟨⟨vs, r'⟩, hs, he⟩ := Option.map_eq_some_iff.mp h
          cases he
          exact .array (ihi _ _ _ hs)
      · next l' =>
        split at h
        · next hclose =>
          obtain ⟨r', hr'⟩ := List.head?_eq_some_iff.mp hclose
          rw [hr'] at h
          cases h
          exact .emptyObject (hr' ▸ ws_skipWs l')
        · obtain ⟨⟨ms, r'⟩, hs, he⟩ := Option.map_eq_some_iff.mp h
          cases he
          exact .object (ihm _ _ _ hs)
      · obtain ⟨w, hw, he⟩ := Option.map_eq_some_iff.mp h
        cases he
        have hsplit := primitive_sound hnumber (r := l.dropWhile (fun c => !isDelimiter c)) hw
        rwa [List.takeWhile_append_dropWhile] at hsplit
    · intro l vs r h
      rw [items] at h
      obtain ⟨⟨v, l₂⟩, hv, h⟩ := Option.bind_eq_some_iff.mp h
      have hval := ihv _ _ _ hv
      have hws := ws_skipWs l₂
      simp only [] at h
      split at h
      · next heq =>
        cases h
        exact .last (ws_skipWs l) hval (heq ▸ hws)
      · next heq =>
        obtain ⟨⟨ws, r'⟩, hs, he⟩ := Option.map_eq_some_iff.mp h
        cases he
        exact .cons (ws_skipWs l) hval (heq ▸ hws) (ihi _ _ _ hs)
      · cases h
    · intro l ms r h
      rw [members] at h
      split at h
      · next l₁ hquote =>
        obtain ⟨⟨k, l₂⟩, hk, h⟩ := Option.bind_eq_some_iff.mp h
        have hl : Ws l (.scalar '"' :: l₁) := hquote ▸ ws_skipWs l
        simp only [] at h
        split at h
        · next l₃ hcolon =>
          obtain ⟨⟨v, l₅⟩, hv, h⟩ := Option.bind_eq_some_iff.mp h
          have hc : Ws l₂ (.scalar ':' :: l₃) := hcolon ▸ ws_skipWs l₂
          have hval := ihv _ _ _ hv
          have hws := ws_skipWs l₅
          simp only [] at h
          split at h
          · next heq =>
            cases h
            exact .last hl (stringBody_sound hk) hc (ws_skipWs l₃) hval (heq ▸ hws)
          · next heq =>
            obtain ⟨⟨ws, r'⟩, hs, he⟩ := Option.map_eq_some_iff.mp h
            cases he
            exact .cons hl (stringBody_sound hk) hc (ws_skipWs l₃) hval (heq ▸ hws)
              (ihm _ _ _ hs)
          · cases h
        · cases h
      · cases h

/-- The parsers return a rest of the text. -/
theorem length_le (n : Nat) :
    (∀ l v r, value isNumber n l = some (v, r) → r.length ≤ l.length) ∧
      (∀ l vs r, items isNumber n l = some (vs, r) → r.length ≤ l.length) ∧
      ∀ l ms r, members isNumber n l = some (ms, r) → r.length ≤ l.length := by
  induction n with
  | zero => exact ⟨nofun, nofun, nofun⟩
  | succ n ih =>
    obtain ⟨ihv, ihi, ihm⟩ := ih
    refine ⟨?_, ?_, ?_⟩
    · intro l v r h
      rw [value.eq_def] at h
      simp only [] at h
      split at h
      · obtain ⟨⟨cs, r'⟩, hs, he⟩ := Option.map_eq_some_iff.mp h
        cases he
        have hlen := string_length hs
        simp only [List.length_cons]
        omega
      · next l' =>
        have hws := length_skipWs_le l'
        split at h
        · cases h
          simp only [List.length_cons, List.length_tail]
          omega
        · obtain ⟨⟨vs, r'⟩, hs, he⟩ := Option.map_eq_some_iff.mp h
          cases he
          exact Nat.le_succ_of_le (ihi _ _ _ hs)
      · next l' =>
        have hws := length_skipWs_le l'
        split at h
        · cases h
          simp only [List.length_cons, List.length_tail]
          omega
        · obtain ⟨⟨ms, r'⟩, hs, he⟩ := Option.map_eq_some_iff.mp h
          cases he
          exact Nat.le_succ_of_le (ihm _ _ _ hs)
      · obtain ⟨w, -, he⟩ := Option.map_eq_some_iff.mp h
        cases he
        exact (List.dropWhile_suffix _).length_le
    · intro l vs r h
      rw [items] at h
      obtain ⟨⟨v, l₂⟩, hv, h⟩ := Option.bind_eq_some_iff.mp h
      have h₁ := length_skipWs_le l
      have h₂ := ihv _ _ _ hv
      have h₃ := length_skipWs_le l₂
      simp only [] at h
      split at h
      · next heq =>
        cases h
        rw [heq, List.length_cons] at h₃
        omega
      · next heq =>
        obtain ⟨⟨ws, r'⟩, hs, he⟩ := Option.map_eq_some_iff.mp h
        cases he
        have h₄ := ihi _ _ _ hs
        rw [heq, List.length_cons] at h₃
        change r'.length ≤ l.length
        omega
      · cases h
    · intro l ms r h
      rw [members] at h
      have h₁ := length_skipWs_le l
      split at h
      · next l₁ hquote =>
        obtain ⟨⟨k, l₂⟩, hk, h⟩ := Option.bind_eq_some_iff.mp h
        have h₂ := string_length hk
        have h₃ := length_skipWs_le l₂
        rw [hquote, List.length_cons] at h₁
        simp only [] at h
        split at h
        · next l₃ hcolon =>
          obtain ⟨⟨v, l₅⟩, hv, h⟩ := Option.bind_eq_some_iff.mp h
          have h₄ := length_skipWs_le l₃
          have h₅ := ihv _ _ _ hv
          have h₆ := length_skipWs_le l₅
          rw [hcolon, List.length_cons] at h₃
          simp only [] at h
          split at h
          · next heq =>
            cases h
            rw [heq, List.length_cons] at h₆
            omega
          · next heq =>
            obtain ⟨⟨ws, r'⟩, hs, he⟩ := Option.map_eq_some_iff.mp h
            cases he
            have h₇ := ihm _ _ _ hs
            rw [heq, List.length_cons] at h₆
            change r'.length ≤ l.length
            omega
          · cases h
        · cases h
      · cases h

/-- What may follow a number or a literal. -/
def Follow (r : List CodePoint) : Prop := ∀ c l, r = c :: l → isDelimiter c = true

lemma follow_of_ws {c : CodePoint} (h : Ws l (c :: r)) (hc : isDelimiter c = true) : Follow l := by
  intro b l' hl
  subst hl
  cases h with
  | nil => exact hc
  | cons hb _ => simp [isDelimiter, isSpace_iff.mpr hb]

lemma follow_of_ws_nil (h : Ws l []) : Follow l := by
  intro b l' hl
  subst hl
  cases h with
  | cons hb _ => simp [isDelimiter, isSpace_iff.mpr hb]

lemma isDelimiter_of_isDigit {c : CodePoint} (h : c.isDigit = true) : isDelimiter c = false := by
  cases hd : isDelimiter c with
  | false => rfl
  | true =>
    simp only [isDelimiter, isSpace, Bool.or_eq_true, decide_eq_true_eq] at hd
    rcases hd with ((rfl | rfl) | rfl) | ((rfl | rfl) | rfl) | rfl <;> cases h

lemma number_head {lexeme : List CodePoint} (h : Number lexeme) :
    ∃ c l, lexeme = c :: l ∧ (c = .scalar '-' ∨ c.isDigit = true) := by
  obtain ⟨minus, integer, fraction, exponent, rfl, rfl | rfl, hi, -, -⟩ := h
  · rcases hi with rfl | ⟨⟨hne, hall⟩, -⟩
    · exact ⟨_, _, rfl, .inr rfl⟩
    · cases integer with
      | nil => exact absurd rfl hne
      | cons c l => exact ⟨c, _, rfl, .inr (hall c (by simp))⟩
  · exact ⟨_, _, rfl, .inl rfl⟩

/-- No character of a number ends it. -/
lemma number_inside {lexeme : List CodePoint} (h : Number lexeme) :
    ∀ c ∈ lexeme, isDelimiter c = false := by
  have hdigits : ∀ l, Digits l → ∀ c ∈ l, isDelimiter c = false :=
    fun l hl c hc => isDelimiter_of_isDigit (hl.2 c hc)
  obtain ⟨minus, integer, fraction, exponent, rfl, hm, hi, hf, he⟩ := h
  intro c hc
  simp only [List.mem_append] at hc
  rcases hc with ((hc | hc) | hc) | hc
  · rcases hm with rfl | rfl
    · cases hc
    · obtain rfl := List.mem_singleton.mp hc
      rfl
  · rcases hi with rfl | ⟨hd, -⟩
    · obtain rfl := List.mem_singleton.mp hc
      rfl
    · exact hdigits _ hd c hc
  · rcases hf with rfl | ⟨digits, rfl, hd⟩
    · cases hc
    · rcases List.mem_cons.mp hc with rfl | hc
      · rfl
      · exact hdigits _ hd c hc
  · rcases he with rfl | ⟨e, sign, digits, rfl, he, hs, hd⟩
    · cases hc
    · rcases List.mem_cons.mp hc with rfl | hc
      · rcases he with rfl | rfl <;> rfl
      · rcases List.mem_append.mp hc with hc | hc
        · rcases hs with rfl | rfl | rfl
          · cases hc
          · obtain rfl := List.mem_singleton.mp hc
            rfl
          · obtain rfl := List.mem_singleton.mp hc
            rfl
        · exact hdigits _ hd c hc

/-- A value starts with a character that is no delimiter. -/
lemma value_head (h : Value l v r) : ∃ c l', l = c :: l' ∧ isDelimiter c = false := by
  cases h with
  | null => exact ⟨_, _, rfl, rfl⟩
  | true => exact ⟨_, _, rfl, rfl⟩
  | false => exact ⟨_, _, rfl, rfl⟩
  | @number lexeme _ hn =>
    have hinside := number_inside hn
    obtain ⟨c, l', rfl, -⟩ := number_head hn
    exact ⟨c, _, rfl, hinside c (by simp)⟩
  | string _ => exact ⟨_, _, rfl, rfl⟩
  | emptyArray _ => exact ⟨_, _, rfl, rfl⟩
  | array _ => exact ⟨_, _, rfl, rfl⟩
  | emptyObject _ => exact ⟨_, _, rfl, rfl⟩
  | object _ => exact ⟨_, _, rfl, rfl⟩

lemma skipWs_eq_of_value (hl : Ws text l) (h : Value l v r) : skipWs text = l := by
  obtain ⟨c, l', rfl, hc⟩ := value_head h
  have hspace : isSpace c = false := by
    simp only [isDelimiter, Bool.or_eq_false_iff] at hc
    exact hc.2
  exact skipWs_eq_cons hl hspace

/-- A value that is no string and no container. -/
lemma value_other (isNumber : List CodePoint → Bool) {c : CodePoint} (hq : c ≠ .scalar '"')
    (ha : c ≠ .scalar '[') (ho : c ≠ .scalar '{') :
    value isNumber (n + 1) (c :: l) =
      (primitive isNumber ((c :: l).takeWhile (fun c => !isDelimiter c))).map
        (·, (c :: l).dropWhile (fun c => !isDelimiter c)) := by
  rw [value.eq_def]
  simp only []
  split
  · next he => exact absurd (List.cons.inj he).1 hq
  · next he => exact absurd (List.cons.inj he).1 ha
  · next he => exact absurd (List.cons.inj he).1 ho
  · rfl

/-- A lexeme without delimiters, followed by a delimiter or nothing, is read as a whole. -/
lemma value_of_primitive {c : CodePoint} {lexeme : List CodePoint}
    (hp : primitive isNumber (c :: lexeme) = some v)
    (hall : ∀ b ∈ c :: lexeme, isDelimiter b = false) (hr : Follow r)
    (hq : c ≠ .scalar '"') (ha : c ≠ .scalar '[') (ho : c ≠ .scalar '{') :
    value isNumber (n + 1) (c :: lexeme ++ r) = some (v, r) := by
  have htake : (c :: lexeme ++ r).takeWhile (fun c => !isDelimiter c) = c :: lexeme ∧
      (c :: lexeme ++ r).dropWhile (fun c => !isDelimiter c) = r := by
    rw [List.takeWhile_append_of_pos (fun b hb => by simp [hall b hb]),
      List.dropWhile_append_of_pos (fun b hb => by simp [hall b hb])]
    cases r with
    | nil => simp
    | cons b r => simp [hr b r rfl]
  have hvalue := value_other isNumber (n := n) (l := lexeme ++ r) hq ha ho
  rw [← List.cons_append, htake.1, htake.2, hp] at hvalue
  exact hvalue

lemma number_ne {lexeme : List CodePoint} (h : Number lexeme) {c : CodePoint}
    (hm : c ≠ .scalar '-') (hd : c.isDigit = false) : lexeme ≠ c :: l := by
  obtain ⟨b, l', rfl, hb⟩ := number_head h
  intro he
  obtain ⟨rfl, -⟩ := List.cons.inj he
  rcases hb with hb | hb
  · exact hm hb
  · rw [hd] at hb
    cases hb

lemma value_of_number (hnumber : ∀ t, isNumber t = true ↔ Number t) {lexeme : List CodePoint}
    (h : Number lexeme) (hr : Follow r) :
    value isNumber (n + 1) (lexeme ++ r) = some (.number lexeme, r) := by
  have hinside := number_inside h
  have hp : primitive isNumber lexeme = some (.number lexeme) := by
    have hnull : lexeme ≠ CodePoint.ofString "null" :=
      number_ne (c := .scalar 'n') h (by decide) rfl
    have htrue : lexeme ≠ CodePoint.ofString "true" :=
      number_ne (c := .scalar 't') h (by decide) rfl
    have hfalse : lexeme ≠ CodePoint.ofString "false" :=
      number_ne (c := .scalar 'f') h (by decide) rfl
    unfold primitive
    rw [if_neg hnull, if_neg htrue, if_neg hfalse, if_pos ((hnumber lexeme).mpr h)]
  obtain ⟨c, l, rfl, hc⟩ := number_head h
  refine value_of_primitive hp hinside hr ?_ ?_ ?_
  all_goals
    rintro rfl
    rcases hc with hc | hc
    · exact absurd hc (by decide)
    · cases hc

/-- What the grammar derives is returned by the parsers, given enough fuel. -/
theorem complete (hnumber : ∀ t, isNumber t = true ↔ Number t) (n : Nat) :
    (∀ l v r, 2 * l.length < n → Follow r → Value l v r → value isNumber n l = some (v, r)) ∧
      (∀ l vs r, 2 * l.length + 1 < n → Items l vs r → items isNumber n l = some (vs, r)) ∧
      ∀ l ms r, 2 * l.length + 1 < n → Members l ms r → members isNumber n l = some (ms, r) := by
  induction n with
  | zero =>
    exact ⟨fun _ _ _ h => absurd h (by omega), fun _ _ _ h => absurd h (by omega),
      fun _ _ _ h => absurd h (by omega)⟩
  | succ n ih =>
    obtain ⟨ihv, ihi, ihm⟩ := ih
    refine ⟨?_, ?_, ?_⟩
    · intro l v r hlen hr h
      cases h with
      | null => exact value_of_primitive rfl (by decide) hr (by decide) (by decide) (by decide)
      | true => exact value_of_primitive rfl (by decide) hr (by decide) (by decide) (by decide)
      | false => exact value_of_primitive rfl (by decide) hr (by decide) (by decide) (by decide)
      | number hn => exact value_of_number hnumber hn hr
      | string hs =>
        rw [value, stringBody_complete hs]
        rfl
      | emptyArray hws =>
        have hclose := skipWs_eq_cons hws rfl
        simp only [value, hclose]
        rfl
      | @array l' vs _ hi =>
        have hitems := ihi l' vs r (by simp only [List.length_cons] at hlen; omega) hi
        have hopen : (skipWs l').head? ≠ some (.scalar ']') := by
          cases hi with
          | last hl hv _ =>
            obtain ⟨c, l₁, rfl, hc⟩ := value_head hv
            rw [skipWs_eq_of_value hl hv]
            rintro ⟨⟩
            cases hc
          | cons hl hv _ _ =>
            obtain ⟨c, l₁, rfl, hc⟩ := value_head hv
            rw [skipWs_eq_of_value hl hv]
            rintro ⟨⟩
            cases hc
        simp only [value, if_neg hopen, hitems]
        rfl
      | emptyObject hws =>
        have hclose := skipWs_eq_cons hws rfl
        simp only [value, hclose]
        rfl
      | @object l' ms _ hm =>
        have hmembers := ihm l' ms r (by simp only [List.length_cons] at hlen; omega) hm
        have hopen : (skipWs l').head? ≠ some (.scalar '}') := by
          cases hm with
          | last hl _ _ _ _ _ =>
            rw [skipWs_eq_cons hl rfl]
            rintro ⟨⟩
          | cons hl _ _ _ _ _ _ =>
            rw [skipWs_eq_cons hl rfl]
            rintro ⟨⟩
        simp only [value, if_neg hopen, hmembers]
        rfl
    · intro l vs r hlen h
      have hws := length_skipWs_le l
      cases h with
      | @last _ l₁ v l₂ _ hl hv hclose =>
        have hskip := skipWs_eq_of_value hl hv
        have hval := ihv l₁ v l₂ (by rw [← hskip]; omega) (follow_of_ws hclose rfl) hv
        simp only [items, hskip, hval, Option.bind_some, skipWs_eq_cons hclose rfl]
      | @cons _ l₁ v l₂ l₃ vs _ hl hv hcomma hrest =>
        have hskip := skipWs_eq_of_value hl hv
        have hval := ihv l₁ v l₂ (by rw [← hskip]; omega) (follow_of_ws hcomma rfl) hv
        have h₁ := (length_le n).1 l₁ v l₂ hval
        have h₂ := length_skipWs_le l₂
        have hskip₂ := skipWs_eq_cons hcomma rfl
        rw [hskip₂, List.length_cons] at h₂
        have hitems := ihi l₃ vs r (by rw [hskip] at hws; omega) hrest
        simp only [items, hskip, hval, Option.bind_some, hskip₂, hitems, Option.map_some]
    · intro l ms r hlen h
      have hws := length_skipWs_le l
      cases h with
      | @last _ l₁ k l₂ l₃ l₄ v l₅ _ hl hk hc hs hv hclose =>
        have hquote := skipWs_eq_cons hl rfl
        have hcolon := skipWs_eq_cons hc rfl
        have hskip := skipWs_eq_of_value hs hv
        have hkey := stringBody_complete hk
        have h₁ := string_length hkey
        have h₂ := length_skipWs_le l₂
        have h₃ := length_skipWs_le l₃
        rw [hquote, List.length_cons] at hws
        rw [hcolon, List.length_cons] at h₂
        rw [hskip] at h₃
        have hval := ihv l₄ v l₅ (by omega) (follow_of_ws hclose rfl) hv
        simp only [members, hquote, hkey, hcolon, hskip, hval, Option.bind_some,
          skipWs_eq_cons hclose rfl]
      | @cons _ l₁ k l₂ l₃ l₄ v l₅ l₆ ms _ hl hk hc hs hv hcomma hrest =>
        have hquote := skipWs_eq_cons hl rfl
        have hcolon := skipWs_eq_cons hc rfl
        have hskip := skipWs_eq_of_value hs hv
        have hkey := stringBody_complete hk
        have h₁ := string_length hkey
        have h₂ := length_skipWs_le l₂
        have h₃ := length_skipWs_le l₃
        rw [hquote, List.length_cons] at hws
        rw [hcolon, List.length_cons] at h₂
        rw [hskip] at h₃
        have hval := ihv l₄ v l₅ (by omega) (follow_of_ws hcomma rfl) hv
        have h₄ := (length_le n).1 l₄ v l₅ hval
        have h₅ := length_skipWs_le l₅
        have hskip₂ := skipWs_eq_cons hcomma rfl
        rw [hskip₂, List.length_cons] at h₅
        have hmembers := ihm l₆ ms r (by omega) hrest
        simp only [members, hquote, hkey, hcolon, hskip, hval, Option.bind_some, hskip₂,
          hmembers, Option.map_some]

/-- The parser computes the grammar. -/
theorem parse_eq_some_iff (hnumber : ∀ t, isNumber t = true ↔ Number t) :
    parse isNumber text = some v ↔ Document text v := by
  constructor
  · intro h
    obtain ⟨⟨w, r⟩, hv, hr⟩ := Option.bind_eq_some_iff.mp h
    simp only [] at hr
    split at hr
    · next hend =>
      cases hr
      exact ⟨_, _, ws_skipWs text, (sound hnumber _).1 _ _ _ hv, hend ▸ ws_skipWs r⟩
    · cases hr
  · rintro ⟨l, r, hl, hv, hr⟩
    have hskip := skipWs_eq_of_value hl hv
    have hlen := length_skipWs_le text
    rw [hskip] at hlen
    have hval := (complete hnumber (2 * text.length + 1)).1 l v r (by omega)
      (follow_of_ws_nil hr) hv
    have hend : skipWs r = [] := skipWs_eq hr
    simp only [parse, hskip, hval, Option.bind_some, hend, if_true]

end Documents

end JsonParser

namespace JsonDoc

mutual

theorem unique_iff : ∀ v : JsonDoc, v.unique = true ↔ v.UniqueKeys
  | .null => ⟨fun _ => .null, fun _ => rfl⟩
  | .bool _ => ⟨fun _ => .bool, fun _ => rfl⟩
  | .number _ => ⟨fun _ => .number, fun _ => rfl⟩
  | .str _ => ⟨fun _ => .str, fun _ => rfl⟩
  | .arr items => by
    rw [unique, uniqueItems_iff items]
    exact ⟨fun h => .arr h, fun h => by cases h with | arr h => exact h⟩
  | .obj members => by
    rw [unique, uniqueMembers_iff [] members]
    constructor
    · rintro ⟨hk, -, h⟩
      exact .obj hk h
    · intro h
      cases h with
      | obj hk h => exact ⟨hk, by simp, h⟩

theorem uniqueItems_iff : ∀ items : List JsonDoc,
    uniqueItems items = true ↔ ∀ v ∈ items, v.UniqueKeys
  | [] => by simp [uniqueItems]
  | v :: items => by
    rw [uniqueItems, Bool.and_eq_true, unique_iff v, uniqueItems_iff items]
    simp

theorem uniqueMembers_iff : ∀ (keys : List String) (members : List (String × JsonDoc)),
    uniqueMembers keys members = true ↔ (members.map Prod.fst).Nodup ∧
      (∀ k ∈ members.map Prod.fst, k ∉ keys) ∧ ∀ m ∈ members, m.2.UniqueKeys
  | keys, [] => by simp [uniqueMembers]
  | keys, (k, v) :: members => by
    rw [uniqueMembers, Bool.and_eq_true, Bool.and_eq_true, unique_iff v,
      uniqueMembers_iff (k :: keys) members]
    simp only [Bool.not_eq_true', List.contains_eq_mem, decide_eq_false_iff_not, List.map_cons,
      List.nodup_cons, List.mem_cons, not_or, forall_eq_or_imp]
    constructor
    · rintro ⟨⟨hk, hv⟩, hn, hkeys, hms⟩
      exact ⟨⟨fun hmem => (hkeys k hmem).1 rfl, hn⟩, ⟨hk, fun b hb => (hkeys b hb).2⟩, hv, hms⟩
    · rintro ⟨⟨hk, hn⟩, ⟨hkeys, hrest⟩, hv, hms⟩
      exact ⟨⟨hkeys, hv⟩, hn, fun b hb => ⟨fun he => hk (he ▸ hb), hrest b hb⟩, hms⟩

end

end JsonDoc

end ChatBI.Lib
