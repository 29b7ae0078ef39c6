import ChatBI.Report.Feed
import ChatBI.Report.Number

/-!
# The decoder follows the grammar

From a state that waits for a string, a value or the rest of a container, the decoder does what
the recursive descent parser does: it refuses where the parser fails, and else emits the draft
text of what was parsed and goes on behind it.
-/

namespace ChatBI.Report

open ChatBI.Lib

/-- What a decoder emits on the rest of a text, `none` when it or `finish` raises. -/
def Decoder.outcome (d : Decoder) (l : List CodePoint) : Option (List Piece) :=
  match d.run l with
  | .error _ => none
  | .ok (d', pieces) =>
    match d'.finish with
    | .error _ => none
    | .ok _ => some pieces

/-- The outcome of a step and what follows it. -/
def next (x : Except String Decoder) (l : List CodePoint) : Option (List Piece) :=
  match x with
  | .error _ => none
  | .ok d => d.outcome l

def nextEmitting (x : Except String (Decoder × List Piece)) (l : List CodePoint) :
    Option (List Piece) :=
  match x with
  | .error _ => none
  | .ok (d, pieces) => (d.outcome l).map (pieces ++ ·)

/-- Emitting characters at their positions, as far as the bound allows. -/
def emitting (s : Drafts) : List (DraftKey × Char) → (Drafts → Option (List Piece)) →
    Option (List Piece)
  | [], k => k s
  | (key, c) :: es, k =>
    if s.maxDraftBytes < s.draftBytes + c.utf8Size then none
    else (emitting (s.add key c) es k).map (⟨key, s.draftLengths key, c⟩ :: ·)

section Outcome

variable {d : Decoder} {c : CodePoint} {l : List CodePoint} {s : Drafts}
  {es fs : List (DraftKey × Char)} {k : Drafts → Option (List Piece)}

lemma outcome_cons : d.outcome (c :: l) = nextEmitting (d.consumeChar c) l := by
  unfold Decoder.outcome nextEmitting
  rw [Decoder.run]
  cases d.consumeChar c with
  | error e => rfl
  | ok r =>
    obtain ⟨d', pieces⟩ := r
    simp only [Decoder.outcome]
    cases d'.run l with
    | error e => rfl
    | ok r' =>
      obtain ⟨d'', more⟩ := r'
      simp only []
      cases d''.finish <;> rfl

@[simp] lemma nextEmitting_silent {x : Except String Decoder} :
    nextEmitting ((·, []) <$> x) l = next x l := by
  cases x with
  | error e => rfl
  | ok d' =>
    change (d'.outcome l).map ([] ++ ·) = d'.outcome l
    simp

@[simp] lemma nextEmitting_ok_nil : nextEmitting (.ok (d, [])) l = d.outcome l :=
  nextEmitting_silent (x := .ok d)

@[simp] lemma nextEmitting_error {e : String} : nextEmitting (.error e) l = none := rfl

@[simp] lemma next_error {e : String} : next (.error e) l = none := rfl

@[simp] lemma next_ok : next (.ok d) l = d.outcome l := rfl

@[simp] lemma emitting_nil : emitting s [] k = k s := rfl

lemma emitting_append :
    emitting s (es ++ fs) k = emitting s es (fun t => emitting t fs k) := by
  induction es generalizing s with
  | nil => rfl
  | cons e es ih =>
    obtain ⟨key, c⟩ := e
    rw [List.cons_append, emitting, emitting, ih]

lemma emitting_none : emitting s es (fun _ => none) = none := by
  induction es generalizing s with
  | nil => rfl
  | cons e es ih =>
    obtain ⟨key, c⟩ := e
    rw [emitting, ih]
    split <;> rfl

lemma outcome_nil (hp : d.primitive = none) (hf : d.finished = false) :
    d.outcome [] =
      if d.string = none ∧ d.stack = [] ∧ d.rootComplete then some [] else none := by
  simp only [Decoder.outcome, Decoder.run, Decoder.finish, hp, hf, require, if_true]
  by_cases h : d.string = none ∧ d.stack = [] ∧ d.rootComplete
  · rw [if_pos h]
    simp only [h]
    rfl
  · rw [if_neg h]
    simp only [Bind.bind, Except.bind]
    rw [if_neg h]

lemma outcome_nil_of_string {t : Token} (hp : d.primitive = none) (hf : d.finished = false)
    (h : d.string = some t) : d.outcome [] = none := by
  rw [outcome_nil hp hf, h, if_neg]
  rintro ⟨⟨⟩, -⟩

end Outcome

section Strings

variable {d : Decoder} {t : Token} {l : List CodePoint}

/-- A token that is not inside an escape. -/
def Token.Fresh (t : Token) : Prop :=
  t.escaped = false ∧ t.unicodeDigits = none ∧ t.pendingHighSurrogate = none ∧
    t.expectLow = none

lemma consumeChar_of_string {u : Token} (c : CodePoint) (h : d.string = some u) :
    d.consumeChar c = d.consumeStringChar u c := by
  simp only [Decoder.consumeChar, h]

/-- One digit of an escape, behind the ones before it. -/
lemma outcome_digit (he : t.expectLow = none) (digits : List Nat) (c : CodePoint) :
    { d with string := some { t with unicodeDigits := some digits } }.outcome (c :: l) =
      match c.hexDigit? with
      | none => none
      | some digit =>
        if digits.length = 3 then
          nextEmitting (d.finishUnicode { t with unicodeDigits := none }
            (hexValue (digits ++ [digit]))) l
        else { d with string := some { t with
          unicodeDigits := some (digits ++ [digit]) } }.outcome l := by
  rw [outcome_cons, consumeChar_of_string c rfl]
  simp only [Decoder.consumeStringChar, he]
  cases c.hexDigit? with
  | none => rfl
  | some digit =>
    simp only []
    split
    · rfl
    · exact nextEmitting_ok_nil

/-- The four digits of an escape, read one by one. -/
lemma outcome_digits (hp : d.primitive = none) (hf : d.finished = false) (he : t.expectLow = none) :
    { d with string := some { t with unicodeDigits := some [] } }.outcome l =
      match JsonParser.digits4? l with
      | none => none
      | some (n, r) => nextEmitting (d.finishUnicode { t with unicodeDigits := none } n) r := by
  have hnil : ∀ digits : List Nat,
      { d with string := some { t with unicodeDigits := some digits } }.outcome [] = none :=
    fun digits => outcome_nil_of_string hp hf rfl
  rcases l with _ | ⟨c₁, l⟩
  · exact hnil []
  rw [outcome_digit he, JsonParser.digits4?.eq_def]
  cases h₁ : c₁.hexDigit? with
  | none => rcases l with _ | ⟨c₂, _ | ⟨c₃, _ | ⟨c₄, l⟩⟩⟩ <;> simp [JsonParser.hex4?, h₁]
  | some n₁ =>
    rcases l with _ | ⟨c₂, l⟩
    · exact hnil [n₁]
    refine (outcome_digit he [n₁] c₂).trans ?_
    cases h₂ : c₂.hexDigit? with
    | none => rcases l with _ | ⟨c₃, _ | ⟨c₄, l⟩⟩ <;> simp [JsonParser.hex4?, h₁, h₂]
    | some n₂ =>
      rcases l with _ | ⟨c₃, l⟩
      · exact hnil [n₁, n₂]
      refine (outcome_digit he [n₁, n₂] c₃).trans ?_
      cases h₃ : c₃.hexDigit? with
      | none => rcases l with _ | ⟨c₄, l⟩ <;> simp [JsonParser.hex4?, h₁, h₂, h₃]
      | some n₃ =>
        rcases l with _ | ⟨c₄, l⟩
        · exact hnil [n₁, n₂, n₃]
        refine (outcome_digit he [n₁, n₂, n₃] c₄).trans ?_
        cases h₄ : c₄.hexDigit? with
        | none => simp [JsonParser.hex4?, h₁, h₂, h₃, h₄]
        | some n₄ => simp [JsonParser.hex4?, h₁, h₂, h₃, h₄]

/-- A character of a string is emitted by a token that has nothing pending. -/
lemma emitStringChar_string (u : Option Token) (c : Char) :
    { d with string := u }.emitStringChar t c = d.emitStringChar t c := by
  unfold Decoder.emitStringChar
  split <;> rfl

/-- After a high surrogate only the escape of a low one goes on. -/
lemma outcome_lowSurrogate (hp : d.primitive = none) (hf : d.finished = false) (ht : t.Fresh)
    (n : Nat) :
    { d with string := some { t with
        pendingHighSurrogate := some n, expectLow := some .slash } }.outcome l =
      match JsonParser.lowSurrogate? n l with
      | none => none
      | some (c, r) => nextEmitting (d.emitStringChar t c) r := by
  obtain ⟨role, field, index, keyParts, escaped, digits, pending, low⟩ := t
  obtain ⟨rfl, rfl, rfl, rfl⟩ := ht
  rcases l with _ | ⟨c, l⟩
  · exact outcome_nil_of_string hp hf rfl
  rw [outcome_cons, consumeChar_of_string c rfl]
  simp only [Decoder.consumeStringChar]
  by_cases hc : c = .scalar '\\'
  · subst hc
    rw [if_pos rfl, nextEmitting_ok_nil]
    rcases l with _ | ⟨c, l⟩
    · exact outcome_nil_of_string hp hf rfl
    rw [outcome_cons, consumeChar_of_string c rfl]
    simp only [Decoder.consumeStringChar]
    by_cases hc : c = .scalar 'u'
    · subst hc
      rw [if_pos rfl, nextEmitting_ok_nil, JsonParser.lowSurrogate?, JsonParser.unicode?_escape]
      refine (outcome_digits (t := ⟨role, field, index, keyParts, false, none, some n, none⟩)
        hp hf rfl).trans ?_
      cases JsonParser.digits4? l with
      | none => rfl
      | some r =>
        simp only [Decoder.finishUnicode]
        by_cases hrange : 0xDC00 ≤ r.1 ∧ r.1 ≤ 0xDFFF
        · rw [if_pos hrange, if_pos hrange]
          rfl
        · rw [if_neg hrange, if_neg hrange]
          rfl
    · rw [if_neg hc, JsonParser.lowSurrogate?, JsonParser.unicode?]
      · rfl
      · rintro l' ⟨⟩
        exact hc rfl
  · rw [if_neg hc, JsonParser.lowSurrogate?, JsonParser.unicode?]
    · rfl
    · rintro l' ⟨⟩
      exact hc rfl

/-- What follows the digits of an escape: a low surrogate after a high one. -/
lemma nextEmitting_finishUnicode (hp : d.primitive = none) (hf : d.finished = false)
    (ht : t.Fresh) (n : Nat) :
    nextEmitting (d.finishUnicode t n) l =
      match JsonParser.unicodeChar? n l with
      | none => none
      | some (c, r) => nextEmitting (d.emitStringChar t c) r := by
  simp only [Decoder.finishUnicode, ht.2.2.1, JsonParser.unicodeChar?]
  by_cases hhigh : 0xD800 ≤ n ∧ n ≤ 0xDBFF
  · rw [if_pos hhigh, if_pos hhigh, nextEmitting_ok_nil]
    exact outcome_lowSurrogate hp hf ht n
  · rw [if_neg hhigh, if_neg hhigh]
    by_cases hl : 0xDC00 ≤ n ∧ n ≤ 0xDFFF
    · rw [if_pos hl, if_pos hl]
      rfl
    · rw [if_neg hl, if_neg hl]

lemma escapes_eq (e : Char) : escapes e = JsonParser.escape? e := rfl

/-- A plain character of a string. -/
lemma outcome_plain (ht : t.Fresh) {e : Char} (hquote : e ≠ '"') (hslash : e ≠ '\\') :
    { d with string := some t }.outcome (.scalar e :: l) =
      match JsonParser.char? (.scalar e :: l) with
      | none => none
      | some (c, r) => nextEmitting (d.emitStringChar t c) r := by
  obtain ⟨hescaped, hdigits, -, hlow⟩ := ht
  have hchar : JsonParser.char? (.scalar e :: l) =
      if e.toNat < 0x20 then none else some (e, l) := by
    rw [JsonParser.char?]
    · simp only [hquote, hslash, or_false]
    · exact fun _ _ h => hslash h
    · exact fun _ _ _ h => hslash h
  have hstep : { d with string := some t }.consumeStringChar t (.scalar e) =
      if e.toNat < 0x20 then .error "JSON 字符串包含无效字符" else d.emitStringChar t e := by
    simp only [Decoder.consumeStringChar, hlow, hdigits, hescaped, Bool.false_eq_true, if_false,
      emitStringChar_string]
  rw [outcome_cons, consumeChar_of_string _ rfl, hstep, hchar]
  by_cases hcontrol : e.toNat < 0x20
  · rw [if_pos hcontrol, if_pos hcontrol]
    rfl
  · rw [if_neg hcontrol, if_neg hcontrol]

/-- One character of a string that does not end. -/
lemma outcome_char (hp : d.primitive = none) (hf : d.finished = false) (ht : t.Fresh)
    (hq : l.head? ≠ some (.scalar '"')) :
    { d with string := some t }.outcome l =
      match JsonParser.char? l with
      | none => none
      | some (c, r) => nextEmitting (d.emitStringChar t c) r := by
  rcases l with _ | ⟨c, l⟩
  · exact outcome_nil_of_string hp hf rfl
  cases c with
  | surrogate n =>
    rw [outcome_cons, consumeChar_of_string _ rfl]
    simp only [Decoder.consumeStringChar, ht.1, ht.2.1, ht.2.2.2]
    rfl
  | scalar e =>
    by_cases he : e = '\\'
    swap
    · exact outcome_plain ht (fun h => hq (h ▸ rfl)) he
    subst he
    have hfresh := ht
    obtain ⟨role, field, index, keyParts, escaped, digits, pending, low⟩ := t
    obtain ⟨rfl, rfl, rfl, rfl⟩ := ht
    rw [outcome_cons, consumeChar_of_string _ rfl]
    simp only [Decoder.consumeStringChar, Bool.false_eq_true, if_false, nextEmitting_ok_nil]
    rcases l with _ | ⟨c, l⟩
    · exact outcome_nil_of_string hp hf rfl
    rw [outcome_cons, consumeChar_of_string c rfl]
    simp only [Decoder.consumeStringChar, if_true]
    cases c with
    | surrogate n => rfl
    | scalar e =>
      by_cases hu : e = 'u'
      · subst hu
        rw [if_pos rfl, nextEmitting_ok_nil, JsonParser.char?_unicode]
        refine (outcome_digits (t := ⟨role, field, index, keyParts, false, none, none, none⟩)
          hp hf rfl).trans ?_
        cases JsonParser.digits4? l with
        | none => rfl
        | some r => exact nextEmitting_finishUnicode hp hf hfresh r.1
      · rw [if_neg (fun h => hu (CodePoint.scalar.inj h))]
        simp only [escapes_eq]
        have hchar : JsonParser.char? (.scalar '\\' :: .scalar e :: l) =
            (JsonParser.escape? e).map (·, l) := by
          rw [JsonParser.char?]
          exact hu
        rw [hchar]
        cases JsonParser.escape? e with
        | none => rfl
        | some decoded => exact congrArg (nextEmitting · l) (emitStringChar_string _ decoded)

/-- A string token after the characters that were read. -/
def Token.read (t : Token) (cs : List Char) : Token :=
  match t.role with
  | .key => { t with keyParts := t.keyParts ++ cs }
  | .value => t

/-- The draft text of a string token. -/
def Token.emission (t : Token) (cs : List Char) : List (DraftKey × Char) :=
  match t.role, t.field with
  | .value, some field => cs.map ((field, t.index), ·)
  | _, _ => []

lemma Token.Fresh.read (ht : t.Fresh) (cs : List Char) : (t.read cs).Fresh := by
  unfold Token.read
  split <;> exact ht

lemma read_cons (c : Char) (cs : List Char) : (t.read [c]).read cs = t.read (c :: cs) := by
  obtain ⟨role, field, index, keyParts, escaped, digits, pending, low⟩ := t
  cases role <;> simp [Token.read]

lemma emission_cons (c : Char) (cs : List Char) :
    t.emission [c] ++ (t.read [c]).emission cs = t.emission (c :: cs) := by
  obtain ⟨role, field, index, keyParts, escaped, digits, pending, low⟩ := t
  cases role <;> cases field <;> simp [Token.read, Token.emission]

lemma nextEmitting_emitStringChar (c : Char) :
    nextEmitting (d.emitStringChar t c) l =
      emitting d.drafts (t.emission [c]) fun s =>
        { d with string := some (t.read [c]), drafts := s }.outcome l := by
  obtain ⟨role, field, index, keyParts, escaped, digits, pending, low⟩ := t
  cases role with
  | key => exact nextEmitting_ok_nil
  | value =>
    cases field with
    | none => exact nextEmitting_ok_nil
    | some field =>
      simp only [Decoder.emitStringChar, Token.emission, Token.read, List.map_singleton, emitting]
      split
      · rfl
      · rfl

/-- A whole string: its draft text is emitted and it is closed. -/
theorem outcome_string (hp : d.primitive = none) (hf : d.finished = false) (ht : t.Fresh) :
    { d with string := some t }.outcome l =
      match JsonParser.stringBody l with
      | none => none
      | some (cs, r) => emitting d.drafts (t.emission cs) fun s =>
          next ({ d with string := some (t.read cs), drafts := s }.closeString (t.read cs)) r := by
  induction hlen : l.length using Nat.strongRecOn generalizing l t d with
  | _ k ih =>
    rw [JsonParser.stringBody_eq]
    by_cases hq : l.head? = some (.scalar '"')
    · obtain ⟨r, rfl⟩ := List.head?_eq_some_iff.mp hq
      rw [if_pos hq, outcome_cons, consumeChar_of_string _ rfl]
      have hstep : { d with string := some t }.consumeStringChar t (.scalar '"') =
          (·, []) <$> { d with string := some t }.closeString t := by
        simp only [Decoder.consumeStringChar, ht.1, ht.2.1, ht.2.2.2, Bool.false_eq_true, if_false]
      rw [hstep, nextEmitting_silent]
      obtain ⟨role, field, index, keyParts, escaped, digits, pending, low⟩ := t
      cases role <;> cases field <;> simp [Token.read, Token.emission]
    · rw [if_neg hq, outcome_char hp hf ht hq]
      cases hc : JsonParser.char? l with
      | none => rfl
      | some r =>
        obtain ⟨c, r⟩ := r
        have hstring : ∀ s, { d with string := some (t.read [c]), drafts := s }.outcome r =
            match JsonParser.stringBody r with
            | none => none
            | some (cs, r') => emitting s ((t.read [c]).emission cs) fun s' =>
                next ({ d with string := some (t.read (c :: cs)), drafts := s' }.closeString
                  (t.read (c :: cs))) r' := by
          intro s
          refine (ih r.length (hlen ▸ JsonParser.char?_length hc) (d := { d with drafts := s })
            hp hf (ht.read [c]) rfl).trans ?_
          simp only [read_cons]
        simp only [Option.bind_some, nextEmitting_emitStringChar, hstring]
        cases JsonParser.stringBody r with
        | none => exact emitting_none
        | some r' =>
          simp only [Option.map_some]
          rw [← emission_cons c r'.1, emitting_append]

end Strings

section Containers

variable {d : Decoder} {f : Frame} {l : List CodePoint}

/-- The draft text of a value: a string goes to one position, the strings of an array to the
positions of their indices. -/
def listEmission (field : String) : Nat → List JsonDoc → List (DraftKey × Char)
  | _, [] => []
  | k, .str s :: items => s.toList.map ((field, some k), ·) ++ listEmission field (k + 1) items
  | k, _ :: items => listEmission field (k + 1) items

def valueEmission (f : Frame) : JsonDoc → List (DraftKey × Char)
  | .str s =>
    match Decoder.stringKey f with
    | some key => s.toList.map (key, ·)
    | none => []
  | .arr items =>
    match Decoder.arrayField f with
    | some field => listEmission field 0 items
    | none => []
  | _ => []

/-- The draft text of the items of an array from the index on where it stands. -/
def itemsEmission (a : ArrayFrame) (items : List JsonDoc) : List (DraftKey × Char) :=
  match a.draftField with
  | some field => listEmission field a.itemCount items
  | none => []

def membersEmission (root : Bool) (members : List (String × JsonDoc)) :
    List (DraftKey × Char) :=
  members.flatMap fun m => valueEmission (.object { root, currentKey := some m.1 }) m.2

/-- Between two tokens spaces are skipped. -/
lemma outcome_skipWs (hs : d.string = none) (hp : d.primitive = none) :
    d.outcome l = d.outcome (JsonParser.skipWs l) := by
  induction l with
  | nil => rfl
  | cons c l ih =>
    by_cases hc : JsonParser.isSpace c
    · have hstep : d.consumeChar c = .ok (d, []) := by
        have hspace : isJsonSpace c = true := hc
        simp only [Decoder.consumeChar, hs, hp, Decoder.consumeJsonChar, hspace, if_true]
        rfl
      rw [outcome_cons, hstep, nextEmitting_ok_nil, ih, JsonParser.skipWs, JsonParser.skipWs,
        List.dropWhile_cons_of_pos hc]
    · rw [JsonParser.skipWs_of_not_space (by simpa using hc)]

lemma outcome_cons_between {c : CodePoint} (hs : d.string = none) (hp : d.primitive = none)
    (hc : JsonParser.isSpace c = false) :
    d.outcome (c :: l) =
      match d.stack with
      | [] =>
        if d.rootComplete then none
        else if d.rootStarted ∨ c ≠ .scalar '{' then none
        else { d with rootStarted := true, stack := [.object { root := true }] }.outcome l
      | .object f :: rest => next (d.consumeObjectChar f rest c) l
      | .array f :: rest => next (d.consumeArrayChar f rest c) l := by
  have hspace : isJsonSpace c = false := hc
  rw [outcome_cons]
  simp only [Decoder.consumeChar, hs, hp, Decoder.consumeJsonChar, hspace, Bool.false_eq_true,
    if_false, nextEmitting_silent]
  cases d.stack with
  | nil =>
    simp only []
    split
    · rfl
    · split <;> rfl
  | cons f rest => cases f <;> rfl

lemma completeValue_stack {d' : Decoder} (h : d.completeValue = .ok d') :
    d'.stack ≠ [] ∧ d'.string = d.string ∧ d'.primitive = d.primitive := by
  unfold Decoder.completeValue at h
  split at h
  · cases h
  · split at h <;> cases h
    exact ⟨by simp, rfl, rfl⟩
  · split at h <;> cases h
    exact ⟨by simp, rfl, rfl⟩

lemma finishPrimitive_stack {d' : Decoder} {p : List CodePoint}
    (h : d.finishPrimitive p = .ok d') :
    d'.stack ≠ [] ∧ d'.string = d.string ∧ d'.primitive = none := by
  unfold Decoder.finishPrimitive at h
  split at h
  · have hstack := completeValue_stack h
    exact hstack
  · cases h

/-- A text cannot end in a number or literal. -/
lemma outcome_nil_of_primitive {p : List CodePoint} (hp : d.primitive = some p) :
    d.outcome [] = none := by
  have hfinish : ∀ d', d.finish ≠ .ok d' := by
    intro d' h
    simp only [Decoder.finish, hp, except_bind_ok, except_pure_ok] at h
    obtain ⟨_, -, ended, hended, _, hrequire, -⟩ := h
    exact (finishPrimitive_stack hended).1 (require_ok.mp hrequire).2.1
  simp only [Decoder.outcome, Decoder.run]
  cases hf : d.finish with
  | error e => rfl
  | ok d' => exact absurd hf (hfinish d')

lemma next_nil_of_stack {x : Except String Decoder}
    (h : ∀ d', x = .ok d' → d'.stack ≠ [] ∧ d'.primitive = none ∧ d'.finished = false) :
    next x [] = none := by
  cases x with
  | error e => rfl
  | ok d' =>
    obtain ⟨hstack, hp, hf⟩ := h d' rfl
    rw [next_ok, outcome_nil hp hf, if_neg]
    exact fun hend => hstack hend.2.1

/-- A number or literal is read up to the delimiter behind it. -/
lemma outcome_primitive (hs : d.string = none) (hf : d.finished = false) (p : List CodePoint) :
    { d with primitive := some p }.outcome l =
      next ({ d with primitive := none }.finishPrimitive
          (p ++ l.takeWhile (fun c => !JsonParser.isDelimiter c)))
        (l.dropWhile (fun c => !JsonParser.isDelimiter c)) := by
  induction l generalizing p with
  | nil =>
    rw [outcome_nil_of_primitive rfl]
    refine (next_nil_of_stack ?_).symm
    intro d' h
    obtain ⟨hstack, -, hprim⟩ := finishPrimitive_stack h
    have hfin := (finishPrimitive_silent h).1
    exact ⟨hstack, hprim, hfin.trans hf⟩
  | cons c l ih =>
    by_cases hc : JsonParser.isDelimiter c
    · rw [List.takeWhile_cons_of_neg (by simp [hc]), List.dropWhile_cons_of_neg (by simp [hc]),
        List.append_nil, outcome_cons]
      have hends : endsPrimitive c = true := hc
      have hstep : { d with primitive := some p }.consumeChar c =
          { d with primitive := none }.finishPrimitive p >>= fun ended =>
            (·, []) <$> ended.consumeJsonChar c := by
        simp only [Decoder.consumeChar, hs, hends, if_true, Decoder.finishPrimitive]
      rw [hstep]
      cases hfin : { d with primitive := none }.finishPrimitive p with
      | error e => rfl
      | ok ended =>
        obtain ⟨-, hs', hp'⟩ := finishPrimitive_stack hfin
        have hnext : ended.consumeChar c = (·, []) <$> ended.consumeJsonChar c := by
          simp only [Decoder.consumeChar, hs', hp', hs]
        rw [next_ok, outcome_cons, hnext]
        rfl
    · rw [List.takeWhile_cons_of_pos (by simp [hc]), List.dropWhile_cons_of_pos (by simp [hc]),
        outcome_cons]
      have hends : endsPrimitive c = false := Bool.eq_false_iff.mpr hc
      have hstep : { d with primitive := some p }.consumeChar c =
          .ok ({ d with primitive := some (p ++ [c]) }, []) := by
        simp only [Decoder.consumeChar, hs, hends, Bool.false_eq_true, if_false]
      rw [hstep, nextEmitting_ok_nil, ih, List.append_assoc]
      rfl

end Containers

section Values

/-- The decoder stands between two tokens. -/
structure Between (d : Decoder) : Prop where
  string : d.string = none
  primitive : d.primitive = none
  finished : d.finished = false

variable {d : Decoder} {f : Frame} {rest : List Frame} {l : List CodePoint} {c : CodePoint}
  {s : Drafts} {es : List (DraftKey × Char)} {k : Drafts → Option (List Piece)}

lemma emitting_ite (b : Bool) :
    (emitting s es fun t => if b then k t else none) = if b then emitting s es k else none := by
  cases b with
  | true => rfl
  | false => exact emitting_none

/-- Reading a value behind its first character. -/
def ValueSim (n : Nat) : Prop :=
  ∀ (d : Decoder) (f : Frame) (rest : List Frame) (c : CodePoint) (l : List CodePoint),
    Between d → d.stack = f :: rest → 2 * (c :: l).length < n →
    JsonParser.isSpace c = false →
    next (d.startValue f c) l =
      match JsonParser.value validJsonNumber n (c :: l) with
      | none => none
      | some (v, r) =>
        if v.unique then
          emitting d.drafts (valueEmission f v) fun s => next { d with drafts := s }.completeValue r
        else none

/-- Reading the items of an array up to its end. -/
def ItemsSim (n : Nat) : Prop :=
  ∀ (d : Decoder) (a : ArrayFrame) (rest : List Frame) (l : List CodePoint),
    Between d → d.stack = .array a :: rest → 2 * l.length + 1 < n →
    (a.state = .valueRequired ∨
      a.state = .valueOrEnd ∧ (JsonParser.skipWs l).head? ≠ some (.scalar ']')) →
    d.outcome l =
      match JsonParser.items validJsonNumber n l with
      | none => none
      | some (vs, r) =>
        if JsonDoc.uniqueItems vs then
          emitting d.drafts (itemsEmission a vs) fun s =>
            next { d with drafts := s }.closeContainer r
        else none

/-- Reading the members of an object up to its end. -/
def MembersSim (n : Nat) : Prop :=
  ∀ (d : Decoder) (o : ObjectFrame) (rest : List Frame) (l : List CodePoint),
    Between d → d.stack = .object o :: rest → 2 * l.length + 1 < n →
    (o.state = .keyRequired ∨
      o.state = .keyOrEnd ∧ (JsonParser.skipWs l).head? ≠ some (.scalar '}')) →
    d.outcome l =
      match JsonParser.members validJsonNumber n l with
      | none => none
      | some (ms, r) =>
        if JsonDoc.uniqueMembers o.keys ms then
          emitting d.drafts (membersEmission o.root ms) fun s =>
            next { d with drafts := s }.closeContainer r
        else none

/-- A container of a container is closed by completing the value it is. -/
lemma closeContainer_inner (g : Frame) (hs : d.stack = f :: rest) :
    { d with stack := g :: d.stack }.closeContainer = d.completeValue := by
  simp only [Decoder.closeContainer, hs]
  rw [← hs]

/-- Closing a container does not look at what it has seen. -/
lemma closeContainer_top (g : Frame) (hs : d.stack = f :: rest) :
    { d with stack := g :: rest }.closeContainer = d.closeContainer := by
  simp only [Decoder.closeContainer, hs]
  cases rest <;> rfl

lemma primitive_startsPrimitive {v : JsonDoc}
    (h : JsonParser.primitive validJsonNumber (c :: l) = some v) : startsPrimitive c = true := by
  unfold JsonParser.primitive at h
  split at h
  · next he =>
    obtain ⟨rfl, -⟩ := List.cons.inj he
    rfl
  · split at h
    · next he =>
      obtain ⟨rfl, -⟩ := List.cons.inj he
      rfl
    · split at h
      · next he =>
        obtain ⟨rfl, -⟩ := List.cons.inj he
        rfl
      · split at h
        · next hn =>
          obtain ⟨b, l', he, hb⟩ := JsonParser.number_head ((validJsonNumber_iff _).mp hn)
          obtain ⟨rfl, -⟩ := List.cons.inj he
          rcases hb with rfl | hb
          · rfl
          · simp [startsPrimitive, hb]
        · cases h

/-- The primitives of the decoder are those of the parser; they have no keys and no text. -/
lemma finishPrimitive_eq (p : List CodePoint) :
    d.finishPrimitive p =
      match JsonParser.primitive validJsonNumber p with
      | none => .error "JSON primitive 格式无效"
      | some _ => { d with primitive := none }.completeValue := by
  have hmem : p ∈ literals ↔ p = CodePoint.ofString "null" ∨ p = CodePoint.ofString "true" ∨
      p = CodePoint.ofString "false" := by
    simp only [literals, List.mem_cons, List.not_mem_nil, or_false]
    constructor
    · rintro (h | h | h) <;> simp [h]
    · rintro (h | h | h) <;> simp [h]
  unfold Decoder.finishPrimitive JsonParser.primitive
  by_cases hnull : p = CodePoint.ofString "null"
  · rw [if_pos (.inl (hmem.mpr (.inl hnull))), if_pos hnull]
  · by_cases htrue : p = CodePoint.ofString "true"
    · rw [if_pos (.inl (hmem.mpr (.inr (.inl htrue)))), if_neg hnull, if_pos htrue]
    · by_cases hfalse : p = CodePoint.ofString "false"
      · rw [if_pos (.inl (hmem.mpr (.inr (.inr hfalse)))), if_neg hnull, if_neg htrue,
          if_pos hfalse]
      · have hno : p ∉ literals := by
          rw [hmem]
          rintro (h | h | h)
          · exact hnull h
          · exact htrue h
          · exact hfalse h
        rw [if_neg hnull, if_neg htrue, if_neg hfalse]
        cases validJsonNumber p with
        | true => rw [if_pos (.inr rfl), if_pos rfl]
        | false =>
          rw [if_neg, if_neg (by simp)]
          rintro (h | h)
          · exact hno h
          · cases h

lemma primitive_plain {v : JsonDoc} {p : List CodePoint}
    (h : JsonParser.primitive validJsonNumber p = some v) :
    v.unique = true ∧ valueEmission f v = [] := by
  unfold JsonParser.primitive at h
  repeat' split at h
  all_goals cases h
  all_goals exact ⟨rfl, rfl⟩

lemma valueToken_emission (cs : List Char) :
    (Decoder.valueToken f).emission cs = valueEmission f (.str (String.ofList cs)) := by
  unfold Token.emission valueEmission Decoder.valueToken
  cases Decoder.stringKey f with
  | none => rfl
  | some key => simp

/-- A string value. -/
lemma next_startValue_string (hb : Between d) :
    next (d.startValue f (.scalar '"')) l =
      match JsonParser.stringBody l with
      | none => none
      | some (cs, r) => emitting d.drafts (valueEmission f (.str (String.ofList cs))) fun s =>
          next { d with drafts := s }.completeValue r := by
  have hfresh : (Decoder.valueToken f).Fresh := ⟨rfl, rfl, rfl, rfl⟩
  have hstart : d.startValue f (.scalar '"') =
      .ok { d with string := some (Decoder.valueToken f) } := rfl
  rw [hstart, next_ok, outcome_string hb.primitive hb.finished hfresh]
  cases JsonParser.stringBody l with
  | none => rfl
  | some r =>
    obtain ⟨cs, r⟩ := r
    simp only [valueToken_emission]
    congr 1
    funext s
    have hclose : ∀ u : Token, u.Fresh → u.role = .value →
        { d with string := some u, drafts := s }.closeString u =
          { d with drafts := s }.completeValue := by
      intro u hu hrole
      simp only [Decoder.closeString, hu.2.1, hu.2.2.1, hrole, ne_eq, not_true_eq_false, or_self,
        if_false]
      rw [hb.string]
    rw [hclose _ (hfresh.read cs) rfl]

/-- A number or a literal. -/
lemma next_startValue_primitive (hb : Between d) (hq : c ≠ .scalar '"') (ha : c ≠ .scalar '[')
    (ho : c ≠ .scalar '{') :
    next (d.startValue f c) l =
      match JsonParser.primitive validJsonNumber
        (c :: l.takeWhile (fun c => !JsonParser.isDelimiter c)) with
      | none => none
      | some _ => next d.completeValue (l.dropWhile (fun c => !JsonParser.isDelimiter c)) := by
  unfold Decoder.startValue
  rw [if_neg hq, if_neg ho, if_neg ha]
  by_cases hstart : startsPrimitive c
  · rw [if_pos hstart, next_ok, outcome_primitive hb.string hb.finished, finishPrimitive_eq,
      List.singleton_append]
    cases JsonParser.primitive validJsonNumber
      (c :: l.takeWhile (fun c => !JsonParser.isDelimiter c)) with
    | none => rfl
    | some v =>
      simp only []
      rw [← hb.primitive]
  · rw [if_neg hstart]
    cases hp : JsonParser.primitive validJsonNumber
      (c :: l.takeWhile (fun c => !JsonParser.isDelimiter c)) with
    | none => rfl
    | some v => exact absurd (primitive_startsPrimitive hp) hstart

lemma Between.with_drafts (hb : Between d) (s : Drafts) : Between { d with drafts := s } :=
  ⟨hb.string, hb.primitive, hb.finished⟩

lemma Between.with_stack (hb : Between d) (stack : List Frame) :
    Between { d with stack := stack } := ⟨hb.string, hb.primitive, hb.finished⟩

lemma outcome_array {a : ArrayFrame} (hb : Between d) (hs : d.stack = .array a :: rest)
    (hc : JsonParser.isSpace c = false) :
    d.outcome (c :: l) = next (d.consumeArrayChar a rest c) l := by
  rw [outcome_cons_between hb.string hb.primitive hc]
  simp only [hs]

lemma outcome_object {o : ObjectFrame} (hb : Between d) (hs : d.stack = .object o :: rest)
    (hc : JsonParser.isSpace c = false) :
    d.outcome (c :: l) = next (d.consumeObjectChar o rest c) l := by
  rw [outcome_cons_between hb.string hb.primitive hc]
  simp only [hs]

/-- The end of a text inside a container is refused. -/
lemma outcome_nil_of_stack (hb : Between d) (hs : d.stack = f :: rest) : d.outcome [] = none := by
  rw [outcome_nil hb.primitive hb.finished, if_neg]
  rintro ⟨-, hend, -⟩
  rw [hs] at hend
  cases hend

theorem valueSim_succ {n : Nat} (hi : ItemsSim n) (hm : MembersSim n) : ValueSim (n + 1) := by
  intro d f rest c l hb hs hlen hc
  rw [List.length_cons] at hlen
  by_cases hq : c = .scalar '"'
  · subst hq
    rw [next_startValue_string hb]
    simp only [JsonParser.value]
    cases JsonParser.stringBody l with
    | none => rfl
    | some r => rfl
  by_cases ha : c = .scalar '['
  · subst ha
    have hstart : d.startValue f (.scalar '[') = .ok { d with
        stack := .array { draftField := Decoder.arrayField f } :: d.stack } := rfl
    have hb' := hb.with_stack (.array { draftField := Decoder.arrayField f } :: d.stack)
    rw [hstart, next_ok]
    simp only [JsonParser.value]
    by_cases hopen : (JsonParser.skipWs l).head? = some (.scalar ']')
    · obtain ⟨r, hr⟩ := List.head?_eq_some_iff.mp hopen
      rw [outcome_skipWs hb'.string hb'.primitive, if_pos hopen, hr,
        outcome_cons_between hb'.string hb'.primitive rfl]
      have hempty : valueEmission f (.arr []) = [] := by
        unfold valueEmission
        cases Decoder.arrayField f <;> rfl
      simp only [JsonDoc.unique, JsonDoc.uniqueItems, if_true, hempty, emitting_nil]
      exact congrArg (next · r) (closeContainer_inner _ hs)
    · rw [if_neg hopen, hi _ { draftField := Decoder.arrayField f } d.stack l hb' rfl (by omega)
        (.inr ⟨rfl, hopen⟩)]
      cases JsonParser.items validJsonNumber n l with
      | none => rfl
      | some r =>
        obtain ⟨vs, r⟩ := r
        have hclose : ∀ s, { d with
            stack := .array { draftField := Decoder.arrayField f } :: d.stack
            drafts := s }.closeContainer = { d with drafts := s }.completeValue :=
          fun s => closeContainer_inner (d := { d with drafts := s }) _ hs
        simp only [Option.map_some, JsonDoc.unique, hclose]
        rfl
  by_cases ho : c = .scalar '{'
  · subst ho
    have hstart : d.startValue f (.scalar '{') = .ok { d with
        stack := .object {} :: d.stack } := rfl
    have hb' := hb.with_stack (.object {} :: d.stack)
    rw [hstart, next_ok]
    simp only [JsonParser.value]
    by_cases hopen : (JsonParser.skipWs l).head? = some (.scalar '}')
    · obtain ⟨r, hr⟩ := List.head?_eq_some_iff.mp hopen
      rw [outcome_skipWs hb'.string hb'.primitive, if_pos hopen, hr,
        outcome_cons_between hb'.string hb'.primitive rfl]
      simp only [JsonDoc.unique, JsonDoc.uniqueMembers, if_true, valueEmission, emitting_nil]
      exact congrArg (next · r) (closeContainer_inner _ hs)
    · rw [if_neg hopen, hm _ {} d.stack l hb' rfl (by omega) (.inr ⟨rfl, hopen⟩)]
      cases JsonParser.members validJsonNumber n l with
      | none => rfl
      | some r =>
        obtain ⟨ms, r⟩ := r
        have hnone : membersEmission false ms = [] := by
          unfold membersEmission
          apply List.flatMap_eq_nil_iff.mpr
          rintro ⟨k, v⟩ -
          cases v <;> rfl
        have hclose : ∀ s, { d with stack := .object {} :: d.stack, drafts := s
            }.closeContainer = { d with drafts := s }.completeValue :=
          fun s => closeContainer_inner (d := { d with drafts := s }) _ hs
        simp only [Option.map_some, JsonDoc.unique, hclose, hnone]
        rfl
  · rw [next_startValue_primitive hb hq ha ho, JsonParser.value_other _ hq ha ho]
    by_cases hd : JsonParser.isDelimiter c
    · rw [List.takeWhile_cons_of_neg (by simp [hd])]
      have hno : startsPrimitive c = false := by
        simp only [JsonParser.isDelimiter, hc, Bool.or_false, Bool.or_eq_true,
          decide_eq_true_eq] at hd
        rcases hd with (rfl | rfl) | rfl <;> rfl
      cases hp : JsonParser.primitive validJsonNumber
          (c :: l.takeWhile (fun c => !JsonParser.isDelimiter c)) with
      | none => rfl
      | some v =>
        rw [primitive_startsPrimitive hp] at hno
        cases hno
    · rw [List.takeWhile_cons_of_pos (by simp [hd]), List.dropWhile_cons_of_pos (by simp [hd])]
      cases hp : JsonParser.primitive validJsonNumber
          (c :: l.takeWhile (fun c => !JsonParser.isDelimiter c)) with
      | none => rfl
      | some v =>
        obtain ⟨hunique, hnone⟩ := primitive_plain (f := f) hp
        simp only [Option.map_some, hunique, if_true, hnone, emitting_nil]

lemma itemsEmission_cons (a : ArrayFrame) (state : ArrayState) (v : JsonDoc)
    (vs : List JsonDoc) :
    itemsEmission a (v :: vs) = valueEmission (.array a) v ++
      itemsEmission { a with state := state, itemCount := a.itemCount + 1 } vs := by
  obtain ⟨_, field, count⟩ := a
  cases field with
  | none => cases v <;> rfl
  | some field => cases v <;> rfl

lemma itemsEmission_single (a : ArrayFrame) (v : JsonDoc) :
    itemsEmission a [v] = valueEmission (.array a) v := by
  rw [itemsEmission_cons a .commaOrEnd]
  unfold itemsEmission
  cases a.draftField <;> simp [listEmission]

/-- What follows an item of an array. -/
lemma outcome_afterItem {n : Nat} (hi : ItemsSim n) {a : ArrayFrame} (hb : Between d)
    (hs : d.stack = .array a :: rest) (ha : a.state = .commaOrEnd) (hlen : 2 * l.length < n + 1) :
    d.outcome l =
      match JsonParser.skipWs l with
      | .scalar ']' :: r => next d.closeContainer r
      | .scalar ',' :: r =>
        match JsonParser.items validJsonNumber n r with
        | none => none
        | some (vs, r) =>
          if JsonDoc.uniqueItems vs then
            emitting d.drafts (itemsEmission { a with state := .valueRequired } vs) fun s =>
              next { d with drafts := s }.closeContainer r
          else none
      | _ => none := by
  have hws := JsonParser.length_skipWs_le l
  rw [outcome_skipWs hb.string hb.primitive]
  cases hl : JsonParser.skipWs l with
  | nil => exact outcome_nil_of_stack hb hs
  | cons c r =>
    rw [hl, List.length_cons] at hws
    rw [outcome_array hb hs (JsonParser.head_skipWs hl)]
    simp only [Decoder.consumeArrayChar, ha]
    by_cases hcomma : c = .scalar ','
    · subst hcomma
      have hb' := hb.with_stack (.array { a with state := .valueRequired } :: rest)
      rw [if_pos rfl, next_ok, hi _ _ rest r hb' rfl (by omega) (.inl rfl)]
      have hclose : ∀ s, { d with
          stack := .array { a with state := .valueRequired } :: rest
          drafts := s }.closeContainer = { d with drafts := s }.closeContainer := by
        intro s
        exact closeContainer_top (d := { d with drafts := s }) _ hs
      simp only [hclose]
    · rw [if_neg hcomma]
      by_cases hend : c = .scalar ']'
      · subst hend
        rw [if_pos rfl]
        rfl
      · rw [if_neg hend]
        split
        · next he => exact absurd (List.cons.inj he).1 hend
        · next he => exact absurd (List.cons.inj he).1 hcomma
        · rfl

theorem itemsSim_succ {n : Nat} (hv : ValueSim n) (hi : ItemsSim n) : ItemsSim (n + 1) := by
  intro d a rest l hb hs hlen hstate
  have hws := JsonParser.length_skipWs_le l
  rw [outcome_skipWs hb.string hb.primitive]
  simp only [JsonParser.items]
  cases hl : JsonParser.skipWs l with
  | nil =>
    rw [outcome_nil_of_stack hb hs]
    cases n with
    | zero => rfl
    | succ n => rfl
  | cons c l₁ =>
    have hc := JsonParser.head_skipWs hl
    have hstep : d.consumeArrayChar a rest c = d.startValue (.array a) c := by
      unfold Decoder.consumeArrayChar
      rcases hstate with h | ⟨h, hopen⟩
      · simp only [h]
      · have hne : c ≠ .scalar ']' := by
          rintro rfl
          exact hopen (by rw [hl]; rfl)
        simp only [h, if_neg hne]
    rw [hl, List.length_cons] at hws
    have hval := hv d (.array a) rest c l₁ hb hs (by rw [List.length_cons]; omega) hc
    rw [outcome_array hb hs hc, hstep, hval]
    cases hparse : JsonParser.value validJsonNumber n (c :: l₁) with
    | none => rfl
    | some p =>
      obtain ⟨v, l₂⟩ := p
      have hlen₂ := (JsonParser.length_le n).1 _ _ _ hparse
      rw [List.length_cons] at hlen₂
      have hne : a.state ≠ .commaOrEnd := by
        rcases hstate with h | ⟨h, -⟩ <;> simp [h]
      have hafter : ∀ s, next { d with drafts := s }.completeValue l₂ =
          match JsonParser.skipWs l₂ with
          | .scalar ']' :: r => next { d with drafts := s }.closeContainer r
          | .scalar ',' :: r =>
            match JsonParser.items validJsonNumber n r with
            | none => none
            | some (vs, r) =>
              if JsonDoc.uniqueItems vs then
                emitting s (itemsEmission
                    { a with state := .valueRequired, itemCount := a.itemCount + 1 } vs) fun s =>
                  next { d with drafts := s }.closeContainer r
              else none
          | _ => none := by
        intro s
        have hcomplete : { d with drafts := s }.completeValue = .ok { d with
            drafts := s
            stack := .array { a with state := .commaOrEnd, itemCount := a.itemCount + 1 } ::
              rest } := by
          simp only [Decoder.completeValue, hs, if_neg hne]
        rw [hcomplete, next_ok, outcome_afterItem hi ((hb.with_drafts s).with_stack _) rfl rfl
          (by omega)]
        have hclose : ∀ t, { d with
            drafts := t
            stack := .array { a with state := .commaOrEnd, itemCount := a.itemCount + 1 } :: rest
            }.closeContainer = { d with drafts := t }.closeContainer := by
          intro t
          exact closeContainer_top (d := { d with drafts := t }) _ hs
        simp only [hclose]
      cases hr : JsonParser.skipWs l₂ with
      | nil =>
        simp only [hafter, hr, Option.bind_some, emitting_none, ite_self]
      | cons b r =>
        by_cases hcomma : b = .scalar ','
        · subst hcomma
          simp only [hafter, hr, Option.bind_some]
          cases JsonParser.items validJsonNumber n r with
          | none => simp only [emitting_none, ite_self, Option.map_none]
          | some q =>
            obtain ⟨vs, r'⟩ := q
            simp only [Option.map_some, JsonDoc.uniqueItems, emitting_ite,
              itemsEmission_cons a .valueRequired, emitting_append]
            cases v.unique <;> rfl
        · by_cases hend : b = .scalar ']'
          · subst hend
            simp only [hafter, hr, Option.bind_some, JsonDoc.uniqueItems, Bool.and_true,
              itemsEmission_single]
          · have hnone : ∀ s, next { d with drafts := s }.completeValue l₂ = none := by
              intro s
              rw [hafter s, hr]
              split
              · next he => exact absurd (List.cons.inj he).1 hend
              · next he => exact absurd (List.cons.inj he).1 hcomma
              · rfl
            simp only [hnone, emitting_none, ite_self, hr, Option.bind_some]
            split
            · rfl
            · next heq =>
              exfalso
              split at heq
              · next he => exact absurd (List.cons.inj he).1 hend
              · next he => exact absurd (List.cons.inj he).1 hcomma
              · cases heq

lemma value_nil (n : Nat) : JsonParser.value validJsonNumber n [] = none := by
  cases n with
  | zero => rfl
  | succ n => rfl

/-- A key up to its closing quotation mark. -/
lemma outcome_key {o : ObjectFrame} (hb : Between d) (hs : d.stack = .object o :: rest) :
    { d with string := some { role := .key } }.outcome l =
      match JsonParser.stringBody l with
      | none => none
      | some (k, r) =>
        if String.ofList k ∈ o.keys then none
        else { d with stack := .object { o with
          state := .colon
          keys := String.ofList k :: o.keys
          currentKey := some (String.ofList k) } :: rest }.outcome r := by
  have hfresh : Token.Fresh { role := .key } := ⟨rfl, rfl, rfl, rfl⟩
  rw [outcome_string hb.primitive hb.finished hfresh]
  cases JsonParser.stringBody l with
  | none => rfl
  | some p =>
    obtain ⟨k, r⟩ := p
    have hemission : Token.emission { role := .key } k = [] := rfl
    have hread : Token.read { role := .key } k = { role := .key, keyParts := k } := rfl
    have hkey : Token.key { role := .key, keyParts := k } = String.ofList k := rfl
    simp only [hemission, emitting_nil, hread, Decoder.closeString, hs, hkey]
    by_cases hmem : String.ofList k ∈ o.keys
    · simp only [hmem, if_true]
      rfl
    · simp only [hmem, if_false, ne_eq, not_true_eq_false, or_self, next_ok]
      rw [← hb.string]

lemma outcome_colon {o : ObjectFrame} (hb : Between d) (hs : d.stack = .object o :: rest)
    (ho : o.state = .colon) :
    d.outcome l =
      match JsonParser.skipWs l with
      | .scalar ':' :: r =>
        { d with stack := .object { o with state := .value } :: rest }.outcome r
      | _ => none := by
  rw [outcome_skipWs hb.string hb.primitive]
  cases hl : JsonParser.skipWs l with
  | nil => exact outcome_nil_of_stack hb hs
  | cons c r =>
    rw [outcome_object hb hs (JsonParser.head_skipWs hl)]
    simp only [Decoder.consumeObjectChar, ho]
    by_cases hc : c = .scalar ':'
    · subst hc
      rw [if_pos rfl]
      rfl
    · rw [if_neg hc]
      split
      · next he => exact absurd (List.cons.inj he).1 hc
      · rfl

lemma outcome_memberValue {n : Nat} (hv : ValueSim n) {o : ObjectFrame} (hb : Between d)
    (hs : d.stack = .object o :: rest) (ho : o.state = .value) (hlen : 2 * l.length < n) :
    d.outcome l =
      match JsonParser.value validJsonNumber n (JsonParser.skipWs l) with
      | none => none
      | some (v, r) =>
        if v.unique then
          emitting d.drafts (valueEmission (.object o) v) fun s =>
            next { d with drafts := s }.completeValue r
        else none := by
  have hws := JsonParser.length_skipWs_le l
  rw [outcome_skipWs hb.string hb.primitive]
  cases hl : JsonParser.skipWs l with
  | nil => rw [outcome_nil_of_stack hb hs, value_nil]
  | cons c r =>
    rw [hl] at hws
    have hc := JsonParser.head_skipWs hl
    rw [outcome_object hb hs hc]
    simp only [Decoder.consumeObjectChar, ho]
    exact hv d (.object o) rest c r hb hs (by omega) hc

/-- What follows a member of an object. -/
lemma outcome_afterMember {n : Nat} (hm : MembersSim n) {o : ObjectFrame} (hb : Between d)
    (hs : d.stack = .object o :: rest) (ho : o.state = .commaOrEnd) (hlen : 2 * l.length < n + 1) :
    d.outcome l =
      match JsonParser.skipWs l with
      | .scalar '}' :: r => next d.closeContainer r
      | .scalar ',' :: r =>
        match JsonParser.members validJsonNumber n r with
        | none => none
        | some (ms, r) =>
          if JsonDoc.uniqueMembers o.keys ms then
            emitting d.drafts (membersEmission o.root ms) fun s =>
              next { d with drafts := s }.closeContainer r
          else none
      | _ => none := by
  have hws := JsonParser.length_skipWs_le l
  rw [outcome_skipWs hb.string hb.primitive]
  cases hl : JsonParser.skipWs l with
  | nil => exact outcome_nil_of_stack hb hs
  | cons c r =>
    rw [hl, List.length_cons] at hws
    rw [outcome_object hb hs (JsonParser.head_skipWs hl)]
    simp only [Decoder.consumeObjectChar, ho]
    by_cases hcomma : c = .scalar ','
    · subst hcomma
      have hb' := hb.with_stack (.object { o with state := .keyRequired } :: rest)
      rw [if_pos rfl, next_ok, hm _ _ rest r hb' rfl (by omega) (.inl rfl)]
      have hclose : ∀ s, { d with
          stack := .object { o with state := .keyRequired } :: rest
          drafts := s }.closeContainer = { d with drafts := s }.closeContainer := by
        intro s
        exact closeContainer_top (d := { d with drafts := s }) _ hs
      simp only [hclose]
    · rw [if_neg hcomma]
      by_cases hend : c = .scalar '}'
      · subst hend
        rw [if_pos rfl]
        rfl
      · rw [if_neg hend]
        split
        · next he => exact absurd (List.cons.inj he).1 hend
        · next he => exact absurd (List.cons.inj he).1 hcomma
        · rfl

lemma membersEmission_cons (root : Bool) (k : String) (v : JsonDoc)
    (ms : List (String × JsonDoc)) :
    membersEmission root ((k, v) :: ms) =
      valueEmission (.object { root, currentKey := some k }) v ++ membersEmission root ms := rfl

lemma membersEmission_single (root : Bool) (k : String) (v : JsonDoc) :
    membersEmission root [(k, v)] = valueEmission (.object { root, currentKey := some k }) v := by
  rw [membersEmission_cons]
  exact List.append_nil _

/-- The draft position of a value depends on the key in front of it only. -/
lemma valueEmission_object (o : ObjectFrame) (v : JsonDoc) :
    valueEmission (.object o) v =
      valueEmission (.object { root := o.root, currentKey := o.currentKey }) v := by
  cases v <;> rfl

/-- A member behind its key: a colon, a value, and more members or the end of the object. -/
lemma outcome_member {n : Nat} (hv : ValueSim n) (hm : MembersSim n) {o : ObjectFrame}
    {k : String} (hb : Between d) (hs : d.stack = .object o :: rest) (hstate : o.state = .colon)
    (hkey : o.currentKey = some k) (hlen : 2 * l.length < n) :
    d.outcome l =
      match JsonParser.skipWs l with
      | .scalar ':' :: l₁ =>
        match JsonParser.value validJsonNumber n (JsonParser.skipWs l₁) with
        | none => none
        | some (v, l₂) =>
          match JsonParser.skipWs l₂ with
          | .scalar '}' :: r =>
            if v.unique then
              emitting d.drafts (membersEmission o.root [(k, v)]) fun s =>
                next { d with drafts := s }.closeContainer r
            else none
          | .scalar ',' :: r =>
            match JsonParser.members validJsonNumber n r with
            | none => none
            | some (ms, r) =>
              if v.unique && JsonDoc.uniqueMembers o.keys ms then
                emitting d.drafts (membersEmission o.root ((k, v) :: ms)) fun s =>
                  next { d with drafts := s }.closeContainer r
              else none
          | _ => none
      | _ => none := by
  have hws := JsonParser.length_skipWs_le l
  rw [outcome_colon hb hs hstate]
  by_cases hcolon : ∃ l₁, JsonParser.skipWs l = .scalar ':' :: l₁
  swap
  · split
    · next l₁ hl => exact absurd ⟨l₁, hl⟩ hcolon
    · rfl
  obtain ⟨l₁, hl⟩ := hcolon
  rw [hl, List.length_cons] at hws
  simp only [hl]
  have hb' := hb.with_stack (.object { o with state := .value } :: rest)
  have hws₁ := JsonParser.length_skipWs_le l₁
  rw [outcome_memberValue hv hb' rfl rfl (by omega)]
  cases hparse : JsonParser.value validJsonNumber n (JsonParser.skipWs l₁) with
  | none => rfl
  | some p =>
    obtain ⟨v, l₂⟩ := p
    have hlen₂ := (JsonParser.length_le n).1 _ _ _ hparse
    have hemission : valueEmission (.object { o with state := .value }) v =
        valueEmission (.object { root := o.root, currentKey := some k }) v := by
      rw [valueEmission_object, ← hkey]
    have hafter : ∀ s, next { d with
          stack := .object { o with state := .value } :: rest
          drafts := s }.completeValue l₂ =
        match JsonParser.skipWs l₂ with
        | .scalar '}' :: r => next { d with drafts := s }.closeContainer r
        | .scalar ',' :: r =>
          match JsonParser.members validJsonNumber n r with
          | none => none
          | some (ms, r) =>
            if JsonDoc.uniqueMembers o.keys ms then
              emitting s (membersEmission o.root ms) fun s =>
                next { d with drafts := s }.closeContainer r
            else none
        | _ => none := by
      intro s
      have hcomplete : { d with
          stack := .object { o with state := .value } :: rest
          drafts := s }.completeValue = .ok { d with
            stack := .object { o with state := .commaOrEnd, currentKey := none } :: rest
            drafts := s } := rfl
      rw [hcomplete, next_ok, outcome_afterMember hm ((hb.with_drafts s).with_stack _) rfl rfl
        (by omega)]
      have hclose : ∀ t, { d with
          stack := .object { o with state := .commaOrEnd, currentKey := none } :: rest
          drafts := t }.closeContainer = { d with drafts := t }.closeContainer := by
        intro t
        exact closeContainer_top (d := { d with drafts := t }) _ hs
      simp only [hclose]
    simp only [hemission]
    cases hr : JsonParser.skipWs l₂ with
    | nil => simp only [hafter, hr, emitting_none, ite_self]
    | cons b r =>
      by_cases hcomma : b = .scalar ','
      · subst hcomma
        simp only [hafter, hr]
        cases JsonParser.members validJsonNumber n r with
        | none => simp only [emitting_none, ite_self]
        | some q =>
          obtain ⟨ms, r'⟩ := q
          simp only [emitting_ite, membersEmission_cons, emitting_append]
          cases v.unique <;> rfl
      · by_cases hend : b = .scalar '}'
        · subst hend
          simp only [hafter, hr, membersEmission_single]
        · have hnone : ∀ s, next { d with
              stack := .object { o with state := .value } :: rest
              drafts := s }.completeValue l₂ = none := by
            intro s
            rw [hafter s, hr]
            split
            · next he => exact absurd (List.cons.inj he).1 hend
            · next he => exact absurd (List.cons.inj he).1 hcomma
            · rfl
          simp only [hnone, emitting_none, ite_self]
          split
          · next he => exact absurd (List.cons.inj he).1 hend
          · next he => exact absurd (List.cons.inj he).1 hcomma
          · rfl

theorem membersSim_succ {n : Nat} (hv : ValueSim n) (hm : MembersSim n) :
    MembersSim (n + 1) := by
  intro d o rest l hb hs hlen hstate
  have hws := JsonParser.length_skipWs_le l
  rw [outcome_skipWs hb.string hb.primitive]
  simp only [JsonParser.members]
  cases hl : JsonParser.skipWs l with
  | nil => exact outcome_nil_of_stack hb hs
  | cons c l₁ =>
    rw [hl, List.length_cons] at hws
    by_cases hc : c = .scalar '"'
    swap
    · have hrefused : ∃ e, d.consumeObjectChar o rest c = .error e := by
        unfold Decoder.consumeObjectChar
        rcases hstate with h | ⟨h, hopen⟩
        · simp only [h, if_neg hc]
          exact ⟨_, rfl⟩
        · have hne : c ≠ .scalar '}' := by
            rintro rfl
            exact hopen (by rw [hl]; rfl)
          simp only [h, if_neg hc, if_neg hne]
          exact ⟨_, rfl⟩
      obtain ⟨e, he⟩ := hrefused
      rw [outcome_object hb hs (JsonParser.head_skipWs hl), he]
      split
      · rfl
      · next heq =>
        exfalso
        split at heq
        · next h => exact hc (List.cons.inj h).1
        · cases heq
    subst hc
    have hstep : d.consumeObjectChar o rest (.scalar '"') =
        .ok { d with string := some { role := .key } } := by
      unfold Decoder.consumeObjectChar
      rcases hstate with h | ⟨h, -⟩
      · simp only [h]
        rfl
      · simp only [h]
        rfl
    rw [outcome_object hb hs rfl, hstep, next_ok, outcome_key hb hs]
    cases hk : JsonParser.stringBody l₁ with
    | none => simp only [hk, Option.bind_none]
    | some p =>
      obtain ⟨k, l₂⟩ := p
      have hlen₂ := JsonParser.stringBody_length hk
      simp only [hk, Option.bind_some]
      have hb' := hb.with_stack (.object { o with
        state := .colon
        keys := String.ofList k :: o.keys
        currentKey := some (String.ofList k) } :: rest)
      rw [outcome_member hv hm hb' rfl rfl rfl (by omega)]
      have hclose : ∀ s, { d with
          stack := .object { o with
            state := .colon
            keys := String.ofList k :: o.keys
            currentKey := some (String.ofList k) } :: rest
          drafts := s }.closeContainer = { d with drafts := s }.closeContainer := by
        intro s
        exact closeContainer_top (d := { d with drafts := s }) _ hs
      simp only [hclose]
      have hunique : ∀ v ms, JsonDoc.uniqueMembers o.keys ((String.ofList k, v) :: ms) =
          if String.ofList k ∈ o.keys then false
          else v.unique && JsonDoc.uniqueMembers (String.ofList k :: o.keys) ms := by
        intro v ms
        by_cases hmem : String.ofList k ∈ o.keys <;> simp [JsonDoc.uniqueMembers, hmem]
      by_cases hcolon : ∃ l₃, JsonParser.skipWs l₂ = .scalar ':' :: l₃
      swap
      · refine Eq.trans (b := none) ?_ (Eq.symm ?_)
        · split
          · rfl
          · split
            · next h => exact absurd ⟨_, h⟩ hcolon
            · rfl
        · split
          · rfl
          · next heq =>
            exfalso
            split at heq
            · next h => exact hcolon ⟨_, h⟩
            · cases heq
      obtain ⟨l₃, hl₃⟩ := hcolon
      simp only [hl₃]
      cases JsonParser.value validJsonNumber n (JsonParser.skipWs l₃) with
      | none => simp only [ite_self, Option.bind_none]
      | some p =>
        obtain ⟨v, l₄⟩ := p
        simp only [Option.bind_some]
        cases JsonParser.skipWs l₄ with
        | nil => simp only [ite_self]
        | cons b r =>
          by_cases hcomma : b = .scalar ','
          · subst hcomma
            simp only []
            cases JsonParser.members validJsonNumber n r with
            | none => simp only [ite_self, Option.map_none]
            | some q =>
              simp only [Option.map_some, hunique]
              split <;> rfl
          · by_cases hend : b = .scalar '}'
            · subst hend
              simp only [hunique]
              have hnil : JsonDoc.uniqueMembers (String.ofList k :: o.keys) [] = true := rfl
              rw [hnil, Bool.and_true]
              split <;> rfl
            · refine Eq.trans (b := none) ?_ (Eq.symm ?_)
              · split
                · rfl
                · split
                  · next h => exact absurd (List.cons.inj h).1 hend
                  · next h => exact absurd (List.cons.inj h).1 hcomma
                  · rfl
              · split
                · rfl
                · next heq =>
                  exfalso
                  split at heq
                  · next h => exact hend (List.cons.inj h).1
                  · next h => exact hcomma (List.cons.inj h).1
                  · cases heq

theorem simulation (n : Nat) : ValueSim n ∧ ItemsSim n ∧ MembersSim n := by
  induction n with
  | zero =>
    refine ⟨?_, ?_, ?_⟩
    · intro _ _ _ _ _ _ _ hlen
      omega
    · intro _ _ _ _ _ _ hlen
      omega
    · intro _ _ _ _ _ _ hlen
      omega
  | succ n ih =>
    obtain ⟨hv, hi, hm⟩ := ih
    exact ⟨valueSim_succ hi hm, itemsSim_succ hv hi, membersSim_succ hv hm⟩

end Values

end ChatBI.Report
