import ChatBI.Lib.Decimal
import ChatBI.Lib.Dict
import ChatBI.Lib.JsonDump
import ChatBI.Lib.JsonParser
import ChatBI.Lib.JsonShape
import Mathlib.Data.List.Induction

/-!
# JSON values as texts

`json.dumps` of a value and `json.loads` of a text. Integers are exact and have a bounded number of
digits; how a double is written and read is a parameter.
-/

namespace ChatBI.Lib

open JsonGrammar

/-- How doubles are written and read: a finite one is written as a number with a point or an
exponent, and is read back. -/
structure FloatFormat where
  repr : UInt64 → List Char
  read : List Char → UInt64
  number : ∀ bits, Json.isFinite bits = true → Number ((repr bits).map .scalar)
  fractional : ∀ bits, Json.isFinite bits = true → ∃ c ∈ repr bits, c = '.' ∨ c = 'e'
  read_repr : ∀ bits, Json.isFinite bits = true → read (repr bits) = bits

/-- The dictionary of pairs: a key that comes again has its last value. -/
def Dict.ofPairs {κ β : Type} [DecidableEq κ] (pairs : List (κ × β)) : Dict κ β :=
  pairs.foldl (fun d p => Dict.set d p.1 p.2) []

lemma Dict.ofPairs_of_nodup {κ β : Type} [DecidableEq κ] {pairs : List (κ × β)}
    (h : (pairs.map Prod.fst).Nodup) : Dict.ofPairs pairs = pairs := by
  induction pairs using List.reverseRecOn with
  | nil => rfl
  | append_singleton pairs p ih =>
    rw [List.map_append, List.nodup_append] at h
    obtain ⟨hnodup, -, hapart⟩ := h
    have hnew : Dict.get? pairs p.1 = none := by
      by_contra hmem
      exact hapart _ (Dict.mem_map_fst_iff.mpr hmem) p.1 (by simp) rfl
    have hfold : Dict.ofPairs (pairs ++ [p]) = Dict.set (Dict.ofPairs pairs) p.1 p.2 := by
      rw [Dict.ofPairs, List.foldl_append]
      rfl
    rw [hfold, ih hnodup, Dict.set_of_get?_none hnew]

namespace Json

/-- The default of `sys.get_int_max_str_digits()`. -/
def maxStrDigits : ℕ := 4300

mutual

/-- `json.dumps` with `allow_nan=False` does not raise. -/
def writable : Json → Bool
  | .int n => (Nat.toDigits 10 n.natAbs).length ≤ maxStrDigits
  | .float bits => isFinite bits
  | .arr items => writableItems items
  | .obj fields => writableFields fields
  | _ => true

def writableItems : List Json → Bool
  | [] => true
  | v :: items => v.writable && writableItems items

def writableFields : List (String × Json) → Bool
  | [] => true
  | (_, v) :: fields => v.writable && writableFields fields

end

variable (format : FloatFormat)

mutual

/-- The document that a value is written as. -/
def doc : Json → JsonDoc
  | .null => .null
  | .bool b => .bool b
  | .int n => .number ((intChars n).map .scalar)
  | .float bits => .number ((format.repr bits).map .scalar)
  | .str s => .str s
  | .arr items => .arr (docItems items)
  | .obj fields => .obj (docFields fields)

def docItems : List Json → List JsonDoc
  | [] => []
  | v :: items => v.doc :: docItems items

def docFields : List (String × Json) → List (String × JsonDoc)
  | [] => []
  | (k, v) :: fields => (k, v.doc) :: docFields fields

end

/-- `json.dumps`, when it does not raise. -/
def dumps (v : Json) : List Char := (v.doc format).dumps

/-- `int(text)` of a sign and digits. -/
def readInt : List Char → Int
  | '-' :: digits => -(digitsValue digits : Int)
  | digits => digitsValue digits

/-- The value of a number. -/
def ofLexeme (chars : List Char) : Option Json :=
  if chars.any fun c => c = '.' ∨ c = 'e' ∨ c = 'E' then some (.float (format.read chars))
  else if maxStrDigits < (chars.filter (· ≠ '-')).length then none
  else some (.int (readInt chars))

mutual

/-- The value of a document. -/
def ofDoc : JsonDoc → Option Json
  | .null => some .null
  | .bool b => some (.bool b)
  | .number lexeme => ofLexeme format (JsonDoc.lexemeChars lexeme)
  | .str s => some (.str s)
  | .arr items => (ofItems items).map .arr
  | .obj members => (ofMembers members).map fun fields => .obj (Dict.ofPairs fields)

def ofItems : List JsonDoc → Option (List Json)
  | [] => some []
  | v :: items => (ofDoc v).bind fun w => (ofItems items).map (w :: ·)

def ofMembers : List (String × JsonDoc) → Option (List (String × Json))
  | [] => some []
  | (k, v) :: members => (ofDoc v).bind fun w => (ofMembers members).map ((k, w) :: ·)

end

/-- `json.loads`. -/
def loads (isNumber : List CodePoint → Bool) (text : List Char) : Option Json :=
  (JsonParser.parse isNumber (text.map .scalar)).bind (ofDoc format)

section Texts

variable {format}

lemma number_intChars (n : Int) : Number ((intChars n).map .scalar) := by
  refine ⟨if n < 0 then [.scalar '-'] else [], (Nat.toDigits 10 n.natAbs).map .scalar, [], [], ?_,
    ?_, JsonDoc.integerPart_nat n.natAbs, .inl rfl, .inl rfl⟩
  · rw [intChars, List.map_append, List.append_nil, List.append_nil]
    split <;> rfl
  · split
    · exact .inr rfl
    · exact .inl rfl

mutual

theorem wellFormed_doc : ∀ v : Json, v.writable = true → (v.doc format).WellFormed
  | .null, _ => .null
  | .bool _, _ => .bool
  | .int n, _ => .number (number_intChars n)
  | .float bits, h => .number (format.number bits h)
  | .str _, _ => .str
  | .arr items, h => .arr (wellFormed_docItems items h)
  | .obj fields, h => .obj (wellFormed_docFields fields h)

theorem wellFormed_docItems : ∀ items : List Json, writableItems items = true →
    ∀ d ∈ docItems format items, d.WellFormed
  | [], _, d, hd => absurd hd List.not_mem_nil
  | v :: items, h, d, hd => by
    rw [writableItems, Bool.and_eq_true] at h
    rcases List.mem_cons.mp hd with rfl | hd
    · exact wellFormed_doc v h.1
    · exact wellFormed_docItems items h.2 d hd

theorem wellFormed_docFields : ∀ fields : List (String × Json), writableFields fields = true →
    ∀ m ∈ docFields format fields, m.2.WellFormed
  | [], _, m, hm => absurd hm List.not_mem_nil
  | (k, v) :: fields, h, m, hm => by
    rw [writableFields, Bool.and_eq_true] at h
    rcases List.mem_cons.mp hm with rfl | hm
    · exact wellFormed_doc v h.1
    · exact wellFormed_docFields fields h.2 m hm

end

lemma lexemeChars_map (chars : List Char) : JsonDoc.lexemeChars (chars.map .scalar) = chars := by
  induction chars with
  | nil => rfl
  | cons c chars ih =>
    have hcons : JsonDoc.lexemeChars ((c :: chars).map .scalar) =
        c :: JsonDoc.lexemeChars (chars.map .scalar) := rfl
    rw [hcons, ih]

lemma readInt_digits {digits : List Char} (h : AllDigits digits) :
    readInt digits = digitsValue digits := by
  unfold readInt
  split
  · next ds => exact absurd (h '-' List.mem_cons_self) (by decide)
  · rfl

lemma readInt_intChars (n : Int) : readInt (intChars n) = n := by
  have hdigits := allDigits_toDigits n.natAbs
  unfold intChars
  split
  · next h =>
    have hneg : readInt ('-' :: Nat.toDigits 10 n.natAbs) =
        -(digitsValue (Nat.toDigits 10 n.natAbs) : Int) := rfl
    rw [List.singleton_append, hneg, digitsValue_toDigits]
    omega
  · rw [List.nil_append, readInt_digits hdigits, digitsValue_toDigits]
    omega

/-- An integer is written with a sign and digits only. -/
lemma mem_intChars {n : Int} {c : Char} (h : c ∈ intChars n) : c = '-' ∨ c.isDigit = true := by
  rcases List.mem_append.mp h with h | h
  · split at h
    · exact .inl (List.mem_singleton.mp h)
    · cases h
  · exact .inr (allDigits_toDigits n.natAbs c h)

lemma filter_intChars (n : Int) :
    (intChars n).filter (· ≠ '-') = Nat.toDigits 10 n.natAbs := by
  have hdigits : (Nat.toDigits 10 n.natAbs).filter (· ≠ '-') = Nat.toDigits 10 n.natAbs := by
    apply List.filter_eq_self.mpr
    intro c hc
    rw [decide_eq_true_eq]
    rintro rfl
    exact absurd (allDigits_toDigits n.natAbs '-' hc) (by decide)
  rw [intChars, List.filter_append, hdigits]
  split <;> rfl

lemma ofLexeme_intChars {n : Int} (h : (Nat.toDigits 10 n.natAbs).length ≤ maxStrDigits) :
    ofLexeme format (intChars n) = some (.int n) := by
  have hplain : ¬((intChars n).any fun c => c = '.' ∨ c = 'e' ∨ c = 'E') = true := by
    simp only [List.any_eq_true, decide_eq_true_eq]
    rintro ⟨c, hc, hcases⟩
    rcases mem_intChars hc with rfl | hdigit
    · revert hcases
      decide
    · rcases hcases with rfl | rfl | rfl <;> revert hdigit <;> decide
  rw [ofLexeme, if_neg hplain, filter_intChars, if_neg (by omega), readInt_intChars]

lemma ofLexeme_repr {bits : UInt64} (h : isFinite bits = true) :
    ofLexeme format (format.repr bits) = some (.float bits) := by
  have hfloat : ((format.repr bits).any fun c => c = '.' ∨ c = 'e' ∨ c = 'E') = true := by
    simp only [List.any_eq_true, decide_eq_true_eq]
    obtain ⟨c, hc, hcases⟩ := format.fractional bits h
    exact ⟨c, hc, hcases.imp id .inl⟩
  rw [ofLexeme, if_pos hfloat, format.read_repr bits h]

mutual

/-- The document of a value is read as the value. -/
theorem ofDoc_doc : ∀ v : Json, v.UniqueKeys → v.writable = true →
    ofDoc format (v.doc format) = some v
  | .null, _, _ => rfl
  | .bool _, _, _ => rfl
  | .int n, _, h => by
    rw [doc, ofDoc, lexemeChars_map]
    exact ofLexeme_intChars (of_decide_eq_true h)
  | .float bits, _, h => by
    rw [doc, ofDoc, lexemeChars_map]
    exact ofLexeme_repr h
  | .str _, _, _ => rfl
  | .arr items, hu, h => by
    rw [doc, ofDoc, ofItems_docItems items (uniqueKeys_arr.mp hu) h, Option.map_some]
  | .obj fields, hu, h => by
    obtain ⟨hkeys, hvalues⟩ := uniqueKeys_obj.mp hu
    rw [doc, ofDoc, ofMembers_docFields fields hvalues h, Option.map_some,
      Dict.ofPairs_of_nodup hkeys]

theorem ofItems_docItems : ∀ items : List Json, (∀ v ∈ items, v.UniqueKeys) →
    writableItems items = true → ofItems format (docItems format items) = some items
  | [], _, _ => rfl
  | v :: items, hu, h => by
    rw [writableItems, Bool.and_eq_true] at h
    obtain ⟨hv, hitems⟩ := List.forall_mem_cons.mp hu
    rw [docItems, ofItems, ofDoc_doc v hv h.1, Option.bind_some,
      ofItems_docItems items hitems h.2, Option.map_some]

theorem ofMembers_docFields : ∀ fields : List (String × Json), (∀ m ∈ fields, m.2.UniqueKeys) →
    writableFields fields = true → ofMembers format (docFields format fields) = some fields
  | [], _, _ => rfl
  | (k, v) :: fields, hu, h => by
    rw [writableFields, Bool.and_eq_true] at h
    obtain ⟨hv, hfields⟩ := List.forall_mem_cons.mp hu
    rw [docFields, ofMembers, ofDoc_doc v hv h.1, Option.bind_some,
      ofMembers_docFields fields hfields h.2, Option.map_some]

end

variable {isNumber : List CodePoint → Bool}

/-- A value that is written is read back. -/
theorem loads_dumps (hnumber : ∀ t, isNumber t = true ↔ Number t) {v : Json} (hu : v.UniqueKeys)
    (hw : v.writable = true) : loads format isNumber (v.dumps format) = some v := by
  have hparse : JsonParser.parse isNumber ((v.dumps format).map .scalar) = some (v.doc format) :=
    (JsonParser.parse_eq_some_iff hnumber).mpr (JsonDoc.document_dumps (wellFormed_doc v hw))
  rw [loads, hparse, Option.bind_some, ofDoc_doc v hu hw]

end Texts

end Json

end ChatBI.Lib
