import Mathlib.Algebra.Ring.Nat

/-!
# Code points

A character of a text that may hold unpaired surrogates: a Unicode scalar value or one of the
2048 surrogates. Only a text without surrogates is encoded to UTF-8.
-/

namespace ChatBI.Lib

inductive CodePoint where
  | scalar (c : Char)
  | surrogate (n : Fin 2048)
  deriving DecidableEq

namespace CodePoint

/-- The text of scalar values that a string is. -/
def ofString (s : String) : List CodePoint := s.toList.map scalar

/-- The value of a hexadecimal digit. -/
def hexDigit? : CodePoint → Option Nat
  | scalar c =>
    if '0' ≤ c ∧ c ≤ '9' then some (c.toNat - '0'.toNat)
    else if 'a' ≤ c ∧ c ≤ 'f' then some (c.toNat - 'a'.toNat + 10)
    else if 'A' ≤ c ∧ c ≤ 'F' then some (c.toNat - 'A'.toNat + 10)
    else none
  | surrogate _ => none

def isDigit : CodePoint → Bool
  | scalar c => '0' ≤ c && c ≤ '9'
  | surrogate _ => false

end CodePoint

/-- The number that a list of hexadecimal digits stands for. -/
def hexValue (digits : List Nat) : Nat := digits.foldl (fun acc d => 16 * acc + d) 0

/-- The text of scalar values that encodes to UTF-8, `none` when there is an unpaired surrogate. -/
def scalars? (text : List CodePoint) : Option (List Char) :=
  text.mapM fun
    | .scalar c => some c
    | .surrogate _ => none

lemma scalars?_map (text : List Char) : scalars? (text.map .scalar) = some text := by
  unfold scalars?
  induction text with
  | nil => rfl
  | cons c text ih =>
    rw [List.map_cons, List.mapM_cons, ih]
    rfl

lemma length_of_scalars? {text : List CodePoint} {chars : List Char}
    (h : scalars? text = some chars) : chars.length = text.length := by
  unfold scalars? at h
  induction text generalizing chars with
  | nil =>
    cases h
    rfl
  | cons a text ih =>
    rw [List.mapM_cons] at h
    obtain ⟨c, -, h⟩ := Option.bind_eq_some_iff.mp h
    obtain ⟨rest, hrest, h⟩ := Option.bind_eq_some_iff.mp h
    obtain rfl := Option.some.inj h
    rw [List.length_cons, List.length_cons, ih hrest]

/-- A text that may hold unpaired surrogates. -/
structure Text where
  codes : List CodePoint
  deriving DecidableEq

namespace Text

def ofString (s : String) : Text := ⟨CodePoint.ofString s⟩

instance : Coe String Text := ⟨ofString⟩

/-- `encode()` does not raise on the text. -/
def Encodable (t : Text) : Prop := (scalars? t.codes).isSome

instance (t : Text) : Decidable t.Encodable := inferInstanceAs (Decidable ((_ : Bool) = true))

/-- The characters of an encodable text, none of any other one. -/
def written (t : Text) : String := String.ofList ((scalars? t.codes).getD [])

@[simp] lemma written_ofString (s : String) : (ofString s).written = s := by
  rw [written, ofString, CodePoint.ofString, scalars?_map, Option.getD_some, String.ofList_toList]

@[simp] lemma encodable_ofString (s : String) : (ofString s).Encodable := by
  rw [Encodable, ofString, CodePoint.ofString, scalars?_map]
  rfl

/-- A text of which something is written is encodable. -/
lemma encodable_of_written {t : Text} (h : t.written ≠ "") : t.Encodable := by
  by_contra hnone
  rw [Encodable, Option.not_isSome_iff_eq_none] at hnone
  rw [written, hnone] at h
  exact h rfl

end Text

end ChatBI.Lib
