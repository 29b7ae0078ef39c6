import ChatBI.Lib.Check
import ChatBI.Lib.Rounding
import ChatBI.Lib.Text

/-!
# Numeric literals

The decimal texts that `_decimal` admits into conditions, and the text that `_normalize_numbers`
makes of a literal before conditions are compared. The decimal digits of other scripts are a
parameter.
-/

namespace ChatBI.Semantic

open ChatBI.Lib

structure RestorationConditionError where
  message : String
  deriving DecidableEq

section Reading

variable (digit : Char → Option Nat)

/-- The characters that `Decimal` reads: without surrounding spaces and underscores, with the
digits of other scripts replaced. -/
def decimalChars (text : String) : List Char :=
  ((stripChars text.toList).filter (· ≠ '_')).map fun c =>
    match digit c with
    | some n => Nat.digitChar n
    | none => c.toLower

/-- An optional sign. -/
def signed : List Char → Bool × List Char
  | '-' :: rest => (true, rest)
  | '+' :: rest => (false, rest)
  | rest => (false, rest)

/-- `Infinity` and `NaN`. -/
def isSpecial (body : List Char) : Bool :=
  body = "inf".toList || body = "infinity".toList ||
    ["nan".toList, "snan".toList].any fun name =>
      name.isPrefixOf body && (body.drop name.length).all Char.isDigit

/-- The exponent behind the mantissa. -/
def exponent? : List Char → Option Int
  | [] => some 0
  | _ :: rest =>
    let (negative, digits) := signed rest
    if digits ≠ [] ∧ digits.all Char.isDigit then
      some (if negative then -digitsValue digits else digitsValue digits)
    else none

/-- The exponents that a decimal number of 64-bit Python can have. -/
def representable (number : DecimalNumber) : Prop :=
  number.adjusted ≤ 999999999999999999 ∧ -1999999999999999997 ≤ number.exponent

instance (number : DecimalNumber) : Decidable (representable number) :=
  inferInstanceAs (Decidable (_ ∧ _))

/-- `Decimal(text)`: none for an `InvalidOperation`, `some none` for a number that is not
finite. -/
def decimalOf (text : String) : Option (Option DecimalNumber) :=
  let (negative, body) := signed (decimalChars digit text)
  if isSpecial body then some none
  else
    let mantissa := before 'e' body
    let whole := before '.' mantissa
    let fraction := behind '.' mantissa
    if whole ++ fraction ≠ [] ∧ (whole ++ fraction).all Char.isDigit then
      match exponent? (body.dropWhile (· ≠ 'e')) with
      | some exponent =>
        let number := ⟨negative, digitsValue (whole ++ fraction), exponent - fraction.length⟩
        if representable number then some (some number) else none
      | none => none
    else none

/-- `_text`. -/
def boundedText (value : String) : Except RestorationConditionError String :=
  if strip value = "" ∨ 200 < value.length then .error ⟨"业务身份必须为有效文本"⟩
  else .ok (strip value)

/-- A text of a condition that is a finite number. -/
structure NumericText where
  text : String
  number : DecimalNumber
  reads : decimalOf digit text = some (some number)

/-- `_decimal`. -/
def decimal (value : String) : Except RestorationConditionError (NumericText digit) := do
  let text ← boundedText value
  match h : decimalOf digit text with
  | some (some number) => return ⟨text, number, h⟩
  | some none => .error ⟨"聚合筛选须为有限数值"⟩
  | none => .error ⟨"聚合筛选须为十进制文本"⟩

end Reading

/-- The context of `decimal` that nothing changes. -/
def defaultContext : DecimalContext := ⟨28, -999999, 999999, by decide, by decide⟩

/-- `decimal.Overflow`. -/
structure OverflowRaised where
  deriving DecidableEq

variable {digit : Char → Option Nat}

/-- Every bounded text that is a finite number is admitted. -/
lemma decimal_ok_iff {value : String} {literal : NumericText digit} :
    decimal digit value = .ok literal ↔ boundedText value = .ok literal.text := by
  obtain ⟨text, number, hreads⟩ := literal
  unfold decimal
  rw [except_bind_ok]
  constructor
  · rintro ⟨text', htext, h⟩
    rw [htext]
    split at h
    · next number' hnumber =>
      have hsame := congrArg NumericText.text (except_pure_ok.mp h)
      rw [← hsame]
    · cases h
    · cases h
  · intro htext
    refine ⟨text, htext, ?_⟩
    split
    · next number' hnumber =>
      have hsame : number' = number := by
        rw [hreads] at hnumber
        exact (Option.some.inj (Option.some.inj hnumber)).symm
      cases hsame
      rfl
    · next h =>
      rw [hreads] at h
      cases h
    · next h =>
      rw [hreads] at h
      cases h

/-- `_normalize_numbers` for one literal. -/
def normalizeNumber (literal : NumericText digit) : Except OverflowRaised (List Char) :=
  match literal.number.normalize defaultContext with
  | some number => .ok number.plainText
  | none => .error ⟨⟩

/-- Both literals have a text, and it is the same exactly when they are the same number. -/
def TextsTellValues (a b : NumericText digit) : Prop :=
  ∃ s t, normalizeNumber a = .ok s ∧ normalizeNumber b = .ok t ∧
    (s = t ↔ a.number.value = b.number.value)

/-- The digits that are kept of a number are not behind the largest exponent. -/
def InRange (number : DecimalNumber) : Prop :=
  defaultContext.rounded number.magnitude < 10 ^ (1000000 : Int)

/-- Different numbers of one sign with the same 28 digits. -/
def Coincide (x y : DecimalNumber) : Prop :=
  x.value ≠ y.value ∧ x.negative = y.negative ∧
    defaultContext.rounded x.magnitude = defaultContext.rounded y.magnitude

/-- Zero and minus zero. -/
def OppositeZeros (x y : DecimalNumber) : Prop := x.value = y.value ∧ x.negative ≠ y.negative

lemma normalizeNumber_ok {a : NumericText digit} (h : InRange a.number) :
    ∃ r : DecimalNumber, normalizeNumber a = .ok r.plainText ∧ r.Reduced ∧
      r.negative = a.number.negative ∧ r.magnitude = defaultContext.rounded a.number.magnitude := by
  unfold normalizeNumber
  rcases DecimalNumber.normalize_spec defaultContext a.number with
    ⟨r, hr, hnegative, hreduced, hmagnitude, -⟩ | ⟨-, hover⟩
  · rw [hr]
    exact ⟨r, rfl, hreduced, hnegative, hmagnitude⟩
  · exact absurd h (not_lt.mpr hover)

lemma inRange_of_ok {a : NumericText digit} {s : List Char} (h : normalizeNumber a = .ok s) :
    InRange a.number := by
  unfold normalizeNumber at h
  rcases DecimalNumber.normalize_spec defaultContext a.number with
    ⟨r, -, -, -, -, hlt⟩ | ⟨hnone, -⟩
  · exact hlt
  · rw [hnone] at h
    cases h

/-- The magnitude is the number without its sign. -/
lemma abs_value (x : DecimalNumber) : |x.value| = x.magnitude := by
  have hnonneg : 0 ≤ x.magnitude :=
    mul_nonneg (Nat.cast_nonneg _) (zpow_nonneg (by norm_num) _)
  unfold DecimalNumber.value sign
  split
  · rw [neg_one_mul, abs_neg, abs_of_nonneg hnonneg]
  · rw [one_mul, abs_of_nonneg hnonneg]

/-- The texts of two literals tell whether they are the same number exactly when their digits are
in range, they are not the two zeros and do not coincide in 28 digits. -/
theorem texts_tell_values_iff (a b : NumericText digit) :
    TextsTellValues a b ↔
      InRange a.number ∧ InRange b.number ∧ ¬OppositeZeros a.number b.number ∧
        ¬Coincide a.number b.number := by
  constructor
  · rintro ⟨s, t, hs, ht, hiff⟩
    have ha := inRange_of_ok hs
    have hb := inRange_of_ok ht
    obtain ⟨x, hx, hxreduced, hxnegative, hxmagnitude⟩ := normalizeNumber_ok ha
    obtain ⟨y, hy, hyreduced, hynegative, hymagnitude⟩ := normalizeNumber_ok hb
    have hsx : s = x.plainText := Except.ok.inj (hs.symm.trans hx)
    have hty : t = y.plainText := Except.ok.inj (ht.symm.trans hy)
    rw [hsx, hty, DecimalNumber.plainText_eq_iff hxreduced hyreduced, hxnegative, hynegative,
      hxmagnitude, hymagnitude] at hiff
    refine ⟨ha, hb, ?_, ?_⟩
    · rintro ⟨hvalue, hsign⟩
      exact hsign (hiff.mpr hvalue).1
    · rintro ⟨hvalue, hsign, hrounded⟩
      exact hvalue (hiff.mp ⟨hsign, hrounded⟩)
  · rintro ⟨ha, hb, hzeros, hdigits⟩
    obtain ⟨x, hx, hxreduced, hxnegative, hxmagnitude⟩ := normalizeNumber_ok ha
    obtain ⟨y, hy, hyreduced, hynegative, hymagnitude⟩ := normalizeNumber_ok hb
    refine ⟨_, _, hx, hy, ?_⟩
    rw [DecimalNumber.plainText_eq_iff hxreduced hyreduced, hxnegative, hynegative, hxmagnitude,
      hymagnitude]
    constructor
    · rintro ⟨hsign, hrounded⟩
      by_contra hvalue
      exact hdigits ⟨hvalue, hsign, hrounded⟩
    · intro hvalue
      have hsign : a.number.negative = b.number.negative := by
        by_contra hsign
        exact hzeros ⟨hvalue, hsign⟩
      have hmagnitude : a.number.magnitude = b.number.magnitude := by
        rw [← abs_value, ← abs_value, hvalue]
      exact ⟨hsign, by rw [hmagnitude]⟩

section

/-- Texts without digits of other scripts. -/
def asciiOnly : Char → Option Nat := fun _ => none

def thresholdOne : NumericText asciiOnly := ⟨"1", ⟨false, 1, 0⟩, by decide +kernel⟩

/-- A number with 29 digits. -/
def thresholdAboveOne : NumericText asciiOnly :=
  ⟨"1.0000000000000000000000000001", ⟨false, 10000000000000000000000000001, -28⟩,
    by decide +kernel⟩

/-- Two different thresholds have one text. -/
theorem threshold_above_one :
    decimal asciiOnly "1" = .ok thresholdOne ∧
      decimal asciiOnly "1.0000000000000000000000000001" = .ok thresholdAboveOne ∧
      normalizeNumber thresholdOne = .ok ['1'] ∧ normalizeNumber thresholdAboveOne = .ok ['1'] ∧
      ¬TextsTellValues thresholdOne thresholdAboveOne := by
  have hone : normalizeNumber thresholdOne = .ok ['1'] := by decide +kernel
  have habove : normalizeNumber thresholdAboveOne = .ok ['1'] := by decide +kernel
  refine ⟨decimal_ok_iff.mpr (by decide +kernel), decimal_ok_iff.mpr (by decide +kernel), hone,
    habove, ?_⟩
  rintro ⟨s, t, hs, ht, hiff⟩
  have hst : s = t := Except.ok.inj
    ((hs.symm.trans hone).trans (habove.symm.trans ht))
  have hvalue := hiff.mp hst
  unfold thresholdOne thresholdAboveOne DecimalNumber.value DecimalNumber.magnitude sign at hvalue
  norm_num at hvalue

end

end ChatBI.Semantic
