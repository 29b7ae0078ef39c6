import Mathlib.Algebra.Order.Field.Rat
import Mathlib.Data.List.TakeWhile
import Mathlib.Tactic.Ring
import Mathlib.Tactic.Linarith

/-!
# Decimal texts

Finite floating point numbers by the shortest decimal that reads back as the number, the text that
`repr` makes of it, and how such a text is read.
-/

namespace ChatBI.Lib

/-- A finite float: its sign, the digits of its shortest decimal and the power of ten of the last
one. A double needs 17 digits at most. -/
structure Float64 where
  negative : Bool
  digits : Nat
  exponent : Int
  trimmed : digits % 10 ≠ 0 ∨ digits = 0 ∧ exponent = 0
  short : digits < 10 ^ 17 ∧ exponent.natAbs < 1000
  deriving DecidableEq

def sign (negative : Bool) : Rat := if negative then -1 else 1

def Float64.value (x : Float64) : Rat := sign x.negative * x.digits * (10 : Rat) ^ x.exponent

def Float64.digitChars (x : Float64) : List Char := Nat.toDigits 10 x.digits

/-- The number of digits in front of the decimal point. -/
def Float64.point (x : Float64) : Int := x.digitChars.length + x.exponent

/-- `%+.02d`. -/
def exponentText (exponent : Int) : List Char :=
  (if exponent < 0 then '-' else '+') ::
    (if exponent.natAbs < 10 then ['0'] else []) ++ Nat.toDigits 10 exponent.natAbs

/-- The digits with the decimal point among them. -/
def positionalText (digits : List Char) (point : Int) : List Char :=
  if point ≤ 0 then '0' :: '.' :: List.replicate point.natAbs '0' ++ digits
  else if digits.length ≤ point.toNat then
    digits ++ List.replicate (point.toNat - digits.length) '0' ++ ['.', '0']
  else digits.take point.toNat ++ '.' :: digits.drop point.toNat

/-- One digit in front of the decimal point. -/
def scientificText (digits : List Char) (point : Int) : List Char :=
  digits.take 1 ++ (if digits.length ≤ 1 then [] else '.' :: digits.drop 1) ++
    'e' :: exponentText (point - 1)

/-- The characters of `repr`. -/
def Float64.reprChars (x : Float64) : List Char :=
  (if x.negative then ['-'] else []) ++
    if x.point ≤ -4 ∨ 16 < x.point then scientificText x.digitChars x.point
    else positionalText x.digitChars x.point

def Float64.repr (x : Float64) : String := String.ofList x.reprChars

/-- The characters of `str` of an integer. -/
def intChars (n : Int) : List Char := (if n < 0 then ['-'] else []) ++ Nat.toDigits 10 n.natAbs

/-! ### Reading -/

/-- The number that digits stand for. -/
def digitsValue (cs : List Char) : Nat := Nat.ofDigitChars 10 cs 0

/-- What follows the first separator. -/
def behind (separator : Char) (cs : List Char) : List Char :=
  (cs.dropWhile (· ≠ separator)).drop 1

def before (separator : Char) (cs : List Char) : List Char := cs.takeWhile (· ≠ separator)

def readExponent : List Char → Int
  | '-' :: digits => -digitsValue digits
  | '+' :: digits => digitsValue digits
  | digits => digitsValue digits

def readUnsigned (cs : List Char) : Rat :=
  let mantissa := before 'e' cs
  let whole := before '.' mantissa
  let fraction := behind '.' mantissa
  digitsValue (whole ++ fraction) * (10 : Rat) ^ (readExponent (behind 'e' cs) - fraction.length)

def readDecimal : List Char → Rat
  | '-' :: cs => -readUnsigned cs
  | cs => readUnsigned cs

/-! ### Texts are read back -/

/-- Characters that are digits. -/
def AllDigits (cs : List Char) : Prop := ∀ c ∈ cs, c.isDigit = true

lemma AllDigits.append {cs ds : List Char} (hcs : AllDigits cs) (hds : AllDigits ds) :
    AllDigits (cs ++ ds) := by
  intro c hc
  rcases List.mem_append.mp hc with hc | hc
  · exact hcs c hc
  · exact hds c hc

lemma allDigits_toDigits (n : Nat) : AllDigits (Nat.toDigits 10 n) :=
  fun _ hc => Nat.isDigit_of_mem_toDigits (by omega) (by omega) hc

lemma allDigits_zeros (n : Nat) : AllDigits (List.replicate n '0') := by
  intro c hc
  rw [List.eq_of_mem_replicate hc]
  rfl

lemma AllDigits.take {cs : List Char} (h : AllDigits cs) (n : Nat) : AllDigits (cs.take n) :=
  fun c hc => h c (List.mem_of_mem_take hc)

lemma AllDigits.drop {cs : List Char} (h : AllDigits cs) (n : Nat) : AllDigits (cs.drop n) :=
  fun c hc => h c (List.mem_of_mem_drop hc)

lemma AllDigits.ne {cs : List Char} (h : AllDigits cs) {separator : Char}
    (hseparator : separator.isDigit = false) : ∀ c ∈ cs, c ≠ separator := by
  rintro c hc rfl
  rw [h c hc] at hseparator
  cases hseparator

section Separators

variable {separator : Char} {cs : List Char}

lemma before_append (h : ∀ c ∈ cs, c ≠ separator) (rest : List Char) :
    before separator (cs ++ separator :: rest) = cs := by
  unfold before
  rw [List.takeWhile_append_of_pos (by simpa using h)]
  simp

lemma behind_append (h : ∀ c ∈ cs, c ≠ separator) (rest : List Char) :
    behind separator (cs ++ separator :: rest) = rest := by
  unfold behind
  rw [List.dropWhile_append_of_pos (by simpa using h)]
  simp

lemma before_of_forall (h : ∀ c ∈ cs, c ≠ separator) : before separator cs = cs := by
  unfold before
  rw [List.takeWhile_eq_self_iff]
  simpa using h

lemma behind_of_forall (h : ∀ c ∈ cs, c ≠ separator) : behind separator cs = [] := by
  have hnil : cs.dropWhile (· ≠ separator) = [] := by
    rw [List.dropWhile_eq_nil_iff]
    simpa using h
  unfold behind
  rw [hnil]
  rfl

end Separators

lemma digitsValue_append_zeros (cs : List Char) (n : Nat) :
    digitsValue (cs ++ List.replicate n '0') = digitsValue cs * 10 ^ n := by
  unfold digitsValue
  rw [Nat.ofDigitChars_append, Nat.ofDigitChars_replicate_zero, Nat.mul_comm]

lemma digitsValue_zeros_append (cs : List Char) (n : Nat) :
    digitsValue (List.replicate n '0' ++ cs) = digitsValue cs := by
  unfold digitsValue
  rw [Nat.ofDigitChars_append, Nat.ofDigitChars_replicate_zero, Nat.mul_zero]

lemma digitsValue_toDigits (n : Nat) : digitsValue (Nat.toDigits 10 n) = n :=
  Nat.ofDigitChars_ten_toDigits

lemma not_digit_e : ('e').isDigit = false := rfl

lemma not_digit_dot : ('.').isDigit = false := rfl

/-- Digits, a point and digits without an exponent. -/
lemma readUnsigned_point {whole fraction : List Char} (hwhole : AllDigits whole)
    (hfraction : AllDigits fraction) : readUnsigned (whole ++ '.' :: fraction) =
      digitsValue (whole ++ fraction) * (10 : Rat) ^ (-(fraction.length : Int)) := by
  have hne : ∀ c ∈ whole ++ '.' :: fraction, c ≠ 'e' := by
    intro c hc
    rcases List.mem_append.mp hc with hc | hc
    · exact hwhole.ne not_digit_e c hc
    · rcases List.mem_cons.mp hc with rfl | hc
      · decide
      · exact hfraction.ne not_digit_e c hc
  unfold readUnsigned
  simp only [before_of_forall hne, behind_of_forall hne, before_append (hwhole.ne not_digit_dot),
    behind_append (hwhole.ne not_digit_dot)]
  rw [show readExponent [] - (fraction.length : Int) = -(fraction.length : Int) from Int.zero_sub _]

lemma readUnsigned_digits {digits : List Char} (h : AllDigits digits) :
    readUnsigned digits = digitsValue digits := by
  have hne := h.ne not_digit_e
  have hdot := h.ne not_digit_dot
  unfold readUnsigned
  simp only [before_of_forall hne, behind_of_forall hne, before_of_forall hdot,
    behind_of_forall hdot, List.append_nil, List.length_nil]
  change (digitsValue digits : Rat) * (10 : Rat) ^ (0 : Int) = digitsValue digits
  rw [zpow_zero, mul_one]

/-- Digits with a point, the first of them in front of it, and an exponent. -/
lemma readUnsigned_exponent {mantissa : List Char} (exponent : List Char)
    (h : ∀ c ∈ mantissa, c ≠ 'e') : readUnsigned (mantissa ++ 'e' :: exponent) =
      digitsValue (before '.' mantissa ++ behind '.' mantissa) *
        (10 : Rat) ^ (readExponent exponent - (behind '.' mantissa).length) := by
  unfold readUnsigned
  simp only [before_append h, behind_append h]

lemma readExponent_exponentText (exponent : Int) :
    readExponent (exponentText exponent) = exponent := by
  have hvalue : digitsValue ((if exponent.natAbs < 10 then ['0'] else []) ++
      Nat.toDigits 10 exponent.natAbs) = exponent.natAbs := by
    split
    · exact (digitsValue_zeros_append (Nat.toDigits 10 exponent.natAbs) 1).trans
        (digitsValue_toDigits _)
    · exact digitsValue_toDigits _
  unfold exponentText
  rw [List.cons_append]
  split
  · change -(digitsValue _ : Int) = exponent
    rw [hvalue]
    omega
  · change (digitsValue _ : Int) = exponent
    rw [hvalue]
    omega

section Texts

variable {digits : List Char}

lemma readUnsigned_positionalText (h : AllDigits digits) (point : Int) :
    readUnsigned (positionalText digits point) =
      digitsValue digits * (10 : Rat) ^ (point - digits.length) := by
  unfold positionalText
  split
  · rename_i hpoint
    have hfraction := (allDigits_zeros point.natAbs).append h
    have hwhole : AllDigits ['0'] := by
      intro c hc
      rw [List.mem_singleton.mp hc]
      rfl
    change readUnsigned (['0'] ++ '.' :: (List.replicate point.natAbs '0' ++ digits)) = _
    rw [readUnsigned_point hwhole hfraction, ← List.append_assoc]
    change (digitsValue (List.replicate (point.natAbs + 1) '0' ++ digits) : Rat) * _ = _
    rw [digitsValue_zeros_append, List.length_append, List.length_replicate]
    congr 2
    omega
  · rename_i hpoint
    split
    · rename_i hlength
      have hwhole := h.append (allDigits_zeros (point.toNat - digits.length))
      have hfraction : AllDigits ['0'] := allDigits_zeros 1
      rw [readUnsigned_point hwhole hfraction, List.append_assoc]
      have hzeros : List.replicate (point.toNat - digits.length) '0' ++ ['0'] =
          List.replicate (point.toNat - digits.length + 1) '0' := List.replicate_succ'.symm
      have hexponent : point - digits.length = ((point.toNat - digits.length : Nat) : Int) := by
        omega
      rw [hzeros, digitsValue_append_zeros, hexponent, zpow_natCast, pow_succ]
      push_cast
      rw [List.length_singleton, Nat.cast_one, zpow_neg_one]
      ring
    · rename_i hlength
      rw [readUnsigned_point (h.take _) (h.drop _), List.take_append_drop, List.length_drop]
      congr 2
      omega

lemma readUnsigned_scientificText (h : AllDigits digits) (hne : digits ≠ []) (point : Int) :
    readUnsigned (scientificText digits point) =
      digitsValue digits * (10 : Rat) ^ (point - digits.length) := by
  have hlength : 0 < digits.length := List.length_pos_iff.mpr hne
  unfold scientificText
  split
  · rename_i hone
    have htake : digits.take 1 = digits := List.take_of_length_le hone
    rw [List.append_nil, htake, readUnsigned_exponent _ (h.ne not_digit_e),
      before_of_forall (h.ne not_digit_dot), behind_of_forall (h.ne not_digit_dot),
      readExponent_exponentText, List.append_nil, List.length_nil]
    congr 2
    omega
  · rename_i hmany
    have hmantissa : ∀ c ∈ digits.take 1 ++ '.' :: digits.drop 1, c ≠ 'e' := by
      intro c hc
      rcases List.mem_append.mp hc with hc | hc
      · exact (h.take 1).ne not_digit_e c hc
      · rcases List.mem_cons.mp hc with rfl | hc
        · decide
        · exact (h.drop 1).ne not_digit_e c hc
    rw [readUnsigned_exponent _ hmantissa, before_append ((h.take 1).ne not_digit_dot),
      behind_append ((h.take 1).ne not_digit_dot), readExponent_exponentText,
      List.take_append_drop, List.length_drop]
    congr 2
    omega

end Texts

lemma readDecimal_of_head {cs : List Char} (h : cs.head? ≠ some '-') :
    readDecimal cs = readUnsigned cs := by
  cases cs with
  | nil => rfl
  | cons c cs =>
    unfold readDecimal
    split
    · rename_i heq
      rw [List.cons_eq_cons.mp heq |>.1] at h
      exact absurd rfl h
    · rfl

lemma readDecimal_neg (cs : List Char) : readDecimal ('-' :: cs) = -readUnsigned cs := rfl

/-- A text that starts with a digit has no sign. -/
lemma head_ne_of_digit {c : Char} (hc : c.isDigit = true) (cs : List Char) :
    (c :: cs).head? ≠ some '-' := by
  intro h
  rw [Option.some.inj h] at hc
  cases hc

lemma head_positionalText {c : Char} (hc : c.isDigit = true) (cs : List Char) (point : Int) :
    (positionalText (c :: cs) point).head? ≠ some '-' := by
  unfold positionalText
  split
  · exact head_ne_of_digit (c := '0') rfl _
  · rename_i hpoint
    split
    · exact head_ne_of_digit hc _
    · obtain ⟨k, hk⟩ : ∃ k, point.toNat = k + 1 := ⟨point.toNat - 1, by omega⟩
      rw [hk]
      exact head_ne_of_digit hc _

lemma head_scientificText {c : Char} (hc : c.isDigit = true) (cs : List Char) (point : Int) :
    (scientificText (c :: cs) point).head? ≠ some '-' := head_ne_of_digit hc _

/-- The text of a float is read as its value. -/
theorem readDecimal_reprChars (x : Float64) : readDecimal x.reprChars = x.value := by
  have hdigits : AllDigits x.digitChars := allDigits_toDigits x.digits
  have hne : x.digitChars ≠ [] := Nat.toDigits_ne_nil
  have hexponent : x.point - x.digitChars.length = x.exponent := by
    unfold Float64.point
    omega
  have hbody : readUnsigned (if x.point ≤ -4 ∨ 16 < x.point then
      scientificText x.digitChars x.point else positionalText x.digitChars x.point) =
      x.digits * (10 : Rat) ^ x.exponent := by
    split
    · rw [readUnsigned_scientificText hdigits hne, hexponent]
      unfold Float64.digitChars
      rw [digitsValue_toDigits]
    · rw [readUnsigned_positionalText hdigits, hexponent]
      unfold Float64.digitChars
      rw [digitsValue_toDigits]
  unfold Float64.reprChars Float64.value sign
  cases x.negative with
  | true =>
    rw [if_pos rfl, if_pos rfl, List.singleton_append, readDecimal_neg, hbody]
    ring
  | false =>
    have hhead : (if x.point ≤ -4 ∨ 16 < x.point then scientificText x.digitChars x.point
        else positionalText x.digitChars x.point).head? ≠ some '-' := by
      obtain ⟨c, cs, hcs⟩ := List.exists_cons_of_ne_nil hne
      have hc : c.isDigit = true := hdigits c (by rw [hcs]; exact List.mem_cons_self)
      rw [hcs]
      split
      · exact head_scientificText hc cs _
      · exact head_positionalText hc cs _
    rw [if_neg Bool.false_ne_true, List.nil_append, readDecimal_of_head hhead, hbody,
      if_neg Bool.false_ne_true, one_mul]

/-- The text of an integer is read as its value. -/
theorem readDecimal_intChars (n : Int) : readDecimal (intChars n) = n := by
  have hbody : readUnsigned (Nat.toDigits 10 n.natAbs) = n.natAbs := by
    rw [readUnsigned_digits (allDigits_toDigits _), digitsValue_toDigits]
  unfold intChars
  split
  · rename_i hn
    rw [List.singleton_append, readDecimal_neg, hbody]
    have hcast : (n : Rat) = -((n.natAbs : Int) : Rat) := by
      rw [← Int.cast_neg]
      congr 1
      omega
    rw [hcast]
    rfl
  · rename_i hn
    have hhead : (Nat.toDigits 10 n.natAbs).head? ≠ some '-' := by
      obtain ⟨c, cs, hcs⟩ := List.exists_cons_of_ne_nil (Nat.toDigits_ne_nil (n := n.natAbs))
      have hc := allDigits_toDigits n.natAbs c (by rw [hcs]; exact List.mem_cons_self)
      rw [hcs]
      exact head_ne_of_digit hc cs
    rw [List.nil_append, readDecimal_of_head hhead, hbody]
    have hcast : (n : Rat) = ((n.natAbs : Int) : Rat) := by
      congr 1
      omega
    rw [hcast]
    rfl

end ChatBI.Lib
