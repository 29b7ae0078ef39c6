import ChatBI.Lib.Numerals

/-!
# The display of numbers

The frontend keeps a decimal text as its digits and a scale, and shows the metric columns whose
meaning is certified with a fixed number of decimals and groups of thousands.
-/

namespace ChatBI.Frontend.NumberFormat

open ChatBI.Lib

inductive DisplayFormat where
  | money
  | count
  | ratio
  | number
  | raw
  deriving DecidableEq

structure DisplayColumn where
  certified : Bool
  role : String
  /-- The label of the unit. -/
  unit : Option (List Char)
  format : DisplayFormat

/-- A value of a result: a number comes as the text that `String` makes of it. -/
inductive Cell where
  | null
  | text (s : List Char)
  | number (s : List Char)
  | other (s : List Char)

def Cell.string : Cell → List Char
  | null => "null".toList
  | text s | number s | other s => s

/-- The text of a value of type `string` or `number`. -/
def Cell.decimal? : Cell → Option (List Char)
  | text s | number s => some s
  | null | other _ => none

/-! ### Decimal texts -/

/-- The groups of the pattern of a decimal text: a group that takes no part is empty. -/
structure DecimalMatch where
  negative : Bool
  whole : List Char
  fraction : List Char
  exponent : List Char
  deriving DecidableEq

/-- `[eE]([+-]?\d+)` up to the end. -/
def matchExponent : List Char → Option (List Char)
  | [] => some []
  | e :: exponent =>
    let digits := match exponent with
      | '+' :: digits | '-' :: digits => digits
      | digits => digits
    if (e = 'e' ∨ e = 'E') ∧ digits ≠ [] ∧ digits.all Char.isDigit then some exponent else none

/-- `\.(\d+)` and what follows. -/
def matchFraction : List Char → Option (List Char × List Char)
  | '.' :: rest =>
    if rest.takeWhile Char.isDigit ≠ [] then
      some (rest.takeWhile Char.isDigit, rest.dropWhile Char.isDigit)
    else none
  | rest => some ([], rest)

/-- The pattern behind the sign. -/
def matchUnsigned (negative : Bool) (text : List Char) : Option DecimalMatch :=
  let whole := text.takeWhile Char.isDigit
  if whole ≠ [] then
    (matchFraction (text.dropWhile Char.isDigit)).bind fun (fraction, rest) =>
      (matchExponent rest).map fun exponent => ⟨negative, whole, fraction, exponent⟩
  else none

/-- `^(-?)(\d+)(?:\.(\d+))?(?:[eE]([+-]?\d+))?$`. -/
def matchDecimal : List Char → Option DecimalMatch
  | '-' :: text => matchUnsigned true text
  | text => matchUnsigned false text

/-- `replace(/^0+(?=\d)/, '')`. -/
def stripZeros : List Char → List Char
  | c :: d :: cs => if c = '0' ∧ d.isDigit then stripZeros (d :: cs) else c :: d :: cs
  | cs => cs

structure Parsed where
  negative : Bool
  digits : List Char
  scale : Nat

/-- A negative scale becomes zeros behind the digits. -/
def unscaled (digits : List Char) (scale : Int) : List Char × Nat :=
  if scale < 0 then (digits ++ List.replicate (-scale).toNat '0', 0) else (digits, scale.toNat)

/-- The decimal places of the digits: those behind the point, less the exponent. -/
def DecimalMatch.scale (groups : DecimalMatch) : Int :=
  groups.fraction.length - readExponent groups.exponent

def decimal (value : Cell) : Option Parsed :=
  (value.decimal?.bind matchDecimal).bind fun groups =>
    if groups.whole.length + groups.fraction.length > 10000 then none
    else if (readExponent groups.exponent).natAbs > 1000 then none
    else
      let (digits, scale) := unscaled (stripZeros (groups.whole ++ groups.fraction)) groups.scale
      some ⟨groups.negative, digits, scale⟩

/-! ### The shown text -/

/-- `text.slice(0, -n)` and `text.slice(-n)` for a positive `n`. -/
def splitLast (n : Nat) (text : List Char) : List Char × List Char :=
  (text.take (text.length - n), text.drop (text.length - n))

def padStart (width : Nat) (text : List Char) : List Char :=
  List.replicate (width - text.length) '0' ++ text

/-- The zeros behind the point of a count are taken off. -/
def wholeCount (digits : List Char) (scale : Nat) : Option (List Char) :=
  if scale ≠ 0 then
    if List.replicate scale '0' <:+ digits then
      let rest := (splitLast scale digits).1
      some (if rest = [] then ['0'] else rest)
    else none
  else some digits

/-- The integer with `precision` decimals from the one with `scale`. -/
def rescaled (amount scale precision : Nat) : Nat :=
  if scale > precision then
    let divisor := 10 ^ (scale - precision)
    amount / divisor + if amount % divisor * 2 ≥ divisor then 1 else 0
  else if scale < precision then amount * 10 ^ (precision - scale)
  else amount

def suffix (column : DisplayColumn) : List Char :=
  match column.unit with
  | some label => if column.format = .ratio then label else ' ' :: label
  | none => []

/-- The second half of `displayValue`, behind the digits and the scale. -/
def numeral (negative : Bool) (digits : List Char) (scale precision : Nat)
    (column : DisplayColumn) : List Char :=
  let amount := rescaled (digitsValue digits) scale precision
  let text := padStart (precision + 1) (Nat.toDigits 10 amount)
  let integer := if precision ≠ 0 then (splitLast precision text).1 else text
  let fraction := if precision ≠ 0 then '.' :: (splitLast precision text).2 else []
  (if negative ∧ amount ≠ 0 then ['-'] else []) ++ commas integer ++ fraction ++ suffix column

def rawText : Cell → List Char
  | .null => "无数据".toList
  | .text [] => "空字符串".toList
  | value => value.string

/-- What is shown of a decimal text, if it is not the text itself. -/
def displayNumber (parsed : Parsed) (column : DisplayColumn) : Option (List Char) :=
  let (digits, scale) := unscaled parsed.digits
    (if column.format = .ratio then (parsed.scale : Int) - 2 else parsed.scale)
  let target := if column.format = .money ∨ column.format = .ratio then 2 else scale
  if column.format = .count then
    (wholeCount digits scale).map fun digits => numeral parsed.negative digits 0 0 column
  else some (numeral parsed.negative digits scale target column)

def displayValue (value : Cell) (column : Option DisplayColumn) : List Char :=
  match column with
  | none => rawText value
  | some column =>
    if ¬column.certified ∨ column.role ≠ "metric" ∨ column.format = .raw then rawText value
    else ((decimal value).bind fun parsed => displayNumber parsed column).getD (rawText value)

/-! ### Exact values -/

/-- The digits of a decimal text without its sign and its scale. -/
def DecimalMatch.amount (groups : DecimalMatch) : Nat :=
  digitsValue (groups.whole ++ groups.fraction)

/-- The number that a decimal text spells. -/
def DecimalMatch.value (groups : DecimalMatch) : ℚ :=
  sign groups.negative * (groups.amount * (10 : ℚ) ^ (-groups.scale))

/-- The decimals that a format shows. -/
def DisplayFormat.places : DisplayFormat → Nat
  | money | ratio => 2
  | _ => 0

/-- The power of ten of a percentage. -/
def DisplayFormat.percent : DisplayFormat → Nat
  | ratio => 2
  | _ => 0

/-- The exact value, rounded half away from zero to the decimals of the format. -/
def exactText (column : DisplayColumn) (value : ℚ) : List Char :=
  let places := column.format.places
  let amount := roundHalfAway (value * 10 ^ column.format.percent * 10 ^ places)
  (if value < 0 ∧ amount ≠ 0 then ['-'] else []) ++ fixedPoint places amount.natAbs ++
    suffix column

/-- A decimal text within the limits in a certified metric column of format money or ratio, or
of format count when its value is an integer. -/
structure Shown (value : Cell) (column : DisplayColumn) (groups : DecimalMatch) : Prop where
  text : value.decimal?.bind matchDecimal = some groups
  digits : groups.whole.length + groups.fraction.length ≤ 10000
  exponent : (readExponent groups.exponent).natAbs ≤ 1000
  certified : column.certified = true
  role : column.role = "metric"
  format : column.format = .money ∨ column.format = .ratio ∨
    column.format = .count ∧ ∃ n : Int, groups.value = n

/-- A count of zero spelled with two decimal places or more. -/
def ZeroWithPlaces (column : DisplayColumn) (groups : DecimalMatch) : Prop :=
  column.format = .count ∧ groups.value = 0 ∧ 2 ≤ groups.scale

/-! ### Digits -/

lemma takeWhile_allDigits (cs : List Char) : AllDigits (cs.takeWhile Char.isDigit) :=
  fun _ hc => List.mem_takeWhile_imp hc

lemma matchFraction_digits {cs fraction rest : List Char}
    (h : matchFraction cs = some (fraction, rest)) : AllDigits fraction := by
  unfold matchFraction at h
  split at h
  · split at h
    · cases h
      exact takeWhile_allDigits _
    · cases h
  · cases h
    exact fun _ hc => absurd hc List.not_mem_nil

lemma matchUnsigned_digits {negative : Bool} {text : List Char} {groups : DecimalMatch}
    (h : matchUnsigned negative text = some groups) :
    groups.whole ≠ [] ∧ AllDigits (groups.whole ++ groups.fraction) := by
  unfold matchUnsigned at h
  dsimp only at h
  split at h
  · rename_i hwhole
    obtain ⟨⟨fraction, rest⟩, hfraction, h⟩ := Option.bind_eq_some_iff.mp h
    obtain ⟨exponent, -, rfl⟩ := Option.map_eq_some_iff.mp h
    exact ⟨hwhole, (takeWhile_allDigits _).append (matchFraction_digits hfraction)⟩
  · cases h

/-- The whole part of a decimal text is not empty, and both parts are digits. -/
lemma matchDecimal_digits {text : List Char} {groups : DecimalMatch}
    (h : matchDecimal text = some groups) :
    groups.whole ≠ [] ∧ AllDigits (groups.whole ++ groups.fraction) := by
  unfold matchDecimal at h
  split at h
  · exact matchUnsigned_digits h
  · exact matchUnsigned_digits h

lemma digitsValue_cons (c : Char) (cs : List Char) :
    digitsValue (c :: cs) = 10 ^ cs.length * digitsValue [c] + digitsValue cs := by
  unfold digitsValue
  rw [Nat.ofDigitChars_cons, Nat.ofDigitChars_eq_ofDigitChars_zero, Nat.ofDigitChars_cons,
    Nat.ofDigitChars_nil]

lemma digitsValue_append_single (cs : List Char) (c : Char) :
    digitsValue (cs ++ [c]) = 10 * digitsValue cs + digitsValue [c] := by
  unfold digitsValue
  rw [Nat.ofDigitChars_append, Nat.ofDigitChars_eq_ofDigitChars_zero, List.length_singleton, pow_one]

lemma digitsValue_single (c : Char) : digitsValue [c] = c.toNat - 48 := by
  unfold digitsValue
  rw [Nat.ofDigitChars_cons, Nat.ofDigitChars_nil, Nat.mul_zero, Nat.zero_add]
  rfl

lemma digit_bounds {c : Char} (hc : c.isDigit = true) : 48 ≤ c.toNat ∧ c.toNat ≤ 57 :=
  Char.isDigit_iff_toNat.mp hc

lemma digitsValue_single_lt {c : Char} (hc : c.isDigit = true) : digitsValue [c] < 10 := by
  have hbounds := digit_bounds hc
  rw [digitsValue_single]
  omega

lemma eq_zero_of_digitsValue {c : Char} (hc : c.isDigit = true) (h : digitsValue [c] = 0) :
    c = '0' := by
  have hbounds := digit_bounds hc
  rw [digitsValue_single] at h
  apply Char.toNat_inj.mp
  change c.toNat = 48
  omega

lemma digitsValue_stripZeros (cs : List Char) : digitsValue (stripZeros cs) = digitsValue cs := by
  fun_induction stripZeros cs with
  | case1 c d cs h ih => rw [ih, h.1, digitsValue_cons '0']; exact (Nat.zero_add _).symm
  | case2 => rfl
  | case3 => rfl

lemma allDigits_stripZeros {cs : List Char} (h : AllDigits cs) : AllDigits (stripZeros cs) := by
  fun_induction stripZeros cs with
  | case1 c d cs _ ih => exact ih fun e he => h e (List.mem_cons_of_mem c he)
  | case2 => exact h
  | case3 => exact h

/-- Of the digits of zero one is left. -/
lemma stripZeros_of_zero {cs : List Char} (hcs : cs ≠ []) (hdigits : AllDigits cs)
    (h : digitsValue cs = 0) : stripZeros cs = ['0'] := by
  fun_induction stripZeros cs with
  | case1 c d cs hc ih =>
    apply ih (List.cons_ne_nil d cs) fun e he => hdigits e (List.mem_cons_of_mem c he)
    rw [digitsValue_cons] at h
    exact (Nat.add_eq_zero_iff.mp h).2
  | case2 c d cs hc =>
    have hd := hdigits d (List.mem_cons_of_mem c List.mem_cons_self)
    rw [digitsValue_cons] at h
    have hfirst := (Nat.mul_eq_zero.mp (Nat.add_eq_zero_iff.mp h).1).resolve_left (by positivity)
    exact absurd ⟨eq_zero_of_digitsValue (hdigits c List.mem_cons_self) hfirst, hd⟩ hc
  | case3 cs hshort =>
    cases cs with
    | nil => exact absurd rfl hcs
    | cons c cs =>
      cases cs with
      | nil => rw [eq_zero_of_digitsValue (hdigits c List.mem_cons_self) h]
      | cons d cs => exact (hshort c d cs rfl).elim

/-- The digits of a number other than zero end in as many zeros as it has factors of ten. -/
lemma zeros_suffix {cs : List Char} {n : Nat} (hdigits : AllDigits cs) (hne : digitsValue cs ≠ 0)
    (hdvd : 10 ^ n ∣ digitsValue cs) : List.replicate n '0' <:+ cs := by
  induction n generalizing cs with
  | zero => exact List.nil_suffix
  | succ n ih =>
    rcases List.eq_nil_or_concat' cs with rfl | ⟨init, c, rfl⟩
    · exact absurd rfl hne
    · have hc := hdigits c (List.mem_append_right init (List.mem_singleton_self c))
      have hinit : AllDigits init := fun e he => hdigits e (List.mem_append_left [c] he)
      have hlast : digitsValue [c] = 0 := by
        have hten : 10 ∣ digitsValue (init ++ [c]) :=
          (Dvd.intro_left (10 ^ n) (pow_succ 10 n).symm).trans hdvd
        have hlt := digitsValue_single_lt hc
        rw [digitsValue_append_single] at hten
        omega
      rw [digitsValue_append_single, hlast, Nat.add_zero] at hne hdvd
      have hrest : 10 ^ n ∣ digitsValue init := by
        rw [pow_succ'] at hdvd
        exact Nat.dvd_of_mul_dvd_mul_left (by omega) hdvd
      obtain ⟨before, hbefore⟩ := ih hinit (Nat.ne_zero_of_mul_ne_zero_right hne) hrest
      rw [← hbefore, eq_zero_of_digitsValue hc hlast]
      refine ⟨before, ?_⟩
      rw [List.replicate_succ', List.append_assoc]

/-! ### Scales -/

/-- Zeros in place of a negative scale keep the value. -/
lemma unscaled_value (digits : List Char) (scale : Int) :
    (digitsValue (unscaled digits scale).1 : ℚ) / 10 ^ (unscaled digits scale).2 =
      digitsValue digits * (10 : ℚ) ^ (-scale) := by
  unfold unscaled
  split
  · rename_i h
    have hscale : -scale = ((-scale).toNat : Int) := by omega
    rw [digitsValue_append_zeros, pow_zero, div_one, Nat.cast_mul, Nat.cast_pow, hscale,
      zpow_natCast, Int.toNat_natCast, Nat.cast_ofNat]
  · rename_i h
    have hscale : scale = (scale.toNat : Int) := by omega
    rw [hscale, zpow_neg, zpow_natCast, Int.toNat_natCast, div_eq_mul_inv]

lemma unscaled_natCast (digits : List Char) (scale : Nat) :
    unscaled digits scale = (digits, scale) := by
  unfold unscaled
  rw [if_neg (by omega), Int.toNat_natCast]

/-- An amount with another number of decimals, rounded half away from zero. -/
lemma rescaled_eq (amount scale precision : Nat) :
    (rescaled amount scale precision : Int) =
      roundHalfAway ((amount : ℚ) / 10 ^ scale * 10 ^ precision) := by
  have hten : (10 : ℚ) ≠ 0 := by norm_num
  unfold rescaled
  split
  · rename_i h
    have hquotient : (amount : ℚ) / 10 ^ scale * 10 ^ precision =
        amount / (10 ^ (scale - precision) : Nat) := by
      rw [Nat.cast_pow, Nat.cast_ofNat, div_mul_eq_mul_div, div_eq_div_iff (pow_ne_zero _ hten)
        (pow_ne_zero _ hten), mul_assoc, ← pow_add, Nat.add_sub_cancel' (Nat.le_of_lt h)]
    rw [hquotient, roundHalfAway_div (Nat.pow_pos (by omega))]
    rfl
  · rename_i h
    have hle : scale ≤ precision := Nat.le_of_not_lt h
    have hproduct : (amount : ℚ) / 10 ^ scale * 10 ^ precision =
        (amount * 10 ^ (precision - scale) : Nat) := by
      rw [Nat.cast_mul, Nat.cast_pow, Nat.cast_ofNat, div_mul_eq_mul_div,
        div_eq_iff (pow_ne_zero _ hten), mul_assoc, ← pow_add, Nat.sub_add_cancel hle]
    rw [hproduct, roundHalfAway_natCast]
    split
    · rfl
    · rename_i hlt
      rw [Nat.sub_eq_zero_of_le (Nat.le_of_not_lt hlt), pow_zero, mul_one]

/-! ### The numeral -/

lemma splitLast_append {front last : List Char} {n : Nat} (h : last.length = n) :
    splitLast n (front ++ last) = (front, last) := by
  unfold splitLast
  rw [List.length_append, h, Nat.add_sub_cancel, List.take_left, List.drop_left]

/-- The text of an amount, padded and split before its decimals, is a number of fixed decimals. -/
lemma numeral_eq (negative : Bool) (digits : List Char) (scale precision : Nat)
    (column : DisplayColumn) : numeral negative digits scale precision column =
      (if negative ∧ rescaled (digitsValue digits) scale precision ≠ 0 then ['-'] else []) ++
        fixedPoint precision (rescaled (digitsValue digits) scale precision) ++ suffix column := by
  have hpadded : padStart (precision + 1)
      (Nat.toDigits 10 (rescaled (digitsValue digits) scale precision)) = _ :=
    padded_toDigits precision _
  have hsplit := @splitLast_append (Nat.toDigits 10
    (rescaled (digitsValue digits) scale precision / 10 ^ precision)) _ _
    (length_lastDigits precision (rescaled (digitsValue digits) scale precision))
  unfold numeral fixedPoint
  dsimp only
  rw [hpadded, hsplit]
  by_cases hprecision : precision = 0
  · subst hprecision
    rw [if_neg (not_not_intro rfl), if_neg (not_not_intro rfl), if_pos rfl, lastDigits,
      List.append_nil, List.append_nil, List.append_nil, commas_toDigits]
  · rw [if_pos hprecision, if_pos hprecision, if_neg hprecision, commas_toDigits]
    simp only [List.append_assoc]

/-- The numeral of an exact magnitude is the exact text. -/
lemma numeral_exact {negative : Bool} {digits : List Char} {scale : Nat} {column : DisplayColumn}
    {magnitude : ℚ} (hmagnitude : (digitsValue digits : ℚ) / 10 ^ scale =
      magnitude * 10 ^ column.format.percent) :
    numeral negative digits scale column.format.places column =
      exactText column (sign negative * magnitude) := by
  have hten : (0 : ℚ) < 10 ^ column.format.percent := by positivity
  have hnonneg : 0 ≤ magnitude := by
    have hquotient : (0 : ℚ) ≤ (digitsValue digits : ℚ) / 10 ^ scale := by positivity
    rw [hmagnitude] at hquotient
    exact nonneg_of_mul_nonneg_left hquotient hten
  have hround := rescaled_eq (digitsValue digits) scale column.format.places
  rw [hmagnitude] at hround
  rw [numeral_eq]
  generalize rescaled (digitsValue digits) scale column.format.places = amount at hround
  unfold exactText
  dsimp only
  cases negative with
  | false =>
    rw [show sign false = 1 from rfl, one_mul, ← hround, if_neg (fun h => Bool.false_ne_true h.1),
      if_neg (fun h => absurd h.1 (not_lt.mpr hnonneg)), Int.natAbs_natCast]
  | true =>
    have hamount : amount ≠ 0 ↔ -magnitude < 0 ∧ -(amount : Int) ≠ 0 := by
      rw [neg_ne_zero, Nat.cast_ne_zero, neg_lt_zero]
      constructor
      · intro hne
        refine ⟨lt_of_le_of_ne hnonneg ?_, hne⟩
        rintro rfl
        rw [zero_mul, zero_mul, roundHalfAway_zero] at hround
        exact hne (Int.ofNat_eq_zero.mp hround)
      · exact And.right
    rw [show sign true = -1 from rfl, neg_one_mul, neg_mul, neg_mul, roundHalfAway_neg, ← hround,
      Int.natAbs_neg, Int.natAbs_natCast]
    simp only [hamount, true_and]

/-! ### Counts -/

lemma wholeCount_of_dvd {digits : List Char} {scale : Nat} (hdigits : AllDigits digits)
    (hne : digitsValue digits ≠ 0) (hdvd : 10 ^ scale ∣ digitsValue digits) :
    ∃ rest, wholeCount digits scale = some rest ∧
      digitsValue rest * 10 ^ scale = digitsValue digits := by
  have hsuffix := zeros_suffix hdigits hne hdvd
  unfold wholeCount
  split
  · refine ⟨_, rfl, ?_⟩
    obtain ⟨rest, rfl⟩ := hsuffix
    rw [splitLast_append (List.length_replicate), digitsValue_append_zeros]
    rw [digitsValue_append_zeros] at hne
    dsimp only
    rw [if_neg]
    rintro rfl
    exact hne (Nat.zero_mul _)
  · rename_i hscale
    rw [not_not.mp hscale]
    exact ⟨digits, rfl, Nat.mul_one _⟩

/-- The single digit of zero does not end in two zeros. -/
lemma wholeCount_zero (scale : Nat) :
    wholeCount ['0'] scale = if scale ≤ 1 then some ['0'] else none := by
  match scale with
  | 0 => rfl
  | 1 => rfl
  | scale + 2 =>
    have hlong : ¬List.replicate (scale + 2) '0' <:+ ['0'] := by
      intro h
      have hlength := h.length_le
      rw [List.length_replicate, List.length_singleton] at hlength
      omega
    unfold wholeCount
    rw [if_pos (by omega), if_neg hlong, if_neg (by omega)]

/-! ### What is shown -/

section Shown

variable {value : Cell} {column : DisplayColumn} {groups : DecimalMatch}

/-- The value without its sign. -/
def DecimalMatch.magnitude (groups : DecimalMatch) : ℚ :=
  groups.amount * (10 : ℚ) ^ (-groups.scale)

/-- The digits and the scale that `decimal` keeps. -/
def DecimalMatch.parsed (groups : DecimalMatch) : List Char × Nat :=
  unscaled (stripZeros (groups.whole ++ groups.fraction)) groups.scale

lemma DecimalMatch.value_eq_zero : groups.value = 0 ↔ groups.amount = 0 := by
  have hsign : sign groups.negative ≠ 0 := by
    unfold sign
    split <;> norm_num
  have hpower : (10 : ℚ) ^ (-groups.scale) ≠ 0 := zpow_ne_zero _ (by norm_num)
  unfold DecimalMatch.value
  rw [mul_eq_zero, or_iff_right hsign, mul_eq_zero, or_iff_left hpower, Nat.cast_eq_zero]

lemma parsed_magnitude (groups : DecimalMatch) :
    (digitsValue groups.parsed.1 : ℚ) / 10 ^ groups.parsed.2 = groups.magnitude := by
  unfold DecimalMatch.parsed DecimalMatch.magnitude DecimalMatch.amount
  rw [unscaled_value, digitsValue_stripZeros]

lemma Shown.spelled (h : Shown value column groups) :
    ∃ text, value.decimal? = some text ∧ matchDecimal text = some groups ∧ rawText value = text := by
  obtain ⟨text, hvalue, hmatch⟩ := Option.bind_eq_some_iff.mp h.text
  refine ⟨text, hvalue, hmatch, ?_⟩
  have hne : text ≠ [] := by
    rintro rfl
    cases hmatch
  cases value with
  | null => cases hvalue
  | other s => cases hvalue
  | number s => exact Option.some.inj hvalue
  | text s =>
    cases hvalue
    cases text with
    | nil => exact absurd rfl hne
    | cons c cs => rfl

lemma Shown.displayValue (h : Shown value column groups) : displayValue value (some column) =
    (displayNumber ⟨groups.negative, groups.parsed.1, groups.parsed.2⟩ column).getD
      (rawText value) := by
  have hraw : column.format ≠ .raw := by
    intro hraw
    rcases h.format with hmoney | hratio | ⟨hcount, -⟩
    · cases hraw.symm.trans hmoney
    · cases hraw.symm.trans hratio
    · cases hraw.symm.trans hcount
  have hdecimal : decimal value =
      some ⟨groups.negative, groups.parsed.1, groups.parsed.2⟩ := by
    unfold decimal
    rw [h.text, Option.bind_some, if_neg (not_lt.mpr h.digits), if_neg (not_lt.mpr h.exponent)]
    rfl
  have hplain : ¬(¬column.certified = true ∨ column.role ≠ "metric" ∨ column.format = .raw) := by
    rintro (hcertified | hrole | hformat)
    · exact hcertified h.certified
    · exact hrole h.role
    · exact hraw hformat
  unfold NumberFormat.displayValue
  dsimp only
  rw [if_neg hplain, hdecimal, Option.bind_some]

/-- Amounts of money and ratios are shown exactly. -/
lemma displayNumber_decimals (hformat : column.format = .money ∨ column.format = .ratio) :
    displayNumber ⟨groups.negative, groups.parsed.1, groups.parsed.2⟩ column =
      some (exactText column groups.value) := by
  let scale : Int := groups.parsed.2 - column.format.percent
  have hten : (10 : ℚ) ≠ 0 := by norm_num
  have hmagnitude : (digitsValue (unscaled groups.parsed.1 scale).1 : ℚ) /
      10 ^ (unscaled groups.parsed.1 scale).2 =
        groups.magnitude * 10 ^ column.format.percent := by
    rw [unscaled_value, ← parsed_magnitude, neg_sub, zpow_sub₀ hten, zpow_natCast, zpow_natCast,
      div_mul_eq_mul_div, mul_div_assoc]
  have hnumeral := @numeral_exact groups.negative _ _ _ _ hmagnitude
  have hplaces : column.format.places = 2 := by
    rcases hformat with hmoney | hratio
    · rw [hmoney]
      rfl
    · rw [hratio]
      rfl
  have hscale : (if column.format = .ratio then (groups.parsed.2 : Int) - 2 else groups.parsed.2) =
      scale := by
    rcases hformat with hmoney | hratio
    · rw [if_neg (by rw [hmoney]; decide)]
      change _ = (groups.parsed.2 : Int) - column.format.percent
      rw [hmoney]
      exact (sub_zero _).symm
    · rw [if_pos hratio]
      change _ = (groups.parsed.2 : Int) - column.format.percent
      rw [hratio]
      rfl
  have hcount : column.format ≠ .count := by
    rcases hformat with hmoney | hratio
    · rw [hmoney]
      decide
    · rw [hratio]
      decide
  rw [hplaces] at hnumeral
  unfold displayNumber
  dsimp only
  rw [hscale, if_neg hcount, if_pos hformat, hnumeral]
  rfl

lemma magnitude_natAbs {n : Int} (h : groups.value = n) : groups.magnitude = n.natAbs := by
  have hnonneg : 0 ≤ groups.magnitude :=
    mul_nonneg (Nat.cast_nonneg _) (zpow_nonneg (by norm_num) _)
  have habs : |groups.value| = groups.magnitude := by
    change |sign groups.negative * groups.magnitude| = _
    rw [abs_mul, abs_of_nonneg hnonneg]
    unfold sign
    split
    · rw [abs_neg, abs_one, one_mul]
    · rw [abs_one, one_mul]
  rw [← habs, h, Nat.cast_natAbs, Int.cast_abs]

/-- The digits of zero are kept as one digit, or as zeros without a scale. -/
lemma parsed_of_zero (hne : groups.whole ≠ [])
    (hdigits : AllDigits (groups.whole ++ groups.fraction)) (hamount : groups.amount = 0) :
    groups.parsed = unscaled ['0'] groups.scale := by
  have hparts : groups.whole ++ groups.fraction ≠ [] := List.append_ne_nil_of_left_ne_nil hne _
  unfold DecimalMatch.parsed
  rw [stripZeros_of_zero hparts hdigits hamount]

lemma wholeCount_parsed_zero (h : groups.parsed = unscaled ['0'] groups.scale) :
    (2 ≤ groups.scale → wholeCount groups.parsed.1 groups.parsed.2 = none) ∧
      (groups.scale ≤ 1 → ∃ rest, wholeCount groups.parsed.1 groups.parsed.2 = some rest ∧
        digitsValue rest = 0) := by
  rw [h]
  unfold unscaled
  split
  · rename_i hnegative
    constructor
    · omega
    · intro
      refine ⟨_, rfl, ?_⟩
      rw [digitsValue_append_zeros]
      exact Nat.zero_mul _
  · rename_i hnonneg
    dsimp only
    rw [wholeCount_zero]
    constructor
    · intro hscale
      rw [if_neg (by omega)]
    · intro hscale
      rw [if_pos (by omega)]
      exact ⟨_, rfl, rfl⟩

lemma allDigits_unscaled {digits : List Char} (h : AllDigits digits) (scale : Int) :
    AllDigits (unscaled digits scale).1 := by
  unfold unscaled
  split
  · exact h.append (allDigits_zeros _)
  · exact h

/-- A count that is an integer other than zero is shown exactly, zero only when its digits have no
more than one decimal place. -/
lemma displayNumber_count (hne : groups.whole ≠ [])
    (hdigits : AllDigits (groups.whole ++ groups.fraction)) (hformat : column.format = .count)
    (hinteger : ∃ n : Int, groups.value = n) :
    displayNumber ⟨groups.negative, groups.parsed.1, groups.parsed.2⟩ column =
      if groups.value = 0 ∧ 2 ≤ groups.scale then none else some (exactText column groups.value) := by
  have hcount : displayNumber ⟨groups.negative, groups.parsed.1, groups.parsed.2⟩ column =
      (wholeCount groups.parsed.1 groups.parsed.2).map
        fun digits => numeral groups.negative digits 0 0 column := by
    unfold displayNumber
    dsimp only
    have hratio : column.format ≠ .ratio := by
      rw [hformat]
      decide
    rw [if_pos hformat, if_neg hratio, unscaled_natCast]
  have hexact : ∀ digits, (digitsValue digits : ℚ) = groups.magnitude →
      numeral groups.negative digits 0 0 column = exactText column groups.value := by
    intro digits h
    have hmagnitude : (digitsValue digits : ℚ) / 10 ^ 0 =
        groups.magnitude * 10 ^ column.format.percent := by
      rw [hformat, h]
      exact (div_one _).trans (mul_one _).symm
    have hnumeral := @numeral_exact groups.negative _ _ _ _ hmagnitude
    rw [hformat] at hnumeral
    exact hnumeral
  rw [hcount]
  by_cases hzero : groups.value = 0
  · have hamount := DecimalMatch.value_eq_zero.mp hzero
    have hkept := wholeCount_parsed_zero (parsed_of_zero hne hdigits hamount)
    by_cases hscale : 2 ≤ groups.scale
    · rw [if_pos ⟨hzero, hscale⟩, hkept.1 hscale]
      rfl
    · obtain ⟨rest, hrest, hvalue⟩ := hkept.2 (by omega)
      have hmagnitude : (digitsValue rest : ℚ) = groups.magnitude := by
        rw [hvalue, DecimalMatch.magnitude, hamount, Nat.cast_zero, zero_mul]
      rw [if_neg (fun h => hscale h.2), hrest, Option.map_some, hexact rest hmagnitude]
  · obtain ⟨n, hn⟩ := hinteger
    have hparsed := parsed_magnitude groups
    rw [magnitude_natAbs hn, div_eq_iff (by positivity)] at hparsed
    have hproduct : digitsValue groups.parsed.1 = n.natAbs * 10 ^ groups.parsed.2 := by
      exact_mod_cast hparsed
    have hnonzero : n.natAbs ≠ 0 := by
      intro h
      rw [hn, Int.natAbs_eq_zero.mp h] at hzero
      exact hzero Int.cast_zero
    have hpositive : 0 < 10 ^ groups.parsed.2 := Nat.pow_pos (by omega)
    obtain ⟨rest, hrest, hvalue⟩ := wholeCount_of_dvd
      (allDigits_unscaled (allDigits_stripZeros hdigits) groups.scale)
      (hproduct ▸ Nat.mul_ne_zero hnonzero hpositive.ne') (Dvd.intro_left _ hproduct.symm)
    have hmagnitude : (digitsValue rest : ℚ) = groups.magnitude := by
      rw [magnitude_natAbs hn, Nat.eq_of_mul_eq_mul_right hpositive (hvalue.trans hproduct)]
    rw [if_neg (fun h => hzero h.1)]
    exact (congrArg _ hrest).trans (congrArg some (hexact rest hmagnitude))

/-- The text that is shown in place of a count of zero is not a zero. -/
lemma rawText_ne_exact {text : List Char} (hmatch : matchDecimal text = some groups)
    (hscale : 2 ≤ groups.scale) (hformat : column.format = .count) :
    text ≠ exactText column 0 := by
  have hzero : exactText column 0 = '0' :: suffix column := by
    unfold exactText
    dsimp only
    rw [zero_mul, zero_mul, roundHalfAway_zero, hformat, if_neg (fun h => h.2 rfl)]
    unfold fixedPoint
    rw [thousands, if_pos (by decide)]
    rfl
  rw [hzero]
  rintro rfl
  unfold suffix at hmatch
  split at hmatch
  · rw [if_neg (by rw [hformat]; decide)] at hmatch
    cases hmatch
  · cases hmatch
    exact absurd hscale (by decide)

end Shown

/-- A certified metric shows its exact value, except for a count of zero that is spelled with two
decimal places or more; apart from these, texts of one value are shown alike. -/
theorem metric_display_exact (column : DisplayColumn) :
    (∀ value groups, Shown value column groups →
      (displayValue value (some column) = exactText column groups.value ↔
        ¬ZeroWithPlaces column groups)) ∧
    ∀ value groups value' groups', Shown value column groups → Shown value' column groups' →
      groups.value = groups'.value → ¬ZeroWithPlaces column groups →
        ¬ZeroWithPlaces column groups' →
          displayValue value (some column) = displayValue value' (some column) := by
  have hexact : ∀ value groups, Shown value column groups →
      (displayValue value (some column) = exactText column groups.value ↔
        ¬ZeroWithPlaces column groups) := by
    intro value groups h
    obtain ⟨text, -, hmatch, hraw⟩ := h.spelled
    obtain ⟨hne, hdigits⟩ := matchDecimal_digits hmatch
    rw [h.displayValue]
    by_cases hcount : column.format = .count
    · have hinteger : ∃ n : Int, groups.value = n := by
        rcases h.format with hmoney | hratio | ⟨-, hinteger⟩
        · cases hmoney.symm.trans hcount
        · cases hratio.symm.trans hcount
        · exact hinteger
      rw [displayNumber_count hne hdigits hcount hinteger]
      by_cases hzero : groups.value = 0 ∧ 2 ≤ groups.scale
      · have hdifferent := rawText_ne_exact hmatch hzero.2 hcount
        rw [if_pos hzero, Option.getD_none, hraw, hzero.1]
        exact iff_of_false hdifferent (not_not_intro ⟨hcount, hzero⟩)
      · rw [if_neg hzero]
        exact iff_of_true rfl fun h => hzero h.2
    · have hdecimals : column.format = .money ∨ column.format = .ratio :=
        h.format.imp_right fun hrest => hrest.resolve_right fun hc => hcount hc.1
      rw [displayNumber_decimals hdecimals]
      exact iff_of_true rfl fun h => hcount h.1
  refine ⟨hexact, ?_⟩
  intro value groups value' groups' h h' hvalue hplain hplain'
  rw [(hexact value groups h).mpr hplain, (hexact value' groups' h').mpr hplain', hvalue]

/-- Fifteen tenths, spelled with an exponent, as an amount in yuan. -/
theorem metric_display_exact_money :
    displayValue (.text "15e-1".toList) (some ⟨true, "metric", some "元".toList, .money⟩) =
      exactText ⟨true, "metric", some "元".toList, .money⟩ (3 / 2) := by
  have hvalue : DecimalMatch.value ⟨false, ['1', '5'], [], ['-', '1']⟩ = 3 / 2 := by
    change (1 : ℚ) * ((15 : Nat) * (10 : ℚ) ^ (-1 : Int)) = 3 / 2
    norm_num
  rw [← hvalue]
  exact ((metric_display_exact ⟨true, "metric", some "元".toList, .money⟩).1 _ _
    ⟨by decide, by decide, by decide, rfl, rfl, .inl rfl⟩).mpr fun h => by cases h.1

/-- A count of zero with two decimal places is shown as it is spelled. -/
theorem count_zero_differs :
    Shown (.text "0.00".toList) ⟨true, "metric", none, .count⟩ ⟨false, ['0'], ['0', '0'], []⟩ ∧
      Shown (.text "0".toList) ⟨true, "metric", none, .count⟩ ⟨false, ['0'], [], []⟩ ∧
      DecimalMatch.value ⟨false, ['0'], ['0', '0'], []⟩ =
        DecimalMatch.value ⟨false, ['0'], [], []⟩ ∧
      displayValue (.text "0.00".toList) (some ⟨true, "metric", none, .count⟩) = "0.00".toList ∧
      displayValue (.text "0".toList) (some ⟨true, "metric", none, .count⟩) = "0".toList := by
  have hzero : DecimalMatch.value ⟨false, ['0'], ['0', '0'], []⟩ = 0 :=
    DecimalMatch.value_eq_zero.mpr rfl
  have hplain : DecimalMatch.value ⟨false, ['0'], [], []⟩ = 0 :=
    DecimalMatch.value_eq_zero.mpr rfl
  refine ⟨⟨by decide, by decide, by decide, rfl, rfl, .inr (.inr ⟨rfl, 0, ?_⟩)⟩,
    ⟨by decide, by decide, by decide, rfl, rfl, .inr (.inr ⟨rfl, 0, ?_⟩)⟩, ?_, by decide, by decide⟩
  · rw [hzero, Int.cast_zero]
  · rw [hplain, Int.cast_zero]
  · rw [hzero, hplain]

end ChatBI.Frontend.NumberFormat
