import ChatBI.Lib.Decimal
import Mathlib.Algebra.Order.Floor.Ring
import Mathlib.Data.Int.Log
import Mathlib.Data.Nat.Find
import Mathlib.Data.Rat.Floor
import Mathlib.Tactic.NormNum

/-!
# Decimal arithmetic of a limited precision

Decimal numbers as they are written, rounding to a number of digits with ties to the even one,
and the form of a number without trailing zeros.
-/

namespace ChatBI.Lib

section HalfEven

/-- The nearest integer, the even one of two. -/
def roundHalfEven (x : ℚ) : Int :=
  if Int.fract x < 1 / 2 ∨ Int.fract x = 1 / 2 ∧ ⌊x⌋ % 2 = 0 then ⌊x⌋ else ⌊x⌋ + 1

/-- A quotient of natural numbers, rounded in the same way. -/
def roundQuotientEven (n d : Nat) : Nat :=
  if 2 * (n % d) < d ∨ 2 * (n % d) = d ∧ n / d % 2 = 0 then n / d else n / d + 1

lemma roundHalfEven_div {n d : Nat} (hd : 0 < d) :
    roundHalfEven ((n : ℚ) / d) = roundQuotientEven n d := by
  have hpos : (0 : ℚ) < d := Nat.cast_pos.mpr hd
  have hfloor : ⌊(n : ℚ) / d⌋ = ((n / d : Nat) : Int) := Rat.floor_natCast_div_natCast n d
  have hlt : ((n % d : Nat) : ℚ) / d < 1 / 2 ↔ 2 * (n % d) < d := by
    rw [div_lt_div_iff₀ hpos two_pos, one_mul, mul_comm]
    exact_mod_cast Iff.rfl
  have heq : ((n % d : Nat) : ℚ) / d = 1 / 2 ↔ 2 * (n % d) = d := by
    rw [div_eq_div_iff hpos.ne' two_ne_zero, one_mul, mul_comm]
    exact_mod_cast Iff.rfl
  have heven : ((n / d : Nat) : Int) % 2 = 0 ↔ n / d % 2 = 0 := by omega
  unfold roundHalfEven roundQuotientEven
  rw [Int.fract_div_natCast_eq_div_natCast_mod, hfloor]
  simp only [hlt, heq, heven]
  split
  · rfl
  · exact (Nat.cast_succ (n / d)).symm

lemma roundHalfEven_intCast (n : Int) : roundHalfEven (n : ℚ) = n := by
  unfold roundHalfEven
  rw [Int.fract_intCast, Int.floor_intCast, if_pos (.inl (by norm_num))]

lemma floor_le_roundHalfEven (x : ℚ) : ⌊x⌋ ≤ roundHalfEven x := by
  unfold roundHalfEven
  split <;> omega

lemma roundHalfEven_le_floor_add_one (x : ℚ) : roundHalfEven x ≤ ⌊x⌋ + 1 := by
  unfold roundHalfEven
  split <;> omega

end HalfEven

/-- The digits of a context and the exponents of its first digits. -/
structure DecimalContext where
  prec : Nat
  emin : Int
  emax : Int
  hprec : 1 ≤ prec
  hexp : emin ≤ emax

namespace DecimalContext

variable (ctx : DecimalContext)

/-- The exponent of the last digit of the smallest numbers. -/
def etiny : Int := ctx.emin - (ctx.prec - 1)

/-- The power of ten of the last digit that a number keeps. -/
def quantum (x : ℚ) : Int := max (Int.log 10 x - (ctx.prec - 1)) ctx.etiny

/-- A magnitude with the digits that it keeps. -/
def rounded (x : ℚ) : ℚ := roundHalfEven (x / 10 ^ ctx.quantum x) * 10 ^ ctx.quantum x

variable {ctx} {x : ℚ}

lemma etiny_le_emax : ctx.etiny ≤ ctx.emax := by
  have hprec := ctx.hprec
  have hexp := ctx.hexp
  unfold etiny
  omega

lemma rounded_zero : ctx.rounded 0 = 0 := by
  unfold rounded
  have h : roundHalfEven 0 = 0 := roundHalfEven_intCast 0
  rw [zero_div, h, Int.cast_zero, zero_mul]

/-- A number that has no more digits is kept. -/
lemma rounded_of_mul {n : Int} {e : Int} (hx : x = n * 10 ^ e) (he : ctx.quantum x ≤ e) :
    ctx.rounded x = x := by
  have hten : (10 : ℚ) ^ ctx.quantum x ≠ 0 := zpow_ne_zero _ (by norm_num)
  obtain ⟨k, hk⟩ := Int.le.dest he
  have hquotient : x / 10 ^ ctx.quantum x = ((n * 10 ^ k : Int) : ℚ) := by
    rw [div_eq_iff hten]
    push_cast
    rw [mul_assoc, ← zpow_natCast, ← zpow_add₀ (by norm_num : (10 : ℚ) ≠ 0), add_comm, hk]
    exact hx
  unfold rounded
  rw [hquotient, roundHalfEven_intCast, ← hquotient, div_mul_cancel₀ x hten]

/-- A power of ten below a number stays below it. -/
lemma le_rounded {k : Int} (hk : ctx.quantum x ≤ k) (hx : 10 ^ k ≤ x) : 10 ^ k ≤ ctx.rounded x := by
  have hten : (0 : ℚ) < 10 ^ ctx.quantum x := zpow_pos (by norm_num) _
  obtain ⟨j, hj⟩ := Int.le.dest hk
  have hpower : (10 : ℚ) ^ k = ((10 ^ j : Int) : ℚ) * 10 ^ ctx.quantum x := by
    push_cast
    rw [← zpow_natCast, ← zpow_add₀ (by norm_num : (10 : ℚ) ≠ 0), add_comm, hj]
  have hfloor : (10 ^ j : Int) ≤ roundHalfEven (x / 10 ^ ctx.quantum x) := by
    refine le_trans (Int.le_floor.mpr ?_) (floor_le_roundHalfEven _)
    rw [le_div_iff₀ hten, ← hpower]
    exact hx
  unfold rounded
  rw [hpower]
  exact mul_le_mul_of_nonneg_right (Int.cast_le.mpr hfloor) hten.le

lemma rounded_le_add (x : ℚ) : ctx.rounded x ≤ x + 10 ^ ctx.quantum x := by
  have hten : (0 : ℚ) < 10 ^ ctx.quantum x := zpow_pos (by norm_num) _
  have hle : (roundHalfEven (x / 10 ^ ctx.quantum x) : ℚ) ≤ x / 10 ^ ctx.quantum x + 1 := by
    have hcast : ((roundHalfEven (x / 10 ^ ctx.quantum x) : Int) : ℚ) ≤
        ((⌊x / 10 ^ ctx.quantum x⌋ + 1 : Int) : ℚ) :=
      Int.cast_le.mpr (roundHalfEven_le_floor_add_one _)
    push_cast at hcast
    exact hcast.trans (by gcongr; exact Int.floor_le _)
  unfold rounded
  calc (roundHalfEven (x / 10 ^ ctx.quantum x) : ℚ) * 10 ^ ctx.quantum x
      ≤ (x / 10 ^ ctx.quantum x + 1) * 10 ^ ctx.quantum x :=
        mul_le_mul_of_nonneg_right hle hten.le
    _ = x + 10 ^ ctx.quantum x := by rw [add_mul, one_mul, div_mul_cancel₀ x hten.ne']

end DecimalContext

/-- A finite decimal number with the zeros that it is written with. -/
structure DecimalNumber where
  negative : Bool
  coefficient : Nat
  exponent : Int
  deriving DecidableEq

namespace DecimalNumber

/-- The number without its sign. -/
def magnitude (d : DecimalNumber) : ℚ := d.coefficient * 10 ^ d.exponent

def value (d : DecimalNumber) : ℚ := sign d.negative * d.magnitude

/-- The power of ten of the first digit. -/
def adjusted (d : DecimalNumber) : Int := d.exponent + Nat.log 10 d.coefficient

/-- The zeros at the end of a number. -/
def trailingZeros (n : Nat) : Nat := Nat.findGreatest (fun k => n % 10 ^ k = 0) (Nat.log 10 n)

/-- The same number without zeros at its end. -/
def reduce (d : DecimalNumber) : DecimalNumber :=
  if d.coefficient = 0 then ⟨d.negative, 0, 0⟩
  else
    let zeros := trailingZeros d.coefficient
    ⟨d.negative, d.coefficient / 10 ^ zeros, d.exponent + zeros⟩

/-- The exponent behind the digits that a context keeps. -/
def keptExponent (ctx : DecimalContext) (d : DecimalNumber) : Int :=
  max d.exponent (max (d.adjusted - (ctx.prec - 1)) ctx.etiny)

/-- A number with the digits of a context, none on an overflow. -/
def finalize (ctx : DecimalContext) (d : DecimalNumber) : Option DecimalNumber :=
  if d.coefficient = 0 then some d
  else if ctx.emax < d.adjusted then none
  else
    let exponent := d.keptExponent ctx
    let coefficient := roundQuotientEven d.coefficient (10 ^ (exponent - d.exponent).toNat)
    let kept : DecimalNumber := ⟨d.negative, coefficient, exponent⟩
    -- the digits may have become one more
    if ctx.emax < kept.adjusted then none else some kept

/-- `Decimal.normalize`: none on an overflow. -/
def normalize (ctx : DecimalContext) (d : DecimalNumber) : Option DecimalNumber :=
  (d.finalize ctx).map reduce

/-- The digits with a point, `format(d, "f")`. -/
def plainDigits (d : DecimalNumber) : List Char :=
  let digits := Nat.toDigits 10 d.coefficient
  let places := (-d.exponent).toNat
  if 0 ≤ d.exponent then digits ++ List.replicate d.exponent.toNat '0'
  else if places < digits.length then
    digits.take (digits.length - places) ++ '.' :: digits.drop (digits.length - places)
  else '0' :: '.' :: (List.replicate (places - digits.length) '0' ++ digits)

/-- `format(d, "f")`. -/
def plainText (d : DecimalNumber) : List Char :=
  (if d.negative then ['-'] else []) ++ d.plainDigits

/-- A number that has no zeros at its end. -/
def Reduced (d : DecimalNumber) : Prop :=
  d.coefficient % 10 ≠ 0 ∨ d.coefficient = 0 ∧ d.exponent = 0

variable {d e : DecimalNumber} {ctx : DecimalContext}

section Reducing

lemma trailingZeros_spec {n : Nat} (hn : n ≠ 0) :
    10 ^ trailingZeros n ∣ n ∧ n / 10 ^ trailingZeros n % 10 ≠ 0 := by
  have hdvd : n % 10 ^ trailingZeros n = 0 := by
    have hspec := Nat.findGreatest_spec (P := fun k => n % 10 ^ k = 0) (Nat.zero_le (Nat.log 10 n))
      (by rw [pow_zero, Nat.mod_one])
    exact hspec
  refine ⟨Nat.dvd_of_mod_eq_zero hdvd, fun hzero => ?_⟩
  have hmore : n % 10 ^ (trailingZeros n + 1) = 0 := by
    rw [pow_succ, Nat.mod_mul, hdvd, hzero, mul_zero, add_zero]
  have hle : trailingZeros n + 1 ≤ Nat.log 10 n :=
    Nat.le_log_of_pow_le (by decide)
      (Nat.le_of_dvd (Nat.pos_of_ne_zero hn) (Nat.dvd_of_mod_eq_zero hmore))
  have hgreatest : trailingZeros n + 1 ≤ trailingZeros n :=
    Nat.le_findGreatest (P := fun k => n % 10 ^ k = 0) hle hmore
  omega

lemma reduced_reduce (d : DecimalNumber) : d.reduce.Reduced := by
  unfold reduce
  split
  · exact .inr ⟨rfl, rfl⟩
  · next h => exact .inl (trailingZeros_spec h).2

lemma reduce_negative (d : DecimalNumber) : d.reduce.negative = d.negative := by
  unfold reduce
  split <;> rfl

lemma reduce_magnitude (d : DecimalNumber) : d.reduce.magnitude = d.magnitude := by
  unfold reduce
  split
  · next h =>
    unfold magnitude
    rw [h, Nat.cast_zero, zero_mul, zero_mul]
  · next h =>
    obtain ⟨⟨m, hm⟩, -⟩ := trailingZeros_spec h
    unfold magnitude
    dsimp only
    generalize trailingZeros d.coefficient = zeros at hm ⊢
    rw [hm, Nat.mul_div_cancel_left m (by positivity), zpow_add₀ (by norm_num : (10 : ℚ) ≠ 0),
      zpow_natCast]
    push_cast
    ring

/-- A coefficient that does not end in zero has the largest exponent. -/
lemma exponent_le_of_magnitude (hd : d.coefficient % 10 ≠ 0) (h : d.magnitude = e.magnitude) :
    e.exponent ≤ d.exponent := by
  by_contra hlt
  obtain ⟨k, hk⟩ := Int.le.dest (Int.lt_iff_add_one_le.mp (not_le.mp hlt))
  have hten : (10 : ℚ) ^ d.exponent ≠ 0 := zpow_ne_zero _ (by norm_num)
  have hpower : (10 : ℚ) ^ e.exponent = 10 ^ (k + 1) * 10 ^ d.exponent := by
    rw [← zpow_natCast, ← zpow_add₀ (by norm_num : (10 : ℚ) ≠ 0)]
    congr 1
    omega
  have hcoefficient : d.coefficient = e.coefficient * 10 ^ (k + 1) := by
    unfold magnitude at h
    rw [hpower, ← mul_assoc] at h
    exact_mod_cast mul_right_cancel₀ hten h
  apply hd
  rw [hcoefficient, pow_succ, ← mul_assoc, Nat.mul_mod_left]

/-- A magnitude has one number without zeros at its end. -/
lemma eq_of_reduced (hd : d.Reduced) (he : e.Reduced) (hnegative : d.negative = e.negative)
    (h : d.magnitude = e.magnitude) : d = e := by
  have hten : ∀ n : Int, (10 : ℚ) ^ n ≠ 0 := fun n => zpow_ne_zero n (by norm_num)
  have hzero : d.coefficient = 0 ↔ e.coefficient = 0 := by
    have hmagnitude : ∀ d : DecimalNumber, d.magnitude = 0 ↔ d.coefficient = 0 := by
      intro d
      unfold magnitude
      rw [mul_eq_zero_iff_right (hten _), Nat.cast_eq_zero]
    rw [← hmagnitude d, ← hmagnitude e, h]
  have hexponent : d.exponent = e.exponent := by
    rcases hd with hd | ⟨hd, hd'⟩
    · rcases he with he | ⟨he, -⟩
      · exact le_antisymm (exponent_le_of_magnitude he h.symm) (exponent_le_of_magnitude hd h)
      · exact absurd (hzero.mpr he) (by omega)
    · rcases he with he | ⟨-, he'⟩
      · exact absurd (hzero.mp hd) (by omega)
      · exact hd'.trans he'.symm
  have hcoefficient : d.coefficient = e.coefficient := by
    unfold magnitude at h
    rw [hexponent] at h
    exact_mod_cast mul_right_cancel₀ (hten _) h
  cases d
  cases e
  cases hnegative
  cases hcoefficient
  cases hexponent
  rfl

end Reducing

section Rounding

lemma magnitude_pos (h : d.coefficient ≠ 0) : 0 < d.magnitude :=
  mul_pos (Nat.cast_pos.mpr (Nat.pos_of_ne_zero h)) (zpow_pos (by norm_num) _)

lemma magnitude_of_zero (h : d.coefficient = 0) : d.magnitude = 0 := by
  unfold magnitude
  rw [h, Nat.cast_zero, zero_mul]

/-- The power of ten of the first digit, by the magnitude. -/
lemma log_magnitude (h : d.coefficient ≠ 0) : Int.log 10 d.magnitude = d.adjusted := by
  have hpos := magnitude_pos h
  have hten : (0 : ℚ) < 10 ^ d.exponent := zpow_pos (by norm_num) _
  have hbase : ((10 : Nat) : ℚ) = 10 := rfl
  have hle : (10 : ℚ) ^ d.adjusted ≤ d.magnitude := by
    unfold adjusted magnitude
    rw [zpow_add₀ (by norm_num : (10 : ℚ) ≠ 0), zpow_natCast, mul_comm]
    exact mul_le_mul_of_nonneg_right (by exact_mod_cast Nat.pow_log_le_self 10 h) hten.le
  have hlt : d.magnitude < (10 : ℚ) ^ (d.adjusted + 1) := by
    unfold adjusted magnitude
    rw [add_assoc, zpow_add₀ (by norm_num : (10 : ℚ) ≠ 0), mul_comm]
    have hlog : d.coefficient < 10 ^ (Nat.log 10 d.coefficient + 1) :=
      Nat.lt_pow_succ_log_self (by decide) _
    have hcast : (d.coefficient : ℚ) < 10 ^ ((Nat.log 10 d.coefficient : Int) + 1) := by
      rw [← Nat.cast_succ, zpow_natCast]
      exact_mod_cast hlog
    exact mul_lt_mul_of_pos_left hcast hten
  apply le_antisymm
  · rw [← Int.lt_add_one_iff, ← Int.lt_zpow_iff_log_lt (by decide) hpos, hbase]
    exact hlt
  · rw [← Int.zpow_le_iff_le_log (by decide) hpos, hbase]
    exact hle

/-- The magnitude of a number that is finalized: the coefficient is rounded at the exponent behind
the last digit. -/
lemma rounded_magnitude (h : d.coefficient ≠ 0) :
    (roundQuotientEven d.coefficient (10 ^ (d.keptExponent ctx - d.exponent).toNat) : ℚ) *
      10 ^ d.keptExponent ctx = ctx.rounded d.magnitude := by
  have hquantum : ctx.quantum d.magnitude = max (d.adjusted - (ctx.prec - 1)) ctx.etiny := by
    unfold DecimalContext.quantum
    rw [log_magnitude h]
  unfold keptExponent
  rw [← hquantum]
  rcases le_total (ctx.quantum d.magnitude) d.exponent with hle | hle
  · rw [max_eq_left hle, sub_self, DecimalContext.rounded_of_mul (n := d.coefficient)
      (by rw [Int.cast_natCast]; rfl) hle]
    have hone : roundQuotientEven d.coefficient (10 ^ (0 : Int).toNat) = d.coefficient := by
      unfold roundQuotientEven
      rw [Int.toNat_zero, pow_zero, Nat.mod_one, Nat.div_one, if_pos (.inl (by decide))]
    rw [hone]
    rfl
  · rw [max_eq_right hle]
    obtain ⟨k, hk⟩ := Int.le.dest hle
    have hpower : (0 : Nat) < 10 ^ k := by positivity
    have hten : (10 : ℚ) ^ ctx.quantum d.magnitude ≠ 0 := zpow_ne_zero _ (by norm_num)
    have hdiff : (ctx.quantum d.magnitude - d.exponent).toNat = k := by omega
    have hquotient : d.magnitude / 10 ^ ctx.quantum d.magnitude =
        (d.coefficient : ℚ) / ((10 ^ k : Nat) : ℚ) := by
      rw [div_eq_div_iff hten (Nat.cast_ne_zero.mpr hpower.ne')]
      nth_rewrite 1 [magnitude]
      rw [← hk, zpow_add₀ (by norm_num : (10 : ℚ) ≠ 0), zpow_natCast]
      push_cast
      ring
    unfold DecimalContext.rounded
    rw [hdiff, hquotient, roundHalfEven_div hpower, Int.cast_natCast]

/-- A magnitude is too large when its first digit is behind the largest exponent. -/
lemma overflow_iff {n : Int} (h : d.coefficient ≠ 0) :
    n < d.adjusted ↔ 10 ^ (n + 1) ≤ d.magnitude := by
  have hbase : ((10 : Nat) : ℚ) = 10 := rfl
  rw [← hbase, Int.zpow_le_iff_le_log (by decide) (magnitude_pos h), log_magnitude h]
  exact Int.lt_iff_add_one_le

lemma keptExponent_le_emax (h : d.adjusted ≤ ctx.emax) : d.keptExponent ctx ≤ ctx.emax := by
  have htiny : ctx.etiny ≤ ctx.emax := DecimalContext.etiny_le_emax
  have hprec := ctx.hprec
  have hexponent : d.exponent ≤ d.adjusted := Int.le_add_of_nonneg_right (Int.natCast_nonneg _)
  unfold keptExponent
  omega

/-- A number is kept with its rounded magnitude, exactly when that is not too large. -/
lemma finalize_spec (ctx : DecimalContext) (d : DecimalNumber) :
    (∃ r, d.finalize ctx = some r ∧ r.negative = d.negative ∧
      r.magnitude = ctx.rounded d.magnitude ∧ ctx.rounded d.magnitude < 10 ^ (ctx.emax + 1)) ∨
    d.finalize ctx = none ∧ 10 ^ (ctx.emax + 1) ≤ ctx.rounded d.magnitude := by
  unfold finalize
  split
  · next h =>
    left
    rw [magnitude_of_zero h, DecimalContext.rounded_zero]
    exact ⟨d, rfl, rfl, magnitude_of_zero h, zpow_pos (by norm_num) _⟩
  · next h =>
    split
    · next hover =>
      right
      refine ⟨rfl, ?_⟩
      have htiny : ctx.etiny ≤ ctx.emax := DecimalContext.etiny_le_emax
      have hprec := ctx.hprec
      have hquantum : ctx.quantum d.magnitude ≤ d.adjusted := by
        unfold DecimalContext.quantum
        rw [log_magnitude h]
        omega
      have hfirst : (10 : ℚ) ^ d.adjusted ≤ d.magnitude := by
        have hself := (overflow_iff (n := d.adjusted - 1) h).mp (by omega)
        rwa [sub_add_cancel] at hself
      calc (10 : ℚ) ^ (ctx.emax + 1) ≤ 10 ^ d.adjusted :=
            zpow_le_zpow_right₀ (by norm_num) hover
        _ ≤ ctx.rounded d.magnitude := DecimalContext.le_rounded hquantum hfirst
    · next hover =>
      have hexponent := keptExponent_le_emax (not_lt.mp hover)
      have hmagnitude : (roundQuotientEven d.coefficient
          (10 ^ (d.keptExponent ctx - d.exponent).toNat) : ℚ) * 10 ^ d.keptExponent ctx =
            ctx.rounded d.magnitude := rounded_magnitude h
      dsimp only
      generalize hc : roundQuotientEven d.coefficient
        (10 ^ (d.keptExponent ctx - d.exponent).toNat) = c at hmagnitude ⊢
      have hkept : (⟨d.negative, c, d.keptExponent ctx⟩ : DecimalNumber).magnitude =
          ctx.rounded d.magnitude := hmagnitude
      by_cases hzero : c = 0
      · left
        have hadjusted : ¬ctx.emax < (⟨d.negative, c, d.keptExponent ctx⟩ : DecimalNumber).adjusted := by
          unfold adjusted
          dsimp only
          rw [hzero, Nat.log_zero_right]
          omega
        rw [if_neg hadjusted]
        refine ⟨_, rfl, rfl, hkept, ?_⟩
        rw [← hkept, magnitude_of_zero hzero]
        exact zpow_pos (by norm_num) _
      · split
        · next hcarry =>
          right
          rw [← hkept]
          exact ⟨rfl, (overflow_iff hzero).mp hcarry⟩
        · next hcarry =>
          left
          refine ⟨_, rfl, rfl, hkept, ?_⟩
          rw [← hkept]
          exact lt_of_not_ge fun hle => hcarry ((overflow_iff hzero).mpr hle)

/-- The normal form of a number has its sign, its rounded magnitude and no zeros at its end. -/
theorem normalize_spec (ctx : DecimalContext) (d : DecimalNumber) :
    (∃ r, d.normalize ctx = some r ∧ r.negative = d.negative ∧ r.Reduced ∧
      r.magnitude = ctx.rounded d.magnitude ∧ ctx.rounded d.magnitude < 10 ^ (ctx.emax + 1)) ∨
    d.normalize ctx = none ∧ 10 ^ (ctx.emax + 1) ≤ ctx.rounded d.magnitude := by
  unfold normalize
  rcases finalize_spec ctx d with ⟨r, hr, hnegative, hmagnitude, hlt⟩ | ⟨hnone, hle⟩
  · left
    refine ⟨r.reduce, ?_, (reduce_negative r).trans hnegative, reduced_reduce r,
      (reduce_magnitude r).trans hmagnitude, hlt⟩
    rw [hr, Option.map_some]
  · right
    rw [hnone, Option.map_none]
    exact ⟨rfl, hle⟩

end Rounding

section Texts

lemma readUnsigned_plainDigits (d : DecimalNumber) : readUnsigned d.plainDigits = d.magnitude := by
  have hdigits : AllDigits (Nat.toDigits 10 d.coefficient) := allDigits_toDigits _
  unfold plainDigits magnitude
  dsimp only
  split
  · next h =>
    obtain ⟨k, hk⟩ := Int.eq_ofNat_of_zero_le h
    rw [readUnsigned_digits (hdigits.append (allDigits_zeros _)), digitsValue_append_zeros,
      digitsValue_toDigits, hk, Int.toNat_natCast, zpow_natCast]
    push_cast
    rfl
  · next h =>
    have hplaces : -((-d.exponent).toNat : Int) = d.exponent := by omega
    split
    · next hlt =>
      rw [readUnsigned_point (hdigits.take _) (hdigits.drop _), List.take_append_drop,
        digitsValue_toDigits, List.length_drop, Nat.sub_sub_self hlt.le, hplaces]
    · next hle =>
      have hzero : AllDigits ['0'] := allDigits_zeros 1
      have hfraction := (allDigits_zeros
        ((-d.exponent).toNat - (Nat.toDigits 10 d.coefficient).length)).append hdigits
      change readUnsigned (['0'] ++ '.' :: _) = _
      rw [readUnsigned_point hzero hfraction, ← List.append_assoc]
      change (digitsValue (List.replicate (_ + 1) '0' ++ _) : ℚ) * _ = _
      rw [digitsValue_zeros_append, digitsValue_toDigits, List.length_append,
        List.length_replicate, Nat.sub_add_cancel (not_lt.mp hle), hplaces]

lemma head_plainDigits (d : DecimalNumber) : d.plainDigits.head? ≠ some '-' := by
  have hdigits : AllDigits (Nat.toDigits 10 d.coefficient) := allDigits_toDigits _
  obtain ⟨c, cs, hcs⟩ := List.exists_cons_of_ne_nil (Nat.toDigits_ne_nil (n := d.coefficient) (b := 10))
  have hc : c.isDigit = true := hdigits c (by rw [hcs]; exact List.mem_cons_self)
  unfold plainDigits
  dsimp only
  split
  · rw [hcs]
    exact head_ne_of_digit hc _
  · split
    · next hlt =>
      obtain ⟨k, hk⟩ := Nat.exists_eq_add_of_lt hlt
      have hfirst : (Nat.toDigits 10 d.coefficient).length - (-d.exponent).toNat = k + 1 := by omega
      rw [hfirst, hcs]
      exact head_ne_of_digit hc _
    · exact head_ne_of_digit (c := '0') rfl _

/-- The text of a number tells its sign and its magnitude. -/
lemma plainText_inj : d.plainText = e.plainText →
    d.negative = e.negative ∧ d.magnitude = e.magnitude := by
  intro h
  rw [← readUnsigned_plainDigits d, ← readUnsigned_plainDigits e]
  unfold plainText at h
  cases hd : d.negative with
  | true =>
    cases he : e.negative with
    | true =>
      rw [hd, he, if_pos rfl] at h
      exact ⟨rfl, by rw [List.append_cancel_left h]⟩
    | false =>
      rw [hd, he, if_pos rfl, if_neg Bool.false_ne_true, List.nil_append] at h
      exact absurd (by rw [← h]; rfl) (head_plainDigits e)
  | false =>
    cases he : e.negative with
    | true =>
      rw [hd, he, if_pos rfl, if_neg Bool.false_ne_true, List.nil_append] at h
      exact absurd (by rw [h]; rfl) (head_plainDigits d)
    | false =>
      rw [hd, he, if_neg Bool.false_ne_true] at h
      exact ⟨rfl, by rw [List.append_cancel_left h]⟩

/-- Numbers without zeros at their ends have one text exactly when they are equal in sign and
magnitude. -/
theorem plainText_eq_iff (hd : d.Reduced) (he : e.Reduced) : d.plainText = e.plainText ↔
    d.negative = e.negative ∧ d.magnitude = e.magnitude := by
  constructor
  · exact plainText_inj
  · rintro ⟨hnegative, hmagnitude⟩
    rw [eq_of_reduced hd he hnegative hmagnitude]

end Texts

end DecimalNumber

end ChatBI.Lib
