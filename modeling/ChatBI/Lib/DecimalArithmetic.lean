import ChatBI.Lib.Rounding

/-!
# Operations of a decimal context

The exact result of an operation with its exponent, and the digits of it that a context keeps. A
result is not representable on an overflow, and a division by zero has none.
-/

namespace ChatBI.Lib

/-- What an operation raises. -/
inductive DecimalSignal where
  | overflow
  | divisionByZero
  | invalidOperation
  deriving DecidableEq

namespace DecimalNumber

variable (ctx : DecimalContext)

/-- The coefficient with its sign, over a smaller exponent. -/
def scaled (d : DecimalNumber) (exponent : Int) : Int :=
  let n : Int := d.coefficient * 10 ^ (d.exponent - exponent).toNat
  if d.negative then -n else n

/-- The exact sum. A sum of zero is positive unless both zeros are negative. -/
def exactAdd (x y : DecimalNumber) : DecimalNumber :=
  let exponent := min x.exponent y.exponent
  let sum := x.scaled exponent + y.scaled exponent
  if x.coefficient = 0 ∧ y.coefficient = 0 then ⟨x.negative && y.negative, 0, exponent⟩
  else ⟨sum < 0, sum.natAbs, exponent⟩

/-- `copy_negate`. -/
def copyNegate (d : DecimalNumber) : DecimalNumber := ⟨!d.negative, d.coefficient, d.exponent⟩

/-- The number with the other sign, a zero without one. -/
def exactNeg (d : DecimalNumber) : DecimalNumber :=
  ⟨d.coefficient ≠ 0 && !d.negative, d.coefficient, d.exponent⟩

def exactAbs (d : DecimalNumber) : DecimalNumber := ⟨false, d.coefficient, d.exponent⟩

def exactMul (x y : DecimalNumber) : DecimalNumber :=
  ⟨x.negative != y.negative, x.coefficient * y.coefficient, x.exponent + y.exponent⟩

/-- The number of digits of a coefficient. -/
def digitCount (n : Nat) : Nat := Nat.log 10 n + 1

/-- A quotient with two digits more than the context keeps, the last one telling whether something
is left over. An exact quotient gets as close to the difference of the exponents as it can. -/
def quotient (x y : DecimalNumber) : Except DecimalSignal DecimalNumber :=
  let negative := x.negative != y.negative
  let ideal := x.exponent - y.exponent
  if y.coefficient = 0 then
    .error (if x.coefficient = 0 then .invalidOperation else .divisionByZero)
  else if x.coefficient = 0 then .ok ⟨negative, 0, ideal⟩
  else
    let shift : Int := (digitCount y.coefficient : Int) - digitCount x.coefficient + ctx.prec + 1
    let dividend := x.coefficient * 10 ^ shift.toNat
    let divisor := y.coefficient * 10 ^ (-shift).toNat
    let q := dividend / divisor
    if dividend % divisor ≠ 0 then .ok ⟨negative, if q % 5 = 0 then q + 1 else q, ideal - shift⟩
    else
      let zeros := min (trailingZeros q) shift.toNat
      .ok ⟨negative, q / 10 ^ zeros, ideal - shift + zeros⟩

/-- A rounded coefficient with a digit too many ends in a zero, which is dropped. -/
def carried (d : DecimalNumber) : DecimalNumber :=
  if d.coefficient = 10 ^ ctx.prec then ⟨d.negative, 10 ^ (ctx.prec - 1), d.exponent + 1⟩ else d

/-- A number in the digits and exponents of a context. -/
def fix (d : DecimalNumber) : Except DecimalSignal DecimalNumber :=
  if d.coefficient = 0 then .ok ⟨d.negative, 0, min (max d.exponent ctx.etiny) ctx.emax⟩
  else
    match d.finalize ctx with
    | some r => .ok (r.carried ctx)
    | none => .error .overflow

/-- The exponents of the numbers of a context. -/
structure Within (d : DecimalNumber) : Prop where
  exponent : ctx.etiny ≤ d.exponent
  adjusted : d.adjusted ≤ ctx.emax

variable {ctx} {d r : DecimalNumber}

lemma adjusted_zero {negative : Bool} {exponent : Int} :
    (⟨negative, 0, exponent⟩ : DecimalNumber).adjusted = exponent := by
  unfold adjusted
  rw [Nat.log_zero_right, Nat.cast_zero, add_zero]

lemma within_finalize (hd : d.coefficient ≠ 0) (h : d.finalize ctx = some r) : r.Within ctx := by
  unfold finalize at h
  rw [if_neg hd] at h
  split at h
  · cases h
  · dsimp only at h
    split at h
    · cases h
    · next hadjusted =>
      cases h
      constructor
      · unfold keptExponent
        exact (le_max_right _ _).trans (le_max_right _ _)
      · exact not_lt.mp hadjusted

lemma within_carried (h : d.Within ctx) : (d.carried ctx).Within ctx := by
  unfold carried
  split
  · next hcoefficient =>
    obtain ⟨hexponent, hadjusted⟩ := h
    have hprec := ctx.hprec
    constructor
    · exact hexponent.trans (Int.le_add_of_nonneg_right (by decide))
    · unfold adjusted at hadjusted ⊢
      rw [hcoefficient, Nat.log_pow (by decide)] at hadjusted
      dsimp only
      rw [Nat.log_pow (by decide)]
      omega
  · exact h

/-- What an operation returns is a number of the context. -/
lemma within_fix (h : d.fix ctx = .ok r) : r.Within ctx := by
  unfold fix at h
  split at h
  · cases h
    have htiny : ctx.etiny ≤ ctx.emax := DecimalContext.etiny_le_emax
    constructor
    · exact le_min (le_max_right _ _) htiny
    · rw [adjusted_zero]
      exact min_le_right _ _
  · next hd =>
    cases hfinal : d.finalize ctx with
    | none =>
      rw [hfinal] at h
      cases h
    | some kept =>
      rw [hfinal] at h
      cases h
      exact within_carried (within_finalize hd hfinal)

lemma carried_magnitude (d : DecimalNumber) : (d.carried ctx).magnitude = d.magnitude := by
  unfold carried
  split
  · next hcoefficient =>
    obtain ⟨prec, hprec⟩ : ∃ prec, ctx.prec = prec + 1 := Nat.exists_eq_add_of_le' ctx.hprec
    unfold magnitude
    rw [hcoefficient, hprec, Nat.add_sub_cancel, zpow_add_one₀ (by norm_num : (10 : ℚ) ≠ 0),
      pow_succ]
    push_cast
    ring
  · rfl

lemma carried_negative (d : DecimalNumber) : (d.carried ctx).negative = d.negative := by
  unfold carried
  split <;> rfl

/-- An operation returns a number with the rounded magnitude, exactly when that is not too large. -/
lemma fix_spec (ctx : DecimalContext) (d : DecimalNumber) :
    (∃ r, d.fix ctx = .ok r ∧ r.negative = d.negative ∧
      r.magnitude = ctx.rounded d.magnitude ∧ ctx.rounded d.magnitude < 10 ^ (ctx.emax + 1)) ∨
    d.fix ctx = .error .overflow ∧ 10 ^ (ctx.emax + 1) ≤ ctx.rounded d.magnitude := by
  unfold fix
  split
  · next h =>
    left
    refine ⟨_, rfl, rfl, ?_⟩
    rw [magnitude_of_zero h, magnitude_of_zero rfl, DecimalContext.rounded_zero]
    exact ⟨rfl, zpow_pos (by norm_num) _⟩
  · rcases finalize_spec ctx d with ⟨r, hr, hnegative, hmagnitude, hlt⟩ | ⟨hnone, hle⟩
    · rw [hr]
      exact .inl ⟨r.carried ctx, rfl, (carried_negative r).trans hnegative,
        (carried_magnitude r).trans hmagnitude, hlt⟩
    · rw [hnone]
      exact .inr ⟨rfl, hle⟩

lemma exists_fix_iff : (∃ r, d.fix ctx = .ok r) ↔
    ctx.rounded d.magnitude < 10 ^ (ctx.emax + 1) := by
  rcases fix_spec ctx d with ⟨r, hr, -, -, hlt⟩ | ⟨herror, hle⟩
  · exact iff_of_true ⟨r, hr⟩ hlt
  · apply iff_of_false
    · rintro ⟨r, hr⟩
      rw [herror] at hr
      cases hr
    · exact not_lt.mpr hle

/-- Below the last power of ten there is room for the rounding. -/
lemma exists_fix_of_lt (h : d.magnitude < 10 ^ ctx.emax) : ∃ r, d.fix ctx = .ok r := by
  by_cases hd : d.coefficient = 0
  · unfold fix
    rw [if_pos hd]
    exact ⟨_, rfl⟩
  rw [exists_fix_iff]
  have hquantum : ctx.quantum d.magnitude ≤ ctx.emax := by
    have htiny : ctx.etiny ≤ ctx.emax := DecimalContext.etiny_le_emax
    have hprec := ctx.hprec
    have hbase : ((10 : Nat) : ℚ) = 10 := rfl
    rw [← hbase, Int.lt_zpow_iff_log_lt (by decide) (magnitude_pos hd)] at h
    unfold DecimalContext.quantum
    omega
  have hpower : (10 : ℚ) ^ ctx.quantum d.magnitude ≤ 10 ^ ctx.emax :=
    zpow_le_zpow_right₀ (by norm_num) hquantum
  have hpos : (0 : ℚ) < 10 ^ ctx.emax := zpow_pos (by norm_num) _
  have hle : ctx.rounded d.magnitude ≤ d.magnitude + 10 ^ ctx.quantum d.magnitude :=
    DecimalContext.rounded_le_add d.magnitude
  rw [zpow_add_one₀ (by norm_num : (10 : ℚ) ≠ 0)]
  linarith

lemma coefficient_finalize (hd : d.coefficient ≠ 0) (h : d.finalize ctx = some r) :
    r.coefficient ≤ 10 ^ ctx.prec := by
  unfold finalize at h
  rw [if_neg hd] at h
  split at h
  · cases h
  · dsimp only at h
    split at h
    · cases h
    · cases h
      have hdropped : Nat.log 10 d.coefficient + 1 ≤
          ctx.prec + (d.keptExponent ctx - d.exponent).toNat := by
        have hkept : d.adjusted - (ctx.prec - 1) ≤ d.keptExponent ctx :=
          (le_max_left _ _).trans (le_max_right _ _)
        unfold adjusted at hkept
        omega
      have hlt : d.coefficient < 10 ^ ctx.prec * 10 ^ (d.keptExponent ctx - d.exponent).toNat := by
        rw [← pow_add]
        exact (Nat.lt_pow_succ_log_self (by decide) _).trans_le
          (Nat.pow_le_pow_right (by decide) hdropped)
      have hquotient := Nat.div_lt_of_lt_mul (mul_comm (10 ^ ctx.prec) _ ▸ hlt)
      dsimp only
      unfold roundQuotientEven
      split
      · exact hquotient.le
      · exact hquotient

/-- What an operation returns has the digits of the context. -/
lemma coefficient_fix (h : d.fix ctx = .ok r) : r.coefficient < 10 ^ ctx.prec := by
  have hpos : 0 < 10 ^ ctx.prec := Nat.pow_pos (by decide)
  unfold fix at h
  split at h
  · cases h
    exact hpos
  · next hd =>
    cases hfinal : d.finalize ctx with
    | none =>
      rw [hfinal] at h
      cases h
    | some kept =>
      rw [hfinal] at h
      cases h
      unfold carried
      split
      · exact Nat.pow_lt_pow_right (by decide) (Nat.sub_lt ctx.hprec Nat.one_pos)
      · next hne => exact lt_of_le_of_ne (coefficient_finalize hd hfinal) hne

lemma scaled_value {exponent : Int} (h : exponent ≤ d.exponent) :
    (d.scaled exponent : ℚ) * 10 ^ exponent = d.value := by
  have hexponent : ((d.exponent - exponent).toNat : Int) + exponent = d.exponent := by omega
  have hmagnitude :
      ((d.coefficient * 10 ^ (d.exponent - exponent).toNat : Int) : ℚ) * 10 ^ exponent =
        d.magnitude := by
    unfold magnitude
    push_cast
    rw [mul_assoc, ← zpow_natCast, ← zpow_add₀ (by norm_num : (10 : ℚ) ≠ 0), hexponent]
  unfold scaled value sign
  dsimp only
  split
  · rw [Int.cast_neg, neg_mul, hmagnitude, neg_one_mul]
  · rw [hmagnitude, one_mul]

lemma value_of_zero (h : d.coefficient = 0) : d.value = 0 := by
  rw [value, magnitude_of_zero h, mul_zero]

lemma value_of_natAbs (n : Int) (exponent : Int) :
    (⟨n < 0, n.natAbs, exponent⟩ : DecimalNumber).value = n * 10 ^ exponent := by
  have habs : ((n.natAbs : Nat) : ℚ) = |(n : ℚ)| := by rw [Nat.cast_natAbs, Int.cast_abs]
  unfold value magnitude sign
  dsimp only
  rw [habs]
  by_cases hn : n < 0
  · rw [if_pos (decide_eq_true hn), abs_of_neg (Int.cast_lt_zero.mpr hn)]
    ring
  · rw [if_neg (by simpa using hn), abs_of_nonneg (Int.cast_nonneg (not_lt.mp hn)), one_mul]

/-- The exact sum has the sum of the values. -/
lemma exactAdd_value (x y : DecimalNumber) : (x.exactAdd y).value = x.value + y.value := by
  unfold exactAdd
  dsimp only
  split
  · next hzero => rw [value_of_zero rfl, value_of_zero hzero.1, value_of_zero hzero.2, add_zero]
  · rw [value_of_natAbs, Int.cast_add, add_mul, scaled_value (min_le_left _ _),
      scaled_value (min_le_right _ _)]

lemma copyNegate_value (d : DecimalNumber) : d.copyNegate.value = -d.value := by
  obtain ⟨negative, coefficient, exponent⟩ := d
  unfold copyNegate value sign
  cases negative
  · exact neg_mul _ _
  · exact (one_mul _).trans (by rw [if_pos rfl, neg_one_mul, neg_neg]; rfl)

lemma abs_value (d : DecimalNumber) : |d.value| = d.magnitude := by
  have hnonneg : 0 ≤ d.magnitude := mul_nonneg (Nat.cast_nonneg _) (zpow_nonneg (by norm_num) _)
  unfold value sign
  rw [abs_mul, abs_of_nonneg hnonneg]
  split
  · rw [abs_neg, abs_one, one_mul]
  · rw [abs_one, one_mul]

/-- What an operation returns is its exact result, rounded in its size and with the same sign. -/
lemma fix_value (h : d.fix ctx = .ok r) :
    |r.value| = ctx.rounded |d.value| ∧ 0 ≤ r.value * d.value := by
  rcases fix_spec ctx d with ⟨r', hr, hnegative, hmagnitude, -⟩ | ⟨herror, -⟩
  · obtain rfl := Except.ok.inj (hr.symm.trans h)
    rw [abs_value, abs_value]
    refine ⟨hmagnitude, ?_⟩
    have hsigns : sign d.negative * sign d.negative = 1 := by
      unfold sign
      split <;> norm_num
    have hproduct : r'.value * d.value = r'.magnitude * d.magnitude := by
      unfold value
      rw [hnegative, mul_mul_mul_comm, hsigns, one_mul]
    rw [hproduct, ← abs_value, ← abs_value]
    exact mul_nonneg (abs_nonneg _) (abs_nonneg _)
  · rw [herror] at h
    cases h

/-- A number of the context is not too large for an operation that does not change its size. -/
lemma exists_fix_of_magnitude (h : d.fix ctx = .ok r) {r' : DecimalNumber}
    (hsame : r'.magnitude = r.magnitude) : ∃ kept, r'.fix ctx = .ok kept := by
  rw [exists_fix_iff, hsame]
  by_cases hr : r.coefficient = 0
  · rw [magnitude_of_zero hr, DecimalContext.rounded_zero]
    exact zpow_pos (by norm_num) _
  obtain ⟨hexponent, hadjusted⟩ := within_fix h
  have hquantum : ctx.quantum r.magnitude ≤ r.exponent := by
    have hlog : Nat.log 10 r.coefficient < ctx.prec := Nat.log_lt_of_lt_pow hr (coefficient_fix h)
    unfold DecimalContext.quantum
    rw [log_magnitude hr]
    unfold adjusted
    omega
  rw [DecimalContext.rounded_of_mul (n := r.coefficient) (by rw [Int.cast_natCast]; rfl) hquantum]
  exact lt_of_not_ge fun hle => absurd ((overflow_iff hr).mpr hle) (not_lt.mpr hadjusted)

end DecimalNumber

end ChatBI.Lib
