import ChatBI.Lib.Decimal
import Mathlib.Algebra.Order.Floor.Ring
import Mathlib.Data.Rat.Floor
import Mathlib.Tactic.NormNum

/-!
# Numerals for display

Rounding half away from zero, thousands set apart by commas and numbers with a fixed number of
digits behind the point.
-/

namespace ChatBI.Lib

/-! ### Rounding half away from zero -/

/-- The nearest integer, of two the one away from zero. -/
def roundHalfAway (x : ℚ) : Int := if x < 0 then -⌊-x + 1 / 2⌋ else ⌊x + 1 / 2⌋

/-- A quotient of natural numbers, rounded in the same way. -/
def roundQuotientAway (n d : Nat) : Nat := n / d + if d ≤ n % d * 2 then 1 else 0

lemma roundHalfAway_neg (x : ℚ) : roundHalfAway (-x) = -roundHalfAway x := by
  unfold roundHalfAway
  rcases lt_trichotomy x 0 with hx | rfl | hx
  · rw [if_neg (by linarith), if_pos hx, neg_neg]
  · norm_num
  · rw [if_pos (by linarith), if_neg (by linarith), neg_neg]

lemma floor_div_add_half {n d : Nat} (hd : 0 < d) :
    ⌊(n : ℚ) / d + 1 / 2⌋ = roundQuotientAway n d := by
  have hpos : (0 : ℚ) < d := Nat.cast_pos.mpr hd
  have hsplit : (n : ℚ) / d = (n / d : Nat) + (n % d : Nat) / d := by
    rw [div_eq_iff hpos.ne', add_mul, div_mul_cancel₀ _ hpos.ne']
    exact_mod_cast (Nat.div_add_mod' n d).symm
  have hmod : ((n % d : Nat) : ℚ) < d := Nat.cast_lt.mpr (Nat.mod_lt n hd)
  have hnonneg : (0 : ℚ) ≤ (n % d : Nat) / d := by positivity
  have hlt : ((n % d : Nat) : ℚ) / d < 1 := (div_lt_one hpos).mpr hmod
  have hhalf : (1 : ℚ) / 2 ≤ (n % d : Nat) / d ↔ d ≤ n % d * 2 := by
    rw [div_le_div_iff₀ two_pos hpos, one_mul]
    exact_mod_cast Iff.rfl
  rw [hsplit, Int.floor_eq_iff]
  unfold roundQuotientAway
  split
  · rename_i h
    have hup := hhalf.mpr h
    rw [Int.cast_natCast, Nat.cast_add, Nat.cast_one]
    constructor <;> linarith
  · rename_i h
    have hdown := not_le.mp (mt hhalf.mp h)
    rw [Int.cast_natCast, Nat.add_zero]
    constructor <;> linarith

lemma roundHalfAway_div {n d : Nat} (hd : 0 < d) :
    roundHalfAway ((n : ℚ) / d) = roundQuotientAway n d := by
  have hnonneg : (0 : ℚ) ≤ (n : ℚ) / d := by positivity
  rw [roundHalfAway, if_neg (not_lt.mpr hnonneg), floor_div_add_half hd]

lemma roundHalfAway_natCast (n : Nat) : roundHalfAway (n : ℚ) = n := by
  have h := @roundHalfAway_div n 1 one_pos
  rw [Nat.cast_one, div_one] at h
  rw [h, roundQuotientAway, Nat.div_one, Nat.mod_one, if_neg (by omega), add_zero]

lemma roundHalfAway_zero : roundHalfAway 0 = 0 := by
  exact_mod_cast roundHalfAway_natCast 0

/-! ### Last digits -/

/-- The last digits of a number. -/
def lastDigits : Nat → Nat → List Char
  | 0, _ => []
  | places + 1, n => lastDigits places (n / 10) ++ [Nat.digitChar (n % 10)]

lemma length_lastDigits (places n : Nat) : (lastDigits places n).length = places := by
  induction places generalizing n with
  | zero => rfl
  | succ places ih => rw [lastDigits, List.length_append, ih, List.length_singleton]

/-- Digits padded with zeros to one more than the last ones. -/
lemma padded_toDigits (places n : Nat) :
    List.replicate (places + 1 - (Nat.toDigits 10 n).length) '0' ++ Nat.toDigits 10 n =
      Nat.toDigits 10 (n / 10 ^ places) ++ lastDigits places n := by
  induction places generalizing n with
  | zero =>
    have hpos := @Nat.length_toDigits_pos 10 n
    rw [Nat.zero_add, Nat.sub_eq_zero_of_le hpos, pow_zero, Nat.div_one]
    exact (List.append_nil _).symm
  | succ places ih =>
    have hdiv : n / 10 ^ (places + 1) = n / 10 / 10 ^ places := by
      rw [pow_succ', Nat.div_div_eq_div_mul]
    rw [lastDigits, hdiv, ← List.append_assoc, ← ih (n / 10)]
    by_cases h : n < 10
    · have hzero : n / 10 = 0 := Nat.div_eq_of_lt h
      rw [hzero, Nat.toDigits_zero, Nat.toDigits_of_lt_base h, Nat.mod_eq_of_lt h]
      change List.replicate (places + 1) '0' ++ _ = List.replicate places '0' ++ ['0'] ++ _
      rw [List.replicate_succ']
    · rw [Nat.toDigits_of_base_le (by omega) (Nat.le_of_not_lt h), List.length_append,
        List.length_singleton, Nat.add_sub_add_right, List.append_assoc]

lemma toDigits_split {places n : Nat} (h : 10 ^ places ≤ n) :
    Nat.toDigits 10 n = Nat.toDigits 10 (n / 10 ^ places) ++ lastDigits places n := by
  have hlength : places + 1 ≤ (Nat.toDigits 10 n).length := by
    by_contra hshort
    rcases Nat.eq_zero_or_pos places with rfl | hpos
    · exact hshort Nat.length_toDigits_pos
    · have hle : (Nat.toDigits 10 n).length ≤ places := by omega
      have hlt := (Nat.length_toDigits_le_iff (by omega) hpos).mp hle
      omega
  rw [← padded_toDigits, Nat.sub_eq_zero_of_le hlength]
  rfl

/-! ### Groups of three digits -/

/-- A comma before every group of three digits, counted from the end, except in front of all. -/
def commas : List Char → List Char
  | [] => []
  | c :: cs => if cs ≠ [] ∧ cs.length % 3 = 0 then c :: ',' :: commas cs else c :: commas cs

/-- A number in groups of three digits. -/
def thousands (n : Nat) : List Char :=
  if n < 1000 then Nat.toDigits 10 n else thousands (n / 1000) ++ ',' :: lastDigits 3 n

lemma commas_of_short {cs : List Char} (h : cs.length ≤ 3) : commas cs = cs := by
  match cs, h with
  | [], _ => rfl
  | [a], _ => rfl
  | [a, b], _ => rfl
  | [a, b, c], _ => rfl

lemma commas_append {cs group : List Char} (hcs : cs ≠ []) (hgroup : group.length = 3) :
    commas (cs ++ group) = commas cs ++ ',' :: group := by
  induction cs with
  | nil => exact absurd rfl hcs
  | cons d cs ih =>
    have hne : cs ++ group ≠ [] := by
      intro h
      rw [(List.append_eq_nil_iff.mp h).2] at hgroup
      cases hgroup
    have hlength : (cs ++ group).length % 3 = cs.length % 3 := by
      rw [List.length_append, hgroup, Nat.add_mod_right]
    rw [List.cons_append, commas, commas, hlength]
    by_cases hempty : cs = []
    · rw [hempty, if_pos ⟨hempty ▸ hne, rfl⟩, if_neg (fun h => h.1 rfl), List.nil_append,
        commas_of_short hgroup.le]
      rfl
    · rw [ih hempty]
      by_cases hmod : cs.length % 3 = 0
      · rw [if_pos ⟨hne, hmod⟩, if_pos ⟨hempty, hmod⟩]
        rfl
      · rw [if_neg (fun h => hmod h.2), if_neg (fun h => hmod h.2)]
        rfl

/-- The commas of a number's digits stand between its groups of three. -/
theorem commas_toDigits (n : Nat) : commas (Nat.toDigits 10 n) = thousands n := by
  induction n using Nat.strong_induction_on with
  | _ n ih =>
    rw [thousands]
    split
    · rename_i h
      apply commas_of_short
      exact (Nat.length_toDigits_le_iff (by omega) (by omega)).mpr h
    · rename_i h
      have hlarge : 10 ^ 3 ≤ n := Nat.le_of_not_lt h
      rw [toDigits_split hlarge, commas_append Nat.toDigits_ne_nil (length_lastDigits 3 n),
        ih (n / 10 ^ 3) (by omega)]
      rfl

/-- A number of hundredths, thousandths and so on, with groups of thousands. -/
def fixedPoint (places n : Nat) : List Char :=
  thousands (n / 10 ^ places) ++ if places = 0 then [] else '.' :: lastDigits places n

end ChatBI.Lib
