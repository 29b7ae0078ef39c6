import ChatBI.Lib.JsonDump

/-!
# Numerals of a fixed width

The digits of a number in a base of at most sixteen, padded with zeros, and their reading.
-/

namespace ChatBI.Lib.FixedDigits

open JsonDoc

/-- The last `width` digits of a number. -/
def digits (base : ℕ) : ℕ → ℕ → List Char
  | 0, _ => []
  | width + 1, n => hexDigit (n / base ^ width) :: digits base width (n % base ^ width)

/-- The number that the next `width` digits continue, and what stands behind them. -/
def read (base : ℕ) : ℕ → ℕ → List Char → Option (ℕ × List Char)
  | 0, n, text => some (n, text)
  | _ + 1, _, [] => none
  | width + 1, n, c :: text =>
    ((CodePoint.scalar c).hexDigit?).bind fun d =>
      if d < base then read base width (base * n + d) text else none

variable {base width n : ℕ}

lemma length_digits (base width n : ℕ) : (digits base width n).length = width := by
  induction width generalizing n with
  | zero => rfl
  | succ width ih => rw [digits, List.length_cons, ih]

/-- The digits of a number are read back as the number. -/
theorem read_digits (hbase : base ≤ 16) (hn : n < base ^ width) (before : ℕ) (rest : List Char) :
    read base width before (digits base width n ++ rest) =
      some (base ^ width * before + n, rest) := by
  induction width generalizing n before with
  | zero =>
    obtain rfl : n = 0 := Nat.lt_one_iff.mp hn
    rw [pow_zero, one_mul]
    rfl
  | succ width ih =>
    have hpos : 0 < base ^ width := by
      apply Nat.pos_of_ne_zero
      intro hzero
      rw [pow_succ, hzero, Nat.zero_mul] at hn
      exact absurd hn (Nat.not_lt_zero n)
    have hdigit : n / base ^ width < base := by
      rw [Nat.div_lt_iff_lt_mul hpos, Nat.mul_comm, ← pow_succ]
      exact hn
    rw [digits, List.cons_append, read, scalar_hexDigit (Nat.lt_of_lt_of_le hdigit hbase), Option.bind_some,
      if_pos hdigit, ih (Nat.mod_lt _ hpos)]
    have hsplit := Nat.div_add_mod n (base ^ width)
    rw [pow_succ, Nat.mul_add, Nat.add_assoc, hsplit, Nat.mul_assoc]

/-- Two numbers with the same digits are equal. -/
lemma digits_injective (hbase : base ≤ 16) {m : ℕ} (hn : n < base ^ width) (hm : m < base ^ width)
    (h : digits base width n = digits base width m) : n = m := by
  have hread := read_digits hbase hn 0 []
  rw [h, read_digits hbase hm 0 [], Nat.mul_zero, Nat.zero_add, Nat.zero_add] at hread
  cases hread
  rfl

end ChatBI.Lib.FixedDigits
