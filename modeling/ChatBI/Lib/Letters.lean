import Mathlib.Tactic.Lemma
import Mathlib.Data.List.Induction

/-!
# Numerals in letters

The bijective numerals to the base 26: `A`, …, `Z`, `AA`, `AB`, … Every positive number has exactly
one.
-/

namespace ChatBI.Lib

/-- The numeral of a number, the empty text for zero. -/
def letters (number : Nat) : List Char :=
  if number = 0 then []
  else letters ((number - 1) / 26) ++ [Char.ofNat (65 + (number - 1) % 26)]
termination_by number
decreasing_by omega

/-- The number of a numeral. -/
def lettersValue (cs : List Char) : Nat := cs.foldl (fun acc c => 26 * acc + (c.toNat - 64)) 0

/-- A capital letter. -/
def IsLetter (c : Char) : Prop := 65 ≤ c.toNat ∧ c.toNat ≤ 90

lemma letters_zero : letters 0 = [] := by
  rw [letters, if_pos rfl]

lemma letters_succ (n : Nat) : letters (n + 1) = letters (n / 26) ++ [Char.ofNat (65 + n % 26)] := by
  rw [letters, if_neg (Nat.succ_ne_zero n), Nat.add_sub_cancel]

lemma lettersValue_concat (cs : List Char) (c : Char) :
    lettersValue (cs ++ [c]) = 26 * lettersValue cs + (c.toNat - 64) := by
  unfold lettersValue
  rw [List.foldl_append]
  rfl

lemma toNat_letter {k : Nat} (h : k < 26) : (Char.ofNat (65 + k)).toNat = 65 + k := by
  have hvalid : (65 + k).isValidChar := .inl (by omega)
  rw [Char.ofNat, dif_pos hvalid]
  rfl

lemma isLetter_letters (n : Nat) : ∀ c ∈ letters n, IsLetter c := by
  induction n using Nat.strongRecOn with
  | ind n ih =>
    cases n with
    | zero =>
      rw [letters_zero]
      intro c hc
      cases hc
    | succ n =>
      rw [letters_succ]
      intro c hc
      have hlt : n % 26 < 26 := Nat.mod_lt n (by omega)
      rcases List.mem_append.mp hc with hc | hc
      · exact ih (n / 26) (by omega) c hc
      · have hletter := toNat_letter hlt
        rw [List.mem_singleton.mp hc]
        unfold IsLetter
        omega

lemma lettersValue_letters (n : Nat) : lettersValue (letters n) = n := by
  induction n using Nat.strongRecOn with
  | ind n ih =>
    cases n with
    | zero =>
      rw [letters_zero]
      rfl
    | succ n =>
      have hlt : n % 26 < 26 := Nat.mod_lt n (by omega)
      rw [letters_succ, lettersValue_concat, ih (n / 26) (by omega), toNat_letter hlt]
      omega

lemma letters_injective {m n : Nat} (h : letters m = letters n) : m = n := by
  have hvalue := congrArg lettersValue h
  rwa [lettersValue_letters, lettersValue_letters] at hvalue

/-- A numeral is the only one of its number. -/
theorem letters_lettersValue {cs : List Char} (h : ∀ c ∈ cs, IsLetter c) :
    letters (lettersValue cs) = cs := by
  induction cs using List.reverseRecOn with
  | nil => exact letters_zero
  | append_singleton cs c ih =>
    have hc : IsLetter c := h c (List.mem_append_right _ List.mem_cons_self)
    have hcs := ih (fun b hb => h b (List.mem_append_left _ hb))
    unfold IsLetter at hc
    have hvalue : 26 * lettersValue cs + (c.toNat - 64) =
        26 * lettersValue cs + (c.toNat - 65) + 1 := by omega
    have hdiv : (26 * lettersValue cs + (c.toNat - 65)) / 26 = lettersValue cs := by omega
    have hmod : 65 + (26 * lettersValue cs + (c.toNat - 65)) % 26 = c.toNat := by omega
    rw [lettersValue_concat, hvalue, letters_succ, hdiv, hmod, hcs, Char.ofNat_toNat]

end ChatBI.Lib
