import Mathlib.Data.Nat.Notation
import Mathlib.Tactic.Lemma

/-!
# Base64

`urlsafe_b64encode` and `urlsafe_b64decode`. The decoder skips what is no digit and stops at the
padding.
-/

namespace ChatBI.Lib.Base64

def digit (n : ℕ) : Char :=
  if n < 26 then Char.ofNat (65 + n)
  else if n < 52 then Char.ofNat (71 + n)
  else if n < 62 then Char.ofNat (n - 4)
  else if n = 62 then '-'
  else '_'

/-- The digits of both alphabets. -/
def digit? (c : Char) : Option ℕ :=
  let n := c.toNat
  if 65 ≤ n ∧ n ≤ 90 then some (n - 65)
  else if 97 ≤ n ∧ n ≤ 122 then some (n - 71)
  else if 48 ≤ n ∧ n ≤ 57 then some (n + 4)
  else if c = '-' ∨ c = '+' then some 62
  else if c = '_' ∨ c = '/' then some 63
  else none

def encode : List ℕ → List Char
  | a :: b :: c :: rest =>
    digit (a / 4) :: digit (a % 4 * 16 + b / 16) :: digit (b % 16 * 4 + c / 64) :: digit (c % 64) ::
      encode rest
  | [a, b] => [digit (a / 4), digit (a % 4 * 16 + b / 16), digit (b % 16 * 4), '=']
  | [a] => [digit (a / 4), digit (a % 4 * 16), '=', '=']
  | [] => []

/-- The loop of the decoder: the place in a group of four, the bits that are left over and the
padding so far. -/
def decodeFrom (place left pads : ℕ) : List Char → Option (List ℕ)
  | [] => if place = 0 then some [] else none
  | c :: rest =>
    if c = '=' then
      if 2 ≤ place then
        if 4 ≤ place + (pads + 1) then some [] else decodeFrom place left (pads + 1) rest
      else decodeFrom place left pads rest
    else
      match digit? c with
      | none => decodeFrom place left pads rest
      | some v =>
        match place with
        | 0 => decodeFrom 1 v 0 rest
        | 1 => (decodeFrom 2 (v % 16) 0 rest).map ((left * 4 + v / 16) :: ·)
        | 2 => (decodeFrom 3 (v % 4) 0 rest).map ((left * 16 + v / 4) :: ·)
        | _ => (decodeFrom 0 0 0 rest).map ((left * 64 + v) :: ·)

def decode (text : List Char) : Option (List ℕ) :=
  if text.all (·.toNat < 128) then decodeFrom 0 0 0 text else none

lemma digit?_digit {n : ℕ} (h : n < 64) : digit? (digit n) = some n := by
  revert n
  decide

lemma digit_ne_pad {n : ℕ} (h : n < 64) : digit n ≠ '=' := by
  revert n
  decide

lemma digit_ascii {n : ℕ} (h : n < 64) : (digit n).toNat < 128 := by
  revert n
  decide

section Loop

variable {left pads v : ℕ} {rest : List Char}

/-- The loop at a digit. -/
lemma decodeFrom_digit (place : ℕ) (hv : v < 64) : decodeFrom place left pads (digit v :: rest) =
    match place with
    | 0 => decodeFrom 1 v 0 rest
    | 1 => (decodeFrom 2 (v % 16) 0 rest).map ((left * 4 + v / 16) :: ·)
    | 2 => (decodeFrom 3 (v % 4) 0 rest).map ((left * 16 + v / 4) :: ·)
    | _ => (decodeFrom 0 0 0 rest).map ((left * 64 + v) :: ·) := by
  rw [decodeFrom, if_neg (digit_ne_pad hv), digit?_digit hv]

lemma decodeFrom_first (hv : v < 64) :
    decodeFrom 0 left pads (digit v :: rest) = decodeFrom 1 v 0 rest :=
  decodeFrom_digit 0 hv

lemma decodeFrom_second (hv : v < 64) : decodeFrom 1 left pads (digit v :: rest) =
    (decodeFrom 2 (v % 16) 0 rest).map ((left * 4 + v / 16) :: ·) :=
  decodeFrom_digit 1 hv

lemma decodeFrom_third (hv : v < 64) : decodeFrom 2 left pads (digit v :: rest) =
    (decodeFrom 3 (v % 4) 0 rest).map ((left * 16 + v / 4) :: ·) :=
  decodeFrom_digit 2 hv

lemma decodeFrom_fourth (hv : v < 64) : decodeFrom 3 left pads (digit v :: rest) =
    (decodeFrom 0 0 0 rest).map ((left * 64 + v) :: ·) :=
  decodeFrom_digit 3 hv

end Loop

/-- Encoded bytes are decoded group by group. -/
theorem decodeFrom_encode : ∀ bytes : List ℕ, (∀ b ∈ bytes, b < 256) →
    decodeFrom 0 0 0 (encode bytes) = some bytes
  | [], _ => rfl
  | [a], h => by
    have ha := h a List.mem_cons_self
    rw [encode, decodeFrom_first (by omega), decodeFrom_second (by omega)]
    have hlast : decodeFrom 2 (a % 4 * 16 % 16) 0 ['=', '='] = some [] := rfl
    rw [hlast, Option.map_some, show a / 4 * 4 + a % 4 * 16 / 16 = a by omega]
  | [a, b], h => by
    have ha := h a List.mem_cons_self
    have hb := h b (List.mem_cons_of_mem _ List.mem_cons_self)
    rw [encode, decodeFrom_first (by omega), decodeFrom_second (by omega),
      decodeFrom_third (by omega)]
    have hlast : decodeFrom 3 (b % 16 * 4 % 4) 0 ['='] = some [] := rfl
    rw [hlast, Option.map_some, Option.map_some,
      show a / 4 * 4 + (a % 4 * 16 + b / 16) / 16 = a by omega,
      show (a % 4 * 16 + b / 16) % 16 * 16 + b % 16 * 4 / 4 = b by omega]
  | a :: b :: c :: rest, h => by
    have ha := h a List.mem_cons_self
    have hb := h b (List.mem_cons_of_mem _ List.mem_cons_self)
    have hc := h c (List.mem_cons_of_mem _ (List.mem_cons_of_mem _ List.mem_cons_self))
    have hrest := decodeFrom_encode rest fun x hx =>
      h x (List.mem_cons_of_mem _ (List.mem_cons_of_mem _ (List.mem_cons_of_mem _ hx)))
    rw [encode, decodeFrom_first (by omega), decodeFrom_second (by omega),
      decodeFrom_third (by omega), decodeFrom_fourth (by omega), hrest, Option.map_some,
      Option.map_some, Option.map_some,
      show a / 4 * 4 + (a % 4 * 16 + b / 16) / 16 = a by omega,
      show (a % 4 * 16 + b / 16) % 16 * 16 + (b % 16 * 4 + c / 64) / 4 = b by omega,
      show (b % 16 * 4 + c / 64) % 4 * 64 + c % 64 = c by omega]

lemma encode_ascii : ∀ bytes : List ℕ, (∀ b ∈ bytes, b < 256) → ∀ c ∈ encode bytes, c.toNat < 128
  | [], _ => by simp [encode]
  | [a], h => by
    have ha := h a List.mem_cons_self
    simp only [encode, List.mem_cons, List.not_mem_nil, or_false]
    rintro c (rfl | rfl | rfl | rfl)
    · exact digit_ascii (by omega)
    · exact digit_ascii (by omega)
    · decide
    · decide
  | [a, b], h => by
    have ha := h a List.mem_cons_self
    have hb := h b (List.mem_cons_of_mem _ List.mem_cons_self)
    simp only [encode, List.mem_cons, List.not_mem_nil, or_false]
    rintro c (rfl | rfl | rfl | rfl)
    · exact digit_ascii (by omega)
    · exact digit_ascii (by omega)
    · exact digit_ascii (by omega)
    · decide
  | a :: b :: c :: rest, h => by
    have ha := h a List.mem_cons_self
    have hb := h b (List.mem_cons_of_mem _ List.mem_cons_self)
    have hc := h c (List.mem_cons_of_mem _ (List.mem_cons_of_mem _ List.mem_cons_self))
    have hrest := encode_ascii rest fun x hx =>
      h x (List.mem_cons_of_mem _ (List.mem_cons_of_mem _ (List.mem_cons_of_mem _ hx)))
    simp only [encode, List.mem_cons]
    rintro d (rfl | rfl | rfl | rfl | hd)
    · exact digit_ascii (by omega)
    · exact digit_ascii (by omega)
    · exact digit_ascii (by omega)
    · exact digit_ascii (by omega)
    · exact hrest d hd

/-- Encoded bytes are decoded to the bytes. -/
theorem decode_encode {bytes : List ℕ} (h : ∀ b ∈ bytes, b < 256) :
    decode (encode bytes) = some bytes := by
  have hascii : (encode bytes).all (·.toNat < 128) = true :=
    List.all_eq_true.mpr fun c hc => decide_eq_true (encode_ascii bytes h c hc)
  rw [decode, if_pos hascii]
  exact decodeFrom_encode bytes h

lemma length_encode : ∀ bytes : List ℕ, (encode bytes).length = 4 * ((bytes.length + 2) / 3)
  | [] => by simp [encode]
  | [_] => by simp [encode]
  | [_, _] => by simp [encode]
  | a :: b :: c :: rest => by
    simp only [encode, List.length_cons, length_encode rest]
    omega

end ChatBI.Lib.Base64
