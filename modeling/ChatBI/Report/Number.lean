import ChatBI.Lib.JsonParser
import ChatBI.Report.Decoder
import Mathlib.Data.List.TakeWhile

/-!
# The numbers of the decoder

`_valid_json_number` accepts the numbers of the JSON grammar.
-/

namespace ChatBI.Report

open ChatBI.Lib ChatBI.Lib.JsonGrammar

variable {l r digits : List CodePoint}

/-- A text that continues no run of digits. -/
def NoDigit (r : List CodePoint) : Prop := ∀ c l, r = c :: l → c.isDigit = false

lemma takeWhile_digits (hd : ∀ c ∈ digits, c.isDigit = true) (hr : NoDigit r) :
    (digits ++ r).takeWhile CodePoint.isDigit = digits ∧
      (digits ++ r).dropWhile CodePoint.isDigit = r := by
  rw [List.takeWhile_append_of_pos hd, List.dropWhile_append_of_pos hd]
  cases r with
  | nil => simp
  | cons c r => simp [hr c r rfl]

lemma noDigit_dropWhile (l : List CodePoint) : NoDigit (l.dropWhile CodePoint.isDigit) := by
  intro c r h
  have hne : l.dropWhile CodePoint.isDigit ≠ [] := by simp [h]
  have hhead := List.head_dropWhile_not CodePoint.isDigit hne
  simpa [h] using hhead

lemma skipDigits_eq_some_iff :
    skipDigits l = some r ↔ ∃ digits, l = digits ++ r ∧ Digits digits ∧ NoDigit r := by
  constructor
  · intro h
    unfold skipDigits at h
    split at h
    · cases h
    · next hne =>
      cases h
      refine ⟨l.takeWhile CodePoint.isDigit, (List.takeWhile_append_dropWhile).symm,
        ⟨by simpa using hne, fun c hc => ?_⟩, noDigit_dropWhile l⟩
      exact List.mem_takeWhile_imp hc
  · rintro ⟨digits, rfl, ⟨hne, hd⟩, hr⟩
    obtain ⟨htake, hdrop⟩ := takeWhile_digits hd hr
    rw [skipDigits, htake, hdrop, if_neg (by simpa using hne)]

lemma skipInteger_eq_some_iff :
    skipInteger l = some r ↔ ∃ integer, l = integer ++ r ∧ IntegerPart integer ∧ NoDigit r := by
  constructor
  · intro h
    unfold skipInteger at h
    split at h
    · next l' =>
      split at h
      · cases h
      · next hno =>
        cases h
        refine ⟨[.scalar '0'], rfl, .inl rfl, ?_⟩
        rintro c l rfl
        simpa using hno
    · next c l' hzero =>
      split at h
      · next hc =>
        cases h
        refine ⟨c :: l'.takeWhile CodePoint.isDigit, ?_, .inr ⟨⟨by simp, ?_⟩, ?_⟩,
          noDigit_dropWhile l'⟩
        · rw [List.cons_append, List.takeWhile_append_dropWhile]
        · intro b hb
          rcases List.mem_cons.mp hb with rfl | hb
          · exact hc
          · exact List.mem_takeWhile_imp hb
        · intro he
          exact hzero (by simpa using he)
      · cases h
    · cases h
  · rintro ⟨integer, rfl, hi, hr⟩
    rcases hi with rfl | ⟨⟨hne, hd⟩, hzero⟩
    · cases r with
      | nil => rfl
      | cons c r => simp [skipInteger, hr c r rfl]
    · cases integer with
      | nil => exact absurd rfl hne
      | cons c l' =>
        have hc : c ≠ .scalar '0' := by simpa using hzero
        have hdrop := (takeWhile_digits (fun b hb => hd b (List.mem_cons_of_mem c hb)) hr).2
        rw [List.cons_append, skipInteger]
        · rw [if_pos (hd c (by simp)), hdrop]
        · exact hc

lemma skipFraction_eq_some_iff (hl : NoDigit l) :
    skipFraction l = some r ↔
      ∃ fraction, l = fraction ++ r ∧ FractionPart fraction ∧
        (fraction = [] → r.head? ≠ some (.scalar '.')) ∧ NoDigit r := by
  constructor
  · intro h
    unfold skipFraction at h
    split at h
    · next l' =>
      obtain ⟨digits, rfl, hd, hr⟩ := skipDigits_eq_some_iff.mp h
      exact ⟨.scalar '.' :: digits, rfl, .inr ⟨digits, rfl, hd⟩, nofun, hr⟩
    · next hdot =>
      cases h
      refine ⟨[], rfl, .inl rfl, fun _ he => ?_, hl⟩
      obtain ⟨l', rfl⟩ := List.head?_eq_some_iff.mp he
      exact hdot l' rfl
  · rintro ⟨fraction, rfl, rfl | ⟨digits, rfl, hd⟩, hdot, hr⟩
    · rw [List.nil_append, skipFraction]
      intro l' he
      exact hdot rfl (by simp [he])
    · exact skipDigits_eq_some_iff.mpr ⟨digits, rfl, hd, hr⟩

lemma digits_of_skipDigits (h : skipDigits l = some []) : Digits l := by
  obtain ⟨digits, rfl, hd, -⟩ := skipDigits_eq_some_iff.mp h
  rwa [List.append_nil]

lemma skipExponent_eq_nil_iff : skipExponent l = some [] ↔ ExponentPart l := by
  have hnil : NoDigit [] := nofun
  constructor
  · intro h
    unfold skipExponent at h
    split at h
    · exact .inr ⟨_, [.scalar '+'], _, rfl, .inl rfl, .inr (.inl rfl), digits_of_skipDigits h⟩
    · exact .inr ⟨_, [.scalar '-'], _, rfl, .inl rfl, .inr (.inr rfl), digits_of_skipDigits h⟩
    · exact .inr ⟨_, [], _, rfl, .inl rfl, .inl rfl, digits_of_skipDigits h⟩
    · exact .inr ⟨_, [.scalar '+'], _, rfl, .inr rfl, .inr (.inl rfl), digits_of_skipDigits h⟩
    · exact .inr ⟨_, [.scalar '-'], _, rfl, .inr rfl, .inr (.inr rfl), digits_of_skipDigits h⟩
    · exact .inr ⟨_, [], _, rfl, .inr rfl, .inl rfl, digits_of_skipDigits h⟩
    · exact .inl (Option.some.inj h)
  · rintro (rfl | ⟨e, sign, digits, rfl, he, hs, hd⟩)
    · rfl
    · have hskip : skipDigits digits = some [] :=
        skipDigits_eq_some_iff.mpr ⟨digits, by simp, hd, hnil⟩
      rcases hs with rfl | rfl | rfl
      · obtain ⟨hne, hall⟩ := hd
        cases digits with
        | nil => exact absurd rfl hne
        | cons c digits =>
          have hc := hall c (by simp)
          rcases he with rfl | rfl
          all_goals
            rw [List.nil_append, skipExponent]
            · exact hskip
            · rintro _ ⟨⟩
              cases hc
            · rintro _ ⟨⟩
              cases hc
      · rcases he with rfl | rfl <;> exact hskip
      · rcases he with rfl | rfl <;> exact hskip

lemma skipMinus_of_integer (hi : IntegerPart digits) : skipMinus (digits ++ r) = digits ++ r := by
  have hhead : ∃ c l, digits = c :: l ∧ c.isDigit = true := by
    rcases hi with rfl | ⟨⟨hne, hd⟩, -⟩
    · exact ⟨_, _, rfl, rfl⟩
    · cases digits with
      | nil => exact absurd rfl hne
      | cons c l => exact ⟨c, l, rfl, hd c (by simp)⟩
  obtain ⟨c, l, rfl, hc⟩ := hhead
  rw [List.cons_append, skipMinus]
  rintro _ ⟨⟩
  cases hc

lemma noDigit_exponent (he : ExponentPart l) :
    NoDigit l ∧ l.head? ≠ some (.scalar '.') := by
  rcases he with rfl | ⟨e, sign, digits, rfl, rfl | rfl, -⟩
  · exact ⟨nofun, by simp⟩
  all_goals
    refine ⟨?_, by simp⟩
    rintro c l ⟨⟩
    rfl

lemma noDigit_fraction {exponent : List CodePoint} (hf : FractionPart l)
    (he : ExponentPart exponent) : NoDigit (l ++ exponent) := by
  rcases hf with rfl | ⟨digits, rfl, -⟩
  · exact (noDigit_exponent he).1
  · rintro c l ⟨⟩
    rfl

theorem validJsonNumber_iff (value : List CodePoint) :
    validJsonNumber value = true ↔ Number value := by
  rw [validJsonNumber, decide_eq_true_iff]
  constructor
  · intro h
    obtain ⟨l, hi, h⟩ := Option.bind_eq_some_iff.mp h
    obtain ⟨l', hf, he⟩ := Option.bind_eq_some_iff.mp h
    obtain ⟨integer, hinteger, hipart, hnodigit⟩ := skipInteger_eq_some_iff.mp hi
    obtain ⟨fraction, rfl, hfpart, -, -⟩ := (skipFraction_eq_some_iff hnodigit).mp hf
    have hepart := skipExponent_eq_nil_iff.mp he
    unfold skipMinus at hinteger
    split at hinteger
    · exact ⟨[.scalar '-'], integer, fraction, l', by simp [hinteger], .inr rfl, hipart, hfpart,
        hepart⟩
    · exact ⟨[], integer, fraction, l', by simp [hinteger], .inl rfl, hipart, hfpart, hepart⟩
  · rintro ⟨minus, integer, fraction, exponent, rfl, hm, hi, hf, he⟩
    have hminus : skipMinus (minus ++ integer ++ fraction ++ exponent) =
        integer ++ (fraction ++ exponent) := by
      rcases hm with rfl | rfl
      · rw [List.nil_append, List.append_assoc, skipMinus_of_integer hi]
      · simp [skipMinus]
    have hnodigit := noDigit_fraction hf he
    obtain ⟨hexponent, hdot⟩ := noDigit_exponent he
    have hinteger : skipInteger (integer ++ (fraction ++ exponent)) = some (fraction ++ exponent) :=
      skipInteger_eq_some_iff.mpr ⟨integer, rfl, hi, hnodigit⟩
    have hfraction : skipFraction (fraction ++ exponent) = some exponent :=
      (skipFraction_eq_some_iff hnodigit).mpr ⟨fraction, rfl, hf, fun _ => hdot, hexponent⟩
    rw [hminus, hinteger, Option.bind_some, hfraction, Option.bind_some]
    exact skipExponent_eq_nil_iff.mpr he

end ChatBI.Report
