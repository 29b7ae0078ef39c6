import ChatBI.Analysis.Planning
import ChatBI.Lib.Runs
import Mathlib.Data.List.Infix
import Mathlib.Tactic.Push

/-!
# Periods in the question

`_period_is_grounded` looks for the characters of a period in the question. They may be a part of
another number.
-/

namespace ChatBI.Analysis

open ChatBI.Lib ChatBI.Semantic

section

variable (texts : Texts)

/-- Two neighbours that belong to one number. -/
def inNumber (a b : Char) : Bool := texts.isDigit a && texts.isDigit b

/-- A text with its numbers as one token each. -/
def tokens (text : List Char) : List (List Char) := text.splitBy (inNumber texts)

/-- The year and the month of a period that spells them out. -/
def spelledMonth (period : AnalysisTimeRange) : Option (List Char × List Char) :=
  if period.granularity = .month then yearMonth? texts (joinedKey texts period.text) else none

/-- The text names the month as a number of its own, and the year is the last one named in front of
it. -/
def MentionsMonth (text year month : List Char) : Prop :=
  ∃ before between after, text = before ++ (year ++ (between ++ (month ++ after))) ∧
    '年' ∉ between ∧ ¬Joined (inNumber texts) before year ∧ ¬Joined (inNumber texts) between month

/-- The question mentions the period: a month that is spelled out together with its year, any other
text with no digit in front of its numbers or behind them. -/
def Mentions (question : String) (period : AnalysisTimeRange) : Prop :=
  match spelledMonth texts period with
  | some (year, month) => MentionsMonth texts (joinedKey texts question) year month
  | none =>
    OccursWhole (inNumber texts) (joinedKey texts period.text) (joinedKey texts question)

/-- The number at the end of a text. -/
def lastNumber (text : List Char) : List Char := text.rtakeWhile texts.isDigit

/-- The number of the last year that a text names. -/
def lastYear (text : List Char) : List Char :=
  lastNumber texts (text.rdropWhile (· ≠ '年')).dropLast

/-- A number in front of the mark ends with the given digits. -/
def EndsNumber (text : List Char) (mark : Char) (digits : List Char) : Prop :=
  ∃ before ∈ text.inits, before ++ [mark] <+: text ∧ digits <:+ lastNumber texts before

/-- A number in front of a 月 has the given digits, the last year in front of it those of the year. -/
def NamesMonth (text year month : List Char) : Prop :=
  ∃ before ∈ text.inits, before ++ ['月'] <+: text ∧ lastNumber texts before = month ∧
    lastYear texts before = year

instance (text : List Char) (mark : Char) (digits : List Char) :
    Decidable (EndsNumber texts text mark digits) := inferInstanceAs (Decidable (∃ _ ∈ _, _ ∧ _))

instance (text year month : List Char) : Decidable (NamesMonth texts text year month) :=
  inferInstanceAs (Decidable (∃ _ ∈ _, _ ∧ _ ∧ _))

/-- The characters of the period are in the question by accident. Of a month that is spelled out: its
digits end a number in front of a 年 and one in front of a 月, but no 月 has the number of the month
under the year. Of another text: they are there, but never with its numbers as numbers. -/
def Misread (question : String) (period : AnalysisTimeRange) : Prop :=
  match spelledMonth texts period with
  | some (year, month) =>
    EndsNumber texts (joinedKey texts question) '年' year.dropLast ∧
      EndsNumber texts (joinedKey texts question) '月' month.dropLast ∧
      ¬NamesMonth texts (joinedKey texts question) year.dropLast month.dropLast
  | none =>
    joinedKey texts period.text <:+: joinedKey texts question ∧
      ¬tokens texts (joinedKey texts period.text) <:+: tokens texts (joinedKey texts question)

end

section Occurrences

variable {texts : Texts} {text year month digits before : List Char} {mark : Char}

lemma occursIn_iff {part : List Char} : occursIn part text = true ↔ part <:+: text := by
  unfold occursIn
  rw [List.any_eq_true, List.infix_iff_prefix_suffix]
  constructor
  · rintro ⟨rest, hrest, hprefix⟩
    exact ⟨rest, List.isPrefixOf_iff_prefix.mp hprefix, (List.mem_tails rest text).mp hrest⟩
  · rintro ⟨rest, hprefix, hsuffix⟩
    exact ⟨rest, (List.mem_tails rest text).mpr hsuffix, List.isPrefixOf_iff_prefix.mpr hprefix⟩

/-- The year and the month are the text of the period: digits with their marks. -/
lemma yearMonth?_some (h : yearMonth? texts text = some (year, month)) :
    text = year ++ month ∧ ∃ y m, year = y ++ ['年'] ∧ month = m ++ ['月'] ∧ y ≠ [] ∧ m ≠ [] ∧
      (∀ a ∈ y, texts.isDigit a = true) ∧ ∀ a ∈ m, texts.isDigit a = true := by
  unfold yearMonth? at h
  split at h
  · next a b c d x =>
    split at h
    · next hdigits =>
      cases h
      simp only [List.all_cons, List.all_nil, Bool.and_true, Bool.and_eq_true] at hdigits
      refine ⟨rfl, [a, b, c, d], [x], rfl, rfl, nofun, nofun, ?_, ?_⟩ <;> simp [hdigits]
    · cases h
  · next a b c d x y =>
    split at h
    · next hdigits =>
      cases h
      simp only [List.all_cons, List.all_nil, Bool.and_true, Bool.and_eq_true] at hdigits
      refine ⟨rfl, [a, b, c, d], [x, y], rfl, rfl, nofun, nofun, ?_, ?_⟩ <;> simp [hdigits]
    · cases h
  · cases h

lemma spelledMonth_some {period : AnalysisTimeRange}
    (h : spelledMonth texts period = some (year, month)) :
    ∃ y m, year = y ++ ['年'] ∧ month = m ++ ['月'] ∧ y ≠ [] ∧ m ≠ [] ∧
      (∀ a ∈ y, texts.isDigit a = true) ∧ ∀ a ∈ m, texts.isDigit a = true := by
  unfold spelledMonth at h
  split at h
  · exact (yearMonth?_some h).2
  · cases h

/-- Digits in front of a mark end the number there. -/
lemma endsNumber_iff (hdigits : ∀ a ∈ digits, texts.isDigit a = true) :
    EndsNumber texts text mark digits ↔ digits ++ [mark] <:+: text := by
  unfold EndsNumber lastNumber
  constructor
  · rintro ⟨before, -, ⟨after, rfl⟩, hsuffix⟩
    obtain ⟨first, rfl⟩ := (suffix_rtakeWhile_iff hdigits).mp hsuffix
    exact ⟨first, after, by simp⟩
  · rintro ⟨first, after, rfl⟩
    refine ⟨first ++ digits, ?_, ⟨after, by simp⟩, ?_⟩
    · rw [List.mem_inits]
      exact ⟨mark :: after, by simp⟩
    · rw [suffix_rtakeWhile_iff hdigits]
      exact List.suffix_append first digits

/-- A text goes on with digits as a number of its own. -/
lemma lastNumber_append (hne : digits ≠ []) (hdigits : ∀ a ∈ digits, texts.isDigit a = true)
    {rest : List Char} (h : ¬Joined (inNumber texts) before (digits ++ rest)) :
    lastNumber texts (before ++ digits) = digits := by
  refine (rtakeWhile_eq_iff hdigits).mpr ⟨before, rfl, fun a ha => ?_⟩
  by_contra hdigit
  rw [Bool.not_eq_false] at hdigit
  obtain ⟨b, hb⟩ := Option.ne_none_iff_exists'.mp (mt List.head?_eq_none_iff.mp hne)
  refine h ⟨a, ha, b, ?_, ?_⟩
  · rw [List.head?_append_of_ne_nil _ hne]
    exact hb
  · rw [inNumber, hdigit, hdigits b (List.mem_of_mem_head? hb)]
    rfl

lemma ne_year_of_isDigit (hmark : texts.isDigit '年' = false) {a : Char}
    (ha : texts.isDigit a = true) : a ≠ '年' := by
  rintro rfl
  rw [hmark] at ha
  cases ha

/-- In front of the 月 of a mention stands its month, and in front of the last 年 there its year. -/
lemma namesMonth_of_mentions (hmark : texts.isDigit '年' = false) (hyear : year ≠ [])
    (hmonth : month ≠ []) (hyears : ∀ a ∈ year, texts.isDigit a = true)
    (hmonths : ∀ a ∈ month, texts.isDigit a = true)
    (h : MentionsMonth texts text (year ++ ['年']) (month ++ ['月'])) :
    NamesMonth texts text year month := by
  obtain ⟨before, between, after, rfl, hfree, hfirst, hlast⟩ := h
  have htail : ∀ a ∈ between ++ month, decide (a ≠ '年') = true := by
    intro a ha
    rw [decide_eq_true_iff]
    rintro rfl
    rcases List.mem_append.mp ha with ha | ha
    · exact hfree ha
    · exact ne_year_of_isDigit hmark (hmonths _ ha) rfl
  refine ⟨before ++ (year ++ '年' :: (between ++ month)), ?_, ⟨after, by simp⟩, ?_, ?_⟩
  · rw [List.mem_inits]
    exact ⟨'月' :: after, by simp⟩
  · have hjoined : ¬Joined (inNumber texts) (before ++ (year ++ '年' :: between))
        (month ++ ['月']) := by
      rintro ⟨a, ha, b, hb, hab⟩
      rcases List.eq_nil_or_concat between with rfl | ⟨init, last, rfl⟩
      · simp only [List.getLast?_append, List.getLast?_singleton, Option.some_or,
          Option.mem_some_iff] at ha
        rw [← ha, inNumber, hmark] at hab
        cases hab
      · refine hlast ⟨a, ?_, b, hb, hab⟩
        have hsame : before ++ (year ++ '年' :: init.concat last) =
            (before ++ (year ++ '年' :: init)) ++ [last] := by simp
        rw [hsame, List.getLast?_concat] at ha
        rw [List.concat_eq_append, List.getLast?_concat]
        exact ha
    have hnumber := lastNumber_append hmonth hmonths hjoined
    simpa using hnumber
  · have hsplit : (before ++ (year ++ '年' :: (between ++ month))).rdropWhile (· ≠ '年') =
        before ++ year ++ ['年'] := by
      have hwhole : before ++ (year ++ '年' :: (between ++ month)) =
          (before ++ year ++ ['年']) ++ (between ++ month) := by simp
      rw [hwhole, rdropWhile_append_of_pos htail, List.rdropWhile_concat_neg]
      simp
    rw [lastYear, hsplit, List.dropLast_concat]
    exact lastNumber_append hyear hyears hfirst

/-- The last 年 in front of a 月 is that of a mention. -/
lemma mentionsMonth_of_names (hmark : texts.isDigit '年' = false) (hyear : year ≠ [])
    (hyears : ∀ a ∈ year, texts.isDigit a = true)
    (hmonths : ∀ a ∈ month, texts.isDigit a = true)
    (h : NamesMonth texts text year month) :
    MentionsMonth texts text (year ++ ['年']) (month ++ ['月']) := by
  obtain ⟨_, -, ⟨after, rfl⟩, hmonthNumber, hyearNumber⟩ := h
  obtain ⟨front, rfl, hfront⟩ := (rtakeWhile_eq_iff hmonths).mp hmonthNumber
  rw [lastYear] at hyearNumber
  set named := (front ++ month).rdropWhile (· ≠ '年') with hnamed
  have hne : named ≠ [] := by
    intro hnil
    rw [hnil] at hyearNumber
    exact hyear hyearNumber.symm
  have hlast : named.getLast hne = '年' := by
    by_contra hother
    exact List.rdropWhile_last_not _ (front ++ month) hne (decide_eq_true hother)
  obtain ⟨before, hbefore, hboundary⟩ := (rtakeWhile_eq_iff hyears).mp hyearNumber
  have hparts : named = before ++ year ++ ['年'] := by
    rw [← hbefore, ← hlast, List.dropLast_append_getLast]
  have hrest : ∀ a ∈ (front ++ month).rtakeWhile (· ≠ '年'), a ≠ '年' := by
    intro a ha
    simpa using List.mem_rtakeWhile_imp ha
  have hwhole : named ++ (front ++ month).rtakeWhile (· ≠ '年') = front ++ month :=
    List.rdropWhile_append_rtakeWhile
  rw [hparts] at hwhole
  generalize (front ++ month).rtakeWhile (· ≠ '年') = rest at hrest hwhole
  have hfree : ¬Joined (inNumber texts) before (year ++ ['年']) := by
    rintro ⟨a, ha, b, -, hab⟩
    rw [inNumber, hboundary a ha] at hab
    cases hab
  rcases List.append_eq_append_iff.mp hwhole with ⟨between, rfl, rfl⟩ | ⟨last, hends, rfl⟩
  · refine ⟨before, between, after, by simp, fun hin => ?_, hfree, ?_⟩
    · exact hrest '年' (List.mem_append_left _ hin) rfl
    · rintro ⟨a, ha, b, -, hab⟩
      have hdigit := hfront a (by rw [List.getLast?_append, ha]; rfl)
      rw [inNumber, hdigit] at hab
      cases hab
  · rcases List.eq_nil_or_concat last with rfl | ⟨init, mark, rfl⟩
    · rw [List.append_nil] at hends
      subst hends
      refine ⟨before, [], after, by simp, List.not_mem_nil, hfree, ?_⟩
      rintro ⟨a, ha, -⟩
      cases ha
    · have hsame := congrArg List.getLast? hends
      rw [List.concat_eq_append, ← List.append_assoc, List.getLast?_concat, List.getLast?_concat]
        at hsame
      exact absurd (Option.some.inj hsame).symm (ne_year_of_isDigit hmark (hmonths mark (by simp)))

/-- The month of a mentioned period is named under its year. -/
lemma mentionsMonth_iff (hmark : texts.isDigit '年' = false) (hyear : year ≠ [])
    (hmonth : month ≠ []) (hyears : ∀ a ∈ year, texts.isDigit a = true)
    (hmonths : ∀ a ∈ month, texts.isDigit a = true) :
    MentionsMonth texts text (year ++ ['年']) (month ++ ['月']) ↔
      NamesMonth texts text year month :=
  ⟨namesMonth_of_mentions hmark hyear hmonth hyears hmonths,
    mentionsMonth_of_names hmark hyear hyears hmonths⟩

end Occurrences

variable {texts : Texts} {question : String} {period : AnalysisTimeRange}

/-- A period is grounded when its characters are in the question, those of a month that is spelled
out in two parts. -/
lemma periodIsGrounded_iff : periodIsGrounded texts period question = true ↔
    match spelledMonth texts period with
    | some (year, month) =>
      year <:+: joinedKey texts question ∧ month <:+: joinedKey texts question
    | none => joinedKey texts period.text <:+: joinedKey texts question := by
  unfold periodIsGrounded spelledMonth
  dsimp only
  by_cases hmonth : period.granularity = .month
  · rw [if_pos hmonth, if_pos hmonth]
    cases hform : yearMonth? texts (joinedKey texts period.text) with
    | none =>
      rw [← occursIn_iff]
      split
      · next h => exact iff_of_true rfl h
      · next h => exact iff_of_false (by simp) h
    | some parts =>
      obtain ⟨year, month⟩ := parts
      dsimp only
      split
      · next h =>
        rw [occursIn_iff, (yearMonth?_some hform).1] at h
        have hyear : year <:+: joinedKey texts question :=
          (List.prefix_append year month).isInfix.trans h
        have hmonth : month <:+: joinedKey texts question :=
          (List.suffix_append year month).isInfix.trans h
        exact iff_of_true rfl ⟨hyear, hmonth⟩
      · rw [Option.any_some, Bool.and_eq_true, occursIn_iff, occursIn_iff]
  · rw [if_neg hmonth, if_neg hmonth, ← occursIn_iff]
    split
    · next h => exact iff_of_true rfl h
    · next h => exact iff_of_false (by simp) h

/-- The mention of a month that is spelled out. -/
lemma mentions_spelled {year month : List Char} (hmark : texts.isDigit '年' = false)
    (h : spelledMonth texts period = some (year, month)) :
    Mentions texts question period ↔
      NamesMonth texts (joinedKey texts question) year.dropLast month.dropLast := by
  obtain ⟨y, m, rfl, rfl, hy, hm, hys, hms⟩ := spelledMonth_some h
  unfold Mentions
  rw [h, List.dropLast_concat, List.dropLast_concat]
  exact mentionsMonth_iff hmark hy hm hys hms

/-- The metrics and the dimension of a comparison. -/
def salesCatalog : AnalysisSemanticCatalog where
  metricMatches := [(netSalesMetric, [netSalesMetric]), (quantityMetric, [quantityMetric])]
  dimensionMatches := [("产品", ["产品"])]

end ChatBI.Analysis
