import ChatBI.Semantic.Spans

/-!
# How time texts are spelled

A grammar of the texts that `_resolve_dates` knows, with the units that each of them names on a day.
It says how a text is spelled, and nothing of the patterns and of their order.
-/

namespace ChatBI.Semantic

open ChatBI.Lib

/-- A decimal numeral of one of the lengths. -/
structure Numeral (lengths : List Nat) (cs : List Char) (n : Nat) : Prop where
  length : cs.length ∈ lengths
  digits : AllDigits cs
  value : digitsValue cs = n

inductive SpellsDate : List Char → Nat → Nat → Nat → Prop
  | marked {ys ms ds mark : List Char} {y m d : Nat} (hy : Numeral [4] ys y)
      (hm : Numeral [1, 2] ms m) (hd : Numeral [1, 2] ds d) (hmark : mark ∈ [[], ['日']]) :
      SpellsDate (ys ++ '年' :: (ms ++ '月' :: (ds ++ mark))) y m d
  | separated {ys ms ds : List Char} {y m d : Nat} {s t : Char} (hy : Numeral [4] ys y)
      (hm : Numeral [1, 2] ms m) (hd : Numeral [1, 2] ds d) (hs : s ∈ ['-', '/'])
      (ht : t ∈ ['-', '/']) : SpellsDate (ys ++ s :: (ms ++ t :: ds)) y m d

inductive SpellsMonth : List Char → Nat → Nat → Prop
  | marked {ys ms mark : List Char} {y m : Nat} (hy : Numeral [4] ys y)
      (hm : Numeral [1, 2] ms m) (hmark : mark ∈ [[], ['月']]) :
      SpellsMonth (ys ++ '年' :: (ms ++ mark)) y m
  | separated {ys ms : List Char} {y m : Nat} {s : Char} (hy : Numeral [4] ys y)
      (hm : Numeral [1, 2] ms m) (hs : s ∈ ['-', '/']) : SpellsMonth (ys ++ s :: ms) y m

inductive SpellsQuarter : List Char → Nat → Nat → Prop
  | named {ys mark ordinal : List Char} {y n : Nat} {q : Char} (hy : Numeral [4] ys y)
      (hmark : mark ∈ [[], ['年']]) (hordinal : ordinal ∈ [[], ['第']])
      (hq : quarterNumber q = some n) :
      SpellsQuarter (ys ++ (mark ++ (ordinal ++ [q, '季', '度']))) y n
  | numbered {ys mark : List Char} {y n : Nat} {letter q : Char} (hy : Numeral [4] ys y)
      (hmark : mark ∈ [[], ['年']]) (hletter : letter ∈ ['Q', 'q']) (hdigit : q.isDigit = true)
      (hq : quarterNumber q = some n) : SpellsQuarter (ys ++ (mark ++ [letter, q])) y n

inductive SpellsYear : List Char → Nat → Prop
  | mk {ys mark : List Char} {y : Nat} (hy : Numeral [4] ys y) (hmark : mark ∈ [[], ['年']]) :
      SpellsYear (ys ++ mark) y

/-- A number of months: digits without a zero in front, or a Chinese numeral below a hundred. -/
inductive SpellsCount : List Char → Nat → Prop
  | digits {cs : List Char} (h : positiveDigits cs = true) (hlength : cs.length ≤ intMaxStrDigits) :
      SpellsCount cs (digitsValue cs)
  | ones {c : Char} {n : Nat} (h : chineseDigit c = some n) : SpellsCount [c] n
  | ten : SpellsCount ['十'] 10
  | teens {c : Char} {n : Nat} (h : chineseDigit c = some n) : SpellsCount ['十', c] (10 + n)
  | tens {c : Char} {n : Nat} (h : chineseDigit c = some n) : SpellsCount [c, '十'] (n * 10)
  | both {c c' : Char} {n n' : Nat} (h : chineseDigit c = some n) (h' : chineseDigit c' = some n') :
      SpellsCount [c, '十', c'] (n * 10 + n')

/-- The texts that name their units by the day of the query. -/
def relativeUnits (today : Date) : List (String × Span) :=
  let day : Int := today.toordinal
  let week : Int := day - today.weekday
  let month := monthNumber today
  let quarter := month / 3 * 3
  let year : Int := today.year
  [("今天", ⟨.day, day, day + 1⟩), ("昨日", ⟨.day, day - 1, day⟩), ("昨天", ⟨.day, day - 1, day⟩),
    ("前天", ⟨.day, day - 2, day - 1⟩), ("本周", ⟨.week, week, week + 7⟩),
    ("上周", ⟨.week, week - 7, week⟩), ("本月", ⟨.month, month, month + 1⟩),
    ("上月", ⟨.month, month - 1, month⟩), ("本季度", ⟨.quarter, quarter, quarter + 3⟩),
    ("上季度", ⟨.quarter, quarter - 3, quarter⟩), ("今年", ⟨.year, year, year + 1⟩),
    ("去年", ⟨.year, year - 1, year⟩)]

/-- The text spells the units of the span on the given day. -/
inductive Spells (today : Date) : List Char → Span → Prop
  | relative {text : List Char} {span : Span} (h : (String.ofList text, span) ∈ relativeUnits today) :
      Spells today text span
  | quarter {text : List Char} {y n : Nat} (h : SpellsQuarter text y n) :
      Spells today text ⟨.quarter, y * 12 + (n - 1) * 3, y * 12 + (n - 1) * 3 + 3⟩
  | recentDays {digits : List Char} (h : positiveDigits digits = true)
      (hlength : digits.length ≤ intMaxStrDigits) :
      Spells today ('最' :: '近' :: (digits ++ ['天']))
        ⟨.day, today.toordinal - (digitsValue digits - 1), today.toordinal + 1⟩
  | recentMonths {count : List Char} {n : Nat} (h : SpellsCount count n) :
      Spells today ('最' :: '近' :: (count ++ ['个', '月']))
        ⟨.month, monthNumber today - (n - 1), monthNumber today + 1⟩
  | range {first last : List Char} {y m d y' m' d' : Nat} {a b : Date} {s : Char}
      (hfirst : SpellsDate first y m d) (hlast : SpellsDate last y' m' d')
      (ha : Date.new? y m d = some a) (hb : Date.new? y' m' d' = some b) (hle : a ≤ b)
      (hs : s ∈ ['至', '到', '~']) :
      Spells today (first ++ s :: last) ⟨.day, a.toordinal, b.toordinal + 1⟩
  | date {text : List Char} {y m d : Nat} {a : Date} (h : SpellsDate text y m d)
      (ha : Date.new? y m d = some a) : Spells today text ⟨.day, a.toordinal, a.toordinal + 1⟩
  | month {text : List Char} {y m : Nat} (h : SpellsMonth text y m) (hm : 1 ≤ m ∧ m ≤ 12) :
      Spells today text ⟨.month, y * 12 + m - 1, y * 12 + m - 1 + 1⟩
  | year {text : List Char} {y : Nat} (h : SpellsYear text y) : Spells today text ⟨.year, y, y + 1⟩

/-! ### Numerals -/

section Numerals

variable {text rest ys ms mark : List Char} {y n : Nat} {c : Char}

lemma fourDigits_iff : fourDigits text = some (y, rest) ↔
    ∃ ys, Numeral [4] ys y ∧ text = ys ++ rest := by
  constructor
  · intro h
    unfold fourDigits at h
    split at h
    · next a b c d rest' =>
      split at h
      · next hdigits =>
        cases h
        exact ⟨[a, b, c, d], ⟨by simp, List.all_eq_true.mp hdigits, rfl⟩, rfl⟩
      · cases h
    · cases h
  · rintro ⟨ys, ⟨hlength, hdigits, rfl⟩, rfl⟩
    match ys, List.mem_singleton.mp hlength with
    | [a, b, c, d], _ =>
      change (if [a, b, c, d].all Char.isDigit = true then
        some (digitsValue [a, b, c, d], rest) else none) = _
      rw [if_pos (List.all_eq_true.mpr hdigits)]

/-- No digit follows. -/
def Ended (rest : List Char) : Prop := ∀ c ∈ rest.head?, c.isDigit = false

lemma oneOrTwoDigits_iff : oneOrTwoDigits text = some (n, rest) ↔
    ∃ ms, Numeral [1, 2] ms n ∧ text = ms ++ rest ∧ Ended rest := by
  unfold oneOrTwoDigits
  dsimp only
  constructor
  · intro h
    split at h
    · next hlength =>
      cases h
      refine ⟨text.takeWhile Char.isDigit, ⟨by simpa using hlength, ?_, rfl⟩,
        List.takeWhile_append_dropWhile.symm, ?_⟩
      · exact fun c hc => List.mem_takeWhile_imp hc
      · intro c hc
        have hhead := List.head?_dropWhile_not Char.isDigit text
        rw [Option.mem_def.mp hc] at hhead
        simpa using hhead
    · cases h
  · rintro ⟨ms, ⟨hlength, hdigits, rfl⟩, rfl, hended⟩
    have htake : (ms ++ rest).takeWhile Char.isDigit = ms := by
      rw [List.takeWhile_append_of_pos hdigits]
      cases rest with
      | nil => simp
      | cons c rest =>
        rw [List.takeWhile_cons_of_neg, List.append_nil]
        rw [hended c rfl]
        exact Bool.false_ne_true
    have hdrop : (ms ++ rest).dropWhile Char.isDigit = rest := by
      rw [List.dropWhile_append_of_pos hdigits]
      cases rest with
      | nil => rfl
      | cons c rest =>
        rw [List.dropWhile_cons_of_neg]
        rw [hended c rfl]
        exact Bool.false_ne_true
    rw [htake, hdrop, if_pos (by simpa using hlength)]

lemma skip_eq_nil_iff : skip c rest = [] ↔ rest ∈ [[], [c]] := by
  unfold skip
  split
  · simp
  · next c' rest' =>
    split
    · next h => simp [h]
    · next h => simp [h]

lemma ended_nil : Ended [] := by
  intro c hc
  cases hc

lemma ended_cons (h : c.isDigit = false) (rest : List Char) : Ended (c :: rest) := by
  intro c' hc'
  cases hc'
  exact h

/-- A mark that may be left out. -/
lemma ended_mark (h : c.isDigit = false) (hmark : mark ∈ [[], [c]]) : Ended mark := by
  rcases List.mem_pair.mp hmark with rfl | rfl
  · exact ended_nil
  · exact ended_cons h []

end Numerals

/-! ### The patterns -/

section Patterns

variable {text : List Char} {y m d n : Nat}

lemma date?_of_spells (h : SpellsDate text y m d) : date? text = some (y, m, d) := by
  cases h with
  | marked hy hm hd hmark =>
    have hrest := ended_mark (c := '日') rfl hmark
    refine Option.bind_eq_some_iff.mpr ⟨_, fourDigits_iff.mpr ⟨_, hy, rfl⟩, ?_⟩
    refine Option.bind_eq_some_iff.mpr
      ⟨_, oneOrTwoDigits_iff.mpr ⟨_, hm, rfl, ended_cons rfl _⟩, ?_⟩
    refine Option.bind_eq_some_iff.mpr ⟨_, oneOrTwoDigits_iff.mpr ⟨_, hd, rfl, hrest⟩, ?_⟩
    exact if_pos (skip_eq_nil_iff.mpr hmark)
  | separated hy hm hd hs ht =>
    have hday := oneOrTwoDigits_iff.mpr ⟨_, hd, (List.append_nil _).symm, ended_nil⟩
    have hmonth : ∀ {t : Char}, t ∈ ['-', '/'] → ∀ rest, Ended (t :: rest) := by
      intro t ht rest
      rcases List.mem_pair.mp ht with rfl | rfl <;> exact ended_cons rfl rest
    refine Option.bind_eq_some_iff.mpr ⟨_, fourDigits_iff.mpr ⟨_, hy, rfl⟩, ?_⟩
    rcases List.mem_pair.mp hs with rfl | rfl <;> rcases List.mem_pair.mp ht with rfl | rfl
    all_goals
      refine Option.bind_eq_some_iff.mpr ⟨_, oneOrTwoDigits_iff.mpr ⟨_, hm, rfl, hmonth ht _⟩, ?_⟩
      exact Option.bind_eq_some_iff.mpr ⟨_, hday, rfl⟩

lemma spells_of_date? (h : date? text = some (y, m, d)) : SpellsDate text y m d := by
  simp only [date?, Option.bind_eq_bind, Option.bind_eq_some_iff, Prod.exists] at h
  obtain ⟨y', rest, hyear, h⟩ := h
  obtain ⟨ys, hy, rfl⟩ := fourDigits_iff.mp hyear
  split at h
  case h_1 =>
    simp only [Option.bind_eq_some_iff, Prod.exists] at h
    obtain ⟨m', rest, hmonth, h⟩ := h
    obtain ⟨ms, hm, rfl, -⟩ := oneOrTwoDigits_iff.mp hmonth
    split at h
    · simp only [Option.bind_eq_some_iff, Prod.exists] at h
      obtain ⟨d', rest, hday, h⟩ := h
      obtain ⟨ds, hd, rfl, -⟩ := oneOrTwoDigits_iff.mp hday
      split at h
      · next hskip =>
        cases h
        exact .marked hy hm hd (skip_eq_nil_iff.mp hskip)
      · cases h
    · cases h
  case h_4 => cases h
  all_goals
    simp only [Option.bind_eq_some_iff, Prod.exists] at h
    obtain ⟨m', rest, hmonth, h⟩ := h
    obtain ⟨ms, hm, rfl, -⟩ := oneOrTwoDigits_iff.mp hmonth
    split at h
    case h_3 => cases h
    all_goals
      simp only [Option.bind_eq_some_iff, Prod.exists] at h
      obtain ⟨d', rest, hday, h⟩ := h
      obtain ⟨ds, hd, rfl, -⟩ := oneOrTwoDigits_iff.mp hday
      split at h
      · next hnil =>
        cases h
        rw [hnil, List.append_nil]
        exact .separated hy hm hd (by simp) (by simp)
      · cases h

lemma yearMonth?_of_spells (h : SpellsMonth text y m) : yearMonth? text = some (y, m) := by
  cases h with
  | marked hy hm hmark =>
    have hrest := ended_mark (c := '月') rfl hmark
    refine Option.bind_eq_some_iff.mpr ⟨_, fourDigits_iff.mpr ⟨_, hy, rfl⟩, ?_⟩
    refine Option.bind_eq_some_iff.mpr ⟨_, oneOrTwoDigits_iff.mpr ⟨_, hm, rfl, hrest⟩, ?_⟩
    exact if_pos (skip_eq_nil_iff.mpr hmark)
  | separated hy hm hs =>
    have hmonth := oneOrTwoDigits_iff.mpr ⟨_, hm, (List.append_nil _).symm, ended_nil⟩
    refine Option.bind_eq_some_iff.mpr ⟨_, fourDigits_iff.mpr ⟨_, hy, rfl⟩, ?_⟩
    rcases List.mem_pair.mp hs with rfl | rfl
    all_goals exact Option.bind_eq_some_iff.mpr ⟨_, hmonth, rfl⟩

lemma spells_of_yearMonth? (h : yearMonth? text = some (y, m)) : SpellsMonth text y m := by
  simp only [yearMonth?, Option.bind_eq_bind, Option.bind_eq_some_iff, Prod.exists] at h
  obtain ⟨y', rest, hyear, h⟩ := h
  obtain ⟨ys, hy, rfl⟩ := fourDigits_iff.mp hyear
  split at h
  case h_1 =>
    simp only [Option.bind_eq_some_iff, Prod.exists] at h
    obtain ⟨m', rest, hmonth, h⟩ := h
    obtain ⟨ms, hm, rfl, -⟩ := oneOrTwoDigits_iff.mp hmonth
    split at h
    · next hskip =>
      cases h
      exact .marked hy hm (skip_eq_nil_iff.mp hskip)
    · cases h
  case h_4 => cases h
  all_goals
    simp only [Option.bind_eq_some_iff, Prod.exists] at h
    obtain ⟨m', rest, hmonth, h⟩ := h
    obtain ⟨ms, hm, rfl, -⟩ := oneOrTwoDigits_iff.mp hmonth
    split at h
    · next hnil =>
      cases h
      rw [hnil, List.append_nil]
      exact .separated hy hm (by simp)
    · cases h

lemma year?_iff : year? text = some y ↔ SpellsYear text y := by
  constructor
  · intro h
    simp only [year?, Option.bind_eq_bind, Option.bind_eq_some_iff, Prod.exists] at h
    obtain ⟨y', rest, hyear, h⟩ := h
    obtain ⟨ys, hy, rfl⟩ := fourDigits_iff.mp hyear
    split at h
    · next hskip =>
      cases h
      exact ⟨hy, skip_eq_nil_iff.mp hskip⟩
    · cases h
  · rintro ⟨hy, hmark⟩
    refine Option.bind_eq_some_iff.mpr ⟨_, fourDigits_iff.mpr ⟨_, hy, rfl⟩, ?_⟩
    exact if_pos (skip_eq_nil_iff.mpr hmark)

lemma exists_mark (c : Char) (rest : List Char) : ∃ mark ∈ [[], [c]], rest = mark ++ skip c rest := by
  unfold skip
  split
  · exact ⟨[], by simp, rfl⟩
  · split
    · next h => exact ⟨[c], by simp, by rw [h]; rfl⟩
    · exact ⟨[], by simp, rfl⟩

lemma yearQuarter?_of_spells (h : SpellsQuarter text y n) : yearQuarter? text = some (y, n) := by
  cases h with
  | named hy hmark hordinal hq =>
    refine Option.bind_eq_some_iff.mpr ⟨_, fourDigits_iff.mpr ⟨_, hy, rfl⟩, ?_⟩
    unfold quarterNumber at hq
    rcases List.mem_pair.mp hmark with rfl | rfl <;> rcases List.mem_pair.mp hordinal with rfl | rfl
    all_goals split at hq <;> cases hq <;> rfl
  | numbered hy hmark hletter hdigit hq =>
    refine Option.bind_eq_some_iff.mpr ⟨_, fourDigits_iff.mpr ⟨_, hy, rfl⟩, ?_⟩
    unfold quarterNumber at hq
    rcases List.mem_pair.mp hmark with rfl | rfl <;> rcases List.mem_pair.mp hletter with rfl | rfl
    all_goals
      split at hq <;> cases hq
      -- the names that are no digits do not follow a Q
      all_goals first | rfl | cases hdigit

lemma spells_of_yearQuarter? (h : yearQuarter? text = some (y, n)) : SpellsQuarter text y n := by
  simp only [yearQuarter?, Option.bind_eq_bind, Option.bind_eq_some_iff, Prod.exists] at h
  obtain ⟨y', rest, hyear, h⟩ := h
  obtain ⟨ys, hy, rfl⟩ := fourDigits_iff.mp hyear
  obtain ⟨mark, hmark, hrest⟩ := exists_mark '年' rest
  rw [hrest]
  split at h
  case h_3 =>
    obtain ⟨ordinal, hordinal, hrest'⟩ := exists_mark '第' (skip '年' rest)
    split at h
    · next q hskip =>
      obtain ⟨n', hq, heq⟩ := Option.bind_eq_some_iff.mp h
      cases heq
      rw [hrest', hskip]
      exact .named hy hmark hordinal hq
    · cases h
  all_goals
    next q hskip =>
    split at h
    · next hdigit =>
      obtain ⟨n', hq, heq⟩ := Option.bind_eq_some_iff.mp h
      cases heq
      rw [hskip]
      exact .numbered hy hmark (by simp) hdigit hq
    · cases h

lemma recentDays?_iff {digits : {digits : List Char // positiveDigits digits}} :
    recentDays? text = some digits ↔ text = '最' :: '近' :: (digits.1 ++ ['天']) := by
  unfold recentDays?
  constructor
  · intro h
    split at h
    · next rest =>
      split at h
      · next hrest =>
        obtain ⟨front, rfl⟩ := hrest.1
        cases h
        simp
      · cases h
    · cases h
  · rintro rfl
    have hrest : ['天'] <:+ digits.1 ++ ['天'] ∧ positiveDigits (digits.1 ++ ['天']).dropLast := by
      rw [List.dropLast_concat]
      exact ⟨List.suffix_append _ _, digits.2⟩
    change (if h : _ then _ else _) = _
    rw [dif_pos hrest, Option.some.injEq]
    exact Subtype.ext List.dropLast_concat

/-- What `_RECENT_MONTHS_PATTERN` takes for a number. -/
def CountText (value : List Char) : Prop :=
  positiveDigits value ∨ value ≠ [] ∧ value.all (· ∈ chineseNumerals)

lemma recentMonths?_iff {value : List Char} :
    recentMonths? text = some value ↔
      text = '最' :: '近' :: (value ++ ['个', '月']) ∧ CountText value := by
  unfold recentMonths? CountText
  constructor
  · intro h
    split at h
    · next rest =>
      dsimp only at h
      split at h
      · next hrest =>
        obtain ⟨front, rfl⟩ := hrest.1
        have hdrop : (front ++ ['个', '月']).dropLast.dropLast = front := by simp
        rw [hdrop] at h hrest
        cases h
        exact ⟨rfl, hrest.2⟩
      · cases h
    · cases h
  · rintro ⟨rfl, hvalue⟩
    have hdrop : (value ++ ['个', '月']).dropLast.dropLast = value := by simp
    change (if ['个', '月'] <:+ value ++ ['个', '月'] ∧ _ then some _ else none) = _
    rw [hdrop, if_pos ⟨List.suffix_append _ _, hvalue⟩]

lemma allDigits_of_positiveDigits {value : List Char} (h : positiveDigits value = true) :
    value ≠ [] ∧ value.all Char.isDigit = true := by
  cases value with
  | nil => cases h
  | cons c cs =>
    unfold positiveDigits at h
    simp only [Bool.and_eq_true] at h
    exact ⟨List.cons_ne_nil c cs, by rw [List.all_cons, h.1.1, h.2]; rfl⟩

lemma isDigit_of_chineseDigit {c : Char} (h : chineseDigit c = some n) : c.isDigit = false := by
  unfold chineseDigit at h
  split at h <;> cases h <;> rfl

/-- A text that is no decimal numeral is looked up among the Chinese ones. -/
lemma not_allDigits {value : List Char} {c : Char} (hc : c ∈ value) (h : c.isDigit = false) :
    ¬(value ≠ [] ∧ value.all Char.isDigit = true) := by
  rintro ⟨-, hall⟩
  rw [List.all_eq_true.mp hall c hc] at h
  cases h

lemma parsePositiveNumber_of_spells {value : List Char} (h : SpellsCount value n) :
    parsePositiveNumber value = .ok (some n) := by
  unfold parsePositiveNumber
  cases h with
  | digits hpositive hlength =>
    have hint : intOf value = .ok (digitsValue value) := intOf_ok_iff.mpr ⟨hlength, rfl⟩
    rw [if_pos (allDigits_of_positiveDigits hpositive), hint]
    exact congrArg Except.ok (if_pos (digitsValue_pos hpositive))
  | @ones c _ hc =>
    rw [if_neg (not_allDigits List.mem_cons_self (isDigit_of_chineseDigit hc))]
    unfold chineseDigit at hc
    split at hc <;> cases hc <;> rfl
  | ten => rfl
  | @teens c n hc =>
    rw [if_neg (not_allDigits (c := '十') List.mem_cons_self rfl)]
    change Except.ok ((chineseDigit c).map (10 + ·)) = _
    rw [hc]
    rfl
  | @tens c n hc =>
    rw [if_neg (not_allDigits List.mem_cons_self (isDigit_of_chineseDigit hc))]
    unfold chineseDigit at hc
    split at hc <;> cases hc <;> rfl
  | @both c c' n n' hc hc' =>
    rw [if_neg (not_allDigits List.mem_cons_self (isDigit_of_chineseDigit hc))]
    have hfound : (chineseDigit c).bind (fun n => (chineseDigit c').map (n * 10 + ·)) =
        some (n * 10 + n') := by
      rw [hc, hc']
      rfl
    rw [← hfound]
    unfold chineseDigit at hc
    split at hc <;> cases hc <;> rfl

lemma spells_of_parsePositiveNumber {value : List Char} (hcount : CountText value)
    (h : parsePositiveNumber value = .ok (some n)) : SpellsCount value n := by
  unfold parsePositiveNumber at h
  split at h
  · next hdigits =>
    have hpositive : positiveDigits value = true := by
      refine hcount.resolve_right ?_
      rintro ⟨hne, hall⟩
      obtain ⟨c, hc⟩ := List.exists_mem_of_ne_nil value hne
      have hnone : chineseNumerals.all (fun c => !c.isDigit) = true := rfl
      have hmem : c ∈ chineseNumerals := of_decide_eq_true (List.all_eq_true.mp hall c hc)
      have hnumeral : (!c.isDigit) = true := List.all_eq_true.mp hnone c hmem
      exact not_allDigits hc (Bool.not_eq_true' _ ▸ hnumeral) hdigits
    obtain ⟨parsed, hparsed, h⟩ := except_bind_ok.mp h
    obtain ⟨hlength, rfl⟩ := intOf_ok_iff.mp hparsed
    have hpos : 0 < digitsValue value := digitsValue_pos hpositive
    rw [if_pos hpos] at h
    cases h
    exact .digits hpositive hlength
  · have hfound := Except.ok.inj h
    split at hfound
    · cases hfound
      exact .ten
    · split at hfound
      · obtain ⟨n', hn, rfl⟩ := Option.map_eq_some_iff.mp hfound
        exact .teens hn
      · cases hfound
    · obtain ⟨n', hn, rfl⟩ := Option.map_eq_some_iff.mp hfound
      exact .tens hn
    · obtain ⟨n', hn, hfound⟩ := Option.bind_eq_some_iff.mp hfound
      obtain ⟨n'', hn', rfl⟩ := Option.map_eq_some_iff.mp hfound
      exact .both hn hn'
    · exact .ones hfound
    · cases hfound

/-! ### Ranges -/

/-- A separator of a range. -/
def IsSeparator (c : Char) : Prop := c ∈ ['至', '到', '~']

instance : DecidablePred IsSeparator := fun c => inferInstanceAs (Decidable (c ∈ _))

lemma splitAtSeparator_append {front body last : List Char} {s : Char} (hs : IsSeparator s)
    (hbody : ∀ c ∈ body, ¬IsSeparator c) (hlast : last ≠ []) :
    splitAtSeparator front (body ++ s :: last) = some (front ++ body, last) := by
  induction body generalizing front with
  | nil =>
    obtain ⟨c, cs, rfl⟩ := List.exists_cons_of_ne_nil hlast
    rw [List.append_nil]
    exact if_pos hs
  | cons c body ih =>
    obtain ⟨hc, hbody⟩ := List.forall_mem_cons.mp hbody
    have hstep : splitAtSeparator front (c :: body ++ s :: last) =
        splitAtSeparator (front ++ [c]) (body ++ s :: last) := by
      cases body with
      | nil => exact if_neg hc
      | cons c' body => exact if_neg hc
    rw [hstep, ih hbody, List.append_assoc]
    rfl

lemma splitAtSeparator_some {front rest first last : List Char}
    (h : splitAtSeparator front rest = some (first, last)) :
    ∃ body, ∃ s, IsSeparator s ∧ rest = body ++ s :: last ∧ first = front ++ body := by
  induction rest generalizing front with
  | nil => cases h
  | cons c rest ih =>
    cases rest with
    | nil => cases h
    | cons c' rest =>
      by_cases hc : IsSeparator c
      · cases (if_pos hc).symm.trans h
        exact ⟨[], c, hc, rfl, (List.append_nil _).symm⟩
      · obtain ⟨body, s, hs, hrest, hfirst⟩ := ih ((if_neg hc).symm.trans h)
        refine ⟨c :: body, s, hs, ?_, ?_⟩
        · rw [hrest]
          rfl
        · rw [hfirst, List.append_assoc]
          rfl

lemma dateRange?_some {first last : List Char} (h : dateRange? text = some (first, last)) :
    ∃ s, IsSeparator s ∧ text = first ++ s :: last := by
  unfold dateRange? at h
  split at h
  · cases h
  · split at h
    · cases h
    · obtain ⟨body, s, hs, hrest, hfirst⟩ := splitAtSeparator_some h
      refine ⟨s, hs, ?_⟩
      rw [hrest, hfirst]
      rfl

lemma dateRange?_append {first last : List Char} {s : Char} (hs : IsSeparator s)
    (hfirst : ∀ c ∈ first, ¬IsSeparator c) (hne : first ≠ []) (hlast : last ≠ [])
    (hline : '\n' ∉ first ++ s :: last) : dateRange? (first ++ s :: last) = some (first, last) := by
  obtain ⟨c, body, rfl⟩ := List.exists_cons_of_ne_nil hne
  have hbody : ∀ c ∈ body, ¬IsSeparator c := fun c hc => hfirst c (List.mem_cons_of_mem _ hc)
  exact (if_neg hline).trans (splitAtSeparator_append hs hbody hlast)

/-! ### No text is spelled in two ways -/

/-- The characters of a date. -/
def IsDateChar (c : Char) : Prop := c.isDigit = true ∨ c ∈ ['年', '月', '日', '-', '/']

instance : DecidablePred IsDateChar := fun _ => inferInstanceAs (Decidable (_ ∨ _))

lemma Numeral.dateChars {lengths : List Nat} {cs : List Char} (h : Numeral lengths cs n) :
    ∀ c ∈ cs, IsDateChar c := fun c hc => .inl (h.digits c hc)

lemma dateChars_of_mark {c : Char} {mark : List Char} (hc : IsDateChar c)
    (hmark : mark ∈ [[], [c]]) : ∀ c ∈ mark, IsDateChar c := by
  intro c' hc'
  rcases List.mem_pair.mp hmark with rfl | rfl
  · cases hc'
  · rw [List.mem_singleton.mp hc']
    exact hc

lemma isDateChar_of_sign {s : Char} (hs : s ∈ ['-', '/']) : IsDateChar s := by
  rcases List.mem_pair.mp hs with rfl | rfl <;> exact .inr (by simp)

lemma SpellsDate.dateChars (h : SpellsDate text y m d) : ∀ c ∈ text, IsDateChar c := by
  cases h with
  | marked hy hm hd hmark =>
    simp only [List.forall_mem_append, List.forall_mem_cons]
    exact ⟨hy.dateChars, .inr (by simp), hm.dateChars, .inr (by simp), hd.dateChars,
      dateChars_of_mark (.inr (by simp)) hmark⟩
  | separated hy hm hd hs ht =>
    simp only [List.forall_mem_append, List.forall_mem_cons]
    exact ⟨hy.dateChars, isDateChar_of_sign hs, hm.dateChars, isDateChar_of_sign ht, hd.dateChars⟩

lemma SpellsMonth.dateChars (h : SpellsMonth text y m) : ∀ c ∈ text, IsDateChar c := by
  cases h with
  | marked hy hm hmark =>
    simp only [List.forall_mem_append, List.forall_mem_cons]
    exact ⟨hy.dateChars, .inr (by simp), hm.dateChars, dateChars_of_mark (.inr (by simp)) hmark⟩
  | separated hy hm hs =>
    simp only [List.forall_mem_append, List.forall_mem_cons]
    exact ⟨hy.dateChars, isDateChar_of_sign hs, hm.dateChars⟩

lemma SpellsYear.dateChars (h : SpellsYear text y) : ∀ c ∈ text, IsDateChar c := by
  obtain ⟨hy, hmark⟩ := h
  rw [List.forall_mem_append]
  exact ⟨hy.dateChars, dateChars_of_mark (.inr (by simp)) hmark⟩

/-- The text begins with a digit. -/
def StartsWithDigit (text : List Char) : Prop := ∃ c ∈ text.head?, c.isDigit = true

lemma Numeral.startsWithDigit {ys : List Char} (h : Numeral [4] ys y) (rest : List Char) :
    StartsWithDigit (ys ++ rest) := by
  obtain ⟨hlength, hdigits, -⟩ := h
  cases ys with
  | nil => cases List.mem_singleton.mp hlength
  | cons c ys => exact ⟨c, rfl, hdigits c List.mem_cons_self⟩

lemma SpellsDate.startsWithDigit (h : SpellsDate text y m d) : StartsWithDigit text := by
  cases h with
  | marked hy | separated hy => exact hy.startsWithDigit _

lemma SpellsMonth.startsWithDigit (h : SpellsMonth text y m) : StartsWithDigit text := by
  cases h with
  | marked hy | separated hy => exact hy.startsWithDigit _

lemma SpellsQuarter.startsWithDigit (h : SpellsQuarter text y n) : StartsWithDigit text := by
  cases h with
  | named hy | numbered hy => exact hy.startsWithDigit _

lemma SpellsYear.startsWithDigit (h : SpellsYear text y) : StartsWithDigit text := by
  obtain ⟨hy, hmark⟩ := h
  exact hy.startsWithDigit _

lemma StartsWithDigit.ne_nil (h : StartsWithDigit text) : text ≠ [] := by
  rintro rfl
  obtain ⟨c, hc, -⟩ := h
  cases hc

lemma StartsWithDigit.append (h : StartsWithDigit text) (rest : List Char) :
    StartsWithDigit (text ++ rest) := by
  obtain ⟨c, hc, hdigit⟩ := h
  refine ⟨c, ?_, hdigit⟩
  rw [List.head?_append, Option.mem_def.mp hc]
  rfl

lemma SpellsQuarter.bounds (h : SpellsQuarter text y n) : 1 ≤ n ∧ n ≤ 4 := by
  have hbounds : ∀ q, quarterNumber q = some n → 1 ≤ n ∧ n ≤ 4 := by
    intro q hq
    unfold quarterNumber at hq
    split at hq <;> cases hq <;> decide
  cases h with
  | named _ _ _ hq | numbered _ _ _ _ hq => exact hbounds _ hq

lemma SpellsCount.countText {count : List Char} (h : SpellsCount count n) : CountText count := by
  have hnumeral : ∀ {c : Char} {n : Nat}, chineseDigit c = some n → c ∈ chineseNumerals := by
    intro c n hc
    unfold chineseDigit at hc
    split at hc <;> cases hc <;> decide
  have hten : '十' ∈ chineseNumerals := by decide
  cases h with
  | digits h => exact .inl h
  | ones h => exact .inr ⟨List.cons_ne_nil _ _, by simp [hnumeral h]⟩
  | ten => exact .inr ⟨List.cons_ne_nil _ _, by decide⟩
  | teens h => exact .inr ⟨List.cons_ne_nil _ _, by simp [hnumeral h, hten]⟩
  | tens h => exact .inr ⟨List.cons_ne_nil _ _, by simp [hnumeral h, hten]⟩
  | both h h' => exact .inr ⟨List.cons_ne_nil _ _, by simp [hnumeral h, hnumeral h', hten]⟩

/-- A quarter has a character that no other text has. -/
lemma SpellsQuarter.exists_mark (h : SpellsQuarter text y n) :
    ∃ c ∈ text, ¬IsDateChar c ∧ ¬IsSeparator c := by
  cases h with
  | named => exact ⟨'度', by simp, by decide, by decide⟩
  | @numbered _ _ _ _ letter _ _ _ hletter =>
    refine ⟨letter, by simp, ?_⟩
    rcases List.mem_pair.mp hletter with rfl | rfl <;> exact ⟨by decide, by decide⟩

lemma date?_of_spellsMonth (h : SpellsMonth text y m) : date? text = none := by
  cases h with
  | @marked ys ms mark _ _ hy hm hmark =>
    have hyear : fourDigits (ys ++ '年' :: (ms ++ mark)) = some (y, '年' :: (ms ++ mark)) :=
      fourDigits_iff.mpr ⟨ys, hy, rfl⟩
    have hmonth : oneOrTwoDigits (ms ++ mark) = some (m, mark) :=
      oneOrTwoDigits_iff.mpr ⟨ms, hm, rfl, ended_mark (c := '月') rfl hmark⟩
    unfold date?
    rw [hyear]
    change (oneOrTwoDigits (ms ++ mark)).bind _ = none
    rw [hmonth]
    rcases List.mem_pair.mp hmark with rfl | rfl <;> rfl
  | @separated ys ms _ _ s hy hm hs =>
    have hyear : fourDigits (ys ++ s :: ms) = some (y, s :: ms) :=
      fourDigits_iff.mpr ⟨ys, hy, rfl⟩
    have hmonth := oneOrTwoDigits_iff.mpr ⟨ms, hm, (List.append_nil ms).symm, ended_nil⟩
    unfold date?
    rw [hyear]
    rcases List.mem_pair.mp hs with rfl | rfl
    all_goals
      change (oneOrTwoDigits ms).bind _ = none
      rw [hmonth]
      rfl

lemma date?_of_spellsYear (h : SpellsYear text y) : date? text = none ∧ yearMonth? text = none := by
  cases h with | @mk ys mark _ hy hmark
  have hyear : fourDigits (ys ++ mark) = some (y, mark) := fourDigits_iff.mpr ⟨ys, hy, rfl⟩
  unfold date? yearMonth?
  rw [hyear]
  rcases List.mem_pair.mp hmark with rfl | rfl <;> exact ⟨rfl, rfl⟩

end Patterns

/-! ### The form of a text -/

section Forms

variable {today : Date} {text : String} {span : Span} {form : TimeForm} {y m d n : Nat}

lemma mem_matchingForms (h : timeForm text = form) (hform : form ≠ .unknown) :
    some form ∈ matchingForms text := by
  unfold timeForm at h
  cases hfound : (matchingForms text).findSome? id with
  | none =>
    rw [hfound] at h
    exact absurd h.symm hform
  | some found =>
    rw [hfound] at h
    obtain ⟨option, hmem, hoption⟩ := List.exists_of_findSome?_eq_some hfound
    cases h
    exact (show option = some found from hoption) ▸ hmem

/-- Every text that is looked up has its own form. -/
lemma timeForm_relative : ∀ form ∈ relativeForms, timeForm form.1 = form.2 := by decide +kernel

lemma relativeUnits_eq (today : Date) : (relativeUnits today).map (Prod.map id some) =
    relativeForms.map (Prod.map id (TimeForm.span today)) := by
  simp only [relativeUnits, relativeForms, List.map_cons, List.map_nil, Prod.map_apply, id,
    TimeForm.span]
  norm_num
  omega

lemma mem_relativeUnits_iff : (text, span) ∈ relativeUnits today ↔
    ∃ form, (text, form) ∈ relativeForms ∧ form.span today = some span := by
  have hunits : (text, span) ∈ relativeUnits today ↔
      (text, some span) ∈ (relativeUnits today).map (Prod.map id some) := by
    simp
  rw [hunits, relativeUnits_eq, List.mem_map]
  constructor
  · rintro ⟨⟨text', form⟩, hmem, heq⟩
    obtain ⟨rfl, hspan⟩ := Prod.mk.inj heq
    exact ⟨form, hmem, hspan⟩
  · rintro ⟨form, hmem, hspan⟩
    exact ⟨(text, form), hmem, Prod.ext rfl hspan⟩

lemma find?_relativeForms (h : ∀ c ∈ text.toList.head?, c ∉ "今昨前本上去".toList) :
    relativeForms.find? (fun form => form.1 = text) = none := by
  have hall : relativeForms.all (fun form =>
      form.1.toList.head?.any fun c => decide (c ∈ "今昨前本上去".toList)) = true := by decide +kernel
  rw [List.find?_eq_none]
  intro form hform heq
  have hhead := List.all_eq_true.mp hall form hform
  rw [of_decide_eq_true heq] at hhead
  obtain ⟨c, hc, hmem⟩ := (Option.any_eq_true _ _).mp hhead
  exact h c hc (of_decide_eq_true hmem)

/-- A text that begins with a digit is no relative one, and no recent one. -/
lemma timeForm_of_startsWithDigit (h : StartsWithDigit text.toList) :
    timeForm text = ([(yearQuarter? text.toList).map fun (year, quarter) => .yearQuarter year quarter,
      (dateRange? text.toList).map fun (first, last) => .range first last,
      (date? text.toList).map fun (year, month, day) => .date year month day,
      (yearMonth? text.toList).map fun (year, month) => .yearMonth year month,
      (year? text.toList).map .year].findSome? id).getD .unknown := by
  obtain ⟨c, hc, hdigit⟩ := h
  have hrelative : relativeForms.find? (fun form => form.1 = text) = none := by
    apply find?_relativeForms
    intro c' hc'
    rw [Option.mem_unique hc' hc]
    intro hmem
    have hnone : "今昨前本上去".toList.all (fun c => !c.isDigit) = true := by decide +kernel
    have hno := List.all_eq_true.mp hnone c hmem
    rw [hdigit] at hno
    cases hno
  have hrecent : ∀ rest, text.toList ≠ '最' :: rest := by
    intro rest heq
    rw [heq] at hc
    cases hc
    cases hdigit
  have hdays : recentDays? text.toList = none := by
    rw [Option.eq_none_iff_forall_ne_some]
    exact fun digits hsome => hrecent _ (recentDays?_iff.mp hsome)
  have hmonths : recentMonths? text.toList = none := by
    rw [Option.eq_none_iff_forall_ne_some]
    exact fun value hsome => hrecent _ (recentMonths?_iff.mp hsome).1
  unfold timeForm matchingForms
  dsimp only
  rw [hrelative, hdays, hmonths]
  cases yearQuarter? text.toList with
  | none => rfl
  | some found => rfl

/-- A text that begins with 最 is neither looked up nor a quarter. -/
lemma timeForm_of_recent {rest : List Char} (h : text.toList = '最' :: rest) :
    timeForm text = (([(recentDays? text.toList).map .recentDays,
      (recentMonths? text.toList).map .recentMonths,
      (dateRange? text.toList).map fun (first, last) => .range first last,
      (date? text.toList).map fun (year, month, day) => .date year month day,
      (yearMonth? text.toList).map fun (year, month) => .yearMonth year month,
      (year? text.toList).map .year].findSome? id).getD .unknown) := by
  have hrelative : relativeForms.find? (fun form => form.1 = text) = none := by
    apply find?_relativeForms
    rw [h]
    rintro c ⟨rfl⟩
    decide +kernel
  have hquarter : yearQuarter? text.toList = none := by
    rw [Option.eq_none_iff_forall_ne_some]
    rintro ⟨y, n⟩ hsome
    obtain ⟨c, hc, hdigit⟩ := (spells_of_yearQuarter? hsome).startsWithDigit
    rw [h] at hc
    cases hc
    cases hdigit
  unfold timeForm matchingForms
  dsimp only
  rw [hrelative, hquarter]
  rfl

lemma yearQuarter?_eq_none {cs : List Char} (h : ∀ c ∈ cs, IsDateChar c ∨ IsSeparator c) :
    yearQuarter? cs = none := by
  rw [Option.eq_none_iff_forall_ne_some]
  rintro ⟨y, n⟩ hsome
  obtain ⟨c, hc, hdate, hseparator⟩ := (spells_of_yearQuarter? hsome).exists_mark
  exact (h c hc).elim hdate hseparator

lemma not_isSeparator {c : Char} (h : IsDateChar c) : ¬IsSeparator c := by
  intro hseparator
  have hnone : ['至', '到', '~'].all (fun c => !decide (IsDateChar c)) = true := by decide
  have hno := List.all_eq_true.mp hnone c hseparator
  rw [decide_eq_true h] at hno
  cases hno

lemma dateRange?_eq_none {cs : List Char} (h : ∀ c ∈ cs, IsDateChar c) : dateRange? cs = none := by
  rw [Option.eq_none_iff_forall_ne_some]
  rintro ⟨first, last⟩ hsome
  obtain ⟨s, hs, rfl⟩ := dateRange?_some hsome
  exact not_isSeparator (h s (by simp)) hs

/-- The forms of the days, months and years that are written out. -/
lemma timeForm_of_dateChars (hdigit : StartsWithDigit text.toList)
    (h : ∀ c ∈ text.toList, IsDateChar c) :
    timeForm text = ([(date? text.toList).map fun (year, month, day) => .date year month day,
      (yearMonth? text.toList).map fun (year, month) => .yearMonth year month,
      (year? text.toList).map .year].findSome? id).getD .unknown := by
  rw [timeForm_of_startsWithDigit hdigit, yearQuarter?_eq_none fun c hc => .inl (h c hc),
    dateRange?_eq_none h]
  rfl

/-- A number that `dayNumber?` finds is the number of a date of the calendar. -/
lemma dayNumber?_eq_some {found : Option (Nat × Nat × Nat)} {k : Int}
    (h : dayNumber? found = some k) : ∃ y m d, found = some (y, m, d) ∧
      ∃ a, Date.new? y m d = some a ∧ (a.toordinal : Int) = k := by
  unfold dayNumber? at h
  split at h
  · next y m d =>
    obtain ⟨a, ha, hk⟩ := Option.map_eq_some_iff.mp h
    exact ⟨y, m, d, rfl, a, ha, hk⟩
  · cases h

lemma dayNumber?_of_new? {a : Date} (h : Date.new? y m d = some a) :
    dayNumber? (some (y, m, d)) = some (a.toordinal : Int) := congrArg (Option.map _) h

lemma spells_of_span (htext : ∀ c ∈ text.toList, isSpace c = false)
    (hspan : (timeForm text).span today = some span) : Spells today text.toList span := by
  generalize hform : timeForm text = form at hspan
  have hmem := mem_matchingForms hform (by rintro rfl; cases hspan)
  simp only [matchingForms, List.mem_cons, List.not_mem_nil, or_false, @eq_comm _ (some form),
    Option.map_eq_some_iff, Prod.exists] at hmem
  obtain ⟨s, f, hfind, rfl⟩ | ⟨y, n, hfound, rfl⟩ | ⟨digits, hfound, rfl⟩ | ⟨value, hfound, rfl⟩ |
    ⟨first, last, hfound, rfl⟩ | ⟨y, m, d, hfound, rfl⟩ | ⟨y, m, hfound, rfl⟩ | ⟨y, hfound, rfl⟩ := hmem
  · have hs : s = text := by
      have hfound := List.find?_some hfind
      exact of_decide_eq_true hfound
    refine .relative ?_
    rw [String.ofList_toList, mem_relativeUnits_iff, ← hs]
    exact ⟨f, List.mem_of_find?_eq_some hfind, hspan⟩
  · simp only [TimeForm.span, Option.ite_none_right_eq_some, Option.some.injEq] at hspan
    obtain ⟨-, rfl⟩ := hspan
    exact .quarter (spells_of_yearQuarter? hfound)
  · simp only [TimeForm.span, Option.ite_none_right_eq_some, Option.some.injEq] at hspan
    obtain ⟨hlength, rfl⟩ := hspan
    rw [recentDays?_iff.mp hfound]
    exact .recentDays digits.2 hlength
  · obtain ⟨htext, hcount⟩ := recentMonths?_iff.mp hfound
    simp only [TimeForm.span] at hspan
    split at hspan
    · next n hparsed =>
      cases hspan
      rw [htext]
      exact .recentMonths (spells_of_parsePositiveNumber hcount hparsed)
    · cases hspan
  · obtain ⟨s, hs, heq⟩ := dateRange?_some hfound
    rw [heq, List.forall_mem_append, List.forall_mem_cons] at htext
    rw [heq]
    simp only [TimeForm.span, stripChars_of_forall htext.1, stripChars_of_forall htext.2.2] at hspan
    split at hspan
    · next k k' hk hk' =>
      obtain ⟨y, m, d, hdate, a, ha, rfl⟩ := dayNumber?_eq_some hk
      obtain ⟨y', m', d', hdate', b, hb, rfl⟩ := dayNumber?_eq_some hk'
      split at hspan
      · next hle =>
        cases hspan
        exact .range (spells_of_date? hdate) (spells_of_date? hdate') ha hb
          (Date.toordinal_le_iff.mp (Int.ofNat_le.mp hle)) hs
      · cases hspan
    · cases hspan
  · obtain ⟨k, hk, rfl⟩ := Option.map_eq_some_iff.mp hspan
    obtain ⟨_, _, _, heq, a, ha, rfl⟩ := dayNumber?_eq_some hk
    cases heq
    exact .date (spells_of_date? hfound) ha
  · simp only [TimeForm.span, Option.ite_none_right_eq_some, Option.some.injEq] at hspan
    obtain ⟨hm, rfl⟩ := hspan
    exact .month (spells_of_yearMonth? hfound) hm
  · cases hspan
    exact .year (year?_iff.mp hfound)

lemma span_of_spells (h : Spells today text.toList span)
    (htext : ∀ c ∈ text.toList, isSpace c = false) : (timeForm text).span today = some span := by
  generalize hcs : text.toList = cs at h htext
  cases h with
  | relative h =>
    rw [← hcs, String.ofList_toList] at h
    obtain ⟨form, hform, hspan⟩ := mem_relativeUnits_iff.mp h
    rw [timeForm_relative _ hform]
    exact hspan
  | @quarter _ y n h =>
    rw [timeForm_of_startsWithDigit (hcs ▸ h.startsWithDigit), hcs, yearQuarter?_of_spells h]
    have hn : 1 ≤ n ∧ n ≤ 4 := h.bounds
    exact if_pos hn
  | @recentDays digits h hlength =>
    have hfound : recentDays? ('最' :: '近' :: (digits ++ ['天'])) = some ⟨digits, h⟩ :=
      recentDays?_iff.mpr rfl
    rw [timeForm_of_recent hcs, hcs, hfound]
    exact if_pos hlength
  | @recentMonths count n h =>
    have hdays : recentDays? ('最' :: '近' :: (count ++ ['个', '月'])) = none := by
      rw [Option.eq_none_iff_forall_ne_some]
      intro digits hsome
      have hlast := congrArg (List.getLast? ∘ List.tail ∘ List.tail) (recentDays?_iff.mp hsome)
      simp at hlast
    rw [timeForm_of_recent hcs, hcs, hdays, recentMonths?_iff.mpr ⟨rfl, h.countText⟩]
    have hvalue := parsePositiveNumber_of_spells h
    change (TimeForm.recentMonths count).span today = _
    rw [TimeForm.span, hvalue]
  | @range first last y m d y' m' d' a b s hfirst hlast ha hb hle hs =>
    have hquarter : yearQuarter? (first ++ s :: last) = none := by
      apply yearQuarter?_eq_none
      simp only [List.forall_mem_append, List.forall_mem_cons]
      exact ⟨fun c hc => .inl (hfirst.dateChars c hc), .inr hs,
        fun c hc => .inl (hlast.dateChars c hc)⟩
    have hrange : dateRange? (first ++ s :: last) = some (first, last) := by
      apply dateRange?_append hs fun c hc => not_isSeparator (hfirst.dateChars c hc)
      · exact hfirst.startsWithDigit.ne_nil
      · exact hlast.startsWithDigit.ne_nil
      · intro hline
        cases htext _ hline
    rw [List.forall_mem_append, List.forall_mem_cons] at htext
    rw [timeForm_of_startsWithDigit (hcs ▸ hfirst.startsWithDigit.append _), hcs, hquarter, hrange]
    change (TimeForm.range first last).span today = _
    rw [TimeForm.span, stripChars_of_forall htext.1, stripChars_of_forall htext.2.2,
      date?_of_spells hfirst, date?_of_spells hlast, dayNumber?_of_new? ha, dayNumber?_of_new? hb]
    exact if_pos (Int.ofNat_le.mpr (Date.toordinal_le_iff.mpr hle))
  | date h ha =>
    rw [timeForm_of_dateChars (hcs ▸ h.startsWithDigit) (hcs ▸ h.dateChars), hcs, date?_of_spells h]
    change (dayNumber? _).map _ = _
    rw [dayNumber?_of_new? ha]
    rfl
  | month h hm =>
    rw [timeForm_of_dateChars (hcs ▸ h.startsWithDigit) (hcs ▸ h.dateChars), hcs,
      date?_of_spellsMonth h, yearMonth?_of_spells h]
    exact if_pos hm
  | year h =>
    obtain ⟨hdate, hmonth⟩ := date?_of_spellsYear h
    rw [timeForm_of_dateChars (hcs ▸ h.startsWithDigit) (hcs ▸ h.dateChars), hcs, hdate, hmonth,
      year?_iff.mpr h]
    rfl

/-- A text without spaces has the units that it spells. -/
theorem span_timeForm_iff (htext : ∀ c ∈ text.toList, isSpace c = false) :
    (timeForm text).span today = some span ↔ Spells today text.toList span :=
  ⟨spells_of_span htext, fun h => span_of_spells h htext⟩

end Forms

end ChatBI.Semantic
