import ChatBI.Semantic.DateEdges

/-!
# Windows that tile time

The periods of a granularity are numbered, and a window of `_resolve_dates` runs from the first day
of one period up to the first day of another.
-/

namespace ChatBI.Semantic

open ChatBI.Lib

/-- The number of the period that a day is in. -/
def periodNumber : TimeGranularity → Date → Int
  | .day, d => d.toordinal
  | .week, d => ((d.toordinal : Int) - 1) / 7
  | .month, d => monthNumber d
  | .quarter, d => monthNumber d / 3
  | .year, d => d.year

/-- The first day of a period. -/
def Begins (granularity : TimeGranularity) (d : Date) (n : Int) : Prop :=
  ∀ e, d ≤ e ↔ n ≤ periodNumber granularity e

/-- The days of the window are those of the periods from the first number to the last. -/
def Covers (granularity : TimeGranularity) (start stop : Date) (first last : Int) : Prop :=
  ∀ d, (start ≤ d ∧ d < stop) ↔
    first ≤ periodNumber granularity d ∧ periodNumber granularity d ≤ last

/-- A period is representable when one of its days is. -/
def Representable (granularity : TimeGranularity) (n : Int) : Prop :=
  ∃ d, periodNumber granularity d = n

section Periods

variable {granularity : TimeGranularity} {d e start stop : Date} {m n : Int}

lemma Begins.unique (hd : Begins granularity d n) (he : Begins granularity e n) : d = e := by
  apply le_antisymm
  · apply (hd e).mpr
    exact (he e).mp (le_refl e)
  · apply (he d).mpr
    exact (hd d).mp (le_refl d)

lemma Begins.covers (hstart : Begins granularity start m) (hstop : Begins granularity stop (n + 1)) :
    Covers granularity start stop m n := by
  intro d
  rw [hstart d, ← not_le, hstop d]
  omega

lemma begins_day (d : Date) : Begins .day d d.toordinal := by
  intro e
  rw [← Date.toordinal_le_iff]
  exact Int.ofNat_le.symm

lemma begins_week (h : (d.toordinal : Int) = 7 * n + 1) : Begins .week d n := by
  intro e
  rw [← Date.toordinal_le_iff]
  change _ ↔ n ≤ ((e.toordinal : Int) - 1) / 7
  omega

lemma begins_month (h : d.day = 1) : Begins .month d (monthNumber d) := by
  intro e
  have hd := d.hmonth
  have he := e.hmonth
  have hday := e.hday.1
  have hday' := e.hday.2.trans Date.daysInMonth_le
  rw [Date.le_iff]
  change _ ↔ (d.year * 12 + d.month - 1 : Int) ≤ e.year * 12 + e.month - 1
  unfold Date.key
  omega

lemma begins_quarter (h : d.day = 1) (hn : monthNumber d = 3 * n) : Begins .quarter d n := by
  intro e
  rw [begins_month h e, hn]
  change _ ↔ n ≤ monthNumber e / 3
  change _ ≤ monthNumber e ↔ _
  omega

lemma begins_year (h : d.day = 1) (hmonth : d.month = 1) : Begins .year d d.year := by
  intro e
  rw [begins_month h e]
  change _ ≤ monthNumber e ↔ (d.year : Int) ≤ e.year
  have he := e.hmonth
  unfold monthNumber
  omega

lemma monthNumber_bounds (d : Date) : 12 ≤ monthNumber d ∧ monthNumber d ≤ maxMonth := by
  have hyear := d.hyear
  have hmonth := d.hmonth
  unfold monthNumber maxMonth
  omega

end Periods

/-! ### The calendar arithmetic -/

section Arithmetic

variable {c : Prop} {P : Date → Prop} {x : Except DateError Date}

lemma except_ok_bind {α β : Type} (a : α) (f : α → Except DateError β) :
    (Except.ok a >>= f) = f a := rfl

lemma Calculated.returns (h : Calculated c P x) (hc : c) : ∃ d, x = .ok d ∧ P d := by
  cases h with
  | @ok d _ hd => exact ⟨d, rfl, hd⟩
  | raised hnot _ => exact absurd hc hnot

lemma plusDays_returns {d : Date} {n : Int} (h : 1 ≤ d.toordinal + n)
    (h' : d.toordinal + n ≤ Date.maxOrdinal) :
    ∃ e, plusDays d n = .ok e ∧ (e.toordinal : Int) = d.toordinal + n :=
  (plusDays_calculated d n).returns ⟨h, h'⟩

lemma shiftMonth_returns {d : Date} {n : Int} (h : 12 ≤ monthNumber d + n)
    (h' : monthNumber d + n ≤ maxMonth) :
    ∃ e, shiftMonth d n = .ok e ∧ monthNumber e = monthNumber d + n ∧ e.day = 1 :=
  (shiftMonth_calculated d n).returns ⟨h, h'⟩

lemma newFirst_returns {year month : Int} (hyear : 1 ≤ year ∧ year ≤ 9999)
    (hmonth : 1 ≤ month ∧ month ≤ 12) :
    ∃ d, newDate year month 1 = .ok d ∧ (d.year : Int) = year ∧ (d.month : Int) = month ∧ d.day = 1 :=
  (newFirst_calculated year month).returns ⟨hyear, hmonth⟩

/-- The first day of the current month. -/
lemma monthStart_returns (today : Date) :
    ∃ d, newDate today.year today.month 1 = .ok d ∧ monthNumber d = monthNumber today ∧ d.day = 1 := by
  have hyear := today.hyear
  have hmonth := today.hmonth
  obtain ⟨d, hd, hy, hm, hday⟩ :=
    @newFirst_returns today.year today.month (by omega) (by omega)
  refine ⟨d, hd, ?_, hday⟩
  unfold monthNumber
  omega

/-- A shift only depends on the number of the month. -/
lemma shiftMonth_congr {d e : Date} {a b : Int} (h : monthNumber d + a = monthNumber e + b) :
    shiftMonth d a = shiftMonth e b := by
  unfold monthNumber at h
  unfold shiftMonth
  rw [h]

/-- Shifting by one number of months and then by another. -/
lemma shiftMonth_shiftMonth {d e : Date} {a : Int} (h : shiftMonth d a = .ok e) (b : Int) :
    shiftMonth e b = shiftMonth d (a + b) := by
  have hcalculated := shiftMonth_calculated d a
  rw [h] at hcalculated
  cases hcalculated with
  | ok _ hnumber =>
    apply shiftMonth_congr
    rw [hnumber.1, add_assoc]

end Arithmetic

/-! ### The current and the previous period -/

/-- The form of the text for the current or the previous period. -/
def relativeForm (previous : Bool) : TimeGranularity → TimeForm
  | .day => .relativeDay (if previous then -1 else 0)
  | .week => .relativeWeek previous
  | .month => .relativeMonth previous
  | .quarter => .relativeQuarter previous
  | .year => .relativeYear previous

/-- The texts for the previous and the current period. -/
def periodTexts : List (TimeGranularity × String × String) :=
  [(.week, "上周", "本周"), (.month, "上月", "本月"), (.quarter, "上季度", "本季度"),
    (.year, "去年", "今年")]

lemma timeForm_periodTexts : ∀ item ∈ periodTexts,
    timeForm item.2.1 = relativeForm true item.1 ∧ timeForm item.2.2 = relativeForm false item.1 := by
  decide +kernel

/-- The number of the period that a relative text asks for. -/
def relativeNumber (granularity : TimeGranularity) (previous : Bool) (today : Date) : Int :=
  periodNumber granularity today - if previous then 1 else 0

section Relative

variable {today : Date} {previous : Bool}

/-- The window of the form is a period. -/
def ResolvesTo (today : Date) (granularity : TimeGranularity) (form : TimeForm) (n : Int) : Prop :=
  ∃ start stop, form.resolve today = .ok (granularity, start, stop) ∧
    Begins granularity start n ∧ Begins granularity stop (n + 1)

lemma relativeWeek_steps : (TimeForm.relativeWeek previous).resolve today =
    plusDays today (-today.weekday) >>= fun current =>
      (if previous then plusDays current (-7) else .ok current) >>= fun start =>
        plusDays start 7 >>= fun stop => pure (.week, start, stop) := by
  rw [TimeForm.resolve]
  cases previous <;> rfl

lemma resolves_week (h : Representable .week (relativeNumber .week previous today))
    (hnext : Representable .week (relativeNumber .week previous today + 1)) :
    ResolvesTo today .week (.relativeWeek previous) (relativeNumber .week previous today) := by
  obtain ⟨d, hd⟩ := h
  obtain ⟨e, he⟩ := hnext
  have hdBounds := d.toordinal_bounds
  have heBounds := e.toordinal_bounds
  have htoday := today.toordinal_bounds
  change ((d.toordinal : Int) - 1) / 7 = (today.toordinal - 1) / 7 - if previous then 1 else 0 at hd
  change ((e.toordinal : Int) - 1) / 7 = (today.toordinal - 1) / 7 - (if previous then 1 else 0) + 1 at he
  have hweekday : (today.weekday : Int) = (today.toordinal - 1) % 7 := by
    unfold Date.weekday
    omega
  obtain ⟨monday, hmonday, hmondayOrdinal⟩ :=
    @plusDays_returns today (-today.weekday) (by omega) (by omega)
  have hstart : ∃ start, (if previous then plusDays monday (-7) else .ok monday) = .ok start ∧
      (start.toordinal : Int) = 7 * relativeNumber .week previous today + 1 := by
    cases previous with
    | false =>
      refine ⟨monday, rfl, ?_⟩
      change _ = 7 * (((today.toordinal : Int) - 1) / 7 - 0) + 1
      omega
    | true =>
      rw [if_pos rfl] at hd
      obtain ⟨start, hstart, hordinal⟩ := @plusDays_returns monday (-7) (by omega) (by omega)
      refine ⟨start, hstart, ?_⟩
      change _ = 7 * (((today.toordinal : Int) - 1) / 7 - 1) + 1
      omega
  obtain ⟨start, hstart, hordinal⟩ := hstart
  have hnumber : relativeNumber .week previous today =
      ((today.toordinal : Int) - 1) / 7 - if previous then 1 else 0 := rfl
  obtain ⟨stop, hstop, hstopOrdinal⟩ := @plusDays_returns start 7 (by omega) (by omega)
  refine ⟨start, stop, ?_, begins_week hordinal, begins_week (by omega)⟩
  rw [relativeWeek_steps, hmonday, except_ok_bind, hstart, except_ok_bind, hstop]
  rfl

lemma relativeMonth_steps : (TimeForm.relativeMonth previous).resolve today =
    newDate today.year today.month 1 >>= fun current =>
      (if previous then shiftMonth current (-1) else .ok current) >>= fun start =>
        shiftMonth start 1 >>= fun stop => pure (.month, start, stop) := by
  rw [TimeForm.resolve]
  cases previous <;> rfl

lemma resolves_month (h : Representable .month (relativeNumber .month previous today))
    (hnext : Representable .month (relativeNumber .month previous today + 1)) :
    ResolvesTo today .month (.relativeMonth previous) (relativeNumber .month previous today) := by
  obtain ⟨d, hd⟩ := h
  obtain ⟨e, he⟩ := hnext
  have hdBounds := monthNumber_bounds d
  have heBounds := monthNumber_bounds e
  change monthNumber d = _ at hd
  change monthNumber e = _ at he
  obtain ⟨current, hcurrent, hcurrentNumber, hcurrentDay⟩ := monthStart_returns today
  have hstart : ∃ start, (if previous then shiftMonth current (-1) else .ok current) = .ok start ∧
      monthNumber start = relativeNumber .month previous today ∧ start.day = 1 := by
    cases previous with
    | false => exact ⟨current, rfl, by rw [hcurrentNumber]; exact (sub_zero _).symm, hcurrentDay⟩
    | true =>
      have hnumber : relativeNumber .month true today = monthNumber today - 1 := rfl
      obtain ⟨start, hstart, hstartNumber, hday⟩ :=
        @shiftMonth_returns current (-1) (by omega) (by omega)
      exact ⟨start, hstart, by omega, hday⟩
  obtain ⟨start, hstart, hnumber, hday⟩ := hstart
  obtain ⟨stop, hstop, hstopNumber, hstopDay⟩ := @shiftMonth_returns start 1 (by omega) (by omega)
  refine ⟨start, stop, ?_, ?_, ?_⟩
  · rw [relativeMonth_steps, hcurrent, except_ok_bind, hstart, except_ok_bind, hstop]
    rfl
  · rw [← hnumber]
    exact begins_month hday
  · rw [← hnumber, ← hstopNumber]
    exact begins_month hstopDay

lemma quarterStart_returns (today : Date) :
    ∃ d, quarterStart today = .ok d ∧ monthNumber d = 3 * (monthNumber today / 3) ∧ d.day = 1 := by
  have hyear := today.hyear
  have hmonth := today.hmonth
  obtain ⟨d, hd, hy, hm, hday⟩ := @newFirst_returns today.year
    (((today.month : Int) - 1) / 3 * 3 + 1) (by omega) (by omega)
  refine ⟨d, hd, ?_, hday⟩
  unfold monthNumber
  omega

lemma relativeQuarter_steps : (TimeForm.relativeQuarter previous).resolve today =
    quarterStart today >>= fun current =>
      (if previous then shiftMonth current (-3) else .ok current) >>= fun start =>
        shiftMonth start 3 >>= fun stop => pure (.quarter, start, stop) := by
  rw [TimeForm.resolve]
  cases previous <;> rfl

lemma resolves_quarter (h : Representable .quarter (relativeNumber .quarter previous today))
    (hnext : Representable .quarter (relativeNumber .quarter previous today + 1)) :
    ResolvesTo today .quarter (.relativeQuarter previous) (relativeNumber .quarter previous today) := by
  obtain ⟨d, hd⟩ := h
  obtain ⟨e, he⟩ := hnext
  have hdBounds := monthNumber_bounds d
  have heBounds := monthNumber_bounds e
  change monthNumber d / 3 = _ at hd
  change monthNumber e / 3 = _ at he
  obtain ⟨current, hcurrent, hcurrentNumber, hcurrentDay⟩ := quarterStart_returns today
  have hstart : ∃ start, (if previous then shiftMonth current (-3) else .ok current) = .ok start ∧
      monthNumber start = 3 * relativeNumber .quarter previous today ∧ start.day = 1 := by
    cases previous with
    | false =>
      have hnumber : relativeNumber .quarter false today = monthNumber today / 3 := sub_zero _
      exact ⟨current, rfl, by rw [hcurrentNumber, hnumber], hcurrentDay⟩
    | true =>
      have hnumber : relativeNumber .quarter true today = monthNumber today / 3 - 1 := rfl
      obtain ⟨start, hstart, hstartNumber, hday⟩ :=
        @shiftMonth_returns current (-3) (by omega) (by omega)
      exact ⟨start, hstart, by omega, hday⟩
  obtain ⟨start, hstart, hnumber, hday⟩ := hstart
  have hmax : maxMonth = 119999 := rfl
  obtain ⟨stop, hstop, hstopNumber, hstopDay⟩ := @shiftMonth_returns start 3 (by omega) (by omega)
  refine ⟨start, stop, ?_, begins_quarter hday hnumber, begins_quarter hstopDay (by omega)⟩
  rw [relativeQuarter_steps, hcurrent, except_ok_bind, hstart, except_ok_bind, hstop]
  rfl

lemma resolves_year (h : Representable .year (relativeNumber .year previous today))
    (hnext : Representable .year (relativeNumber .year previous today + 1)) :
    ResolvesTo today .year (.relativeYear previous) (relativeNumber .year previous today) := by
  obtain ⟨d, hd⟩ := h
  obtain ⟨e, he⟩ := hnext
  have hdYear := d.hyear
  have heYear := e.hyear
  change (d.year : Int) = _ at hd
  change (e.year : Int) = _ at he
  have hy : (if previous then (today.year : Int) - 1 else today.year) =
      relativeNumber .year previous today := by
    cases previous with
    | false => exact (sub_zero _).symm
    | true => rfl
  obtain ⟨start, hstart, hstartYear, hstartMonth, hstartDay⟩ :=
    @newFirst_returns (relativeNumber .year previous today) 1 (by omega) (by omega)
  obtain ⟨stop, hstop, hstopYear, hstopMonth, hstopDay⟩ :=
    @newFirst_returns (relativeNumber .year previous today + 1) 1 (by omega) (by omega)
  refine ⟨start, stop, ?_, ?_, ?_⟩
  · rw [TimeForm.resolve, hy, hstart, except_ok_bind, hstop]
    rfl
  · rw [← hstartYear]
    exact begins_year hstartDay (by omega)
  · rw [← hstopYear]
    exact begins_year hstopDay (by omega)

/-- The text for a period resolves to it when it and the next one are representable. -/
lemma resolves_relative {granularity : TimeGranularity} (hday : granularity ≠ .day)
    (h : Representable granularity (relativeNumber granularity previous today))
    (hnext : Representable granularity (relativeNumber granularity previous today + 1)) :
    ResolvesTo today granularity (relativeForm previous granularity)
      (relativeNumber granularity previous today) := by
  cases granularity with
  | day => exact absurd rfl hday
  | week => exact resolves_week h hnext
  | month => exact resolves_month h hnext
  | quarter => exact resolves_quarter h hnext
  | year => exact resolves_year h hnext

end Relative

/-! ### The latest months and days -/

/-- The text asks for the latest months, by their number. -/
def AsksMonths (text : String) (n : ℕ) : Prop :=
  ∃ value, timeForm text = .recentMonths value ∧ parsePositiveNumber value = .ok (some n)

/-- The text asks for the latest days, by their number. -/
def AsksDays (text : String) (n : ℕ) : Prop :=
  ∃ digits, timeForm text = .recentDays digits ∧ digitsValue digits.1 = n

example : AsksMonths "最近十二个月" 12 := ⟨['十', '二'], by decide +kernel, by decide +kernel⟩

section Latest

variable {today : Date} {text : String} {n : ℕ}

lemma resolves_latestMonths (h : AsksMonths text n)
    (hfirst : Representable .month (monthNumber today - (n - 1)))
    (hnext : Representable .month (monthNumber today + 1)) :
    ∃ start stop, resolveDates text today = .ok (.month, start, stop) ∧
      Covers .month start stop (monthNumber today - (n - 1)) (monthNumber today) := by
  obtain ⟨value, hform, hparse⟩ := h
  obtain ⟨d, hd⟩ := hfirst
  obtain ⟨e, he⟩ := hnext
  have hdBounds := monthNumber_bounds d
  have heBounds := monthNumber_bounds e
  change monthNumber d = _ at hd
  change monthNumber e = _ at he
  have hpos : 1 ≤ n := parsePositiveNumber_pos hparse
  obtain ⟨current, hcurrent, hnumber, hday⟩ := monthStart_returns today
  obtain ⟨start, hstart, hstartNumber, hstartDay⟩ :=
    @shiftMonth_returns current (-((n : Int) - 1)) (by omega) (by omega)
  obtain ⟨stop, hstop, hstopNumber, hstopDay⟩ := @shiftMonth_returns current 1 (by omega) (by omega)
  refine ⟨start, stop, ?_, ?_⟩
  · rw [resolveDates, hform, TimeForm.resolve, hparse]
    change orCannotAnswer _ (newDate today.year today.month 1 >>= fun currentMonth =>
      shiftMonth currentMonth (-((n : Int) - 1)) >>= fun start =>
        shiftMonth currentMonth 1 >>= fun stop => pure (TimeGranularity.month, start, stop)) = _
    rw [hcurrent, except_ok_bind, hstart, except_ok_bind, hstop]
    rfl
  · have hfirst : monthNumber start = monthNumber today - (n - 1) := by omega
    have hlast : monthNumber stop = monthNumber today + 1 := by omega
    rw [← hfirst]
    apply (begins_month hstartDay).covers
    rw [← hlast]
    exact begins_month hstopDay

/-- A number without leading zeros is at least a power of ten. -/
lemma pow_length_le {digits : List Char} (h : positiveDigits digits) :
    10 ^ (digits.length - 1) ≤ digitsValue digits := by
  cases digits with
  | nil => cases h
  | cons d digits =>
    have hsingle : positiveDigits [d] := by
      unfold positiveDigits at h
      rw [Bool.and_eq_true] at h
      change (d.isDigit && decide (d ≠ '0') && [].all Char.isDigit) = true
      rw [h.1]
      rfl
    have hpos : 1 ≤ Nat.ofDigitChars 10 [d] 0 := digitsValue_pos hsingle
    have hsplit : digitsValue (d :: digits) =
        10 ^ digits.length * Nat.ofDigitChars 10 [d] 0 + Nat.ofDigitChars 10 digits 0 := by
      unfold digitsValue
      rw [Nat.ofDigitChars_cons, Nat.ofDigitChars_eq_ofDigitChars_zero, Nat.ofDigitChars_cons,
        Nat.ofDigitChars_nil]
    calc
      10 ^ digits.length = 10 ^ digits.length * 1 := (Nat.mul_one _).symm
      _ ≤ 10 ^ digits.length * Nat.ofDigitChars 10 [d] 0 := Nat.mul_le_mul_left _ hpos
      _ ≤ digitsValue (d :: digits) := by
        rw [hsplit]
        exact Nat.le_add_right _ _

lemma resolves_latestDays (h : AsksDays text n)
    (hfirst : Representable .day (today.toordinal - (n - 1)))
    (hnext : Representable .day (today.toordinal + 1)) :
    ∃ start stop, resolveDates text today = .ok (.day, start, stop) ∧
      Covers .day start stop (today.toordinal - (n - 1)) today.toordinal := by
  obtain ⟨digits, hform, rfl⟩ := h
  obtain ⟨d, hd⟩ := hfirst
  obtain ⟨e, he⟩ := hnext
  have hdBounds := d.toordinal_bounds
  have heBounds := e.toordinal_bounds
  have htoday := today.toordinal_bounds
  change (d.toordinal : Int) = _ at hd
  change (e.toordinal : Int) = _ at he
  have hpos := digitsValue_pos digits.2
  have hlength : digits.1.length ≤ intMaxStrDigits := by
    have hmax : Date.maxOrdinal = 3652059 := rfl
    have hvalue : 10 ^ (digits.1.length - 1) < 10 ^ 7 := by
      apply lt_of_le_of_lt (pow_length_le digits.2)
      omega
    have hshort := (Nat.pow_lt_pow_iff_right (by decide)).mp hvalue
    have hlimit : intMaxStrDigits = 4300 := rfl
    omega
  obtain ⟨start, hstart, hstartNumber⟩ :=
    @plusDays_returns today (-((digitsValue digits.1 : Int) - 1)) (by omega) (by omega)
  obtain ⟨stop, hstop, hstopNumber⟩ := @plusDays_returns today 1 (by omega) (by omega)
  refine ⟨start, stop, ?_, ?_⟩
  · rw [resolveDates, hform, TimeForm.resolve, intOf, if_pos hlength]
    change (orCannotAnswer _ (plusDays today (-((digitsValue digits.1 : Int) - 1))) >>= fun start =>
      plusDays today 1 >>= fun stop => pure (TimeGranularity.day, start, stop)) = _
    rw [hstart, hstop]
    rfl
  · have hfirst : (start.toordinal : Int) = today.toordinal - (digitsValue digits.1 - 1) := by omega
    rw [← hfirst]
    apply (begins_day start).covers
    rw [← hstopNumber]
    exact begins_day stop

end Latest

/-- The windows of the previous and of the current period follow each other, today lies in the
current one, the latest months and days are that many, and two shifts by months make one, wherever
what is asked for is representable. -/
theorem calendar_windows_tile (today : Date) :
    (∀ item ∈ periodTexts, Representable item.1 (periodNumber item.1 today - 1) →
      Representable item.1 (periodNumber item.1 today + 1) →
        ∃ before start stop, resolveDates item.2.1 today = .ok (item.1, before, start) ∧
          resolveDates item.2.2 today = .ok (item.1, start, stop) ∧ start ≤ today ∧ today < stop) ∧
    (∀ text n, AsksMonths text n → Representable .month (monthNumber today - (n - 1)) →
      Representable .month (monthNumber today + 1) →
        ∃ start stop, resolveDates text today = .ok (.month, start, stop) ∧
          Covers .month start stop (monthNumber today - (n - 1)) (monthNumber today)) ∧
    (∀ text n, AsksDays text n → Representable .day (today.toordinal - (n - 1)) →
      Representable .day (today.toordinal + 1) →
        ∃ start stop, resolveDates text today = .ok (.day, start, stop) ∧
          Covers .day start stop (today.toordinal - (n - 1)) today.toordinal) ∧
    ∀ d e a b, shiftMonth d a = .ok e → shiftMonth e b = shiftMonth d (a + b) := by
  refine ⟨?_, fun _ _ => resolves_latestMonths, fun _ _ => resolves_latestDays,
    fun d e a b h => shiftMonth_shiftMonth h b⟩
  intro item hitem hbefore hnext
  obtain ⟨granularity, previous, current⟩ := item
  obtain ⟨hprevious, hcurrent⟩ := timeForm_periodTexts _ hitem
  have hday : granularity ≠ .day := by
    rintro rfl
    revert hitem
    simp [periodTexts]
  have hnow : Representable granularity (periodNumber granularity today) := ⟨today, rfl⟩
  have hzero : relativeNumber granularity false today = periodNumber granularity today := sub_zero _
  have hone : relativeNumber granularity true today + 1 = periodNumber granularity today :=
    sub_add_cancel _ _
  obtain ⟨before, stop, hresolve, hfirst, hlast⟩ :=
    @resolves_relative today true granularity hday hbefore (by rw [hone]; exact hnow)
  obtain ⟨start, stop', hresolve', hfirst', hlast'⟩ :=
    @resolves_relative today false granularity hday (by rw [hzero]; exact hnow)
      (by rw [hzero]; exact hnext)
  rw [hone] at hlast
  rw [hzero] at hfirst' hlast'
  obtain rfl : stop = start := hlast.unique hfirst'
  refine ⟨before, stop, stop', ?_, ?_, ?_, ?_⟩
  · unfold resolveDates
    rw [hprevious]
    exact hresolve
  · unfold resolveDates
    rw [hcurrent]
    exact hresolve'
  · exact (hfirst' today).mpr (le_refl _)
  · rw [← not_le, hlast' today, not_le]
    exact lt_add_one _

/-- Ten thousand years forward and back: the month between is not representable. -/
theorem shift_leaves_calendar :
    ¬∀ (d : Date) (a b : Int), d.day = 1 →
      (shiftMonth d a >>= fun e => shiftMonth e b) = shiftMonth d (a + b) := by
  intro h
  have hshift := h ⟨2024, 1, 1, by decide, by decide, by decide⟩ 120000 (-120000) rfl
  have hleft : shiftMonth ⟨2024, 1, 1, by decide, by decide, by decide⟩ 120000 =
      .error .valueError := by decide +kernel
  have hright : shiftMonth ⟨2024, 1, 1, by decide, by decide, by decide⟩ (120000 + -120000) =
      .ok ⟨2024, 1, 1, by decide, by decide, by decide⟩ := by decide +kernel
  rw [hleft, hright] at hshift
  cases hshift

end ChatBI.Semantic
