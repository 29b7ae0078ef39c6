import ChatBI.Semantic.DateEdges

/-!
# The units that a time text names

A window is a run of days, weeks, months, quarters or years. Its first unit and the one behind it
are read off the text without any calendar date.
-/

namespace ChatBI.Semantic

open ChatBI.Lib

/-- The first of a run of units and the first one behind it: days and weeks by the number of
their first day, months and quarters by the number of their first month. -/
structure Span where
  unit : TimeGranularity
  first : Int
  stop : Int
  deriving DecidableEq

/-- The number of a date that is written out. -/
def dayNumber? : Option (Nat × Nat × Nat) → Option Int
  | some (y, month, day) => (Date.new? y month day).map fun d => (d.toordinal : Int)
  | none => none

/-- The units of a form on a given day, whether or not the calendar has them. -/
def TimeForm.span (today : Date) : TimeForm → Option Span
  | .relativeDay offset => some ⟨.day, today.toordinal + offset, today.toordinal + offset + 1⟩
  | .relativeWeek previous =>
    let first : Int := today.toordinal - today.weekday - if previous then 7 else 0
    some ⟨.week, first, first + 7⟩
  | .relativeMonth previous =>
    let first := monthNumber today - if previous then 1 else 0
    some ⟨.month, first, first + 1⟩
  | .relativeQuarter previous =>
    let first := monthNumber today / 3 * 3 - if previous then 3 else 0
    some ⟨.quarter, first, first + 3⟩
  | .relativeYear previous =>
    let first : Int := today.year - if previous then 1 else 0
    some ⟨.year, first, first + 1⟩
  | .yearQuarter y quarter =>
    let first : Int := y * 12 + (quarter - 1) * 3
    if 1 ≤ quarter ∧ quarter ≤ 4 then some ⟨.quarter, first, first + 3⟩ else none
  | .recentDays digits =>
    if digits.1.length ≤ intMaxStrDigits then
      some ⟨.day, today.toordinal - (digitsValue digits.1 - 1), today.toordinal + 1⟩
    else none
  | .recentMonths value =>
    match parsePositiveNumber value with
    | .ok (some months) => some ⟨.month, monthNumber today - (months - 1), monthNumber today + 1⟩
    | _ => none
  | .range first last =>
    match dayNumber? (date? (stripChars first)), dayNumber? (date? (stripChars last)) with
    | some first, some last => if first ≤ last then some ⟨.day, first, last + 1⟩ else none
    | _, _ => none
  | .date y month day => (dayNumber? (some (y, month, day))).map fun n => ⟨.day, n, n + 1⟩
  | .yearMonth y month =>
    let first : Int := y * 12 + month - 1
    if 1 ≤ month ∧ month ≤ 12 then some ⟨.month, first, first + 1⟩ else none
  | .year y => some ⟨.year, y, y + 1⟩
  | .unknown => none

/-- A date is the first day of a unit. -/
def IsFirst (d : Date) (number : Int) : TimeGranularity → Prop
  | .day | .week => (d.toordinal : Int) = number
  | .month | .quarter => monthNumber d = number ∧ d.day = 1
  | .year => (d.year : Int) = number ∧ d.month = 1 ∧ d.day = 1

/-- A window has the units of a span. -/
structure Span.Is (span : Span) (w : Window) : Prop where
  unit : span.unit = w.1
  first : IsFirst w.2.1 span.first w.1
  stop : IsFirst w.2.2 span.stop w.1

section First

variable {d e : Date} {m n : Int} {granularity : TimeGranularity}

lemma eq_of_monthNumber (h : monthNumber d = monthNumber e) (hday : d.day = e.day) : d = e := by
  have hd := d.hmonth
  have he := e.hmonth
  unfold monthNumber at h
  apply Date.ext <;> omega

/-- Dates of one unit are the first day of the same one exactly when they are the same. -/
lemma isFirst_inj (hd : IsFirst d m granularity) (he : IsFirst e n granularity) :
    d = e ↔ m = n := by
  constructor
  · rintro rfl
    cases granularity with
    | day => exact hd.symm.trans he
    | week => exact hd.symm.trans he
    | month => exact hd.1.symm.trans he.1
    | quarter => exact hd.1.symm.trans he.1
    | year => exact hd.1.symm.trans he.1
  · rintro rfl
    cases granularity with
    | day => exact Date.toordinal_inj.mp (Int.natCast_inj.mp (hd.trans he.symm))
    | week => exact Date.toordinal_inj.mp (Int.natCast_inj.mp (hd.trans he.symm))
    | month => exact eq_of_monthNumber (hd.1.trans he.1.symm) (hd.2.trans he.2.symm)
    | quarter => exact eq_of_monthNumber (hd.1.trans he.1.symm) (hd.2.trans he.2.symm)
    | year =>
      have hyear : d.year = e.year := Int.natCast_inj.mp (hd.1.trans he.1.symm)
      exact Date.ext hyear (hd.2.1.trans he.2.1.symm) (hd.2.2.trans he.2.2.symm)

/-- Windows are equal exactly when their spans are. -/
lemma Span.Is.eq_iff {span span' : Span} {w w' : Window} (h : span.Is w) (h' : span'.Is w')
    (hunit : w.1 = w'.1) : w = w' ↔ span = span' := by
  obtain ⟨granularity, start, stop⟩ := w
  obtain ⟨granularity', start', stop'⟩ := w'
  cases hunit
  obtain ⟨hu, hfirst, hstop⟩ := h
  obtain ⟨hu', hfirst', hstop'⟩ := h'
  obtain ⟨unit, first, last⟩ := span
  obtain ⟨unit', first', last'⟩ := span'
  cases hu
  cases hu'
  simp only [Prod.mk.injEq, Span.mk.injEq, true_and]
  exact and_congr (isFirst_inj hfirst hfirst') (isFirst_inj hstop hstop')

/-- The calendar has the unit: it goes from the first day of the year 1 to the last one of 9999. -/
def HasUnit (number : Int) : TimeGranularity → Prop
  | .day | .week => 1 ≤ number ∧ number ≤ Date.maxOrdinal
  | .month | .quarter => 12 ≤ number ∧ number ≤ maxMonth
  | .year => 1 ≤ number ∧ number ≤ 9999

lemma exists_toordinal_iff : (∃ d : Date, (d.toordinal : Int) = n) ↔ 1 ≤ n ∧ n ≤ Date.maxOrdinal := by
  constructor
  · rintro ⟨d, rfl⟩
    have hbounds := d.toordinal_bounds
    omega
  · rintro ⟨hlow, hhigh⟩
    refine ⟨Date.ofNumber n.toNat (by omega), ?_⟩
    rw [Date.toordinal_ofNumber]
    omega

/-- The first day of a month of the calendar. -/
lemma exists_firstOfMonth (year month : Nat) (hyear : 1 ≤ year ∧ year ≤ 9999)
    (hmonth : 1 ≤ month ∧ month ≤ 12) : ∃ d : Date, d.year = year ∧ d.month = month ∧ d.day = 1 :=
  ⟨⟨year, month, 1, hyear, hmonth, le_refl 1, Date.daysInMonth_pos⟩, rfl, rfl, rfl⟩

lemma exists_monthNumber_iff : (∃ d : Date, monthNumber d = n ∧ d.day = 1) ↔ 12 ≤ n ∧ n ≤ maxMonth := by
  unfold monthNumber maxMonth
  constructor
  · rintro ⟨d, rfl, -⟩
    have hyear := d.hyear
    have hmonth := d.hmonth
    omega
  · rintro ⟨hlow, hhigh⟩
    obtain ⟨d, hyear, hmonth, hday⟩ := exists_firstOfMonth (n / 12).toNat (n % 12 + 1).toNat
      (by omega) (by omega)
    exact ⟨d, by omega, hday⟩

lemma exists_isFirst_iff : (∃ d, IsFirst d n granularity) ↔ HasUnit n granularity := by
  cases granularity with
  | day | week => exact exists_toordinal_iff
  | month | quarter => exact exists_monthNumber_iff
  | year =>
    constructor
    · rintro ⟨d, rfl, -⟩
      have hyear := d.hyear
      exact ⟨by omega, by omega⟩
    · rintro ⟨hlow, hhigh⟩
      obtain ⟨d, hyear, hmonth, hday⟩ := exists_firstOfMonth n.toNat 1 (by omega) (by omega)
      exact ⟨d, by omega, hmonth, hday⟩

/-- The calendar has the units of a span. -/
structure Span.InCalendar (span : Span) : Prop where
  first : HasUnit span.first span.unit
  stop : HasUnit span.stop span.unit

lemma Span.exists_is_iff {span : Span} : (∃ w, span.Is w) ↔ span.InCalendar := by
  constructor
  · rintro ⟨w, hunit, hfirst, hstop⟩
    rw [← hunit] at hfirst hstop
    exact ⟨exists_isFirst_iff.mp ⟨_, hfirst⟩, exists_isFirst_iff.mp ⟨_, hstop⟩⟩
  · rintro ⟨hfirst, hstop⟩
    obtain ⟨start, hstart⟩ := exists_isFirst_iff.mpr hfirst
    obtain ⟨stop, hstop⟩ := exists_isFirst_iff.mpr hstop
    exact ⟨(span.unit, start, stop), rfl, hstart, hstop⟩

end First

section Resolution

variable {today start stop d : Date} {w : Window}

lemma plusDays_ok_iff {n : Int} :
    plusDays d n = .ok stop ↔ (stop.toordinal : Int) = d.toordinal + n := by
  rw [← Date.addDays_eq_some_iff]
  unfold plusDays
  cases d.addDays n with
  | some e => simp
  | none => simp

lemma newFirst_ok_iff {y month : Int} :
    newDate y month 1 = .ok d ↔ (d.year : Int) = y ∧ (d.month : Int) = month ∧ d.day = 1 := by
  constructor
  · exact newFirst_ok
  · intro h
    have hnew : Date.new? y month 1 = some d := Date.new?_eq_some_iff.mpr (by omega)
    unfold newDate
    rw [hnew]

lemma shiftMonth_ok_iff {n : Int} :
    shiftMonth d n = .ok stop ↔ monthNumber stop = monthNumber d + n ∧ stop.day = 1 := by
  have hmonth := stop.hmonth
  unfold shiftMonth
  dsimp only
  rw [newFirst_ok_iff]
  unfold monthNumber
  omega

lemma orCannotAnswer_ok_iff {α : Type} {message : String} {x : Except DateError α} {a : α} :
    orCannotAnswer message x = .ok a ↔ x = .ok a := by
  cases x with
  | ok a' => rfl
  | error e => simp [orCannotAnswer]

lemma intOf_ok_iff {digits : List Char} {n : Nat} :
    intOf digits = .ok n ↔ digits.length ≤ intMaxStrDigits ∧ digitsValue digits = n := by
  unfold intOf
  split
  · next h => rw [Except.ok.injEq, and_iff_right h]
  · next h => exact iff_of_false (by simp) fun hboth => h hboth.1

lemma dateFromMatch_ok_iff {y month day : Nat} :
    dateFromMatch y month day = .ok d ↔
      dayNumber? (some (y, month, day)) = some (d.toordinal : Int) := by
  unfold dateFromMatch dayNumber? newDate
  rw [orCannotAnswer_ok_iff]
  dsimp only
  cases Date.new? y month day with
  | some e => simp [Date.toordinal_inj]
  | none =>
    dsimp only
    split <;> simp

lemma parseAbsoluteDay_ok_iff {text : List Char} :
    parseAbsoluteDay text = .ok d ↔
      dayNumber? (date? (stripChars text)) = some (d.toordinal : Int) := by
  unfold parseAbsoluteDay
  cases date? (stripChars text) with
  | some found => exact dateFromMatch_ok_iff
  | none => exact iff_of_false (by simp) (by simp [dayNumber?])

/-- A window whose end is calculated from its start. -/
lemma calculated_iff {unit : TimeGranularity} {m n : Int} {first : Except DateError Date}
    {next : Date → Except DateError Date} (hfirst : ∀ d, first = .ok d ↔ IsFirst d m unit)
    (hnext : ∀ start d, IsFirst start m unit → (next start = .ok d ↔ IsFirst d n unit)) :
    (first >>= fun start => next start >>= fun stop => pure (unit, start, stop)) = .ok w ↔
      (Span.mk unit m n).Is w := by
  simp only [except_bind_ok, except_pure_ok]
  constructor
  · rintro ⟨start, hstart, stop, hstop, rfl⟩
    have hm := (hfirst start).mp hstart
    exact ⟨rfl, hm, (hnext start stop hm).mp hstop⟩
  · rintro ⟨hunit, hm, hn⟩
    obtain ⟨granularity, start, stop⟩ := w
    cases hunit
    exact ⟨start, (hfirst start).mpr hm, stop, (hnext start stop hm).mpr hn, rfl⟩

lemma span_some_iff {span : Span} : (∃ span', some span = some span' ∧ span'.Is w) ↔ span.Is w := by
  simp

lemma resolve_relativeDay (offset : Int) : (TimeForm.relativeDay offset).resolve today = .ok w ↔
    ∃ span, (TimeForm.relativeDay offset).span today = some span ∧ span.Is w := by
  rw [TimeForm.span, span_some_iff]
  apply calculated_iff
  · intro d
    exact plusDays_ok_iff
  · intro start d hstart
    rw [plusDays_ok_iff, hstart]
    rfl

lemma resolve_relativeWeek (previous : Bool) :
    (TimeForm.relativeWeek previous).resolve today = .ok w ↔
      ∃ span, (TimeForm.relativeWeek previous).span today = some span ∧ span.Is w := by
  rw [TimeForm.span, span_some_iff]
  have hnext : ∀ (m : Int) (start d : Date), IsFirst start m .week →
      (plusDays start 7 = .ok d ↔ IsFirst d (m + 7) .week) := by
    intro m start d hstart
    rw [plusDays_ok_iff, hstart]
    rfl
  cases previous with
  | false =>
    apply calculated_iff
    · intro d
      simp only [Bool.false_eq_true, if_false, sub_zero]
      exact plusDays_ok_iff
    · exact hnext _
  | true =>
    have hbounds := today.toordinal_bounds
    obtain ⟨current, hcurrent⟩ : ∃ d, plusDays today (-today.weekday) = .ok d := by
      have h := plusDays_calculated today (-today.weekday)
      generalize plusDays today (-today.weekday) = x at h
      cases h with
      | ok _ _ => exact ⟨_, rfl⟩
      | raised hc _ =>
        unfold Date.weekday at hc
        omega
    rw [TimeForm.resolve, hcurrent]
    apply calculated_iff
    · intro d
      rw [plusDays_ok_iff, plusDays_ok_iff.mp hcurrent]
      rfl
    · exact hnext _

/-- The first day of the month of a day. -/
lemma exists_currentMonth (today : Date) :
    ∃ d, newDate today.year today.month 1 = .ok d ∧ monthNumber d = monthNumber today := by
  have hyear := today.hyear
  have hmonth := today.hmonth
  have h := newFirst_calculated today.year today.month
  generalize newDate today.year today.month 1 = x at h
  cases h with
  | ok _ hd =>
    refine ⟨_, rfl, ?_⟩
    unfold monthNumber
    omega
  | raised hc _ => omega

/-- The first day of the quarter of a day. -/
lemma exists_currentQuarter (today : Date) :
    ∃ d, quarterStart today = .ok d ∧ monthNumber d = monthNumber today / 3 * 3 := by
  have hyear := today.hyear
  have hmonth := today.hmonth
  unfold quarterStart
  have h := newFirst_calculated today.year (((today.month : Int) - 1) / 3 * 3 + 1)
  generalize newDate today.year (((today.month : Int) - 1) / 3 * 3 + 1) 1 = x at h
  cases h with
  | ok _ hd =>
    refine ⟨_, rfl, ?_⟩
    unfold monthNumber
    omega
  | raised hc _ => omega

/-- A window of months from a calculated one on. -/
lemma calculatedMonths_iff {unit : TimeGranularity} {m n : Int} {first : Except DateError Date}
    (hunit : ∀ (d : Date) (m : Int), IsFirst d m unit ↔ monthNumber d = m ∧ d.day = 1)
    (hfirst : ∀ d, first = .ok d ↔ monthNumber d = m ∧ d.day = 1) :
    (first >>= fun start => shiftMonth start n >>= fun stop => pure (unit, start, stop)) = .ok w ↔
      (Span.mk unit m (m + n)).Is w := by
  apply calculated_iff
  · intro d
    rw [hfirst, hunit]
  · intro start d hstart
    rw [shiftMonth_ok_iff, hunit, ((hunit _ _).mp hstart).1]

lemma ok_iff_monthNumber {m : Int} (hm : monthNumber start = m) (hday : start.day = 1) :
    (.ok start : Except DateError Date) = .ok d ↔ monthNumber d = m ∧ d.day = 1 := by
  rw [Except.ok.injEq]
  constructor
  · rintro rfl
    exact ⟨hm, hday⟩
  · rintro ⟨hd, hd'⟩
    exact eq_of_monthNumber (hm.trans hd.symm) (hday.trans hd'.symm)

lemma shiftMonth_ok_iff_of_eq {m n : Int} (hm : monthNumber start = m) :
    shiftMonth start n = .ok d ↔ monthNumber d = m + n ∧ d.day = 1 := by
  rw [shiftMonth_ok_iff, hm]

lemma resolve_relativeMonth (previous : Bool) :
    (TimeForm.relativeMonth previous).resolve today = .ok w ↔
      ∃ span, (TimeForm.relativeMonth previous).span today = some span ∧ span.Is w := by
  obtain ⟨current, hcurrent, hnumber⟩ := exists_currentMonth today
  have hday := (newFirst_ok hcurrent).2.2
  rw [TimeForm.span, span_some_iff, TimeForm.resolve, hcurrent]
  cases previous with
  | false =>
    apply calculatedMonths_iff fun _ _ => Iff.rfl
    intro d
    rw [if_neg Bool.false_ne_true, sub_zero]
    exact ok_iff_monthNumber hnumber hday
  | true =>
    apply calculatedMonths_iff fun _ _ => Iff.rfl
    intro d
    exact shiftMonth_ok_iff_of_eq hnumber

lemma resolve_relativeQuarter (previous : Bool) :
    (TimeForm.relativeQuarter previous).resolve today = .ok w ↔
      ∃ span, (TimeForm.relativeQuarter previous).span today = some span ∧ span.Is w := by
  obtain ⟨current, hcurrent, hnumber⟩ := exists_currentQuarter today
  have hday := (newFirst_ok hcurrent).2.2
  rw [TimeForm.span, span_some_iff, TimeForm.resolve, hcurrent]
  cases previous with
  | false =>
    apply calculatedMonths_iff fun _ _ => Iff.rfl
    intro d
    rw [if_neg Bool.false_ne_true, sub_zero]
    exact ok_iff_monthNumber hnumber hday
  | true =>
    apply calculatedMonths_iff fun _ _ => Iff.rfl
    intro d
    exact shiftMonth_ok_iff_of_eq hnumber

/-- A year from its first day on. -/
lemma calculatedYear_iff {y : Int} {first : Except DateError Date}
    (hfirst : ∀ d, first = .ok d ↔ newDate y 1 1 = .ok d) :
    (first >>= fun start => newDate (y + 1) 1 1 >>= fun stop => pure (.year, start, stop)) = .ok w ↔
      (Span.mk .year y (y + 1)).Is w := by
  have hnew : ∀ (d : Date) (n : Int), newDate n 1 1 = .ok d ↔ IsFirst d n .year := by
    intro d n
    rw [newFirst_ok_iff]
    exact and_congr_right fun _ => and_congr_left' (by omega)
  apply calculated_iff
  · intro d
    rw [hfirst, hnew]
  · intro _ d _
    exact hnew d (y + 1)

lemma resolve_relativeYear (previous : Bool) :
    (TimeForm.relativeYear previous).resolve today = .ok w ↔
      ∃ span, (TimeForm.relativeYear previous).span today = some span ∧ span.Is w := by
  rw [TimeForm.span, span_some_iff]
  cases previous with
  | false =>
    rw [if_neg Bool.false_ne_true, sub_zero]
    exact calculatedYear_iff fun _ => Iff.rfl
  | true => exact calculatedYear_iff fun _ => Iff.rfl

lemma resolve_yearText (y : Nat) : (TimeForm.year y).resolve today = .ok w ↔
    ∃ span, (TimeForm.year y).span today = some span ∧ span.Is w := by
  rw [TimeForm.span, span_some_iff]
  exact calculatedYear_iff fun _ => orCannotAnswer_ok_iff

/-- The months of a year that is written out. -/
lemma calculatedYearMonth_iff {unit : TimeGranularity} {y month n : Int}
    (hunit : ∀ (d : Date) (m : Int), IsFirst d m unit ↔ monthNumber d = m ∧ d.day = 1)
    (hmonth : 1 ≤ month ∧ month ≤ 12) :
    (newDate y month 1 >>= fun start => shiftMonth start n >>= fun stop =>
      pure (unit, start, stop)) = .ok w ↔
        (Span.mk unit (y * 12 + month - 1) (y * 12 + month - 1 + n)).Is w := by
  apply calculatedMonths_iff hunit
  intro d
  have hd := d.hmonth
  rw [newFirst_ok_iff]
  unfold monthNumber
  omega

/-- A month that the calendar does not have. -/
lemma newFirst_ne_ok {y month : Int} (h : ¬(1 ≤ month ∧ month ≤ 12)) :
    newDate y month 1 ≠ .ok d := by
  intro hok
  have hd := d.hmonth
  have hmonth := (newFirst_ok hok).2.1
  omega

lemma resolve_yearQuarter (y quarter : Nat) : (TimeForm.yearQuarter y quarter).resolve today = .ok w ↔
    ∃ span, (TimeForm.yearQuarter y quarter).span today = some span ∧ span.Is w := by
  rw [TimeForm.resolve, TimeForm.span, orCannotAnswer_ok_iff]
  split
  · next h =>
    have hnumber : (y : Int) * 12 + (quarter - 1) * 3 = y * 12 + ((quarter - 1) * 3 + 1) - 1 := by
      omega
    rw [span_some_iff, hnumber]
    exact calculatedYearMonth_iff (fun _ _ => Iff.rfl) (by omega)
  · next h =>
    apply iff_of_false
    · intro hok
      obtain ⟨start, hstart, -⟩ := except_bind_ok.mp hok
      exact newFirst_ne_ok (by omega) hstart
    · simp

lemma resolve_yearMonth (y month : Nat) : (TimeForm.yearMonth y month).resolve today = .ok w ↔
    ∃ span, (TimeForm.yearMonth y month).span today = some span ∧ span.Is w := by
  rw [TimeForm.resolve, TimeForm.span, orCannotAnswer_ok_iff]
  split
  · next h =>
    rw [span_some_iff]
    exact calculatedYearMonth_iff (fun _ _ => Iff.rfl) (by omega)
  · next h =>
    apply iff_of_false
    · intro hok
      obtain ⟨start, hstart, -⟩ := except_bind_ok.mp hok
      exact newFirst_ne_ok (by omega) hstart
    · simp

lemma resolve_recentDays (digits : {digits : List Char // positiveDigits digits}) :
    (TimeForm.recentDays digits).resolve today = .ok w ↔
      ∃ span, (TimeForm.recentDays digits).span today = some span ∧ span.Is w := by
  rw [TimeForm.resolve, TimeForm.span]
  split
  · next h =>
    have hdays : intOf digits.1 = .ok (digitsValue digits.1) := intOf_ok_iff.mpr ⟨h, rfl⟩
    rw [span_some_iff, hdays]
    apply calculated_iff
    · intro d
      rw [orCannotAnswer_ok_iff]
      exact plusDays_ok_iff
    · intro _ d _
      exact plusDays_ok_iff
  · next h =>
    apply iff_of_false
    · intro hok
      obtain ⟨days, hdays, -⟩ := except_bind_ok.mp hok
      exact h (intOf_ok_iff.mp hdays).1
    · simp

lemma resolve_recentMonths (value : List Char) :
    (TimeForm.recentMonths value).resolve today = .ok w ↔
      ∃ span, (TimeForm.recentMonths value).span today = some span ∧ span.Is w := by
  obtain ⟨current, hcurrent, hnumber⟩ := exists_currentMonth today
  rw [TimeForm.resolve, TimeForm.span]
  cases parsePositiveNumber value with
  | error e =>
    apply iff_of_false
    · intro hok
      cases hok
    · simp
  | ok found =>
    cases found with
    | none =>
      apply iff_of_false
      · intro hok
        cases hok
      · simp
    | some months =>
      change orCannotAnswer _ _ = .ok w ↔ _
      rw [orCannotAnswer_ok_iff, span_some_iff, hcurrent]
      apply calculated_iff
      · intro d
        exact shiftMonth_ok_iff_of_eq hnumber
      · intro _ d _
        exact shiftMonth_ok_iff_of_eq hnumber

lemma resolve_date (y month day : Nat) : (TimeForm.date y month day).resolve today = .ok w ↔
    ∃ span, (TimeForm.date y month day).span today = some span ∧ span.Is w := by
  rw [TimeForm.resolve, TimeForm.span]
  cases hnumber : dayNumber? (some (y, month, day)) with
  | none =>
    apply iff_of_false
    · intro hok
      obtain ⟨start, hstart, -⟩ := except_bind_ok.mp hok
      rw [dateFromMatch_ok_iff, hnumber] at hstart
      cases hstart
    · simp
  | some n =>
    rw [Option.map_some, span_some_iff]
    apply calculated_iff
    · intro d
      rw [dateFromMatch_ok_iff, hnumber, Option.some.injEq]
      exact eq_comm
    · intro start d hstart
      rw [plusDays_ok_iff, hstart]
      rfl

/-- A text that is no date has no number. -/
lemma dayNumber?_eq_none {text : List Char} {e : DateError} (h : parseAbsoluteDay text = .error e) :
    dayNumber? (date? (stripChars text)) = none := by
  cases hfound : date? (stripChars text) with
  | none => rfl
  | some found =>
    obtain ⟨y, month, day⟩ := found
    unfold dayNumber?
    rw [Option.map_eq_none_iff]
    by_contra hsome
    obtain ⟨d, hd⟩ := Option.ne_none_iff_exists'.mp hsome
    have hok : parseAbsoluteDay text = .ok d := by
      rw [parseAbsoluteDay_ok_iff, hfound]
      unfold dayNumber?
      dsimp only
      rw [hd, Option.map_some]
    rw [h] at hok
    cases hok

lemma resolve_range (first last : List Char) : (TimeForm.range first last).resolve today = .ok w ↔
    ∃ span, (TimeForm.range first last).span today = some span ∧ span.Is w := by
  rw [TimeForm.resolve, TimeForm.span]
  cases hfirst : parseAbsoluteDay first with
  | error e =>
    rw [dayNumber?_eq_none hfirst]
    apply iff_of_false
    · intro hok
      cases hok
    · simp
  | ok start =>
    rw [parseAbsoluteDay_ok_iff.mp hfirst]
    cases hlast : parseAbsoluteDay last with
    | error e =>
      rw [dayNumber?_eq_none hlast]
      apply iff_of_false
      · intro hok
        cases hok
      · simp
    | ok d =>
      rw [parseAbsoluteDay_ok_iff.mp hlast]
      change (plusDays d 1 >>= fun stop =>
        require (start ≤ d) (.cannotAnswer "日期区间的开始日期晚于结束日期" "DATE_RANGE_REVERSED") >>=
          fun _ => pure (.day, start, stop)) = .ok w ↔ _
      have hnumbers : (start.toordinal : Int) ≤ d.toordinal ↔ start ≤ d :=
        Int.ofNat_le.trans Date.toordinal_le_iff
      simp only [hnumbers]
      unfold require
      split
      · rw [span_some_iff]
        change (.ok start >>= fun start => plusDays d 1 >>= fun stop =>
          pure (.day, start, stop)) = .ok w ↔ _
        apply calculated_iff
        · intro d'
          rw [Except.ok.injEq, ← Date.toordinal_inj]
          exact eq_comm.trans Int.natCast_inj.symm
        · intro _ d' _
          exact plusDays_ok_iff
      · apply iff_of_false
        · intro hok
          obtain ⟨stop, -, hok⟩ := except_bind_ok.mp hok
          cases hok
        · simp

end Resolution

/-- A form resolves to the windows of its units, where the calendar has them. -/
theorem TimeForm.resolve_ok_iff {form : TimeForm} {today : Date} {w : Window} :
    form.resolve today = .ok w ↔ ∃ span, form.span today = some span ∧ span.Is w := by
  cases form with
  | relativeDay offset => exact resolve_relativeDay offset
  | relativeWeek previous => exact resolve_relativeWeek previous
  | relativeMonth previous => exact resolve_relativeMonth previous
  | relativeQuarter previous => exact resolve_relativeQuarter previous
  | relativeYear previous => exact resolve_relativeYear previous
  | yearQuarter y quarter => exact resolve_yearQuarter y quarter
  | recentDays digits => exact resolve_recentDays digits
  | recentMonths value => exact resolve_recentMonths value
  | range first last => exact resolve_range first last
  | date y month day => exact resolve_date y month day
  | yearMonth y month => exact resolve_yearMonth y month
  | year y => exact resolve_yearText y
  | unknown =>
    apply iff_of_false
    · intro hok
      cases hok
    · rintro ⟨span, hspan, -⟩
      cases hspan

end ChatBI.Semantic
