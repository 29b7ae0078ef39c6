import ChatBI.Semantic.Dates

/-!
# The edges of the calendar

A time text resolves to a window with ends on its granularity, or cannot be answered; only at the
edges of the calendar, and for numbers that are too long to read, does another exception escape.
-/

namespace ChatBI.Semantic

open ChatBI.Lib

/-- A date begins a day, a week, a month, a quarter or a year. -/
def Aligned (d : Date) : TimeGranularity → Prop
  | .day => True
  | .week => d.weekday = 0
  | .month => d.day = 1
  | .quarter => d.day = 1 ∧ (d.month - 1) % 3 = 0
  | .year => d.day = 1 ∧ d.month = 1

/-- An exception that is not turned into a refusal. -/
def DateError.Escapes (e : DateError) : Prop := e = .valueError ∨ e = .overflowError

/-- A window with its ends on the granularity, or a refusal. -/
inductive WellResolved : Except DateError Window → Prop
  | window {granularity : TimeGranularity} {start stop : Date} (hlt : start < stop)
      (hstart : Aligned start granularity) (hstop : Aligned stop granularity) :
      WellResolved (.ok (granularity, start, stop))
  | refused (message reason : String) : WellResolved (.error (.cannotAnswer message reason))

/-- The months up to the one of a date, counted from year 0. -/
def monthNumber (d : Date) : Int := d.year * 12 + d.month - 1

/-- December 9999. -/
def maxMonth : Int := 119999

/-- The day at the edge. -/
def lastDay : Date := ⟨9999, 12, 31, by decide, by decide, by decide⟩

/-- The arithmetic of a form leaves the calendar, or reads a number that is too long, where no
handler turns the exception into a refusal. -/
def TimeForm.AtEdge (today : Date) : TimeForm → Prop
  | .relativeDay offset =>
    today.toordinal + offset < 1 ∨ Date.maxOrdinal < today.toordinal + offset + 1
  | .relativeWeek previous =>
    let start : Int := today.toordinal - today.weekday - if previous then 7 else 0
    start < 1 ∨ Date.maxOrdinal < start + 7
  | .relativeMonth previous =>
    let start := monthNumber today - if previous then 1 else 0
    start < 12 ∨ maxMonth < start + 1
  | .relativeQuarter previous =>
    let start := monthNumber today / 3 * 3 - if previous then 3 else 0
    start < 12 ∨ maxMonth < start + 3
  | .relativeYear previous =>
    let start : Int := today.year - if previous then 1 else 0
    start < 1 ∨ 9999 < start + 1
  | .recentDays digits =>
    intMaxStrDigits < digits.1.length ∨
      digitsValue digits.1 ≤ today.toordinal ∧ today.toordinal = Date.maxOrdinal
  | .recentMonths value =>
    (value ≠ [] ∧ value.all Char.isDigit) ∧ intMaxStrDigits < value.length
  | .range first last =>
    (∃ start, parseAbsoluteDay first = .ok start) ∧ parseAbsoluteDay last = .ok lastDay
  | .date y month day => y = 9999 ∧ month = 12 ∧ day = 31
  | .year y => y = 9999
  | .yearQuarter .. | .yearMonth .. | .unknown => False

/-- A calendar calculation: it succeeds exactly under a condition, and raises otherwise. -/
inductive Calculated (c : Prop) (P : Date → Prop) : Except DateError Date → Prop
  | ok {d : Date} (hc : c) (h : P d) : Calculated c P (.ok d)
  | raised {e : DateError} (hc : ¬c) (h : e.Escapes) : Calculated c P (.error e)

section Calculations

variable {c Q : Prop} {P : Date → Prop} {x : Except DateError Date} {d today : Date}
  {f : Date → Except DateError Window}

lemma not_wellResolved_of_escapes {e : DateError} (h : e.Escapes) : ¬WellResolved (.error e) := by
  intro hresolved
  cases hresolved with
  | refused message reason => rcases h with h | h <;> cases h

/-- A calculation whose exceptions escape. -/
lemma Calculated.wellResolved_bind (h : Calculated c P x)
    (hf : c → ∀ d, P d → (WellResolved (f d) ↔ Q)) : WellResolved (x >>= f) ↔ c ∧ Q := by
  cases h with
  | @ok d hc hd =>
    change WellResolved (f d) ↔ c ∧ Q
    rw [hf hc d hd, and_iff_right hc]
  | raised hc he =>
    exact iff_of_false (not_wellResolved_of_escapes he) fun hboth => hc hboth.1

/-- The last calculation of a form. -/
lemma Calculated.wellResolved_stop (h : Calculated c P x) {granularity : TimeGranularity}
    {start : Date} (hf : c → ∀ d, P d →
      start < d ∧ Aligned start granularity ∧ Aligned d granularity) :
    WellResolved (x >>= fun stop => pure (granularity, start, stop)) ↔ c := by
  have hiff : WellResolved (x >>= fun stop => pure (granularity, start, stop)) ↔ c ∧ True := by
    apply h.wellResolved_bind
    intro hc d hd
    obtain ⟨hlt, hstart, hstop⟩ := hf hc d hd
    exact iff_of_true (.window hlt hstart hstop) trivial
  rwa [and_true] at hiff

lemma newDate_calculated (year month day : Int) :
    Calculated (Date.new? year month day ≠ none) (fun d => Date.new? year month day = some d)
      (newDate year month day) := by
  unfold newDate
  cases h : Date.new? year month day with
  | some d => exact .ok (Option.some_ne_none d) rfl
  | none =>
    dsimp only
    split
    · exact .raised (not_not_intro rfl) (.inl rfl)
    · exact .raised (not_not_intro rfl) (.inr rfl)

lemma newFirst_calculated (year month : Int) :
    Calculated ((1 ≤ year ∧ year ≤ 9999) ∧ 1 ≤ month ∧ month ≤ 12)
      (fun d => (d.year : Int) = year ∧ (d.month : Int) = month ∧ d.day = 1)
      (newDate year month 1) := by
  have h := newDate_calculated year month 1
  generalize newDate year month 1 = x at h
  cases h with
  | @ok d hc hd =>
    rw [Ne, Date.new?_first_eq_none_iff, not_not] at hc
    obtain ⟨hyear, hmonth, hday⟩ := Date.new?_eq_some_iff.mp hd
    exact .ok hc ⟨hyear, hmonth, by omega⟩
  | raised hc he =>
    rw [not_not, Date.new?_first_eq_none_iff] at hc
    exact .raised hc he

lemma plusDays_calculated (d : Date) (n : Int) :
    Calculated (1 ≤ d.toordinal + n ∧ d.toordinal + n ≤ Date.maxOrdinal)
      (fun e => (e.toordinal : Int) = d.toordinal + n) (plusDays d n) := by
  unfold plusDays
  cases h : d.addDays n with
  | some e =>
    have he := Date.addDays_eq_some_iff.mp h
    have hbounds := e.toordinal_bounds
    exact .ok (by omega) he
  | none =>
    have hout := Date.addDays_eq_none_iff.mp h
    exact .raised (by omega) (.inr rfl)

lemma shiftMonth_calculated (d : Date) (offset : Int) :
    Calculated (12 ≤ monthNumber d + offset ∧ monthNumber d + offset ≤ maxMonth)
      (fun e => monthNumber e = monthNumber d + offset ∧ e.day = 1) (shiftMonth d offset) := by
  have h := newFirst_calculated ((monthNumber d + offset) / 12) ((monthNumber d + offset) % 12 + 1)
  unfold shiftMonth
  change Calculated _ _ (newDate ((monthNumber d + offset) / 12)
    ((monthNumber d + offset) % 12 + 1) 1)
  generalize monthNumber d + offset = n at h
  generalize newDate (n / 12) (n % 12 + 1) 1 = x at h
  unfold maxMonth
  cases h with
  | ok hc hd => exact .ok (by omega) ⟨by unfold monthNumber; omega, hd.2.2⟩
  | raised hc he => exact .raised (by omega) he

lemma lt_of_monthNumber {d e : Date} (h : monthNumber d < monthNumber e) : d < e := by
  have hd := d.hday.2.trans Date.daysInMonth_le
  have hm := d.hmonth
  have hm' := e.hmonth
  rw [Date.lt_iff]
  unfold Date.key
  unfold monthNumber at h
  omega

/-- A block whose exceptions are refusals. -/
lemma wellResolved_orCannotAnswer {message : String} {y : Except DateError Window}
    (h : ∀ w, y = .ok w → WellResolved (.ok w)) : WellResolved (orCannotAnswer message y) := by
  cases y with
  | ok w => exact h w rfl
  | error e => exact .refused _ _

end Calculations

section Forms

variable {today : Date}

/-- The days of a window that begins on a given day and ends some days later. -/
lemma wellResolved_days {granularity : TimeGranularity} {start : Date} {n : Nat} (hn : 1 ≤ n)
    (hstart : Aligned start granularity)
    (hstop : ∀ stop : Date, (stop.toordinal : Int) = start.toordinal + n →
      Aligned stop granularity) :
    WellResolved (plusDays start n >>= fun stop => pure (granularity, start, stop)) ↔
      (start.toordinal : Int) + n ≤ Date.maxOrdinal := by
  have hbounds := start.toordinal_bounds
  rw [(plusDays_calculated start n).wellResolved_stop]
  · omega
  · intro _ stop hd
    refine ⟨?_, hstart, hstop stop hd⟩
    rw [← Date.toordinal_lt_iff]
    omega

/-- The months of a window that begins with a given month. -/
lemma wellResolved_months {granularity : TimeGranularity} {start : Date} {n : Nat} (hn : 1 ≤ n)
    (hstart : Aligned start granularity)
    (hstop : ∀ stop : Date, monthNumber stop = monthNumber start + n → stop.day = 1 →
      Aligned stop granularity) :
    WellResolved (shiftMonth start n >>= fun stop => pure (granularity, start, stop)) ↔
      monthNumber start + n ≤ maxMonth := by
  have hyear := start.hyear
  have hmonth := start.hmonth
  rw [(shiftMonth_calculated start n).wellResolved_stop]
  · unfold monthNumber
    omega
  · intro _ stop hd
    refine ⟨lt_of_monthNumber ?_, hstart, hstop stop hd.1 hd.2⟩
    omega

lemma wellResolved_relativeDay (offset : Int) :
    WellResolved ((TimeForm.relativeDay offset).resolve today) ↔
      ¬(TimeForm.relativeDay offset).AtEdge today := by
  unfold TimeForm.resolve TimeForm.AtEdge
  rw [(plusDays_calculated today offset).wellResolved_bind
    (Q := (today.toordinal : Int) + offset + 1 ≤ Date.maxOrdinal)]
  · omega
  · intro _ start hstart
    rw [← hstart]
    exact wellResolved_days (le_refl 1) trivial fun _ _ => trivial

lemma weekday_add {d e : Date} {n : Int} (h : (e.toordinal : Int) = d.toordinal + n)
    (hn : n % 7 = 0) : e.weekday = d.weekday := by
  unfold Date.weekday
  omega

lemma wellResolved_relativeWeek (previous : Bool) :
    WellResolved ((TimeForm.relativeWeek previous).resolve today) ↔
      ¬(TimeForm.relativeWeek previous).AtEdge today := by
  have hbounds := today.toordinal_bounds
  have hmonday : 1 ≤ (today.toordinal : Int) - today.weekday := by
    unfold Date.weekday
    omega
  have hweek : ∀ start : Date, start.weekday = 0 →
      (WellResolved (plusDays start 7 >>= fun stop => pure (.week, start, stop)) ↔
        (start.toordinal : Int) + 7 ≤ Date.maxOrdinal) := by
    intro start hstart
    exact wellResolved_days (by decide : 1 ≤ 7) hstart fun stop hstop =>
      (weekday_add hstop rfl).trans hstart
  unfold TimeForm.resolve TimeForm.AtEdge
  cases previous with
  | false =>
    rw [(plusDays_calculated today (-today.weekday)).wellResolved_bind
      (Q := (today.toordinal : Int) - today.weekday + 7 ≤ Date.maxOrdinal)]
    · simp only [Bool.false_eq_true, if_false]
      omega
    · intro _ start hstart
      have hzero : start.weekday = 0 := by
        unfold Date.weekday at hstart ⊢
        omega
      change WellResolved (plusDays start 7 >>= fun stop => pure (.week, start, stop)) ↔ _
      rw [hweek start hzero]
      omega
  | true =>
    rw [(plusDays_calculated today (-today.weekday)).wellResolved_bind
      (Q := 1 ≤ (today.toordinal : Int) - today.weekday - 7 ∧
        (today.toordinal : Int) - today.weekday ≤ Date.maxOrdinal)]
    · simp only [if_true]
      omega
    · intro _ current hcurrent
      have hzero : current.weekday = 0 := by
        unfold Date.weekday at hcurrent ⊢
        omega
      have hbounds' := current.toordinal_bounds
      change WellResolved (plusDays current (-7) >>= fun start =>
        plusDays start 7 >>= fun stop => pure (.week, start, stop)) ↔ _
      rw [(plusDays_calculated current (-7)).wellResolved_bind (Q := True), and_true]
      · omega
      · intro _ start hstart
        rw [hweek start ((weekday_add hstart rfl).trans hzero)]
        exact iff_of_true (by omega) trivial

lemma wellResolved_relativeMonth (previous : Bool) :
    WellResolved ((TimeForm.relativeMonth previous).resolve today) ↔
      ¬(TimeForm.relativeMonth previous).AtEdge today := by
  have hyear := today.hyear
  have hmonth := today.hmonth
  have hwindow : ∀ start : Date, start.day = 1 →
      (WellResolved (shiftMonth start 1 >>= fun stop => pure (.month, start, stop)) ↔
        monthNumber start + 1 ≤ maxMonth) := by
    intro start hstart
    exact wellResolved_months (le_refl 1) hstart fun stop _ hstop => hstop
  have hcurrent : ∀ d : Date, (d.year : Int) = today.year ∧ (d.month : Int) = today.month ∧
      d.day = 1 → monthNumber d = monthNumber today := by
    intro d hd
    unfold monthNumber
    omega
  have hnumber : 12 ≤ monthNumber today ∧ monthNumber today ≤ maxMonth := by
    unfold monthNumber maxMonth
    omega
  unfold TimeForm.resolve TimeForm.AtEdge
  cases previous with
  | false =>
    rw [(newFirst_calculated today.year today.month).wellResolved_bind
      (Q := monthNumber today + 1 ≤ maxMonth)]
    · simp only [Bool.false_eq_true, if_false]
      omega
    · intro _ start hstart
      change WellResolved (shiftMonth start 1 >>= fun stop => pure (.month, start, stop)) ↔ _
      rw [hwindow start hstart.2.2, hcurrent start hstart]
  | true =>
    rw [(newFirst_calculated today.year today.month).wellResolved_bind
      (Q := 12 ≤ monthNumber today - 1)]
    · simp only [if_true]
      omega
    · intro _ current hd
      change WellResolved (shiftMonth current (-1) >>= fun start =>
        shiftMonth start 1 >>= fun stop => pure (.month, start, stop)) ↔ _
      rw [(shiftMonth_calculated current (-1)).wellResolved_bind (Q := True), and_true,
        hcurrent current hd]
      · omega
      · intro _ start hstart
        rw [hwindow start hstart.2, hstart.1, hcurrent current hd]
        exact iff_of_true (by omega) trivial

lemma wellResolved_relativeQuarter (previous : Bool) :
    WellResolved ((TimeForm.relativeQuarter previous).resolve today) ↔
      ¬(TimeForm.relativeQuarter previous).AtEdge today := by
  have hyear := today.hyear
  have hmonth := today.hmonth
  have hwindow : ∀ start : Date, start.day = 1 → monthNumber start % 3 = 0 →
      (WellResolved (shiftMonth start 3 >>= fun stop => pure (.quarter, start, stop)) ↔
        monthNumber start + 3 ≤ maxMonth) := by
    intro start hstart hquarter
    have haligned : ∀ d : Date, monthNumber d % 3 = 0 → d.day = 1 → Aligned d .quarter := by
      intro d hnumber hday
      have hm := d.hmonth
      unfold monthNumber at hnumber
      exact ⟨hday, by omega⟩
    apply wellResolved_months (by decide : 1 ≤ 3) (haligned start hquarter hstart)
    intro stop hstop hday
    exact haligned stop (by omega) hday
  have hcurrent : ∀ d : Date, (d.year : Int) = today.year ∧
      (d.month : Int) = ((today.month : Int) - 1) / 3 * 3 + 1 ∧ d.day = 1 →
        monthNumber d = monthNumber today / 3 * 3 := by
    intro d hd
    unfold monthNumber
    omega
  have hnumber : 12 ≤ monthNumber today / 3 * 3 ∧ monthNumber today / 3 * 3 ≤ maxMonth := by
    unfold monthNumber maxMonth
    omega
  unfold TimeForm.resolve TimeForm.AtEdge quarterStart
  cases previous with
  | false =>
    rw [(newFirst_calculated today.year (((today.month : Int) - 1) / 3 * 3 + 1)).wellResolved_bind
      (Q := monthNumber today / 3 * 3 + 3 ≤ maxMonth)]
    · simp only [Bool.false_eq_true, if_false]
      omega
    · intro _ start hstart
      have hstartNumber := hcurrent start hstart
      change WellResolved (shiftMonth start 3 >>= fun stop => pure (.quarter, start, stop)) ↔ _
      rw [hwindow start hstart.2.2 (by omega), hstartNumber]
  | true =>
    rw [(newFirst_calculated today.year (((today.month : Int) - 1) / 3 * 3 + 1)).wellResolved_bind
      (Q := 12 ≤ monthNumber today / 3 * 3 - 3)]
    · simp only [if_true]
      omega
    · intro _ current hd
      have hcurrentNumber := hcurrent current hd
      change WellResolved (shiftMonth current (-3) >>= fun start =>
        shiftMonth start 3 >>= fun stop => pure (.quarter, start, stop)) ↔ _
      rw [(shiftMonth_calculated current (-3)).wellResolved_bind (Q := True), and_true,
        hcurrentNumber]
      · omega
      · intro _ start hstart
        rw [hwindow start hstart.2 (by omega)]
        exact iff_of_true (by omega) trivial

/-- A year that has begun. -/
lemma wellResolved_year {y : Int} {start : Date}
    (hstart : (start.year : Int) = y ∧ (start.month : Int) = 1 ∧ start.day = 1) :
    WellResolved (newDate (y + 1) 1 1 >>= fun stop => pure (.year, start, stop)) ↔
      y + 1 ≤ 9999 := by
  have hyear := start.hyear
  rw [(newFirst_calculated (y + 1) 1).wellResolved_stop]
  · omega
  · intro _ stop hstop
    refine ⟨lt_of_monthNumber ?_, ⟨hstart.2.2, by omega⟩, ⟨hstop.2.2, by omega⟩⟩
    unfold monthNumber
    omega

lemma wellResolved_relativeYear (previous : Bool) :
    WellResolved ((TimeForm.relativeYear previous).resolve today) ↔
      ¬(TimeForm.relativeYear previous).AtEdge today := by
  have hyear := today.hyear
  unfold TimeForm.resolve TimeForm.AtEdge
  rw [(newFirst_calculated (if previous = true then (today.year : Int) - 1 else today.year)
    1).wellResolved_bind (Q := (if previous = true then (today.year : Int) - 1 else today.year) + 1 ≤
      9999)]
  · cases previous with
    | false =>
      simp only [Bool.false_eq_true, if_false]
      omega
    | true =>
      simp only [if_true]
      omega
  · intro _ start hstart
    exact wellResolved_year hstart

/-- A window that has been calculated from a first month on. -/
lemma monthWindow_ok {granularity : TimeGranularity} {first start : Date} {n : Nat} {w : Window}
    (hn : 1 ≤ n) (h : (shiftMonth first n >>= fun stop => pure (granularity, start, stop)) = .ok w)
    (hle : monthNumber start ≤ monthNumber first) (hstart : Aligned start granularity)
    (hstop : ∀ stop : Date, monthNumber stop = monthNumber first + n → stop.day = 1 →
      Aligned stop granularity) : WellResolved (.ok w) := by
  have hcalculated := shiftMonth_calculated first n
  obtain ⟨stop, hok, hw⟩ := except_bind_ok.mp h
  rw [hok] at hcalculated
  rw [← except_pure_ok.mp hw]
  cases hcalculated with
  | ok _ hd =>
    refine .window (lt_of_monthNumber ?_) hstart (hstop stop hd.1 hd.2)
    omega

lemma newFirst_ok {y month : Int} {d : Date} (h : newDate y month 1 = .ok d) :
    (d.year : Int) = y ∧ (d.month : Int) = month ∧ d.day = 1 := by
  have hcalculated := newFirst_calculated y month
  rw [h] at hcalculated
  cases hcalculated with
  | ok _ hd => exact hd

lemma wellResolved_yearQuarter (y quarter : Nat) :
    WellResolved ((TimeForm.yearQuarter y quarter).resolve today) := by
  apply wellResolved_orCannotAnswer
  intro w hw
  obtain ⟨start, hstart, hstop⟩ := except_bind_ok.mp hw
  obtain ⟨hyear, hmonth, hday⟩ := newFirst_ok hstart
  apply monthWindow_ok (by decide : 1 ≤ 3) hstop (le_refl _) ⟨hday, by omega⟩
  intro stop hnumber hstopDay
  have hm := stop.hmonth
  unfold monthNumber at hnumber
  exact ⟨hstopDay, by omega⟩

lemma wellResolved_yearMonth (y month : Nat) :
    WellResolved ((TimeForm.yearMonth y month).resolve today) := by
  apply wellResolved_orCannotAnswer
  intro w hw
  obtain ⟨start, hstart, hstop⟩ := except_bind_ok.mp hw
  exact monthWindow_ok (le_refl 1) hstop (le_refl _) (newFirst_ok hstart).2.2
    fun _ _ hday => hday

lemma le_ofDigitChars (digits : List Char) (n : Nat) : n ≤ Nat.ofDigitChars 10 digits n := by
  induction digits generalizing n with
  | nil => exact le_of_eq Nat.ofDigitChars_nil.symm
  | cons d digits ih =>
    rw [Nat.ofDigitChars_cons]
    have hnext := ih (10 * n + (d.toNat - '0'.toNat))
    omega

lemma digitsValue_pos {digits : List Char} (h : positiveDigits digits) : 1 ≤ digitsValue digits := by
  cases digits with
  | nil => cases h
  | cons d digits =>
    unfold positiveDigits at h
    simp only [Bool.and_eq_true, decide_eq_true_eq] at h
    obtain ⟨⟨hdigit, hzero⟩, -⟩ := h
    have hd : 48 ≤ d.toNat := by
      unfold Char.isDigit at hdigit
      rw [Bool.and_eq_true, decide_eq_true_eq, decide_eq_true_eq] at hdigit
      exact hdigit.1
    have hne : d.toNat ≠ 48 := by
      intro heq
      exact hzero (Char.toNat_inj.mp heq)
    unfold digitsValue
    rw [Nat.ofDigitChars_cons]
    have hle := le_ofDigitChars digits (10 * 0 + (d.toNat - '0'.toNat))
    have h48 : '0'.toNat = 48 := rfl
    omega

lemma wellResolved_recentDays (digits : {digits : List Char // positiveDigits digits}) :
    WellResolved ((TimeForm.recentDays digits).resolve today) ↔
      ¬(TimeForm.recentDays digits).AtEdge today := by
  have hbounds := today.toordinal_bounds
  have hpositive := digitsValue_pos digits.2
  rw [TimeForm.resolve, TimeForm.AtEdge, intOf]
  by_cases hlength : digits.1.length ≤ intMaxStrDigits
  · rw [if_pos hlength]
    change WellResolved (orCannotAnswer _ (plusDays today (-((digitsValue digits.1 : Int) - 1))) >>=
      fun start => plusDays today 1 >>= fun stop => pure (.day, start, stop)) ↔ _
    have hstart := plusDays_calculated today (-((digitsValue digits.1 : Int) - 1))
    generalize plusDays today (-((digitsValue digits.1 : Int) - 1)) = x at hstart
    cases hstart with
    | raised hc he =>
      refine iff_of_true (.refused _ _) ?_
      omega
    | @ok start hc hd =>
      change WellResolved (plusDays today 1 >>= fun stop => pure (.day, start, stop)) ↔ _
      rw [(plusDays_calculated today 1).wellResolved_stop]
      · omega
      · intro _ stop hstop
        refine ⟨?_, trivial, trivial⟩
        rw [← Date.toordinal_lt_iff]
        omega
  · rw [if_neg hlength]
    exact iff_of_false (not_wellResolved_of_escapes (.inl rfl)) (by omega)

lemma chineseDigit_pos {c : Char} {n : Nat} (h : chineseDigit c = some n) : 1 ≤ n := by
  unfold chineseDigit at h
  split at h <;> cases h <;> decide

lemma parsePositiveNumber_pos {value : List Char} {n : Nat}
    (h : parsePositiveNumber value = .ok (some n)) : 1 ≤ n := by
  unfold parsePositiveNumber at h
  split at h
  · obtain ⟨parsed, -, h⟩ := except_bind_ok.mp h
    have h := except_pure_ok.mp h
    split at h
    · cases h
      assumption
    · cases h
  · have h := Except.ok.inj h
    split at h
    · cases h
      decide
    · split at h
      · obtain ⟨m, -, rfl⟩ := Option.map_eq_some_iff.mp h
        omega
      · cases h
    · obtain ⟨m, hm, rfl⟩ := Option.map_eq_some_iff.mp h
      have hpos := chineseDigit_pos hm
      omega
    · obtain ⟨m, hm, h⟩ := Option.bind_eq_some_iff.mp h
      obtain ⟨m', -, rfl⟩ := Option.map_eq_some_iff.mp h
      have hpos := chineseDigit_pos hm
      omega
    · exact chineseDigit_pos h
    · cases h

/-- The reading of a number fails only where it is too long. -/
lemma parsePositiveNumber_error_iff {value : List Char} {e : DateError} :
    parsePositiveNumber value = .error e ↔
      ((value ≠ [] ∧ value.all Char.isDigit) ∧ intMaxStrDigits < value.length) ∧
        e = .valueError := by
  unfold parsePositiveNumber intOf
  split
  · next hdigits =>
    by_cases hlength : value.length ≤ intMaxStrDigits
    · rw [if_pos hlength]
      refine iff_of_false (fun herror => ?_) fun hboth => absurd hboth.1.2 (by omega)
      cases herror
    · rw [if_neg hlength]
      constructor
      · intro herror
        cases herror
        exact ⟨⟨hdigits, by omega⟩, rfl⟩
      · rintro ⟨-, rfl⟩
        rfl
  · next hno =>
    refine iff_of_false (fun herror => ?_) fun hboth => hno hboth.1.1
    cases herror

lemma wellResolved_recentMonths (value : List Char) :
    WellResolved ((TimeForm.recentMonths value).resolve today) ↔
      ¬(TimeForm.recentMonths value).AtEdge today := by
  rw [TimeForm.resolve, TimeForm.AtEdge]
  cases hvalue : parsePositiveNumber value with
  | error e =>
    obtain ⟨hlong, rfl⟩ := parsePositiveNumber_error_iff.mp hvalue
    exact iff_of_false (not_wellResolved_of_escapes (.inl rfl)) (not_not_intro hlong)
  | ok months =>
    have hshort : ¬((value ≠ [] ∧ value.all Char.isDigit) ∧ intMaxStrDigits < value.length) := by
      intro hlong
      have herror := parsePositiveNumber_error_iff.mpr ⟨hlong, rfl⟩
      rw [hvalue] at herror
      cases herror
    refine iff_of_true ?_ hshort
    cases months with
    | none => exact .refused _ _
    | some months =>
      have hpos := parsePositiveNumber_pos hvalue
      apply wellResolved_orCannotAnswer
      intro w hw
      obtain ⟨current, hcurrent, hw⟩ := except_bind_ok.mp hw
      obtain ⟨start, hstart, hw⟩ := except_bind_ok.mp hw
      have hcalculated := shiftMonth_calculated current (-((months : Int) - 1))
      rw [hstart] at hcalculated
      cases hcalculated with
      | ok _ hd =>
        exact monthWindow_ok (le_refl 1) hw (by omega) hd.2 fun _ _ hday => hday

lemma dateFromMatch_cases (y month day : Nat) :
    (∃ d, dateFromMatch y month day = .ok d ∧ d.year = y ∧ d.month = month ∧ d.day = day) ∨
      ∃ message reason, dateFromMatch y month day = .error (.cannotAnswer message reason) := by
  have hcalculated := newDate_calculated y month day
  unfold dateFromMatch
  generalize newDate y month day = x at hcalculated
  cases hcalculated with
  | @ok d hc hd =>
    obtain ⟨hyear, hmonth, hday⟩ := Date.new?_eq_some_iff.mp hd
    exact .inl ⟨d, rfl, by omega, by omega, by omega⟩
  | raised hc he => exact .inr ⟨_, _, rfl⟩

lemma toordinal_lastDay : lastDay.toordinal = Date.maxOrdinal := by decide

/-- A day has a next one unless it is the last one. -/
lemma wellResolved_next {start d : Date} (hle : start ≤ d) :
    WellResolved (plusDays d 1 >>= fun stop => pure (.day, start, stop)) ↔ d ≠ lastDay := by
  have hbounds := d.toordinal_bounds
  rw [(plusDays_calculated d 1).wellResolved_stop, Ne, ← Date.toordinal_inj, toordinal_lastDay]
  · omega
  · intro _ stop hstop
    refine ⟨?_, trivial, trivial⟩
    rw [← Date.toordinal_le_iff] at hle
    rw [← Date.toordinal_lt_iff]
    omega

lemma wellResolved_date (y month day : Nat) :
    WellResolved ((TimeForm.date y month day).resolve today) ↔
      ¬(TimeForm.date y month day).AtEdge today := by
  rw [TimeForm.resolve, TimeForm.AtEdge]
  rcases dateFromMatch_cases y month day with ⟨d, hd, hyear, hmonth, hday⟩ | ⟨_, _, hrefused⟩
  · rw [hd]
    change WellResolved (plusDays d 1 >>= fun stop => pure (.day, d, stop)) ↔ _
    rw [wellResolved_next (le_refl d), Ne, not_iff_not]
    constructor
    · rintro rfl
      exact ⟨hyear.symm, hmonth.symm, hday.symm⟩
    · rintro ⟨rfl, rfl, rfl⟩
      exact Date.ext hyear hmonth hday
  · rw [hrefused]
    refine iff_of_true (.refused _ _) ?_
    rintro ⟨rfl, rfl, rfl⟩
    have hlast : dateFromMatch 9999 12 31 = .ok lastDay := by decide
    rw [hlast] at hrefused
    cases hrefused

lemma parseAbsoluteDay_cases (text : List Char) :
    (∃ d, parseAbsoluteDay text = .ok d) ∨
      ∃ message reason, parseAbsoluteDay text = .error (.cannotAnswer message reason) := by
  unfold parseAbsoluteDay
  split
  · next y month day _ =>
    rcases dateFromMatch_cases y month day with ⟨d, hd, -⟩ | hrefused
    · exact .inl ⟨d, hd⟩
    · exact .inr hrefused
  · exact .inr ⟨_, _, rfl⟩

lemma wellResolved_range (first last : List Char) :
    WellResolved ((TimeForm.range first last).resolve today) ↔
      ¬(TimeForm.range first last).AtEdge today := by
  rw [TimeForm.resolve, TimeForm.AtEdge]
  rcases parseAbsoluteDay_cases first with ⟨start, hstart⟩ | ⟨_, _, hrefused⟩
  · rw [hstart]
    rcases parseAbsoluteDay_cases last with ⟨d, hd⟩ | ⟨_, _, hrefused⟩
    · rw [hd]
      have hbounds := d.toordinal_bounds
      have hedge : (∃ start', (.ok start : Except DateError Date) = .ok start') ∧
          (.ok d : Except DateError Date) = .ok lastDay ↔ d = lastDay :=
        ⟨fun h => Except.ok.inj h.2, fun h => ⟨⟨start, rfl⟩, congrArg Except.ok h⟩⟩
      rw [hedge]
      change WellResolved (plusDays d 1 >>= fun stop =>
        require (start ≤ d) (.cannotAnswer "日期区间的开始日期晚于结束日期" "DATE_RANGE_REVERSED") >>=
          fun _ => pure (.day, start, stop)) ↔ _
      by_cases hle : start ≤ d
      · unfold require
        rw [if_pos hle]
        exact wellResolved_next hle
      · unfold require
        rw [if_neg hle]
        have hlast : d ≠ lastDay := by
          rintro rfl
          have hbounds' := start.toordinal_bounds
          rw [← Date.toordinal_le_iff, toordinal_lastDay] at hle
          omega
        refine iff_of_true ?_ hlast
        rw [Ne, ← Date.toordinal_inj, toordinal_lastDay] at hlast
        have hnext := plusDays_calculated d 1
        generalize plusDays d 1 = x at hnext
        cases hnext with
        | ok hc hstop => exact .refused _ _
        | raised hc he => exact absurd (by omega) hc
    · rw [hrefused]
      refine iff_of_true (.refused _ _) fun hboth => ?_
      cases hboth.2
  · rw [hrefused]
    refine iff_of_true (.refused _ _) fun hboth => ?_
    obtain ⟨_, hok⟩ := hboth.1
    cases hok

lemma wellResolved_yearText (y : Nat) :
    WellResolved ((TimeForm.year y).resolve today) ↔ ¬(TimeForm.year y).AtEdge today := by
  rw [TimeForm.resolve, TimeForm.AtEdge]
  have hstart := newFirst_calculated y 1
  generalize newDate y 1 1 = x at hstart
  cases hstart with
  | @ok start hc hd =>
    change WellResolved (newDate ((y : Int) + 1) 1 1 >>= fun stop =>
      pure (.year, start, stop)) ↔ _
    rw [wellResolved_year hd]
    omega
  | raised hc he => exact iff_of_true (.refused _ _) (by omega)

end Forms

/-- A time text resolves to a window with its ends on the granularity, or is refused, exactly
when its form is not at an edge. -/
theorem resolveDates_iff (text : String) (today : Date) :
    WellResolved (resolveDates text today) ↔ ¬(timeForm text).AtEdge today := by
  unfold resolveDates
  cases timeForm text with
  | relativeDay offset => exact wellResolved_relativeDay offset
  | relativeWeek previous => exact wellResolved_relativeWeek previous
  | relativeMonth previous => exact wellResolved_relativeMonth previous
  | relativeQuarter previous => exact wellResolved_relativeQuarter previous
  | relativeYear previous => exact wellResolved_relativeYear previous
  | yearQuarter y quarter => exact iff_of_true (wellResolved_yearQuarter y quarter) id
  | recentDays digits => exact wellResolved_recentDays digits
  | recentMonths value => exact wellResolved_recentMonths value
  | range first last => exact wellResolved_range first last
  | date y month day => exact wellResolved_date y month day
  | yearMonth y month => exact iff_of_true (wellResolved_yearMonth y month) id
  | year y => exact wellResolved_yearText y
  | unknown => exact iff_of_true (.refused _ _) id

/-- No year begins behind year 9999. -/
theorem year_9999_escapes :
    resolveDates "9999年" ⟨2024, 3, 15, by decide, by decide, by decide⟩ = .error .valueError ∧
      ¬WellResolved (resolveDates "9999年" ⟨2024, 3, 15, by decide, by decide, by decide⟩) := by
  have hraised : resolveDates "9999年" ⟨2024, 3, 15, by decide, by decide, by decide⟩ =
      .error .valueError := by decide +kernel
  rw [hraised]
  exact ⟨rfl, not_wellResolved_of_escapes (.inl rfl)⟩

end ChatBI.Semantic
