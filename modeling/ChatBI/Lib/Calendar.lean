import Mathlib.Data.Nat.Find
import Mathlib.Order.Basic
import Mathlib.Order.Nat
import Mathlib.Tactic.IntervalCases

/-!
# The calendar

The dates of the proleptic Gregorian calendar from year 1 to year 9999, their order, and their
numbers: the first day of year 1 is number 1.
-/

namespace ChatBI.Lib

def isLeap (year : Nat) : Bool := year % 4 = 0 && (year % 100 ≠ 0 || year % 400 = 0)

def daysInMonth (leap : Bool) (month : Nat) : Nat :=
  if month = 2 then if leap then 29 else 28
  else if month = 4 ∨ month = 6 ∨ month = 9 ∨ month = 11 then 30
  else 31

structure Date where
  year : Nat
  month : Nat
  day : Nat
  hyear : 1 ≤ year ∧ year ≤ 9999
  hmonth : 1 ≤ month ∧ month ≤ 12
  hday : 1 ≤ day ∧ day ≤ daysInMonth (isLeap year) month
  deriving DecidableEq

namespace Date

/-- The days of a year before a month. -/
def daysBeforeMonth (leap : Bool) : Nat → Nat
  | 0 => 0
  | 1 => 0
  | month + 2 => daysBeforeMonth leap (month + 1) + daysInMonth leap (month + 1)

def daysInYear (year : Nat) : Nat := 365 + (isLeap year).toNat

/-- The days before a year. -/
def daysBeforeYear (year : Nat) : Nat :=
  (year - 1) * 365 + (year - 1) / 4 - (year - 1) / 100 + (year - 1) / 400

/-- `date.toordinal()`. -/
def toordinal (d : Date) : Nat :=
  daysBeforeYear d.year + daysBeforeMonth (isLeap d.year) d.month + d.day

/-- The number of the last day of year 9999. -/
def maxOrdinal : Nat := 3652059

/-- A number that orders dates by year, month and day. -/
def key (d : Date) : Nat := (d.year * 13 + d.month) * 32 + d.day

variable {d e : Date} {leap : Bool} {year month : Nat}

@[ext]
lemma ext (hyear : d.year = e.year) (hmonth : d.month = e.month) (hday : d.day = e.day) :
    d = e := by
  cases d
  cases e
  cases hyear
  cases hmonth
  cases hday
  rfl

lemma daysInMonth_le : daysInMonth leap month ≤ 31 := by
  unfold daysInMonth
  split
  · split <;> omega
  · split <;> omega

lemma key_injective : Function.Injective key := by
  intro d e h
  have hd := d.hday.2.trans daysInMonth_le
  have he := e.hday.2.trans daysInMonth_le
  have hm := d.hmonth
  have hm' := e.hmonth
  unfold key at h
  apply ext <;> omega

/-- Dates are ordered by year, month and day. -/
instance : LinearOrder Date := LinearOrder.lift' key key_injective

lemma le_iff : d ≤ e ↔ d.key ≤ e.key := Iff.rfl

lemma lt_iff : d < e ↔ d.key < e.key := by
  rw [← not_le, ← not_le, le_iff]

section Ordinals

lemma daysBeforeMonth_succ (leap : Bool) (h : 1 ≤ month) :
    daysBeforeMonth leap (month + 1) = daysBeforeMonth leap month + daysInMonth leap month := by
  obtain ⟨month, rfl⟩ := Nat.exists_eq_add_of_le' h
  rfl

lemma daysBeforeMonth_le {month' : Nat} (h : month ≤ month') :
    daysBeforeMonth leap month ≤ daysBeforeMonth leap month' := by
  induction month', h using Nat.le_induction with
  | base => exact le_refl _
  | succ n _ ih =>
    cases n with
    | zero => exact ih
    | succ n => exact ih.trans (Nat.le_add_right _ _)

lemma daysBeforeMonth_last (leap : Bool) : daysBeforeMonth leap 12 + 31 = 365 + leap.toNat := by
  cases leap <;> rfl

/-- Another year adds a day to a quotient when it is a multiple. -/
lemma div_succ (year n : Nat) : (year + 1) / n = year / n + if (year + 1) % n = 0 then 1 else 0 := by
  rw [Nat.succ_div]
  simp only [Nat.dvd_iff_mod_eq_zero]

lemma toNat_isLeap (year : Nat) : (isLeap year).toNat + (if year % 100 = 0 then 1 else 0) =
    (if year % 4 = 0 then 1 else 0) + if year % 400 = 0 then 1 else 0 := by
  have h4 : year % 100 = 0 → year % 4 = 0 := by omega
  have h100 : year % 400 = 0 → year % 100 = 0 := by omega
  unfold isLeap
  by_cases h : year % 4 = 0
  · by_cases h' : year % 100 = 0
    · by_cases h'' : year % 400 = 0 <;> simp [h, h', h'']
    · have h'' : ¬year % 400 = 0 := fun hyes => h' (h100 hyes)
      simp [h, h', h'']
  · have h' : ¬year % 100 = 0 := fun hyes => h (h4 hyes)
    have h'' : ¬year % 400 = 0 := fun hyes => h' (h100 hyes)
    simp [h, h', h'']

lemma daysBeforeYear_succ (h : 1 ≤ year) :
    daysBeforeYear (year + 1) = daysBeforeYear year + daysInYear year := by
  obtain ⟨year, rfl⟩ := Nat.exists_eq_add_of_le' h
  have hle : year / 100 ≤ year / 4 := Nat.div_le_div_left (by omega) (by omega)
  have hleap := toNat_isLeap (year + 1)
  unfold daysInYear daysBeforeYear
  rw [Nat.add_sub_cancel, Nat.add_sub_cancel, div_succ year 4, div_succ year 100,
    div_succ year 400]
  generalize (isLeap (year + 1)).toNat = leap at hleap
  generalize year / 4 = a at hle
  generalize year / 100 = b at hle
  generalize year / 400 = c
  split at hleap <;> split at hleap <;> split at hleap <;> simp only [*, if_true, if_false] <;> omega

lemma daysBeforeYear_le {year' : Nat} (h : 1 ≤ year) (hle : year ≤ year') :
    daysBeforeYear year ≤ daysBeforeYear year' := by
  induction year', hle using Nat.le_induction with
  | base => exact le_refl _
  | succ n hn ih =>
    rw [daysBeforeYear_succ (h.trans hn)]
    exact ih.trans (Nat.le_add_right _ _)

/-- The number of a day in its year. -/
lemma dayOfYear (d : Date) :
    1 ≤ daysBeforeMonth (isLeap d.year) d.month + d.day ∧
      daysBeforeMonth (isLeap d.year) d.month + d.day ≤ daysInYear d.year := by
  obtain ⟨hday, hday'⟩ := d.hday
  obtain ⟨hmonth, hmonth'⟩ := d.hmonth
  refine ⟨by omega, ?_⟩
  have hlast := daysBeforeMonth_last (isLeap d.year)
  have hnext := daysBeforeMonth_succ (isLeap d.year) hmonth
  unfold daysInYear
  by_cases hdecember : d.month = 12
  · have h31 : daysInMonth (isLeap d.year) d.month ≤ 31 := daysInMonth_le
    rw [hdecember] at h31 hday' ⊢
    omega
  · have hle : daysBeforeMonth (isLeap d.year) (d.month + 1) ≤
        daysBeforeMonth (isLeap d.year) 12 := daysBeforeMonth_le (by omega)
    omega

/-- A later date has a larger number. -/
lemma toordinal_strictMono : StrictMono toordinal := by
  intro d e h
  rw [lt_iff] at h
  unfold key at h
  have hd := d.hday
  have he := e.hday
  have hd31 : daysInMonth (isLeap d.year) d.month ≤ 31 := daysInMonth_le
  have he31 : daysInMonth (isLeap e.year) e.month ≤ 31 := daysInMonth_le
  have hm := d.hmonth
  have hm' := e.hmonth
  unfold toordinal
  have hyears : d.year < e.year ∨ d.year = e.year := by omega
  rcases hyears with hyear | hyear
  · have hlast := (dayOfYear d).2
    have hfirst := (dayOfYear e).1
    have hsucc := daysBeforeYear_succ d.hyear.1
    have hle := daysBeforeYear_le (Nat.le_add_left 1 d.year) hyear
    omega
  · rw [hyear]
    have hmonths : d.month < e.month ∨ d.month = e.month := by omega
    rcases hmonths with hmonth | hmonth
    · have hsucc := daysBeforeMonth_succ (isLeap e.year) hm.1
      have hle : daysBeforeMonth (isLeap e.year) (d.month + 1) ≤
          daysBeforeMonth (isLeap e.year) e.month := daysBeforeMonth_le hmonth
      rw [hyear] at hd
      omega
    · rw [hmonth]
      omega

lemma toordinal_lt_iff : d.toordinal < e.toordinal ↔ d < e := toordinal_strictMono.lt_iff_lt

lemma toordinal_le_iff : d.toordinal ≤ e.toordinal ↔ d ≤ e := toordinal_strictMono.le_iff_le

lemma toordinal_inj : d.toordinal = e.toordinal ↔ d = e := toordinal_strictMono.injective.eq_iff

lemma toordinal_bounds (d : Date) : 1 ≤ d.toordinal ∧ d.toordinal ≤ maxOrdinal := by
  have hday := dayOfYear d
  have hyear := d.hyear
  have hle := daysBeforeYear_le (Nat.le_add_left 1 d.year) (Nat.add_le_add_right hyear.2 1)
  have hsucc := daysBeforeYear_succ hyear.1
  have hmax : daysBeforeYear (9999 + 1) = maxOrdinal := by decide
  unfold toordinal
  omega

end Ordinals

section OfOrdinal

/-- The year of a day and the number of the day in it, both from zero. -/
def yearDay (n : Nat) : Nat × Nat :=
  let rest400 := n % 146097
  let hundreds := min 3 (rest400 / 36524)
  let rest100 := rest400 - 36524 * hundreds
  let rest4 := rest100 % 1461
  let ones := min 3 (rest4 / 365)
  (n / 146097 * 400 + hundreds * 100 + rest100 / 1461 * 4 + ones, rest4 - 365 * ones)

lemma yearDay_spec (n : Nat) :
    daysBeforeYear ((yearDay n).1 + 1) + (yearDay n).2 = n ∧
      (yearDay n).2 < daysInYear ((yearDay n).1 + 1) := by
  have hrest := Nat.mod_lt n (show 0 < 146097 by decide)
  have hn := Nat.div_add_mod n 146097
  simp only [yearDay]
  generalize n / 146097 = q at hn ⊢
  generalize n % 146097 = rest400 at hn hrest ⊢
  have hundreds : min 3 (rest400 / 36524) ≤ 3 ∧
      36524 * min 3 (rest400 / 36524) ≤ rest400 ∧
      rest400 - 36524 * min 3 (rest400 / 36524) ≤ 36524 ∧
      (min 3 (rest400 / 36524) < 3 →
        rest400 - 36524 * min 3 (rest400 / 36524) < 36524) := by omega
  generalize min 3 (rest400 / 36524) = b at hundreds ⊢
  obtain ⟨hb, hb', hrest100, hrest100'⟩ := hundreds
  generalize hr : rest400 - 36524 * b = rest100 at hrest100 hrest100' ⊢
  have hfours : rest100 / 1461 ≤ 24 ∧ 1461 * (rest100 / 1461) + rest100 % 1461 = rest100 ∧
      rest100 % 1461 < 1461 := by omega
  generalize rest100 / 1461 = c at hfours ⊢
  generalize rest100 % 1461 = rest4 at hfours ⊢
  obtain ⟨hc, hc', hrest4⟩ := hfours
  have hones : min 3 (rest4 / 365) ≤ 3 ∧ 365 * min 3 (rest4 / 365) ≤ rest4 ∧
      (rest4 - 365 * min 3 (rest4 / 365) < 365 ∨
        rest4 - 365 * min 3 (rest4 / 365) = 365 ∧ min 3 (rest4 / 365) = 3) := by omega
  generalize min 3 (rest4 / 365) = e at hones ⊢
  obtain ⟨he, he', hday⟩ := hones
  constructor
  · have h4 : (q * 400 + b * 100 + c * 4 + e) / 4 = 100 * q + 25 * b + c := by omega
    have h100 : (q * 400 + b * 100 + c * 4 + e) / 100 = 4 * q + b := by omega
    have h400 : (q * 400 + b * 100 + c * 4 + e) / 400 = q := by omega
    unfold daysBeforeYear
    rw [Nat.add_sub_cancel, h4, h100, h400]
    omega
  · unfold daysInYear
    rcases hday with hday | ⟨hday, hlast⟩
    · omega
    · -- day 366 is in a leap year
      have hleap : isLeap (q * 400 + b * 100 + c * 4 + e + 1) = true := by
        unfold isLeap
        rw [Bool.and_eq_true, Bool.or_eq_true, decide_eq_true_iff, decide_eq_true_iff,
          decide_eq_true_iff]
        omega
      rw [hleap, Bool.toNat_true]
      omega

/-- The month of a day of a year. -/
def monthOf (leap : Bool) (day : Nat) : Nat :=
  Nat.findGreatest (fun month => daysBeforeMonth leap month ≤ day) 12

lemma monthOf_spec {day : Nat} (h : day < 365 + leap.toNat) :
    (1 ≤ monthOf leap day ∧ monthOf leap day ≤ 12) ∧
      daysBeforeMonth leap (monthOf leap day) ≤ day ∧
        day < daysBeforeMonth leap (monthOf leap day) + daysInMonth leap (monthOf leap day) := by
  have hfirst : 1 ≤ monthOf leap day := Nat.le_findGreatest (by omega) (Nat.zero_le day)
  have hle : monthOf leap day ≤ 12 := Nat.findGreatest_le 12
  have hbefore : daysBeforeMonth leap (monthOf leap day) ≤ day := by
    have hspec := Nat.findGreatest_spec (P := fun month => daysBeforeMonth leap month ≤ day)
      (by omega : 1 ≤ 12) (Nat.zero_le day)
    exact hspec
  refine ⟨⟨hfirst, hle⟩, hbefore, ?_⟩
  by_cases hlast : monthOf leap day = 12
  · have h12 := daysBeforeMonth_last leap
    have h31 : daysInMonth leap 12 = 31 := by cases leap <;> rfl
    rw [hlast, h31]
    omega
  · rw [← daysBeforeMonth_succ leap hfirst]
    have hnot := Nat.findGreatest_is_greatest (P := fun month => daysBeforeMonth leap month ≤ day)
      (Nat.lt_succ_self (monthOf leap day)) (by omega)
    exact Nat.lt_of_not_le hnot

/-- The date of a number. -/
def ofNumber (n : Nat) (h : 1 ≤ n ∧ n ≤ maxOrdinal) : Date where
  year := (yearDay (n - 1)).1 + 1
  month := monthOf (isLeap ((yearDay (n - 1)).1 + 1)) (yearDay (n - 1)).2
  day := (yearDay (n - 1)).2 + 1 - daysBeforeMonth (isLeap ((yearDay (n - 1)).1 + 1))
    (monthOf (isLeap ((yearDay (n - 1)).1 + 1)) (yearDay (n - 1)).2)
  hyear := by
    have hspec := yearDay_spec (n - 1)
    have hmax : daysBeforeYear (9999 + 1) = maxOrdinal := by decide
    refine ⟨Nat.le_add_left 1 _, ?_⟩
    by_contra hlarge
    have hle := daysBeforeYear_le (Nat.le_add_left 1 9999) (Nat.lt_of_not_le hlarge)
    omega
  hmonth := (monthOf_spec (yearDay_spec (n - 1)).2).1
  hday := by
    have hspec := (monthOf_spec (yearDay_spec (n - 1)).2).2
    omega

lemma toordinal_ofNumber {n : Nat} (h : 1 ≤ n ∧ n ≤ maxOrdinal) :
    (ofNumber n h).toordinal = n := by
  have hyear := (yearDay_spec (n - 1)).1
  have hmonth := (monthOf_spec (yearDay_spec (n - 1)).2).2.1
  unfold toordinal ofNumber
  dsimp only
  omega

/-- `date.fromordinal`. -/
def fromordinal (n : Int) : Option Date :=
  if h : 1 ≤ n.toNat ∧ n.toNat ≤ maxOrdinal then some (ofNumber n.toNat h) else none

lemma fromordinal_eq_some_iff {n : Int} : fromordinal n = some d ↔ (d.toordinal : Int) = n := by
  have hbounds := toordinal_bounds d
  unfold fromordinal
  split
  · next h =>
    rw [Option.some.injEq, ← toordinal_inj, toordinal_ofNumber]
    omega
  · next h =>
    constructor
    · intro hnone
      cases hnone
    · intro heq
      omega

lemma fromordinal_eq_none_iff {n : Int} : fromordinal n = none ↔ n < 1 ∨ maxOrdinal < n := by
  unfold fromordinal
  split
  · next h =>
    constructor
    · intro hsome
      cases hsome
    · omega
  · next h => exact iff_of_true rfl (by omega)

/-- `date + timedelta(days=n)`, none outside the calendar. -/
def addDays (d : Date) (n : Int) : Option Date := fromordinal (d.toordinal + n)

lemma addDays_eq_some_iff {n : Int} :
    d.addDays n = some e ↔ (e.toordinal : Int) = d.toordinal + n := fromordinal_eq_some_iff

lemma addDays_eq_none_iff {n : Int} :
    d.addDays n = none ↔ d.toordinal + n < 1 ∨ maxOrdinal < d.toordinal + n :=
  fromordinal_eq_none_iff

/-- `date.weekday()`: Monday is 0. -/
def weekday (d : Date) : Nat := (d.toordinal + 6) % 7

end OfOrdinal

/-- `date(year, month, day)`, none outside the calendar. -/
def new? (year month day : Int) : Option Date :=
  if h : (1 ≤ year.toNat ∧ year.toNat ≤ 9999) ∧ (1 ≤ month.toNat ∧ month.toNat ≤ 12) ∧
      1 ≤ day.toNat ∧ day.toNat ≤ daysInMonth (isLeap year.toNat) month.toNat then
    some ⟨year.toNat, month.toNat, day.toNat, h.1, h.2.1, h.2.2⟩
  else none

lemma new?_eq_some_iff {year month day : Int} :
    new? year month day = some d ↔
      (d.year : Int) = year ∧ (d.month : Int) = month ∧ (d.day : Int) = day := by
  have hyear := d.hyear
  have hmonth := d.hmonth
  have hday := d.hday
  unfold new?
  constructor
  · intro h
    split at h
    · next hvalid =>
      cases h
      dsimp only
      omega
    · cases h
  · rintro ⟨rfl, rfl, rfl⟩
    simp only [Int.toNat_natCast]
    rw [dif_pos ⟨hyear, hmonth, hday⟩]

/-- The first day of a month. -/
lemma daysInMonth_pos : 1 ≤ daysInMonth leap month := by
  unfold daysInMonth
  split
  · split <;> omega
  · split <;> omega

lemma new?_first_eq_none_iff {year month : Int} :
    new? year month 1 = none ↔ ¬((1 ≤ year ∧ year ≤ 9999) ∧ 1 ≤ month ∧ month ≤ 12) := by
  unfold new?
  have hpos : 1 ≤ daysInMonth (isLeap year.toNat) month.toNat := daysInMonth_pos
  split
  · next h => exact iff_of_false (by simp) (by omega)
  · next h =>
    refine iff_of_true rfl fun hvalid => h ⟨by omega, by omega, by decide, hpos⟩

end Date

end ChatBI.Lib
