import ChatBI.Lib.Calendar
import ChatBI.Lib.Decimal
import ChatBI.Lib.Text
import ChatBI.Semantic.Query

/-!
# Resolving a time text

`_resolve_dates`: the window of dates that a time text stands for on a given day. The regular
expressions and the texts that it knows, in their order, make the form of a text; each form has
its calendar arithmetic.
-/

namespace ChatBI.Semantic

open ChatBI.Lib

/-- `SemanticQueryCannotAnswer`, and the exceptions of Python that are not turned into it. -/
inductive DateError where
  | cannotAnswer (message reason : String)
  | valueError
  | overflowError
  deriving DecidableEq

/-- `[1-9][0-9]*`. -/
def positiveDigits : List Char → Bool
  | [] => false
  | d :: digits => d.isDigit && d ≠ '0' && digits.all Char.isDigit

/-- The forms of a time text, with what the regular expressions have found in it. -/
inductive TimeForm where
  | relativeDay (offset : Int)
  | relativeWeek (previous : Bool)
  | relativeMonth (previous : Bool)
  | relativeQuarter (previous : Bool)
  | relativeYear (previous : Bool)
  | yearQuarter (year quarter : Nat)
  | recentDays (digits : {digits : List Char // positiveDigits digits})
  | recentMonths (value : List Char)
  | range (first last : List Char)
  | date (year month day : Nat)
  | yearMonth (year month : Nat)
  | year (year : Nat)
  | unknown
  deriving DecidableEq

section Patterns

/-- `[0-9]{4}` in front of a text. -/
def fourDigits : List Char → Option (Nat × List Char)
  | a :: b :: c :: d :: rest =>
    if [a, b, c, d].all Char.isDigit then some (digitsValue [a, b, c, d], rest) else none
  | _ => none

/-- `[0-9]{1,2}` in front of something that is no digit. -/
def oneOrTwoDigits (text : List Char) : Option (Nat × List Char) :=
  let digits := text.takeWhile Char.isDigit
  if digits.length = 1 ∨ digits.length = 2 then
    some (digitsValue digits, text.dropWhile Char.isDigit)
  else none

/-- An optional character. -/
def skip (c : Char) : List Char → List Char
  | [] => []
  | c' :: rest => if c' = c then rest else c' :: rest

def quarterNumber : Char → Option Nat
  | '一' | '1' => some 1
  | '二' | '2' => some 2
  | '三' | '3' => some 3
  | '四' | '4' => some 4
  | _ => none

/-- `_YEAR_QUARTER_PATTERN`. -/
def yearQuarter? (text : List Char) : Option (Nat × Nat) := do
  let (year, rest) ← fourDigits text
  let quarter ←
    match skip '年' rest with
    | ['Q', q] | ['q', q] => if q.isDigit then quarterNumber q else none
    | rest =>
      match skip '第' rest with
      | [q, '季', '度'] => quarterNumber q
      | _ => none
  return (year, quarter)

/-- `_RECENT_DAYS_PATTERN`. -/
def recentDays? (text : List Char) : Option {digits : List Char // positiveDigits digits} :=
  match text with
  | '最' :: '近' :: rest =>
    if h : ['天'] <:+ rest ∧ positiveDigits rest.dropLast then some ⟨rest.dropLast, h.2⟩ else none
  | _ => none

def chineseNumerals : List Char := "一二三四五六七八九十百".toList

/-- `_RECENT_MONTHS_PATTERN`. -/
def recentMonths? (text : List Char) : Option (List Char) :=
  match text with
  | '最' :: '近' :: rest =>
    let value := rest.dropLast.dropLast
    if ['个', '月'] <:+ rest ∧
        (positiveDigits value ∨ value ≠ [] ∧ value.all (· ∈ chineseNumerals)) then some value
    else none
  | _ => none

/-- The first separator behind the first character, with something behind it. -/
def splitAtSeparator (before : List Char) : List Char → Option (List Char × List Char)
  | c :: c' :: rest =>
    if c ∈ ['至', '到', '~'] then some (before, c' :: rest)
    else splitAtSeparator (before ++ [c]) (c' :: rest)
  | _ => none

/-- `_DATE_RANGE_PATTERN`. -/
def dateRange? : List Char → Option (List Char × List Char)
  | [] => none
  | first :: rest => if '\n' ∈ first :: rest then none else splitAtSeparator [first] rest

/-- `_DATE_PATTERN`. -/
def date? (text : List Char) : Option (Nat × Nat × Nat) := do
  let (year, rest) ← fourDigits text
  match rest with
  | '年' :: rest => do
    let (month, rest) ← oneOrTwoDigits rest
    match rest with
    | '月' :: rest => do
      let (day, rest) ← oneOrTwoDigits rest
      if skip '日' rest = [] then some (year, month, day) else none
    | _ => none
  | '-' :: rest | '/' :: rest => do
    let (month, rest) ← oneOrTwoDigits rest
    match rest with
    | '-' :: rest | '/' :: rest => do
      let (day, rest) ← oneOrTwoDigits rest
      if rest = [] then some (year, month, day) else none
    | _ => none
  | _ => none

/-- `_YEAR_MONTH_PATTERN`. -/
def yearMonth? (text : List Char) : Option (Nat × Nat) := do
  let (year, rest) ← fourDigits text
  match rest with
  | '年' :: rest => do
    let (month, rest) ← oneOrTwoDigits rest
    if skip '月' rest = [] then some (year, month) else none
  | '-' :: rest | '/' :: rest => do
    let (month, rest) ← oneOrTwoDigits rest
    if rest = [] then some (year, month) else none
  | _ => none

/-- `_YEAR_PATTERN`. -/
def year? (text : List Char) : Option Nat := do
  let (year, rest) ← fourDigits text
  if skip '年' rest = [] then some year else none

/-- The texts that are looked up as a whole. -/
def relativeForms : List (String × TimeForm) := [
  ("今天", .relativeDay 0), ("昨日", .relativeDay (-1)), ("昨天", .relativeDay (-1)),
  ("前天", .relativeDay (-2)), ("本周", .relativeWeek false), ("上周", .relativeWeek true),
  ("本月", .relativeMonth false), ("上月", .relativeMonth true),
  ("本季度", .relativeQuarter false), ("上季度", .relativeQuarter true),
  ("今年", .relativeYear false), ("去年", .relativeYear true)]

/-- The forms that the text matches, in the order in which they are tried. -/
def matchingForms (text : String) : List (Option TimeForm) :=
  let cs := text.toList
  [(relativeForms.find? fun form => form.1 = text).map Prod.snd,
    (yearQuarter? cs).map fun (year, quarter) => .yearQuarter year quarter,
    (recentDays? cs).map .recentDays,
    (recentMonths? cs).map .recentMonths,
    (dateRange? cs).map fun (first, last) => .range first last,
    (date? cs).map fun (year, month, day) => .date year month day,
    (yearMonth? cs).map fun (year, month) => .yearMonth year month,
    (year? cs).map .year]

/-- The form of a text: the first one that matches. -/
def timeForm (text : String) : TimeForm := ((matchingForms text).findSome? id).getD .unknown

end Patterns

section Arithmetic

/-- The longest decimal text that `int` reads. -/
def intMaxStrDigits : Nat := 4300

/-- `int(text)` for a text of decimal digits. -/
def intOf (digits : List Char) : Except DateError Nat :=
  if digits.length ≤ intMaxStrDigits then .ok (digitsValue digits) else .error .valueError

/-- `date(year, month, day)`. -/
def newDate (year month day : Int) : Except DateError Date :=
  match Date.new? year month day with
  | some d => .ok d
  | none =>
    -- an integer that does not fit a C int is an `OverflowError`
    if ∀ n ∈ [year, month, day], -2 ^ 31 ≤ n ∧ n < 2 ^ 31 then .error .valueError
    else .error .overflowError

/-- `date + timedelta(days=n)`. -/
def plusDays (d : Date) (n : Int) : Except DateError Date :=
  match d.addDays n with
  | some d => .ok d
  | none => .error .overflowError

def notNormalizable (message : String) : DateError := .cannotAnswer message "DATE_NOT_NORMALIZABLE"

/-- `except (ValueError, OverflowError)`. -/
def orCannotAnswer {α : Type} (message : String) (x : Except DateError α) : Except DateError α :=
  match x with
  | .ok a => .ok a
  | .error _ => .error (notNormalizable message)

/-- `_shift_month`. -/
def shiftMonth (value : Date) (offset : Int) : Except DateError Date :=
  let absoluteMonth : Int := value.year * 12 + value.month - 1 + offset
  newDate (absoluteMonth / 12) (absoluteMonth % 12 + 1) 1

/-- `_quarter_start`. -/
def quarterStart (value : Date) : Except DateError Date :=
  newDate value.year (((value.month : Int) - 1) / 3 * 3 + 1) 1

def chineseDigit : Char → Option Nat
  | '一' => some 1
  | '二' => some 2
  | '三' => some 3
  | '四' => some 4
  | '五' => some 5
  | '六' => some 6
  | '七' => some 7
  | '八' => some 8
  | '九' => some 9
  | _ => none

/-- `_parse_positive_number`. -/
def parsePositiveNumber (value : List Char) : Except DateError (Option Nat) :=
  if value ≠ [] ∧ value.all Char.isDigit then do
    let parsed ← intOf value
    return if 0 < parsed then some parsed else none
  else .ok (
    match value with
    | ['十'] => some 10
    | '十' :: tail =>
      match tail with
      | [d] => (chineseDigit d).map (10 + ·)
      | _ => none
    | [d, '十'] => (chineseDigit d).map (· * 10)
    | [d, '十', d'] => (chineseDigit d).bind fun n => (chineseDigit d').map (n * 10 + ·)
    | [d] => chineseDigit d
    | _ => none)

/-- `_date_from_match`. -/
def dateFromMatch (year month day : Nat) : Except DateError Date :=
  orCannotAnswer "日期无法标准化" (newDate year month day)

/-- `_parse_absolute_day`. -/
def parseAbsoluteDay (value : List Char) : Except DateError Date :=
  match date? (stripChars value) with
  | some (year, month, day) => dateFromMatch year month day
  | none => .error (notNormalizable "日期区间必须使用完整日期")

abbrev Window := TimeGranularity × Date × Date

/-- The window of a form on a given day. -/
def TimeForm.resolve (today : Date) : TimeForm → Except DateError Window
  | .relativeDay offset => do
    let start ← plusDays today offset
    return (.day, start, ← plusDays start 1)
  | .relativeWeek previous => do
    let currentStart ← plusDays today (-today.weekday)
    let start ← if previous then plusDays currentStart (-7) else .ok currentStart
    return (.week, start, ← plusDays start 7)
  | .relativeMonth previous => do
    let currentStart ← newDate today.year today.month 1
    let start ← if previous then shiftMonth currentStart (-1) else .ok currentStart
    return (.month, start, ← shiftMonth start 1)
  | .relativeQuarter previous => do
    let currentStart ← quarterStart today
    let start ← if previous then shiftMonth currentStart (-3) else .ok currentStart
    return (.quarter, start, ← shiftMonth start 3)
  | .relativeYear previous => do
    let y : Int := if previous then today.year - 1 else today.year
    let start ← newDate y 1 1
    return (.year, start, ← newDate (y + 1) 1 1)
  | .yearQuarter y quarter =>
    orCannotAnswer "日期表达无法标准化" do
      let start ← newDate y (((quarter : Int) - 1) * 3 + 1) 1
      return (.quarter, start, ← shiftMonth start 3)
  | .recentDays digits => do
    let days ← intOf digits.1
    let start ← orCannotAnswer "最近 N 天的范围超出日期支持范围" (plusDays today (-((days : Int) - 1)))
    return (.day, start, ← plusDays today 1)
  | .recentMonths value => do
    let months ← parsePositiveNumber value
    match months with
    | none => .error (notNormalizable "最近 N 个月的范围无法标准化")
    | some months =>
      orCannotAnswer "最近 N 个月的范围超出日期支持范围" do
        let currentMonth ← newDate today.year today.month 1
        let start ← shiftMonth currentMonth (-((months : Int) - 1))
        return (.month, start, ← shiftMonth currentMonth 1)
  | .range first last => do
    let start ← parseAbsoluteDay first
    let endInclusive ← parseAbsoluteDay last
    let stop ← plusDays endInclusive 1
    require (start ≤ endInclusive) (.cannotAnswer "日期区间的开始日期晚于结束日期" "DATE_RANGE_REVERSED")
    return (.day, start, stop)
  | .date y month day => do
    let start ← dateFromMatch y month day
    return (.day, start, ← plusDays start 1)
  | .yearMonth y month =>
    orCannotAnswer "日期无法标准化" do
      let start ← newDate y month 1
      return (.month, start, ← shiftMonth start 1)
  | .year y => do
    let start ← orCannotAnswer "日期无法标准化" (newDate y 1 1)
    return (.year, start, ← newDate ((y : Int) + 1) 1 1)
  | .unknown => .error (notNormalizable "日期表达无法标准化")

/-- `_resolve_dates`. -/
def resolveDates (text : String) (today : Date) : Except DateError Window :=
  (timeForm text).resolve today

def granularityValue : TimeGranularity → String
  | .day => "day"
  | .week => "week"
  | .month => "month"
  | .quarter => "quarter"
  | .year => "year"

/-- The dates of `_validate_time`. -/
def validateDates (candidate : TimeCandidate) (today : Date) : Except DateError Window := do
  let text := strip candidate.text
  let (expectedGranularity, startDate, endDate) ← resolveDates (compact text) today
  let granularity := granularityValue candidate.granularity
  require (expectedGranularity = candidate.granularity)
    (.cannotAnswer s!"时间表达 {text} 与粒度 {granularity} 不一致" "TIME_GRANULARITY_CONFLICT")
  return (candidate.granularity, startDate, endDate)

end Arithmetic

end ChatBI.Semantic
