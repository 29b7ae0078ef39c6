import ChatBI.Lib.Calendar
import ChatBI.Lib.FixedDigits
import Mathlib.Data.Int.Notation

/-!
# Times with an offset

An aware `datetime` in microseconds, its `isoformat()`, and the reading of such texts by
`fromisoformat`.
-/

namespace ChatBI.Lib

open FixedDigits

structure LocalTime where
  date : Date
  micros : ℕ
  hmicros : micros < 86400000000
  deriving DecidableEq

/-- The seconds to the east of UTC. -/
abbrev Offset := { seconds : ℤ // -86400 < seconds ∧ seconds < 86400 }

structure DateTime extends LocalTime where
  offset : Offset
  deriving DecidableEq

namespace DateTime

/-- The microseconds by which two times are compared. -/
def instant (d : DateTime) : ℤ :=
  (d.date.toordinal * 86400000000 + d.micros : ℕ) - d.offset.val * 1000000

def isoDate (d : Date) : List Char :=
  digits 10 4 d.year ++ '-' :: (digits 10 2 d.month ++ '-' :: digits 10 2 d.day)

def isoFraction (micros : ℕ) : List Char :=
  if micros % 1000000 = 0 then [] else '.' :: digits 10 6 (micros % 1000000)

def isoClock (micros : ℕ) : List Char :=
  digits 10 2 (micros / 3600000000) ++ ':' :: (digits 10 2 (micros / 60000000 % 60) ++
    ':' :: (digits 10 2 (micros / 1000000 % 60) ++ isoFraction micros))

def isoOffset (offset : Offset) : List Char :=
  let seconds := offset.val.natAbs
  (if offset.val < 0 then '-' else '+') :: (digits 10 2 (seconds / 3600) ++
    ':' :: (digits 10 2 (seconds / 60 % 60) ++
      if seconds % 60 = 0 then [] else ':' :: digits 10 2 (seconds % 60)))

/-- `isoformat()`. -/
def isoformat (d : DateTime) : List Char :=
  isoDate d.date ++ 'T' :: (isoClock d.micros ++ isoOffset d.offset)

def literal (c : Char) : List Char → Option (List Char)
  | d :: rest => if d = c then some rest else none
  | [] => none

def readDate (text : List Char) : Option (Date × List Char) := do
  let (year, text) ← read 10 4 0 text
  let text ← literal '-' text
  let (month, text) ← read 10 2 0 text
  let text ← literal '-' text
  let (day, text) ← read 10 2 0 text
  let date ← Date.new? year month day
  return (date, text)

def readFraction : List Char → Option (ℕ × List Char)
  | '.' :: text => read 10 6 0 text
  | text => some (0, text)

def readClock (text : List Char) : Option (ℕ × List Char) := do
  let (hour, text) ← read 10 2 0 text
  let text ← literal ':' text
  let (minute, text) ← read 10 2 0 text
  let text ← literal ':' text
  let (second, text) ← read 10 2 0 text
  let (micro, text) ← readFraction text
  if hour < 24 ∧ minute < 60 ∧ second < 60 then
    return (((hour * 60 + minute) * 60 + second) * 1000000 + micro, text)
  else none

/-- The seconds of an offset, where it has some. -/
def readSeconds : List Char → Option ℕ
  | [] => some 0
  | ':' :: text => (read 10 2 0 text).bind fun (second, text) => if text = [] then some second else none
  | _ => none

def readAbsolute (text : List Char) : Option ℕ := do
  let (hour, text) ← read 10 2 0 text
  let text ← literal ':' text
  let (minute, text) ← read 10 2 0 text
  let second ← readSeconds text
  if minute < 60 ∧ second < 60 then return (hour * 60 + minute) * 60 + second else none

def offset? (seconds : ℤ) : Option Offset :=
  if h : -86400 < seconds ∧ seconds < 86400 then some ⟨seconds, h⟩ else none

/-- The end of the text: no offset, or one. -/
def readOffset : List Char → Option (Option Offset)
  | [] => some none
  | '+' :: text => (readAbsolute text).bind fun seconds => (offset? seconds).map some
  | '-' :: text => (readAbsolute text).bind fun seconds => (offset? (-seconds)).map some
  | _ => none

/-- `datetime.fromisoformat` on the texts of `isoformat`, with the offset of an aware time. -/
def fromisoformat (text : List Char) : Option (LocalTime × Option Offset) := do
  let (date, text) ← readDate text
  let text ← literal 'T' text
  let (micros, text) ← readClock text
  let offset ← readOffset text
  if h : micros < 86400000000 then return (⟨date, micros, h⟩, offset) else none

lemma read_two {n : ℕ} (h : n < 100) (rest : List Char) :
    read 10 2 0 (digits 10 2 n ++ rest) = some (n, rest) := by
  rw [read_digits (by decide) h, Nat.mul_zero, Nat.zero_add]

lemma readDate_isoDate (d : Date) (rest : List Char) :
    readDate (isoDate d ++ rest) = some (d, rest) := by
  have hyear := d.hyear
  have hmonth := d.hmonth
  have hday := d.hday.2.trans Date.daysInMonth_le
  have hread : read 10 4 0 (digits 10 4 d.year ++ '-' :: (digits 10 2 d.month ++
      '-' :: (digits 10 2 d.day ++ rest))) = some (d.year, '-' :: (digits 10 2 d.month ++
      '-' :: (digits 10 2 d.day ++ rest))) := by
    rw [read_digits (by decide) (show d.year < 10 ^ 4 by omega), Nat.mul_zero, Nat.zero_add]
  have hnew : Date.new? d.year d.month d.day = some d := Date.new?_eq_some_iff.mpr ⟨rfl, rfl, rfl⟩
  unfold readDate isoDate
  simp only [List.append_assoc, List.cons_append, hread, Option.bind_eq_bind, Option.bind_some,
    literal, if_true, read_two (show d.month < 100 by omega), read_two (show d.day < 100 by omega),
    hnew, Option.pure_def]

/-- A text that starts with a sign. -/
def Signed (text : List Char) : Prop := ∃ rest, text = '+' :: rest ∨ text = '-' :: rest

lemma readFraction_isoFraction (micros : ℕ) {rest : List Char} (hrest : Signed rest) :
    readFraction (isoFraction micros ++ rest) = some (micros % 1000000, rest) := by
  unfold isoFraction
  by_cases hzero : micros % 1000000 = 0
  · obtain ⟨text, rfl | rfl⟩ := hrest <;> simp only [hzero, if_true, List.nil_append] <;> rfl
  · have hlt : micros % 1000000 < 10 ^ 6 := Nat.mod_lt _ (by decide)
    rw [if_neg hzero, List.cons_append, readFraction, read_digits (by decide) hlt, Nat.mul_zero,
      Nat.zero_add]

lemma readClock_isoClock {micros : ℕ} (h : micros < 86400000000) {rest : List Char}
    (hrest : Signed rest) : readClock (isoClock micros ++ rest) = some (micros, rest) := by
  have hhour : micros / 3600000000 < 24 := by omega
  have hminute : micros / 60000000 % 60 < 60 := Nat.mod_lt _ (by decide)
  have hsecond : micros / 1000000 % 60 < 60 := Nat.mod_lt _ (by decide)
  have hsum : ((micros / 3600000000 * 60 + micros / 60000000 % 60) * 60 +
      micros / 1000000 % 60) * 1000000 + micros % 1000000 = micros := by omega
  unfold readClock isoClock
  simp only [List.append_assoc, List.cons_append, Option.bind_eq_bind, Option.bind_some, literal,
    if_true, read_two (hhour.trans (by decide)), read_two (hminute.trans (by decide)),
    read_two (hsecond.trans (by decide)), readFraction_isoFraction micros hrest, hhour, hminute,
    hsecond, and_self, hsum, Option.pure_def]

lemma signed_isoOffset (offset : Offset) : Signed (isoOffset offset) := by
  unfold isoOffset
  split
  · exact ⟨_, .inr rfl⟩
  · exact ⟨_, .inl rfl⟩

lemma readAbsolute_digits {seconds : ℕ} (h : seconds < 86400) :
    readAbsolute (digits 10 2 (seconds / 3600) ++ ':' :: (digits 10 2 (seconds / 60 % 60) ++
      if seconds % 60 = 0 then [] else ':' :: digits 10 2 (seconds % 60))) = some seconds := by
  have hhour : seconds / 3600 < 100 := by omega
  have hminute : seconds / 60 % 60 < 60 := Nat.mod_lt _ (by decide)
  have hsecond : seconds % 60 < 60 := Nat.mod_lt _ (by decide)
  have hsum : (seconds / 3600 * 60 + seconds / 60 % 60) * 60 + seconds % 60 = seconds := by omega
  have hlast : readSeconds (if seconds % 60 = 0 then [] else ':' :: digits 10 2 (seconds % 60)) =
      some (seconds % 60) := by
    by_cases hzero : seconds % 60 = 0
    · rw [if_pos hzero, hzero]
      rfl
    · have hread := read_two (hsecond.trans (by decide)) []
      rw [List.append_nil] at hread
      rw [if_neg hzero, readSeconds, hread]
      rfl
  unfold readAbsolute
  simp only [Option.bind_eq_bind, Option.bind_some, literal, if_true, read_two hhour,
    read_two (hminute.trans (by decide)), hlast, hminute, hsecond, and_self, hsum, Option.pure_def]

lemma readOffset_isoOffset (offset : Offset) :
    readOffset (isoOffset offset) = some (some offset) := by
  obtain ⟨seconds, hlow, hhigh⟩ := offset
  have habs : readAbsolute _ = some seconds.natAbs :=
    readAbsolute_digits (show seconds.natAbs < 86400 by omega)
  unfold isoOffset
  dsimp only
  by_cases hneg : seconds < 0
  · have hback : -(seconds.natAbs : ℤ) = seconds := by omega
    rw [if_pos hneg, readOffset, habs, Option.bind_some, hback, offset?, dif_pos ⟨hlow, hhigh⟩]
    rfl
  · have hback : (seconds.natAbs : ℤ) = seconds := by omega
    rw [if_neg hneg, readOffset, habs, Option.bind_some, hback, offset?, dif_pos ⟨hlow, hhigh⟩]
    rfl

/-- The text of a time is read back as the time, to the microsecond. -/
theorem fromisoformat_isoformat (d : DateTime) :
    fromisoformat d.isoformat = some (d.toLocalTime, some d.offset) := by
  unfold fromisoformat isoformat
  simp only [Option.bind_eq_bind, readDate_isoDate, Option.bind_some, literal, if_true,
    readClock_isoClock d.hmicros (signed_isoOffset d.offset), readOffset_isoOffset, dif_pos d.hmicros,
    Option.pure_def]

lemma ofMicros_le {n : ℕ} (h : n < Date.maxOrdinal * 86400000000) :
    n / 86400000000 + 1 ≤ Date.maxOrdinal := by
  rw [Nat.mul_comm] at h
  exact Nat.succ_le_of_lt (Nat.div_lt_of_lt_mul h)

/-- The local time at a microsecond of the calendar. -/
def ofMicros (n : ℕ) (h : n < Date.maxOrdinal * 86400000000) : LocalTime where
  date := .ofNumber (n / 86400000000 + 1) ⟨Nat.le_add_left _ _, ofMicros_le h⟩
  micros := n % 86400000000
  hmicros := Nat.mod_lt _ (by decide)

end DateTime

end ChatBI.Lib
