import ChatBI.Lib.Calendar
import ChatBI.Lib.Dict
import Mathlib.Data.Option.Basic

/-!
# The date range of a result

`actual_date_range` takes the conditions on the calendar from the conjuncts of a `WHERE` clause
and intersects them. The resolution of a column to its physical name, `date.fromisoformat` and
`int` are parameters.
-/

namespace ChatBI.Online

open ChatBI.Lib

/-- An expression of the statement, as far as `result_time` looks at it. -/
inductive Node (Column : Type) where
  | column (c : Column)
  | literal (text : String)
  | cast (this : Node Column)
  | other

/-- `exp.EQ`, `exp.GTE`, `exp.GT`, `exp.LT` and `exp.LTE`. -/
inductive Comparison where
  | eq
  | gte
  | gt
  | lt
  | lte
  deriving DecidableEq

inductive Predicate (Column : Type) where
  | between (symmetric : Bool) (this low high : Node Column)
  | compare (op : Comparison) (left right : Node Column)
  | other

inductive CalendarPart where
  | year
  | month
  | quarter
  deriving DecidableEq

variable {Column : Type}

def literal : Node Column → Option String
  | .literal text => some text
  | .cast (.literal text) => some text
  | _ => none

def fullDate : String := "mart_sales.dim_date.full_date"

/-- The part of the calendar that a physical column holds. -/
def calendarColumn (physical : String) : Option CalendarPart :=
  if physical = "mart_sales.dim_date.year" then some .year
  else if physical = "mart_sales.dim_date.month" then some .month
  else if physical = "mart_sales.dim_date.quarter" then some .quarter
  else none

structure RangeState where
  consumed : List Nat
  values : Dict CalendarPart Int
  lower : Option Date
  upper : Option Date

/-- `max(lower, start) if lower else start`. -/
def raise (lower : Option Date) (start : Date) : Option Date := some (lower.elim start (max · start))

/-- `min(upper, end) if upper else end`. -/
def reduce (upper : Option Date) (stop : Date) : Option Date := some (upper.elim stop (min · stop))

/-- The first day that satisfies a comparison and the first one behind those. `none` for a date
at the end of the calendar. -/
def Comparison.bounds (boundary : Date) : Comparison → Option (Option Date × Option Date)
  | .eq => (boundary.addDays 1).map fun next => (some boundary, some next)
  | .gte => some (some boundary, none)
  | .gt => (boundary.addDays 1).map fun next => (some next, none)
  | .lt => some (none, some boundary)
  | .lte => (boundary.addDays 1).map fun next => (none, some next)

/-- The range within the bounds of another condition. -/
def RangeState.within (s : RangeState) (index : Nat) (bounds : Option Date × Option Date) :
    RangeState where
  consumed := index :: s.consumed
  values := s.values
  lower := bounds.1.elim s.lower (raise s.lower)
  upper := bounds.2.elim s.upper (reduce s.upper)

section Source

variable (physical : Column → Option String) (fromisoformat : String → Option Date)
  (int : String → Option Int)

/-- `_physical`. -/
def physicalOf : Node Column → Option String
  | .column c => physical c
  | _ => none

/-- The days of a `BETWEEN`. -/
def betweenBounds (low high : Node Column) : Option (Option Date × Option Date) := do
  let start ← (literal low).bind fromisoformat
  let last ← (literal high).bind fromisoformat
  let stop ← last.addDays 1
  return (some start, some stop)

/-- One turn of the loop over the predicates. `none` when it returns without a range. -/
def rangeStep (s : RangeState) (predicate : Predicate Column) (index : Nat) : Option RangeState :=
  match predicate with
  | .between _ this low high =>
    if physicalOf physical this = some fullDate then
      some ((betweenBounds fromisoformat low high).elim s (s.within index))
    else some s
  | .compare op left right =>
    match literal right with
    | none => some s
    | some value =>
      match (physicalOf physical left).bind calendarColumn with
      | some part =>
        if op = .eq then
          if Dict.get? s.values part ≠ none then none
          else
            match int value with
            | none => some s
            | some v => some { s with
                consumed := index :: s.consumed
                values := Dict.set s.values part v }
        else some s
      | none =>
        if physicalOf physical left = some fullDate then
          some (((fromisoformat value).bind op.bounds).elim s (s.within index))
        else some s
  | .other => some s

/-- The loop over the predicates. -/
def rangeLoop (predicates : List (Predicate Column)) : Option RangeState :=
  predicates.zipIdx.foldlM (fun s entry => rangeStep physical fromisoformat int s entry.1 entry.2)
    ⟨[], [], none, none⟩

/-- The dates of the values of the calendar columns. -/
def calendarRange (values : Dict CalendarPart Int) : Option (Date × Date) := do
  let year ← Dict.get? values .year
  match Dict.get? values .month, Dict.get? values .quarter with
  | some month, quarter =>
    if quarter.any fun quarter => (month - 1) / 3 + 1 ≠ quarter then none
    else
      let start ← Date.new? year month 1
      let stop ← Date.new? (if month = 12 then year + 1 else year) (month % 12 + 1) 1
      return (start, stop)
  | none, some quarter =>
    if 1 ≤ quarter ∧ quarter ≤ 4 then
      let start ← Date.new? year ((quarter - 1) * 3 + 1) 1
      let stop ← Date.new? (if quarter = 4 then year + 1 else year)
        (if quarter < 4 then quarter * 3 + 1 else 1) 1
      return (start, stop)
    else none
  | none, none =>
    let start ← Date.new? year 1 1
    let stop ← Date.new? (year + 1) 1 1
    return (start, stop)

/-- The bounds behind the loop. -/
def finalBounds (s : RangeState) : Option (Option Date × Option Date) :=
  if s.values = [] then some (s.lower, s.upper)
  else (calendarRange s.values).map fun range => (raise s.lower range.1, reduce s.upper range.2)

/-- `actual_date_range`: the first day and the first one behind the range, and the positions of
the predicates that it stands for. -/
def actualDateRange (predicates : List (Predicate Column)) (role : Bool) :
    Option (Date × Date) × List Nat :=
  if role then
    match rangeLoop physical fromisoformat int predicates with
    | none => (none, [])
    | some s =>
      match finalBounds s with
      | some (some lower, some upper) => if lower < upper then (some (lower, upper), s.consumed)
        else (none, [])
      | _ => (none, [])
  else (none, [])

end Source

/-- What a comparison says. -/
def Comparison.Holds {α : Type} [LT α] [LE α] (x y : α) : Comparison → Prop
  | .eq => x = y
  | .gte => y ≤ x
  | .gt => y < x
  | .lt => x < y
  | .lte => x ≤ y

/-- The calendar columns of a date. -/
def CalendarPart.of (d : Date) : CalendarPart → Int
  | .year => d.year
  | .month => d.month
  | .quarter => (d.month - 1) / 3 + 1

/-- A `BETWEEN SYMMETRIC` takes its ends in either order. -/
def Between (symmetric : Bool) (d low high : Date) : Prop :=
  low ≤ d ∧ d ≤ high ∨ symmetric = true ∧ high ≤ d ∧ d ≤ low

section Meaning

variable (physical : Column → Option String) (fromisoformat : String → Option Date)
  (int : String → Option Int)

/-- A calendar date satisfies a predicate on it. -/
inductive Satisfies (d : Date) : Predicate Column → Prop
  | between {symmetric : Bool} {this low high : Node Column} {start last : Date}
      (hcolumn : physicalOf physical this = some fullDate)
      (hlow : (literal low).bind fromisoformat = some start)
      (hhigh : (literal high).bind fromisoformat = some last)
      (h : Between symmetric d start last) : Satisfies d (.between symmetric this low high)
  | fullDate {op : Comparison} {left right : Node Column} {boundary : Date}
      (hcolumn : physicalOf physical left = some fullDate)
      (hvalue : (literal right).bind fromisoformat = some boundary) (h : op.Holds d boundary) :
      Satisfies d (.compare op left right)
  | part {op : Comparison} {left right : Node Column} {part : CalendarPart} {v : Int}
      (hcolumn : (physicalOf physical left).bind calendarColumn = some part)
      (hvalue : (literal right).bind int = some v) (h : op.Holds (part.of d) v) :
      Satisfies d (.compare op left right)

end Meaning

variable {physical : Column → Option String} {fromisoformat : String → Option Date}
  {int : String → Option Int} {predicates : List (Predicate Column)} {d : Date}

/-- A date is within bounds. -/
def Inside (d : Date) (bounds : Option Date × Option Date) : Prop :=
  (∀ lower ∈ bounds.1, lower ≤ d) ∧ ∀ upper ∈ bounds.2, d < upper

/-- A date has the values of the calendar columns. -/
def HasValues (d : Date) (values : Dict CalendarPart Int) : Prop :=
  ∀ part v, Dict.get? values part = some v → part.of d = v

/-- The predicate with the ends of a `BETWEEN` in their written order. -/
def Predicate.plain : Predicate Column → Predicate Column
  | .between _ this low high => .between false this low high
  | predicate => predicate

/-- The state stands for the consumed predicates. -/
def Stands (physical : Column → Option String) (fromisoformat : String → Option Date)
    (int : String → Option Int) (predicates : List (Predicate Column)) (s : RangeState) : Prop :=
  ∀ d, Inside d (s.lower, s.upper) ∧ HasValues d s.values ↔
    ∀ i ∈ s.consumed, ∃ predicate, predicates[i]? = some predicate ∧
      Satisfies physical fromisoformat int d predicate.plain

section Bounds

variable {bounds : Option Date × Option Date} {boundary next : Date} {s : RangeState}

lemma next_spec (h : boundary.addDays 1 = some next) :
    (next ≤ d ↔ boundary < d) ∧ (d < next ↔ d ≤ boundary) := by
  have hnext := Date.addDays_eq_some_iff.mp h
  rw [← Date.toordinal_le_iff, ← Date.toordinal_le_iff, ← Date.toordinal_lt_iff,
    ← Date.toordinal_lt_iff]
  omega

/-- The bounds of a comparison say what it says. -/
lemma inside_bounds {op : Comparison} (h : op.bounds boundary = some bounds) :
    Inside d bounds ↔ op.Holds d boundary := by
  unfold Inside
  cases op with
  | eq =>
    obtain ⟨next, hnext, rfl⟩ := Option.map_eq_some_iff.mp h
    have hboth : boundary ≤ d ∧ d ≤ boundary ↔ d = boundary := by
      rw [and_comm, le_antisymm_iff]
    simpa [Comparison.Holds, next_spec hnext] using hboth
  | gte =>
    cases h
    simp [Comparison.Holds]
  | gt =>
    obtain ⟨next, hnext, rfl⟩ := Option.map_eq_some_iff.mp h
    simp [Comparison.Holds, next_spec hnext]
  | lt =>
    cases h
    simp [Comparison.Holds]
  | lte =>
    obtain ⟨next, hnext, rfl⟩ := Option.map_eq_some_iff.mp h
    simp [Comparison.Holds, next_spec hnext]

lemma inside_between {low high : Node Column}
    (h : betweenBounds fromisoformat low high = some bounds) :
    ∃ start last, (literal low).bind fromisoformat = some start ∧
      (literal high).bind fromisoformat = some last ∧
        ∀ d, Inside d bounds ↔ start ≤ d ∧ d ≤ last := by
  unfold betweenBounds at h
  obtain ⟨start, hstart, h⟩ := Option.bind_eq_some_iff.mp h
  obtain ⟨last, hlast, h⟩ := Option.bind_eq_some_iff.mp h
  obtain ⟨stop, hstop, h⟩ := Option.bind_eq_some_iff.mp h
  cases h
  refine ⟨start, last, hstart, hlast, fun d => ?_⟩
  simp [Inside, next_spec hstop]

lemma inside_raise {lower : Option Date} {start : Date} :
    (∀ l ∈ raise lower start, l ≤ d) ↔ (∀ l ∈ lower, l ≤ d) ∧ start ≤ d := by
  cases lower <;> simp [raise]

lemma inside_reduce {upper : Option Date} {stop : Date} :
    (∀ u ∈ reduce upper stop, d < u) ↔ (∀ u ∈ upper, d < u) ∧ d < stop := by
  cases upper <;> simp [reduce]

/-- Bounds within bounds. -/
lemma inside_within (index : Nat) :
    Inside d ((s.within index bounds).lower, (s.within index bounds).upper) ↔
      Inside d (s.lower, s.upper) ∧ Inside d bounds := by
  obtain ⟨lower, upper⟩ := bounds
  unfold Inside RangeState.within
  cases lower with
  | none =>
    cases upper with
    | none => simp
    | some stop =>
      simp only [Option.elim_none, Option.elim_some, inside_reduce]
      simp [and_assoc]
  | some start =>
    cases upper with
    | none =>
      simp only [Option.elim_none, Option.elim_some, inside_raise]
      simp [and_assoc, and_comm]
    | some stop =>
      simp only [Option.elim_some, inside_raise, inside_reduce]
      simp [and_assoc, and_left_comm]

end Bounds

section Loop

variable {s s' : RangeState} {predicate : Predicate Column} {index : Nat}

/-- A consumed predicate whose bounds say what it says. -/
lemma Stands.within (h : Stands physical fromisoformat int predicates s)
    {bounds : Option Date × Option Date} (hindex : predicates[index]? = some predicate)
    (hbounds : ∀ d, Inside d bounds ↔ Satisfies physical fromisoformat int d predicate.plain) :
    Stands physical fromisoformat int predicates (s.within index bounds) := by
  intro d
  have hconsumed : (s.within index bounds).consumed = index :: s.consumed := rfl
  have hvalues : (s.within index bounds).values = s.values := rfl
  rw [inside_within, hvalues, hconsumed, List.forall_mem_cons, hindex, and_right_comm, h d,
    hbounds d, and_comm]
  simp

/-- A consumed value of a calendar column. -/
lemma Stands.value (h : Stands physical fromisoformat int predicates s) {part : CalendarPart}
    {v : Int} (hnew : Dict.get? s.values part = none)
    (hindex : predicates[index]? = some predicate)
    (hvalue : ∀ d, part.of d = v ↔ Satisfies physical fromisoformat int d predicate.plain) :
    Stands physical fromisoformat int predicates
      { s with consumed := index :: s.consumed, values := Dict.set s.values part v } := by
  intro d
  have hvalues : HasValues d (Dict.set s.values part v) ↔
      part.of d = v ∧ HasValues d s.values := by
    constructor
    · intro hall
      refine ⟨hall part v Dict.get?_set_self, ?_⟩
      intro part' v' hget
      have hne : part ≠ part' := by
        rintro rfl
        rw [hnew] at hget
        cases hget
      exact hall part' v' ((Dict.get?_set_of_ne hne).trans hget)
    · rintro ⟨hpart, hall⟩ part' v' hget
      by_cases hsame : part = part'
      · subst hsame
        rw [Dict.get?_set_self] at hget
        cases hget
        exact hpart
      · rw [Dict.get?_set_of_ne hsame] at hget
        exact hall part' v' hget
  rw [hvalues, List.forall_mem_cons, hindex, and_left_comm, h d, hvalue d]
  simp

lemma calendarColumn_fullDate : calendarColumn fullDate = none := by decide

/-- One turn of the loop. -/
lemma Stands.step (h : Stands physical fromisoformat int predicates s)
    (hindex : predicates[index]? = some predicate)
    (hstep : rangeStep physical fromisoformat int s predicate index = some s') :
    Stands physical fromisoformat int predicates s' := by
  cases predicate with
  | other =>
    cases hstep
    exact h
  | between symmetric this low high =>
    unfold rangeStep at hstep
    dsimp only at hstep
    split at hstep
    · next hcolumn =>
      cases hbounds : betweenBounds fromisoformat low high with
      | none =>
        rw [hbounds] at hstep
        cases hstep
        exact h
      | some bounds =>
        rw [hbounds] at hstep
        cases hstep
        apply h.within hindex
        intro d
        obtain ⟨start, last, hstart, hlast, hinside⟩ := inside_between hbounds
        rw [hinside d]
        constructor
        · intro hrange
          exact .between hcolumn hstart hlast (.inl hrange)
        · intro hsatisfies
          cases hsatisfies with
          | between _ hlow hhigh hrange =>
            cases hstart.symm.trans hlow
            cases hlast.symm.trans hhigh
            exact hrange.resolve_right fun hsymmetric => Bool.false_ne_true hsymmetric.1
    · cases hstep
      exact h
  | compare op left right =>
    unfold rangeStep at hstep
    dsimp only at hstep
    cases hvalue : literal right with
    | none =>
      rw [hvalue] at hstep
      cases hstep
      exact h
    | some value =>
      rw [hvalue] at hstep
      dsimp only at hstep
      cases hpart : (physicalOf physical left).bind calendarColumn with
      | some part =>
        rw [hpart] at hstep
        dsimp only at hstep
        split at hstep
        · next heq =>
          split at hstep
          · cases hstep
          · next hnew =>
            cases hint : int value with
            | none =>
              rw [hint] at hstep
              cases hstep
              exact h
            | some v =>
              rw [hint] at hstep
              cases hstep
              apply h.value (not_not.mp hnew) hindex
              intro d
              subst heq
              constructor
              · intro hof
                exact .part hpart (by rw [hvalue]; exact hint) hof
              · intro hsatisfies
                cases hsatisfies with
                | fullDate hcolumn _ _ =>
                  rw [hcolumn, Option.bind_some, calendarColumn_fullDate] at hpart
                  cases hpart
                | part hcolumn hv hof =>
                  cases hpart.symm.trans hcolumn
                  rw [hvalue, Option.bind_some, hint] at hv
                  cases hv
                  exact hof
        · cases hstep
          exact h
      | none =>
        rw [hpart] at hstep
        dsimp only at hstep
        split at hstep
        · next hcolumn =>
          cases hbounds : (fromisoformat value).bind op.bounds with
          | none =>
            rw [hbounds] at hstep
            cases hstep
            exact h
          | some bounds =>
            rw [hbounds] at hstep
            cases hstep
            obtain ⟨boundary, hboundary, hop⟩ := Option.bind_eq_some_iff.mp hbounds
            apply h.within hindex
            intro d
            rw [inside_bounds hop]
            constructor
            · intro hholds
              exact .fullDate hcolumn (by rw [hvalue]; exact hboundary) hholds
            · intro hsatisfies
              cases hsatisfies with
              | fullDate _ hv hholds =>
                rw [hvalue, Option.bind_some, hboundary] at hv
                cases hv
                exact hholds
              | part hcolumn' _ _ =>
                cases hpart.symm.trans hcolumn'
        · cases hstep
          exact h

lemma Stands.loop (hloop : rangeLoop physical fromisoformat int predicates = some s) :
    Stands physical fromisoformat int predicates s := by
  have hrun : ∀ (entries : List (Predicate Column × Nat)) (s₀ : RangeState),
      (∀ entry ∈ entries, predicates[entry.2]? = some entry.1) →
      Stands physical fromisoformat int predicates s₀ →
      entries.foldlM (fun s entry => rangeStep physical fromisoformat int s entry.1 entry.2) s₀ =
        some s → Stands physical fromisoformat int predicates s := by
    intro entries
    induction entries with
    | nil =>
      intro s₀ _ h₀ hrun
      cases hrun
      exact h₀
    | cons entry entries ih =>
      intro s₀ hentries h₀ hrun
      rw [List.foldlM_cons] at hrun
      obtain ⟨s₁, hfirst, hrest⟩ := Option.bind_eq_some_iff.mp hrun
      exact ih s₁ (fun e he => hentries e (List.mem_cons_of_mem _ he))
        (h₀.step (hentries entry List.mem_cons_self) hfirst) hrest
  apply hrun predicates.zipIdx _ _ _ hloop
  · intro entry hentry
    exact List.mem_zipIdx_iff_getElem?.mp hentry
  · intro d
    simp [Inside, HasValues]

end Loop

section Calendar

variable {values : Dict CalendarPart Int} {start stop : Date}

/-- The first day of one month, and that of another one behind it. -/
lemma between_firsts {year month year' month' : Int} (hstart : Date.new? year month 1 = some start)
    (hstop : Date.new? year' month' 1 = some stop) :
    start ≤ d ∧ d < stop ↔
      (year < d.year ∨ year = d.year ∧ month ≤ d.month) ∧
        (d.year < year' ∨ d.year = year' ∧ d.month < month') := by
  obtain ⟨hyear, hmonth, hday⟩ := Date.new?_eq_some_iff.mp hstart
  obtain ⟨hyear', hmonth', hday'⟩ := Date.new?_eq_some_iff.mp hstop
  have hm := d.hmonth
  have hd := d.hday
  have h31 : daysInMonth (isLeap d.year) d.month ≤ 31 := Date.daysInMonth_le
  have hs := start.hmonth
  have he := stop.hmonth
  rw [Date.le_iff, Date.lt_iff]
  unfold Date.key
  omega

lemma hasValues_iff : HasValues d values ↔
    (∀ v ∈ Dict.get? values .year, (d.year : Int) = v) ∧
      (∀ v ∈ Dict.get? values .month, (d.month : Int) = v) ∧
        ∀ v ∈ Dict.get? values .quarter, ((d.month : Int) - 1) / 3 + 1 = v := by
  constructor
  · intro h
    exact ⟨h .year, h .month, h .quarter⟩
  · rintro ⟨hyear, hmonth, hquarter⟩ part v hget
    cases part with
    | year => exact hyear v hget
    | month => exact hmonth v hget
    | quarter => exact hquarter v hget

/-- The dates of a calendar range are those with its values. -/
lemma calendarRange_spec (h : calendarRange values = some (start, stop)) :
    start ≤ d ∧ d < stop ↔ HasValues d values := by
  have hm := d.hmonth
  rw [hasValues_iff]
  unfold calendarRange at h
  obtain ⟨year, hyear, h⟩ := Option.bind_eq_some_iff.mp h
  rw [hyear]
  cases hmonth : Dict.get? values .month with
  | some month =>
    rw [hmonth] at h
    dsimp only at h
    split at h
    · cases h
    · next hquarter =>
      obtain ⟨start', hstart, h⟩ := Option.bind_eq_some_iff.mp h
      obtain ⟨stop', hstop, h⟩ := Option.bind_eq_some_iff.mp h
      cases h
      rw [between_firsts hstart hstop]
      have hvalid := Date.new?_eq_some_iff.mp hstart
      have hs := start.hmonth
      cases hq : Dict.get? values .quarter with
      | none =>
        simp only [Option.mem_def, Option.some.injEq, forall_eq', reduceCtorEq, false_implies,
          implies_true, and_true]
        split <;> omega
      | some quarter =>
        rw [hq, Option.any_some, decide_eq_true_iff, not_not] at hquarter
        simp only [Option.mem_def, Option.some.injEq, forall_eq']
        split <;> omega
  | none =>
    rw [hmonth] at h
    cases hq : Dict.get? values .quarter with
    | some quarter =>
      rw [hq] at h
      dsimp only at h
      split at h
      · obtain ⟨start', hstart, h⟩ := Option.bind_eq_some_iff.mp h
        obtain ⟨stop', hstop, h⟩ := Option.bind_eq_some_iff.mp h
        cases h
        rw [between_firsts hstart hstop]
        simp only [Option.mem_def, Option.some.injEq, forall_eq', reduceCtorEq, false_implies,
          implies_true, true_and]
        split <;> split <;> omega
      · cases h
    | none =>
      rw [hq] at h
      obtain ⟨start', hstart, h⟩ := Option.bind_eq_some_iff.mp h
      obtain ⟨stop', hstop, h⟩ := Option.bind_eq_some_iff.mp h
      cases h
      rw [between_firsts hstart hstop]
      simp only [Option.mem_def, Option.some.injEq, forall_eq', reduceCtorEq, false_implies,
        implies_true, and_true]
      omega

end Calendar

/-- The dates between the final bounds satisfy the consumed predicates, their ends as written. -/
lemma finalBounds_spec {s : RangeState} {bounds : Option Date × Option Date}
    (hs : Stands physical fromisoformat int predicates s) (h : finalBounds s = some bounds) :
    Inside d bounds ↔ ∀ i ∈ s.consumed, ∃ predicate, predicates[i]? = some predicate ∧
      Satisfies physical fromisoformat int d predicate.plain := by
  rw [← hs d]
  unfold finalBounds at h
  split at h
  · next hempty =>
    cases h
    have hvalues : HasValues d s.values := by
      rw [hempty]
      intro part v hget
      cases hget
    exact (and_iff_left hvalues).symm
  · obtain ⟨⟨start, stop⟩, hrange, hbounds⟩ := Option.map_eq_some_iff.mp h
    rw [← hbounds, ← calendarRange_spec hrange]
    unfold Inside
    rw [inside_raise, inside_reduce]
    exact and_and_and_comm

/-- A `BETWEEN` that some date satisfies in the written order says nothing more when it is
symmetric. -/
lemma satisfies_iff_plain {predicate : Predicate Column} {d₀ : Date}
    (h₀ : Satisfies physical fromisoformat int d₀ predicate.plain) :
    Satisfies physical fromisoformat int d predicate ↔
      Satisfies physical fromisoformat int d predicate.plain := by
  cases predicate with
  | other => exact Iff.rfl
  | compare op left right => exact Iff.rfl
  | between symmetric this low high =>
    constructor
    · intro h
      cases h with
      | between hcolumn hlow hhigh hrange =>
        cases h₀ with
        | between _ hlow₀ hhigh₀ hrange₀ =>
          cases hlow.symm.trans hlow₀
          cases hhigh.symm.trans hhigh₀
          have horder := hrange₀.resolve_right fun hsymmetric => Bool.false_ne_true hsymmetric.1
          refine .between hcolumn hlow hhigh (.inl ?_)
          rcases hrange with hrange | ⟨-, hlast, hfirst⟩
          · exact hrange
          · exact ⟨horder.1.trans (horder.2.trans hlast), hfirst.trans (horder.1.trans horder.2)⟩
    · intro h
      cases h with
      | between hcolumn hlow hhigh hrange =>
        have horder := hrange.resolve_right fun hsymmetric => Bool.false_ne_true hsymmetric.1
        exact .between hcolumn hlow hhigh (.inl horder)

lemma actualDateRange_some {role : Bool} {start stop : Date} {consumed : List Nat}
    (h : actualDateRange physical fromisoformat int predicates role =
      (some (start, stop), consumed)) :
    ∃ s, rangeLoop physical fromisoformat int predicates = some s ∧
      finalBounds s = some (some start, some stop) ∧ start < stop ∧ consumed = s.consumed := by
  unfold actualDateRange at h
  split at h
  · split at h
    · cases h
    · next s hloop =>
      split at h
      · next lower upper hbounds =>
        split at h
        · next hlt =>
          cases h
          exact ⟨s, hloop, hbounds, hlt, rfl⟩
        · cases h
      · cases h
  · cases h

lemma actualDateRange_none {role : Bool} {consumed : List Nat}
    (h : actualDateRange physical fromisoformat int predicates role = (none, consumed)) :
    consumed = [] := by
  unfold actualDateRange at h
  split at h
  · split at h
    · cases h
      rfl
    · split at h
      · split at h
        · cases h
        · cases h
          rfl
      · cases h
        rfl
  · cases h
    rfl

/-- A calendar date is in the returned range exactly when it satisfies every consumed predicate;
without a range nothing is consumed. -/
theorem actualDateRange_exact (physical : Column → Option String)
    (fromisoformat : String → Option Date) (int : String → Option Int)
    (predicates : List (Predicate Column)) (role : Bool) :
    (∀ start stop consumed, actualDateRange physical fromisoformat int predicates role =
        (some (start, stop), consumed) →
      ∀ d, (∀ i ∈ consumed, ∃ predicate, predicates[i]? = some predicate ∧
        Satisfies physical fromisoformat int d predicate) ↔ start ≤ d ∧ d < stop) ∧
    ∀ consumed, actualDateRange physical fromisoformat int predicates role = (none, consumed) →
      consumed = [] := by
  refine ⟨?_, fun consumed h => actualDateRange_none h⟩
  intro start stop consumed h d
  obtain ⟨s, hloop, hbounds, hlt, rfl⟩ := actualDateRange_some h
  have hplain : ∀ d, start ≤ d ∧ d < stop ↔
      ∀ i ∈ s.consumed, ∃ predicate, predicates[i]? = some predicate ∧
        Satisfies physical fromisoformat int d predicate.plain := by
    intro d
    rw [← finalBounds_spec (Stands.loop hloop) hbounds]
    simp [Inside]
  have hfirst := (hplain start).mp ⟨le_refl start, hlt⟩
  rw [hplain d]
  apply forall₂_congr
  intro i hi
  obtain ⟨predicate, hindex, h₀⟩ := hfirst i hi
  rw [hindex]
  simp only [Option.some.injEq, exists_eq_left']
  exact satisfies_iff_plain h₀

/-- February 2024 without its first day. -/
theorem actualDateRange_exact_february :
    let physical : String → Option String := some
    let first : Date := ⟨2024, 2, 1, by decide, by decide, by decide⟩
    let predicates : List (Predicate String) := [
      .compare .eq (.column "mart_sales.dim_date.year") (.literal "2024"),
      .compare .eq (.column "mart_sales.dim_date.month") (.literal "2"),
      .compare .gt (.column fullDate) (.cast (.literal "2024-02-01"))]
    let int : String → Option Int := fun text =>
      if text = "2024" then some 2024 else if text = "2" then some 2 else none
    let range := actualDateRange physical (fun _ => some first) int predicates true
    (range.1.map fun r => (r.1.day, r.2.month)) = some (2, 3) ∧ range.2 = [2, 1, 0] ∧
      ∀ start stop, range = (some (start, stop), [2, 1, 0]) → ∀ d,
        (∀ i ∈ [2, 1, 0], ∃ predicate, predicates[i]? = some predicate ∧
          Satisfies physical (fun _ => some first) int d predicate) ↔ start ≤ d ∧ d < stop := by
  intro physical first predicates int range
  refine ⟨by decide +kernel, by decide +kernel, ?_⟩
  intro start stop h
  exact (actualDateRange_exact physical (fun _ => some first) int predicates true).1 start stop
    [2, 1, 0] h

end ChatBI.Online
