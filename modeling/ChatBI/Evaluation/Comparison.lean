import ChatBI.Lib.DecimalArithmetic
import ChatBI.Lib.Matching
import ChatBI.Lib.Raises
import ChatBI.Semantic.NumericLiterals
import Mathlib.Data.Fintype.EquivFin
import Mathlib.Data.List.GetD

/-!
# Comparing results

`results_match` compares the result of a query with the expected one, cell by cell up to a tolerance.
Without an order the rows are matched by augmentation. `Decimal(text)` of a text is a parameter, and
so are the values that are neither numbers nor texts.
-/

namespace ChatBI.Evaluation

open ChatBI.Lib ChatBI.Semantic

/-- A `Decimal`. -/
inductive Numeral where
  | finite (number : DecimalNumber)
  | infinite (negative : Bool)
  | nan (signalling : Bool)
  deriving DecidableEq

/-- A `float`: a finite one by the decimal that its representation writes. -/
inductive Floating where
  | finite (number : DecimalNumber)
  | infinite (negative : Bool)
  | nan
  deriving DecidableEq

/-- A number in a cell. -/
inductive Number where
  | int (value : ℤ)
  | float (value : Floating)
  | decimal (value : Numeral)
  deriving DecidableEq

/-- The exact value of a number. -/
def Number.exact : Number → Numeral
  | int value => .finite ⟨value < 0, value.natAbs, 0⟩
  | float (.finite number) => .finite number
  | float (.infinite negative) => .infinite negative
  | float .nan => .nan false
  | decimal value => value

/-- `Decimal(str(value))`: an integer of too many digits has no text. -/
def Number.decimal? : Number → Option Numeral
  | int value => if value.natAbs < 10 ^ 4300 then some (Number.int value).exact else none
  | number => some number.exact

inductive Cell (ω : Type) where
  | none
  | bool (value : Bool)
  | number (value : Number)
  | text (value : String)
  | other (value : ω)
  deriving DecidableEq

/-- `QueryData`. -/
structure QueryData (ω : Type) where
  columns : List String
  rows : List (List (Cell ω))
  truncated : Bool

def tolerance : DecimalNumber := ⟨false, 1, -6⟩

/-- `==`, which a signalling NaN makes raise. -/
def Numeral.equal : Numeral → Numeral → Except DecimalSignal Bool
  | nan true, _ | _, nan true => .error .invalidOperation
  | finite x, finite y => .ok (x.value = y.value)
  | infinite x, infinite y => .ok (x = y)
  | _, _ => .ok false

/-- The tolerance of two finite numbers: absolute near zero, relative elsewhere. -/
def withinTolerance (actual expected : DecimalNumber) : Except DecimalSignal Bool := do
  let difference ← (actual.exactAdd expected.copyNegate).fix defaultContext
  let difference ← difference.exactAbs.fix defaultContext
  let actualSize ← actual.exactAbs.fix defaultContext
  let expectedSize ← expected.exactAbs.fix defaultContext
  let size := if actualSize.value < expectedSize.value then expectedSize else actualSize
  let relativeLimit ← (tolerance.exactMul size).fix defaultContext
  return difference.value ≤ max tolerance.value relativeLimit.value

/-- The tolerance of a number to itself and to its neighbours does not add up. -/
example : withinTolerance ⟨false, 0, 0⟩ ⟨false, 1, -6⟩ = .ok true ∧
    withinTolerance ⟨false, 1, -6⟩ ⟨false, 2, -6⟩ = .ok true ∧
    withinTolerance ⟨false, 0, 0⟩ ⟨false, 2, -6⟩ = .ok false := by decide +kernel

/-- `_numbers_match`. -/
def numbersMatch (actual expected : Number) : Except DecimalSignal Bool :=
  match actual.decimal?, expected.decimal? with
  | some (.finite x), some (.finite y) => withinTolerance x y
  | some x, some y => x.equal y
  | _, _ => actual.exact.equal expected.exact

/-- Untruncated results with as many columns and rows, all rows as wide as the columns are many. -/
structure Comparable {ω : Type} (actual expected : QueryData ω) : Prop where
  untruncated : actual.truncated = false ∧ expected.truncated = false
  columns : actual.columns.length = expected.columns.length
  rows : actual.rows.length = expected.rows.length
  widths : ∀ row ∈ actual.rows ++ expected.rows, row.length = actual.columns.length

lemma Comparable.perm {ω : Type} {actual expected : QueryData ω} (h : Comparable actual expected)
    {rows rows' : List (List (Cell ω))}
    (hrows : rows.Perm actual.rows) (hrows' : rows'.Perm expected.rows) :
    Comparable { actual with rows := rows } { expected with rows := rows' } := by
  refine ⟨h.untruncated, h.columns, ?_, ?_⟩
  · exact hrows.length_eq.trans (h.rows.trans hrows'.length_eq.symm)
  · intro row hrow
    exact h.widths row ((hrows.append hrows').mem_iff.mp hrow)

section Matching

variable {ω : Type} [DecidableEq ω] (decimalText : String → Option Numeral)

/-- `_values_match`. -/
def valuesMatch (normalize : Bool) (actual expected : Cell ω) : Except DecimalSignal Bool :=
  match actual, expected with
  | .none, .none => .ok true
  | .none, _ => .ok false
  | _, .none => .ok false
  | .number x, .number y => numbersMatch x y
  | .text text, .number y =>
    if normalize then
      match decimalText text with
      | some x => numbersMatch (.decimal x) y
      | none => .ok false
    else .ok false
  | .number _, _ => .ok false
  | _, .number _ => .ok false
  | actual, expected => .ok (actual = expected)

/-- `_rows_match`: behind the first pair of cells that does not match no other is compared. -/
def rowsMatch (normalize : Bool) (actual expected : List (Cell ω)) : Except DecimalSignal Bool :=
  if actual.length = expected.length then
    (actual.zip expected).allM fun pair => valuesMatch decimalText normalize pair.1 pair.2
  else .ok false

/-- `_rows_have_expected_width`. -/
def rowsHaveExpectedWidth (data : QueryData ω) : Bool :=
  data.rows.all fun row => row.length = data.columns.length

/-- Which expected rows each row matches. -/
def compareAll (normalize : Bool) (actual expected : List (List (Cell ω))) :
    Except DecimalSignal (List (List Bool)) :=
  actual.mapM fun row => expected.mapM fun row' => rowsMatch decimalText normalize row row'

/-- The expected rows that a row matches. -/
def candidates {n m : ℕ} (compared : List (List Bool)) (i : Fin n) : List (Fin m) :=
  (List.finRange m).filter fun j => (compared.getD i []).getD j false

/-- `results_match`. A search visits each expected row once, and so goes no deeper than there are
expected rows; `none` if it did. -/
def resultsMatch (orderSensitive normalize : Bool) (actual expected : QueryData ω) :
    Except DecimalSignal (Option Bool) :=
  if actual.truncated || expected.truncated then .ok (some false)
  else if actual.columns.length ≠ expected.columns.length then .ok (some false)
  else if actual.rows.length ≠ expected.rows.length then .ok (some false)
  else if !rowsHaveExpectedWidth actual || !rowsHaveExpectedWidth expected then .ok (some false)
  else if orderSensitive then
    some <$> (actual.rows.zip expected.rows).allM fun pair =>
      rowsMatch decimalText normalize pair.1 pair.2
  else do
    let compared ← compareAll decimalText normalize actual.rows expected.rows
    return Matching.assignAll (@candidates actual.rows.length expected.rows.length compared)
      (expected.rows.length + 1) (List.finRange actual.rows.length) fun _ => none

/-! ### Which numbers can be compared -/

/-- No signalling NaN. -/
def Numeral.Quiet (x : Numeral) : Prop := x ≠ nan true

/-- Finite numbers are in the range of the context, and so is their difference; others are no
signalling NaN. -/
def NumbersComputable (actual expected : Number) : Prop :=
  match actual.decimal?, expected.decimal? with
  | some (.finite x), some (.finite y) =>
    InRange x ∧ InRange y ∧ InRange (x.exactAdd y.copyNegate)
  | _, _ => actual.exact.Quiet ∧ expected.exact.Quiet

def ValuesComputable (normalize : Bool) (actual expected : Cell ω) : Prop :=
  match actual, expected with
  | .number x, .number y => NumbersComputable x y
  | .text text, .number y =>
    normalize = true → ∀ x, decimalText text = some x → NumbersComputable (.decimal x) y
  | _, _ => True

/-- Every pair of cells in front of which all pairs match. -/
def RowsComputable (normalize : Bool) (actual expected : List (Cell ω)) : Prop :=
  ∀ front pair back, actual.zip expected = front ++ pair :: back →
    (∀ pair ∈ front, valuesMatch decimalText normalize pair.1 pair.2 = .ok true) →
      ValuesComputable decimalText normalize pair.1 pair.2

/-- Every row of one result with every row of the other. -/
def Computable (normalize : Bool) (actual expected : QueryData ω) : Prop :=
  ∀ row ∈ actual.rows, ∀ row' ∈ expected.rows, RowsComputable decimalText normalize row row'

/-! ### What is promised -/

/-- Two rows match. -/
abbrev RowsAgree (normalize : Bool) (row row' : List (Cell ω)) : Prop :=
  rowsMatch decimalText normalize row row' = .ok true

/-- Without an order the comparison ends and accepts exactly when a bijection pairs matching rows;
with an order it accepts exactly when the rows match one by one, which the other one accepts as well;
and the order of the rows does not change the answer. -/
structure Exact (normalize : Bool) (actual expected : QueryData ω) : Prop where
  unordered : ∃ answer, resultsMatch decimalText false normalize actual expected = .ok (some answer) ∧
    (answer = true ↔ ∃ σ : Fin actual.rows.length ≃ Fin expected.rows.length,
      ∀ i, RowsAgree decimalText normalize (actual.rows.get i) (expected.rows.get (σ i)))
  ordered : ∃ answer, resultsMatch decimalText true normalize actual expected = .ok (some answer) ∧
    (answer = true ↔ List.Forall₂ (RowsAgree decimalText normalize) actual.rows expected.rows)
  implied : resultsMatch decimalText true normalize actual expected = .ok (some true) →
    resultsMatch decimalText false normalize actual expected = .ok (some true)
  permuted : ∀ rows rows', rows.Perm actual.rows → rows'.Perm expected.rows →
    resultsMatch decimalText false normalize { actual with rows := rows }
      { expected with rows := rows' } =
        resultsMatch decimalText false normalize actual expected

section Answers

variable {decimalText} {normalize : Bool}

lemma inRange_iff {x : DecimalNumber} : InRange x ↔ ∃ r, x.fix defaultContext = .ok r := by
  rw [DecimalNumber.exists_fix_iff]
  rfl

/-- The tolerance of a size of the context is far from its largest exponent. -/
lemma exists_relativeLimit {x size : DecimalNumber} (h : x.fix defaultContext = .ok size) :
    ∃ r, (tolerance.exactMul size).fix defaultContext = .ok r := by
  apply DecimalNumber.exists_fix_of_lt
  by_cases hsize : size.coefficient = 0
  · have hzero : (tolerance.exactMul size).coefficient = 0 := by
      unfold DecimalNumber.exactMul
      rw [hsize]
      rfl
    rw [DecimalNumber.magnitude_of_zero hzero]
    exact zpow_pos (by norm_num) _
  · have hproduct : (tolerance.exactMul size).coefficient ≠ 0 := by
      unfold DecimalNumber.exactMul tolerance
      dsimp only
      omega
    have hadjusted : ¬defaultContext.emax - 1 < (tolerance.exactMul size).adjusted := by
      have hwithin := (DecimalNumber.within_fix h).adjusted
      unfold DecimalNumber.adjusted DecimalNumber.exactMul tolerance at *
      dsimp only at hwithin ⊢
      rw [Nat.one_mul]
      omega
    rw [DecimalNumber.overflow_iff hproduct, sub_add_cancel] at hadjusted
    exact not_le.mp hadjusted

lemma exists_withinTolerance_iff {x y : DecimalNumber} :
    (∃ b, withinTolerance x y = .ok b) ↔
      InRange x ∧ InRange y ∧ InRange (x.exactAdd y.copyNegate) := by
  have habs : ∀ d : DecimalNumber, InRange d ↔ InRange d.exactAbs := fun _ => Iff.rfl
  rw [habs x, habs y]
  simp only [inRange_iff]
  unfold withinTolerance
  simp only [except_bind_ok]
  constructor
  · rintro ⟨b, difference, hdifference, _, -, actualSize, hactual, expectedSize, hexpected, -⟩
    exact ⟨⟨actualSize, hactual⟩, ⟨expectedSize, hexpected⟩, ⟨difference, hdifference⟩⟩
  · rintro ⟨⟨actualSize, hactual⟩, ⟨expectedSize, hexpected⟩, ⟨difference, hdifference⟩⟩
    obtain ⟨size, hsize⟩ :=
      DecimalNumber.exists_fix_of_magnitude hdifference
        (show difference.exactAbs.magnitude = difference.magnitude from rfl)
    obtain ⟨limit, hlimit⟩ : ∃ limit, (tolerance.exactMul
        (if actualSize.value < expectedSize.value then expectedSize else actualSize)).fix
          defaultContext = .ok limit := by
      split
      · exact exists_relativeLimit hexpected
      · exact exists_relativeLimit hactual
    exact ⟨_, difference, hdifference, size, hsize, actualSize, hactual, expectedSize, hexpected,
      limit, hlimit, rfl⟩

lemma exists_equal_iff {x y : Numeral} : (∃ b, x.equal y = .ok b) ↔ x.Quiet ∧ y.Quiet := by
  unfold Numeral.equal Numeral.Quiet
  split
  · simp
  · simp
  · simp
  · simp
  · next hx hy _ _ => simp_all

lemma exact_of_decimal? {x : Number} {d : Numeral} (h : x.decimal? = some d) : x.exact = d := by
  unfold Number.decimal? at h
  split at h
  · split at h
    · exact Option.some.inj h
    · cases h
  · exact Option.some.inj h

lemma exists_numbersMatch_iff {x y : Number} :
    (∃ b, numbersMatch x y = .ok b) ↔ NumbersComputable x y := by
  unfold numbersMatch NumbersComputable
  cases hx : x.decimal? with
  | none => exact exists_equal_iff
  | some dx =>
    cases hy : y.decimal? with
    | none =>
      cases dx with
      | finite | infinite | nan => exact exists_equal_iff
    | some dy =>
      rw [exact_of_decimal? hx, exact_of_decimal? hy]
      cases dx with
      | finite dx =>
        cases dy with
        | finite dy => exact exists_withinTolerance_iff
        | infinite | nan => exact exists_equal_iff
      | infinite | nan => exact exists_equal_iff

lemma exists_valuesMatch_iff {actual expected : Cell ω} :
    (∃ b, valuesMatch decimalText normalize actual expected = .ok b) ↔
      ValuesComputable decimalText normalize actual expected := by
  unfold valuesMatch ValuesComputable
  cases actual with
  | number x =>
    cases expected with
    | number y => exact exists_numbersMatch_iff
    | none | bool | text | other => exact iff_of_true ⟨_, rfl⟩ trivial
  | text text =>
    cases expected with
    | number y =>
      cases normalize with
      | false => exact iff_of_true ⟨_, rfl⟩ fun h => absurd h Bool.false_ne_true
      | true =>
        dsimp only
        rw [if_pos rfl]
        cases decimalText text with
        | none => exact iff_of_true ⟨_, rfl⟩ fun _ x hx => nomatch hx
        | some x =>
          rw [exists_numbersMatch_iff]
          exact ⟨fun h _ _ hx => Option.some.inj hx ▸ h, fun h => h rfl x rfl⟩
    | none | bool | text | other => exact iff_of_true ⟨_, rfl⟩ trivial
  | none | bool | other =>
    cases expected with
    | none | bool | text | other | number => exact iff_of_true ⟨_, rfl⟩ trivial

lemma exists_rowsMatch_iff {row row' : List (Cell ω)} (h : row.length = row'.length) :
    (∃ b, rowsMatch decimalText normalize row row' = .ok b) ↔
      RowsComputable decimalText normalize row row' := by
  unfold rowsMatch RowsComputable
  rw [if_pos h, exists_allM_iff]
  simp only [exists_valuesMatch_iff]

end Answers

section Results

variable {decimalText} {normalize : Bool} {actual expected : QueryData ω}

lemma exists_compareAll_iff (h : Comparable actual expected) :
    (∃ compared, compareAll decimalText normalize actual.rows expected.rows = .ok compared) ↔
      Computable decimalText normalize actual expected := by
  unfold compareAll Computable
  simp only [exists_mapM_ok_iff]
  refine forall₂_congr fun row hrow => forall₂_congr fun row' hrow' => ?_
  apply exists_rowsMatch_iff
  have hwidth := h.widths row (List.mem_append_left _ hrow)
  exact hwidth.trans (h.widths row' (List.mem_append_right _ hrow')).symm

/-- The table of the comparisons. -/
lemma rowsMatch_of_compareAll {rows rows' : List (List (Cell ω))} {compared : List (List Bool)}
    (h : compareAll decimalText normalize rows rows' = .ok compared) (i : Fin rows.length)
    (j : Fin rows'.length) : rowsMatch decimalText normalize (rows.get i) (rows'.get j) =
      .ok ((compared.getD i []).getD j false) := by
  have houter := mapM_ok h
  have hi : i.val < compared.length := houter.length_eq ▸ i.isLt
  have hinner := mapM_ok (houter.get i.isLt hi)
  have hj : j.val < compared[i.val].length := hinner.length_eq ▸ j.isLt
  have hcell := hinner.get j.isLt hj
  rw [List.getD_eq_getElem _ _ hi, List.getD_eq_getElem _ _ hj]
  exact hcell

/-- Comparable results get past the checks. -/
lemma resultsMatch_eq (h : Comparable actual expected) (orderSensitive : Bool) :
    resultsMatch decimalText orderSensitive normalize actual expected =
      if orderSensitive then
        some <$> (actual.rows.zip expected.rows).allM fun pair =>
          rowsMatch decimalText normalize pair.1 pair.2
      else do
        let compared ← compareAll decimalText normalize actual.rows expected.rows
        return Matching.assignAll (@candidates actual.rows.length expected.rows.length compared)
          (expected.rows.length + 1) (List.finRange actual.rows.length) fun _ => none := by
  have hactual : rowsHaveExpectedWidth actual = true := by
    apply List.all_eq_true.mpr
    intro row hrow
    exact decide_eq_true (h.widths row (List.mem_append_left _ hrow))
  have hexpected : rowsHaveExpectedWidth expected = true := by
    apply List.all_eq_true.mpr
    intro row hrow
    apply decide_eq_true
    rw [← h.columns]
    exact h.widths row (List.mem_append_right _ hrow)
  unfold resultsMatch
  rw [h.untruncated.1, h.untruncated.2, hactual, hexpected, if_neg (not_not.mpr h.columns),
    if_neg (not_not.mpr h.rows)]
  rfl

/-- Every row has a row of its own exactly when the rows can be paired. -/
lemma matchable_candidates_iff {rows rows' : List (List (Cell ω))}
    (hlength : rows.length = rows'.length) {compared : List (List Bool)}
    (h : compareAll decimalText normalize rows rows' = .ok compared) :
    Matching.Matchable (@candidates rows.length rows'.length compared) ↔
      Matching.Pairing (RowsAgree decimalText normalize) rows rows' := by
  have hmem : ∀ i j, j ∈ @candidates rows.length rows'.length compared i ↔
      RowsAgree decimalText normalize (rows.get i) (rows'.get j) := by
    intro i j
    unfold candidates RowsAgree
    rw [List.mem_filter, and_iff_right (List.mem_finRange j), rowsMatch_of_compareAll h i j]
    exact ⟨fun heq => congrArg _ heq, fun heq => Except.ok.inj heq⟩
  constructor
  · rintro ⟨f, hinjective, hf⟩
    have hbijective : Function.Bijective f := by
      apply (Fintype.bijective_iff_injective_and_card f).mpr ⟨hinjective, ?_⟩
      rw [Fintype.card_fin, Fintype.card_fin, hlength]
    exact ⟨Equiv.ofBijective f hbijective, fun i => (hmem i _).mp (hf i)⟩
  · rintro ⟨σ, hσ⟩
    exact ⟨σ, σ.injective, fun i => (hmem i _).mpr (hσ i)⟩

/-- Without an order the comparison of computable results ends, and accepts exactly when the rows can
be paired. -/
lemma resultsMatch_unordered (h : Comparable actual expected)
    (hcomputable : Computable decimalText normalize actual expected) :
    ∃ answer, resultsMatch decimalText false normalize actual expected = .ok (some answer) ∧
      (answer = true ↔ Matching.Pairing (RowsAgree decimalText normalize) actual.rows
        expected.rows) := by
  obtain ⟨compared, hcompared⟩ := (exists_compareAll_iff h).mpr hcomputable
  rw [resultsMatch_eq h, if_neg Bool.false_ne_true, hcompared,
    ← matchable_candidates_iff h.rows hcompared]
  have hdepth : Fintype.card (Fin expected.rows.length) < expected.rows.length + 1 := by
    rw [Fintype.card_fin]
    exact Nat.lt_succ_self _
  obtain ⟨answer, hanswer, hiff⟩ :
      ∃ answer, Matching.assignAll (@candidates actual.rows.length expected.rows.length compared)
        (expected.rows.length + 1) (List.finRange actual.rows.length) (fun _ => none) =
          some answer ∧
        (answer = true ↔ Matching.Matchable
          (@candidates actual.rows.length expected.rows.length compared)) :=
    Matching.assignAll_eq hdepth (List.nodup_finRange _) List.mem_finRange
  exact ⟨answer, congrArg Except.ok hanswer, hiff⟩

/-- With an order it accepts exactly when the rows match in this order. -/
lemma resultsMatch_ordered (h : Comparable actual expected)
    (hcomputable : Computable decimalText normalize actual expected) :
    ∃ answer, resultsMatch decimalText true normalize actual expected = .ok (some answer) ∧
      (answer = true ↔ List.Forall₂ (RowsAgree decimalText normalize) actual.rows
        expected.rows) := by
  obtain ⟨answer, hanswer⟩ : ∃ answer, ((actual.rows.zip expected.rows).allM fun pair =>
      rowsMatch decimalText normalize pair.1 pair.2) = .ok answer := by
    rw [exists_allM_iff]
    rintro front ⟨row, row'⟩ back hrows -
    have hpair : (row, row') ∈ actual.rows.zip expected.rows := by
      rw [hrows]
      exact List.mem_append_right _ List.mem_cons_self
    obtain ⟨hrow, hrow'⟩ := List.of_mem_zip hpair
    apply (exists_rowsMatch_iff _).mpr (hcomputable row hrow row' hrow')
    have hwidth := h.widths row (List.mem_append_left _ hrow)
    exact hwidth.trans (h.widths row' (List.mem_append_right _ hrow')).symm
  refine ⟨answer, ?_, ?_⟩
  · rw [resultsMatch_eq h, if_pos rfl, hanswer]
    rfl
  · rw [List.forall₂_iff_zip, and_iff_right h.rows]
    constructor
    · rintro rfl a b hmem
      exact allM_true_iff.mp hanswer (a, b) hmem
    · intro hall
      have hmatch : ∀ pair ∈ actual.rows.zip expected.rows,
          rowsMatch decimalText normalize pair.1 pair.2 = .ok true := fun pair hmem => hall hmem
      rw [allM_true_iff.mpr hmatch] at hanswer
      exact (Except.ok.inj hanswer).symm

lemma Computable.perm (h : Computable decimalText normalize actual expected)
    {rows rows' : List (List (Cell ω))} (hrows : rows.Perm actual.rows)
    (hrows' : rows'.Perm expected.rows) :
    Computable decimalText normalize { actual with rows := rows } { expected with rows := rows' } :=
  fun row hrow row' hrow' => h row (hrows.mem_iff.mp hrow) row' (hrows'.mem_iff.mp hrow')

end Results

/-- The comparison of results with as many columns and rows is exact if and only if all the numbers
that it compares can be compared. -/
theorem results_match_exact (normalize : Bool) (actual expected : QueryData ω)
    (h : Comparable actual expected) :
    Exact decimalText normalize actual expected ↔
      Computable decimalText normalize actual expected := by
  constructor
  · rintro ⟨⟨answer, hanswer, -⟩, -, -, -⟩
    rw [resultsMatch_eq h, if_neg Bool.false_ne_true] at hanswer
    obtain ⟨compared, hcompared, -⟩ := except_bind_ok.mp hanswer
    exact (exists_compareAll_iff h).mp ⟨compared, hcompared⟩
  · intro hcomputable
    obtain ⟨answer, hanswer, hiff⟩ := resultsMatch_unordered h hcomputable
    obtain ⟨ordered, hordered, hforall⟩ := resultsMatch_ordered h hcomputable
    refine ⟨⟨answer, hanswer, hiff⟩, ⟨ordered, hordered, hforall⟩, ?_, ?_⟩
    · intro htrue
      rw [hordered] at htrue
      have hagree := hforall.mp (Option.some.inj (Except.ok.inj htrue))
      rw [hanswer, hiff.mpr (Matching.Pairing.of_forall₂ hagree)]
    · intro rows rows' hrows hrows'
      obtain ⟨answer', hanswer', hiff'⟩ :=
        resultsMatch_unordered (h.perm hrows hrows') (hcomputable.perm hrows hrows')
      rw [hanswer, hanswer', Except.ok.injEq, Option.some_inj, Bool.eq_iff_iff, hiff, hiff']
      exact ⟨fun hpairing => hpairing.perm hrows hrows',
        fun hpairing => hpairing.perm hrows.symm hrows'.symm⟩

end Matching

/-- A result of one column. -/
def column (cells : List (Cell Empty)) : QueryData Empty where
  columns := ["value"]
  rows := cells.map fun cell => [cell]
  truncated := false

def decimals (values : List DecimalNumber) : QueryData Empty :=
  column (values.map fun value => .number (.decimal (.finite value)))

/-- What `Decimal` reads of three texts. -/
def decimalOfSample (text : String) : Option Numeral :=
  if text = "1" then some (.finite ⟨false, 1, 0⟩)
  else if text = "1e1000000" then some (.finite ⟨false, 1, 1000000⟩)
  else if text = "sNaN" then some (.nan true)
  else none

/-- The first row takes the only row that the second one matches, and has to give it back. -/
theorem results_match_exact_tie :
    ∃ σ : Fin 2 ≃ Fin 2, ∀ i, RowsAgree decimalOfSample false
      ((decimals [⟨false, 1, -6⟩, ⟨false, 0, 0⟩]).rows.get i)
      ((decimals [⟨false, 0, 0⟩, ⟨false, 2, -6⟩]).rows.get (σ i)) := by
  have hcomparable : Comparable (decimals [⟨false, 1, -6⟩, ⟨false, 0, 0⟩])
      (decimals [⟨false, 0, 0⟩, ⟨false, 2, -6⟩]) := by
    refine ⟨⟨rfl, rfl⟩, rfl, rfl, ?_⟩
    decide +kernel
  have hcompared : ∃ compared, compareAll decimalOfSample false
      (decimals [⟨false, 1, -6⟩, ⟨false, 0, 0⟩]).rows
      (decimals [⟨false, 0, 0⟩, ⟨false, 2, -6⟩]).rows = .ok compared :=
    ⟨[[true, true], [true, false]], by decide +kernel⟩
  obtain ⟨answer, hanswer, hiff⟩ := ((results_match_exact decimalOfSample false _ _
    hcomparable).mpr ((exists_compareAll_iff hcomparable).mp hcompared)).unordered
  have haccepted : resultsMatch decimalOfSample false false
      (decimals [⟨false, 1, -6⟩, ⟨false, 0, 0⟩]) (decimals [⟨false, 0, 0⟩, ⟨false, 2, -6⟩]) =
        .ok (some true) := by decide +kernel
  rw [haccepted] at hanswer
  exact hiff.mp (Option.some.inj (Except.ok.inj hanswer)).symm

/-- A published text that is no number of the context, and one that is a signalling NaN, make the
comparison raise. -/
theorem results_match_raises :
    Comparable (column [.text "1e1000000"]) (decimals [⟨false, 1, 0⟩]) ∧
    resultsMatch decimalOfSample false true (column [.text "1e1000000"]) (decimals [⟨false, 1, 0⟩]) =
      .error .overflow ∧
    ¬Exact decimalOfSample true (column [.text "1e1000000"]) (decimals [⟨false, 1, 0⟩]) ∧
    Comparable (column [.text "sNaN"]) (decimals [⟨false, 1, 0⟩]) ∧
    resultsMatch decimalOfSample false true (column [.text "sNaN"]) (decimals [⟨false, 1, 0⟩]) =
      .error .invalidOperation ∧
    ¬Exact decimalOfSample true (column [.text "sNaN"]) (decimals [⟨false, 1, 0⟩]) := by
  have hraises : ∀ {actual expected : QueryData Empty} {e : DecimalSignal},
      resultsMatch decimalOfSample false true actual expected = .error e →
        ¬Exact decimalOfSample true actual expected := by
    rintro actual expected e he ⟨⟨answer, hanswer, -⟩, -, -, -⟩
    rw [he] at hanswer
    cases hanswer
  have hoverflow : resultsMatch decimalOfSample false true (column [.text "1e1000000"])
      (decimals [⟨false, 1, 0⟩]) = .error .overflow := by decide +kernel
  have hinvalid : resultsMatch decimalOfSample false true (column [.text "sNaN"])
      (decimals [⟨false, 1, 0⟩]) = .error .invalidOperation := by decide +kernel
  refine ⟨⟨⟨rfl, rfl⟩, rfl, rfl, ?_⟩, hoverflow, hraises hoverflow, ⟨⟨rfl, rfl⟩, rfl, rfl, ?_⟩,
    hinvalid, hraises hinvalid⟩
  · decide +kernel
  · decide +kernel

end ChatBI.Evaluation
