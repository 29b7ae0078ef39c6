import ChatBI.Analysis.Decimals
import ChatBI.Lib.Alike

/-!
# The exact attribution

The calculation over exact rationals beside the one in decimals, on the same results. It reads the
same numbers; where both return, they tell of the same products with the same factors, and the
total change differs by the rounding only.
-/

namespace ChatBI.Analysis.Decimals

open ChatBI.Lib

open ChatBI.Semantic (defaultContext)

section Inputs

variable (digit : Char → Option ℕ)

/-- The numbers that the texts stand for. -/
def exactDecimal (text : String) : Option (Option ℚ) :=
  (Semantic.decimalOf digit text).map (Option.map DecimalNumber.value)

/-- A cell with its exact number. -/
def Cell.exact : Cell → Value
  | .none => .none
  | .bool b => .bool b
  | .text s => .text s
  | .other s =>
    match exactDecimal digit s with
    | some (some q) => .number q
    | some Option.none => .nan
    | Option.none => .other

/-- A result with exact numbers. -/
def TaskResult.exact (result : TaskResult) : Analysis.TaskResult where
  taskId := result.taskId
  status := result.status
  columns := result.columns
  rows := result.rows.map (List.map (Cell.exact digit))
  truncated := result.truncated

end Inputs

/-- A number is the rounded one: in its size, and with the same sign. -/
structure Rounds (rounded exact : ℚ) : Prop where
  size : |rounded| = defaultContext.rounded |exact|
  sign : 0 ≤ rounded * exact

/-- Two contributions of one product, with the same factors. -/
structure ProductContribution.Tells (p : ProductContribution) (q : Analysis.ProductContribution) :
    Prop where
  productName : p.productName = q.productName
  classification : p.classification.text = q.classification
  factors : p.factors.map FactorContribution.name = q.factors.map Analysis.FactorContribution.name

/-- Two attributions of one change. -/
structure BusinessAnalysisAttribution.Tells (a : BusinessAnalysisAttribution)
    (b : Analysis.BusinessAnalysisAttribution) : Prop where
  metricName : a.metricName = b.metricName
  periods : a.currentPeriod = b.currentPeriod ∧ a.comparisonPeriod = b.comparisonPeriod
  comparisonValue : a.comparisonValue.value = b.comparisonValue
  currentValue : a.currentValue.value = b.currentValue
  totalChange : Rounds a.totalChange.value b.totalChange
  products : List.Forall₂ ProductContribution.Tells a.products b.products

lemma sub_rounds {x y r : Number} (h : x.sub y = .ok r) : Rounds r.value (x.value - y.value) := by
  have hexact : (x.number.exactAdd y.number.copyNegate).value = x.value - y.value := by
    rw [DecimalNumber.exactAdd_value, DecimalNumber.copyNegate_value, ← sub_eq_add_neg]
    rfl
  unfold Number.sub fixed at h
  split at h
  · next d hfix =>
    cases h
    obtain ⟨hsize, hsign⟩ := DecimalNumber.fix_value hfix
    rw [hexact] at hsize hsign
    exact ⟨hsize, hsign⟩
  · cases h

section Reading

variable {casefold : String → String} {digit : Char → Option ℕ} {taskId metricName name : String}
  {results : List TaskResult} {result : TaskResult} {cell : Cell} {row : List Cell}
  {metrics : Dict String ℕ}

lemma readNumber_exact (text : String) :
    Together (fun x q => x.value = q) (readNumber digit taskId text)
      (Analysis.decimalOf (exactDecimal digit) taskId (.text text)) := by
  unfold readNumber
  split
  · next d hd =>
    have hread : exactDecimal digit text = some (some d.value) := by
      rw [exactDecimal, hd]
      rfl
    simp only [Analysis.decimalOf, hread]
    exact .ok rfl
  · exact .error
  · exact .error

/-- A cell is read as the number that it stands for. -/
lemma decimalOf_exact : Together (fun x q => x.value = q) (decimalOf digit taskId cell)
    (Analysis.decimalOf (exactDecimal digit) taskId (cell.exact digit)) := by
  cases cell with
  | none => exact .error
  | bool b => exact .error
  | text s => exact readNumber_exact s
  | other s =>
    have hsame : Analysis.decimalOf (exactDecimal digit) taskId ((Cell.other s).exact digit) =
        Analysis.decimalOf (exactDecimal digit) taskId (.text s) := by
      simp only [Analysis.decimalOf, Cell.exact]
      cases exactDecimal digit s with
      | none => rfl
      | some found => cases found <;> rfl
    rw [hsame]
    exact readNumber_exact s

lemma overallValue_exact : Together (fun x q => x.value = q) (overallValue digit result)
    (Analysis.overallValue (exactDecimal digit) (result.exact digit)) := by
  obtain ⟨_, _, columns, rows, _⟩ := result
  unfold overallValue
  split
  · next hcolumns hrows =>
    cases hcolumns
    cases hrows
    exact decimalOf_exact
  · exact .error

lemma getD_exact (product : ℕ) :
    (row.map (Cell.exact digit)).getD product .none = (row.getD product .none).exact digit := by
  rw [List.getD_eq_getElem?_getD, List.getD_eq_getElem?_getD, List.getElem?_map]
  cases row[product]? <;> rfl

/-- The rows of a product have its name. -/
lemma readRow_exact (width product : ℕ) :
    Together (fun p q => p.1 = q.1) (readRow digit taskId width product metrics row)
      (Analysis.readRow (exactDecimal digit) taskId width product metrics
        (row.map (Cell.exact digit))) := by
  unfold readRow Analysis.readRow
  refine (Together.trivial _ _).bind fun _ _ _ => ?_
  rw [getD_exact]
  cases row.getD product .none with
  | text rawName =>
    dsimp only [Cell.exact]
    split
    · exact .error
    · exact (Together.trivial _ _).map fun _ _ _ => rfl
  | none => exact .error
  | bool b => exact .error
  | other s => exact .error

/-- Two tables of the same products. -/
def SameProducts (products : Dict String ProductPeriod)
    (products' : Dict String Analysis.ProductPeriod) : Prop :=
  products.map Prod.fst = products'.map Prod.fst

lemma SameProducts.get?_eq_none_iff {products : Dict String ProductPeriod}
    {products' : Dict String Analysis.ProductPeriod} (h : SameProducts products products') :
    Dict.get? products name = none ↔ Dict.get? products' name = none := by
  rw [← not_iff_not, ← Ne, ← Ne, ← Dict.mem_map_fst_iff, ← Dict.mem_map_fst_iff, h]

lemma SameProducts.set {products : Dict String ProductPeriod}
    {products' : Dict String Analysis.ProductPeriod} (h : SameProducts products products')
    (p : ProductPeriod) (q : Analysis.ProductPeriod) :
    SameProducts (Dict.set products name p) (Dict.set products' name q) := by
  unfold SameProducts
  rw [Dict.keys_set, Dict.keys_set, h]
  simp only [h.get?_eq_none_iff]

lemma addRow_exact {products : Dict String ProductPeriod}
    {products' : Dict String Analysis.ProductPeriod} (h : SameProducts products products')
    {p : String × ProductPeriod} {q : String × Analysis.ProductPeriod} (hpq : p.1 = q.1) :
    Together SameProducts (addRow products p)
      (.ok (Analysis.addRow products' q) : Except AnalysisError _) := by
  unfold addRow Analysis.addRow
  rw [hpq]
  split
  · intro d d' hd hd'
    obtain ⟨_, -, rfl⟩ := except_map_ok.mp hd
    cases hd'
    exact h.set _ _
  · exact .ok (h.set _ _)

/-- The two calculations read the same products. -/
lemma productValues_exact : Together SameProducts (productValues casefold digit result metricName)
    (Analysis.productValues casefold (exactDecimal digit) (result.exact digit) metricName) := by
  unfold productValues Analysis.productValues
  have hcolumns : Together Eq
      ((result.columns.zipIdx.foldlM (matchColumn casefold result.taskId metricName) {}).mapError
        Raised.attribution)
      ((result.exact digit).columns.zipIdx.foldlM
        (matchColumn casefold (result.exact digit).taskId metricName) {}) := by
    intro columns columns' h h'
    exact Except.ok.inj ((mapError_ok.mp h).symm.trans h')
  refine hcolumns.bind ?_
  rintro columns _ rfl
  cases columns.product with
  | none => exact .error
  | some product =>
    dsimp only
    split
    · refine Together.foldlM ?_ _ rfl
      intro products products' row h
      rw [map_eq_pure_bind]
      exact (readRow_exact _ _).bind fun _ _ hpq => addRow_exact h hpq
    · exact .error

lemma taskResult_exact : Together (fun r r' => r' = r.exact digit) (taskResult results taskId)
    (Analysis.taskResult (results.map (TaskResult.exact digit)) taskId) := by
  unfold taskResult Analysis.taskResult
  have hsame : ((fun r : Analysis.TaskResult => decide (r.taskId = taskId)) ∘
      TaskResult.exact digit) = fun r => decide (r.taskId = taskId) := rfl
  rw [List.find?_map, hsame]
  cases results.find? fun r => decide (r.taskId = taskId) with
  | none => exact .error
  | some result => exact .ok rfl

end Reading

section Contributions

variable {productName metricName : String} {comparison current : ProductPeriod}
  {comparison' current' : Analysis.ProductPeriod} {p q : Option ProductPeriod}
  {p' q' : Option Analysis.ProductPeriod}

/-- The factors of both calculations have the names that the metric gives them. -/
lemma productFactors_exact :
    Together (fun factors factors' => factors.map FactorContribution.name =
        factors'.map Analysis.FactorContribution.name)
      (productFactors productName metricName comparison current)
      (Analysis.productFactors productName metricName comparison' current') := by
  intro factors factors' h h'
  unfold productFactors at h
  unfold Analysis.productFactors at h'
  obtain ⟨oldPrice, -, h⟩ := except_bind_ok.mp h
  obtain ⟨newPrice, -, h⟩ := except_bind_ok.mp h
  obtain ⟨quantities, -, h⟩ := except_bind_ok.mp h
  obtain ⟨meanQuantity, -, h⟩ := except_bind_ok.mp h
  dsimp only at h'
  split at h
  · next hmetric =>
    rw [if_pos hmetric] at h'
    simp only [except_bind_ok, except_pure_ok] at h
    obtain ⟨_, -, _, -, _, -, _, -, _, -, _, -, rfl⟩ := h
    cases h'
    rfl
  · next hmetric =>
    rw [if_neg hmetric] at h'
    split at h
    · split at h'
      · simp only [except_bind_ok, except_pure_ok] at h
        obtain ⟨_, -, _, -, _, -, _, -, _, -, _, -, _, -, _, -, _, -, _, -, _, -, _, -, _, -, rfl⟩ := h
        cases h'
        rfl
      · cases h'
    · cases h

lemma productContribution_exact (hcomparison : p = none ↔ p' = none)
    (hcurrent : q = none ↔ q' = none) :
    Together ProductContribution.Tells (productContribution productName p q metricName)
      (Analysis.productContribution productName p' q' metricName) := by
  cases p with
  | none =>
    obtain rfl := hcomparison.mp rfl
    exact (Together.trivial _ _).bind fun _ _ _ => .ok ⟨rfl, rfl, rfl⟩
  | some comparison =>
    cases p' with
    | none => cases hcomparison.mpr rfl
    | some comparison' =>
      cases q with
      | none =>
        obtain rfl := hcurrent.mp rfl
        intro a a' h h'
        simp only [productContribution, except_bind_ok, except_pure_ok] at h
        simp only [Analysis.productContribution, except_bind_ok, except_pure_ok] at h'
        obtain ⟨_, -, _, -, rfl⟩ := h
        obtain ⟨_, -, rfl⟩ := h'
        exact ⟨rfl, rfl, rfl⟩
      | some current =>
        cases q' with
        | none => cases hcurrent.mpr rfl
        | some current' =>
          refine productFactors_exact.bind fun factors factors' hfactors => ?_
          intro a a' h h'
          simp only [except_bind_ok, except_pure_ok] at h h'
          obtain ⟨_, -, _, -, _, -, _, -, _, -, rfl⟩ := h
          obtain ⟨_, -, _, -, _, -, rfl⟩ := h'
          exact ⟨rfl, rfl, hfactors⟩

end Contributions

/-- Where both calculations return an attribution of the same results, the attributions tell of the
same change. -/
theorem calculateProductAttribution_exact (casefold : String → String) (digit : Char → Option ℕ)
    (request : AnalysisRequest) (results : List TaskResult) :
    Together BusinessAnalysisAttribution.Tells
      (calculateProductAttribution casefold digit request results)
      (Analysis.calculateProductAttribution casefold (exactDecimal digit) request
        (results.map (TaskResult.exact digit))) := by
  unfold calculateProductAttribution Analysis.calculateProductAttribution
  refine (Together.trivial _ _).bind fun _ _ _ => ?_
  refine (Together.trivial _ _).bind fun _ _ _ => ?_
  refine (Together.trivial _ _).bind fun _ _ _ => ?_
  -- the overall values and the products of both periods
  refine taskResult_exact.bind ?_
  rintro comparisonOverall _ rfl
  refine overallValue_exact.bind fun comparisonValue comparisonValue' hcomparisonValue => ?_
  refine taskResult_exact.bind ?_
  rintro currentOverall _ rfl
  refine overallValue_exact.bind fun currentValue currentValue' hcurrentValue => ?_
  refine taskResult_exact.bind ?_
  rintro comparisonProducts _ rfl
  refine productValues_exact.bind fun comparison comparison' hcomparison => ?_
  refine taskResult_exact.bind ?_
  rintro currentProducts _ rfl
  refine productValues_exact.bind fun current current' hcurrent => ?_
  refine (Together.trivial _ _).bind fun _ _ _ => ?_
  refine (Together.trivial _ _).bind fun _ _ _ => ?_
  have hnames : productNames comparison current = Analysis.productNames comparison' current' := by
    rw [productNames, Analysis.productNames, hcomparison, hcurrent]
  rw [← hnames]
  refine (Together.mapM _ fun name _ => productContribution_exact hcomparison.get?_eq_none_iff
    hcurrent.get?_eq_none_iff).bind fun products products' hproducts => ?_
  intro a a' h h'
  simp only [except_bind_ok, except_pure_ok] at h h'
  obtain ⟨totalChange, htotal, _, -, _, -, _, -, rfl⟩ := h
  obtain ⟨_, -, rfl⟩ := h'
  have hrounds := sub_rounds htotal
  rw [hcomparisonValue, hcurrentValue] at hrounds
  exact ⟨rfl, ⟨rfl, rfl⟩, hcomparisonValue, hcurrentValue, hrounds, hproducts⟩

end ChatBI.Analysis.Decimals
