import ChatBI.Analysis.Attribution
import ChatBI.Lib.Keyset
import ChatBI.Lib.Raises
import Mathlib.Data.List.Dedup
import Mathlib.Tactic.FieldSimp
import Mathlib.Tactic.Linarith
import Mathlib.Tactic.Ring

/-!
# Reconciliation

The attribution that `calculate_product_attribution` returns adds up: the factors of a product to
its change, the changes of the products to the total one.
-/

namespace ChatBI.Analysis

open ChatBI.Lib

/-- What an attribution says of a product with the given values in the two periods. -/
inductive Changed (metricName : String) :
    Option ProductPeriod → Option ProductPeriod → ProductContribution → Prop where
  | new {current : ProductPeriod} {p : ProductContribution} {f : FactorContribution}
      (hname : p.classification = "new_product")
      (hmetric : periodMetric metricName (some current) = .ok p.change)
      (hfactors : p.factors = [f]) (hamount : f.amount = p.change) :
      Changed metricName none (some current) p
  | exited {comparison : ProductPeriod} {p : ProductContribution} {f : FactorContribution}
      (hname : p.classification = "exited_product")
      (hmetric : periodMetric metricName (some comparison) = .ok (-p.change))
      (hfactors : p.factors = [f]) (hamount : f.amount = p.change) :
      Changed metricName (some comparison) none p
  | continuing {comparison current : ProductPeriod} {p : ProductContribution} {old new : ℚ}
      (hname : p.classification = "continuing")
      (hold : periodMetric metricName (some comparison) = .ok old)
      (hnew : periodMetric metricName (some current) = .ok new) (hchange : p.change = new - old) :
      Changed metricName (some comparison) (some current) p

def SameSign (x y : ℚ) : Prop := 0 < x ∧ 0 < y ∨ x < 0 ∧ y < 0

instance : DecidableRel SameSign := fun _ _ => inferInstanceAs (Decidable (_ ∨ _))

/-- A larger change comes first, of two equally large ones that of the first name. -/
def Ahead (p q : ProductContribution) : Prop :=
  |q.change| < |p.change| ∨ |p.change| = |q.change| ∧ p.productName < q.productName

/-- At most three products: the first ones among those that move with the total. -/
structure Leading (products top : List ProductContribution) (totalChange : ℚ) : Prop where
  members : ∀ p ∈ top, p ∈ products ∧ SameSign p.change totalChange
  length : top.length = min 3 (products.filter fun p => SameSign p.change totalChange).length
  ordered : top.Pairwise Ahead
  greatest : ∀ p ∈ products, SameSign p.change totalChange → p ∉ top → ∀ q ∈ top, Ahead q p

/-- An attribution of the metric that goes from the value of the comparison period to that of the
current one, with one contribution for each product of either period. -/
structure Reconciled (metricName : String) (comparisonValue currentValue : ℚ)
    (comparison current : Dict String ProductPeriod) (a : BusinessAnalysisAttribution) : Prop where
  metric : a.metricName = metricName
  change : a.totalChange = currentValue - comparisonValue
  names : ∀ name, name ∈ a.products.map ProductContribution.productName ↔
    Dict.get? comparison name ≠ none ∨ Dict.get? current name ≠ none
  once : (a.products.map ProductContribution.productName).Nodup
  factors : ∀ p ∈ a.products, (p.factors.map FactorContribution.amount).sum = p.change
  changes : ∀ p ∈ a.products, Changed metricName (Dict.get? comparison p.productName)
    (Dict.get? current p.productName) p
  total : |(a.products.map ProductContribution.change).sum - a.totalChange| ≤
    reconciliationTolerance
  top : Leading a.products a.topProducts a.totalChange

section Factors

variable {productName metricName : String} {comparison current : ProductPeriod}
  {factors : List FactorContribution} {old new : ℚ}

/-- The symmetric split of the change of a value into that of its price and that of its
quantity. -/
lemma split_sum (r₀ r₁ : ℚ) {q₀ q₁ : ℚ} (h₀ : 0 < q₀) (h₁ : 0 < q₁) :
    (r₁ / q₁ - r₀ / q₀) * ((q₀ + q₁) / 2) + (q₁ - q₀) * (r₀ / q₀ + r₁ / q₁) / 2 = r₁ - r₀ := by
  have hne₀ := ne_of_gt h₀
  have hne₁ := ne_of_gt h₁
  field_simp
  ring

/-- The same for a profit, with the change of the unit cost apart. -/
lemma split_profit_sum (r₀ r₁ c₀ c₁ : ℚ) {q₀ q₁ : ℚ} (h₀ : 0 < q₀) (h₁ : 0 < q₁) :
    (r₁ / q₁ - r₀ / q₀) * ((q₀ + q₁) / 2) +
        ((q₁ - q₀) * ((r₀ / q₀ - c₀ / q₀) + (r₁ / q₁ - c₁ / q₁)) / 2 +
          -(c₁ / q₁ - c₀ / q₀) * ((q₀ + q₁) / 2)) = (r₁ - c₁) - (r₀ - c₀) := by
  have hsales := split_sum r₀ r₁ h₀ h₁
  have hcost := split_sum c₀ c₁ h₀ h₁
  linarith

/-- The factors of a continuing product add up to its change. -/
lemma factors_sum (hmetric : metricName ∈ [grossProfitMetric, netSalesMetric])
    (hfactors : productFactors productName metricName comparison current = .ok factors)
    (hold : periodMetric metricName (some comparison) = .ok old)
    (hnew : periodMetric metricName (some current) = .ok new) :
    (factors.map FactorContribution.amount).sum = new - old := by
  by_cases hsales : metricName = netSalesMetric
  · subst hsales
    cases Except.ok.inj hold
    cases Except.ok.inj hnew
    cases Except.ok.inj hfactors
    have hsum := split_sum comparison.netSales current.netSales comparison.positive
      current.positive
    simpa using hsum
  · have hgross : metricName = grossProfitMetric := by simpa [hsales] using hmetric
    subst hgross
    simp only [productFactors, if_neg hsales] at hfactors
    simp only [periodMetric, if_true, ProductPeriod.grossProfit] at hold hnew
    cases hoc : comparison.salesCost with
    | none =>
      rw [hoc] at hold
      cases hold
    | some oldCost =>
      cases hnc : current.salesCost with
      | none =>
        rw [hnc] at hnew
        cases hnew
      | some newCost =>
        rw [hoc] at hold hfactors
        rw [hnc] at hnew hfactors
        cases Except.ok.inj hold
        cases Except.ok.inj hnew
        cases Except.ok.inj hfactors
        have hsum := split_profit_sum comparison.netSales current.netSales oldCost newCost
          comparison.positive current.positive
        simpa using hsum

end Factors

section Products

variable {productName metricName : String} {comparison current : Option ProductPeriod}
  {p : ProductContribution}

/-- What the contribution of a product says. -/
lemma contribution_ok (hmetric : metricName ∈ [grossProfitMetric, netSalesMetric])
    (hsome : comparison ≠ none ∨ current ≠ none)
    (h : productContribution productName comparison current metricName = .ok p) :
    p.productName = productName ∧ (p.factors.map FactorContribution.amount).sum = p.change ∧
      Changed metricName comparison current p := by
  cases comparison with
  | none =>
    cases current with
    | none => simp at hsome
    | some current =>
      obtain ⟨change, hchange, h⟩ := except_bind_ok.mp h
      rw [← except_pure_ok.mp h]
      exact ⟨rfl, by simp, .new rfl hchange rfl rfl⟩
  | some comparison =>
    cases current with
    | none =>
      obtain ⟨change, hchange, h⟩ := except_bind_ok.mp h
      obtain ⟨old, hold, rfl⟩ := except_map_ok.mp hchange
      rw [← except_pure_ok.mp h]
      refine ⟨rfl, by simp, .exited rfl ?_ rfl rfl⟩
      rw [hold, neg_neg]
    | some current =>
      obtain ⟨factors, hfactors, h⟩ := except_bind_ok.mp h
      obtain ⟨new, hnew, h⟩ := except_bind_ok.mp h
      obtain ⟨old, hold, h⟩ := except_bind_ok.mp h
      obtain ⟨_, -, h⟩ := except_bind_ok.mp h
      rw [← except_pure_ok.mp h]
      exact ⟨rfl, factors_sum hmetric hfactors hold hnew, .continuing rfl hold hnew rfl⟩

/-- Errors other than that of the factors check. -/
def Other (e : AnalysisError) : Prop := e.reason ≠ "PRODUCT_FACTOR_RECONCILIATION_FAILED"

lemma periodMetric_raises : Raises Other (periodMetric metricName current) := by
  cases current with
  | none => exact .ok 0
  | some value =>
    simp only [periodMetric]
    by_cases hgross : metricName = grossProfitMetric
    · rw [if_pos hgross]
      cases value.grossProfit with
      | none => exact .error (by simp [Other])
      | some profit => exact .ok profit
    · rw [if_neg hgross]
      exact .ok _

lemma factors_raises {comparison current : ProductPeriod} :
    Raises Other (productFactors productName metricName comparison current) := by
  unfold productFactors
  split
  · exact .ok _
  · cases comparison.salesCost with
    | none => exact .error (by simp [Other])
    | some oldCost =>
      cases current.salesCost with
      | none => exact .error (by simp [Other])
      | some newCost => exact .ok _

/-- The check of the factors of a product does not fail. -/
lemma contribution_raises (hmetric : metricName ∈ [grossProfitMetric, netSalesMetric]) :
    Raises Other (productContribution productName comparison current metricName) := by
  cases comparison with
  | none => exact periodMetric_raises.bind fun _ _ => .ok _
  | some comparison =>
    cases current with
    | none => exact periodMetric_raises.map.bind fun _ _ => .ok _
    | some current =>
      apply factors_raises.bind
      intro factors hfactors
      apply periodMetric_raises.bind
      intro new hnew
      apply periodMetric_raises.bind
      intro old hold
      have hsum := factors_sum hmetric hfactors hold hnew
      refine Raises.bind (.require ?_) fun _ _ => .ok _
      intro hfailed
      rw [hsum, sub_self, abs_zero] at hfailed
      exact absurd (by norm_num [reconciliationTolerance]) hfailed

end Products

section Tops

variable {products : List ProductContribution} {totalChange : ℚ}

instance (key : ProductContribution → ℚ) : Std.Total (ByKey key) where
  total p q := by
    rcases lt_trichotomy (key p) (key q) with hlt | heq | hgt
    · exact .inl (.inl hlt)
    · rcases le_total p.productName q.productName with hle | hle
      · exact .inl (.inr ⟨heq, hle⟩)
      · exact .inr (.inr ⟨heq.symm, hle⟩)
    · exact .inr (.inl hgt)

instance (key : ProductContribution → ℚ) : IsTrans ProductContribution (ByKey key) where
  trans p q r := by
    rintro (hlt | ⟨heq, hle⟩) (hlt' | ⟨heq', hle'⟩)
    · exact .inl (hlt.trans hlt')
    · exact .inl (heq' ▸ hlt)
    · exact .inl (heq ▸ hlt')
    · exact .inr ⟨heq.trans heq', hle.trans hle'⟩

/-- The sorted products of one sign, when the key orders them by magnitude. -/
lemma leading_sorted {key : ProductContribution → ℚ}
    (hnames : (products.map ProductContribution.productName).Nodup)
    (hkey : ∀ p q, SameSign p.change totalChange → SameSign q.change totalChange →
      (key p < key q ↔ |q.change| < |p.change|) ∧ (key p = key q ↔ |p.change| = |q.change|)) :
    Leading products
      (((products.filter fun p => SameSign p.change totalChange).insertionSort (ByKey key)).take 3)
      totalChange := by
  obtain ⟨hsubset, hlength, hordered, hgreatest⟩ := take_insertionSort (ByKey key)
    (products.filter fun p => SameSign p.change totalChange) 3
  have hmem : ∀ p ∈ products.filter (fun p => SameSign p.change totalChange),
      p ∈ products ∧ SameSign p.change totalChange := by
    intro p hp
    rw [List.mem_filter, decide_eq_true_eq] at hp
    exact hp
  have hahead : ∀ p ∈ products.filter (fun p => SameSign p.change totalChange),
      ∀ q ∈ products.filter (fun p => SameSign p.change totalChange),
        p ≠ q → ByKey key p q → Ahead p q := by
    intro p hp q hq hne hby
    obtain ⟨hp, hpsign⟩ := hmem p hp
    obtain ⟨hq, hqsign⟩ := hmem q hq
    obtain ⟨hlt, heq⟩ := hkey p q hpsign hqsign
    rcases hby with hbefore | ⟨hsame, hname⟩
    · exact .inl (hlt.mp hbefore)
    · refine .inr ⟨heq.mp hsame, lt_of_le_of_ne hname ?_⟩
      intro hequal
      exact hne (List.inj_on_of_nodup_map hnames hp hq hequal)
  have hnodup : ((products.filter fun p => SameSign p.change totalChange).insertionSort
      (ByKey key)).Nodup :=
    (List.perm_insertionSort _ _).nodup_iff.mpr ((hnames.of_map _).filter _)
  refine ⟨fun p hp => hmem p (hsubset p hp), hlength, ?_, ?_⟩
  · have hdistinct := hnodup.sublist (List.take_sublist 3 _)
    have hboth := hordered.and hdistinct
    apply hboth.imp_of_mem
    intro p q hp hq hpq
    exact hahead p (hsubset p hp) q (hsubset q hq) hpq.2 hpq.1
  · intro p hp hsign hout q hq
    have hin : p ∈ products.filter (fun p => SameSign p.change totalChange) := by
      rw [List.mem_filter, decide_eq_true_eq]
      exact ⟨hp, hsign⟩
    apply hahead q (hsubset q hq) p hin
    · intro hsame
      exact hout (hsame ▸ hq)
    · exact hgreatest p hin hout q hq

lemma leading_top (hnames : (products.map ProductContribution.productName).Nodup) :
    Leading products (topProducts products totalChange) totalChange := by
  unfold topProducts
  rcases lt_trichotomy totalChange 0 with hneg | hzero | hpos
  · have hsigns : (fun p : ProductContribution => decide (p.change < 0)) =
        fun p => decide (SameSign p.change totalChange) := by
      funext p
      simp [SameSign, hneg, not_lt_of_gt hneg]
    rw [if_neg (not_lt_of_gt hneg), if_pos hneg, hsigns]
    apply leading_sorted hnames
    intro p q hp hq
    have hp : p.change < 0 := by simpa [SameSign, hneg, not_lt_of_gt hneg] using hp
    have hq : q.change < 0 := by simpa [SameSign, hneg, not_lt_of_gt hneg] using hq
    rw [abs_of_neg hp, abs_of_neg hq, neg_lt_neg_iff, neg_inj]
    exact ⟨Iff.rfl, Iff.rfl⟩
  · subst hzero
    refine ⟨by simp, ?_, by simp, ?_⟩
    · simp [SameSign]
    · intro p _ hsign
      simp [SameSign] at hsign
  · have hsigns : (fun p : ProductContribution => decide (0 < p.change)) =
        fun p => decide (SameSign p.change totalChange) := by
      funext p
      simp [SameSign, hpos, not_lt_of_gt hpos]
    rw [if_pos hpos, hsigns]
    apply leading_sorted hnames
    intro p q hp hq
    have hp : 0 < p.change := by simpa [SameSign, hpos, not_lt_of_gt hpos] using hp
    have hq : 0 < q.change := by simpa [SameSign, hpos, not_lt_of_gt hpos] using hq
    rw [abs_of_pos hp, abs_of_pos hq, neg_lt_neg_iff, neg_inj]
    exact ⟨Iff.rfl, Iff.rfl⟩

end Tops

section Calculation

variable {casefold : String → String} {decimal : String → Option (Option ℚ)}
  {comparison current : Dict String ProductPeriod} {metricName : String}

lemma mem_productNames {name : String} : name ∈ productNames comparison current ↔
    Dict.get? comparison name ≠ none ∨ Dict.get? current name ≠ none := by
  rw [productNames, (List.perm_insertionSort _ _).mem_iff, List.mem_dedup, List.mem_append,
    Dict.mem_map_fst_iff, Dict.mem_map_fst_iff]

lemma nodup_productNames : (productNames comparison current).Nodup :=
  (List.perm_insertionSort _ _).nodup_iff.mpr (List.nodup_dedup _)

/-- The contributions of the products, one for each name. -/
lemma contributions_ok (hmetric : metricName ∈ [grossProfitMetric, netSalesMetric])
    {names : List String} {products : List ProductContribution}
    (hnames : ∀ name ∈ names, Dict.get? comparison name ≠ none ∨ Dict.get? current name ≠ none)
    (h : names.mapM (fun name => productContribution name (Dict.get? comparison name)
      (Dict.get? current name) metricName) = .ok products) :
    products.map ProductContribution.productName = names ∧ ∀ p ∈ products,
      (p.factors.map FactorContribution.amount).sum = p.change ∧
        Changed metricName (Dict.get? comparison p.productName)
          (Dict.get? current p.productName) p := by
  have hall := mapM_ok h
  clear h
  induction hall with
  | nil => exact ⟨rfl, by simp⟩
  | @cons name p names products hp _ ih =>
    obtain ⟨hrest, hproducts⟩ := ih fun name' hname' => hnames name' (List.mem_cons_of_mem _ hname')
    obtain ⟨hname, hsum, hchanged⟩ := contribution_ok hmetric (hnames name List.mem_cons_self) hp
    refine ⟨by rw [List.map_cons, hname, hrest], ?_⟩
    intro p' hp'
    rcases List.mem_cons.mp hp' with rfl | hin
    · rw [hname]
      exact ⟨hsum, hchanged⟩
    · exact hproducts p' hin

lemma decimalOf_raises {taskId : String} {value : Value} :
    Raises Other (decimalOf decimal taskId value) := by
  cases value with
  | number q => exact .ok q
  | text s =>
    simp only [decimalOf]
    cases decimal s with
    | none => exact .error (by simp [Other])
    | some result =>
      cases result with
      | none => exact .error (by simp [Other])
      | some q => exact .ok q
  | none => exact .error (by simp [Other])
  | bool b => exact .error (by simp [Other])
  | nan => exact .error (by simp [Other])
  | other => exact .error (by simp [Other])

lemma overallValue_raises {result : TaskResult} : Raises Other (overallValue decimal result) := by
  unfold overallValue
  split
  · exact decimalOf_raises
  · exact .error (by simp [Other])

lemma matchColumn_raises {taskId : String} {columns : Columns} {column : String × Nat} :
    Raises Other (matchColumn casefold taskId metricName columns column) := by
  refine Raises.bind ?_ fun columns' _ => Raises.foldlM (fun columns name => ?_) _ _
  · unfold matchProduct
    split
    · split
      · exact .error (by simp [Other])
      · exact .ok _
    · exact .ok _
  · unfold matchMetric
    simp only []
    split
    · split
      · exact .error (by simp [Other])
      · exact .ok _
    · exact .ok _

lemma readPeriod_raises {taskId name : String} {metrics : Dict String Nat} {row : List Value} :
    Raises Other (readPeriod decimal taskId name metrics row) := by
  apply decimalOf_raises.bind
  intro netSales _
  apply decimalOf_raises.bind
  intro quantity _
  refine Raises.bind ?_ fun salesCost _ => ?_
  · unfold salesCostOf
    split
    · exact decimalOf_raises.map
    · exact .ok _
  · split
    · exact .ok _
    · exact .error (by simp [Other])

lemma readRow_raises {taskId : String} {width product : Nat} {metrics : Dict String Nat}
    {row : List Value} : Raises Other (readRow decimal taskId width product metrics row) := by
  refine Raises.bind (.require fun _ => by simp [Other]) fun _ _ => ?_
  split
  · split
    · exact .error (by simp [Other])
    · exact readPeriod_raises.map
  · exact .error (by simp [Other])

lemma productValues_raises {result : TaskResult} :
    Raises Other (productValues casefold decimal result metricName) := by
  unfold productValues
  apply (Raises.foldlM (fun _ _ => matchColumn_raises) _ _).bind
  intro columns _
  split
  · split
    · exact .foldlM (fun _ _ => readRow_raises.map) _ _
    · exact .error (by simp [Other])
  · exact .error (by simp [Other])

lemma reconcilePeriod_raises {products : Dict String ProductPeriod} {overall : ℚ}
    {period : String} : Raises Other (reconcilePeriod products overall metricName period) :=
  .require fun _ => by simp [Other]

lemma taskResult_raises {results : List TaskResult} {taskId : String} :
    Raises Other (taskResult results taskId) := by
  unfold taskResult
  cases results.find? (·.taskId = taskId) with
  | none => exact .error (by simp [Other])
  | some result => exact .ok result

/-- The values of the two periods and their products, and what is made of them. -/
lemma reconciled_of_ok {request : AnalysisRequest} {taskResults : List TaskResult}
    {a : BusinessAnalysisAttribution}
    (h : calculateProductAttribution casefold decimal request taskResults = .ok a) :
    ∃ comparisonValue currentValue comparison current,
      (taskResult taskResults "comparison-overall" >>= overallValue decimal) =
        .ok comparisonValue ∧
      (taskResult taskResults "current-overall" >>= overallValue decimal) = .ok currentValue ∧
      (taskResult taskResults "comparison-products" >>=
        (productValues casefold decimal · request.metricName)) = .ok comparison ∧
      (taskResult taskResults "current-products" >>=
        (productValues casefold decimal · request.metricName)) = .ok current ∧
      Reconciled request.metricName comparisonValue currentValue comparison current a := by
  obtain ⟨_, hmetric, h⟩ := except_bind_ok.mp h
  obtain ⟨_, -, h⟩ := except_bind_ok.mp h
  obtain ⟨_, -, h⟩ := except_bind_ok.mp h
  obtain ⟨old, hold, h⟩ := except_bind_ok.mp h
  obtain ⟨comparisonValue, hcomparisonValue, h⟩ := except_bind_ok.mp h
  obtain ⟨new, hnew, h⟩ := except_bind_ok.mp h
  obtain ⟨currentValue, hcurrentValue, h⟩ := except_bind_ok.mp h
  obtain ⟨result, hresult, h⟩ := except_bind_ok.mp h
  obtain ⟨comparison, hcomparison, h⟩ := except_bind_ok.mp h
  obtain ⟨result', hresult', h⟩ := except_bind_ok.mp h
  obtain ⟨current, hcurrent, h⟩ := except_bind_ok.mp h
  obtain ⟨_, -, h⟩ := except_bind_ok.mp h
  obtain ⟨_, -, h⟩ := except_bind_ok.mp h
  obtain ⟨products, hproducts, h⟩ := except_bind_ok.mp h
  obtain ⟨_, htotal, h⟩ := except_bind_ok.mp h
  rw [← except_pure_ok.mp h]
  have hmetric := require_ok.mp hmetric
  obtain ⟨hnames, hall⟩ := contributions_ok hmetric (fun _ => mem_productNames.mp) hproducts
  have honce : (products.map ProductContribution.productName).Nodup := hnames ▸ nodup_productNames
  refine ⟨comparisonValue, currentValue, comparison, current,
    except_bind_ok.mpr ⟨old, hold, hcomparisonValue⟩,
    except_bind_ok.mpr ⟨new, hnew, hcurrentValue⟩,
    except_bind_ok.mpr ⟨result, hresult, hcomparison⟩,
    except_bind_ok.mpr ⟨result', hresult', hcurrent⟩, ?_⟩
  refine ⟨rfl, rfl, ?_, honce, fun p hp => (hall p hp).1, fun p hp => (hall p hp).2,
    require_ok.mp htotal, leading_top honce⟩
  intro name
  rw [hnames]
  exact mem_productNames

/-- Every check may fail but the last one, on the factors of a product. -/
lemma calculateProductAttribution_raises (request : AnalysisRequest)
    (taskResults : List TaskResult) :
    Raises Other (calculateProductAttribution casefold decimal request taskResults) := by
  unfold calculateProductAttribution
  refine Raises.bind (.require fun _ => by simp [Other]) fun _ hmetric => ?_
  refine Raises.bind (.require fun _ => by simp [Other]) fun _ _ => ?_
  refine Raises.bind (.forM fun taskId _ => ?_) fun _ _ => ?_
  · exact taskResult_raises.bind fun _ _ => .require fun _ => by simp [Other]
  apply taskResult_raises.bind
  intro _ _
  apply overallValue_raises.bind
  intro _ _
  apply taskResult_raises.bind
  intro _ _
  apply overallValue_raises.bind
  intro _ _
  apply taskResult_raises.bind
  intro _ _
  apply productValues_raises.bind
  intro _ _
  apply taskResult_raises.bind
  intro _ _
  apply productValues_raises.bind
  intro _ _
  apply reconcilePeriod_raises.bind
  intro _ _
  apply reconcilePeriod_raises.bind
  intro _ _
  refine Raises.bind (.mapM fun _ _ => contribution_raises (require_ok.mp hmetric))
    fun _ _ => ?_
  exact Raises.bind (.require fun _ => by simp [Other]) fun _ _ => .ok _

/-- A returned attribution reconciles the values that the tasks return, and the check of the factors
of a product never fails. -/
theorem attribution_reconciles (request : AnalysisRequest) (taskResults : List TaskResult) :
    (∀ a, calculateProductAttribution casefold decimal request taskResults = .ok a →
      ∃ comparisonValue currentValue comparison current,
        (taskResult taskResults "comparison-overall" >>= overallValue decimal) =
          .ok comparisonValue ∧
        (taskResult taskResults "current-overall" >>= overallValue decimal) = .ok currentValue ∧
        (taskResult taskResults "comparison-products" >>=
          (productValues casefold decimal · request.metricName)) = .ok comparison ∧
        (taskResult taskResults "current-products" >>=
          (productValues casefold decimal · request.metricName)) = .ok current ∧
        Reconciled request.metricName comparisonValue currentValue comparison current a) ∧
    ∀ e, calculateProductAttribution casefold decimal request taskResults = .error e →
      e.reason ≠ "PRODUCT_FACTOR_RECONCILIATION_FAILED" :=
  ⟨fun _ => reconciled_of_ok, calculateProductAttribution_raises request taskResults⟩

/-- A product that sells more and a new one. -/
def soldTasks : List TaskResult := [
  { taskId := "comparison-overall", status := .completed, columns := ["净销售额"],
    rows := [[.number 10]] },
  { taskId := "current-overall", status := .completed, columns := ["净销售额"],
    rows := [[.number 15]] },
  { taskId := "comparison-products", status := .completed, columns := ["产品", "净销售额", "销量"],
    rows := [[.text "a", .number 10, .number 2]] },
  { taskId := "current-products", status := .completed, columns := ["产品", "净销售额", "销量"],
    rows := [[.text " a", .number 12, .number 3], [.text "b", .number 3, .number 1]] }]

theorem attribution_reconciles_sold :
    ∃ a comparison current, a.totalChange = 5 ∧ a.products.length = 2 ∧
      Reconciled netSalesMetric 10 15 comparison current a := by
  have hok : ((calculateProductAttribution id (fun _ => none)
      ⟨netSalesMetric, ⟨"2024年2月", .month⟩, ⟨"2024年1月", .month⟩⟩ soldTasks).map fun a =>
        (a.totalChange, a.products.length)) = .ok (5, 2) := by decide +kernel
  obtain ⟨a, ha, hvalues⟩ := except_map_ok.mp hok
  obtain ⟨htotal, hlength⟩ := Prod.mk.inj hvalues
  obtain ⟨comparisonValue, currentValue, comparison, current, hold, hnew, -, -, hreconciled⟩ :=
    (attribution_reconciles _ _).1 a ha
  have hcomparison : (taskResult soldTasks "comparison-overall" >>= overallValue fun _ => none) =
      .ok 10 := by decide +kernel
  have hcurrent : (taskResult soldTasks "current-overall" >>= overallValue fun _ => none) =
      .ok 15 := by decide +kernel
  obtain rfl := Except.ok.inj (hold.symm.trans hcomparison)
  obtain rfl := Except.ok.inj (hnew.symm.trans hcurrent)
  exact ⟨a, comparison, current, htotal, hlength, hreconciled⟩

end Calculation

end ChatBI.Analysis
