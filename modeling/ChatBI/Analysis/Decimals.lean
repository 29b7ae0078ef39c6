import ChatBI.Analysis.Attribution
import ChatBI.Lib.DecimalArithmetic
import ChatBI.Lib.JsonShape
import ChatBI.Semantic.NumericLiterals

/-!
# Product attribution in decimal numbers

`calculate_product_attribution` with the numbers that it computes with, the decimals of the default
context, and the payload of its result. The case folding of column names and the decimal digits of
other scripts are parameters.
-/

namespace ChatBI.Analysis.Decimals

open ChatBI.Lib

open ChatBI.Semantic (representable defaultContext)

/-- A finite `Decimal`. -/
structure Number where
  number : DecimalNumber
  representable : representable number
  deriving DecidableEq

/-- What a calculation raises. -/
inductive Raised where
  | attribution (e : AnalysisError)
  | decimal (s : DecimalSignal)
  deriving DecidableEq

lemma representable_of_within {d : DecimalNumber} (h : d.Within defaultContext) :
    Semantic.representable d := by
  obtain ⟨hexponent, hadjusted⟩ := h
  have htiny : defaultContext.etiny = -1000026 := by decide
  rw [htiny] at hexponent
  exact ⟨hadjusted.trans (by decide), le_trans (by decide) hexponent⟩

/-! ### Operations -/

/-- An exact result, in the digits of the default context. -/
def fixed (d : DecimalNumber) : Except Raised Number :=
  match h : d.fix defaultContext with
  | .ok r => .ok ⟨r, representable_of_within (DecimalNumber.within_fix h)⟩
  | .error s => .error (.decimal s)

namespace Number

def value (x : Number) : ℚ := x.number.value

def zero : Number := ⟨⟨false, 0, 0⟩, by decide⟩

def two : Number := ⟨⟨false, 2, 0⟩, by decide⟩

def add (x y : Number) : Except Raised Number := fixed (x.number.exactAdd y.number)

def sub (x y : Number) : Except Raised Number := fixed (x.number.exactAdd y.number.copyNegate)

def mul (x y : Number) : Except Raised Number := fixed (x.number.exactMul y.number)

def neg (x : Number) : Except Raised Number := fixed x.number.exactNeg

def abs (x : Number) : Except Raised Number := fixed x.number.exactAbs

def div (x y : Number) : Except Raised Number :=
  match x.number.quotient defaultContext y.number with
  | .ok q => fixed q
  | .error s => .error (.decimal s)

/-- `sum(…, start=Decimal(0))`. -/
def sum (xs : List Number) : Except Raised Number := xs.foldlM add zero

end Number

structure FactorContribution where
  name : String
  amount : Number
  deriving DecidableEq

inductive Classification where
  | newProduct
  | exitedProduct
  | continuing
  deriving DecidableEq

def Classification.text : Classification → String
  | newProduct => "new_product"
  | exitedProduct => "exited_product"
  | continuing => "continuing"

structure ProductContribution where
  productName : String
  change : Number
  classification : Classification
  factors : List FactorContribution
  deriving DecidableEq

structure BusinessAnalysisAttribution where
  metricName : String
  currentPeriod : String
  comparisonPeriod : String
  comparisonValue : Number
  currentValue : Number
  totalChange : Number
  products : List ProductContribution
  topProducts : List ProductContribution
  deriving DecidableEq

structure ProductPeriod where
  netSales : Number
  quantity : Number
  salesCost : Option Number
  deriving DecidableEq

/-- A value of a result row: `other` is every value that is no text, by its `str`. -/
inductive Cell where
  | none
  | bool (b : Bool)
  | text (s : String)
  | other (str : String)
  deriving DecidableEq

structure TaskResult where
  taskId : String
  status : TaskStatus
  columns : List String := []
  rows : List (List Cell) := []
  truncated : Bool := false
  deriving DecidableEq

def raiseError {α : Type} (message reason : String) : Except Raised α :=
  .error (.attribution ⟨message, reason⟩)

def ProductPeriod.grossProfit (p : ProductPeriod) : Except Raised (Option Number) :=
  match p.salesCost with
  | none => .ok none
  | some cost => some <$> p.netSales.sub cost

/-- Two rows of one product. -/
def ProductPeriod.add (p q : ProductPeriod) : Except Raised ProductPeriod := do
  let salesCost ←
    match p.salesCost, q.salesCost with
    | some c, some d => some <$> c.add d
    | _, _ => .ok none
  return { netSales := ← p.netSales.add q.netSales, quantity := ← p.quantity.add q.quantity, salesCost }

section Reading

variable (casefold : String → String) (digit : Char → Option ℕ)

lemma representable_decimalOf {digit : Char → Option ℕ} {s : String} {d : DecimalNumber}
    (h : Semantic.decimalOf digit s = some (some d)) : Semantic.representable d := by
  unfold Semantic.decimalOf at h
  dsimp only at h
  split at h
  · cases h
  · split at h
    · split at h
      · split at h
        · next hrepresentable =>
          cases h
          exact hrepresentable
        · cases h
      · cases h
    · cases h

/-- `Decimal(text)`, finite. -/
def readNumber (taskId text : String) : Except Raised Number :=
  match h : Semantic.decimalOf digit text with
  | some (some d) => .ok ⟨d, representable_decimalOf h⟩
  | some none => raiseError s!"Task {taskId} 返回了非有限数值" "NUMERIC_VALUE_INVALID"
  | none => raiseError s!"Task {taskId} 返回了无效数值" "NUMERIC_VALUE_INVALID"

/-- `_decimal`. -/
def decimalOf (taskId : String) : Cell → Except Raised Number
  | .none | .bool _ => raiseError s!"Task {taskId} 返回了无效数值" "NUMERIC_VALUE_INVALID"
  | .text s | .other s => readNumber digit taskId s

def overallValue (result : TaskResult) : Except Raised Number :=
  match result.columns, result.rows with
  | [_], [[value]] => decimalOf digit result.taskId value
  | _, _ =>
    let taskId := result.taskId
    raiseError s!"整体指标 Task {taskId} 应返回一个数值" "OVERALL_RESULT_SHAPE_INVALID"

/-- The value of a row in the column of a metric. -/
def metricCell (metrics : Dict String ℕ) (row : List Cell) (name : String) : Cell :=
  ((Dict.get? metrics name).bind fun index => row[index]?).getD .none

/-- The values of a row of the named product. -/
def readPeriod (taskId name : String) (metrics : Dict String ℕ) (row : List Cell) :
    Except Raised ProductPeriod := do
  let netSales ← decimalOf digit taskId (metricCell metrics row netSalesMetric)
  let quantity ← decimalOf digit taskId (metricCell metrics row quantityMetric)
  let salesCost ←
    if Dict.get? metrics salesCostMetric ≠ none then
      some <$> decimalOf digit taskId (metricCell metrics row salesCostMetric)
    else .ok none
  if 0 < quantity.value then return { netSales, quantity, salesCost }
  else raiseError s!"产品 {name} 的销售数量必须大于零" "PRODUCT_QUANTITY_INVALID"

/-- The product and the values of a row. -/
def readRow (taskId : String) (width product : ℕ) (metrics : Dict String ℕ) (row : List Cell) :
    Except Raised (String × ProductPeriod) := do
  require (row.length = width)
    (.attribution ⟨s!"产品 Task {taskId} 的返回行宽度不一致", "PRODUCT_RESULT_SHAPE_INVALID"⟩)
  match row.getD product .none with
  | .text rawName =>
    if strip rawName = "" then
      raiseError s!"产品 Task {taskId} 的产品名称为空" "PRODUCT_NAME_INVALID"
    else (strip rawName, ·) <$> readPeriod digit taskId (strip rawName) metrics row
  | _ => raiseError s!"产品 Task {taskId} 的产品名称为空" "PRODUCT_NAME_INVALID"

/-- The rows of one product are added. -/
def addRow (products : Dict String ProductPeriod) (row : String × ProductPeriod) :
    Except Raised (Dict String ProductPeriod) :=
  match Dict.get? products row.1 with
  | some previous => Dict.set products row.1 <$> previous.add row.2
  | none => .ok (Dict.set products row.1 row.2)

def productValues (result : TaskResult) (metricName : String) :
    Except Raised (Dict String ProductPeriod) := do
  let taskId := result.taskId
  let columns ← (result.columns.zipIdx.foldlM (matchColumn casefold taskId metricName) {}).mapError
    Raised.attribution
  match columns.product with
  | some product =>
    if (expectedMetrics metricName).all fun name => Dict.get? columns.metrics name ≠ none then
      result.rows.foldlM (fun products row => do
        addRow products (← readRow digit taskId result.columns.length product columns.metrics row)) []
    else raiseError s!"产品 Task {taskId} 缺少产品或归因指标列" "PRODUCT_RESULT_COLUMNS_INVALID"
  | none => raiseError s!"产品 Task {taskId} 缺少产品或归因指标列" "PRODUCT_RESULT_COLUMNS_INVALID"

end Reading

/-- `abs(x - y) > _RECONCILIATION_TOLERANCE` raises the error. -/
def reconcile (x y : Number) (e : AnalysisError) : Except Raised Unit := do
  let difference ← (← x.sub y).abs
  require (difference.value ≤ reconciliationTolerance) (.attribution e)

/-- `value.gross_profit or Decimal(0)`. -/
def profitOrZero (p : ProductPeriod) : Except Raised Number := do
  match ← p.grossProfit with
  | some profit => return if profit.number.coefficient = 0 then Number.zero else profit
  | none => return Number.zero

def reconcilePeriod (products : Dict String ProductPeriod) (overall : Number)
    (metricName period : String) : Except Raised Unit := do
  let total ←
    if metricName = grossProfitMetric then
      products.foldlM (fun total p => do total.add (← profitOrZero p.2)) .zero
    else Number.sum (products.map fun p => p.2.netSales)
  reconcile total overall ⟨s!"{period} 产品汇总与整体指标不一致", "PERIOD_TOTAL_RECONCILIATION_FAILED"⟩

def periodMetric (metricName : String) : Option ProductPeriod → Except Raised Number
  | none => .ok .zero
  | some value =>
    if metricName = grossProfitMetric then do
      match ← value.grossProfit with
      | none => raiseError "产品缺少销售成本" "PRODUCT_COST_MISSING"
      | some profit => return profit
    else .ok value.netSales

/-- The factors of a product that both periods have. -/
def productFactors (productName metricName : String) (comparison current : ProductPeriod) :
    Except Raised (List FactorContribution) := do
  let oldPrice ← comparison.netSales.div comparison.quantity
  let newPrice ← current.netSales.div current.quantity
  let meanQuantity ← (← comparison.quantity.add current.quantity).div .two
  if metricName = netSalesMetric then
    let price ← (← newPrice.sub oldPrice).mul meanQuantity
    let moved ← current.quantity.sub comparison.quantity
    let quantity ← (← moved.mul (← oldPrice.add newPrice)).div .two
    return [⟨"实际成交单价", price⟩, ⟨"销量", quantity⟩]
  else
    match comparison.salesCost, current.salesCost with
    | some oldCost, some newCost => do
      let oldUnitCost ← oldCost.div comparison.quantity
      let newUnitCost ← newCost.div current.quantity
      let price ← (← newPrice.sub oldPrice).mul meanQuantity
      let moved ← current.quantity.sub comparison.quantity
      let oldMargin ← oldPrice.sub oldUnitCost
      let newMargin ← newPrice.sub newUnitCost
      let quantity ← (← moved.mul (← oldMargin.add newMargin)).div .two
      let cost ← (← (← newUnitCost.sub oldUnitCost).neg).mul meanQuantity
      return [⟨"实际成交单价", price⟩, ⟨"销量", quantity⟩, ⟨"单位成本", cost⟩]
    | _, _ => raiseError s!"产品 {productName} 缺少单位成本输入" "PRODUCT_COST_MISSING"

def productContribution (productName : String) (comparison current : Option ProductPeriod)
    (metricName : String) : Except Raised ProductContribution :=
  match comparison, current with
  | none, current => do
    let change ← periodMetric metricName current
    return ⟨productName, change, .newProduct, [⟨"新品进入", change⟩]⟩
  | some comparison, none => do
    let change ← (← periodMetric metricName (some comparison)).neg
    return ⟨productName, change, .exitedProduct, [⟨"产品退出", change⟩]⟩
  | some comparison, some current => do
    let factors ← productFactors productName metricName comparison current
    let newMetric ← periodMetric metricName (some current)
    let change ← newMetric.sub (← periodMetric metricName (some comparison))
    let total ← Number.sum (factors.map FactorContribution.amount)
    reconcile total change ⟨s!"产品 {productName} 的因素贡献无法对账", "PRODUCT_FACTOR_RECONCILIATION_FAILED"⟩
    return ⟨productName, change, .continuing, factors⟩

/-- The order of the key `(key(item), item.product_name)`. -/
def ByKey (p q : Number × ProductContribution) : Prop :=
  p.1.value < q.1.value ∨ p.1.value = q.1.value ∧ p.2.productName ≤ q.2.productName

instance : DecidableRel ByKey := fun _ _ => inferInstanceAs (Decidable (_ ∨ _))

/-- `sorted` by a key that is computed, the first three. -/
def leading (key : ProductContribution → Except Raised Number)
    (products : List ProductContribution) : Except Raised (List ProductContribution) := do
  let keyed ← products.mapM fun p => do return (← key p, p)
  return ((keyed.insertionSort ByKey).map Prod.snd).take 3

def topProducts (products : List ProductContribution) (totalChange : Number) :
    Except Raised (List ProductContribution) :=
  if 0 < totalChange.value then
    leading (fun p => p.change.neg) (products.filter fun p => 0 < p.change.value)
  else if totalChange.value < 0 then
    leading (fun p => .ok p.change) (products.filter fun p => p.change.value < 0)
  else .ok []

/-- `sorted(set(comparison) | set(current))`. -/
def productNames (comparison current : Dict String ProductPeriod) : List String :=
  (comparison.map Prod.fst ++ current.map Prod.fst).dedup.insertionSort (· ≤ ·)

/-- The result of a task, after the check that it is there. -/
def taskResult (results : List TaskResult) (taskId : String) : Except Raised TaskResult :=
  match results.find? (·.taskId = taskId) with
  | none => raiseError "归因 Task 结果不完整" "TASK_RESULTS_INCOMPLETE"
  | some result => .ok result

section Calculation

variable (casefold : String → String) (digit : Char → Option ℕ)

def calculateProductAttribution (request : AnalysisRequest) (taskResults : List TaskResult) :
    Except Raised BusinessAnalysisAttribution := do
  let metricName := request.metricName
  require (metricName ∈ [grossProfitMetric, netSalesMetric])
    (.attribution ⟨"目标指标不在归因范围内", "METRIC_UNSUPPORTED"⟩)
  require ((taskResults.map TaskResult.taskId).Nodup ∧
      ∀ taskId ∈ expectedTasks, taskId ∈ taskResults.map TaskResult.taskId)
    (.attribution ⟨"归因 Task 结果不完整", "TASK_RESULTS_INCOMPLETE"⟩)
  expectedTasks.forM fun taskId => do
    let result ← taskResult taskResults taskId
    require (result.status = .completed ∧ result.truncated = false)
      (.attribution ⟨s!"Task {taskId} 未完整成功", "TASK_RESULT_INCOMPLETE"⟩)
  let comparisonValue ← overallValue digit (← taskResult taskResults "comparison-overall")
  let currentValue ← overallValue digit (← taskResult taskResults "current-overall")
  let comparison ← productValues casefold digit
    (← taskResult taskResults "comparison-products") metricName
  let current ← productValues casefold digit
    (← taskResult taskResults "current-products") metricName
  reconcilePeriod comparison comparisonValue metricName request.comparisonPeriod.text
  reconcilePeriod current currentValue metricName request.currentPeriod.text
  let products ← (productNames comparison current).mapM fun name =>
    productContribution name (Dict.get? comparison name) (Dict.get? current name) metricName
  let totalChange ← currentValue.sub comparisonValue
  let productsChange ← Number.sum (products.map ProductContribution.change)
  reconcile productsChange totalChange
    ⟨"所有产品贡献无法与整体指标变化对账", "TOTAL_CHANGE_RECONCILIATION_FAILED"⟩
  let top ← topProducts products totalChange
  return {
    metricName
    currentPeriod := request.currentPeriod.text
    comparisonPeriod := request.comparisonPeriod.text
    comparisonValue
    currentValue
    totalChange
    products
    topProducts := top }

end Calculation

/-! ### The payload -/

/-- `_decimal_text`. A zero is formatted without the zeros of its exponent. -/
def decimalText (x : Number) : String :=
  let d := x.number
  String.ofList
    (if d.coefficient = 0 ∧ 0 < d.exponent then { d with exponent := 0 } else d).plainText

def metricEffect (x : Number) : String :=
  if 0 < x.value then "increases_target_metric"
  else if x.value < 0 then "decreases_target_metric"
  else "no_change_to_target_metric"

def BusinessAnalysisAttribution.direction (a : BusinessAnalysisAttribution) : String :=
  if 0 < a.totalChange.value then "increase"
  else if a.totalChange.value < 0 then "decrease"
  else "unchanged"

def factorPayload (factor : FactorContribution) : Json := .obj [
  ("name", .str factor.name), ("amount", .str (decimalText factor.amount)),
  ("effect_on_metric", .str (metricEffect factor.amount))]

def productPayload (product : ProductContribution) : Json := .obj [
  ("product_name", .str product.productName), ("change", .str (decimalText product.change)),
  ("effect_on_metric", .str (metricEffect product.change)),
  ("classification", .str product.classification.text),
  ("factors", .arr (product.factors.map factorPayload))]

def BusinessAnalysisAttribution.toPayload (a : BusinessAnalysisAttribution) : Json := .obj [
  ("metric_name", .str a.metricName), ("comparison_period", .str a.comparisonPeriod),
  ("current_period", .str a.currentPeriod),
  ("comparison_value", .str (decimalText a.comparisonValue)),
  ("current_value", .str (decimalText a.currentValue)),
  ("total_change", .str (decimalText a.totalChange)), ("direction", .str a.direction),
  ("products", .arr (a.topProducts.map productPayload)),
  ("omitted_product_count", .int (a.products.length - a.topProducts.length)),
  ("reconciliation_passed", .bool true)]

end ChatBI.Analysis.Decimals
