import ChatBI.Analysis.Contracts
import ChatBI.Lib.Check
import ChatBI.Lib.Dict
import ChatBI.Lib.Text
import Mathlib.Algebra.Order.Field.Rat
import Mathlib.Data.List.Sort
import Mathlib.Data.String.Basic

/-!
# Product attribution

`calculate_product_attribution` over exact rationals. The case folding of column names and the
reading of a number from a text are parameters.
-/

namespace ChatBI.Analysis

open ChatBI.Lib

structure FactorContribution where
  name : String
  amount : ℚ
  deriving DecidableEq

structure ProductContribution where
  productName : String
  change : ℚ
  classification : String
  factors : List FactorContribution
  deriving DecidableEq

structure BusinessAnalysisAttribution where
  metricName : String
  currentPeriod : String
  comparisonPeriod : String
  comparisonValue : ℚ
  currentValue : ℚ
  totalChange : ℚ
  products : List ProductContribution
  topProducts : List ProductContribution
  deriving DecidableEq

/-- The values of a product in a period. `_product_values` refuses the quantities that are not
positive, and adds the others. -/
structure ProductPeriod where
  netSales : ℚ
  quantity : ℚ
  salesCost : Option ℚ
  positive : 0 < quantity
  deriving DecidableEq

namespace ProductPeriod

def grossProfit (p : ProductPeriod) : Option ℚ := p.salesCost.map (p.netSales - ·)

/-- Two rows of one product. -/
def add (p q : ProductPeriod) : ProductPeriod where
  netSales := p.netSales + q.netSales
  quantity := p.quantity + q.quantity
  salesCost := p.salesCost.bind fun c => q.salesCost.map (c + ·)
  positive := add_pos p.positive q.positive

end ProductPeriod

def reconciliationTolerance : ℚ := 1 / 1000000

def grossProfitMetric : String := "人民币毛利"
def netSalesMetric : String := "人民币净销售额"
def quantityMetric : String := "已完成销售数量"
def salesCostMetric : String := "人民币销售成本"

/-- `_MONEY_COLUMNS`. -/
def moneyColumns : List (String × List String) := [
  (netSalesMetric, ["人民币净销售额", "净销售额", "人民币销售额", "销售额", "net_sales_cny",
    "net_sales_amount_cny"]),
  (quantityMetric, ["已完成销售数量", "销售数量", "销量", "completed_sales_quantity",
    "sales_quantity", "quantity"]),
  (salesCostMetric, ["人民币销售成本", "销售成本", "人民币成本", "成本", "sales_cost_cny",
    "sales_cost_amount_cny"]),
  (grossProfitMetric, ["人民币毛利", "毛利", "人民币毛利润", "gross_profit_cny"])]

def productColumns : List String := ["产品", "产品名称", "product", "product_name"]

def attributionError {α : Type} (message reason : String) : Except AnalysisError α :=
  .error ⟨message, reason⟩

section Reading

variable (casefold : String → String) (decimal : String → Option (Option ℚ))

/-- `_decimal`. The text of a number may be no number, or one that is not finite. -/
def decimalOf (taskId : String) : Value → Except AnalysisError ℚ
  | .number q => .ok q
  | .text s =>
    match decimal s with
    | some (some q) => .ok q
    | some none => attributionError s!"Task {taskId} 返回了非有限数值" "NUMERIC_VALUE_INVALID"
    | none => attributionError s!"Task {taskId} 返回了无效数值" "NUMERIC_VALUE_INVALID"
  | .nan => attributionError s!"Task {taskId} 返回了非有限数值" "NUMERIC_VALUE_INVALID"
  | .none | .bool _ | .other =>
    attributionError s!"Task {taskId} 返回了无效数值" "NUMERIC_VALUE_INVALID"

def overallValue (result : TaskResult) : Except AnalysisError ℚ :=
  match result.columns, result.rows with
  | [_], [[value]] => decimalOf decimal result.taskId value
  | _, _ =>
    let taskId := result.taskId
    attributionError s!"整体指标 Task {taskId} 应返回一个数值" "OVERALL_RESULT_SHAPE_INVALID"

/-- `_normalize_column`: only lower case letters, digits and ideographs stay. -/
def normalizeColumn (column : String) : String :=
  String.ofList ((casefold column).toList.filter fun c =>
    ('a' ≤ c && c ≤ 'z') || ('0' ≤ c && c ≤ '9') || ('\u4e00' ≤ c && c ≤ '\u9fff'))

def expectedMetrics (metricName : String) : List String :=
  if metricName = grossProfitMetric then [netSalesMetric, quantityMetric, salesCostMetric]
  else [netSalesMetric, quantityMetric]

/-- The position of the product column and those of the metrics. -/
structure Columns where
  product : Option Nat := none
  metrics : Dict String Nat := []

/-- The inner loop over the expected metrics. -/
def matchMetric (taskId normalized : String) (index : Nat) (columns : Columns) (name : String) :
    Except AnalysisError Columns :=
  let aliases := ((Dict.get? moneyColumns name).getD []).map (normalizeColumn casefold)
  if normalized ∈ aliases then
    if Dict.get? columns.metrics name ≠ none then
      attributionError s!"产品 Task {taskId} 的 {name} 列重复" "METRIC_COLUMN_AMBIGUOUS"
    else .ok { columns with metrics := Dict.set columns.metrics name index }
  else .ok columns

def matchProduct (taskId normalized : String) (index : Nat) (columns : Columns) :
    Except AnalysisError Columns :=
  if normalized ∈ productColumns.map (normalizeColumn casefold) then
    if columns.product ≠ none then
      attributionError s!"产品 Task {taskId} 返回多个产品列" "PRODUCT_COLUMN_AMBIGUOUS"
    else .ok { columns with product := some index }
  else .ok columns

/-- One turn of the loop over the columns. -/
def matchColumn (taskId metricName : String) (columns : Columns) (column : String × Nat) :
    Except AnalysisError Columns := do
  let normalized := normalizeColumn casefold column.1
  let columns ← matchProduct casefold taskId normalized column.2 columns
  (expectedMetrics metricName).foldlM (matchMetric casefold taskId normalized column.2) columns

/-- The value of a row in the column of a metric. -/
def metricCell (metrics : Dict String Nat) (row : List Value) (name : String) : Value :=
  ((Dict.get? metrics name).bind fun index => row[index]?).getD .none

/-- The sales cost of a row, when it has been asked for. -/
def salesCostOf (taskId : String) (metrics : Dict String Nat) (row : List Value) :
    Except AnalysisError (Option ℚ) :=
  if Dict.get? metrics salesCostMetric ≠ none then
    some <$> decimalOf decimal taskId (metricCell metrics row salesCostMetric)
  else .ok none

/-- The values of a row of the named product. -/
def readPeriod (taskId name : String) (metrics : Dict String Nat) (row : List Value) :
    Except AnalysisError ProductPeriod := do
  let netSales ← decimalOf decimal taskId (metricCell metrics row netSalesMetric)
  let quantity ← decimalOf decimal taskId (metricCell metrics row quantityMetric)
  let salesCost ← salesCostOf decimal taskId metrics row
  if h : 0 < quantity then .ok ⟨netSales, quantity, salesCost, h⟩
  else attributionError s!"产品 {name} 的销售数量必须大于零" "PRODUCT_QUANTITY_INVALID"

/-- The product and the values of a row. -/
def readRow (taskId : String) (width product : Nat) (metrics : Dict String Nat)
    (row : List Value) : Except AnalysisError (String × ProductPeriod) := do
  require (row.length = width)
    ⟨s!"产品 Task {taskId} 的返回行宽度不一致", "PRODUCT_RESULT_SHAPE_INVALID"⟩
  match row.getD product .none with
  | .text rawName =>
    if strip rawName = "" then
      attributionError s!"产品 Task {taskId} 的产品名称为空" "PRODUCT_NAME_INVALID"
    else (strip rawName, ·) <$> readPeriod decimal taskId (strip rawName) metrics row
  | _ => attributionError s!"产品 Task {taskId} 的产品名称为空" "PRODUCT_NAME_INVALID"

/-- The rows of one product are added. -/
def addRow (products : Dict String ProductPeriod) (row : String × ProductPeriod) :
    Dict String ProductPeriod :=
  Dict.set products row.1 (((Dict.get? products row.1).map (·.add row.2)).getD row.2)

def productValues (result : TaskResult) (metricName : String) :
    Except AnalysisError (Dict String ProductPeriod) := do
  let taskId := result.taskId
  let columns ← result.columns.zipIdx.foldlM (matchColumn casefold taskId metricName) {}
  match columns.product with
  | some product =>
    if (expectedMetrics metricName).all fun name => Dict.get? columns.metrics name ≠ none then
      result.rows.foldlM (fun products row =>
        addRow products <$> readRow decimal taskId result.columns.length product columns.metrics
          row) []
    else attributionError s!"产品 Task {taskId} 缺少产品或归因指标列" "PRODUCT_RESULT_COLUMNS_INVALID"
  | none =>
    attributionError s!"产品 Task {taskId} 缺少产品或归因指标列" "PRODUCT_RESULT_COLUMNS_INVALID"

end Reading

def reconcilePeriod (products : Dict String ProductPeriod) (overall : ℚ)
    (metricName period : String) : Except AnalysisError Unit :=
  let total :=
    if metricName = grossProfitMetric then (products.map fun p => p.2.grossProfit.getD 0).sum
    else (products.map fun p => p.2.netSales).sum
  require (|total - overall| ≤ reconciliationTolerance)
    ⟨s!"{period} 产品汇总与整体指标不一致", "PERIOD_TOTAL_RECONCILIATION_FAILED"⟩

def periodMetric (metricName : String) : Option ProductPeriod → Except AnalysisError ℚ
  | none => .ok 0
  | some value =>
    if metricName = grossProfitMetric then
      match value.grossProfit with
      | none => attributionError "产品缺少销售成本" "PRODUCT_COST_MISSING"
      | some profit => .ok profit
    else .ok value.netSales

/-- The factors of a product that both periods have. -/
def productFactors (productName metricName : String) (comparison current : ProductPeriod) :
    Except AnalysisError (List FactorContribution) :=
  let oldPrice := comparison.netSales / comparison.quantity
  let newPrice := current.netSales / current.quantity
  let meanQuantity := (comparison.quantity + current.quantity) / 2
  if metricName = netSalesMetric then
    .ok [
      ⟨"实际成交单价", (newPrice - oldPrice) * meanQuantity⟩,
      ⟨"销量", (current.quantity - comparison.quantity) * (oldPrice + newPrice) / 2⟩]
  else
    match comparison.salesCost, current.salesCost with
    | some oldCost, some newCost =>
      let oldUnitCost := oldCost / comparison.quantity
      let newUnitCost := newCost / current.quantity
      .ok [
        ⟨"实际成交单价", (newPrice - oldPrice) * meanQuantity⟩,
        ⟨"销量", (current.quantity - comparison.quantity) *
          ((oldPrice - oldUnitCost) + (newPrice - newUnitCost)) / 2⟩,
        ⟨"单位成本", -(newUnitCost - oldUnitCost) * meanQuantity⟩]
    | _, _ => attributionError s!"产品 {productName} 缺少单位成本输入" "PRODUCT_COST_MISSING"

def productContribution (productName : String) (comparison current : Option ProductPeriod)
    (metricName : String) : Except AnalysisError ProductContribution :=
  match comparison, current with
  | none, current => do
    let change ← periodMetric metricName current
    return ⟨productName, change, "new_product", [⟨"新品进入", change⟩]⟩
  | some comparison, none => do
    let change ← (- ·) <$> periodMetric metricName (some comparison)
    return ⟨productName, change, "exited_product", [⟨"产品退出", change⟩]⟩
  | some comparison, some current => do
    let factors ← productFactors productName metricName comparison current
    let change :=
      (← periodMetric metricName (some current)) - (← periodMetric metricName (some comparison))
    require (|(factors.map FactorContribution.amount).sum - change| ≤ reconciliationTolerance)
      ⟨s!"产品 {productName} 的因素贡献无法对账", "PRODUCT_FACTOR_RECONCILIATION_FAILED"⟩
    return ⟨productName, change, "continuing", factors⟩

/-- The order of the key `(key(item), item.product_name)`. -/
def ByKey (key : ProductContribution → ℚ) (p q : ProductContribution) : Prop :=
  key p < key q ∨ key p = key q ∧ p.productName ≤ q.productName

instance (key : ProductContribution → ℚ) : DecidableRel (ByKey key) :=
  fun _ _ => inferInstanceAs (Decidable (_ ∨ _))

def topProducts (products : List ProductContribution) (totalChange : ℚ) :
    List ProductContribution :=
  let ordered :=
    if 0 < totalChange then
      (products.filter fun p => 0 < p.change).insertionSort (ByKey fun p => -p.change)
    else if totalChange < 0 then
      (products.filter fun p => p.change < 0).insertionSort (ByKey fun p => p.change)
    else []
  ordered.take 3

/-- `sorted(set(comparison) | set(current))`. -/
def productNames (comparison current : Dict String ProductPeriod) : List String :=
  (comparison.map Prod.fst ++ current.map Prod.fst).dedup.insertionSort (· ≤ ·)

def expectedTasks : List String :=
  ["comparison-overall", "current-overall", "comparison-products", "current-products"]

/-- The result of a task, after the check that it is there. -/
def taskResult (results : List TaskResult) (taskId : String) : Except AnalysisError TaskResult :=
  match results.find? (·.taskId = taskId) with
  | none => attributionError "归因 Task 结果不完整" "TASK_RESULTS_INCOMPLETE"
  | some result => .ok result

section Calculation

variable (casefold : String → String) (decimal : String → Option (Option ℚ))

def calculateProductAttribution (request : AnalysisRequest) (taskResults : List TaskResult) :
    Except AnalysisError BusinessAnalysisAttribution := do
  let metricName := request.metricName
  require (metricName ∈ [grossProfitMetric, netSalesMetric])
    ⟨"目标指标不在归因范围内", "METRIC_UNSUPPORTED"⟩
  require ((taskResults.map TaskResult.taskId).Nodup ∧
      ∀ taskId ∈ expectedTasks, taskId ∈ taskResults.map TaskResult.taskId)
    ⟨"归因 Task 结果不完整", "TASK_RESULTS_INCOMPLETE"⟩
  expectedTasks.forM fun taskId => do
    let result ← taskResult taskResults taskId
    require (result.status = .completed ∧ result.truncated = false)
      ⟨s!"Task {taskId} 未完整成功", "TASK_RESULT_INCOMPLETE"⟩
  let comparisonValue ← overallValue decimal (← taskResult taskResults "comparison-overall")
  let currentValue ← overallValue decimal (← taskResult taskResults "current-overall")
  let comparison ← productValues casefold decimal
    (← taskResult taskResults "comparison-products") metricName
  let current ← productValues casefold decimal
    (← taskResult taskResults "current-products") metricName
  reconcilePeriod comparison comparisonValue metricName request.comparisonPeriod.text
  reconcilePeriod current currentValue metricName request.currentPeriod.text
  let products ← (productNames comparison current).mapM fun name =>
    productContribution name (Dict.get? comparison name) (Dict.get? current name) metricName
  let totalChange := currentValue - comparisonValue
  require (|(products.map ProductContribution.change).sum - totalChange| ≤
      reconciliationTolerance)
    ⟨"所有产品贡献无法与整体指标变化对账", "TOTAL_CHANGE_RECONCILIATION_FAILED"⟩
  return {
    metricName
    currentPeriod := request.currentPeriod.text
    comparisonPeriod := request.comparisonPeriod.text
    comparisonValue
    currentValue
    totalChange
    products
    topProducts := topProducts products totalChange }

end Calculation

end ChatBI.Analysis
