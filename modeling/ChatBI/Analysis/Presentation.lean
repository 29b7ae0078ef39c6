import ChatBI.Analysis.Columns
import ChatBI.Analysis.Reconciliation
import ChatBI.Lib.Alike
import ChatBI.Lib.Raises
import ChatBI.Lib.Table
import ChatBI.Lib.Tally
import Mathlib.Algebra.BigOperators.Group.List.Basic
import Mathlib.Data.List.Dedup
import Mathlib.Data.List.Sort
import Mathlib.Logic.Relation

/-!
# The presentation of task results

The attribution does not depend on the order of the tasks, of their rows and columns, nor on
whether a product is one row or several ones.
-/

namespace ChatBI.Analysis

open ChatBI.Lib

def productTasks : List String := ["comparison-products", "current-products"]

/-- The values of several rows add up to those of one. -/
structure SumsTo (periods : List ProductPeriod) (whole : ProductPeriod) : Prop where
  netSales : (periods.map ProductPeriod.netSales).sum = whole.netSales
  quantity : (periods.map ProductPeriod.quantity).sum = whole.quantity
  salesCost : (periods.map fun p => p.salesCost.getD 0).sum = whole.salesCost.getD 0

section

variable (casefold : String → String) (decimal : String → Option (Option ℚ))

/-- A row of a product task, read in the columns that have been found. -/
def readRowOf (result : TaskResult) (columns : Nat × Dict String Nat) (row : List Value) :
    Except AnalysisError (String × ProductPeriod) :=
  readRow decimal result.taskId result.columns.length columns.1 columns.2 row

/-- Rows of one product that add up to a row of it. -/
def Splits (result : TaskResult) (columns : Nat × Dict String Nat) (row : List Value)
    (parts : List (List Value)) : Prop :=
  ∃ name whole periods, readRowOf decimal result columns row = .ok (name, whole) ∧
    List.Forall₂ (fun part period => readRowOf decimal result columns part = .ok (name, period))
      parts periods ∧ SumsTo periods whole

/-- Another presentation of one task result. -/
inductive TaskResult.Rearranged (metricName : String) (result : TaskResult) : TaskResult → Prop
  | rows {rows' : List (List Value)} (h : result.rows.Perm rows') :
      Rearranged metricName result { result with rows := rows' }
  | columns {order : List Nat} (h : order.Perm (List.range result.columns.length)) :
      Rearranged metricName result (result.arranged order)
  | split {before after parts : List (List Value)} {row : List Value} {rowCount : Nat}
      (htask : result.taskId ∈ productTasks) (hrows : result.rows = before ++ row :: after)
      (hsplit : ∀ columns, columnsOf casefold result metricName = .ok columns →
        Splits decimal result columns row parts) :
      Rearranged metricName result { result with rows := before ++ (parts ++ after), rowCount }

/-- Another presentation of the task results. -/
inductive Presented (metricName : String) : List TaskResult → List TaskResult → Prop
  | tasks {results results' : List TaskResult} (h : results.Perm results') :
      Presented metricName results results'
  | task {before after : List TaskResult} {result result' : TaskResult}
      (h : result.Rearranged casefold decimal metricName result') :
      Presented metricName (before ++ result :: after) (before ++ result' :: after)

end

/-- The same products with the same values. -/
structure SameProducts (products products' : Dict String ProductPeriod) : Prop where
  perm : products.Perm products'
  nodup : (products.map Prod.fst).Nodup

/-- Two results of a task that the attribution does not tell apart. -/
structure TaskResult.SameTask (casefold : String → String)
    (decimal : String → Option (Option ℚ)) (metricName : String) (result result' : TaskResult) :
    Prop where
  taskId : result.taskId = result'.taskId
  status : result.status = result'.status
  truncated : result.truncated = result'.truncated
  overall : result.taskId ∉ productTasks →
    Alike Eq (overallValue decimal result) (overallValue decimal result')
  products : Alike SameProducts (productValues casefold decimal result metricName)
    (productValues casefold decimal result' metricName)

section Periods

variable {p q r : ProductPeriod}

@[ext]
lemma ProductPeriod.ext (hsales : p.netSales = q.netSales) (hquantity : p.quantity = q.quantity)
    (hcost : p.salesCost = q.salesCost) : p = q := by
  cases p
  cases q
  simp_all

lemma add_salesCost_comm (a b : Option ℚ) :
    (a.bind fun c => b.map (c + ·)) = b.bind fun c => a.map (c + ·) := by
  cases a with
  | none => cases b <;> rfl
  | some a =>
    cases b with
    | none => rfl
    | some b => exact congrArg some (add_comm a b)

lemma add_salesCost_assoc (a b c : Option ℚ) :
    ((a.bind fun x => b.map (x + ·)).bind fun x => c.map (x + ·)) =
      a.bind fun x => (b.bind fun y => c.map (y + ·)).map (x + ·) := by
  cases a with
  | none => rfl
  | some a =>
    cases b with
    | none => rfl
    | some b =>
      cases c with
      | none => rfl
      | some c => exact congrArg some (add_assoc a b c)

lemma period_add_comm (p q : ProductPeriod) : p.add q = q.add p := by
  apply ProductPeriod.ext
  · exact add_comm _ _
  · exact add_comm _ _
  · exact add_salesCost_comm _ _

lemma period_add_assoc (p q r : ProductPeriod) : (p.add q).add r = p.add (q.add r) := by
  apply ProductPeriod.ext
  · exact add_assoc _ _ _
  · exact add_assoc _ _ _
  · exact add_salesCost_assoc _ _ _

instance : Std.Commutative ProductPeriod.add := ⟨period_add_comm⟩

instance : Std.Associative ProductPeriod.add := ⟨period_add_assoc⟩

/-- Periods that all have a cost, or all have none, add up in each value. -/
lemma sumsTo_foldl_add {periods : List ProductPeriod} {cost : Bool}
    (h : p.salesCost.isSome = cost) (hall : ∀ q ∈ periods, q.salesCost.isSome = cost) :
    (periods.foldl ProductPeriod.add p).salesCost.isSome = cost ∧
      SumsTo (p :: periods) (periods.foldl ProductPeriod.add p) := by
  induction periods generalizing p with
  | nil => exact ⟨h, by simp, by simp, by simp⟩
  | cons q periods ih =>
    have hq := hall q List.mem_cons_self
    have hadded : (p.add q).salesCost.isSome = cost ∧
        (p.add q).salesCost.getD 0 = p.salesCost.getD 0 + q.salesCost.getD 0 := by
      unfold ProductPeriod.add
      cases hp : p.salesCost with
      | none =>
        cases hqc : q.salesCost with
        | none => exact ⟨by rw [← h, hp]; rfl, by simp⟩
        | some c =>
          rw [hp] at h
          rw [hqc] at hq
          rw [← h] at hq
          cases hq
      | some c =>
        cases hqc : q.salesCost with
        | none =>
          rw [hp] at h
          rw [hqc] at hq
          rw [← h] at hq
          cases hq
        | some c' => exact ⟨by rw [← h, hp]; rfl, by simp⟩
    obtain ⟨hsome, hsales, hquantity, hcost⟩ :=
      ih hadded.1 fun r hr => hall r (List.mem_cons_of_mem _ hr)
    refine ⟨hsome, ?_, ?_, ?_⟩
    · rw [List.foldl_cons, ← hsales]
      simp [ProductPeriod.add, add_assoc]
    · rw [List.foldl_cons, ← hquantity]
      simp [ProductPeriod.add, add_assoc]
    · rw [List.foldl_cons, ← hcost]
      simp [hadded.2, add_assoc]

/-- Periods that add up to one are added as that one. -/
lemma foldl_addTo_of_sumsTo {periods : List ProductPeriod} {whole : ProductPeriod}
    (h : SumsTo periods whole)
    (hall : ∀ q ∈ periods, q.salesCost.isSome = whole.salesCost.isSome)
    (sum : Option ProductPeriod) :
    periods.foldl (Dict.addTo ProductPeriod.add) sum = Dict.addTo ProductPeriod.add sum whole := by
  have hfold : ∀ (rest : List ProductPeriod) (p : ProductPeriod),
      rest.foldl (Dict.addTo ProductPeriod.add) (some p) =
        some (rest.foldl ProductPeriod.add p) := by
    intro rest
    induction rest with
    | nil => exact fun p => rfl
    | cons q rest ih => exact fun p => ih (p.add q)
  cases periods with
  | nil =>
    have hzero : (0 : ℚ) = whole.quantity := h.quantity
    exact absurd hzero (ne_of_lt whole.positive)
  | cons first rest =>
    obtain ⟨hsome, hsales, hquantity, hcost⟩ := sumsTo_foldl_add (hall first List.mem_cons_self)
      fun q hq => hall q (List.mem_cons_of_mem _ hq)
    have hwhole : rest.foldl ProductPeriod.add first = whole := by
      apply ProductPeriod.ext
      · exact hsales.symm.trans h.netSales
      · exact hquantity.symm.trans h.quantity
      · have hgetD := hcost.symm.trans h.salesCost
        cases hw : whole.salesCost with
        | none =>
          rw [hw] at hsome
          exact Option.isNone_iff_eq_none.mp (Option.isSome_eq_false_iff.mp hsome)
        | some c =>
          rw [hw] at hsome hgetD
          obtain ⟨c', hc'⟩ := Option.isSome_iff_exists.mp hsome
          rw [hc'] at hgetD ⊢
          exact congrArg some hgetD
    have hassoc : ∀ (rest : List ProductPeriod) (p q : ProductPeriod),
        rest.foldl ProductPeriod.add (p.add q) = p.add (rest.foldl ProductPeriod.add q) := by
      intro rest
      induction rest with
      | nil => exact fun p q => rfl
      | cons r rest ih =>
        intro p q
        rw [List.foldl_cons, List.foldl_cons, ← ih, period_add_assoc]
    rw [List.foldl_cons]
    cases sum with
    | none => exact (hfold rest first).trans (congrArg some hwhole)
    | some p =>
      rw [Dict.addTo, hfold]
      exact congrArg some ((hassoc rest p first).trans (congrArg p.add hwhole))

end Periods

variable {casefold : String → String} {decimal : String → Option (Option ℚ)}
  {metricName : String} {result result' : TaskResult}

section Reading

variable {columns : Nat × Dict String Nat} {row : List Value} {rows rows' : List (List Value)}

/-- The values of the rows that have been read. -/
def tallyRows (rows : List (String × ProductPeriod)) : Dict String ProductPeriod :=
  rows.foldl (Dict.tally ProductPeriod.add) []

lemma productValues_eq (result : TaskResult) (metricName : String) :
    productValues casefold decimal result metricName =
      columnsOf casefold result metricName >>= fun columns =>
        tallyRows <$> result.rows.mapM (readRowOf decimal result columns) := by
  unfold productValues columnsOf
  dsimp only
  cases result.columns.zipIdx.foldlM (matchColumn casefold result.taskId metricName) {} with
  | error e => rfl
  | ok found =>
    obtain ⟨product, metrics⟩ := found
    cases product with
    | none => rfl
    | some product =>
      simp only [bind, Except.bind]
      split
      · exact foldlM_map_eq _ _ _ _
      · rfl

lemma sameProducts_tallyRows {rows rows' : List (String × ProductPeriod)} (h : rows.Perm rows') :
    SameProducts (tallyRows rows) (tallyRows rows') :=
  ⟨Dict.foldl_tally_perm List.nodup_nil h, Dict.nodup_foldl_tally List.nodup_nil⟩

/-- The cost of a row has been read when its column has been found. -/
lemma readRowOf_salesCost {name : String} {period : ProductPeriod}
    (h : readRowOf decimal result columns row = .ok (name, period)) :
    period.salesCost.isSome = (Dict.get? columns.2 salesCostMetric).isSome := by
  unfold readRowOf readRow at h
  obtain ⟨_, -, h⟩ := except_bind_ok.mp h
  split at h
  · split at h
    · cases h
    · obtain ⟨read, hread, hpair⟩ := except_map_ok.mp h
      cases hpair
      obtain ⟨netSales, -, hread⟩ := except_bind_ok.mp hread
      obtain ⟨quantity, -, hread⟩ := except_bind_ok.mp hread
      obtain ⟨salesCost, hcost, hread⟩ := except_bind_ok.mp hread
      split at hread
      · cases hread
        unfold salesCostOf at hcost
        split at hcost
        · next hsome =>
          obtain ⟨cost, -, hvalue⟩ := except_map_ok.mp hcost
          rw [← hvalue]
          exact (Option.isSome_iff_ne_none.mpr hsome).symm
        · next hnone =>
          cases hcost
          rw [not_not.mp hnone]
          rfl
      · cases hread
  · cases h

/-- The cells of the found columns, before and after the columns have been put in another
order. -/
structure SameCells (order : List Nat) (width : Nat) (columns columns' : Nat × Dict String Nat) :
    Prop where
  product : ∀ row : List Value, row.length = width →
    row.getD columns.1 .none = (arrange order row).getD columns'.1 .none
  metrics : ∀ row : List Value, row.length = width → ∀ name,
    metricCell columns.2 row name = metricCell columns'.2 (arrange order row) name
  asked : ∀ name, Dict.get? columns.2 name ≠ none ↔ Dict.get? columns'.2 name ≠ none

lemma columnsOf_arranged {order : List Nat}
    (h : order.Perm (List.range result.columns.length)) :
    Alike (SameCells order result.columns.length) (columnsOf casefold result metricName)
      (columnsOf casefold (result.arranged order) metricName) := by
  have hsingle : (∃ columns', columnsOf casefold (result.arranged order) metricName =
      .ok columns') ↔ ∃ columns, columnsOf casefold result metricName = .ok columns := by
    rw [columnsOf_ok_iff, columnsOf_ok_iff]
    exact single_arrange_iff h
  apply Alike.intro
  · rintro ⟨product, metrics⟩ hcolumns
    obtain ⟨⟨product', metrics'⟩, hcolumns'⟩ := hsingle.mpr ⟨_, hcolumns⟩
    have hfound := columnsOf_found hcolumns
    have hfound' := columnsOf_found hcolumns'
    have hproduct : order[product']? = some product := by
      rcases moved h hfound.product hfound'.product with hnone | ⟨i, i', hi, hi', hmoved⟩
      · cases hnone.1
      · cases hi
        cases hi'
        exact hmoved
    have hmetrics : ∀ name, Dict.get? metrics name = none ∧ Dict.get? metrics' name = none ∨
        ∃ i i', Dict.get? metrics name = some i ∧ Dict.get? metrics' name = some i' ∧
          order[i']? = some i := by
      intro name
      by_cases hname : name ∈ expectedMetrics metricName
      · exact moved h (hfound.metrics name hname) (hfound'.metrics name hname)
      · exact .inl ⟨hfound.others name hname, hfound'.others name hname⟩
    have hcell : ∀ (row : List Value) (i i' : Nat), row.length = result.columns.length →
        order[i']? = some i → (arrange order row)[i']? = row[i]? := by
      intro row i i' hlength hmoved
      rw [getElem?_arrange (hlength ▸ h), hmoved]
      rfl
    refine ⟨(product', metrics'), hcolumns', ?_, ?_, ?_⟩
    · intro row hlength
      rw [List.getD_eq_getElem?_getD, List.getD_eq_getElem?_getD, hcell row _ _ hlength hproduct]
    · intro row hlength name
      unfold metricCell
      rcases hmetrics name with ⟨hnone, hnone'⟩ | ⟨i, i', hi, hi', hmoved⟩
      · rw [hnone, hnone']
        rfl
      · rw [hi, hi', Option.bind_some, Option.bind_some, hcell row _ _ hlength hmoved]
    · intro name
      rcases hmetrics name with ⟨hnone, hnone'⟩ | ⟨i, i', hi, hi', -⟩
      · exact iff_of_false (not_not_intro hnone) (not_not_intro hnone')
      · exact iff_of_true (hi ▸ Option.some_ne_none i) (hi' ▸ Option.some_ne_none i')
  · exact hsingle.mp

/-- A row says the same with its cells in another order. -/
lemma readRowOf_arranged {order : List Nat} {columns' : Nat × Dict String Nat}
    (h : order.Perm (List.range result.columns.length))
    (hcells : SameCells order result.columns.length columns columns') (row : List Value) :
    readRowOf decimal (result.arranged order) columns'
        (if row.length = result.columns.length then arrange order row else row) =
      readRowOf decimal result columns row := by
  have hwidth : (result.arranged order).columns.length = result.columns.length :=
    (arrange_perm h).length_eq
  unfold readRowOf readRow
  rw [hwidth]
  by_cases hlength : row.length = result.columns.length
  · have hrow : (arrange order row).length = result.columns.length :=
      (arrange_perm (hlength ▸ h)).length_eq.trans hlength
    have hperiod : ∀ name, readPeriod decimal result.taskId name columns'.2 (arrange order row) =
        readPeriod decimal result.taskId name columns.2 row := by
      intro name
      unfold readPeriod salesCostOf
      rw [← hcells.metrics row hlength, ← hcells.metrics row hlength, ← hcells.metrics row hlength]
      simp only [hcells.asked]
    rw [if_pos hlength, ← hcells.product row hlength]
    simp only [hrow, hlength, TaskResult.arranged, hperiod]
  · rw [if_neg hlength]
    unfold require
    rw [if_neg hlength, if_neg hlength]
    rfl

lemma sameProducts_arranged {order : List Nat}
    (h : order.Perm (List.range result.columns.length)) :
    Alike SameProducts (productValues casefold decimal result metricName)
      (productValues casefold decimal (result.arranged order) metricName) := by
  rw [productValues_eq, productValues_eq]
  apply (columnsOf_arranged h).bind
  intro columns columns' hcells
  have hrows : (result.arranged order).rows.mapM
      (readRowOf decimal (result.arranged order) columns') =
        result.rows.mapM (readRowOf decimal result columns) := by
    unfold TaskResult.arranged
    rw [List.mapM_map]
    exact congrArg (result.rows.mapM ·) (funext (readRowOf_arranged h hcells))
  rw [hrows]
  apply (Alike.refl _).map
  rintro rows _ rfl
  exact sameProducts_tallyRows (.refl rows)

lemma sameProducts_rows (h : result.rows.Perm rows) :
    Alike SameProducts (productValues casefold decimal result metricName)
      (productValues casefold decimal { result with rows } metricName) := by
  rw [productValues_eq, productValues_eq]
  apply (Alike.refl _).bind
  rintro columns _ rfl
  apply (Alike.mapM_perm _ h).map
  intro read read' hread
  exact sameProducts_tallyRows hread

/-- The rows that a row is split into have its part in the sums. -/
lemma tallyRows_split {before after : List (String × ProductPeriod)} {name : String}
    {whole : ProductPeriod} {periods : List ProductPeriod} (h : SumsTo periods whole)
    (hall : ∀ q ∈ periods, q.salesCost.isSome = whole.salesCost.isSome) :
    SameProducts (tallyRows (before ++ (name, whole) :: after))
      (tallyRows (before ++ (periods.map (name, ·) ++ after))) := by
  have hnodup : ∀ rows, ((tallyRows rows).map Prod.fst).Nodup := fun rows =>
    Dict.nodup_foldl_tally List.nodup_nil
  refine ⟨Dict.perm_of_get?_eq (hnodup _) (hnodup _) ?_, hnodup _⟩
  intro k
  unfold tallyRows
  rw [Dict.get?_foldl_tally, Dict.get?_foldl_tally]
  simp only [List.filter_append, List.map_append, List.foldl_append]
  by_cases hk : name = k
  · have hparts : ((periods.map (name, ·)).filter fun e => e.1 = k) = periods.map (name, ·) := by
      apply List.filter_eq_self.mpr
      intro e he
      obtain ⟨q, -, rfl⟩ := List.mem_map.mp he
      exact decide_eq_true hk
    have hvalues : (periods.map (name, ·)).map Prod.snd = periods := by
      rw [List.map_map]
      exact List.map_id periods
    rw [List.filter_cons_of_pos (by simpa using hk), hparts, hvalues, foldl_addTo_of_sumsTo h hall]
    rfl
  · have hparts : ((periods.map (name, ·)).filter fun e => e.1 = k) = [] := by
      apply List.filter_eq_nil_iff.mpr
      intro e he
      obtain ⟨q, -, rfl⟩ := List.mem_map.mp he
      simpa using hk
    rw [List.filter_cons_of_neg (by simpa using hk), hparts]
    rfl

lemma sameProducts_split {before after parts : List (List Value)} {rowCount : Nat}
    (hrows : result.rows = before ++ row :: after)
    (hsplit : ∀ columns, columnsOf casefold result metricName = .ok columns →
      Splits decimal result columns row parts) :
    Alike SameProducts (productValues casefold decimal result metricName)
      (productValues casefold decimal
        { result with rows := before ++ (parts ++ after), rowCount } metricName) := by
  rw [productValues_eq, productValues_eq]
  change Alike SameProducts _ (columnsOf casefold result metricName >>= fun columns =>
    tallyRows <$> (before ++ (parts ++ after)).mapM (readRowOf decimal result columns))
  cases hcolumns : columnsOf casefold result metricName with
  | error e => exact .error e e
  | ok columns =>
    obtain ⟨name, whole, periods, hrow, hparts, hsums⟩ := hsplit columns hcolumns
    have hread : parts.mapM (readRowOf decimal result columns) =
        .ok (periods.map (name, ·)) := by
      apply mapM_of_forall₂
      exact List.forall₂_map_right_iff.mpr hparts
    have hcost : ∀ q ∈ periods, q.salesCost.isSome = whole.salesCost.isSome := by
      intro q hq
      obtain ⟨part, -, hpart⟩ := exists_of_forall₂ hparts hq
      rw [readRowOf_salesCost hpart, readRowOf_salesCost hrow]
    change Alike SameProducts (tallyRows <$> result.rows.mapM (readRowOf decimal result columns))
      (tallyRows <$> (before ++ (parts ++ after)).mapM (readRowOf decimal result columns))
    rw [hrows, List.mapM_append, List.mapM_append, List.mapM_append, List.mapM_cons, hrow, hread]
    cases before.mapM (readRowOf decimal result columns) with
    | error e => exact .error e e
    | ok before =>
      cases after.mapM (readRowOf decimal result columns) with
      | error e => exact .error e e
      | ok after => exact .ok (tallyRows_split hsums hcost)

end Reading

section Overall

variable {rows : List (List Value)}

lemma overallValue_ok_iff {value : ℚ} : overallValue decimal result = .ok value ↔
    ∃ column cell, result.columns = [column] ∧ result.rows = [[cell]] ∧
      decimalOf decimal result.taskId cell = .ok value := by
  unfold overallValue
  split
  · next column cell hcolumns hrows =>
    constructor
    · intro h
      exact ⟨column, cell, hcolumns, hrows, h⟩
    · rintro ⟨_, cell', -, hrows', h⟩
      rw [hrows] at hrows'
      cases hrows'
      exact h
  · next hshape =>
    constructor
    · intro h
      cases h
    · rintro ⟨column, cell, hcolumns, hrows, -⟩
      exact absurd hrows (hshape column cell hcolumns)

lemma overallValue_rows (h : result.rows.Perm rows) :
    Alike Eq (overallValue decimal result) (overallValue decimal { result with rows }) := by
  have hsingle : ∀ cell, result.rows = [[cell]] ↔ rows = [[cell]] := by
    intro cell
    constructor
    · intro hrows
      exact (List.perm_singleton.mp (hrows ▸ h).symm)
    · intro hrows
      exact (List.perm_singleton.mp (hrows ▸ h))
  apply Alike.of_ok_iff
  intro value
  rw [overallValue_ok_iff, overallValue_ok_iff]
  simp only [hsingle]

lemma overallValue_arranged {order : List Nat}
    (h : order.Perm (List.range result.columns.length)) :
    Alike Eq (overallValue decimal result) (overallValue decimal (result.arranged order)) := by
  by_cases hone : result.columns.length = 1
  · have horder : order = [0] := by
      rw [hone] at h
      exact List.perm_singleton.mp h
    have hcells : ∀ {α : Type} (cells : List α), cells.length = 1 → arrange [0] cells = cells := by
      intro α cells hlength
      obtain ⟨cell, rfl⟩ := List.length_eq_one_iff.mp hlength
      rfl
    have hrows : (result.rows.map fun row =>
        if row.length = result.columns.length then arrange order row else row) = result.rows := by
      apply List.map_id''
      intro row
      split
      · next hrow => rw [horder, hcells row (hrow.trans hone)]
      · rfl
    have hsame : result.arranged order = result := by
      unfold TaskResult.arranged
      rw [hrows, horder, hcells _ hone]
    rw [hsame]
    exact .refl _
  · have hlength : (result.arranged order).columns.length = result.columns.length :=
      (arrange_perm h).length_eq
    have hnone : ∀ r : TaskResult, r.columns.length ≠ 1 → ∀ value,
        overallValue decimal r ≠ .ok value := by
      intro r hr value hok
      obtain ⟨column, -, hcolumns, -⟩ := overallValue_ok_iff.mp hok
      rw [hcolumns] at hr
      exact hr rfl
    apply Alike.of_ok_iff
    intro value
    exact iff_of_false (hnone _ hone value) (hnone _ (hlength ▸ hone) value)

end Overall

/-- The attribution does not tell a task from another presentation of it. -/
lemma TaskResult.Rearranged.sameTask
    (h : result.Rearranged casefold decimal metricName result') :
    result.SameTask casefold decimal metricName result' := by
  cases h with
  | rows h => exact ⟨rfl, rfl, rfl, fun _ => overallValue_rows h, sameProducts_rows h⟩
  | columns h => exact ⟨rfl, rfl, rfl, fun _ => overallValue_arranged h, sameProducts_arranged h⟩
  | split htask hrows hsplit =>
    exact ⟨rfl, rfl, rfl, fun hnot => absurd htask hnot, sameProducts_split hrows hsplit⟩

section Calculation

variable {request : AnalysisRequest}
  {comparison comparison' current current' : Dict String ProductPeriod}
  {results results' before after : List TaskResult}

lemma reconcilePeriod_same (h : SameProducts comparison comparison') (overall : ℚ)
    (period : String) : Alike Eq (reconcilePeriod comparison overall metricName period)
      (reconcilePeriod comparison' overall metricName period) := by
  have hsum : ∀ f : String × ProductPeriod → ℚ,
      (comparison.map f).sum = (comparison'.map f).sum := fun f => (h.perm.map f).sum_eq
  unfold reconcilePeriod
  simp only [hsum]
  exact .refl _

lemma productNames_same (h : SameProducts comparison comparison')
    (h' : SameProducts current current') :
    productNames comparison current = productNames comparison' current' := by
  have hkeys := ((h.perm.map Prod.fst).append (h'.perm.map Prod.fst)).dedup
  unfold productNames
  apply List.Perm.eq_of_pairwise' (List.pairwise_insertionSort _ _)
    (List.pairwise_insertionSort _ _)
  exact ((List.perm_insertionSort _ _).trans hkeys).trans (List.perm_insertionSort _ _).symm

lemma taskResult_cons (first : TaskResult) (rest : List TaskResult) (taskId : String) :
    taskResult (first :: rest) taskId =
      if first.taskId = taskId then .ok first else taskResult rest taskId := by
  unfold taskResult
  by_cases h : first.taskId = taskId
  · simp [h]
  · simp [h]

lemma TaskResult.SameTask.refl (r : TaskResult) :
    r.SameTask casefold decimal metricName r := by
  have hrows : Alike SameProducts (productValues casefold decimal r metricName)
      (productValues casefold decimal { r with rows := r.rows } metricName) :=
    sameProducts_rows (.refl r.rows)
  exact ⟨rfl, rfl, rfl, fun _ => .refl _, hrows⟩

/-- The result of a task, found in results that the attribution does not tell apart. -/
lemma taskResult_same (h : result.SameTask casefold decimal metricName result') (taskId : String) :
    Alike (fun r r' => r.taskId = taskId ∧ r.SameTask casefold decimal metricName r')
      (taskResult (before ++ result :: after) taskId)
      (taskResult (before ++ result' :: after) taskId) := by
  have hfound : ∀ rest : List TaskResult,
      Alike (fun r r' => r.taskId = taskId ∧ r.SameTask casefold decimal metricName r')
        (taskResult rest taskId) (taskResult rest taskId) := by
    intro rest
    induction rest with
    | nil => exact .error _ _
    | cons first rest ih =>
      rw [taskResult_cons]
      by_cases hid : first.taskId = taskId
      · rw [if_pos hid]
        exact .ok ⟨hid, .refl first⟩
      · rw [if_neg hid]
        exact ih
  induction before with
  | nil =>
    rw [List.nil_append, List.nil_append, taskResult_cons, taskResult_cons, ← h.taskId]
    by_cases hid : result.taskId = taskId
    · rw [if_pos hid, if_pos hid]
      exact .ok ⟨hid, h⟩
    · rw [if_neg hid, if_neg hid]
      exact hfound after
  | cons first before ih =>
    rw [List.cons_append, List.cons_append, taskResult_cons, taskResult_cons]
    by_cases hid : first.taskId = taskId
    · rw [if_pos hid, if_pos hid]
      exact .ok ⟨hid, .refl first⟩
    · rw [if_neg hid, if_neg hid]
      exact ih

/-- One task result in another presentation. -/
lemma calculate_task (h : result.SameTask casefold decimal request.metricName result') :
    Alike Eq
      (calculateProductAttribution casefold decimal request (before ++ result :: after))
      (calculateProductAttribution casefold decimal request (before ++ result' :: after)) := by
  have hids : (before ++ result :: after).map TaskResult.taskId =
      (before ++ result' :: after).map TaskResult.taskId := by
    rw [List.map_append, List.map_append, List.map_cons, List.map_cons, h.taskId]
  have hoverall : ∀ taskId ∉ productTasks,
      Alike Eq (taskResult (before ++ result :: after) taskId >>= overallValue decimal)
        (taskResult (before ++ result' :: after) taskId >>= overallValue decimal) := by
    intro taskId htask
    apply (taskResult_same h taskId).bind
    rintro r r' ⟨rfl, hsame⟩
    exact hsame.overall htask
  have hproducts : ∀ taskId, Alike SameProducts
      (taskResult (before ++ result :: after) taskId >>= fun r =>
        productValues casefold decimal r request.metricName)
      (taskResult (before ++ result' :: after) taskId >>= fun r =>
        productValues casefold decimal r request.metricName) := by
    intro taskId
    apply (taskResult_same h taskId).bind
    rintro r r' ⟨-, hsame⟩
    exact hsame.products
  unfold calculateProductAttribution
  rw [hids]
  apply (Alike.refl _).bind
  rintro _ _ rfl
  apply (Alike.refl _).bind
  rintro _ _ rfl
  apply Alike.bind
  · apply Alike.forM
    intro taskId _
    apply (taskResult_same h taskId).bind
    rintro r r' ⟨-, hsame⟩
    rw [hsame.status, hsame.truncated]
    exact .refl _
  rintro _ _ rfl
  apply (taskResult_same h _).bind
  rintro overall overall' ⟨hid, hsame⟩
  apply (hsame.overall (hid ▸ by decide)).bind
  rintro comparisonValue _ rfl
  apply (taskResult_same h _).bind
  rintro overall overall' ⟨hid, hsame⟩
  apply (hsame.overall (hid ▸ by decide)).bind
  rintro currentValue _ rfl
  apply (taskResult_same h _).bind
  rintro products products' ⟨-, hsame⟩
  apply hsame.products.bind
  intro comparison comparison' hcomparison
  apply (taskResult_same h _).bind
  rintro products products' ⟨-, hsame⟩
  apply hsame.products.bind
  intro current current' hcurrent
  apply (reconcilePeriod_same hcomparison _ _).bind
  rintro _ _ rfl
  apply (reconcilePeriod_same hcurrent _ _).bind
  rintro _ _ rfl
  rw [productNames_same hcomparison hcurrent, funext (Dict.get?_eq_of_perm hcomparison.nodup
    hcomparison.perm), funext (Dict.get?_eq_of_perm hcurrent.nodup hcurrent.perm)]
  exact .refl _

/-- The task results in another order. -/
lemma calculate_perm (h : results.Perm results') :
    Alike Eq (calculateProductAttribution casefold decimal request results)
      (calculateProductAttribution casefold decimal request results') := by
  have hids := h.map TaskResult.taskId
  unfold calculateProductAttribution
  apply (Alike.refl _).bind
  rintro _ _ rfl
  by_cases hnodup : (results.map TaskResult.taskId).Nodup
  · have hnodup' := hids.nodup_iff.mp hnodup
    have hfind : taskResult results = taskResult results' := by
      funext taskId
      have hsame : results.find? (·.taskId = taskId) = results'.find? (·.taskId = taskId) := by
        change (⟨results, hnodup⟩ : Table TaskResult.taskId).find? taskId =
          (⟨results', hnodup'⟩ : Table TaskResult.taskId).find? taskId
        ext r
        rw [Table.find?_eq_some_iff, Table.find?_eq_some_iff, ← Table.mem_rows, ← Table.mem_rows,
          h.mem_iff]
      unfold taskResult
      rw [hsame]
    have hcomplete : ((results.map TaskResult.taskId).Nodup ∧
        ∀ taskId ∈ expectedTasks, taskId ∈ results.map TaskResult.taskId) ↔
          (results'.map TaskResult.taskId).Nodup ∧
            ∀ taskId ∈ expectedTasks, taskId ∈ results'.map TaskResult.taskId := by
      simp only [hids.nodup_iff, hids.mem_iff]
    rw [hfind]
    apply (Alike.require hcomplete).bind
    rintro _ _ rfl
    exact .refl _
  · have hnodup' : ¬(results'.map TaskResult.taskId).Nodup := fun h' => hnodup (hids.nodup_iff.mpr h')
    unfold require
    rw [if_neg fun hboth => hnodup hboth.1, if_neg fun hboth => hnodup' hboth.1]
    exact .error _ _

/-- Another order of the task results, of the rows and of the columns of a task, or one row of a
product instead of several ones that add up to it, changes neither the attribution nor whether it
fails. -/
theorem attribution_presented
    (h : Relation.EqvGen (Presented casefold decimal request.metricName) results results') :
    (calculateProductAttribution casefold decimal request results).toOption =
      (calculateProductAttribution casefold decimal request results').toOption := by
  induction h with
  | rel results results' h =>
    cases h with
    | tasks h => exact (calculate_perm h).toOption_eq
    | task h => exact (calculate_task h.sameTask).toOption_eq
  | refl results => rfl
  | symm results results' _ ih => exact ih.symm
  | trans results results' results'' _ _ ih ih' => exact ih.trans ih'

def soldRequest : AnalysisRequest :=
  ⟨netSalesMetric, ⟨"2024年2月", .month⟩, ⟨"2024年1月", .month⟩⟩

/-- The tasks with the new quantity of the first product in two rows. -/
def soldTasksSplit : List TaskResult :=
  soldTasks.take 3 ++ [
    { taskId := "current-products", status := .completed, columns := ["产品", "净销售额", "销量"],
      rows := [[.text "a", .number 5, .number 1], [.text "a ", .number 7, .number 2],
        [.text "b", .number 3, .number 1]] }]

theorem attribution_presented_sold :
    (calculateProductAttribution id (fun _ => none) soldRequest soldTasks).toOption =
      (calculateProductAttribution id (fun _ => none) soldRequest
        soldTasksSplit.reverse).toOption := by
  let result : TaskResult :=
    { taskId := "current-products", status := .completed, columns := ["产品", "净销售额", "销量"],
      rows := [[.text " a", .number 12, .number 3], [.text "b", .number 3, .number 1]] }
  have hcolumns : columnsOf id result netSalesMetric =
      .ok (0, [(netSalesMetric, 1), (quantityMetric, 2)]) := by decide +kernel
  have hsplit : ∀ columns, columnsOf id result netSalesMetric = .ok columns →
      Splits (fun _ => none) result columns [.text " a", .number 12, .number 3]
        [[.text "a", .number 5, .number 1], [.text "a ", .number 7, .number 2]] := by
    intro columns h
    cases hcolumns.symm.trans h
    refine ⟨"a", ⟨12, 3, none, by decide⟩, [⟨5, 1, none, by decide⟩, ⟨7, 2, none, by decide⟩],
      by decide +kernel, .cons (by decide +kernel) (.cons (by decide +kernel) .nil), ?_⟩
    exact ⟨by norm_num, by norm_num, by norm_num⟩
  have hrearranged : result.Rearranged id (fun _ => none) netSalesMetric
      { result with rows := [] ++ ([[.text "a", .number 5, .number 1],
        [.text "a ", .number 7, .number 2]] ++ [[.text "b", .number 3, .number 1]]) } :=
    .split (by decide) rfl hsplit
  have hpresented : Presented id (fun _ => none) netSalesMetric (soldTasks.take 3 ++ [result])
      soldTasksSplit := .task hrearranged
  exact attribution_presented (.trans _ _ _ (.rel _ _ hpresented)
    (.rel _ _ (.tasks (List.reverse_perm _).symm)))

end Calculation

end ChatBI.Analysis
