import ChatBI.Analysis.Attribution
import Mathlib.Data.List.Induction

/-!
# Finding the columns of a product task

The loop over the columns finds the product column and those of the metrics when none of them is
there twice, wherever they stand.
-/

namespace ChatBI.Analysis

open ChatBI.Lib

section

variable (casefold : String → String)

def isProduct (column : String) : Bool :=
  normalizeColumn casefold column ∈ productColumns.map (normalizeColumn casefold)

def isMetric (name column : String) : Bool :=
  normalizeColumn casefold column ∈
    ((Dict.get? moneyColumns name).getD []).map (normalizeColumn casefold)

/-- The product column and those of the metrics, as `_product_values` finds them. -/
def columnsOf (result : TaskResult) (metricName : String) :
    Except AnalysisError (Nat × Dict String Nat) := do
  let taskId := result.taskId
  let columns ← result.columns.zipIdx.foldlM (matchColumn casefold taskId metricName) {}
  match columns.product with
  | some product =>
    if (expectedMetrics metricName).all fun name => Dict.get? columns.metrics name ≠ none then
      .ok (product, columns.metrics)
    else attributionError s!"产品 Task {taskId} 缺少产品或归因指标列" "PRODUCT_RESULT_COLUMNS_INVALID"
  | none =>
    attributionError s!"产品 Task {taskId} 缺少产品或归因指标列" "PRODUCT_RESULT_COLUMNS_INVALID"

end

/-- The cells in another order, given by their old positions. -/
def arrange {α : Type} (order : List Nat) (cells : List α) : List α :=
  order.filterMap (cells[·]?)

/-- The columns and the cells of each row in another order. A row of another width stays as
it is. -/
def TaskResult.arranged (order : List Nat) (result : TaskResult) : TaskResult :=
  { result with
    columns := arrange order result.columns
    rows := result.rows.map fun row =>
      if row.length = result.columns.length then arrange order row else row }

/-- The positions of the columns that satisfy a predicate. -/
def positions (p : String → Bool) (columns : List (String × Nat)) : List Nat :=
  (columns.filter fun column => p column.1).map Prod.snd

/-- No column that is looked for is there twice. -/
structure Unambiguous (casefold : String → String) (metricName : String)
    (columns : List (String × Nat)) : Prop where
  product : (positions (isProduct casefold) columns).length ≤ 1
  metrics : ∀ name ∈ expectedMetrics metricName,
    (positions (isMetric casefold name) columns).length ≤ 1

/-- The loop has found the columns so far. -/
structure Found (casefold : String → String) (metricName : String)
    (columns : List (String × Nat)) (found : Columns) : Prop where
  product : found.product.toList = positions (isProduct casefold) columns
  metrics : ∀ name ∈ expectedMetrics metricName,
    (Dict.get? found.metrics name).toList = positions (isMetric casefold name) columns
  others : ∀ name ∉ expectedMetrics metricName, Dict.get? found.metrics name = none

/-- A column can be taken: the ones it stands for are not there yet. -/
structure Free (casefold : String → String) (metricName column : String) (found : Columns) :
    Prop where
  product : isProduct casefold column → found.product = none
  metrics : ∀ name ∈ expectedMetrics metricName,
    isMetric casefold name column → Dict.get? found.metrics name = none

variable {casefold : String → String} {taskId metricName column : String} {index : Nat}
  {found found' : Columns} {columns : List (String × Nat)}

lemma nodup_expectedMetrics : (expectedMetrics metricName).Nodup := by
  unfold expectedMetrics
  split <;> decide

lemma positions_concat (p : String → Bool) (columns : List (String × Nat))
    (column : String × Nat) :
    positions p (columns ++ [column]) =
      positions p columns ++ if p column.1 then [column.2] else [] := by
  unfold positions
  rw [List.filter_append, List.map_append]
  by_cases h : p column.1
  · rw [List.filter_cons_of_pos (by simpa using h), if_pos h]
    rfl
  · rw [List.filter_cons_of_neg (by simpa using h), if_neg h]
    rfl

lemma length_concat_le (o : Option Nat) (b : Bool) (index : Nat) :
    (o.toList ++ if b then [index] else []).length ≤ 1 ↔ (b → o = none) := by
  cases o <;> cases b <;> simp

section Step

/-- One metric of the inner loop. -/
lemma matchMetric_free (taskId : String) (index : Nat) {name : String}
    (h : isMetric casefold name column → Dict.get? found.metrics name = none) :
    ∃ found', matchMetric casefold taskId (normalizeColumn casefold column) index found name =
        .ok found' ∧ found'.product = found.product ∧
      ∀ name', Dict.get? found'.metrics name' =
        if name' = name ∧ isMetric casefold name column then some index
        else Dict.get? found.metrics name' := by
  unfold matchMetric
  by_cases hmetric : isMetric casefold name column
  · have hin := of_decide_eq_true hmetric
    simp only [if_pos hin, h hmetric, ne_eq, not_true_eq_false, if_false]
    refine ⟨_, rfl, rfl, ?_⟩
    intro name'
    by_cases hname : name' = name
    · rw [if_pos ⟨hname, hmetric⟩, hname, Dict.get?_set_self]
    · rw [if_neg fun hboth => hname hboth.1, Dict.get?_set_of_ne (Ne.symm hname)]
  · have hnot : normalizeColumn casefold column ∉
        ((Dict.get? moneyColumns name).getD []).map (normalizeColumn casefold) :=
      fun hin => hmetric (decide_eq_true hin)
    simp only [if_neg hnot]
    refine ⟨_, rfl, rfl, ?_⟩
    intro name'
    rw [if_neg fun hboth => hmetric hboth.2]

/-- A metric whose column is there already. -/
lemma matchMetric_taken {name : String} (h : isMetric casefold name column)
    (htaken : Dict.get? found.metrics name ≠ none) :
    matchMetric casefold taskId (normalizeColumn casefold column) index found name ≠ .ok found' := by
  unfold matchMetric
  have hin := of_decide_eq_true h
  simp only [if_pos hin, if_pos htaken, attributionError]
  intro hok
  cases hok

lemma matchMetrics_free (taskId : String) (index : Nat) {names : List String}
    (hnames : names.Nodup)
    (h : ∀ name ∈ names, isMetric casefold name column → Dict.get? found.metrics name = none) :
    ∃ found', names.foldlM (matchMetric casefold taskId (normalizeColumn casefold column) index)
        found = .ok found' ∧ found'.product = found.product ∧
      ∀ name, Dict.get? found'.metrics name =
        if name ∈ names ∧ isMetric casefold name column then some index
        else Dict.get? found.metrics name := by
  induction names generalizing found with
  | nil => exact ⟨found, rfl, rfl, fun name => by simp⟩
  | cons name names ih =>
    obtain ⟨hnot, hnodup⟩ := List.nodup_cons.mp hnames
    obtain ⟨found₁, hfirst, hproduct₁, hmetrics₁⟩ :=
      matchMetric_free taskId index (h name List.mem_cons_self)
    have hrest : ∀ name' ∈ names, isMetric casefold name' column →
        Dict.get? found₁.metrics name' = none := by
      intro name' hname' hmetric
      have hne : name' ≠ name := fun heq => hnot (heq ▸ hname')
      rw [hmetrics₁, if_neg fun hboth => hne hboth.1]
      exact h name' (List.mem_cons_of_mem _ hname') hmetric
    obtain ⟨found₂, hsecond, hproduct₂, hmetrics₂⟩ := ih hnodup hrest
    refine ⟨found₂, ?_, hproduct₂.trans hproduct₁, ?_⟩
    · rw [List.foldlM_cons, hfirst]
      exact hsecond
    · intro name'
      rw [hmetrics₂, hmetrics₁]
      by_cases hname : name' = name
      · subst hname
        simp [hnot]
      · simp [hname]

lemma matchMetrics_taken {names : List String} {name : String} (hname : name ∈ names)
    (h : isMetric casefold name column) (htaken : Dict.get? found.metrics name ≠ none) :
    names.foldlM (matchMetric casefold taskId (normalizeColumn casefold column) index) found ≠
      .ok found' := by
  induction names generalizing found with
  | nil => cases hname
  | cons name' names ih =>
    intro hok
    rw [List.foldlM_cons] at hok
    obtain ⟨found₁, hfirst, hrest⟩ := except_bind_ok.mp hok
    by_cases hsame : name = name'
    · subst hsame
      exact matchMetric_taken h htaken hfirst
    · have hin : name ∈ names := (List.mem_cons.mp hname).resolve_left hsame
      have hkept : Dict.get? found₁.metrics name ≠ none := by
        have hfree : isMetric casefold name' column → Dict.get? found.metrics name' = none := by
          intro hmetric
          by_contra hsome
          exact matchMetric_taken hmetric hsome hfirst
        obtain ⟨found₂, hsecond, -, hmetrics⟩ :=
          matchMetric_free taskId index hfree
        rw [hfirst] at hsecond
        cases hsecond
        rw [hmetrics, if_neg fun hboth => hsame hboth.1]
        exact htaken
      exact ih hin hkept hrest

/-- A free column is taken. -/
lemma matchColumn_free (taskId : String) (index : Nat)
    (h : Found casefold metricName columns found)
    (hfree : Free casefold metricName column found) :
    ∃ found', matchColumn casefold taskId metricName found (column, index) = .ok found' ∧
      Found casefold metricName (columns ++ [(column, index)]) found' := by
  have hproduct : ∃ found₁, matchProduct casefold taskId (normalizeColumn casefold column) index
      found = .ok found₁ ∧ found₁.metrics = found.metrics ∧
        found₁.product = if isProduct casefold column then some index else found.product := by
    unfold matchProduct
    by_cases hp : isProduct casefold column
    · have hin := of_decide_eq_true hp
      simp only [if_pos hin, hfree.product hp, ne_eq, not_true_eq_false, if_false, if_pos hp]
      exact ⟨_, rfl, rfl, rfl⟩
    · have hnot : normalizeColumn casefold column ∉
          productColumns.map (normalizeColumn casefold) := fun hin => hp (decide_eq_true hin)
      simp only [if_neg hnot, if_neg hp]
      exact ⟨_, rfl, rfl, rfl⟩
  obtain ⟨found₁, hfirst, hkept, hproduct₁⟩ := hproduct
  obtain ⟨found₂, hsecond, hproduct₂, hmetrics⟩ :=
    matchMetrics_free taskId index
      nodup_expectedMetrics (fun name hname hm => hkept ▸ hfree.metrics name hname hm)
  refine ⟨found₂, ?_, ?_, ?_, ?_⟩
  · unfold matchColumn
    simp only [hfirst]
    exact hsecond
  · rw [hproduct₂, hproduct₁, positions_concat, ← h.product]
    by_cases hp : isProduct casefold column
    · simp [hp, hfree.product hp]
    · simp [hp]
  · intro name hname
    rw [hmetrics, hkept, positions_concat, ← h.metrics name hname]
    by_cases hm : isMetric casefold name column
    · simp [hm, hname, hfree.metrics name hname hm]
    · simp [hm]
  · intro name hname
    rw [hmetrics, hkept, if_neg fun hboth => hname hboth.1]
    exact h.others name hname

/-- Only a free column is taken. -/
lemma free_of_matchColumn
    (h : matchColumn casefold taskId metricName found (column, index) = .ok found') :
    Free casefold metricName column found := by
  unfold matchColumn at h
  obtain ⟨found₁, hfirst, hsecond⟩ := except_bind_ok.mp h
  have hproduct : (isProduct casefold column → found.product = none) ∧
      found₁.metrics = found.metrics := by
    unfold matchProduct at hfirst
    split at hfirst
    · split at hfirst
      · cases hfirst
      · next hfree =>
        cases hfirst
        exact ⟨fun _ => not_not.mp hfree, rfl⟩
    · next hnot =>
      cases hfirst
      exact ⟨fun hp => absurd (of_decide_eq_true hp) hnot, rfl⟩
  refine ⟨hproduct.1, ?_⟩
  intro name hname hmetric
  by_contra hsome
  rw [← hproduct.2] at hsome
  exact matchMetrics_taken hname hmetric hsome hsecond

end Step

/-- A column behind unambiguous ones. -/
lemma unambiguous_concat_iff (h : Found casefold metricName columns found) :
    Unambiguous casefold metricName (columns ++ [(column, index)]) ↔
      Free casefold metricName column found := by
  constructor
  · rintro ⟨hproduct, hmetrics⟩
    constructor
    · rw [positions_concat, ← h.product] at hproduct
      exact (length_concat_le _ _ _).mp hproduct
    · intro name hname
      have hlength := hmetrics name hname
      rw [positions_concat, ← h.metrics name hname] at hlength
      exact (length_concat_le _ _ _).mp hlength
  · rintro ⟨hproduct, hmetrics⟩
    constructor
    · rw [positions_concat, ← h.product]
      exact (length_concat_le _ _ _).mpr hproduct
    · intro name hname
      rw [positions_concat, ← h.metrics name hname]
      exact (length_concat_le _ _ _).mpr (hmetrics name hname)

lemma Unambiguous.of_concat {rest : List (String × Nat)}
    (h : Unambiguous casefold metricName (columns ++ rest)) :
    Unambiguous casefold metricName columns := by
  have hle : ∀ p, (positions p columns).length ≤ (positions p (columns ++ rest)).length := by
    intro p
    unfold positions
    rw [List.filter_append, List.map_append, List.length_append]
    exact Nat.le_add_right _ _
  exact ⟨(hle _).trans h.product, fun name hname => (hle _).trans (h.metrics name hname)⟩

/-- The loop over the columns finds them exactly when they are unambiguous. -/
theorem matchColumns_spec (casefold : String → String) (taskId metricName : String)
    (columns : List (String × Nat)) :
    (∀ found, columns.foldlM (matchColumn casefold taskId metricName) {} = .ok found →
      Found casefold metricName columns found) ∧
    ((∃ found, columns.foldlM (matchColumn casefold taskId metricName) {} = .ok found) ↔
      Unambiguous casefold metricName columns) := by
  induction columns using List.reverseRec with
  | nil =>
    constructor
    · intro found hfound
      cases hfound
      exact ⟨rfl, fun _ _ => rfl, fun _ _ => rfl⟩
    · exact ⟨fun _ => ⟨Nat.zero_le 1, fun _ _ => Nat.zero_le 1⟩, fun _ => ⟨{}, rfl⟩⟩
  | append_singleton columns column ih =>
    obtain ⟨hfound, hiff⟩ := ih
    obtain ⟨column, index⟩ := column
    have hsplit : ∀ found', (columns ++ [(column, index)]).foldlM
        (matchColumn casefold taskId metricName) {} = .ok found' ↔
          ∃ found, columns.foldlM (matchColumn casefold taskId metricName) {} = .ok found ∧
            matchColumn casefold taskId metricName found (column, index) = .ok found' := by
      intro found'
      rw [List.foldlM_append, except_bind_ok]
      simp only [List.foldlM_cons, List.foldlM_nil, except_bind_ok, except_pure_ok,
        exists_eq_right]
    constructor
    · intro found' hok
      obtain ⟨found, hprefix, hlast⟩ := (hsplit found').mp hok
      have hbefore := hfound found hprefix
      obtain ⟨found₁, htaken, hafter⟩ :=
        matchColumn_free taskId index hbefore (free_of_matchColumn hlast)
      rw [hlast] at htaken
      cases htaken
      exact hafter
    · constructor
      · rintro ⟨found', hok⟩
        obtain ⟨found, hprefix, hlast⟩ := (hsplit found').mp hok
        exact (unambiguous_concat_iff (hfound found hprefix)).mpr (free_of_matchColumn hlast)
      · intro hunambiguous
        obtain ⟨found, hprefix⟩ := hiff.mpr hunambiguous.of_concat
        have hbefore := hfound found hprefix
        obtain ⟨found', htaken, -⟩ := matchColumn_free taskId index hbefore
          ((unambiguous_concat_iff hbefore).mp hunambiguous)
        exact ⟨found', (hsplit found').mpr ⟨found, hprefix, htaken⟩⟩

/-- Every column that is looked for is there once. -/
structure Single (casefold : String → String) (metricName : String)
    (columns : List (String × Nat)) : Prop where
  product : (positions (isProduct casefold) columns).length = 1
  metrics : ∀ name ∈ expectedMetrics metricName,
    (positions (isMetric casefold name) columns).length = 1

section Order

variable {result : TaskResult} {order : List Nat} {p : String → Bool}

/-- What has been found in a task whose columns are complete. -/
lemma columnsOf_found {product : Nat} {metrics : Dict String Nat}
    (h : columnsOf casefold result metricName = .ok (product, metrics)) :
    Found casefold metricName result.columns.zipIdx ⟨some product, metrics⟩ := by
  unfold columnsOf at h
  obtain ⟨found, hfound, h⟩ := except_bind_ok.mp h
  obtain ⟨product', metrics'⟩ := found
  have hspec := (matchColumns_spec casefold result.taskId metricName _).1 _ hfound
  cases product' with
  | none => cases h
  | some product' =>
    simp only at h
    split at h
    · cases h
      exact hspec
    · cases h

lemma columnsOf_ok_iff :
    (∃ columns, columnsOf casefold result metricName = .ok columns) ↔
      Single casefold metricName result.columns.zipIdx := by
  obtain ⟨hspec, hiff⟩ := matchColumns_spec casefold result.taskId metricName result.columns.zipIdx
  have hone : ∀ o : Option Nat, o.toList.length = 1 ↔ o ≠ none := by
    intro o
    cases o <;> simp
  constructor
  · rintro ⟨⟨product, metrics⟩, h⟩
    have hfound := columnsOf_found h
    unfold columnsOf at h
    obtain ⟨⟨product', metrics'⟩, -, h⟩ := except_bind_ok.mp h
    cases product' with
    | none => cases h
    | some product' =>
      simp only at h
      split at h
      · next hall =>
        cases h
        refine ⟨by rw [← hfound.product]; rfl, ?_⟩
        intro name hname
        rw [← hfound.metrics name hname, hone]
        exact of_decide_eq_true (List.all_eq_true.mp hall name hname)
      · cases h
  · rintro ⟨hproduct, hmetrics⟩
    obtain ⟨found, hfound⟩ := hiff.mpr
      ⟨Nat.le_of_eq hproduct, fun name hname => Nat.le_of_eq (hmetrics name hname)⟩
    obtain ⟨hp, hm, -⟩ := hspec found hfound
    rw [← hp, hone] at hproduct
    obtain ⟨product, hsome⟩ := Option.ne_none_iff_exists'.mp hproduct
    have hall : ((expectedMetrics metricName).all fun name =>
        Dict.get? found.metrics name ≠ none) = true := by
      apply List.all_eq_true.mpr
      intro name hname
      have hlength := hmetrics name hname
      rw [← hm name hname, hone] at hlength
      exact decide_eq_true hlength
    refine ⟨(product, found.metrics), ?_⟩
    unfold columnsOf
    refine except_bind_ok.mpr ⟨found, hfound, ?_⟩
    rw [hsome]
    exact if_pos hall

lemma mem_positions {columns : List String} {i : Nat} :
    i ∈ positions p columns.zipIdx ↔ ∃ column, columns[i]? = some column ∧ p column := by
  unfold positions
  simp only [List.mem_map, List.mem_filter, List.mem_zipIdx_iff_getElem?, Prod.exists]
  constructor
  · rintro ⟨column, j, ⟨hget, hp⟩, rfl⟩
    exact ⟨column, hget, hp⟩
  · rintro ⟨column, hget, hp⟩
    exact ⟨column, i, ⟨hget, hp⟩, rfl⟩

lemma length_positions (p : String → Bool) (columns : List String) :
    (positions p columns.zipIdx).length = columns.countP p := by
  unfold positions
  rw [List.length_map, ← List.countP_eq_length_filter]
  have hcount : columns.zipIdx.countP (fun column => p column.1) =
      (columns.zipIdx.map Prod.fst).countP p := by
    rw [List.countP_map]
    rfl
  rw [hcount, List.zipIdx_map_fst]

lemma getElem?_filterMap_of_isSome {α β : Type} {f : α → Option β} {xs : List α}
    (h : ∀ x ∈ xs, (f x).isSome) (j : Nat) : (xs.filterMap f)[j]? = xs[j]?.bind f := by
  induction xs generalizing j with
  | nil => rfl
  | cons x xs ih =>
    obtain ⟨b, hb⟩ := Option.isSome_iff_exists.mp (h x List.mem_cons_self)
    rw [List.filterMap_cons_some hb]
    cases j with
    | zero => simp [hb]
    | succ j => exact ih (fun y hy => h y (List.mem_cons_of_mem _ hy)) j

/-- The cell at a new position. -/
lemma getElem?_arrange {α : Type} {cells : List α} (h : order.Perm (List.range cells.length))
    (j : Nat) : (arrange order cells)[j]? = order[j]?.bind (cells[·]?) := by
  apply getElem?_filterMap_of_isSome
  intro i hi
  have hlt : i < cells.length := List.mem_range.mp (h.subset hi)
  rw [List.getElem?_eq_getElem hlt]
  rfl

lemma arrange_perm {α : Type} {cells : List α} (h : order.Perm (List.range cells.length)) :
    (arrange order cells).Perm cells := by
  have hrange : arrange (List.range cells.length) cells = cells := by
    apply List.ext_getElem?
    intro j
    rw [getElem?_arrange (.refl _)]
    by_cases hj : j < cells.length
    · rw [List.getElem?_range hj]
      rfl
    · have hle := Nat.le_of_not_lt hj
      rw [List.getElem?_eq_none (by simpa using hle), List.getElem?_eq_none hle]
      rfl
  have hperm : (arrange order cells).Perm (arrange (List.range cells.length) cells) :=
    h.filterMap _
  rwa [hrange] at hperm

/-- A column that is there once is found at its new position. -/
lemma moved {columns : List String} {o o' : Option Nat}
    (h : order.Perm (List.range columns.length)) (ho : o.toList = positions p columns.zipIdx)
    (ho' : o'.toList = positions p (arrange order columns).zipIdx) :
    o = none ∧ o' = none ∨ ∃ i i', o = some i ∧ o' = some i' ∧ order[i']? = some i := by
  have hlength : o.toList.length = o'.toList.length := by
    rw [ho, ho', length_positions, length_positions]
    exact ((arrange_perm h).countP_eq p).symm
  cases o with
  | none =>
    cases o' with
    | none => exact .inl ⟨rfl, rfl⟩
    | some i' => cases hlength
  | some i =>
    cases o' with
    | none => cases hlength
    | some i' =>
      refine .inr ⟨i, i', rfl, rfl, ?_⟩
      have hin : i' ∈ positions p (arrange order columns).zipIdx :=
        ho' ▸ List.mem_singleton_self i'
      obtain ⟨column, hget, hp⟩ := mem_positions.mp hin
      rw [getElem?_arrange h] at hget
      obtain ⟨k, hk, hcolumn⟩ := Option.bind_eq_some_iff.mp hget
      have hkin : k ∈ positions p columns.zipIdx := mem_positions.mpr ⟨column, hcolumn, hp⟩
      rw [← ho] at hkin
      rw [hk, List.mem_singleton.mp hkin]

/-- The columns of a task in another order are complete when they were before. -/
lemma single_arrange_iff {columns : List String} (h : order.Perm (List.range columns.length)) :
    Single casefold metricName (arrange order columns).zipIdx ↔
      Single casefold metricName columns.zipIdx := by
  have hlength : ∀ p, (positions p (arrange order columns).zipIdx).length =
      (positions p columns.zipIdx).length := by
    intro p
    rw [length_positions, length_positions]
    exact (arrange_perm h).countP_eq p
  constructor
  · rintro ⟨hproduct, hmetrics⟩
    exact ⟨hlength _ ▸ hproduct, fun name hname => hlength _ ▸ hmetrics name hname⟩
  · rintro ⟨hproduct, hmetrics⟩
    exact ⟨hlength _ ▸ hproduct, fun name hname => hlength _ ▸ hmetrics name hname⟩

end Order

end ChatBI.Analysis
