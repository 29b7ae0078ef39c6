import ChatBI.Lib.Raises
import ChatBI.Snapshot.Codec

/-!
# What a public snapshot holds

The whitelist of every position of a result, as the shapes of the results. `public_snapshot` returns
results of these shapes only.
-/

namespace ChatBI.Snapshot

open ChatBI.Lib

def metadataColumnShape : Shape := .object [
  ("index", .integer), ("name", .string), ("data_type", .string), ("role", .string),
  ("semantic_name", .optional .string), ("definition", .optional .string),
  ("unit", .optional (.object [("key", .string), ("label", .string)])), ("format", .string),
  ("certified", .boolean), ("reason_code", .optional .string)]

def scopeFilterShape : Shape :=
  .object [("label", .string), ("operator", .string), ("values", .list .string)]

def scopeGroupingShape : Shape :=
  .object [("semantic_name", .string), ("kind", .string), ("column_indices", .list .integer)]

def scopeTimeShape : Shape :=
  .object [("start", .string), ("end_exclusive", .string), ("time_basis", .string)]

def scopeShape : Shape := .object [
  ("status", .string), ("time", .optional scopeTimeShape), ("time_status", .string),
  ("filters", .list scopeFilterShape), ("grouping", .list scopeGroupingShape),
  ("warnings", .list .string)]

def timeAxisShape : Shape := .object [("granularity", .string), ("keys", .list .string)]

def metadataShape : Shape := .object [
  ("version", .integer), ("status", .string), ("columns", .list metadataColumnShape),
  ("scope", scopeShape), ("time_axis", .optional timeAxisShape)]

def factorShape : Shape :=
  .object [("name", .string), ("amount", .string), ("effect_on_metric", .string)]

def productShape : Shape := .object [
  ("product_name", .string), ("change", .string), ("effect_on_metric", .string),
  ("classification", .string), ("factors", .list factorShape)]

def attributionShape : Shape := .object [
  ("metric_name", .string), ("comparison_period", .string), ("current_period", .string),
  ("comparison_value", .string), ("current_value", .string), ("total_change", .string),
  ("direction", .string), ("products", .list productShape), ("omitted_product_count", .integer),
  ("reconciliation_passed", .boolean)]

def taskErrorShape : Shape := .object [("code", .string), ("message", .string)]

def taskShape : Shape := .object [
  ("task_id", .string), ("status", .string), ("columns", .list .string),
  ("rows", .list (.list .scalar)), ("row_count", .integer), ("truncated", .boolean),
  ("error", .optional taskErrorShape), ("result_metadata", metadataShape)]

def incompleteTaskShape : Shape := .object [("task_id", .string), ("reasons", .list .string)]

def reportShape : Shape := .object [
  ("title", .string), ("executive_summary", .string), ("key_findings", .list .string),
  ("trend_judgment", .string), ("root_causes", .list .string),
  ("action_suggestions", .list .string), ("evidence_task_ids", .list .string),
  ("incomplete_tasks", .list incompleteTaskShape), ("attribution", attributionShape)]

def queryShape : Shape := .object [
  ("request_id", .string), ("sql", .string), ("columns", .list .string),
  ("rows", .list (.list .scalar)), ("row_count", .integer), ("truncated", .boolean),
  ("result_metadata", metadataShape)]

def analysisShape : Shape := .object [
  ("request_id", .string), ("analysis_run_id", .string), ("mode", .string),
  ("report", reportShape), ("task_results", .list taskShape)]

/-- Every row of a table has a cell for each column. -/
def Tabular (table : Json) : Prop :=
  ∀ row ∈ (table.field "rows").items, row.items.length = (table.field "columns").items.length

/-- The result of a query holds nothing but its table. -/
structure QueryPublic (result : Json) : Prop where
  shape : queryShape.Admits result
  tabular : Tabular result
  rowCount : number (result.field "row_count") = (result.field "rows").items.length

/-- The table of a task, with the count of all of its rows. -/
structure TaskPublic (task : Json) : Prop where
  shape : taskShape.Admits task
  tabular : Tabular task
  rowCount : ((task.field "rows").items.length : Int) ≤ number (task.field "row_count")
  complete : isFalse (task.field "truncated") = true →
    number (task.field "row_count") = (task.field "rows").items.length

/-- The result of an analysis: its report speaks of its tasks only. -/
structure AnalysisPublic (result : Json) : Prop where
  shape : analysisShape.Admits result
  tasks : ∀ task ∈ (result.field "task_results").items, TaskPublic task
  evidence : ∀ id ∈ ((result.field "report").field "evidence_task_ids").items,
    ∃ task ∈ (result.field "task_results").items, task.field "task_id" = id ∧
      task.field "status" = .str "completed"
  incomplete : ∀ item ∈ ((result.field "report").field "incomplete_tasks").items,
    ∃ task ∈ (result.field "task_results").items, task.field "task_id" = item.field "task_id"

section Pieces

variable {v : Json} {required optional : List String} {fields : List (String × Shape)}

lemma hasExactFields_iff : hasExactFields v required optional = true ↔ v.isDict = true ∧
    (∀ k ∈ required, k ∈ v.members.map Prod.fst) ∧
      ∀ m ∈ v.members, m.1 ∈ required ++ optional := by
  simp only [hasExactFields, Bool.and_eq_true, List.all_eq_true, decide_eq_true_eq, and_assoc,
    List.forall_mem_map]

/-- The fields that are checked are all fields of the shape. -/
lemma admits_exact (hunique : v.UniqueKeys) (hexact : hasExactFields v required optional = true)
    (hsame : required ++ optional = fields.map Prod.fst)
    (h : ∀ f ∈ fields, (v.get? f.1).isSome → f.2.Admits (v.field f.1)) :
    (Shape.object fields).Admits v := by
  obtain ⟨hdict, -, hkeys⟩ := hasExactFields_iff.mp hexact
  exact Shape.admits_object hunique hdict (hsame ▸ hkeys) h

lemma admits_strings (h : isStringList v = true) : (Shape.list .string).Admits v := by
  obtain ⟨hlist, hitems⟩ := Bool.and_eq_true_iff.mp h
  exact Shape.admits_list hlist fun x hx => .string (List.all_eq_true.mp hitems x hx)

lemma admits_optionalString (h : optionalString v = true) : (Shape.optional .string).Admits v := by
  cases v with
  | null => exact .null
  | str s => exact .some (.string rfl)
  | _ => cases h

/-- A value that may be null, with a check of the other ones. -/
lemma admits_optional {shape : Shape} (h : v.isNull = true ∨ shape.Admits v) :
    (Shape.optional shape).Admits v := by
  rcases h with hnull | h
  · cases v with
    | null => exact .null
    | _ => cases hnull
  · exact .some h

lemma admits_rows {columns maximum : ℕ} (h : validRows v columns maximum = true) :
    (Shape.list (.list .scalar)).Admits v ∧ ∀ row ∈ v.items, row.items.length = columns := by
  simp only [validRows, Bool.and_eq_true, List.all_eq_true, decide_eq_true_eq] at h
  obtain ⟨⟨hlist, -⟩, hrows⟩ := h
  constructor
  · apply Shape.admits_list hlist
    intro row hrow
    obtain ⟨⟨hrowList, -⟩, hcells⟩ := hrows row hrow
    exact Shape.admits_list hrowList fun cell hcell => .scalar (hcells cell hcell)
  · exact fun row hrow => (hrows row hrow).1.2

lemma isString_of_isOneOf {names : List String} (h : isOneOf names v = true) : v.isString = true :=
  (Bool.and_eq_true_iff.mp h).1

lemma isString_of_nonempty (h : isNonemptyString v = true) : v.isString = true :=
  (Bool.and_eq_true_iff.mp h).1

end Pieces

section Metadata

variable {v : Json} {known : Bool}

lemma validateMetadataColumn_ok {index : ℕ} {name : String} (hunique : v.UniqueKeys)
    (h : validateMetadataColumn known v index name = .ok ()) : metadataColumnShape.Admits v := by
  simp only [validateMetadataColumn, checked_bind_ok, require_ok, Bool.and_eq_true, Bool.or_eq_true,
    and_assoc] at h
  obtain ⟨hexact, hunit, hindex, -, hname, -, htype, hrole, hsemantic, hdefinition, hformat,
    hcertified, hreason, -⟩ := h
  have hunitShape : (Shape.object [("key", .string), ("label", .string)]).Admits (v.field "unit") ∨
      (v.field "unit").isNull = true := by
    rcases hunit with hnull | ⟨hexactUnit, hkey, hlabel⟩
    · exact .inr hnull
    · left
      apply admits_exact (hunique.field "unit") hexactUnit rfl
      simp only [List.forall_mem_cons]
      exact ⟨fun _ => .string hkey, fun _ => .string hlabel, fun _ hf => absurd hf List.not_mem_nil⟩
  apply admits_exact hunique hexact rfl
  simp only [List.forall_mem_cons]
  exact ⟨fun _ => .integer hindex, fun _ => .string hname, fun _ => .string htype,
    fun _ => .string hrole, fun _ => admits_optionalString hsemantic,
    fun _ => admits_optionalString hdefinition, fun _ => admits_optional hunitShape.symm,
    fun _ => .string hformat, fun _ => .boolean hcertified,
    fun _ => admits_optionalString hreason, fun _ hf => absurd hf List.not_mem_nil⟩

lemma validateScopeFilter_ok (hunique : v.UniqueKeys) (h : validateScopeFilter known v = .ok ()) :
    scopeFilterShape.Admits v := by
  simp only [validateScopeFilter, checked_bind_ok, require_ok, Bool.and_eq_true, and_assoc] at h
  obtain ⟨hexact, hlabel, hoperator, hvalues, -, -⟩ := h
  apply admits_exact hunique hexact rfl
  simp only [List.forall_mem_cons]
  exact ⟨fun _ => .string hlabel, fun _ => .string hoperator, fun _ => admits_strings hvalues,
    fun _ hf => absurd hf List.not_mem_nil⟩

lemma validateScopeGrouping_ok {columns : ℕ} (hunique : v.UniqueKeys)
    (h : validateScopeGrouping known columns v = .ok ()) : scopeGroupingShape.Admits v := by
  simp only [validateScopeGrouping, checked_bind_ok, require_ok, Bool.and_eq_true, and_assoc,
    List.all_eq_true] at h
  obtain ⟨hexact, hname, hkind, hlist, -, hindices, -, -⟩ := h
  apply admits_exact hunique hexact rfl
  simp only [List.forall_mem_cons]
  exact ⟨fun _ => .string hname, fun _ => .string hkind,
    fun _ => Shape.admits_list hlist fun i hi => .integer (hindices i hi).1,
    fun _ hf => absurd hf List.not_mem_nil⟩

lemma validateScope_ok {columns : ℕ} (hunique : v.UniqueKeys)
    (h : validateScope known columns v = .ok ()) : scopeShape.Admits v := by
  simp only [validateScope, checked_bind_ok, require_ok, Bool.and_eq_true, Bool.or_eq_true,
    and_assoc, forM_ok_iff] at h
  obtain ⟨hexact, hstatus, htimeStatus, hfilters, hgrouping, hwarnings, -, htime, hfilterItems,
    hgroupingItems⟩ := h
  have htimeShape : (v.field "time").isNull = true ∨ scopeTimeShape.Admits (v.field "time") := by
    rcases htime with hnull | ⟨hexactTime, htexts⟩
    · exact .inl hnull
    · right
      simp only [List.all_cons, List.all_nil, Bool.and_eq_true] at htexts
      obtain ⟨hstart, hend, hbasis, -⟩ := htexts
      apply admits_exact (hunique.field "time") hexactTime rfl
      simp only [List.forall_mem_cons]
      exact ⟨fun _ => .string hstart, fun _ => .string hend, fun _ => .string hbasis,
        fun _ hf => absurd hf List.not_mem_nil⟩
  have hfilterShapes := Shape.admits_list hfilters fun item hitem =>
    validateScopeFilter_ok ((hunique.field _).items item hitem) (hfilterItems item hitem)
  have hgroupingShapes := Shape.admits_list hgrouping fun item hitem =>
    validateScopeGrouping_ok ((hunique.field _).items item hitem) (hgroupingItems item hitem)
  apply admits_exact hunique hexact rfl
  simp only [List.forall_mem_cons]
  exact ⟨fun _ => .string hstatus, fun _ => admits_optional htimeShape, fun _ => .string htimeStatus,
    fun _ => hfilterShapes, fun _ => hgroupingShapes, fun _ => admits_strings hwarnings,
    fun _ hf => absurd hf List.not_mem_nil⟩

lemma validateResultMetadata_ok {columns : List String} {rowCount : ℕ} (hunique : v.UniqueKeys)
    (h : validateResultMetadata v columns rowCount = .ok ()) : metadataShape.Admits v := by
  simp only [validateResultMetadata, checked_bind_ok, require_ok, Bool.and_eq_true, Bool.or_eq_true,
    and_assoc, forM_ok_iff, decide_eq_true_eq] at h
  obtain ⟨hexact, hversion, hstatus, hlist, hlength, -, hcolumns, hscope, haxis, -⟩ := h
  have hcolumnShapes : (Shape.list metadataColumnShape).Admits (v.field "columns") := by
    apply Shape.admits_list hlist
    intro column hcolumn
    obtain ⟨i, hi, rfl⟩ := List.getElem_of_mem hcolumn
    have hzip : i < ((v.field "columns").items.zip columns).zipIdx.length := by
      rw [List.length_zipIdx, List.length_zip]
      omega
    have hchecked := hcolumns _ (List.getElem_mem hzip)
    simp only [List.getElem_zipIdx, List.getElem_zip] at hchecked
    exact validateMetadataColumn_ok ((hunique.field _).items _ hcolumn) hchecked
  have haxisShape : (v.field "time_axis").isNull = true ∨
      timeAxisShape.Admits (v.field "time_axis") := by
    rcases haxis with hnull | ⟨hexactAxis, hgranularity, hkeys, -⟩
    · exact .inl hnull
    · right
      apply admits_exact (hunique.field "time_axis") hexactAxis rfl
      simp only [List.forall_mem_cons]
      exact ⟨fun _ => .string hgranularity, fun _ => admits_strings hkeys,
        fun _ hf => absurd hf List.not_mem_nil⟩
  apply admits_exact hunique hexact rfl
  simp only [List.forall_mem_cons]
  exact ⟨fun _ => .integer hversion, fun _ => .string hstatus, fun _ => hcolumnShapes,
    fun _ => validateScope_ok (hunique.field _) hscope, fun _ => admits_optional haxisShape,
    fun _ hf => absurd hf List.not_mem_nil⟩

/-- The metadata of a table, where it has some. -/
lemma validateOptionalMetadata_ok (hunique : v.UniqueKeys)
    (h : validateOptionalMetadata v = .ok ()) (hsome : (v.get? "result_metadata").isSome) :
    metadataShape.Admits (v.field "result_metadata") := by
  obtain ⟨value, hvalue⟩ := Option.isSome_iff_exists.mp hsome
  unfold validateOptionalMetadata at h
  rw [hvalue] at h
  have hshape := validateResultMetadata_ok (Json.field_of_get? hvalue ▸ hunique.field _) h
  rw [Json.field_of_get? hvalue]
  exact hshape

end Metadata

section Attribution

variable {isDecimal : String → Bool} {v : Json}

lemma isString_of_isDecimalText (h : isDecimalText isDecimal v = true) : v.isString = true := by
  simp only [isDecimalText, Bool.and_eq_true] at h
  exact h.1.1

lemma validateFactor_ok (hunique : v.UniqueKeys) (h : validateFactor isDecimal v = .ok ()) :
    factorShape.Admits v := by
  simp only [validateFactor, require_ok, Bool.and_eq_true, and_assoc] at h
  obtain ⟨hexact, hname, hamount, heffect⟩ := h
  apply admits_exact hunique hexact rfl
  simp only [List.forall_mem_cons]
  exact ⟨fun _ => .string hname, fun _ => .string (isString_of_isDecimalText hamount),
    fun _ => .string (isString_of_isOneOf heffect), fun _ hf => absurd hf List.not_mem_nil⟩

lemma validateProduct_ok (hunique : v.UniqueKeys) (h : validateProduct isDecimal v = .ok ()) :
    productShape.Admits v := by
  simp only [validateProduct, checked_bind_ok, require_ok, Bool.and_eq_true, and_assoc,
    forM_ok_iff] at h
  obtain ⟨hexact, hname, hchange, heffect, hclass, hlist, hfactors⟩ := h
  have hfactorShapes := Shape.admits_list hlist fun factor hfactor =>
    validateFactor_ok ((hunique.field _).items factor hfactor) (hfactors factor hfactor)
  apply admits_exact hunique hexact rfl
  simp only [List.forall_mem_cons]
  exact ⟨fun _ => .string hname, fun _ => .string (isString_of_isDecimalText hchange),
    fun _ => .string (isString_of_isOneOf heffect), fun _ => .string (isString_of_isOneOf hclass),
    fun _ => hfactorShapes, fun _ hf => absurd hf List.not_mem_nil⟩

lemma isBool_of_isTrue (h : isTrue v = true) : v.isBool = true := by
  cases v with
  | bool b => rfl
  | _ => cases h

lemma validateAttribution_ok (hunique : v.UniqueKeys)
    (h : validateAttribution isDecimal v = .ok ()) : attributionShape.Admits v := by
  simp only [validateAttribution, checked_bind_ok, require_ok, Bool.and_eq_true, and_assoc,
    forM_ok_iff, List.all_cons, List.all_nil] at h
  obtain ⟨hexact, hmetric, hcomparison, hcurrent, hcomparisonValue, hcurrentValue, htotal, -,
    hdirection, homitted, -, hpassed, hlist, hproducts⟩ := h
  have hproductShapes := Shape.admits_list hlist fun product hproduct =>
    validateProduct_ok ((hunique.field _).items product hproduct) (hproducts product hproduct)
  apply admits_exact hunique hexact rfl
  simp only [List.forall_mem_cons]
  exact ⟨fun _ => .string (isString_of_isOneOf hmetric),
    fun _ => .string (isString_of_nonempty hcomparison),
    fun _ => .string (isString_of_nonempty hcurrent),
    fun _ => .string (isString_of_isDecimalText hcomparisonValue),
    fun _ => .string (isString_of_isDecimalText hcurrentValue),
    fun _ => .string (isString_of_isDecimalText htotal),
    fun _ => .string (isString_of_isOneOf hdirection), fun _ => hproductShapes,
    fun _ => .integer homitted, fun _ => .boolean (isBool_of_isTrue hpassed),
    fun _ hf => absurd hf List.not_mem_nil⟩

end Attribution

section Tasks

variable {v : Json}

lemma eq_str_of_text {s : String} (hstring : v.isString = true) (htext : v.text = s) : v = .str s := by
  rw [Json.eq_str_of_isString hstring, htext]

lemma validateAnalysisTask_ok (hunique : v.UniqueKeys) (h : validateAnalysisTask v = .ok ()) :
    TaskPublic v := by
  simp only [validateAnalysisTask, checked_bind_ok, require_ok, Bool.and_eq_true, Bool.or_eq_true,
    and_assoc, decide_eq_true_eq] at h
  obtain ⟨hexact, hid, hstatus, hcolumns, hrows, hcount, hbound, htruncated, hcomplete, herror,
    hmetadata⟩ := h
  have herrorShape : (v.field "error").isNull = true ∨ taskErrorShape.Admits (v.field "error") := by
    rcases herror with hnull | ⟨hexactError, hcode, hmessage⟩
    · exact .inl hnull
    · right
      apply admits_exact (hunique.field "error") hexactError rfl
      simp only [List.forall_mem_cons]
      exact ⟨fun _ => .string (isString_of_nonempty hcode), fun _ => .string hmessage,
        fun _ hf => absurd hf List.not_mem_nil⟩
  obtain ⟨hrowShape, hwidth⟩ := admits_rows hrows
  refine ⟨?_, hwidth, hbound, ?_⟩
  · apply admits_exact hunique hexact rfl
    simp only [List.forall_mem_cons]
    exact ⟨fun _ => .string (isString_of_nonempty hid),
      fun _ => .string (isString_of_isOneOf hstatus), fun _ => admits_strings hcolumns,
      fun _ => hrowShape, fun _ => .integer hcount, fun _ => .boolean htruncated,
      fun _ => admits_optional herrorShape, validateOptionalMetadata_ok hunique hmetadata,
      fun _ hf => absurd hf List.not_mem_nil⟩
  · intro hfalse
    rcases hcomplete with htrue | hequal
    · cases htruth : v.field "truncated" with
      | bool b =>
        rw [htruth] at htrue hfalse
        cases b
        · cases htrue
        · cases hfalse
      | _ =>
        rw [htruth] at htrue
        cases htrue
    · exact hequal

/-- The identities that are collected are those of the tasks. -/
lemma addTask_ok {tasks : List Json} {ids ids' : TaskIds} (h : tasks.foldlM addTask ids = .ok ids') :
    (∀ task ∈ tasks, validateAnalysisTask task = .ok ()) ∧
    (∀ id ∈ ids'.all, id ∈ ids.all ∨ ∃ task ∈ tasks, (task.field "task_id").text = id) ∧
    ∀ id ∈ ids'.completed, id ∈ ids.completed ∨ ∃ task ∈ tasks,
      (task.field "task_id").text = id ∧ (task.field "status").text = "completed" := by
  induction tasks generalizing ids with
  | nil =>
    rw [List.foldlM_nil, except_pure_ok] at h
    subst h
    exact ⟨fun _ htask => absurd htask List.not_mem_nil, fun _ hid => .inl hid, fun _ hid => .inl hid⟩
  | cons task tasks ih =>
    rw [List.foldlM_cons, except_bind_ok] at h
    obtain ⟨next, hnext, htasks⟩ := h
    simp only [addTask, checked_bind_ok, except_pure_ok, require_ok] at hnext
    obtain ⟨hvalid, -, rfl⟩ := hnext
    obtain ⟨hall, hids, hcompleted⟩ := ih htasks
    refine ⟨List.forall_mem_cons.mpr ⟨hvalid, hall⟩, fun id hid => ?_, fun id hid => ?_⟩
    · rcases hids id hid with hbefore | ⟨other, hother, rfl⟩
      · rcases List.mem_append.mp hbefore with hin | hnew
        · exact .inl hin
        · exact .inr ⟨task, List.mem_cons_self, (List.mem_singleton.mp hnew).symm⟩
      · exact .inr ⟨other, List.mem_cons_of_mem _ hother, rfl⟩
    · rcases hcompleted id hid with hbefore | ⟨other, hother, hsame⟩
      · by_cases hstatus : (task.field "status").text = "completed"
        · rw [if_pos hstatus] at hbefore
          rcases List.mem_append.mp hbefore with hin | hnew
          · exact .inl hin
          · exact .inr ⟨task, List.mem_cons_self, (List.mem_singleton.mp hnew).symm, hstatus⟩
        · rw [if_neg hstatus] at hbefore
          exact .inl hbefore
      · exact .inr ⟨other, List.mem_cons_of_mem _ hother, hsame⟩

lemma addIncomplete_ok {taskIds seen seen' : List String} {items : List Json}
    (h : items.foldlM (addIncomplete taskIds) seen = .ok seen') :
    ∀ item ∈ items, hasExactFields item ["task_id", "reasons"] [] = true ∧
      (item.field "task_id").isString = true ∧ (item.field "task_id").text ∈ taskIds ∧
      isStringList (item.field "reasons") = true := by
  induction items generalizing seen with
  | nil => exact fun _ hitem => absurd hitem List.not_mem_nil
  | cons item items ih =>
    rw [List.foldlM_cons, except_bind_ok] at h
    obtain ⟨next, hnext, hitems⟩ := h
    simp only [addIncomplete, checked_bind_ok, except_pure_ok, require_ok, Bool.and_eq_true,
      and_assoc, decide_eq_true_eq] at hnext
    obtain ⟨hexact, hid, hin, -, hreasons, -⟩ := hnext
    exact List.forall_mem_cons.mpr ⟨⟨hexact, isString_of_nonempty hid, hin, hreasons⟩, ih hitems⟩

end Tasks

section Results

variable {isDecimal : String → Bool} {v : Json}

/-- A report has its shape, its evidence is from completed tasks, and what it calls incomplete is a
task. -/
lemma validateAnalysisReport_ok {ids : TaskIds} (hunique : v.UniqueKeys)
    (h : validateAnalysisReport isDecimal v ids = .ok ()) : reportShape.Admits v ∧
      (∀ id ∈ (v.field "evidence_task_ids").items, id.isString = true ∧ id.text ∈ ids.completed) ∧
      ∀ item ∈ (v.field "incomplete_tasks").items, (item.field "task_id").isString = true ∧
        (item.field "task_id").text ∈ ids.all := by
  simp only [validateAnalysisReport, checked_bind_ok, require_ok, Bool.and_eq_true, and_assoc,
    List.all_cons, List.all_nil] at h
  obtain ⟨hexact, htitle, hsummary, htrend, -, hfindings, hcauses, hactions, hevidence, -, -,
    hcompleted, hlist, hrest⟩ := h
  obtain ⟨seen, hincomplete, hattribution⟩ := except_bind_ok.mp hrest
  have hitems := addIncomplete_ok hincomplete
  have hincompleteShape : (Shape.list incompleteTaskShape).Admits (v.field "incomplete_tasks") := by
    apply Shape.admits_list hlist
    intro item hitem
    obtain ⟨hexactItem, hid, -, hreasons⟩ := hitems item hitem
    apply admits_exact ((hunique.field _).items item hitem) hexactItem rfl
    simp only [List.forall_mem_cons]
    exact ⟨fun _ => .string hid, fun _ => admits_strings hreasons,
      fun _ hf => absurd hf List.not_mem_nil⟩
  have hattributionShape (hsome : (v.get? "attribution").isSome) :
      attributionShape.Admits (v.field "attribution") := by
    obtain ⟨attribution, hget⟩ := Option.isSome_iff_exists.mp hsome
    rw [hget] at hattribution
    have hshape := validateAttribution_ok (Json.field_of_get? hget ▸ hunique.field _) hattribution
    rw [Json.field_of_get? hget]
    exact hshape
  refine ⟨?_, fun id hid => ?_, fun item hitem => ?_⟩
  · apply admits_exact hunique hexact rfl
    simp only [List.forall_mem_cons]
    exact ⟨fun _ => .string (isString_of_nonempty htitle),
      fun _ => .string (isString_of_nonempty hsummary), fun _ => admits_strings hfindings,
      fun _ => .string (isString_of_nonempty htrend), fun _ => admits_strings hcauses,
      fun _ => admits_strings hactions, fun _ => admits_strings hevidence,
      fun _ => hincompleteShape, hattributionShape, fun _ hf => absurd hf List.not_mem_nil⟩
  · have hstrings := (Bool.and_eq_true_iff.mp hevidence).2
    exact ⟨List.all_eq_true.mp hstrings id hid, hcompleted _ (List.mem_map_of_mem hid)⟩
  · obtain ⟨-, hid, hin, -⟩ := hitems item hitem
    exact ⟨hid, hin⟩

lemma validateQueryResult_ok (hunique : v.UniqueKeys) (h : validateQueryResult v = .ok ()) :
    QueryPublic v := by
  simp only [validateQueryResult, checked_bind_ok, require_ok, Bool.and_eq_true, and_assoc,
    decide_eq_true_eq] at h
  obtain ⟨hexact, hcolumns, hrows, hcount, hequal, htruncated, hsql, hrequest, hmetadata⟩ := h
  obtain ⟨hrowShape, hwidth⟩ := admits_rows hrows
  refine ⟨?_, hwidth, hequal⟩
  apply admits_exact hunique hexact rfl
  simp only [List.forall_mem_cons]
  exact ⟨fun _ => .string hrequest, fun _ => .string hsql, fun _ => admits_strings hcolumns,
    fun _ => hrowShape, fun _ => .integer hcount, fun _ => .boolean htruncated,
    validateOptionalMetadata_ok hunique hmetadata, fun _ hf => absurd hf List.not_mem_nil⟩

lemma validatePublicResult_ok {kind : String} (hkind : kind ≠ "query") (hunique : v.UniqueKeys)
    (h : validatePublicResult isDecimal kind v = .ok ()) : AnalysisPublic v := by
  unfold validatePublicResult at h
  rw [if_neg hkind] at h
  simp only [checked_bind_ok, require_ok, Bool.and_eq_true, and_assoc] at h
  obtain ⟨hexact, hrequest, hrun, hmode, hlist, hrest⟩ := h
  obtain ⟨ids, hids, hreport⟩ := except_bind_ok.mp hrest
  obtain ⟨hvalid, hall, hcompleted⟩ := addTask_ok hids
  obtain ⟨hreportShape, hevidence, hincomplete⟩ := validateAnalysisReport_ok (hunique.field _) hreport
  have htasks : ∀ task ∈ (v.field "task_results").items, TaskPublic task := fun task htask =>
    validateAnalysisTask_ok ((hunique.field _).items task htask) (hvalid task htask)
  have hstrings : ∀ task ∈ (v.field "task_results").items,
      (task.field "task_id").isString = true ∧ (task.field "status").isString = true := by
    intro task htask
    have hchecked := hvalid task htask
    simp only [validateAnalysisTask, checked_bind_ok, require_ok, Bool.and_eq_true, and_assoc] at hchecked
    exact ⟨isString_of_nonempty hchecked.2.1, isString_of_isOneOf hchecked.2.2.1⟩
  refine ⟨?_, htasks, fun id hid => ?_, fun item hitem => ?_⟩
  · apply admits_exact hunique hexact rfl
    simp only [List.forall_mem_cons]
    exact ⟨fun _ => .string (isString_of_nonempty hrequest),
      fun _ => .string (isString_of_nonempty hrun), fun _ => .string (isString_of_isOneOf hmode),
      fun _ => hreportShape, fun _ => Shape.admits_list hlist fun task htask => (htasks task htask).shape,
      fun _ hf => absurd hf List.not_mem_nil⟩
  · obtain ⟨hstring, hin⟩ := hevidence id hid
    obtain hnone | ⟨task, htask, htext, hstatus⟩ := hcompleted _ hin
    · exact absurd hnone List.not_mem_nil
    · obtain ⟨hidString, hstatusString⟩ := hstrings task htask
      refine ⟨task, htask, ?_, eq_str_of_text hstatusString hstatus⟩
      rw [eq_str_of_text hidString htext]
      exact (Json.eq_str_of_isString hstring).symm
  · obtain ⟨hstring, hin⟩ := hincomplete item hitem
    obtain hnone | ⟨task, htask, htext⟩ := hall _ hin
    · exact absurd hnone List.not_mem_nil
    · refine ⟨task, htask, ?_⟩
      rw [eq_str_of_text (hstrings task htask).1 htext]
      exact (Json.eq_str_of_isString hstring).symm

/-- What `public_snapshot` returns is the result of the envelope, and holds whitelisted data only. -/
theorem publicSnapshot_whitelisted {envelope result : Json} (hunique : envelope.UniqueKeys)
    (h : publicSnapshot isDecimal envelope = .ok result) : result = envelope.field "result" ∧
      (envelope.field "kind" = .str "query" ∧ QueryPublic result ∨
        envelope.field "kind" = .str "analysis" ∧ AnalysisPublic result) := by
  simp only [publicSnapshot, checked_bind_ok, except_pure_ok, require_ok, Bool.and_eq_true,
    and_assoc] at h
  obtain ⟨-, -, -, hkind, -, -, -, hvalid, rfl⟩ := h
  refine ⟨rfl, ?_⟩
  simp only [isOneOf, Bool.and_eq_true, decide_eq_true_eq, List.mem_cons, List.not_mem_nil,
    or_false] at hkind
  obtain ⟨hstring, hquery | hanalysis⟩ := hkind
  · left
    refine ⟨eq_str_of_text hstring hquery, validateQueryResult_ok (hunique.field _) ?_⟩
    rw [validatePublicResult, if_pos hquery] at hvalid
    exact hvalid
  · right
    refine ⟨eq_str_of_text hstring hanalysis, validatePublicResult_ok ?_ (hunique.field _) hvalid⟩
    rw [hanalysis]
    decide

end Results

/-- A column of the table below. -/
def storedColumn (index : Int) (name dataType role format : String) (unit : Json) : Json := .obj [
  ("index", .int index), ("name", .str name), ("data_type", .str dataType), ("role", .str role),
  ("semantic_name", .str name), ("definition", .null), ("unit", unit), ("format", .str format),
  ("certified", .bool true), ("reason_code", .null)]

/-- The result metadata of a table of sales by month. -/
def storedMetadata : Json := .obj [
  ("version", .int 1), ("status", .str "complete"),
  ("columns", .arr [storedColumn 0 "month" "date" "dimension" "raw" .null,
    storedColumn 1 "sales" "number" "metric" "money"
      (.obj [("key", .str "cny"), ("label", .str "CNY")])]),
  ("scope", .obj [
    ("status", .str "complete"),
    ("time", .obj [("start", .str "2025-01-01"), ("end_exclusive", .str "2025-02-01"),
      ("time_basis", .str "order_date")]),
    ("time_status", .str "confirmed"),
    ("filters", .arr [.obj [("label", .str "region"), ("operator", .str "="),
      ("values", .arr [.str "north"])]]),
    ("grouping", .arr [.obj [("semantic_name", .str "month"), ("kind", .str "time"),
      ("column_indices", .arr [.int 0])]]),
    ("warnings", .arr [.str "w"])]),
  ("time_axis", .obj [("granularity", .str "month"), ("keys", .arr [.str "2025-01"])])]

/-- The attribution of a fall of the net sales to one product and its price. -/
def storedAttribution : Json := .obj [
  ("metric_name", .str "人民币净销售额"), ("comparison_period", .str "2024-12"),
  ("current_period", .str "2025-01"), ("comparison_value", .str "100"),
  ("current_value", .str "80.5"), ("total_change", .str "-19.5"), ("direction", .str "decrease"),
  ("products", .arr [.obj [
    ("product_name", .str "p"), ("change", .str "-19.5"),
    ("effect_on_metric", .str "decreases_target_metric"), ("classification", .str "continuing"),
    ("factors", .arr [.obj [("name", .str "price"), ("amount", .str "-19.5"),
      ("effect_on_metric", .str "decreases_target_metric")]])]]),
  ("omitted_product_count", .int 2), ("reconciliation_passed", .bool true)]

/-- The stored snapshot of an analysis of a task that is completed and one that has failed. -/
def storedAnalysis : Json := .obj [
  ("version", .int 1), ("kind", .str "analysis"), ("original_question", .str "q"),
  ("result", .obj [
    ("request_id", .str "r"), ("analysis_run_id", .str "a"), ("mode", .str "analysis"),
    ("report", .obj [
      ("title", .str "t"), ("executive_summary", .str "s"), ("key_findings", .arr [.str "f"]),
      ("trend_judgment", .str "j"), ("root_causes", .arr [.str "c"]),
      ("action_suggestions", .arr [.str "a"]), ("evidence_task_ids", .arr [.str "k"]),
      ("incomplete_tasks", .arr [.obj [("task_id", .str "m"), ("reasons", .arr [.str "failed"])]]),
      ("attribution", storedAttribution)]),
    ("task_results", .arr [
      .obj [("task_id", .str "k"), ("status", .str "completed"),
        ("columns", .arr [.str "month", .str "sales"]),
        ("rows", .arr [.arr [.str "2025-01", .int 5]]), ("row_count", .int 3),
        ("truncated", .bool true), ("error", .null), ("result_metadata", storedMetadata)],
      .obj [("task_id", .str "m"), ("status", .str "failed"), ("columns", .arr []),
        ("rows", .arr []), ("row_count", .int 0), ("truncated", .bool false),
        ("error", .obj [("code", .str "TASK_EXECUTION_ERROR"), ("message", .str "e")])]])])]

theorem publicSnapshot_whitelisted_stored :
    AnalysisPublic (storedAnalysis.field "result") := by
  have hunique : storedAnalysis.UniqueKeys := by
    simp [storedAnalysis, storedAttribution, storedMetadata, storedColumn]
  have hpublic : publicSnapshot (fun _ => true) storedAnalysis =
      .ok (storedAnalysis.field "result") := rfl
  have hkind : storedAnalysis.field "kind" = .str "analysis" := rfl
  obtain ⟨-, ⟨hquery, -⟩ | ⟨-, h⟩⟩ := publicSnapshot_whitelisted hunique hpublic
  · rw [hkind] at hquery
    exact absurd (Json.str.inj hquery) (by decide)
  · exact h

end ChatBI.Snapshot
