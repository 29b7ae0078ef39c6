import ChatBI.Export.PdfDocument
import ChatBI.Snapshot.Whitelist
import Mathlib.Data.List.TakeWhile

/-!
# What the PDF exporter accepts

The history codec and the exporter check one format by themselves. A snapshot of an analysis that
the codec accepts is accepted by the exporter too, when its texts can be displayed, its amounts are
plain decimals and its tables are not too large, and the exporter copies it in order.
-/

namespace ChatBI.Lib.Json

/-- Every text of the value, keys aside. -/
inductive AllTexts (P : String → Prop) : Json → Prop where
  | null : AllTexts P .null
  | bool (b : Bool) : AllTexts P (.bool b)
  | int (n : Int) : AllTexts P (.int n)
  | float (bits : UInt64) : AllTexts P (.float bits)
  | str {s : String} (h : P s) : AllTexts P (.str s)
  | arr {items : List Json} (h : ∀ v ∈ items, AllTexts P v) : AllTexts P (.arr items)
  | obj {fields : List (String × Json)} (h : ∀ m ∈ fields, AllTexts P m.2) :
      AllTexts P (.obj fields)

variable {P : String → Prop} {v : Json}

attribute [simp] AllTexts.null AllTexts.bool AllTexts.int AllTexts.float

@[simp] lemma allTexts_str {s : String} : (str s).AllTexts P ↔ P s := by
  constructor
  · rintro (_ | _ | _ | _ | h)
    exact h
  · exact .str

@[simp] lemma allTexts_arr {items : List Json} :
    (arr items).AllTexts P ↔ ∀ v ∈ items, v.AllTexts P := by
  constructor
  · rintro (_ | _ | _ | _ | _ | h)
    exact h
  · exact .arr

@[simp] lemma allTexts_obj {fields : List (String × Json)} :
    (obj fields).AllTexts P ↔ ∀ m ∈ fields, m.2.AllTexts P := by
  constructor
  · rintro (_ | _ | _ | _ | _ | _ | h)
    exact h
  · exact .obj

lemma AllTexts.items (h : v.AllTexts P) : ∀ x ∈ v.items, x.AllTexts P := by
  cases h with
  | arr h => exact h
  | _ => exact fun x hx => absurd hx List.not_mem_nil

lemma AllTexts.field (h : v.AllTexts P) (k : String) : (v.field k).AllTexts P := by
  unfold Json.field
  cases hget : v.get? k with
  | none => exact .null
  | some x =>
    have hmem := mem_of_get? hget
    cases h with
    | obj h => exact h _ hmem
    | _ => cases hmem

lemma AllTexts.text (h : v.AllTexts P) (hstring : v.isString = true) : P v.text := by
  cases h with
  | str h => exact h
  | _ => cases hstring

/-- A list under a key, or the default of a missing key. -/
lemma getD_of_isList {k : String} {default : Json} (h : (v.field k).isList = true) :
    (v.get? k).getD default = v.field k := by
  unfold Json.field at h ⊢
  cases hget : v.get? k with
  | none =>
    rw [hget] at h
    cases h
  | some x => rfl

lemma getD_of_isDict {k : String} {default : Json} (h : (v.field k).isDict = true) :
    (v.get? k).getD default = v.field k := by
  unfold Json.field at h ⊢
  cases hget : v.get? k with
  | none =>
    rw [hget] at h
    cases h
  | some x => rfl

end ChatBI.Lib.Json

namespace ChatBI.Export.Pdf

open ChatBI.Lib ChatBI.Snapshot

/-! ### What is kept -/

/-- The copy has the fields of the original. -/
def Keeps (keys : List String) (copy original : Json) : Prop :=
  ∀ key ∈ keys, copy.field key = original.field key

/-- The copies of a list, in its order. -/
def Copies (R : Json → Json → Prop) (copies originals : Json) : Prop :=
  List.Forall₂ R copies.items originals.items

structure ProductCopied (copy original : Json) : Prop where
  fields : Keeps ["product_name", "change", "classification", "effect_on_metric"] copy original
  factors : Copies (Keeps ["name", "amount", "effect_on_metric"]) (copy.field "factors")
    (original.field "factors")

structure AttributionCopied (copy original : Json) : Prop where
  fields : Keeps ["metric_name", "comparison_period", "current_period", "direction",
    "comparison_value", "current_value", "total_change", "omitted_product_count"] copy original
  products : Copies ProductCopied (copy.field "products") (original.field "products")

structure ReportCopied (copy original : Json) : Prop where
  fields : Keeps ["title", "executive_summary", "trend_judgment", "key_findings", "root_causes",
    "action_suggestions", "evidence_task_ids"] copy original
  incomplete : Copies (Keeps ["task_id", "reasons"]) (copy.field "incomplete_tasks")
    (original.field "incomplete_tasks")
  attribution : (original.get? "attribution").isSome = (copy.get? "attribution").isSome ∧
    ((original.get? "attribution").isSome →
      AttributionCopied (copy.field "attribution") (original.field "attribution"))

/-- The result of the clean document has what the result of the snapshot shows. -/
structure ResultCopied (copy original : Json) : Prop where
  report : ReportCopied (copy.field "report") (original.field "report")
  tasks : Copies (Keeps ["task_id", "status", "columns", "rows", "row_count", "truncated"])
    (copy.field "task_results") (original.field "task_results")

/-- A text without control characters other than line breaks and tabs. -/
def Displayable (s : String) : Prop := s.toList.all isDisplayable = true

/-- `-?[0-9]+(\.[0-9]+)?`. -/
def PlainDecimal (value : Json) : Prop := matchesDecimal Char.isDigit value.text.toList = true

structure PlainAmounts (attribution : Json) : Prop where
  values : ∀ key ∈ ["comparison_value", "current_value", "total_change"],
    PlainDecimal (attribution.field key)
  changes : ∀ product ∈ (attribution.field "products").items, PlainDecimal (product.field "change")
  amounts : ∀ product ∈ (attribution.field "products").items,
    ∀ factor ∈ (product.field "factors").items, PlainDecimal (factor.field "amount")

def cellsOf (task : Json) : ℕ :=
  (task.field "rows").items.length * (task.field "columns").items.length

/-- The condition on a snapshot: displayable texts, plain amounts, and tables that are not too
large. -/
structure Exportable (envelope : Json) : Prop where
  texts : envelope.AllTexts Displayable
  amounts : (((envelope.field "result").field "report").get? "attribution").isSome →
    PlainAmounts (((envelope.field "result").field "report").field "attribution")
  cells : (((envelope.field "result").field "task_results").items.map cellsOf).sum ≤ 100000

/-! ### Values -/

section Values

variable {v : Json} {label : String} {α β : Type}

lemma object_ok (h : v.isDict = true) : object v label = .ok v := by
  rw [object, require, if_pos h]
  rfl

lemma string_ok (h : v.AllTexts Displayable) (hstring : v.isString = true) :
    string v label = .ok v := by
  have htext : v.text.toList.all isDisplayable = true := h.text hstring
  rw [string, require, if_pos hstring, require, if_pos htext]
  rfl

lemma strings_ok (h : v.AllTexts Displayable) (hlist : isStringList v = true) :
    strings v label = .ok v := by
  obtain ⟨hisList, hitems⟩ := Bool.and_eq_true_iff.mp hlist
  have hsame : v.items.mapM (fun item => string item label) = .ok v.items := by
    apply mapM_of_forall₂
    rw [List.forall₂_same]
    intro item hitem
    exact string_ok (h.items item hitem) (List.all_eq_true.mp hitems item hitem)
  rw [strings, require, if_pos hisList, hsame]
  exact congrArg Except.ok (Json.eq_arr_of_isList hisList).symm

lemma takeWhile_of_imp {p q : Char → Bool} (h : ∀ c, p c = true → q c = true) {cs rest : List Char}
    (hcs : ∀ c ∈ cs, p c = true) (hrest : ∀ c ∈ rest.head?, q c = false) :
    (cs ++ rest).takeWhile q = cs ∧ (cs ++ rest).dropWhile q = rest := by
  induction cs with
  | nil =>
    cases rest with
    | nil => exact ⟨rfl, rfl⟩
    | cons c rest =>
      have hc := hrest c rfl
      rw [List.nil_append, List.takeWhile_cons, List.dropWhile_cons, hc]
      exact ⟨rfl, rfl⟩
  | cons c cs ih =>
    obtain ⟨htake, hdrop⟩ := ih fun d hd => hcs d (List.mem_cons_of_mem c hd)
    have hc := h c (hcs c List.mem_cons_self)
    rw [List.cons_append, List.takeWhile_cons, List.dropWhile_cons, hc, if_pos rfl, if_pos rfl,
      htake, hdrop]
    exact ⟨rfl, rfl⟩

/-- The digits of one script are digits. -/
lemma matchesDecimal_mono {digit : Char → Bool} (hdigit : ∀ c, c.isDigit = true → digit c = true)
    (hpoint : digit '.' = false) {text : List Char}
    (h : matchesDecimal Char.isDigit text = true) : matchesDecimal digit text = true := by
  unfold matchesDecimal at h ⊢
  dsimp only at h ⊢
  generalize (if text.head? = some '-' then text.drop 1 else text) = unsigned at h ⊢
  rw [Bool.and_eq_true_iff, decide_eq_true_eq, Bool.or_eq_true] at h
  obtain ⟨hwhole, hrest⟩ := h
  have hstop : ∀ c ∈ (unsigned.dropWhile Char.isDigit).head?, digit c = false := by
    intro c hc
    rcases hrest with hempty | hfraction
    · rw [List.isEmpty_iff.mp hempty] at hc
      cases hc
    · simp only [Bool.and_eq_true, decide_eq_true_eq, and_assoc] at hfraction
      rw [hfraction.1] at hc
      cases hc
      exact hpoint
  have hdigits : ∀ c ∈ unsigned.takeWhile Char.isDigit, c.isDigit = true :=
    fun _ hc => List.mem_takeWhile_imp hc
  obtain ⟨htake, hdrop⟩ := takeWhile_of_imp hdigit hdigits hstop
  rw [List.takeWhile_append_dropWhile] at htake hdrop
  rw [htake, hdrop, Bool.and_eq_true_iff, decide_eq_true_eq, Bool.or_eq_true]
  refine ⟨hwhole, ?_⟩
  rcases hrest with hempty | hfraction
  · exact .inl hempty
  · right
    simp only [Bool.and_eq_true, List.all_eq_true] at hfraction ⊢
    exact ⟨hfraction.1, fun c hc => hdigit c (hfraction.2 c hc)⟩

lemma decimal_ok {digit : Char → Bool} (hdigit : ∀ c, c.isDigit = true → digit c = true)
    (hpoint : digit '.' = false) (h : v.AllTexts Displayable) (hstring : v.isString = true)
    (hplain : PlainDecimal v) : decimal digit v label = .ok v := by
  rw [decimal, string_ok h hstring]
  change (require (matchesDecimal digit v.text.toList = true) _ >>= fun _ => pure v) = _
  rw [require, if_pos (matchesDecimal_mono hdigit hpoint hplain)]
  rfl

/-- The texts of an object are all copied. -/
lemma texts_ok (h : v.AllTexts Displayable) (keys : List String) (label : String → String) :
    ∃ safe, texts v keys label = .ok safe := by
  apply exists_mapM_ok_iff.mpr
  intro key hkey
  have hstring := (List.mem_filter.mp hkey).2
  refine ⟨(key, v.field key), ?_⟩
  rw [string_ok (h.field key) hstring]
  rfl

/-- Fields with a check that they pass. -/
lemma checkedFields_ok {check : Json → String → Except PdfError Json} {keys : List String}
    (h : ∀ key ∈ keys, check (v.field key) label = .ok (v.field key)) :
    keys.mapM (checkedField check v label) = .ok (keys.map fun key => (key, v.field key)) := by
  apply mapM_of_forall₂
  rw [List.forall₂_map_right_iff, List.forall₂_same]
  intro key hkey
  rw [checkedField, h key hkey]
  rfl

end Values

/-! ### Metadata -/

section Metadata

variable {dumps : Json → Option String} {v : Json} {known : Bool}

lemma safeColumn_ok (h : v.AllTexts Displayable) (hdict : v.isDict = true) :
    ∃ safe, safeColumn v = .ok safe := by
  obtain ⟨safe, hsafe⟩ := texts_ok h ["name", "semantic_name", "definition", "role"]
    fun key => "任务列 " ++ key
  apply exists_bind_ok (object_ok hdict)
  apply exists_bind_ok hsafe
  dsimp only
  split
  · rename_i hunit
    have hlabel := (Bool.and_eq_true_iff.mp hunit).2
    apply exists_bind_ok (string_ok ((h.field "unit").field "label") hlabel)
    exact ⟨_, rfl⟩
  · exact ⟨_, rfl⟩

/-- The values of an entry are texts, or it has none. -/
lemma safeEntry_ok (h : v.AllTexts Displayable) (hdict : v.isDict = true)
    (hvalues : (v.field "values").isList = true → isStringList (v.field "values") = true) :
    ∃ safe, safeEntry dumps v = .ok safe := by
  obtain ⟨clean, hclean⟩ := texts_ok h ["label", "operator", "kind", "semantic_name"]
    fun _ => "任务范围项目"
  apply exists_bind_ok (object_ok hdict)
  apply exists_bind_ok hclean
  dsimp only
  split
  · rename_i hlist
    have hstrings := (Bool.and_eq_true_iff.mp (hvalues hlist)).2
    have hitems : (v.field "values").items.mapM (safeValue dumps) =
        .ok (v.field "values").items := by
      apply mapM_of_forall₂
      rw [List.forall₂_same]
      intro item hitem
      have hstring := List.all_eq_true.mp hstrings item hitem
      rw [safeValue, if_pos hstring]
      exact string_ok ((h.field "values").items item hitem) hstring
    apply exists_bind_ok hitems
    exact ⟨_, rfl⟩
  · exact ⟨_, rfl⟩

lemma safeEntries_ok {key : String} (hlist : (v.field key).isList = true)
    (hitems : ∀ item ∈ (v.field key).items, ∃ safe, safeEntry dumps item = .ok safe) :
    ∃ safe, safeEntries dumps v key = .ok safe := by
  obtain ⟨items, hmap⟩ := exists_mapM_ok_iff.mpr hitems
  unfold safeEntries
  dsimp only
  rw [Json.getD_of_isList hlist, require, if_pos hlist, hmap]
  exact ⟨_, rfl⟩

lemma safePeriod_ok (h : v.AllTexts Displayable) : ∃ safe, safePeriod v = .ok safe := by
  unfold safePeriod
  split
  · obtain ⟨safe, hsafe⟩ := texts_ok h ["start", "end_exclusive", "time_basis"] fun _ => "任务时间范围"
    apply exists_bind_ok hsafe
    exact ⟨_, rfl⟩
  · exact ⟨_, rfl⟩

/-- A key that the fields do not name is missing. -/
lemma field_of_unknown {required optional : List String} {key : String}
    (hexact : hasExactFields v required optional = true) (hkey : key ∉ required ++ optional) :
    v.field key = .null := by
  unfold Json.field
  cases hget : v.get? key with
  | none => rfl
  | some x =>
    have hmem := (hasExactFields_iff.mp hexact).2.2 _ (Json.mem_of_get? hget)
    exact absurd hmem hkey

lemma safeScope_ok {columns : ℕ} {metadata : Json} (h : metadata.AllTexts Displayable)
    (hscope : validateScope known columns (metadata.field "scope") = .ok ()) :
    ∃ safe, safeScope dumps metadata = .ok safe := by
  have htexts := h.field "scope"
  generalize hscopeField : metadata.field "scope" = scope at hscope htexts
  simp only [validateScope, checked_bind_ok, require_ok, Bool.and_eq_true, and_assoc,
    forM_ok_iff] at hscope
  obtain ⟨hexact, -, -, hfilters, hgrouping, hwarnings, -, -, hfilterItems, hgroupingItems⟩ :=
    hscope
  have hdict := (hasExactFields_iff.mp hexact).1
  have hentries : ∀ key ∈ ["filters", "grouping"],
      ∃ safe, safeEntries dumps scope key = .ok safe := by
    rw [List.forall_mem_cons, List.forall_mem_singleton]
    constructor
    · apply safeEntries_ok hfilters
      intro item hitem
      have hchecked := hfilterItems item hitem
      simp only [validateScopeFilter, checked_bind_ok, require_ok, Bool.and_eq_true,
        and_assoc] at hchecked
      exact safeEntry_ok ((htexts.field _).items item hitem)
        (hasExactFields_iff.mp hchecked.1).1 fun _ => hchecked.2.2.2.1
    · apply safeEntries_ok hgrouping
      intro item hitem
      have hchecked := hgroupingItems item hitem
      simp only [validateScopeGrouping, checked_bind_ok, require_ok, Bool.and_eq_true,
        and_assoc] at hchecked
      apply safeEntry_ok ((htexts.field _).items item hitem) (hasExactFields_iff.mp hchecked.1).1
      intro hlist
      rw [field_of_unknown hchecked.1 (by decide)] at hlist
      cases hlist
  obtain ⟨entries, hentriesOk⟩ := exists_mapM_ok_iff.mpr hentries
  obtain ⟨safe, hsafe⟩ := texts_ok htexts ["status", "time_status"] fun _ => "任务范围"
  obtain ⟨time, htime⟩ := safePeriod_ok (htexts.field "time")
  have hwarningList := (Bool.and_eq_true_iff.mp hwarnings).1
  have hwarningItems : ∀ item ∈ (scope.field "warnings").items.filter Json.isString,
      ∃ safe, string item "任务范围提示" = .ok safe := by
    intro item hitem
    obtain ⟨hin, hstring⟩ := List.mem_filter.mp hitem
    exact ⟨item, string_ok ((htexts.field _).items item hin) hstring⟩
  obtain ⟨warnings, hwarningsOk⟩ := exists_mapM_ok_iff.mpr hwarningItems
  have hobject : object ((metadata.get? "scope").getD (.obj [])) "任务范围" = .ok scope := by
    rw [Json.getD_of_isDict (hscopeField ▸ hdict), hscopeField]
    exact object_ok hdict
  apply exists_bind_ok hobject
  apply exists_bind_ok hsafe
  apply exists_bind_ok htime
  apply exists_bind_ok hentriesOk
  dsimp only
  rw [Json.getD_of_isList hwarningList, require, if_pos hwarningList]
  apply exists_bind_ok rfl
  apply exists_bind_ok hwarningsOk
  exact ⟨_, rfl⟩

lemma safeMetadata_ok {columns : List String} {rowCount : ℕ} (h : v.AllTexts Displayable)
    (hvalid : validateResultMetadata v columns rowCount = .ok ()) :
    ∃ safe, safeMetadata dumps v = .ok safe := by
  simp only [validateResultMetadata, checked_bind_ok, require_ok, Bool.and_eq_true, and_assoc,
    forM_ok_iff, decide_eq_true_eq] at hvalid
  obtain ⟨hexact, -, -, hlist, hlength, -, hcolumns, hscope, -⟩ := hvalid
  have hdict := (hasExactFields_iff.mp hexact).1
  have hcolumnsOk : ∀ column ∈ (v.field "columns").items, ∃ safe, safeColumn column = .ok safe := by
    intro column hcolumn
    obtain ⟨i, hi, rfl⟩ := List.getElem_of_mem hcolumn
    have hzip : i < ((v.field "columns").items.zip columns).zipIdx.length := by
      rw [List.length_zipIdx, List.length_zip]
      omega
    have hchecked := hcolumns _ (List.getElem_mem hzip)
    simp only [List.getElem_zipIdx, List.getElem_zip, validateMetadataColumn, checked_bind_ok,
      require_ok] at hchecked
    exact safeColumn_ok ((h.field _).items _ hcolumn) (hasExactFields_iff.mp hchecked.1).1
  obtain ⟨safeColumns, hsafeColumns⟩ := exists_mapM_ok_iff.mpr hcolumnsOk
  obtain ⟨scope, hscopeOk⟩ := @safeScope_ok dumps _ _ _ h hscope
  unfold safeMetadata
  split
  · exact ⟨_, rfl⟩
  · apply exists_bind_ok (object_ok hdict)
    dsimp only
    rw [Json.getD_of_isList hlist, require, if_pos hlist]
    apply exists_bind_ok rfl
    apply exists_bind_ok hsafeColumns
    apply exists_bind_ok hscopeOk
    exact ⟨_, rfl⟩

/-- The metadata of a table, where it has some. -/
lemma safeMetadata_of_table (h : v.AllTexts Displayable)
    (hvalid : validateOptionalMetadata v = .ok ()) :
    ∃ safe, safeMetadata dumps (v.field "result_metadata") = .ok safe := by
  have htexts := h.field "result_metadata"
  unfold validateOptionalMetadata at hvalid
  cases hget : v.get? "result_metadata" with
  | none =>
    have hnull : v.field "result_metadata" = .null := by
      rw [Json.field, hget]
      rfl
    rw [hnull]
    exact ⟨.null, rfl⟩
  | some value =>
    rw [hget] at hvalid
    rw [Json.field_of_get? hget] at htexts ⊢
    exact safeMetadata_ok htexts hvalid

end Metadata

/-! ### Attribution -/

section Attribution

variable {isDecimal : String → Bool} {digit : Char → Bool} {v : Json} {α β : Type}

lemma exists_bind_and {ε : Type} {Q : β → Prop} {x : Except ε α} {f : α → Except ε β} {a : α}
    (hx : x = .ok a) (hf : ∃ b, f a = .ok b ∧ Q b) : ∃ b, (x >>= f) = .ok b ∧ Q b := by
  rw [hx]
  exact hf

lemma checked_bind_and {ε : Type} {Q : β → Prop} {c : Prop} [Decidable c] {e : ε}
    {f : Unit → Except ε β} (hc : c) (hf : ∃ b, f () = .ok b ∧ Q b) :
    ∃ b, (require c e >>= f) = .ok b ∧ Q b := by
  rw [require, if_pos hc]
  exact hf

/-- Copies of the items of a list, one after the other. -/
lemma exists_copies {R : Json → Json → Prop} {f : Json → Except PdfError Json}
    (h : ∀ item ∈ v.items, ∃ copy, f item = .ok copy ∧ R copy item) :
    ∃ copies, v.items.mapM f = .ok copies ∧ Copies R (.arr copies) v := by
  unfold Copies
  generalize v.items = items at h
  induction items with
  | nil => exact ⟨[], rfl, .nil⟩
  | cons item items ih =>
    obtain ⟨copy, hcopy, hkeeps⟩ := h item List.mem_cons_self
    obtain ⟨copies, hcopies, hrest⟩ :=
      ih fun other hother => h other (List.mem_cons_of_mem item hother)
    refine ⟨copy :: copies, ?_, .cons hkeeps hrest⟩
    rw [List.mapM_cons, hcopy, hcopies]
    rfl

section Digits

variable (hdigit : ∀ c, c.isDigit = true → digit c = true) (hpoint : digit '.' = false)
include hdigit hpoint

lemma safeFactor_ok (h : v.AllTexts Displayable) (hplain : PlainDecimal (v.field "amount"))
    (hvalid : validateFactor isDecimal v = .ok ()) :
    ∃ copy, safeFactor digit v = .ok copy ∧
      Keeps ["name", "amount", "effect_on_metric"] copy v := by
  simp only [validateFactor, require_ok, Bool.and_eq_true, and_assoc] at hvalid
  obtain ⟨hexact, hname, hamount, heffect⟩ := hvalid
  apply exists_bind_and (object_ok (hasExactFields_iff.mp hexact).1)
  apply exists_bind_and (string_ok (h.field "name") hname)
  apply exists_bind_and
    (decimal_ok hdigit hpoint (h.field "amount") (isString_of_isDecimalText hamount) hplain)
  apply exists_bind_and (string_ok (h.field "effect_on_metric") (isString_of_isOneOf heffect))
  refine ⟨_, rfl, ?_⟩
  simp only [Keeps, List.forall_mem_cons]
  exact ⟨rfl, rfl, rfl, fun _ hkey => absurd hkey List.not_mem_nil⟩

lemma safeProduct_ok (h : v.AllTexts Displayable) (hchange : PlainDecimal (v.field "change"))
    (hamounts : ∀ factor ∈ (v.field "factors").items, PlainDecimal (factor.field "amount"))
    (hvalid : validateProduct isDecimal v = .ok ()) :
    ∃ copy, safeProduct digit v = .ok copy ∧ ProductCopied copy v := by
  simp only [validateProduct, checked_bind_ok, require_ok, Bool.and_eq_true, and_assoc,
    forM_ok_iff] at hvalid
  obtain ⟨hexact, hname, hchangeText, heffect, hclass, hlist, hfactors⟩ := hvalid
  obtain ⟨factors, hcopies, hkept⟩ := exists_copies fun factor hfactor =>
    safeFactor_ok hdigit hpoint ((h.field "factors").items factor hfactor)
      (hamounts factor hfactor) (hfactors factor hfactor)
  apply exists_bind_and (object_ok (hasExactFields_iff.mp hexact).1)
  apply checked_bind_and hlist
  apply exists_bind_and (string_ok (h.field "product_name") hname)
  apply exists_bind_and
    (decimal_ok hdigit hpoint (h.field "change") (isString_of_isDecimalText hchangeText) hchange)
  apply exists_bind_and (string_ok (h.field "classification") (isString_of_isOneOf hclass))
  apply exists_bind_and (string_ok (h.field "effect_on_metric") (isString_of_isOneOf heffect))
  apply exists_bind_and hcopies
  refine ⟨_, rfl, ?_, hkept⟩
  simp only [Keeps, List.forall_mem_cons]
  exact ⟨rfl, rfl, rfl, rfl, fun _ hkey => absurd hkey List.not_mem_nil⟩

lemma safeAttribution_ok (h : v.AllTexts Displayable) (hplain : PlainAmounts v)
    (hvalid : validateAttribution isDecimal v = .ok ()) :
    ∃ copy, safeAttribution digit v = .ok copy ∧ AttributionCopied copy v := by
  simp only [validateAttribution, checked_bind_ok, require_ok, Bool.and_eq_true, and_assoc,
    forM_ok_iff, List.all_eq_true] at hvalid
  obtain ⟨hexact, hmetric, hcomparison, hcurrent, hvalues, hdirection, homitted, hbound, hpassed,
    hlist, hproducts⟩ := hvalid
  obtain ⟨products, hcopies, hkept⟩ := exists_copies fun product hproduct =>
    safeProduct_ok hdigit hpoint ((h.field "products").items product hproduct)
      (hplain.changes product hproduct) (hplain.amounts product hproduct)
      (hproducts product hproduct)
  have hnames : ∀ key ∈ ["metric_name", "comparison_period", "current_period", "direction"],
      string (v.field key) "归因说明" = .ok (v.field key) := by
    simp only [List.forall_mem_cons]
    exact ⟨string_ok (h.field _) (isString_of_isOneOf hmetric),
      string_ok (h.field _) (isString_of_nonempty hcomparison),
      string_ok (h.field _) (isString_of_nonempty hcurrent),
      string_ok (h.field _) (isString_of_isOneOf hdirection),
      fun _ hkey => absurd hkey List.not_mem_nil⟩
  have hamounts : ∀ key ∈ ["comparison_value", "current_value", "total_change"],
      decimal digit (v.field key) "归因指标值" = .ok (v.field key) := by
    intro key hkey
    exact decimal_ok hdigit hpoint (h.field key) (isString_of_isDecimalText (hvalues key hkey))
      (hplain.values key hkey)
  apply exists_bind_and (object_ok (hasExactFields_iff.mp hexact).1)
  apply checked_bind_and hpassed
  apply checked_bind_and hlist
  apply exists_bind_and hcopies
  apply checked_bind_and (Bool.and_eq_true_iff.mpr ⟨homitted, hbound⟩)
  apply exists_bind_and (checkedFields_ok hnames)
  apply exists_bind_and (checkedFields_ok hamounts)
  refine ⟨_, rfl, ?_, hkept⟩
  simp only [Keeps, List.forall_mem_cons]
  exact ⟨rfl, rfl, rfl, rfl, rfl, rfl, rfl, rfl, fun _ hkey => absurd hkey List.not_mem_nil⟩

end Digits

lemma safeIncomplete_ok (h : v.AllTexts Displayable) (hdict : v.isDict = true)
    (hid : (v.field "task_id").isString = true)
    (hreasons : isStringList (v.field "reasons") = true) :
    ∃ copy, safeIncomplete v = .ok copy ∧ Keeps ["task_id", "reasons"] copy v := by
  apply exists_bind_and (object_ok hdict)
  apply exists_bind_and (string_ok (h.field "task_id") hid)
  apply exists_bind_and (strings_ok (h.field "reasons") hreasons)
  refine ⟨_, rfl, ?_⟩
  simp only [Keeps, List.forall_mem_cons]
  exact ⟨rfl, rfl, fun _ hkey => absurd hkey List.not_mem_nil⟩

lemma safeReport_ok (hdigit : ∀ c, c.isDigit = true → digit c = true) (hpoint : digit '.' = false)
    {ids : TaskIds} (h : v.AllTexts Displayable)
    (hplain : (v.get? "attribution").isSome → PlainAmounts (v.field "attribution"))
    (hvalid : validateAnalysisReport isDecimal v ids = .ok ()) :
    ∃ copy, safeReport digit v = .ok copy ∧ ReportCopied copy v := by
  simp only [validateAnalysisReport, checked_bind_ok, require_ok, Bool.and_eq_true, and_assoc,
    List.all_eq_true] at hvalid
  obtain ⟨-, htitles, hlists, -, -, hincompleteList, hrest⟩ := hvalid
  obtain ⟨seen, hincomplete, hattribution⟩ := except_bind_ok.mp hrest
  have hheadings : ∀ key ∈ ["title", "executive_summary", "trend_judgment"],
      string (v.field key) "分析报告" = .ok (v.field key) :=
    fun key hkey => string_ok (h.field key) (isString_of_nonempty (htitles key hkey))
  have hstrings : ∀ key ∈
      ["key_findings", "root_causes", "action_suggestions", "evidence_task_ids"],
      strings (v.field key) "分析报告" = .ok (v.field key) :=
    fun key hkey => strings_ok (h.field key) (hlists key hkey)
  obtain ⟨incomplete, hcopies, hkept⟩ := exists_copies fun item hitem => by
    obtain ⟨hexact, hid, -, hreasons⟩ := addIncomplete_ok hincomplete item hitem
    exact safeIncomplete_ok ((h.field "incomplete_tasks").items item hitem)
      (hasExactFields_iff.mp hexact).1 hid hreasons
  apply exists_bind_and (checkedFields_ok hheadings)
  apply exists_bind_and (checkedFields_ok hstrings)
  apply checked_bind_and hincompleteList
  apply exists_bind_and hcopies
  cases hget : v.get? "attribution" with
  | none =>
    have hnull : safeReportAttribution digit v = .ok [] := by
      rw [safeReportAttribution, Json.field, hget]
      rfl
    apply exists_bind_and hnull
    refine ⟨_, rfl, ?_, hkept, ?_⟩
    · simp only [Keeps, List.forall_mem_cons]
      exact ⟨rfl, rfl, rfl, rfl, rfl, rfl, rfl, fun _ hkey => absurd hkey List.not_mem_nil⟩
    · rw [hget]
      exact ⟨rfl, fun hsome => absurd hsome Bool.false_ne_true⟩
  | some attribution =>
    have hfield := Json.field_of_get? hget
    rw [hget] at hattribution
    have hamounts := hplain (by rw [hget]; rfl)
    have htexts := h.field "attribution"
    rw [hfield] at hamounts htexts
    obtain ⟨copy, hcopy, hcopied⟩ := safeAttribution_ok hdigit hpoint htexts hamounts hattribution
    have hdict : attribution.isNull = false := by
      simp only [validateAttribution, checked_bind_ok, require_ok] at hattribution
      have hisDict := (hasExactFields_iff.mp hattribution.1).1
      cases attribution with
      | obj fields => rfl
      | _ => cases hisDict
    have hsome : safeReportAttribution digit v = .ok [("attribution", copy)] := by
      rw [safeReportAttribution, hfield, hdict, hcopy]
      rfl
    apply exists_bind_and hsome
    refine ⟨_, rfl, ?_, hkept, ?_⟩
    · simp only [Keeps, List.forall_mem_cons]
      exact ⟨rfl, rfl, rfl, rfl, rfl, rfl, rfl, fun _ hkey => absurd hkey List.not_mem_nil⟩
    · rw [hget, hfield]
      exact ⟨rfl, fun _ => hcopied⟩

end Attribution

/-! ### Tasks -/

section Tasks

variable {dumps : Json → Option String} {v : Json} {tasks : List Json}

abbrev taskKeys : List String := ["task_id", "status", "columns", "rows", "row_count", "truncated"]

def idOf (task : Json) : String := (task.field "task_id").text

lemma safeError_ok (h : v.AllTexts Displayable)
    (hvalid : v.isNull = true ∨ hasExactFields v ["code", "message"] [] = true ∧
      (v.field "message").isString = true) : ∃ message, safeError v = .ok message := by
  unfold safeError
  split
  · exact ⟨_, rfl⟩
  · rename_i hnull
    obtain ⟨hexact, hmessage⟩ := hvalid.resolve_left hnull
    apply exists_bind_ok (object_ok (hasExactFields_iff.mp hexact).1)
    exact ⟨_, string_ok (h.field "message") hmessage⟩

lemma checkRow_ok {columns : ℕ} (hlist : v.isList = true) (hlength : v.items.length = columns)
    (hcells : v.items.all Json.isScalar = true) : checkRow columns v = .ok () := by
  have hkinds : v.items.all (fun cell => !(cell.isList || cell.isDict)) = true := by
    rw [List.all_eq_true] at hcells ⊢
    intro cell hcell
    have hscalar := hcells cell hcell
    cases cell with
    | arr items => cases hscalar
    | obj fields => cases hscalar
    | _ => rfl
  simp only [checkRow, checked_bind_ok, require_ok, Bool.and_eq_true, decide_eq_true_eq]
  exact ⟨⟨hlist, hlength⟩, hkinds, hcells⟩

/-- A task of the codec is collected when its identity is new and its cells fit. -/
lemma collectTask_ok {collected : Collected} (h : v.AllTexts Displayable)
    (hvalid : validateAnalysisTask v = .ok ()) (hnew : idOf v ∉ collected.taskIds)
    (hcells : collected.cells + cellsOf v ≤ maxPdfTableCells) :
    ∃ copy, collectTask dumps collected v = .ok ⟨collected.tasks ++ [copy],
      collected.taskIds ++ [idOf v], collected.cells + cellsOf v⟩ ∧ Keeps taskKeys copy v := by
  simp only [validateAnalysisTask, checked_bind_ok, require_ok, Bool.and_eq_true, Bool.or_eq_true,
    and_assoc, decide_eq_true_eq] at hvalid
  obtain ⟨hexact, hid, hstatus, hcolumns, hrows, hcount, hbound, htruncated, hcomplete, herror,
    hmetadata⟩ := hvalid
  simp only [validRows, Bool.and_eq_true, List.all_eq_true, decide_eq_true_eq] at hrows
  obtain ⟨⟨hrowList, hmaximum⟩, hrowItems⟩ := hrows
  have hhashable : (!((v.field "status").isList || (v.field "status").isDict)) = true := by
    rw [Json.eq_str_of_isString (isString_of_isOneOf hstatus)]
    rfl
  have hchecked : (v.field "rows").items.forM (checkRow (v.field "columns").items.length) =
      .ok () := by
    apply forM_ok_iff.mpr
    intro row hrow
    obtain ⟨⟨hlist, hlength⟩, hcellItems⟩ := hrowItems row hrow
    exact checkRow_ok hlist hlength (List.all_eq_true.mpr hcellItems)
  have hrange : ((v.field "row_count").isInt &&
      decide (((v.field "rows").items.length : Int) ≤ number (v.field "row_count")) &&
      (v.field "truncated").isBool &&
      (decide (number (v.field "row_count") ≤ ((v.field "rows").items.length : Int)) ||
        isTrue (v.field "truncated"))) = true := by
    simp only [Bool.and_eq_true, Bool.or_eq_true, decide_eq_true_eq]
    refine ⟨⟨⟨hcount, hbound⟩, htruncated⟩, ?_⟩
    rcases hcomplete with htrue | hequal
    · exact .inr htrue
    · exact .inl hequal.le
  have herrorChecked : (v.field "error").isNull = true ∨
      hasExactFields (v.field "error") ["code", "message"] [] = true ∧
        ((v.field "error").field "message").isString = true :=
    herror.imp_right fun hfields => ⟨hfields.1, hfields.2.2⟩
  obtain ⟨message, hmessage⟩ := safeError_ok (h.field "error") herrorChecked
  obtain ⟨metadata, hmetadataOk⟩ := @safeMetadata_of_table dumps _ h hmetadata
  refine ⟨.obj [("task_id", v.field "task_id"), ("status", v.field "status"),
    ("columns", v.field "columns"), ("rows", .arr (v.field "rows").items),
    ("row_count", v.field "row_count"), ("truncated", v.field "truncated"), ("error", message),
    ("result_metadata", metadata)], ?_, ?_⟩
  · apply bind_of_ok (object_ok (hasExactFields_iff.mp hexact).1)
    apply bind_of_ok (string_ok (h.field "task_id") (isString_of_nonempty hid))
    apply bind_of_ok (require_ok.mpr hhashable)
    apply bind_of_ok (require_ok.mpr (Bool.and_eq_true_iff.mpr ⟨hstatus, decide_eq_true hnew⟩))
    apply bind_of_ok (strings_ok (h.field "columns") hcolumns)
    apply bind_of_ok (require_ok.mpr (Bool.and_eq_true_iff.mpr ⟨hrowList, decide_eq_true hmaximum⟩))
    apply bind_of_ok hchecked
    apply bind_of_ok (require_ok.mpr hrange)
    apply bind_of_ok (require_ok.mpr hcells)
    apply bind_of_ok hmessage
    apply bind_of_ok hmetadataOk
    rfl
  · simp only [Keeps, List.forall_mem_cons]
    exact ⟨rfl, rfl, rfl, (Json.eq_arr_of_isList hrowList).symm, rfl, rfl,
      fun _ hkey => absurd hkey List.not_mem_nil⟩

/-- The tasks of the codec are collected in their order. -/
lemma collectTasks_ok {collected : Collected} (h : ∀ task ∈ tasks, task.AllTexts Displayable)
    (hvalid : ∀ task ∈ tasks, validateAnalysisTask task = .ok ()) (hnodup : (tasks.map idOf).Nodup)
    (hnew : ∀ task ∈ tasks, idOf task ∉ collected.taskIds)
    (hcells : collected.cells + (tasks.map cellsOf).sum ≤ maxPdfTableCells) :
    ∃ copies, tasks.foldlM (collectTask dumps) collected = .ok ⟨collected.tasks ++ copies,
      collected.taskIds ++ tasks.map idOf, collected.cells + (tasks.map cellsOf).sum⟩ ∧
      List.Forall₂ (Keeps taskKeys) copies tasks := by
  induction tasks generalizing collected with
  | nil =>
    refine ⟨[], ?_, .nil⟩
    rw [List.foldlM_nil, List.map_nil, List.map_nil, List.append_nil, List.append_nil]
    rfl
  | cons task tasks ih =>
    rw [List.map_cons, List.sum_cons, ← Nat.add_assoc] at hcells
    obtain ⟨hfresh, hnodup⟩ := List.nodup_cons.mp hnodup
    obtain ⟨copy, hcopy, hkeeps⟩ := @collectTask_ok dumps task collected (h task List.mem_cons_self)
      (hvalid task List.mem_cons_self) (hnew task List.mem_cons_self)
      ((Nat.le_add_right _ _).trans hcells)
    have hrest : ∀ other ∈ tasks, idOf other ∉ collected.taskIds ++ [idOf task] := by
      intro other hother hin
      rcases List.mem_append.mp hin with hbefore | hsame
      · exact hnew other (List.mem_cons_of_mem task hother) hbefore
      · rw [← List.mem_singleton.mp hsame] at hfresh
        exact hfresh (List.mem_map_of_mem hother)
    obtain ⟨copies, hcopies, hkept⟩ := @ih
      ⟨collected.tasks ++ [copy], collected.taskIds ++ [idOf task], collected.cells + cellsOf task⟩
      (fun other hother => h other (List.mem_cons_of_mem task hother))
      (fun other hother => hvalid other (List.mem_cons_of_mem task hother)) hnodup hrest hcells
    refine ⟨copy :: copies, ?_, .cons hkeeps hkept⟩
    rw [List.foldlM_cons]
    apply bind_of_ok hcopy
    rw [hcopies]
    simp only [List.append_assoc, List.singleton_append, List.map_cons, List.sum_cons,
      Nat.add_assoc]

/-- The codec has seen every identity once. -/
lemma addTask_ids {ids ids' : TaskIds} (h : tasks.foldlM addTask ids = .ok ids') :
    (tasks.map idOf).Nodup ∧ ∀ task ∈ tasks, idOf task ∉ ids.all := by
  induction tasks generalizing ids with
  | nil => exact ⟨List.nodup_nil, fun _ htask => absurd htask List.not_mem_nil⟩
  | cons task tasks ih =>
    rw [List.foldlM_cons, except_bind_ok] at h
    obtain ⟨next, hnext, htasks⟩ := h
    simp only [addTask, checked_bind_ok, except_pure_ok, require_ok] at hnext
    obtain ⟨-, hfresh, rfl⟩ := hnext
    obtain ⟨hnodup, hnew⟩ := ih htasks
    constructor
    · rw [List.map_cons, List.nodup_cons]
      refine ⟨?_, hnodup⟩
      intro hin
      obtain ⟨other, hother, hsame⟩ := List.mem_map.mp hin
      apply hnew other hother
      rw [hsame]
      exact List.mem_append_right _ (List.mem_singleton_self _)
    · rw [List.forall_mem_cons]
      refine ⟨hfresh, fun other hother hin => ?_⟩
      exact hnew other hother (List.mem_append_left _ hin)

end Tasks

/-! ### The document -/

section Times

open FixedDigits DateTime

lemma displayable_hexDigit {n : ℕ} (h : n < 10) : isDisplayable (JsonDoc.hexDigit n) = true := by
  have hprintable := JsonDoc.hexDigit_printable (h.trans (by omega))
  unfold isDisplayable
  rw [decide_eq_true hprintable, Bool.true_or]

lemma displayable_digits {width n : ℕ} (h : n < 10 ^ width) :
    (digits 10 width n).all isDisplayable = true := by
  induction width generalizing n with
  | zero => rfl
  | succ width ih =>
    have hpos : 0 < 10 ^ width := Nat.pow_pos (by omega)
    have hdigit : n / 10 ^ width < 10 := by
      rw [Nat.div_lt_iff_lt_mul hpos, Nat.mul_comm, ← pow_succ]
      exact h
    rw [digits, List.all_cons, displayable_hexDigit hdigit, ih (Nat.mod_lt _ hpos)]
    rfl

/-- The text of a time has digits, letters and separators only. -/
lemma displayable_isoformat (d : DateTime) : Displayable (String.ofList d.isoformat) := by
  have hyear := d.date.hyear
  have hmonth := d.date.hmonth
  have hday := d.date.hday.2.trans Date.daysInMonth_le
  have hmicros := d.hmicros
  have hoffset := d.offset.property
  have hdate : (isoDate d.date).all isDisplayable = true := by
    rw [isoDate, List.all_append, List.all_cons, List.all_append, List.all_cons,
      displayable_digits (by omega), displayable_digits (by omega), displayable_digits (by omega)]
    rfl
  have hfraction : (isoFraction d.micros).all isDisplayable = true := by
    unfold isoFraction
    split
    · rfl
    · rw [List.all_cons, displayable_digits (by omega)]
      rfl
  have hclock : (isoClock d.micros).all isDisplayable = true := by
    rw [isoClock, List.all_append, List.all_cons, List.all_append, List.all_cons, List.all_append,
      displayable_digits (by omega), displayable_digits (by omega), displayable_digits (by omega),
      hfraction]
    rfl
  have hzone : (isoOffset d.offset).all isDisplayable = true := by
    unfold isoOffset
    dsimp only
    rw [List.all_cons, List.all_append, List.all_cons, List.all_append,
      displayable_digits (by omega), displayable_digits (by omega)]
    have hsign : isDisplayable (if d.offset.val < 0 then '-' else '+') = true := by
      split <;> rfl
    have hseconds : (if d.offset.val.natAbs % 60 = 0 then [] else
        ':' :: digits 10 2 (d.offset.val.natAbs % 60)).all isDisplayable = true := by
      split
      · rfl
      · rw [List.all_cons, displayable_digits (by omega)]
        rfl
    rw [hsign, hseconds]
    rfl
  unfold Displayable
  rw [String.toList_ofList, isoformat, List.all_append, List.all_cons, List.all_append, hdate,
    hclock, hzone]
  rfl

end Times

section Document

variable {isDecimal : String → Bool} {digit : Char → Bool} {dumps : Json → Option String}
  {envelope result : Json} {row : SourceRow}

lemma textOr_ok {source value missing : Json} {key label : String}
    (hfield : source.field key = value) (h : value.AllTexts Displayable) :
    ∃ text, textOr source key label missing = .ok text := by
  unfold textOr
  rw [hfield]
  split
  · rename_i hstring
    exact ⟨_, string_ok h hstring⟩
  · exact ⟨_, rfl⟩

lemma displayable_question (h : envelope.AllTexts Displayable)
    (hquestion : ∀ question, row.question = some question → Displayable question) :
    (sourceQuestion envelope row).AllTexts Displayable := by
  unfold sourceQuestion
  split
  · rename_i question hrow
    exact .str (hquestion question hrow)
  · generalize (if (envelope.field "kind").text = "query" then "source_question" else
      "original_question") = key
    dsimp only
    split
    · exact h.field key
    · exact .null

lemma displayable_time (time : Option DateTime) : (optionalTime time).AllTexts Displayable := by
  cases time with
  | none => exact .null
  | some time => exact .str (displayable_isoformat time)

/-- The parts of the result of an analysis that the codec accepts. -/
lemma analysis_parts (hkind : envelope.field "kind" = .str "analysis")
    (hpublic : publicSnapshot isDecimal envelope = .ok result) :
    result = envelope.field "result" ∧ result.isDict = true ∧
      (result.field "task_results").isList = true ∧
      ∃ ids, (result.field "task_results").items.foldlM addTask {} = .ok ids ∧
        validateAnalysisReport isDecimal (result.field "report") ids = .ok () := by
  simp only [publicSnapshot, checked_bind_ok, except_pure_ok, require_ok, Bool.and_eq_true,
    and_assoc] at hpublic
  obtain ⟨-, -, -, -, hdict, -, -, hvalid, rfl⟩ := hpublic
  rw [hkind, validatePublicResult, if_neg (by decide)] at hvalid
  simp only [checked_bind_ok, require_ok, Bool.and_eq_true, and_assoc] at hvalid
  obtain ⟨-, -, -, -, hlist, hrest⟩ := hvalid
  obtain ⟨ids, hids, hreport⟩ := except_bind_ok.mp hrest
  exact ⟨rfl, hdict, hlist, ids, hids, hreport⟩

/-- The evidence of a report is among the tasks. -/
lemma evidence_known {report : Json} {tasks : List Json} {ids : TaskIds}
    (hids : tasks.foldlM addTask {} = .ok ids)
    (hreport : validateAnalysisReport isDecimal report ids = .ok ()) :
    ∀ id ∈ (report.field "evidence_task_ids").items, id.text ∈ tasks.map idOf := by
  simp only [validateAnalysisReport, checked_bind_ok, require_ok] at hreport
  obtain ⟨-, -, ⟨-, hcompleted⟩, -⟩ := hreport
  intro id hid
  obtain hnone | ⟨task, htask, htext, -⟩ :=
    (addTask_ok hids).2.2 id.text (hcompleted _ (List.mem_map_of_mem hid))
  · exact absurd hnone List.not_mem_nil
  · exact List.mem_map.mpr ⟨task, htask, htext⟩

lemma idOf_copies {copies tasks : List Json} (h : List.Forall₂ (Keeps taskKeys) copies tasks) :
    copies.map idOf = tasks.map idOf := by
  induction h with
  | nil => rfl
  | cons hkeeps _ ih =>
    rw [List.map_cons, List.map_cons, ih, idOf, idOf, hkeeps "task_id" (by decide)]

/-- The checks of the exporter pass on a document of the codec. -/
lemma safeDocument_ok (hdigit : ∀ c, c.isDigit = true → digit c = true) (hpoint : digit '.' = false)
    {document report : Json} {tasks : List Json} {ids : TaskIds}
    (hdocument : document.isDict = true)
    (htexts : ∀ key ∈ ["question", "result_time", "saved_time", "export_time", "result"],
      (document.field key).AllTexts Displayable)
    (hkind : document.field "kind" = .str "analysis")
    (hresult : (document.field "result").isDict = true)
    (hreportField : (document.field "result").field "report" = report)
    (htasks : (document.field "result").field "task_results" = .arr tasks)
    (hexport : (document.field "export_time").isString = true)
    (hids : tasks.foldlM addTask {} = .ok ids)
    (hreport : validateAnalysisReport isDecimal report ids = .ok ())
    (hplain : (report.get? "attribution").isSome → PlainAmounts (report.field "attribution"))
    (hcells : (tasks.map cellsOf).sum ≤ maxPdfTableCells) :
    ∃ clean, safeDocument digit dumps document = .ok clean ∧
      ResultCopied (clean.field "result") (document.field "result") := by
  simp only [List.forall_mem_cons] at htexts
  obtain ⟨hquestionTexts, hresultTimeTexts, hsavedTimeTexts, hexportTexts, hresultTexts, -⟩ :=
    htexts
  have hreportTexts := hresultTexts.field "report"
  have htaskTexts : ∀ task ∈ tasks, task.AllTexts Displayable := by
    have hall := (hresultTexts.field "task_results").items
    rw [htasks] at hall
    exact hall
  rw [hreportField] at hreportTexts
  have hreportDict : report.isDict = true := by
    simp only [validateAnalysisReport, checked_bind_ok, require_ok] at hreport
    exact (hasExactFields_iff.mp hreport.1).1
  obtain ⟨cleanReport, hsafeReport, hreportCopied⟩ :=
    safeReport_ok hdigit hpoint hreportTexts hplain hreport
  obtain ⟨hnodup, -⟩ := addTask_ids hids
  obtain ⟨copies, hcollected, hkept⟩ := @collectTasks_ok dumps tasks {} htaskTexts
    (addTask_ok hids).1 hnodup (fun _ _ => List.not_mem_nil) (by rw [Nat.zero_add]; exact hcells)
  have hcopyIds :
      ((([] : List Json) ++ copies).map fun task => (task.field "task_id").text).Nodup := by
    change (copies.map idOf).Nodup
    rw [idOf_copies hkept]
    exact hnodup
  have hevidence : ((cleanReport.field "evidence_task_ids").items.all
      fun id => id.text ∈ [] ++ tasks.map idOf) = true := by
    rw [hreportCopied.fields "evidence_task_ids" (by decide), List.all_eq_true]
    intro id hid
    exact decide_eq_true (evidence_known hids hreport id hid)
  obtain ⟨question, hquestion⟩ := @textOr_ok _ _ (.str "原分析问题未保存") "question" "原分析问题" rfl
    hquestionTexts
  obtain ⟨resultTime, hresultTime⟩ := @textOr_ok _ _ (.str "原报告完成时间未保存") "result_time"
    "报告完成时间" rfl hresultTimeTexts
  obtain ⟨savedTime, hsavedTime⟩ := @textOr_ok _ _ .null "saved_time" "成果保存时间" rfl
    hsavedTimeTexts
  apply exists_bind_and (object_ok hdocument)
  apply checked_bind_and (by rw [hkind]; rfl)
  apply exists_bind_and (object_ok hresult)
  rw [hreportField]
  apply exists_bind_and (object_ok hreportDict)
  apply exists_bind_and hsafeReport
  dsimp only
  rw [htasks]
  apply checked_bind_and rfl
  apply exists_bind_and hcollected
  apply checked_bind_and hcopyIds
  apply checked_bind_and hevidence
  apply exists_bind_and hquestion
  apply exists_bind_and hresultTime
  apply exists_bind_and hsavedTime
  apply exists_bind_and (string_ok hexportTexts hexport)
  refine ⟨_, rfl, ?_, ?_⟩
  · rw [hreportField]
    exact hreportCopied
  · rw [htasks]
    exact hkept

end Document

/-- What `export_snapshot` returns for an analysis. -/
def analysisSource (envelope result : Json) (row : SourceRow) : Json :=
  .obj [("kind", .str "analysis"), ("title", .str row.title),
    ("question", sourceQuestion envelope row), ("result_time", optionalTime row.completedAt),
    ("saved_time", optionalTime row.createdAt), ("result", result)]

/-- The exporter accepts the document of every snapshot of an analysis that the codec accepts and
that can be exported, and keeps its texts, evidence, tasks, tables, products and factors in
order. -/
theorem exporter_accepts (isDecimal : String → Bool) (digit : Char → Bool)
    (dumps : Json → Option String) (hdigit : ∀ c, c.isDigit = true → digit c = true)
    (hpoint : digit '.' = false) {envelope result : Json}
    (hkind : envelope.field "kind" = .str "analysis")
    (hpublic : publicSnapshot isDecimal envelope = .ok result) (hexportable : Exportable envelope)
    (row : SourceRow) (hquestion : ∀ question, row.question = some question → Displayable question)
    (now : DateTime) :
    ∃ source clean, exportSnapshot isDecimal envelope row = .ok source ∧
      safeDocument digit dumps (exportDocument source now) = .ok clean ∧
      ResultCopied (clean.field "result") result := by
  obtain ⟨hresult, hdict, hlist, ids, hids, hreport⟩ := analysis_parts hkind hpublic
  have hsource : exportSnapshot isDecimal envelope row =
      .ok (analysisSource envelope result row) := by
    apply bind_of_ok hpublic
    rw [hkind]
    rfl
  have htexts : ∀ key ∈ ["question", "result_time", "saved_time", "export_time", "result"],
      ((exportDocument (analysisSource envelope result row) now).field key).AllTexts
        Displayable := by
    simp only [List.forall_mem_cons]
    exact ⟨displayable_question hexportable.texts hquestion, displayable_time row.completedAt,
      displayable_time row.createdAt, .str (displayable_isoformat now),
      hresult ▸ hexportable.texts.field "result", fun _ hkey => absurd hkey List.not_mem_nil⟩
  have hamounts := hexportable.amounts
  have hcells := hexportable.cells
  rw [← hresult] at hamounts hcells
  obtain ⟨clean, hclean, hcopied⟩ := @safeDocument_ok isDecimal digit dumps hdigit hpoint _
    (result.field "report") (result.field "task_results").items ids rfl htexts rfl hdict rfl
    (Json.eq_arr_of_isList hlist) rfl hids hreport hamounts hcells
  exact ⟨_, clean, hsource, hclean, hcopied⟩

/-- The row of a saved result, and the time of its export. -/
def savedRow (time : DateTime) : SourceRow := ⟨"t", none, none, some time⟩

def newYear : DateTime :=
  ⟨⟨⟨2026, 1, 1, by decide, by decide, by decide⟩, 0, by decide⟩, ⟨0, by decide⟩⟩

theorem exporter_accepts_stored : ∃ source clean,
    exportSnapshot (fun _ => true) storedAnalysis (savedRow newYear) = .ok source ∧
      safeDocument Char.isDigit (fun _ => none) (exportDocument source newYear) = .ok clean ∧
      ResultCopied (clean.field "result") (storedAnalysis.field "result") := by
  have htexts : storedAnalysis.AllTexts Displayable := by
    simp only [storedAnalysis, storedAttribution, storedMetadata, storedColumn, Json.allTexts_obj,
      Json.allTexts_arr, Json.allTexts_str, List.forall_mem_cons, Json.AllTexts.int,
      Json.AllTexts.bool, Json.AllTexts.null, List.not_mem_nil, false_imp_iff, implies_true, and_true,
      true_and, Displayable]
    decide
  have hamounts :
      PlainAmounts (((storedAnalysis.field "result").field "report").field "attribution") := by
    constructor
    all_goals
      simp only [PlainDecimal]
      decide +kernel
  exact exporter_accepts (fun _ => true) Char.isDigit (fun _ => none) (fun _ h => h) rfl rfl rfl
    ⟨htexts, fun _ => hamounts, by decide⟩ (savedRow newYear) (fun _ h => by cases h) newYear

end ChatBI.Export.Pdf
